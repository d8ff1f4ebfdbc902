/-
  Stepwise/Proofs/Machine/Raised.lean
  ===================================
  **Faults that a run of a decoded program can raise, and faults that it cannot.**

  A raw program can jump out of itself, and a caller can offer a value that nothing has
  asked for.  Neither happens in a play of a decoded program.  Its jumps go where labels
  are bound, which is inside the program; and a play offers a value only where a machine
  waits, which is in front of a read into a place that exists.  What is left are faults of
  the stack, of registers, of arithmetic and of budgets (`Fault.Arises`), and a text that
  is no value, which is refused before the machine sees it (`arises_of_next`).
-/
import Stepwise.Proofs.Assembly.Shape
import Stepwise.Proofs.Machine.Bounds
import Stepwise.Proofs.Machine.Play

namespace Stepwise

/-- A machine that runs a decoded program can fail for it. -/
def Fault.Arises : Fault → Prop
  | stackUnderflow _ | divisionByZero _ | invalidRegister _ _ | valueOverflow _ _ | exceeded _ =>
    True
  | invalidJumpTarget _ _ | invalidInput _ _ | unexpectedInput => False

namespace Machine

variable {m : Machine} {s : State} {t : Transition} {i : Nat} {v : Int} {f : Fault}
  {instruction : Instruction} {p q : Play} {d : Delta} {ds : List Delta}

def JumpsWithin (m : Machine) : Prop :=
  ∀ instruction ∈ m.program.instructions, ∀ t, instruction.jumpTarget? = some t →
    t ≤ m.program.size

/-! ### Calls -/

theorem Fails.arises (within : m.JumpsWithin) (hg : m.program.get? i = some instruction)
    (h : m.Fails i s instruction f) : f.Arises := by
  cases h with
  | invalidJumpTarget target jumps beyond =>
    have le := within instruction (List.mem_of_getElem? hg) target jumps
    omega
  | _ => trivial

theorem arises_of_step (within : m.JumpsWithin) (h : m.step s = .error f) : f.Arises := by
  rcases step_fails h with ⟨limit, -, rfl⟩ | ⟨i, instruction, carries, fails⟩
  · trivial
  · exact fails.arises within carries.fetched

theorem arises_of_seed (h : m.seed s v = .error f) : f.Arises := by
  obtain ⟨-, rfl⟩ := seed_fails h
  trivial

/-- A machine that waits has asked for the value, and refuses it for want of room only. -/
theorem Bounded.arises_of_resume (hb : m.Bounded s) (hw : s.awaiting = true)
    (hv : inRange v = true) (h : m.resume s v = .error f) : f.Arises := by
  rcases hb.answer hw hv with ⟨-, full⟩ | ⟨-, t, ok⟩
  · cases full.symm.trans h
    trivial
  · cases ok.symm.trans h

/-! ### Plays -/

theorem inRange_of_inputValue {text : Text} (h : inputValue text = .ok v) : inRange v = true := by
  simp only [inputValue] at h
  split at h
  · rename_i w hw
    cases h
    exact (Option.filter_eq_some_iff.mp hw).2
  · cases h

/-- What a play does next is a call of the machine. -/
theorem call_of_next (h : m.next p = .delta d q) :
    q.inputs <:+ p.inputs ∧ ∃ c t, m.call p.state c = .ok t ∧ q.state = t.state := by
  have ofCall {result : Except Fault Transition} {rest : List Text}
      (h : Next.ofCall result rest = .delta d q) :
      ∃ t, result = .ok t ∧ q.state = t.state ∧ q.inputs = rest := by
    cases result with
    | error f => cases h
    | ok t =>
      cases h
      exact ⟨t, rfl, rfl, rfl⟩
  simp only [next] at h
  split at h
  · obtain ⟨t, ok, state, inputs⟩ := ofCall h
    exact ⟨inputs ▸ List.suffix_rfl, .seed _, t, ok, state⟩
  · split at h
    · cases h
    · split at h
      · split at h
        · cases h
        · rename_i text rest hi
          obtain ⟨t, ok, state, inputs⟩ := ofCall h
          obtain ⟨v, -, resumed⟩ := answer_cases ok
          refine ⟨?_, .resume v, t, resumed, state⟩
          rw [inputs, hi]
          exact List.suffix_cons text rest
      · obtain ⟨t, ok, state, inputs⟩ := ofCall h
        exact ⟨inputs ▸ List.suffix_rfl, .step, t, ok, state⟩

theorem Plays.bounded (h : m.Plays p ds q) (hb : m.Bounded p.state) : m.Bounded q.state := by
  induction h with
  | refl p => exact hb
  | cons first _ ih =>
    obtain ⟨-, c, t, ok, state⟩ := call_of_next first
    exact ih (state ▸ hb.call ok)

theorem Plays.inputs_suffix (h : m.Plays p ds q) : q.inputs <:+ p.inputs := by
  induction h with
  | refl p => exact List.suffix_rfl
  | cons first _ ih => exact ih.trans (call_of_next first).1

/-- **A play of a decoded program fails for what can arise**, or for an input that is no
    value. -/
theorem arises_of_next (within : m.JumpsWithin) (hb : m.Bounded p.state)
    (h : m.next p = .fault f) :
    f.Arises ∨ ∃ text, p.inputs.head? = some text ∧ inputValue text = .error f := by
  have ofCall {result : Except Fault Transition} {rest : List Text}
      (h : Next.ofCall result rest = .fault f) : result = .error f := by
    cases result <;> cases h
    rfl
  simp only [next] at h
  split at h
  · exact .inl (arises_of_seed (ofCall h))
  · split at h
    · cases h
    · split at h
      · rename_i waits
        split at h
        · cases h
        · rename_i text rest hi
          have fails := ofCall h
          simp only [answer, bind_fails_iff] at fails
          rcases fails with value | ⟨v, value, resumed⟩
          · exact .inr ⟨text, by rw [hi]; rfl, value⟩
          · exact .inl (hb.arises_of_resume waits (inRange_of_inputValue value) resumed)
      · exact .inl (arises_of_step within (ofCall h))

theorem jumpsWithin_of_decode {source : Text} (decodes : decode source = .ok m.program) :
    m.JumpsWithin :=
  fun _ hi _ jumps => target_le_of_decode decodes hi jumps

end Machine

end Stepwise

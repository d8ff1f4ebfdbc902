/-
  Stepwise/Proofs/Machine/Literal.lean
  ====================================
  **Reading a value is the same as having it in the program.**

  A read and the value it is given take two calls: the step looks at the place and asks, the
  answer stores and goes on.  A push or a move with the value written into it does all of this
  in one.  The two ways are built from the same change (`execute_literal`), and a place that a
  read refuses is one that nothing can be stored in, for the same fault
  (`asks_or_missing`).  So they agree on every state that does not wait, in what they lead to
  and in what they fail for (`read_is_literal`), although the limit of steps and the register
  are looked at in the first call of the two and the room on the stack in the second.

  The labels and lines of a program play no role when it runs, so the program with the literal
  is the program with one instruction replaced.
-/
import Stepwise.Proofs.Machine.Failure

namespace Stepwise

/-- The instruction that puts a value where a read puts the value that it is given. -/
def InputTarget.literal : InputTarget → Int → Instruction
  | stack, v => .push (.imm v)
  | reg dest, v => .mov dest (.imm v)

/-- The program with another instruction at an index. -/
def Program.withInstruction (p : Program) (i : Nat) (instruction : Instruction) : Program :=
  { p with instructions := p.instructions.set i instruction }

namespace Machine

def withInstruction (m : Machine) (i : Nat) (instruction : Instruction) : Machine :=
  { m with program := m.program.withInstruction i instruction }

/-- Take a step, and give a value to the machine that waits behind it. -/
def stepAndResume (m : Machine) (s : State) (v : Int) : Except Fault Transition := do
  let t ← m.step s
  m.resume t.state v

/-- The transition told as that of an answered read. -/
def Transition.answeredBy (t : Transition) (v : Int) : Transition :=
  { t with delta := { t.delta with input := some (.consumed v) } }

def Transition.waiting (t : Transition) : Transition :=
  { t with state := { t.state with awaiting := true } }

variable {m : Machine} {s : State} {t u : Transition} {i : Nat} {v : Int} {f : Fault}
  {target : InputTarget} {instruction : Instruction}

/-! ### One change, two ways to it -/

theorem execute_literal (m : Machine) (i : Nat) (t : Transition) (target : InputTarget) (v : Int) :
    m.execute i t (target.literal v) =
      (m.store t v (.read target)).map fun u => u.advance i := by
  cases target with
  | stack => exact bind_pure_comp (fun u => u.advance i) (t.push m.limits.maxStack v)
  | reg dest => exact bind_pure_comp (fun u => u.advance i) (t.setRegister dest v)

/-- Storing does not look at the waiting flag. -/
theorem store_waiting (m : Machine) (t : Transition) (v : Int) (target : InputTarget) :
    m.store t.waiting v (.read target) =
      (m.store t v (.read target)).map Transition.waiting := by
  cases target with
  | stack =>
    by_cases full : m.limits.maxStack ≤ t.state.stack.length
    · simp [store, Transition.push, Transition.waiting, full, Except.map]
    · simp [store, Transition.push, Transition.waiting, full, Except.map]
  | reg dest =>
    cases bank : t.state.bank.set? dest v with
    | none => simp [store, Transition.setRegister, Transition.waiting, bank, Except.map]
    | some b => simp [store, Transition.setRegister, Transition.waiting, bank, Except.map]

theorem store_keeps_awaiting (h : m.store t v (.read target) = .ok u) :
    u.state.awaiting = t.state.awaiting := by
  cases target with
  | stack =>
    simp only [store, Transition.push] at h
    split at h
    · cases h
    · cases h
      rfl
  | reg dest =>
    simp only [store, Transition.setRegister] at h
    split at h
    · cases h
    · cases h
      rfl

/-- A read asks, or it and everything that would be stored in its place fail alike. -/
theorem asks_or_missing (m : Machine) (target : InputTarget) :
    (∀ i t, m.execute i t (.read target) = .ok (t.request target)) ∨
      ∃ f, (∀ i t, m.execute i t (.read target) = .error f) ∧
        ∀ t v, m.store t v (.read target) = .error f := by
  cases target with
  | stack => exact .inl fun i t => rfl
  | reg dest =>
    rcases Nat.lt_or_ge dest.index.val Register.bankSize with inside | outside
    · refine .inl fun i t => ?_
      cases found : t.state.bank.get? dest with
      | none =>
        have missing := (Bank.get?_eq_none_iff _ _).mp found
        omega
      | some w => simp [execute, State.register, found, bind, Except.bind, pure, Except.pure]
    · refine .inr ⟨.invalidRegister dest.index.val Register.bankSize, fun i t => ?_, fun t v => ?_⟩
      · have missing : t.state.bank.get? dest = none := (Bank.get?_eq_none_iff _ _).mpr outside
        simp [execute, State.register, missing, bind, Except.bind]
      · have missing : t.state.bank.set? dest v = none := (Bank.set?_eq_none_iff _ _ _).mpr outside
        simp [store, Transition.setRegister, missing]

/-! ### Two calls and one -/

theorem get?_withInstruction (fetched : m.program.get? i = some instruction)
    (other : Instruction) : (m.withInstruction i other).program.get? i = some other := by
  obtain ⟨inside, -⟩ := List.getElem?_eq_some_iff.mp fetched
  exact List.getElem?_set_self inside

/-- The answer to a read stores, and goes on behind it. -/
theorem resume_of_request (pointer : s.pointer = .index i)
    (fetched : m.program.get? i = some (.read target)) (value : inRange v = true) :
    m.resume (Transition.request { state := s } target).state v =
      (m.store (Transition.waiting { state := s }) v (.read target)).map
        fun u => (u.consume v).advance i := by
  obtain ⟨bank, stack, place, steps, awaiting⟩ := s
  cases pointer
  simp only [resume, Transition.request, fetched, value, Bool.true_eq_false, if_false]
  exact bind_pure_comp _ _

/-- A step that asks and the answer to it are one step of the literal, told otherwise. -/
theorem stepAndResume_eq (pointer : s.pointer = .index i) (running : s.awaiting = false)
    (fetched : m.program.get? i = some (.read target)) (value : inRange v = true) :
    m.stepAndResume s v =
      ((m.withInstruction i (target.literal v)).step s).map fun t => t.answeredBy v := by
  have replaced := get?_withInstruction fetched (target.literal v)
  cases spent : m.limits.spent? s.steps with
  | some limit =>
    have stops : m.step s = .error (.exceeded (.stepCount limit)) := by
      simp [step, pointer, fetched, running, spent]
    have stopsToo : (m.withInstruction i (target.literal v)).step s =
        .error (.exceeded (.stepCount limit)) := by
      simp only [step, pointer, replaced, running]
      simp [withInstruction, spent]
    rw [stepAndResume, stops, stopsToo]
    rfl
  | none =>
    have asks : m.step s = m.execute i { state := s.counted } (.read target) :=
      CarriesOut.step ⟨pointer, fetched, running, spent⟩
    have carries : (m.withInstruction i (target.literal v)).CarriesOut s i (target.literal v) :=
      ⟨pointer, replaced, running, spent⟩
    -- the limits are those of the machine, so what is stored is the same
    have literal : (m.withInstruction i (target.literal v)).step s =
        (m.store { state := s.counted } v (.read target)).map fun u => u.advance i := by
      rw [carries.step, execute_literal]
      rfl
    rw [stepAndResume, asks, literal]
    rcases asks_or_missing m target with present | ⟨f, missing, unstored⟩
    · rw [present]
      change m.resume (Transition.request { state := s.counted } target).state v = _
      rw [resume_of_request (s := s.counted) pointer fetched value, store_waiting]
      cases stored : m.store { state := s.counted } v (.read target) with
      | error f => rfl
      | ok u =>
        have quiet : u.state.awaiting = false := (store_keeps_awaiting stored).trans running
        simp [Except.map, Transition.waiting, Transition.goTo, Transition.answeredBy, quiet]
    · rw [missing, unstored]
      rfl

/-- **Reading a value is the same as having it in the program.**  In a state that does not wait and
    whose instruction is a read, let the literal that puts a value in the same place stand for the
    read.  The step that asks and the answer with the value lead to the state that the one step of
    the literal leads to, its counter included, and tell the same but for the input; and they fail,
    the one or the other, exactly when that step does, and for the same fault.  Nothing is assumed
    of how the state was reached. -/
theorem read_is_literal (m : Machine) (s : State) (i : Nat) (target : InputTarget) (v : Int)
    (pointer : s.pointer = .index i) (running : s.awaiting = false)
    (fetched : m.program.get? i = some (.read target)) (value : inRange v = true) :
    let literal := m.withInstruction i (target.literal v)
    (∀ t, m.stepAndResume s v = .ok t ↔
      ∃ u, literal.step s = .ok u ∧ t.state = u.state ∧
        t.delta = { u.delta with input := some (.consumed v) }) ∧
      ∀ f, m.stepAndResume s v = .error f ↔ literal.step s = .error f := by
  intro literal
  rw [stepAndResume_eq pointer running fetched value]
  change (∀ t, (literal.step s).map _ = .ok t ↔ _) ∧ ∀ f, (literal.step s).map _ = .error f ↔ _
  cases literal.step s with
  | error f => simp [Except.map]
  | ok u =>
    refine ⟨fun t => ⟨?_, ?_⟩, fun f => by simp [Except.map]⟩
    · intro told
      cases told
      exact ⟨u, rfl, rfl, rfl⟩
    · rintro ⟨u', same, state, delta⟩
      cases same
      obtain ⟨state', delta'⟩ := t
      cases state
      cases delta
      rfl

/-- The stack is full: the read still asks, and its answer fails where the literal fails. -/
theorem read_is_literal_full_stack :
    let m : Machine :=
      { program := { instructions := [.push (.imm 5), .read .stack, .write] }
        limits := { maxStack := 1, maxSteps := some 2 } }
    let s : State := { stack := [5], pointer := .index 1, steps := 1 }
    m.step {} = .ok ⟨s, { pointer := some 1, stack := some [5] }⟩ ∧
      m.step s = .ok (Transition.request { state := s.counted } .stack) ∧
      m.stepAndResume s (-7) = .error (.exceeded (.stackDepth 1)) := by
  intro m s
  refine ⟨by decide, by decide, ?_⟩
  obtain ⟨-, fails⟩ := read_is_literal m s 1 .stack (-7) rfl rfl rfl (by decide)
  exact (fails _).mpr (by decide)

end Machine

end Stepwise

/-
  Stepwise/Proofs/Machine/Bounds.lean
  ===================================
  **Whatever a machine is asked to do, it stays within its bounds.**

  The program may be any list of instructions, with targets, registers and immediates that
  no source can spell.  Still the stack never outgrows its limit, the pointer never leaves
  the program, the counter never passes the limit of steps, and a machine that waits stands
  in front of a read into a place that exists (`Bounded`).

  The four parts hold each other up.  An instruction is only carried out where the pointer
  is inside the program, so going on behind it stays within the length.  Stack arithmetic
  pushes without asking for room of its own, and cannot lack it, because two values have
  gone from a stack that was within its limit.  And since the place a read wants was looked
  at before the machine began to wait, giving it a value can only fail for want of room.
-/
import Stepwise.Proofs.Machine.Failure
import Stepwise.Proofs.Machine.Preservation

namespace Stepwise

/-- There is a place that the target names. -/
def InputTarget.Exists : InputTarget → Prop
  | stack => True
  | reg r => r.index.val < Register.bankSize

namespace Machine

variable {m : Machine} {s : State} {t u : Transition} {i n : Nat} {v : Int} {f : Fault}
  {op : ArithOp} {instruction : Instruction}

/-! ### Instructions -/

theorem exists_of_read {target : InputTarget} (h : m.execute i t (.read target) = .ok u) :
    target.Exists := by
  cases target with
  | stack => trivial
  | reg dest =>
    simp only [execute, bind_succeeds_iff] at h
    obtain ⟨v, hv, -⟩ := h
    rcases Nat.lt_or_ge dest.index.val Register.bankSize with inside | outside
    · exact inside
    · have missing : t.state.bank.get? dest = none := (Bank.get?_eq_none_iff _ _).mpr outside
      simp [State.register, missing] at hv

/-- The stack and the pointer are within their bounds, and `n` instructions count. -/
structure InBounds (m : Machine) (n : Nat) (t : Transition) : Prop where
  stack : t.state.stack.length ≤ m.limits.maxStack
  pointer : ∀ i, t.state.pointer = .index i → i ≤ m.program.size
  steps : t.state.steps = n

theorem keeps_inBounds (m : Machine) (n : Nat) : m.Keeps (fun _ => True) (m.InBounds n) where
  push := by
    intro t u v ht _ h
    simp only [Transition.push] at h
    split at h
    · cases h
    · rename_i room
      cases h
      exact ⟨Nat.lt_of_not_le room, ht.pointer, ht.steps⟩
  pop := by
    intro t u v i ht h
    have stack := ht.stack
    simp only [Transition.pop] at h
    split at h
    · cases h
    · rename_i top rest hs
      cases h
      rw [hs, List.length_cons] at stack
      exact ⟨trivial, Nat.le_of_succ_le stack, ht.pointer, ht.steps⟩
  setRegister := by
    intro t u r v ht _ h
    simp only [Transition.setRegister] at h
    split at h
    · cases h
    · cases h
      exact ⟨ht.stack, ht.pointer, ht.steps⟩
  register := fun _ _ => trivial
  compute := fun _ _ _ => trivial
  putOut := fun ht _ => ⟨ht.stack, ht.pointer, ht.steps⟩
  goTo := by
    intro t j ht le
    refine ⟨ht.stack, ?_, ht.steps⟩
    intro i hi
    cases hi
    exact le
  halt := by
    intro t ht
    refine ⟨ht.stack, ?_, ht.steps⟩
    intro i hi
    cases hi
  request := fun ht => ⟨ht.stack, ht.pointer, ht.steps⟩

/-! ### Calls -/

/-- The bounds that a state of a machine keeps to. -/
structure Bounded (m : Machine) (s : State) : Prop where
  stack : s.stack.length ≤ m.limits.maxStack
  pointer : ∀ i, s.pointer = .index i → i ≤ m.program.size
  steps : ∀ limit, m.limits.maxSteps = some limit → s.steps ≤ limit
  waits : s.awaiting = true → ∃ i target, s.pointer = .index i ∧
    m.program.get? i = some (.read target) ∧ target.Exists

theorem bounded_start (m : Machine) : m.Bounded {} where
  stack := Nat.zero_le _
  pointer := by
    intro i hi
    cases hi
    exact Nat.zero_le _
  steps := fun _ _ => Nat.zero_le _
  waits := by
    intro hw
    cases hw

theorem lt_of_spent {limit : Nat} (h : m.limits.spent? n = none)
    (hl : m.limits.maxSteps = some limit) : n < limit := by
  simpa [Limits.spent?, hl] using h

theorem Bounded.step (hb : m.Bounded s) (h : m.step s = .ok t) : m.Bounded t.state := by
  rcases step_cases h with
    ⟨hp, rfl⟩ | ⟨i, hp, ⟨hg, rfl⟩ | ⟨instruction, hg, ⟨hw, rfl⟩ | ⟨hw, left, he⟩⟩⟩
  · exact hb
  · refine ⟨hb.stack, ?_, hb.steps, ?_⟩
    · intro j hj
      cases hj
    · intro hw
      cases hw
  · exact hb
  · have start : m.InBounds (s.steps + 1) { state := s.counted } := ⟨hb.stack, hb.pointer, rfl⟩
    have ht : m.InBounds (s.steps + 1) t :=
      (keeps_inBounds m _).execute (fun _ _ => trivial) (lt_size_of_get hg) start he
    refine ⟨ht.stack, ht.pointer, ?_, ?_⟩
    · intro limit hl
      rw [ht.steps]
      exact lt_of_spent left hl
    · intro hw'
      rcases execute_cases (Transition.open_counted s) he with
        ⟨w, j, hwo, rfl⟩ | ⟨-, rfl⟩ | ⟨target, rfl, rfl⟩
      · have : s.awaiting = true := hwo.quiet ▸ hw'
        simp [hw] at this
      · have : s.awaiting = true := hw'
        simp [hw] at this
      · exact ⟨i, target, hp, hg, exists_of_read he⟩

theorem Bounded.resume (hb : m.Bounded s) (h : m.resume s v = .ok t) : m.Bounded t.state := by
  obtain ⟨i, target, u, -, -, -, hg, hu, rfl⟩ := resume_stores h
  have hk := keeps_inBounds m s.steps
  have start : m.InBounds s.steps { state := s } := ⟨hb.stack, hb.pointer, rfl⟩
  have stored : m.InBounds s.steps u := hk.store start trivial hu
  refine ⟨stored.stack, ?_, ?_, ?_⟩
  · intro j hj
    cases hj
    exact lt_size_of_get hg
  · intro limit hl
    have same : u.state.steps = s.steps := stored.steps
    exact same ▸ hb.steps limit hl
  · intro hw
    cases hw

theorem Bounded.seed (hb : m.Bounded s) (h : m.seed s v = .ok t) : m.Bounded t.state := by
  obtain ⟨u, hu, rfl⟩ := seed_pushes h
  have start : m.InBounds s.steps { state := s } := ⟨hb.stack, hb.pointer, rfl⟩
  have pushed : m.InBounds s.steps u := (keeps_inBounds m s.steps).push start trivial hu
  simp only [Transition.push] at hu
  split at hu
  · cases hu
  · cases hu
    exact ⟨pushed.stack, hb.pointer, hb.steps, hb.waits⟩

theorem Bounded.call {c : Call} (hb : m.Bounded s) (h : m.call s c = .ok t) :
    m.Bounded t.state := by
  cases c with
  | step => exact hb.step h
  | resume v => exact hb.resume h
  | seed v => exact hb.seed h

/-! ### Answering reads -/

/-- The machine stands in front of a read onto the stack, which is full. -/
def Blocked (m : Machine) (s : State) : Prop :=
  (∃ i, s.pointer = .index i ∧ m.program.get? i = some (.read .stack)) ∧
    s.stack.length = m.limits.maxStack

/-- A machine that waits takes any value within bounds, unless it has no room for it. -/
theorem Bounded.answer (hb : m.Bounded s) (hw : s.awaiting = true) (hv : inRange v = true) :
    (m.Blocked s ∧ m.resume s v = .error (.exceeded (.stackDepth m.limits.maxStack))) ∨
      (¬ m.Blocked s ∧ ∃ t, m.resume s v = .ok t) := by
  obtain ⟨i, target, hp, hg, real⟩ := hb.waits hw
  cases target with
  | stack =>
    by_cases full : s.stack.length = m.limits.maxStack
    · refine .inl ⟨⟨⟨i, hp, hg⟩, full⟩, ?_⟩
      simp [Machine.resume, hp, hw, hv, hg, store, Transition.push, full, bind, Except.bind]
    · have room : ¬ m.limits.maxStack ≤ s.stack.length := by
        have := hb.stack
        omega
      refine .inr ⟨fun blocked => full blocked.2, ?_⟩
      simp [Machine.resume, hp, hw, hv, hg, store, Transition.push, room, bind, Except.bind, pure,
        Except.pure]
  | reg dest =>
    refine .inr ⟨?_, ?_⟩
    · rintro ⟨⟨j, hj, hr⟩, -⟩
      cases hp.symm.trans hj
      cases hg.symm.trans hr
    · have inside : dest.index.val < Register.bankSize := real
      cases hset : s.bank.set? dest v with
      | none =>
        have := (Bank.set?_eq_none_iff _ _ _).mp hset
        omega
      | some bank =>
        simp [Machine.resume, hp, hw, hv, hg, store, Transition.setRegister, hset, bind,
          Except.bind, pure, Except.pure]

theorem Bounded.arith_not_stackDepth (hb : m.Bounded s) (hp : s.pointer = .index i)
    (hg : m.program.get? i = some (.arith op)) :
    m.step s ≠ .error (.exceeded (.stackDepth n)) := by
  intro h
  rcases step_fails h with ⟨limit, -, hf⟩ | ⟨j, instruction, carries, fails⟩
  · cases hf
  · cases hp.symm.trans carries.pointer
    cases hg.symm.trans carries.fetched
    cases fails with
    | stackDepth full =>
      -- the two operands have been on the stack, which was within its limit
      have full : m.limits.maxStack + 2 ≤ s.stack.length := full
      have room := hb.stack
      omega

/-! ### Every reached state -/

/-- **Every state that a machine reaches is within bounds**, for any program, any limits
    and any calls in any order.  So where it waits, a value within bounds is refused only
    for want of room on the stack, and stack arithmetic never wants for room. -/
theorem reached_bounded (m : Machine) (calls : List Call) :
    let s := m.attemptAll {} calls
    m.Bounded s ∧
      (∀ v, s.awaiting = true → inRange v = true →
        (m.Blocked s ∧ m.resume s v = .error (.exceeded (.stackDepth m.limits.maxStack))) ∨
          (¬ m.Blocked s ∧ ∃ t, m.resume s v = .ok t)) ∧
      ∀ i op n, s.pointer = .index i → m.program.get? i = some (.arith op) →
        m.step s ≠ .error (.exceeded (.stackDepth n)) := by
  intro s
  have hb : m.Bounded s :=
    attempt_induction (fun _ _ _ _ hb h => hb.call h) (bounded_start m)
  refine ⟨hb, ?_, ?_⟩
  · intro v hw hv
    exact hb.answer hw hv
  · intro i op n hp hg
    exact hb.arith_not_stackDepth hp hg

/-- A stack of two with room for two: the sum goes through, the read behind it finds room
    once, and the next one does not. -/
theorem reached_bounded_full_stack :
    let m : Machine :=
      { program := { instructions := [.arith .add, .read .stack, .read .stack] }
        limits := { maxStack := 2 } }
    let s := m.attemptAll {} [.seed 1, .seed 2, .step, .step, .resume 3, .step]
    s.stack = [3, 3] ∧ s.awaiting = true ∧
      m.resume s 4 = .error (.exceeded (.stackDepth 2)) := by
  intro m s
  have stack : s.stack = [3, 3] := by decide +kernel
  have waits : s.awaiting = true := by decide +kernel
  have pointer : s.pointer = .index 2 := by decide +kernel
  have full : m.Blocked s := ⟨⟨2, pointer, rfl⟩, by rw [stack]; rfl⟩
  obtain ⟨-, answers, -⟩ :=
    reached_bounded m [.seed 1, .seed 2, .step, .step, .resume 3, .step]
  refine ⟨stack, waits, ?_⟩
  rcases answers 4 waits (by decide) with ⟨-, refused⟩ | ⟨room, -⟩
  · exact refused
  · exact absurd full room

end Machine

end Stepwise

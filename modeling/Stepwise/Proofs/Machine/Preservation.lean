/-
  Stepwise/Proofs/Machine/Preservation.lean
  =========================================
  **What every instruction keeps, and every call after it.**

  Instructions are put together from a few changes, and from values that come from the
  state, from the instruction itself, or from an operation.  So an invariant is not proved
  instruction by instruction: if the changes keep a property of transitions, as long as
  the values satisfy a property of values that operations keep in turn (`Keeps`), then
  every instruction keeps it (`Keeps.execute`).  That is the one place where the
  instruction set is gone through.

  The states that a machine can reach are those behind calls made in any order.  A call
  that fails leaves the state as it is (`attempt`), so no call has to succeed for the
  next one to be made.
-/
import Stepwise.Proofs.Machine.Mirror

namespace Stepwise

namespace Machine

variable {m : Machine} {V : Int → Prop} {P : Transition → Prop} {t u : Transition} {i : Nat}
  {s : State}

/-! ### Instructions -/

/-- The changes that instructions consist of keep `P`, on values that `V` holds of. -/
structure Keeps (m : Machine) (V : Int → Prop) (P : Transition → Prop) : Prop where
  push : ∀ {t u v}, P t → V v → t.push m.limits.maxStack v = .ok u → P u
  pop : ∀ {t u v i}, P t → t.pop i = .ok (v, u) → V v ∧ P u
  setRegister : ∀ {t u r v}, P t → V v → t.setRegister r v = .ok u → P u
  register : ∀ {t r v}, P t → t.state.register r = .ok v → V v
  compute : ∀ {i op left right v}, V left → V right → compute i op left right = .ok v → V v
  putOut : ∀ {t v}, P t → V v → P (t.putOut v)
  goTo : ∀ {t j}, P t → j ≤ m.program.size → P (t.goTo j)
  halt : ∀ {t}, P t → P t.halt
  request : ∀ {t target}, P t → P (t.request target)

theorem Keeps.operand (k : m.Keeps V P) (ht : P t) {value : Operand} {v : Int}
    (imm : ∀ v, value = .imm v → V v) (h : t.state.operand value = .ok v) : V v := by
  cases value with
  | reg r => exact k.register ht h
  | imm w =>
    cases h
    exact imm _ rfl

theorem jump_le {target : Nat} (h : m.jump t target = .ok u) :
    target ≤ m.program.size ∧ u = t.goTo target := by
  refine ⟨?_, jump_eq_ok h⟩
  simp only [jump] at h
  split at h
  · cases h
  · omega

theorem Keeps.jumpIf (k : m.Keeps V P) (ht : P t) (hi : i < m.program.size) {on : Sign} {v : Int}
    {target : Nat} (h : m.jumpIf i t on v target = .ok u) : P u := by
  simp only [Machine.jumpIf] at h
  split at h
  · obtain ⟨le, rfl⟩ := jump_le h
    exact k.goTo ht le
  · cases h
    exact k.goTo ht hi

/-- **What the changes keep, every instruction keeps.** -/
theorem Keeps.execute (k : m.Keeps V P) {instruction : Instruction}
    (imm : ∀ v, instruction.immediate? = some v → V v) (hi : i < m.program.size) (ht : P t)
    (h : m.execute i t instruction = .ok u) : P u := by
  cases instruction with
  | push value =>
    simp only [Machine.execute, bind_succeeds_iff, pure_succeeds_iff] at h
    obtain ⟨v, hv, w, hw, rfl⟩ := h
    have vv : V v := k.operand ht (fun v hv => imm v (by rw [hv]; rfl)) hv
    exact k.goTo (k.push ht vv hw) hi
  | pop =>
    simp only [Machine.execute, bind_succeeds_iff, pure_succeeds_iff] at h
    obtain ⟨⟨v, w⟩, hw, rfl⟩ := h
    exact k.goTo (k.pop ht hw).2 hi
  | popInto dest =>
    simp only [Machine.execute, bind_succeeds_iff, pure_succeeds_iff] at h
    obtain ⟨⟨v, w⟩, hw, w', hw', rfl⟩ := h
    obtain ⟨vv, pw⟩ := k.pop ht hw
    exact k.goTo (k.setRegister pw vv hw') hi
  | arith op =>
    simp only [Machine.execute] at h
    split at h
    · rename_i right left rest hs
      simp only [bind_succeeds_iff, pure_succeeds_iff] at h
      obtain ⟨v, hv, ⟨right', w⟩, hw, ⟨left', w'⟩, hw', w'', hw'', rfl⟩ := h
      obtain ⟨vright, pw⟩ := k.pop ht hw
      obtain ⟨vleft, pw'⟩ := k.pop pw hw'
      -- the two values that are popped are the operands
      simp only [Transition.pop, hs] at hw
      cases hw
      cases hw'
      exact k.goTo (k.push pw' (k.compute vleft vright hv) hw'') hi
    · cases h
  | arithReg op dest value =>
    simp only [Machine.execute, bind_succeeds_iff, pure_succeeds_iff] at h
    obtain ⟨left, hleft, right, hright, v, hv, w, hw, rfl⟩ := h
    have vright : V right := k.operand ht (fun v hv => imm v (by rw [hv]; rfl)) hright
    exact k.goTo (k.setRegister ht (k.compute (k.register ht hleft) vright hv) hw) hi
  | mov dest value =>
    simp only [Machine.execute, bind_succeeds_iff, pure_succeeds_iff] at h
    obtain ⟨v, hv, w, hw, rfl⟩ := h
    have vv : V v := k.operand ht (fun v hv => imm v (by rw [hv]; rfl)) hv
    exact k.goTo (k.setRegister ht vv hw) hi
  | jmp target =>
    obtain ⟨le, rfl⟩ := jump_le h
    exact k.goTo ht le
  | branch on target =>
    simp only [Machine.execute, bind_succeeds_iff] at h
    obtain ⟨v, -, h⟩ := h
    exact k.jumpIf ht hi h
  | branchReg on source target =>
    simp only [Machine.execute, bind_succeeds_iff] at h
    obtain ⟨v, -, h⟩ := h
    exact k.jumpIf ht hi h
  | halt =>
    cases h
    exact k.halt ht
  | read target =>
    cases target with
    | stack =>
      cases h
      exact k.request ht
    | reg dest =>
      simp only [Machine.execute, bind_succeeds_iff, pure_succeeds_iff] at h
      obtain ⟨v, -, rfl⟩ := h
      exact k.request ht
  | write =>
    simp only [Machine.execute, bind_succeeds_iff, pure_succeeds_iff] at h
    obtain ⟨⟨v, w⟩, hw, rfl⟩ := h
    obtain ⟨vv, pw⟩ := k.pop ht hw
    exact k.goTo (k.putOut pw vv) hi
  | writeValue value =>
    simp only [Machine.execute, bind_succeeds_iff, pure_succeeds_iff] at h
    obtain ⟨v, hv, rfl⟩ := h
    have vv : V v := k.operand ht (fun v hv => imm v (by rw [hv]; rfl)) hv
    exact k.goTo (k.putOut ht vv) hi

theorem Keeps.store (k : m.Keeps V P) {target : InputTarget} {v : Int} (ht : P t) (vv : V v)
    (h : m.store t v (.read target) = .ok u) : P u := by
  cases target with
  | stack => exact k.push ht vv h
  | reg dest => exact k.setRegister ht vv h

theorem lt_size_of_get {instruction : Instruction} (h : m.program.get? i = some instruction) :
    i < m.program.size := by
  obtain ⟨hi, -⟩ := List.getElem?_eq_some_iff.mp h
  exact hi

/-! ### Calls in any order -/

/-- The state after a call, whether it succeeds or not. -/
def attempt (m : Machine) (s : State) (c : Call) : State :=
  match m.call s c with
  | .ok t => t.state
  | .error _ => s

/-- The state after calls, made one after the other. -/
def attemptAll (m : Machine) (s : State) (calls : List Call) : State := calls.foldl m.attempt s

/-- What holds at the start and is preserved by calls that succeed holds of every state
    that is reached. -/
theorem attempt_induction {Q : State → Prop} {calls : List Call}
    (call : ∀ s c t, c ∈ calls → Q s → m.call s c = .ok t → Q t.state) (start : Q s) :
    Q (m.attemptAll s calls) := by
  induction calls generalizing s with
  | nil => exact start
  | cons c calls ih =>
    have first : Q (m.attempt s c) := by
      simp only [attempt]
      split
      · rename_i t ht
        exact call s c t List.mem_cons_self start ht
      · exact start
    exact ih (fun s c t hc => call s c t (List.mem_cons_of_mem _ hc)) first

end Machine

end Stepwise

/-
  Stepwise/Proofs/Machine/Record.lean
  ===================================
  **Every change of the machine records itself.**

  A transition *records* what it changed in a state if applying its delta to that state
  gives the state it leads to, as far as deltas tell: the bank, the stack, the pointer and
  the waiting flag, but not the counter.  The changes that instructions are put together
  from keep this (`Open.goTo`, `Open.push`, …), so it holds of every step
  (`records_of_step`) and of every answered read (`records_of_resume`).

  The waiting flag needs one fact more.  A run that ends because the pointer has left the
  program stops waiting without a word.  But no machine waits there: it waits only in
  front of a read (`WaitsAtRead`), whatever it is asked to do.
-/
import Stepwise.Machine.Step
import Stepwise.Proofs.Succeeds

namespace Stepwise

namespace Machine

variable {m : Machine} {s : State} {t u : Transition} {i : Nat} {v : Int}

/-! ### Changes -/

namespace Transition

@[simp] theorem state_goTo (t : Transition) (i : Nat) :
    (t.goTo i).state = { t.state with pointer := .index i } := rfl

@[simp] theorem delta_goTo (t : Transition) (i : Nat) :
    (t.goTo i).delta = { t.delta with pointer := some i } := rfl

@[simp] theorem advance_eq_goTo (t : Transition) (i : Nat) : t.advance i = t.goTo (i + 1) := rfl

@[simp] theorem state_consume (t : Transition) (v : Int) :
    (t.consume v).state = { t.state with awaiting := false } := rfl

@[simp] theorem delta_consume (t : Transition) (v : Int) :
    (t.consume v).delta = { t.delta with input := some (.consumed v) } := rfl

/-- Applied to `s`, the delta gives the state that the transition leads to, but for the
    counter. -/
structure Records (t : Transition) (s : State) : Prop where
  bank : (s.apply t.delta).bank = t.state.bank
  stack : (s.apply t.delta).stack = t.state.stack
  pointer : (s.apply t.delta).pointer = t.state.pointer
  awaiting : (s.apply t.delta).awaiting = t.state.awaiting

/-- A transition from `s` in the making: it records what it has changed, the run goes on,
    and the machine waits if it did before. -/
structure Open (t : Transition) (s : State) : Prop extends t.Records s where
  running : t.delta.halted = false
  quiet : t.state.awaiting = s.awaiting

theorem open_start (s : State) : Open { state := s } s :=
  ⟨⟨rfl, rfl, rfl, rfl⟩, rfl, rfl⟩

/-- Executing an instruction begins with counting it, which deltas do not tell. -/
theorem open_counted (s : State) : Open { state := s.counted } s :=
  ⟨⟨rfl, rfl, rfl, rfl⟩, rfl, rfl⟩

theorem Records.goTo (h : t.Records s) (running : t.delta.halted = false) (i : Nat) :
    (t.goTo i).Records s where
  bank := h.bank
  stack := h.stack
  pointer := by simp [State.apply, State.pointerAfter, running]
  awaiting := h.awaiting

theorem Open.goTo (h : t.Open s) (i : Nat) : (t.goTo i).Open s :=
  ⟨h.toRecords.goTo h.running i, h.running, h.quiet⟩

theorem Open.putOut (h : t.Open s) (v : Int) : (t.putOut v).Open s :=
  ⟨⟨h.bank, h.stack, h.pointer, h.awaiting⟩, h.running, h.quiet⟩

theorem Open.push {maxStack : Nat} (h : t.Open s) (hp : t.push maxStack v = .ok u) :
    u.Open s := by
  simp only [Transition.push] at hp
  split at hp
  · cases hp
  · cases hp
    exact ⟨⟨h.bank, rfl, h.pointer, h.awaiting⟩, h.running, h.quiet⟩

theorem Open.pop (h : t.Open s) (hp : t.pop i = .ok (v, u)) : u.Open s := by
  simp only [Transition.pop] at hp
  split at hp
  · cases hp
  · cases hp
    exact ⟨⟨h.bank, rfl, h.pointer, h.awaiting⟩, h.running, h.quiet⟩

/-- The snapshot in the delta holds all registers, so it overwrites the whole bank. -/
theorem Open.setRegister {r : Register} (h : t.Open s) (hp : t.setRegister r v = .ok u) :
    u.Open s := by
  simp only [Transition.setRegister] at hp
  split at hp
  · cases hp
  · cases hp
    exact ⟨⟨rfl, h.stack, h.pointer, h.awaiting⟩, h.running, h.quiet⟩

theorem Open.halt (h : t.Open s) : t.halt.Records s :=
  ⟨h.bank, h.stack, rfl, h.awaiting⟩

theorem Open.request (h : t.Open s) (target : InputTarget) : (t.request target).Records s :=
  ⟨h.bank, h.stack, h.pointer, rfl⟩

theorem Open.consume (h : t.Open s) (v : Int) : (t.consume v).Records s :=
  ⟨h.bank, h.stack, h.pointer, rfl⟩

end Transition

open Transition

/-! ### Instructions -/

theorem jump_eq_ok {target : Nat} (h : m.jump t target = .ok u) : u = t.goTo target := by
  simp only [jump] at h
  split at h
  · cases h
  · cases h; rfl

theorem jumpIf_eq_ok {on : Sign} {target : Nat} (h : m.jumpIf i t on v target = .ok u) :
    ∃ j, u = t.goTo j := by
  simp only [jumpIf] at h
  split at h
  · exact ⟨target, jump_eq_ok h⟩
  · cases h
    exact ⟨i + 1, rfl⟩

/-- What an instruction can do: change something and go on at an index, end the run, or
    ask for a value. -/
theorem execute_cases {instruction : Instruction} (ht : t.Open s)
    (h : m.execute i t instruction = .ok u) :
    (∃ (w : Transition) (j : Nat), w.Open s ∧ u = w.goTo j) ∨ (instruction = .halt ∧ u = t.halt) ∨
      ∃ target, instruction = .read target ∧ u = t.request target := by
  cases instruction with
  | push value =>
    simp only [execute, bind_succeeds_iff, pure_succeeds_iff] at h
    obtain ⟨v, -, w, hw, rfl⟩ := h
    exact .inl ⟨w, _, ht.push hw, rfl⟩
  | pop =>
    simp only [execute, bind_succeeds_iff, pure_succeeds_iff] at h
    obtain ⟨⟨v, w⟩, hw, rfl⟩ := h
    exact .inl ⟨w, _, ht.pop hw, rfl⟩
  | popInto dest =>
    simp only [execute, bind_succeeds_iff, pure_succeeds_iff] at h
    obtain ⟨⟨v, w⟩, hw, w', hw', rfl⟩ := h
    exact .inl ⟨w', _, (ht.pop hw).setRegister hw', rfl⟩
  | arith op =>
    simp only [execute] at h
    split at h
    · simp only [bind_succeeds_iff, pure_succeeds_iff] at h
      obtain ⟨v, -, ⟨right, w⟩, hw, ⟨left, w'⟩, hw', w'', hw'', rfl⟩ := h
      exact .inl ⟨w'', _, ((ht.pop hw).pop hw').push hw'', rfl⟩
    · cases h
  | arithReg op dest value =>
    simp only [execute, bind_succeeds_iff, pure_succeeds_iff] at h
    obtain ⟨left, -, right, -, v, -, w, hw, rfl⟩ := h
    exact .inl ⟨w, _, ht.setRegister hw, rfl⟩
  | mov dest value =>
    simp only [execute, bind_succeeds_iff, pure_succeeds_iff] at h
    obtain ⟨v, -, w, hw, rfl⟩ := h
    exact .inl ⟨w, _, ht.setRegister hw, rfl⟩
  | jmp target => exact .inl ⟨t, target, ht, jump_eq_ok h⟩
  | branch on target =>
    simp only [execute, bind_succeeds_iff] at h
    obtain ⟨v, -, h⟩ := h
    obtain ⟨j, rfl⟩ := jumpIf_eq_ok h
    exact .inl ⟨t, j, ht, rfl⟩
  | branchReg on source target =>
    simp only [execute, bind_succeeds_iff] at h
    obtain ⟨v, -, h⟩ := h
    obtain ⟨j, rfl⟩ := jumpIf_eq_ok h
    exact .inl ⟨t, j, ht, rfl⟩
  | halt =>
    cases h
    exact .inr (.inl ⟨rfl, rfl⟩)
  | read target =>
    cases target with
    | stack =>
      cases h
      exact .inr (.inr ⟨_, rfl, rfl⟩)
    | reg dest =>
      simp only [execute, bind_succeeds_iff, pure_succeeds_iff] at h
      obtain ⟨v, -, rfl⟩ := h
      exact .inr (.inr ⟨_, rfl, rfl⟩)
  | write =>
    simp only [execute, bind_succeeds_iff, pure_succeeds_iff] at h
    obtain ⟨⟨v, w⟩, hw, rfl⟩ := h
    exact .inl ⟨w.putOut v, _, (ht.pop hw).putOut v, rfl⟩
  | writeValue value =>
    simp only [execute, bind_succeeds_iff, pure_succeeds_iff] at h
    obtain ⟨v, -, rfl⟩ := h
    exact .inl ⟨t.putOut v, _, ht.putOut v, rfl⟩

/-! ### Calls -/

/-- What a step can do: repeat the end of a run, end it behind the program, repeat a
    request, or carry out an instruction. -/
theorem step_cases (h : m.step s = .ok t) :
    (s.pointer = .halted ∧ t = { state := s, delta := .halt }) ∨
    ∃ i, s.pointer = .index i ∧
      ((m.program.get? i = none ∧
          t = { state := { s with pointer := .halted, awaiting := false }, delta := .halt }) ∨
        ∃ instruction, m.program.get? i = some instruction ∧
          ((s.awaiting = true ∧ t =
              { state := s, delta := { input := some (.requested (requestTarget instruction)) } }) ∨
            (s.awaiting = false ∧ m.limits.spent? s.steps = none ∧
              m.execute i { state := s.counted } instruction = .ok t))) := by
  simp only [step] at h
  split at h
  · rename_i hp
    cases h
    exact .inl ⟨hp, rfl⟩
  · rename_i i hp
    refine .inr ⟨i, hp, ?_⟩
    split at h
    · rename_i hg
      cases h
      exact .inl ⟨hg, rfl⟩
    · rename_i instruction hg
      refine .inr ⟨instruction, hg, ?_⟩
      split at h
      · rename_i hw
        cases h
        exact .inl ⟨hw, rfl⟩
      · rename_i hw
        split at h
        · cases h
        · rename_i hb
          exact .inr ⟨by simpa using hw, hb, h⟩

/-- What an answered read can do: the value, which is within bounds, is stored where the
    read under the pointer wants it, and the run goes on behind the read. -/
theorem resume_stores (h : m.resume s v = .ok t) :
    ∃ (i : Nat) (target : InputTarget) (u : Transition), s.pointer = .index i ∧ s.awaiting = true ∧
      inRange v = true ∧ m.program.get? i = some (.read target) ∧
      m.store { state := s } v (.read target) = .ok u ∧ t = (u.consume v).advance i := by
  simp only [resume] at h
  split at h
  · cases h
  · rename_i i hp
    split at h
    · cases h
    · rename_i hw
      have hw : s.awaiting = true := by simpa using hw
      split at h
      · cases h
      · rename_i hv
        have hv : inRange v = true := by simpa using hv
        split at h
        · cases h
        · rename_i instruction hg
          simp only [bind_succeeds_iff, pure_succeeds_iff] at h
          obtain ⟨u, hu, rfl⟩ := h
          cases instruction with
          | read target => exact ⟨i, target, u, hp, hw, hv, hg, hu, rfl⟩
          | _ => cases hu

theorem open_of_store {target : InputTarget}
    (h : m.store { state := s } v (.read target) = .ok u) : u.Open s := by
  cases target with
  | stack => exact (open_start s).push h
  | reg dest => exact (open_start s).setRegister h

theorem resume_cases (h : m.resume s v = .ok t) :
    ∃ (i : Nat) (target : InputTarget) (u : Transition), s.pointer = .index i ∧ s.awaiting = true ∧
      m.program.get? i = some (.read target) ∧ u.Open s ∧ t = (u.consume v).advance i := by
  obtain ⟨i, target, u, hp, hw, -, hg, hu, rfl⟩ := resume_stores h
  exact ⟨i, target, u, hp, hw, hg, open_of_store hu, rfl⟩

theorem seed_pushes (h : m.seed s v = .ok t) :
    ∃ u : Transition, Transition.push { state := s } m.limits.maxStack v = .ok u ∧
      t = { u with delta := { u.delta with input := some (.consumed v) } } := by
  simp only [seed, bind_succeeds_iff, pure_succeeds_iff] at h
  obtain ⟨u, hu, rfl⟩ := h
  exact ⟨u, hu, rfl⟩

/-- What seeding can do: push the value, and tell it as one that was consumed. -/
theorem seed_cases (h : m.seed s v = .ok t) :
    ∃ u : Transition, u.Open s ∧ u.state.pointer = s.pointer ∧
      t = { u with delta := { u.delta with input := some (.consumed v) } } := by
  obtain ⟨u, hu, rfl⟩ := seed_pushes h
  refine ⟨u, (open_start s).push hu, ?_, rfl⟩
  simp only [Transition.push] at hu
  split at hu
  · cases hu
  · cases hu; rfl

/-! ### Where a machine waits -/

/-- A machine that waits stands in front of a read. -/
def WaitsAtRead (m : Machine) (s : State) : Prop :=
  s.awaiting = true →
    ∃ i target, s.pointer = .index i ∧ m.program.get? i = some (.read target)

theorem waitsAtRead_start (m : Machine) : m.WaitsAtRead {} := by
  intro h
  cases h

theorem waitsAtRead_of_step (hs : m.WaitsAtRead s) (h : m.step s = .ok t) :
    m.WaitsAtRead t.state := by
  rcases step_cases h with ⟨-, rfl⟩ | ⟨i, hp, ⟨-, rfl⟩ | ⟨instruction, hg, ⟨-, rfl⟩ | ⟨hw, -, he⟩⟩⟩
  · exact hs
  · intro hw
    cases hw
  · exact hs
  · rcases execute_cases (open_counted s) he with
      ⟨u, j, hu, rfl⟩ | ⟨-, rfl⟩ | ⟨target, rfl, rfl⟩
    · intro hw'
      have : s.awaiting = true := hu.quiet ▸ hw'
      simp [hw] at this
    · intro hw'
      have : s.awaiting = true := hw'
      simp [hw] at this
    · exact fun _ => ⟨i, target, hp, hg⟩

theorem not_awaiting_of_resume (h : m.resume s v = .ok t) : t.state.awaiting = false := by
  obtain ⟨i, target, u, -, -, -, -, rfl⟩ := resume_cases h
  rfl

theorem waitsAtRead_of_resume (h : m.resume s v = .ok t) : m.WaitsAtRead t.state := by
  intro hw
  simp [not_awaiting_of_resume h] at hw

theorem waitsAtRead_of_seed (hs : m.WaitsAtRead s) (h : m.seed s v = .ok t) :
    m.WaitsAtRead t.state := by
  obtain ⟨u, hu, hp, rfl⟩ := seed_cases h
  intro hw
  obtain ⟨i, target, hi, hg⟩ := hs (hu.quiet ▸ hw)
  exact ⟨i, target, hp.trans hi, hg⟩

theorem not_halted_of_awaiting (hs : m.WaitsAtRead s) (hw : s.awaiting = true) :
    s.isHalted = false := by
  obtain ⟨i, target, hp, -⟩ := hs hw
  simp [State.isHalted, hp]

/-! ### Where a run ends -/

theorem halted_of_step (hs : s.isHalted = false) (h : m.step s = .ok t)
    (ht : t.state.isHalted = true) : t.delta.halted = true := by
  rcases step_cases h with ⟨hp, rfl⟩ | ⟨i, hp, ⟨-, rfl⟩ | ⟨instruction, -, ⟨-, rfl⟩ | ⟨-, -, he⟩⟩⟩
  · rfl
  · rfl
  · rw [hs] at ht
    cases ht
  · rcases execute_cases (open_counted s) he with
      ⟨u, j, -, rfl⟩ | ⟨-, rfl⟩ | ⟨target, -, rfl⟩
    · cases ht
    · rfl
    · have : s.isHalted = true := ht
      simp [hs] at this

theorem not_halted_of_resume (h : m.resume s v = .ok t) : t.state.isHalted = false := by
  obtain ⟨i, target, u, -, -, -, -, rfl⟩ := resume_cases h
  rfl

/-! ### Calls record what they change -/

theorem records_of_step (hs : m.WaitsAtRead s) (h : m.step s = .ok t) : t.Records s := by
  rcases step_cases h with
    ⟨hp, rfl⟩ | ⟨i, hp, ⟨hg, rfl⟩ | ⟨instruction, hg, ⟨hw, rfl⟩ | ⟨hw, -, he⟩⟩⟩
  · exact ⟨rfl, rfl, hp.symm, rfl⟩
  · refine ⟨rfl, rfl, rfl, ?_⟩
    -- nothing is said of the flag, which is down already: there is no read to wait at
    cases hw : s.awaiting with
    | false => exact hw
    | true =>
      obtain ⟨j, target, hj, hr⟩ := hs hw
      cases hp.symm.trans hj
      simp [hg] at hr
  · exact ⟨rfl, rfl, rfl, hw.symm⟩
  · rcases execute_cases (open_counted s) he with
      ⟨u, j, hu, rfl⟩ | ⟨-, rfl⟩ | ⟨target, -, rfl⟩
    · exact (hu.goTo j).toRecords
    · exact (open_counted s).halt
    · exact (open_counted s).request target

theorem records_of_resume (h : m.resume s v = .ok t) : t.Records s := by
  obtain ⟨i, target, u, -, -, -, hu, rfl⟩ := resume_cases h
  exact (hu.consume v).goTo hu.running (i + 1)

/-- Seeding is told like an answered read, so the flag agrees unless the machine waits. -/
theorem records_of_seed (h : m.seed s v = .ok t) :
    (s.apply t.delta).bank = t.state.bank ∧ (s.apply t.delta).stack = t.state.stack ∧
      (s.apply t.delta).pointer = t.state.pointer ∧
      (s.awaiting = false → t.Records s) := by
  obtain ⟨u, hu, -, rfl⟩ := seed_cases h
  refine ⟨hu.bank, hu.stack, hu.pointer, fun hw => ⟨hu.bank, hu.stack, hu.pointer, ?_⟩⟩
  exact (hu.quiet.trans hw).symm

/-! ### Deltas that end a run -/

theorem running_of_seed (h : m.seed s v = .ok t) : t.delta.halted = false := by
  obtain ⟨u, hu, -, rfl⟩ := seed_cases h
  exact hu.running

theorem running_of_resume (h : m.resume s v = .ok t) : t.delta.halted = false := by
  obtain ⟨i, target, u, -, -, -, hu, rfl⟩ := resume_cases h
  exact hu.running

/-- The delta of a step says that the run is over exactly when it is. -/
theorem delta_halted_of_step (reads : m.WaitsAtRead s) (goesOn : s.isHalted = false)
    (h : m.step s = .ok t) : t.delta.halted = t.state.isHalted := by
  cases hh : t.state.isHalted with
  | true => exact halted_of_step goesOn h hh
  | false =>
    have pointer := (records_of_step reads h).pointer
    cases hd : t.delta.halted with
    | false => rfl
    | true =>
      simp only [State.apply, State.pointerAfter, hd, if_true] at pointer
      simp [State.isHalted, ← pointer] at hh

end Machine

end Stepwise

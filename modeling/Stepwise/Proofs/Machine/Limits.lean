/-
  Stepwise/Proofs/Machine/Limits.lean
  ===================================
  **Limits cut a run short, and do nothing else.**

  A machine looks at its limits in front of an instruction and where it pushes a value.
  What it finds there either stops it or has no further effect.  So of two machines that
  run one program, one under limits within those of the other, every call has the same
  result, or it fails on the first machine for one of its limits (`CutShort`,
  `call_cutShort`).  The argument goes through the instructions once: computations that are
  put together from parts that are cut short are cut short themselves (`CutShort.bind`).

  Plays follow by induction.  A play under the narrower limits is the beginning of the play
  under the wider ones, and if something else ends it, both end there (`Plays.under`,
  `next_under`).

  The limit of steps can be told exactly.  A machine with the limit `n` differs from one
  without a limit in one situation only: `n` instructions have been executed, and another
  one is next (`step_withSteps`).  Reads that are answered and the end of the program are no
  instructions, so they may still follow the last one (`CutAfter`).
-/
import Stepwise.Proofs.Machine.Bounds
import Stepwise.Proofs.Machine.Raised

namespace Stepwise

/-- A limit of the machine has stopped the run. -/
def Fault.OfLimits : Fault → Prop
  | exceeded (.stackDepth _) | exceeded (.stepCount _) => True
  | _ => False

namespace Machine

/-- All that the limits allow, the wider ones allow as well. -/
structure Limits.Within (limits wide : Limits) : Prop where
  stack : limits.maxStack ≤ wide.maxStack
  steps : ∀ most, wide.maxSteps = some most → ∃ fewer, limits.maxSteps = some fewer ∧ fewer ≤ most

/-- The program under other limits. -/
def under (m : Machine) (limits : Limits) : Machine := { m with limits }

/-- The program with another limit of steps. -/
def withSteps (m : Machine) (maxSteps : Option Nat) : Machine :=
  m.under { m.limits with maxSteps }

/-- The second computation is the first one, but for limits that stop the first one. -/
inductive CutShort {α : Type} : Except Fault α → Except Fault α → Prop where
  | same (result : Except Fault α) : CutShort result result
  | cut {f : Fault} (limit : f.OfLimits) (result : Except Fault α) : CutShort (.error f) result

/-- A limit of the machine is why nothing comes next. -/
def Next.IsCut : Next → Prop
  | fault f => f.OfLimits
  | _ => False

/-- The next thing that the play does is to execute an instruction. -/
def Executes (m : Machine) (p : Play) : Prop :=
  p.seed = none ∧ ∃ i instruction, m.CarriesOut p.state i instruction

/-- With the limit `n`, the play is the one without a limit of steps, up to where that one
    would execute another instruction when it has executed `n`. -/
structure CutAfter (m : Machine) (start : Play) (n : Nat) : Prop where
  /-- The counter counts the instructions that are executed. -/
  counts : ∀ p d q, (m.withSteps none).next p = .delta d q →
    (m.withSteps none).Executes p ∧ q.state.steps = p.state.steps + 1 ∨
      ¬ (m.withSteps none).Executes p ∧ q.state.steps = p.state.steps
  deltas : ∀ ds q, (m.withSteps (some n)).Plays start ds q ↔
    (m.withSteps none).Plays start ds q ∧ q.state.steps ≤ n
  spent : ∀ ds q,
    (m.withSteps (some n)).Plays start ds q ∧
        (m.withSteps (some n)).next q = .fault (.exceeded (.stepCount n)) ↔
      (m.withSteps none).Plays start ds q ∧ q.state.steps = n ∧ (m.withSteps none).Executes q
  ends : ∀ ds q, (m.withSteps (some n)).Plays start ds q →
    ¬ (q.state.steps = n ∧ (m.withSteps none).Executes q) →
      (m.withSteps (some n)).next q = (m.withSteps none).next q

variable {m : Machine} {wide : Limits} {s : State} {t : Transition} {i n most : Nat} {v : Int}
  {instruction : Instruction} {p q start : Play} {d : Delta} {ds : List Delta}

/-! ### Computations that are cut short -/

theorem CutShort.bind {α β : Type} {first first' : Except Fault α}
    {next next' : α → Except Fault β} (h : CutShort first first')
    (rest : ∀ a, CutShort (next a) (next' a)) : CutShort (first >>= next) (first' >>= next') := by
  cases h with
  | same =>
    cases first with
    | error f => exact .same _
    | ok a => exact rest a
  | cut limit => exact .cut limit _

theorem push_cutShort {maxStack deeper : Nat} (le : maxStack ≤ deeper) (t : Transition) (v : Int) :
    CutShort (t.push maxStack v) (t.push deeper v) := by
  have limit : Fault.OfLimits (.exceeded (.stackDepth maxStack)) := trivial
  simp only [Transition.push]
  by_cases full : maxStack ≤ t.state.stack.length
  · rw [if_pos full]
    exact .cut limit _
  · have room : ¬ deeper ≤ t.state.stack.length := by omega
    rw [if_neg full, if_neg room]
    exact .same _

theorem Limits.Within.spent? (within : m.limits.Within wide) (left : m.limits.spent? n = none) :
    wide.spent? n = none := by
  simp only [Limits.spent?, Option.filter_eq_none_iff] at left ⊢
  intro most hm
  obtain ⟨fewer, hf, le⟩ := within.steps most hm
  have := left fewer hf
  simp only [decide_eq_true_eq] at this ⊢
  omega

/-! ### Calls -/

/-- Only pushes look at a limit. -/
theorem execute_cutShort (within : m.limits.Within wide) (i : Nat) (t : Transition)
    (instruction : Instruction) :
    CutShort (m.execute i t instruction) ((m.under wide).execute i t instruction) := by
  cases instruction with
  | push value =>
    apply CutShort.bind (.same _)
    intro v
    apply CutShort.bind (push_cutShort within.stack t v)
    intro u
    exact .same _
  | arith op =>
    simp only [execute]
    split
    · apply CutShort.bind (.same _)
      intro v
      apply CutShort.bind (.same _)
      intro popped
      apply CutShort.bind (.same _)
      intro popped
      apply CutShort.bind (push_cutShort within.stack popped.2 v)
      intro u
      exact .same _
    · exact .same _
  | read target => cases target <;> exact .same _
  | _ => exact .same _

theorem step_cutShort (within : m.limits.Within wide) (s : State) :
    CutShort (m.step s) ((m.under wide).step s) := by
  have program : (m.under wide).program = m.program := rfl
  have limits : (m.under wide).limits = wide := rfl
  simp only [step, program, limits]
  split
  · exact .same _
  · split
    · exact .same _
    · split
      · exact .same _
      · cases left : m.limits.spent? s.steps with
        | some most =>
          have limit : Fault.OfLimits (.exceeded (.stepCount most)) := trivial
          exact .cut limit _
        | none =>
          rw [within.spent? left]
          exact execute_cutShort within _ _ _

theorem resume_cutShort (within : m.limits.Within wide) (s : State) (v : Int) :
    CutShort (m.resume s v) ((m.under wide).resume s v) := by
  have program : (m.under wide).program = m.program := rfl
  have stores (t : Transition) (instruction : Instruction) :
      CutShort (m.store t v instruction) ((m.under wide).store t v instruction) := by
    simp only [store]
    split
    · exact push_cutShort within.stack t v
    · exact .same _
    · exact .same _
  simp only [resume, program]
  split
  · exact .same _
  · split
    · exact .same _
    · split
      · exact .same _
      · split
        · exact .same _
        · apply CutShort.bind (stores _ _)
          intro u
          exact .same _

/-- **A call has the same result under wider limits**, unless a limit has made it fail. -/
theorem call_cutShort (within : m.limits.Within wide) (s : State) (c : Call) :
    CutShort (m.call s c) ((m.under wide).call s c) := by
  cases c with
  | step => exact step_cutShort within s
  | resume v => exact resume_cutShort within s v
  | seed v =>
    apply CutShort.bind (push_cutShort within.stack _ v)
    intro u
    exact .same _

/-! ### Plays -/

theorem Next.ofCall_cutShort {result result' : Except Fault Transition} {inputs : List Text}
    (h : CutShort result result') (uncut : ¬ (Next.ofCall result inputs).IsCut) :
    Next.ofCall result' inputs = Next.ofCall result inputs := by
  cases h with
  | same => rfl
  | cut limit => exact absurd limit uncut

/-- What a play does next, it does under wider limits. -/
theorem next_under (within : m.limits.Within wide) (uncut : ¬ (m.next p).IsCut) :
    (m.under wide).next p = m.next p := by
  have answers (text : Text) :
      CutShort (m.answer p.state text) ((m.under wide).answer p.state text) := by
    apply CutShort.bind (.same _)
    intro v
    exact resume_cutShort within p.state v
  simp only [next] at uncut ⊢
  split at uncut
  · exact Next.ofCall_cutShort (call_cutShort within p.state (.seed _)) uncut
  · split at uncut
    · rename_i halted
      rw [if_pos halted, if_pos halted]
    · rename_i goesOn
      rw [if_neg goesOn, if_neg goesOn]
      split at uncut
      · rename_i waits
        rw [if_pos waits, if_pos waits]
        split at uncut
        · rfl
        · exact Next.ofCall_cutShort (answers _) uncut
      · rename_i runs
        rw [if_neg runs, if_neg runs]
        exact Next.ofCall_cutShort (step_cutShort within p.state) uncut

/-- **A play is the beginning of the play under wider limits.** -/
theorem Plays.under (within : m.limits.Within wide) (h : m.Plays p ds q) :
    (m.under wide).Plays p ds q := by
  induction h with
  | refl p => exact .refl p
  | @cons p q r d ds first rest ih =>
    have uncut : ¬ (m.next p).IsCut := by
      rw [first]
      exact id
    exact .cons ((next_under within uncut).trans first) ih

/-! ### The counter -/

theorem keeps_steps (m : Machine) (n : Nat) : m.Keeps (fun _ => True) (·.state.steps = n) where
  push := by
    intro t u v ht _ h
    simp only [Transition.push] at h
    split at h <;> cases h
    exact ht
  pop := by
    intro t u v i ht h
    simp only [Transition.pop] at h
    split at h <;> cases h
    exact ⟨trivial, ht⟩
  setRegister := by
    intro t u r v ht _ h
    simp only [Transition.setRegister] at h
    split at h <;> cases h
    exact ht
  register := fun _ _ => trivial
  compute := fun _ _ _ => trivial
  putOut := fun ht _ => ht
  goTo := fun ht _ => ht
  halt := id
  request := id

/-- A step counts if it executes an instruction, and only then. -/
theorem steps_of_step (h : m.step s = .ok t) :
    (∃ i instruction, m.CarriesOut s i instruction) ∧ t.state.steps = s.steps + 1 ∨
      (¬ ∃ i instruction, m.CarriesOut s i instruction) ∧ t.state.steps = s.steps := by
  rcases step_cases h with
    ⟨hp, rfl⟩ | ⟨i, hp, ⟨hg, rfl⟩ | ⟨instruction, hg, ⟨hw, rfl⟩ | ⟨hw, left, he⟩⟩⟩
  · refine .inr ⟨?_, rfl⟩
    rintro ⟨i, instruction, carries⟩
    cases hp.symm.trans carries.pointer
  · refine .inr ⟨?_, rfl⟩
    rintro ⟨j, instruction, carries⟩
    cases hp.symm.trans carries.pointer
    cases hg.symm.trans carries.fetched
  · refine .inr ⟨?_, rfl⟩
    rintro ⟨j, instruction, carries⟩
    cases hw.symm.trans carries.running
  · have counted : t.state.steps = s.steps + 1 :=
      (keeps_steps m _).execute (fun _ _ => trivial) (lt_size_of_get hg) rfl he
    exact .inl ⟨⟨i, instruction, hp, hg, hw, left⟩, counted⟩

theorem steps_of_store {target : InputTarget} {u : Transition}
    (h : m.store t v (.read target) = .ok u) : u.state.steps = t.state.steps :=
  (keeps_steps m _).store rfl trivial h

/-- What is told without executing an instruction is not counted. -/
theorem steps_of_next (h : m.next p = .delta d q) :
    m.Executes p ∧ q.state.steps = p.state.steps + 1 ∨
      ¬ m.Executes p ∧ q.state.steps = p.state.steps := by
  have ofCall {result : Except Fault Transition} {rest : List Text}
      (h : Next.ofCall result rest = .delta d q) : ∃ t, result = .ok t ∧ q.state = t.state := by
    cases result <;> cases h
    exact ⟨_, rfl, rfl⟩
  simp only [next] at h
  split at h
  · rename_i v seeded
    obtain ⟨t, ok, state⟩ := ofCall h
    obtain ⟨u, hu, rfl⟩ := seed_pushes ok
    have same : u.state.steps = p.state.steps := (keeps_steps m _).push rfl trivial hu
    refine .inr ⟨?_, state ▸ same⟩
    rintro ⟨seed, -⟩
    cases seeded.symm.trans seed
  · rename_i unseeded
    split at h
    · cases h
    · split at h
      · rename_i waits
        split at h
        · cases h
        · obtain ⟨t, ok, state⟩ := ofCall h
          obtain ⟨v, -, resumed⟩ := answer_cases ok
          obtain ⟨i, target, u, -, -, -, -, hu, rfl⟩ := resume_stores resumed
          refine .inr ⟨?_, state ▸ steps_of_store hu⟩
          rintro ⟨-, i, instruction, carries⟩
          cases waits.symm.trans carries.running
      · obtain ⟨t, ok, state⟩ := ofCall h
        rcases steps_of_step ok with ⟨carries, counted⟩ | ⟨rests, same⟩
        · exact .inl ⟨⟨unseeded, carries⟩, state ▸ counted⟩
        · exact .inr ⟨fun executes => rests executes.2, state ▸ same⟩

theorem Plays.steps_le (h : m.Plays p ds q) : p.state.steps ≤ q.state.steps := by
  induction h with
  | refl p => exact Nat.le_refl _
  | cons first _ ih =>
    rcases steps_of_next first with ⟨-, counted⟩ | ⟨-, same⟩
    · omega
    · omega

/-! ### The limit of steps -/

theorem withSteps_within (m : Machine) (n : Nat) :
    (m.withSteps (some n)).limits.Within (m.withSteps none).limits where
  stack := Nat.le_refl _
  steps := by
    intro most hm
    cases hm

theorem step_of_spent (carries : (m.withSteps none).CarriesOut s i instruction)
    (spent : n ≤ s.steps) :
    (m.withSteps (some n)).step s = .error (.exceeded (.stepCount n)) := by
  have fetched : (m.withSteps (some n)).program.get? i = some instruction := carries.fetched
  have limit : (m.withSteps (some n)).limits.spent? s.steps = some n := by
    simp [withSteps, Machine.under, Limits.spent?, spent]
  simp [step, carries.pointer, fetched, carries.running, limit]

/-- The limit is not looked at but in front of an instruction. -/
theorem step_of_left
    (left : (∃ i instruction, (m.withSteps none).CarriesOut s i instruction) → s.steps < n) :
    (m.withSteps (some n)).step s = (m.withSteps none).step s := by
  have program : (m.withSteps (some n)).program = (m.withSteps none).program := rfl
  simp only [step, program]
  split
  · rfl
  · rename_i i pointer
    split
    · rfl
    · rename_i instruction fetched
      split
      · rfl
      · rename_i running
        have carries : (m.withSteps none).CarriesOut s i instruction :=
          ⟨pointer, fetched, by simpa using running, rfl⟩
        have unspent : (m.withSteps (some n)).limits.spent? s.steps = none := by
          have := left ⟨i, instruction, carries⟩
          simp [withSteps, Machine.under, Limits.spent?, this]
        have unlimited : (m.withSteps none).limits.spent? s.steps = none := rfl
        rw [unspent, unlimited]
        cases instruction with
        | read target => cases target <;> rfl
        | _ => rfl

theorem next_of_spent (executes : (m.withSteps none).Executes p) (spent : n ≤ p.state.steps) :
    (m.withSteps (some n)).next p = .fault (.exceeded (.stepCount n)) := by
  obtain ⟨unseeded, i, instruction, carries⟩ := executes
  have goesOn : p.state.isHalted = false := by simp [State.isHalted, carries.pointer]
  simp [next, unseeded, goesOn, carries.running, step_of_spent carries spent, Next.ofCall]

/-- **The two machines differ in one situation only.** -/
theorem next_of_left (left : (m.withSteps none).Executes p → p.state.steps < n) :
    (m.withSteps (some n)).next p = (m.withSteps none).next p := by
  simp only [next]
  split
  · rfl
  · rename_i unseeded
    have steps : (m.withSteps (some n)).step p.state = (m.withSteps none).step p.state :=
      step_of_left fun carries => left ⟨unseeded, carries⟩
    rw [steps]
    rfl

/-- Without a limit of steps, no call fails for one. -/
theorem call_of_unlimited (c : Call) :
    (m.withSteps none).call s c ≠ .error (.exceeded (.stepCount n)) := by
  intro h
  cases c with
  | step =>
    rcases step_fails h with ⟨limit, spent, -⟩ | ⟨i, instruction, -, fails⟩
    · cases spent
    · cases fails
  | resume v => rcases resume_fails h with hf | ⟨-, hf⟩ | ⟨-, hf⟩ | ⟨r, -, hf⟩ <;> cases hf
  | seed v => cases (seed_fails h).2

theorem next_of_unlimited : (m.withSteps none).next p ≠ .fault (.exceeded (.stepCount n)) := by
  intro h
  have ofCall {result : Except Fault Transition} {rest : List Text}
      (h : Next.ofCall result rest = .fault (.exceeded (.stepCount n))) :
      result = .error (.exceeded (.stepCount n)) := by
    cases result <;> cases h
    rfl
  simp only [next] at h
  split at h
  · exact call_of_unlimited (.seed _) (ofCall h)
  · split at h
    · cases h
    · split at h
      · split at h
        · cases h
        · have fails := ofCall h
          simp only [answer, bind_fails_iff] at fails
          rcases fails with value | ⟨v, -, resumed⟩
          · simp only [inputValue] at value
            split at value <;> cases value
          · exact call_of_unlimited (.resume v) resumed
      · exact call_of_unlimited .step (ofCall h)

theorem Plays.withSteps_iff (start : p.state.steps ≤ n) :
    (m.withSteps (some n)).Plays p ds q ↔ (m.withSteps none).Plays p ds q ∧ q.state.steps ≤ n := by
  constructor
  · intro h
    have wider := h.under (m.withSteps_within n)
    refine ⟨wider, ?_⟩
    clear wider
    induction h with
    | refl p => exact start
    | @cons p q r d ds first rest ih =>
      apply ih
      rcases steps_of_next first with ⟨executes, counted⟩ | ⟨-, same⟩
      · obtain ⟨-, i, instruction, carries⟩ := executes
        have left : p.state.steps < n := lt_of_spent carries.left rfl
        omega
      · omega
  · rintro ⟨h, within⟩
    induction h with
    | refl p => exact .refl p
    | @cons p q r d ds first rest ih =>
      have later := rest.steps_le
      have next : (m.withSteps (some n)).next p = (m.withSteps none).next p := by
        apply next_of_left
        intro executes
        rcases steps_of_next first with ⟨-, counted⟩ | ⟨rests, -⟩
        · omega
        · exact absurd executes rests
      exact .cons (next.trans first) (ih (by omega) within)

/-- **The limit of steps cuts a play in front of the instruction that is too much**, and
    nowhere else. -/
theorem cutAfter (m : Machine) (fresh : start.state.steps = 0) (n : Nat) :
    m.CutAfter start n where
  counts := fun p d q h => steps_of_next h
  deltas := fun ds q => Plays.withSteps_iff (by omega)
  spent := by
    intro ds q
    rw [Plays.withSteps_iff (by omega)]
    constructor
    · rintro ⟨⟨plays, within⟩, fails⟩
      have spent : (m.withSteps none).Executes q ∧ n ≤ q.state.steps := by
        by_contra left
        have same : (m.withSteps (some n)).next q = (m.withSteps none).next q := by
          apply next_of_left
          intro executes
          by_contra spent
          exact left ⟨executes, by omega⟩
        exact next_of_unlimited (same.symm.trans fails)
      exact ⟨plays, by omega, spent.1⟩
    · rintro ⟨plays, spent, executes⟩
      exact ⟨⟨plays, by omega⟩, next_of_spent executes (by omega)⟩
  ends := by
    intro ds q h goesOn
    have within : q.state.steps ≤ n := ((Plays.withSteps_iff (by omega)).mp h).2
    apply next_of_left
    intro executes
    by_contra spent
    exact goesOn ⟨by omega, executes⟩

/-- **Limits only cut runs short.**  Whatever a machine is asked to do in whatever state, it does
    the same under wider limits, unless a limit keeps it from doing it.  So the deltas of a play
    are the first ones under wider limits; if it ends for anything but a limit, the two plays are
    the same, and end alike.  A limit of steps cuts the play without one where it has executed
    that many instructions and would execute another one. -/
theorem limits_only_cut (m : Machine) (seed : Option Int) (inputs : List Text) :
    let start : Play := { seed, inputs }
    (∀ wide, m.limits.Within wide →
      (∀ s c, CutShort (m.call s c) ((m.under wide).call s c)) ∧
        ∀ ds q, m.Plays start ds q →
          (m.under wide).Plays start ds q ∧
            (¬ (m.next q).IsCut → (m.under wide).next q = m.next q)) ∧
      ∀ n, m.CutAfter start n := by
  intro start
  constructor
  · intro wide within
    constructor
    · intro s c
      exact call_cutShort within s c
    · intro ds q plays
      exact ⟨plays.under within, next_under within⟩
  · intro n
    exact cutAfter m rfl n

/-- A read, a push and an output, with room for two values and for three instructions: the end
    of the program is reached under wider limits as well.  With a limit of two instructions the
    answer to the read is the last delta but one. -/
theorem limits_only_cut_answered_read :
    let program : Program := { instructions := [.read .stack, .push (.imm 5), .write] }
    let m : Machine := { program, limits := { maxStack := 2, maxSteps := some 3 } }
    let wide : Limits := { maxStack := 1000, maxSteps := none }
    let start : Play := { inputs := ["7".toList] }
    (∃ ds q, m.Plays start ds q ∧ ds.length = 5 ∧ (m.under wide).Plays start ds q ∧
        (m.under wide).next q = .finished) ∧
      ∃ ds q, (m.withSteps (some 2)).Plays start ds q ∧ ds.length = 3 ∧
        (m.withSteps (some 2)).next q = .fault (.exceeded (.stepCount 2)) := by
  intro program m wide start
  obtain ⟨wider, cut⟩ := limits_only_cut m none ["7".toList]
  have within : m.limits.Within wide := by
    refine ⟨by decide, ?_⟩
    intro most hm
    cases hm
  constructor
  · have plays : m.Plays start _ _ :=
      .cons rfl (.cons rfl (.cons rfl (.cons rfl (.cons rfl (.refl _)))))
    obtain ⟨wide, ends⟩ := (wider _ within).2 _ _ plays
    exact ⟨_, _, plays, rfl, wide, ends id⟩
  · have plays : (m.withSteps none).Plays start _ _ := .cons rfl (.cons rfl (.cons rfl (.refl _)))
    obtain ⟨limited, fails⟩ := ((cut 2).spent _ _).mpr
      ⟨plays, rfl, rfl, 2, .write, rfl, rfl, rfl, rfl⟩
    exact ⟨_, _, limited, rfl, fails⟩

end Machine

end Stepwise

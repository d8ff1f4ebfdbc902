/-
  Stepwise/Proofs/Machine/Ending.lean
  ===================================
  **A run with a limit of steps ends.**

  The counter alone does not show it.  The seed, the answers to reads and the end of the
  program are not counted, so a play may go on for a while without the counter moving.  But
  each of them is paid for.  A value is taken once for the seed and once for each request, a
  request is made by an instruction, which counts, and nothing follows the end of the program.
  So a play of a machine that executes at most `n` instructions has at most `2 * n + 1` moves
  behind its seed (`Plays.length_le`), and a play whose length is bounded comes to an end
  (`exists_plays_stops`).

  What one move does to the counter, to the values owed and to the inputs is said once
  (`Moves`); the accounts of a whole play are sums over its moves (`Plays.accounts`).
-/
import Stepwise.Proofs.Machine.Limits

namespace Stepwise

namespace Machine

namespace Delta

/-- A read has asked for a value. -/
def requests (d : Delta) : Bool :=
  match d.input with
  | some (.requested _) => true
  | _ => false

/-- A value has been taken: the seed, or the answer to a read. -/
def consumes (d : Delta) : Bool :=
  match d.input with
  | some (.consumed _) => true
  | _ => false

end Delta

variable {m : Machine} {s : State} {t : Transition} {p q : Play} {d : Delta} {ds : List Delta}
  {v : Int} {n : Nat}

/-! ### One move -/

/-- Values that the play has to take before it can go on. -/
def Play.owed (p : Play) : Nat := p.seed.toList.length + p.state.awaiting.toNat

/-- Values that there are for the play to take. -/
def Play.supply (p : Play) : Nat := p.seed.toList.length + p.inputs.length

/-- What a move does to the counter, to what is owed and to the supply. -/
inductive Moves (p : Play) (d : Delta) (q : Play) : Prop where
  | executes (counted : q.state.steps = p.state.steps + 1) (takes : d.consumes = false)
      (owed : q.owed = p.owed + d.requests.toNat) (supply : q.supply = p.supply)
  | takes (same : q.state.steps = p.state.steps) (takes : d.consumes = true)
      (quiet : d.requests = false) (owed : q.owed + 1 = p.owed) (supply : q.supply + 1 = p.supply)
  | leaves (same : q.state.steps = p.state.steps) (takes : d.consumes = false)
      (quiet : d.requests = false) (owed : q.owed = p.owed) (supply : q.supply = p.supply)
      (halted : q.state.isHalted = true) (unseeded : q.seed = none)

/-- No instruction takes a value, and the machine waits behind one if it has asked for one. -/
structure Tells (t : Transition) : Prop where
  takes : t.delta.consumes = false
  requests : t.delta.requests = t.state.awaiting

theorem keeps_tells (m : Machine) : m.Keeps (fun _ => True) Tells where
  push := by
    intro t u v ht _ h
    simp only [Transition.push] at h
    split at h <;> cases h
    exact ⟨ht.takes, ht.requests⟩
  pop := by
    intro t u v i ht h
    simp only [Transition.pop] at h
    split at h <;> cases h
    exact ⟨trivial, ht.takes, ht.requests⟩
  setRegister := by
    intro t u r v ht _ h
    simp only [Transition.setRegister] at h
    split at h <;> cases h
    exact ⟨ht.takes, ht.requests⟩
  register := fun _ _ => trivial
  compute := fun _ _ _ => trivial
  putOut := fun ht _ => ⟨ht.takes, ht.requests⟩
  goTo := fun ht _ => ⟨ht.takes, ht.requests⟩
  halt := fun ht => ⟨ht.takes, ht.requests⟩
  request := fun _ => ⟨rfl, rfl⟩

theorem moves_of_seed (h : m.seed s v = .ok t) (inputs : List Text) :
    Moves { state := s, seed := some v, inputs } t.delta { state := t.state, inputs } := by
  obtain ⟨u, pushed, rfl⟩ := seed_pushes h
  have awaiting : u.state.awaiting = s.awaiting := ((Transition.open_start s).push pushed).quiet
  refine .takes ((keeps_steps m _).push rfl trivial pushed) rfl rfl ?_ ?_
  · simp [Play.owed, awaiting, Nat.add_comm]
  · simp [Play.supply, Nat.add_comm]

theorem moves_of_answer {text : Text} (h : m.answer s text = .ok t) (rest : List Text) :
    Moves { state := s, inputs := text :: rest } t.delta { state := t.state, inputs := rest } := by
  obtain ⟨v, -, resumed⟩ := answer_cases h
  obtain ⟨i, target, u, -, awaiting, -, -, stored, rfl⟩ := resume_stores resumed
  refine .takes (steps_of_store stored) rfl rfl ?_ ?_
  · simp [Play.owed, awaiting]
  · simp [Play.supply]

theorem moves_of_step (running : s.awaiting = false) (h : m.step s = .ok t) (inputs : List Text) :
    Moves { state := s, inputs } t.delta { state := t.state, inputs } := by
  rcases step_cases h with
    ⟨pointer, rfl⟩ | ⟨i, pointer, ⟨-, rfl⟩ | ⟨instruction, fetched, ⟨waits, rfl⟩ | ⟨-, left, done⟩⟩⟩
  · exact .leaves rfl rfl rfl rfl rfl (by simp [State.isHalted, pointer]) rfl
  · refine .leaves rfl rfl rfl ?_ rfl rfl rfl
    simp [Play.owed, running]
  · cases running.symm.trans waits
  · have inside := lt_size_of_get fetched
    have counted : t.state.steps = s.steps + 1 :=
      (keeps_steps m _).execute (fun _ _ => trivial) inside rfl done
    have start : Tells { state := s.counted } := ⟨rfl, running.symm⟩
    have tells : Tells t := (keeps_tells m).execute (fun _ _ => trivial) inside start done
    refine .executes counted tells.takes ?_ rfl
    simp [Play.owed, running, tells.requests]

/-- **Whatever a play does next is one of the three.** -/
theorem moves_of_next (h : m.next p = .delta d q) : Moves p d q := by
  have ofCall {result : Except Fault Transition} {rest : List Text}
      (h : Next.ofCall result rest = .delta d q) :
      ∃ t, result = .ok t ∧ d = t.delta ∧ q = { state := t.state, inputs := rest } := by
    cases result <;> cases h
    exact ⟨_, rfl, rfl, rfl⟩
  obtain ⟨state, seed, inputs⟩ := p
  simp only [next] at h
  split at h
  · obtain ⟨t, ok, rfl, rfl⟩ := ofCall h
    exact moves_of_seed ok inputs
  · split at h
    · cases h
    · split at h
      · split at h
        · cases h
        · obtain ⟨t, ok, rfl, rfl⟩ := ofCall h
          exact moves_of_answer ok _
      · rename_i running
        obtain ⟨t, ok, rfl, rfl⟩ := ofCall h
        exact moves_of_step (by simpa using running) ok inputs

/-! ### Whole plays -/

/-- The accounts of a play from `p` to `q`. -/
structure Accounts (p : Play) (ds : List Delta) (q : Play) : Prop where
  /-- A delta is an instruction or a value taken, but for one at the end of the program. -/
  deltas : ∃ beyond, ds.length + p.state.steps = q.state.steps + ds.countP Delta.consumes + beyond ∧
    beyond ≤ q.state.isHalted.toNat
  /-- What is taken was owed, or has been asked for. -/
  taken : ds.countP Delta.consumes + q.owed = ds.countP Delta.requests + p.owed
  asked : ds.countP Delta.requests + p.state.steps ≤ q.state.steps
  supply : ds.countP Delta.consumes + q.supply = p.supply

theorem Plays.accounts (h : m.Plays p ds q) : Accounts p ds q := by
  have countP_cons (f : Delta → Bool) (d : Delta) (ds : List Delta) :
      (d :: ds).countP f = ds.countP f + (f d).toNat := by
    cases told : f d <;> simp [told]
  induction h with
  | refl p => exact ⟨⟨0, by simp, Nat.zero_le _⟩, by simp, by simp, by simp⟩
  | @cons p q r d ds first rest ih =>
    obtain ⟨⟨beyond, deltas, halted⟩, taken, asked, supply⟩ := ih
    cases moves_of_next first with
    | executes counted takes owed same =>
      have once : d.requests.toNat ≤ 1 := d.requests.toNat_le
      refine ⟨⟨beyond, ?_, halted⟩, ?_, ?_, ?_⟩
      all_goals simp only [List.length_cons, countP_cons, takes, Bool.toNat_false]
      all_goals omega
    | takes same takes quiet owed given =>
      refine ⟨⟨beyond, ?_, halted⟩, ?_, ?_, ?_⟩
      all_goals
        simp only [List.length_cons, countP_cons, takes, quiet, Bool.toNat_false, Bool.toNat_true]
      all_goals omega
    | leaves same takes quiet owed given isOver unseeded =>
      -- Nothing comes next.
      cases rest with
      | cons second _ => simp [next, unseeded, isOver] at second
      | refl =>
        refine ⟨⟨1, ?_, by simp [isOver]⟩, ?_, ?_, ?_⟩
        all_goals simp only [List.length_cons, countP_cons, takes, quiet, Bool.toNat_false]
        all_goals simp
        all_goals omega

/-! ### Plays that end -/

/-- A play from the start executes at most as many instructions as the limit allows, takes a
    value for the seed and one for each request, and has one further delta if any. -/
theorem Plays.length_le {seed : Option Int} {inputs : List Text}
    (limit : m.limits.maxSteps = some n) (h : m.Plays { seed, inputs } ds q) :
    ds.length ≤ seed.toList.length + (2 * n + 1) := by
  obtain ⟨⟨beyond, deltas, halted⟩, taken, asked, -⟩ := h.accounts
  have executed : q.state.steps ≤ n := (h.bounded (bounded_start m)).steps n limit
  have once : q.state.isHalted.toNat ≤ 1 := q.state.isHalted.toNat_le
  simp only [Play.owed, Bool.toNat_false] at taken
  omega

/-- A play comes to an end if there is a bound on how long it can go on. -/
theorem exists_plays_stops (bound : ∀ ds q, m.Plays p ds q → ds.length ≤ n) :
    ∃ ds q, m.Plays p ds q ∧ m.Stops q := by
  by_contra endless
  have goesOn (k : Nat) : ∃ ds q, m.Plays p ds q ∧ ds.length = k := by
    induction k with
    | zero => exact ⟨[], p, .refl p, rfl⟩
    | succ k ih =>
      obtain ⟨ds, q, plays, rfl⟩ := ih
      have further : ¬ m.Stops q := fun stops => endless ⟨ds, q, plays, stops⟩
      simp only [Stops, ne_eq, not_forall, Classical.not_not] at further
      obtain ⟨d, r, next⟩ := further
      exact ⟨ds ++ [d], r, plays.snoc next, by simp⟩
  obtain ⟨ds, q, plays, length⟩ := goesOn (n + 1)
  have := bound ds q plays
  omega

/-- A play that stops is over, fails, or waits for a value when it has taken all inputs. -/
theorem Stops.cases (stops : m.Stops q) :
    q.state.isHalted = true ∨ (∃ f, m.next q = .fault f) ∨
      m.next q = .starved ∧ q.owed = 1 ∧ q.supply = 0 := by
  obtain ⟨state, seed, inputs⟩ := q
  have ofCall (result : Except Fault Transition) (rest : List Text)
      (h : m.next ⟨state, seed, inputs⟩ = .ofCall result rest) :
      ∃ f, m.next ⟨state, seed, inputs⟩ = .fault f := by
    cases result with
    | error f => exact ⟨f, h⟩
    | ok t => exact absurd h (stops _ _)
  cases seed with
  | some v => exact .inr (.inl (ofCall _ _ (next_of_seed v inputs)))
  | none =>
    by_cases halted : state.isHalted = true
    · exact .inl halted
    · by_cases waits : state.awaiting = true
      · cases inputs with
        | nil =>
          refine .inr (.inr ⟨?_, ?_, rfl⟩)
          · simp [next, halted, waits]
          · simp [Play.owed, waits]
        | cons text rest =>
          refine .inr (.inl (ofCall (m.answer state text) rest ?_))
          simp [next, halted, waits]
      · refine .inr (.inl (ofCall (m.step state) inputs ?_))
        simp [next, halted, waits]

end Machine

end Stepwise

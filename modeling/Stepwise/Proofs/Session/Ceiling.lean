/-
  Stepwise/Proofs/Session/Ceiling.lean
  ====================================
  **With a limit of steps, every run ends and every session keeps its number of steps.**

  A session numbers the steps and the answered reads that it tells, and no seed.  These are
  moves of the play of its program, of which there are at most `2 * n + 1` behind the seed if
  the machine executes at most `n` instructions.  So the number that a session reports is never
  larger, whatever the client and the clock do (`steps_le`).
-/
import Stepwise.Proofs.Machine.Ending
import Stepwise.Proofs.Session.Refinement

namespace Stepwise

open Machine

namespace Conversation.History

open Session

variable {config : Session.Config} {n : Nat}

theorem steps_le (limit : config.limits.maxSteps = some n) (peer : Text) (seed : Int)
    (schedule : List Move) :
    (History.of peer config seed schedule).talk.session.steps ≤ 2 * n + 1 := by
  have length_le {program : Program} {inputs : List Text} {ds : List Delta} {p : Play}
      (plays : (machineFor config program).Plays (opening config seed inputs) ds p) :
      ds.length ≤ unnumbered config + (2 * n + 1) := by
    have opened : (opening config seed inputs).seed.toList.length = unnumbered config := by
      unfold opening unnumbered
      split <;> rfl
    rw [← opened]
    exact Plays.length_le limit plays
  cases stands_of peer config seed schedule with
  | idle _ silent | unheard _ silent =>
    rw [silent.steps]
    exact Nat.zero_le _
  | refused source e refused =>
    rw [refused.steps]
    exact Nat.zero_le _
  | running source program run ds runs =>
    have := length_le runs.plays
    have := runs.steps
    omega
  | ended source program outcome ds p tail ended =>
    have := length_le ended.plays
    rw [ended.steps]
    omega

/-- **Runs with a limit of steps end.**  Of a machine that executes at most `n` instructions, every
    play takes at most one value for each request, and has at most one delta that is neither an
    instruction nor a value taken, the one that ends the run at the end of the program.  So it
    has at most `2 * n + 1` deltas behind the seed.  Every play therefore ends: it is over, or it
    fails, or it asks for one value more than it is given, which it does not if it is given `n`.
    And no session reports a larger number of steps. -/
theorem limited_runs_end (m : Machine) (limit : m.limits.maxSteps = some n) (seed : Option Int)
    (inputs : List Text) :
    (∀ ds q, m.Plays { seed, inputs } ds q →
      q.state.steps ≤ n ∧
        ds.countP Delta.requests ≤ q.state.steps ∧
        ds.countP Delta.consumes ≤ seed.toList.length + ds.countP Delta.requests ∧
        (∃ beyond, ds.length = q.state.steps + ds.countP Delta.consumes + beyond ∧
          beyond ≤ q.state.isHalted.toNat) ∧
        ds.length ≤ seed.toList.length + (2 * n + 1)) ∧
      (∃ ds q, m.Plays { seed, inputs } ds q ∧
        (q.state.isHalted = true ∨ (∃ f, m.next q = .fault f) ∨
          m.next q = .starved ∧ ds.countP Delta.requests = inputs.length + 1 ∧
            inputs.length < n)) ∧
      ∀ config : Session.Config, config.limits.maxSteps = some n → ∀ peer seed schedule,
        (History.of peer config seed schedule).talk.session.steps ≤ 2 * n + 1 := by
  refine ⟨?_, ?_, ?_⟩
  · intro ds q plays
    have within : q.state.steps ≤ n := (plays.bounded (bounded_start m)).steps n limit
    obtain ⟨deltas, taken, asked, -⟩ := plays.accounts
    simp only [Play.owed, Bool.toNat_false, Nat.add_zero] at taken deltas asked
    exact ⟨within, asked, by omega, deltas, plays.length_le limit⟩
  · obtain ⟨ds, q, plays, stops⟩ := exists_plays_stops fun ds q h => Plays.length_le limit h
    refine ⟨ds, q, plays, ?_⟩
    rcases stops.cases with halted | fails | ⟨starved, owed, supply⟩
    · exact .inl halted
    · exact .inr (.inl fails)
    · obtain ⟨-, taken, asked, supplied⟩ := plays.accounts
      simp only [Play.owed, Play.supply, Bool.toNat_false] at taken supplied owed supply
      have within : q.state.steps ≤ n := (plays.bounded (bounded_start m)).steps n limit
      have all : ds.countP Delta.requests = inputs.length + 1 := by omega
      refine .inr (.inr ⟨starved, all, ?_⟩)
      rw [all] at asked
      exact Nat.le_trans asked within
  · intro config limit peer seed schedule
    exact steps_le limit peer seed schedule

/-- Two reads that are answered, with a limit of two instructions: behind the seed there are as many
    deltas as there can be, and a session of the program reports as many steps. -/
theorem limited_runs_end_two_reads :
    let m : Machine :=
      { program := { instructions := [.read .stack, .read .stack] }
        limits := { maxSteps := some 2 } }
    let start : Play := { seed := some 1, inputs := ["7".toList, "-3".toList] }
    let config : Session.Config := { delay := .ofMillis 0, limits := { maxSteps := some 2 } }
    let schedule : List Move :=
      [.post "read\nread".toList, .post "7".toList, .post "-3".toList] ++ List.replicate 10 .respond
    let session := (History.of [] config 0 schedule).talk.session
    m.limits.maxSteps = some 2 ∧
      (∀ ds q, m.Plays start ds q → ds.length ≤ 1 + (2 * 2 + 1)) ∧
      (∃ ds q, m.Plays start ds q ∧ q.state.isHalted = true ∧ ds.length = 1 + (2 * 2 + 1)) ∧
      session.steps ≤ 2 * 2 + 1 ∧ session.steps = 2 * 2 + 1 := by
  intro m start config schedule session
  obtain ⟨accounts, -, sessions⟩ := limited_runs_end m rfl (some 1) ["7".toList, "-3".toList]
  refine ⟨rfl, ?_, ?_, sessions config rfl [] 0 schedule, by decide +kernel⟩
  · intro ds q plays
    exact (accounts ds q plays).2.2.2.2
  · have plays : m.Plays start _ _ :=
      .cons rfl (.cons rfl (.cons rfl (.cons rfl (.cons rfl (.cons rfl (.refl _))))))
    exact ⟨_, _, plays, rfl, rfl⟩

end Conversation.History

end Stepwise

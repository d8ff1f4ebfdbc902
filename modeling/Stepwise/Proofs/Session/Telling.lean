/-
  Stepwise/Proofs/Session/Telling.lean
  ====================================
  **Nothing is kept from the client for long.**

  Every step and every answered read tells something, and other responses bring the session nearer
  to waiting (`Reacts.rank_lt`).  So a session that is given no message comes to at most two
  responses before it waits or tells.

  And what waits goes on waiting until its timer (`cue?_skip`).
-/
import Stepwise.Proofs.Protocol.Lines
import Stepwise.Proofs.Session.Settling

namespace Stepwise

open Machine

namespace Machine

theorem length_ofDelta_pos {d : Delta} {e : Event} (one : d.endings = [e]) :
    0 < (Event.ofDelta d).length := by
  rw [Delta.ofDelta_eq_append, one, List.length_append]
  exact Nat.succ_pos _

end Machine

namespace Session

variable {s s' : Session} {now later : Instant} {takes : Takes} {cue : Cue} {told : List Event}
  {inbox : List Text} {gone : Bool} {run : Run} {n : Nat}

/-! ### What a session tells -/

/-- A number of responses that a session comes to while it tells nothing and gets no message. -/
def Phase.rank : Phase → Nat
  | .ended _ => 0
  | .ready _ | .awaiting _ _ => 1
  | .idle | .pacing _ _ => 2

theorem rank_le_two (phase : Phase) : phase.rank ≤ 2 := by
  cases phase <;> simp [Phase.rank]

theorem rank_pos_of_run (runs : s.phase.run? = some run) : 0 < s.phase.rank := by
  cases phase : s.phase with
  | idle | ended outcome =>
    rw [phase] at runs
    cases runs
  | ready run | pacing run since | awaiting run since => exact Nat.succ_pos _

theorem rank_pos_of_listens (listens : s.Listens) : 0 < s.phase.rank := by
  cases listens with
  | idle h | pacing run since h | awaiting run since h =>
    rw [h]
    exact Nat.succ_pos _

theorem Concludes.rank_lt {last : Event} (h : Concludes s takes last s' told) (pos : 0 < n) :
    s'.phase.rank < n :=
  h.session (P := fun r => r.phase.rank < n) fun _ => pos

/-- What is delivered of a step or an answer is worth more than the pause behind it. -/
theorem Delivers.rank_lt {result : Except Fault Transition} {next : State → Session}
    (h : Delivers s takes result next s' told) (pos : 0 < n)
    (tells : ∀ t, result = .ok t → ∃ e, t.delta.endings = [e]) :
    s'.phase.rank < n + 3 * told.length := by
  cases h with
  | told t ok =>
    obtain ⟨e, one⟩ := tells t ok
    have length := length_ofDelta_pos one
    have rank := rank_le_two (next t.state).phase
    omega
  | cut t n' ok left short => exact Nat.lt_of_lt_of_le pos (Nat.le_add_right _ _)
  | failed f error concludes =>
    exact Nat.lt_of_lt_of_le (concludes.rank_lt pos) (Nat.le_add_right _ _)

theorem endings_of_answer {m : Machine} {state : State} {text : Text} {t : Transition}
    (answers : m.answer state text = .ok t) : ∃ e, t.delta.endings = [e] := by
  obtain ⟨v, -, resumes⟩ := answer_cases answers
  exact endings_of_resume resumes

/-- **Every response tells something, takes a message, or brings the session nearer to waiting.** -/
theorem Reacts.rank_lt (h : Reacts s now takes cue s' told) :
    s'.phase.rank < s.phase.rank + 3 * told.length ∨
      (∃ m, cue = .message m) ∧ s'.phase.rank ≤ s.phase.rank + 3 * told.length := by
  have more {a b : Nat} (less : a < b) : a < b + 3 * told.length :=
    Nat.lt_of_lt_of_le less (Nat.le_add_right _ _)
  cases h with
  | directive m d listens directive => exact .inr ⟨⟨m, rfl⟩, Nat.le_refl _⟩
  | hangup listens left => exact .inl (rank_pos_of_listens listens)
  | refused m e idle text refuses concludes =>
    exact .inl (more (concludes.rank_lt (rank_pos_of_listens (.idle idle))))
  | started m program idle text decodes unseeded =>
    rw [idle]
    exact .inl (Nat.lt_succ_self 1)
  | seeded m program idle text decodes seeded delivers =>
    -- a seed need not tell anything, but the run is ready to step behind it
    rw [idle]
    refine .inl (more ?_)
    exact delivers.session (P := fun r => r.phase.rank < 2) (fun _ => Nat.lt_succ_self 1)
      fun _ => Nat.succ_pos 1
  | step run ready delivers =>
    have runs : s.phase.run? = some run := by rw [ready]; rfl
    exact .inl (delivers.rank_lt (rank_pos_of_run runs) fun _ => endings_of_step)
  | wake run since pacing =>
    rw [pacing]
    exact .inl (Nat.lt_succ_self 1)
  | kept m run since pacing text room => exact .inr ⟨⟨m, rfl⟩, Nat.le_refl _⟩
  | dropped m run since pacing text full => exact .inr ⟨⟨m, rfl⟩, Nat.le_refl _⟩
  | queued m rest run since awaiting inputs delivers =>
    have runs : s.phase.run? = some run := by rw [awaiting]; rfl
    exact .inl (delivers.rank_lt (rank_pos_of_run runs) fun _ => endings_of_answer)
  | answered m run since awaiting empty text delivers =>
    have runs : s.phase.run? = some run := by rw [awaiting]; rfl
    exact .inl (delivers.rank_lt (rank_pos_of_run runs) fun _ => endings_of_answer)
  | inputTimeout run since awaiting empty late concludes =>
    have listens : s.Listens := .awaiting run since awaiting empty
    exact .inl (more (concludes.rank_lt (rank_pos_of_listens listens)))
  | runTimeout run runs late concludes =>
    exact .inl (more (concludes.rank_lt (rank_pos_of_run runs)))

/-! ### Resting on -/

/-- What rests goes on resting until its timer. -/
theorem cue?_of_early (rests : s.cue? now inbox gone = none)
    (early : ∀ alarm ∈ s.alarm?, later < alarm) : s.cue? later inbox gone = none := by
  unfold cue? at rests ⊢
  split at rests
  · exact rests
  · split at rests <;> cases rests
  · rename_i run since pacing
    have both := Nat.lt_min.mp (early _ (by rw [alarm?, pacing]; rfl))
    split at rests
    · cases rests
    · split at rests
      · cases rests
      · rw [if_neg (Nat.not_le.mpr both.1), if_neg (by simpa [Run.isLate] using both.2)]
        exact rests
  · rename_i run since awaiting
    have both := Nat.lt_min.mp (early _ (by rw [alarm?, awaiting]; rfl))
    split at rests
    · cases rests
    · rename_i empty
      obtain ⟨client, -⟩ := Option.or_eq_none_iff.mp rests
      rw [if_neg empty, client, if_neg (Nat.not_le.mpr both.1),
        if_neg (by simpa [Run.isLate] using both.2)]
      rfl
  · rfl

end Session

namespace Conversation

variable {c : Conversation} {n ms : Nat}

theorem cue?_skip (rests : c.cue? = none) (quiet : n ≤ c.quiet ms) : (c.skip n).cue? = none := by
  refine Session.cue?_of_early rests fun alarm halarm => ?_
  have set : c.session.alarm? = some alarm := halarm
  have later : c.now < Duration.inMillis alarm :=
    Duration.lt_inMillis_iff.mpr (instant_lt_alarm rests halarm)
  have short : n ≤ Duration.inMillis alarm - (c.now + 1) := by
    simp only [Conversation.quiet, set] at quiet
    exact Nat.le_trans quiet (Nat.min_le_right _ _)
  refine Duration.lt_inMillis_iff.mp ?_
  change c.now + n < Duration.inMillis alarm
  omega

end Conversation

end Stepwise

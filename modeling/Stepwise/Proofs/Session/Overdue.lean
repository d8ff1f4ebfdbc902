/-
  Stepwise/Proofs/Session/Overdue.lean
  ====================================
  **What is overdue ends, after few responses.**

  The deadline of a run stays as it is, and so does the beginning of a wait
  (`Reacts.deadline`, `Reacts.awaiting`).  When the run time is up, no step is taken any more,
  so nothing of the program has to be counted: a session that waits may still be given a
  value, one that pauses may still wake, and then it ends.  Every other response takes a
  message.  So the session is over after at most three responses and one for each message
  that is on the link or comes onto it (`IsLate.over_of_responds`), whether the number of
  steps is limited or not.  Likewise a wait that has been too long is over after one response
  and one for each message (`IsOverdue.ends_of_responds`).
-/
import Stepwise.Proofs.Session.Settling

namespace Stepwise

open Machine

namespace Session

variable {s s' : Session} {now since : Instant} {takes : Takes} {cue : Cue} {inbox : List Text}
  {told : List Event} {run run' : Run}

/-! ### What a response keeps -/

theorem run?_phaseAfter (h : (run.phaseAfter now).run? = some run') : run' = run := by
  unfold Run.phaseAfter at h
  split at h
  · exact (Option.some.inj h).symm
  · split at h
    · cases h
    · exact (Option.some.inj h).symm

theorem Concludes.exists_closed {last : Event} (h : Concludes s takes last s' told) :
    ∃ outcome, s' = s.closed outcome :=
  h.session (P := fun r => ∃ outcome, r = s.closed outcome) fun outcome => ⟨outcome, rfl⟩

/-- The run that goes on when a step or an answered read has been told has the same deadline. -/
theorem Delivers.deadline {result : Except Fault Transition}
    (h : Delivers s takes result (s.settled now run) s' told)
    (running : s'.phase.run? = some run') : run'.deadline = run.deadline := by
  cases h with
  | told t ok =>
    obtain rfl := run?_phaseAfter running
    rfl
  | cut t n ok left short => cases running
  | failed f error concludes =>
    obtain ⟨outcome, rfl⟩ := concludes.exists_closed
    cases running

/-- A source that decodes is taken. -/
def Begins (s : Session) (cue : Cue) : Prop :=
  s.phase = .idle ∧ ∃ m program, cue = .message m ∧ Inbound.isDirective m = false ∧
    decode m = .ok program

/-- **The deadline is set when a run begins, and stays.** -/
theorem Reacts.deadline (h : Reacts s now takes cue s' told) (running : s'.phase.run? = some run') :
    (∃ run, s.phase.run? = some run ∧ run'.deadline = run.deadline) ∨
      s.Begins cue ∧ run'.deadline = now + s.config.maxRunTime := by
  cases h with
  | directive m d listens directive => exact .inl ⟨run', running, rfl⟩
  | hangup listens left => cases running
  | started m program idle text decodes unseeded =>
    cases running
    exact .inr ⟨⟨idle, m, program, rfl, text, decodes⟩, rfl⟩
  | seeded m program idle text decodes seeded delivers =>
    refine .inr ⟨⟨idle, m, program, rfl, text, decodes⟩, ?_⟩
    cases delivers with
    | told t ok =>
      cases running
      rfl
    | cut t n ok left short => cases running
    | failed f error concludes =>
      obtain ⟨outcome, rfl⟩ := concludes.exists_closed
      cases running
  | step run ready delivers => exact .inl ⟨run, by rw [ready]; rfl, delivers.deadline running⟩
  | wake run since pacing =>
    cases running
    exact .inl ⟨run', by rw [pacing]; rfl, rfl⟩
  | kept m run since pacing text room => exact .inl ⟨run', running, rfl⟩
  | dropped m run since pacing text full => exact .inl ⟨run', running, rfl⟩
  | queued m rest run since awaiting inputs delivers =>
    exact .inl ⟨run, by rw [awaiting]; rfl, delivers.deadline running⟩
  | answered m run since awaiting empty text delivers =>
    exact .inl ⟨run, by rw [awaiting]; rfl, delivers.deadline running⟩
  | refused m e idle text refuses concludes =>
    obtain ⟨outcome, rfl⟩ := concludes.exists_closed
    cases running
  | inputTimeout run since awaiting empty late concludes =>
    obtain ⟨outcome, rfl⟩ := concludes.exists_closed
    cases running
  | runTimeout run runs late concludes =>
    obtain ⟨outcome, rfl⟩ := concludes.exists_closed
    cases running

/-- A delivery after which the session waits for a value is that of a state that waits. -/
theorem Delivers.awaiting {result : Except Fault Transition}
    (h : Delivers s takes result (s.settled now run) s' told)
    (waits : s'.phase = .awaiting run' since) :
    ∃ t, result = .ok t ∧ t.state.awaiting = true ∧ since = now := by
  cases h with
  | told t ok =>
    change Run.phaseAfter _ _ = _ at waits
    unfold Run.phaseAfter at waits
    split at waits
    · rename_i asks
      cases waits
      exact ⟨t, ok, asks, rfl⟩
    · split at waits <;> cases waits
  | cut t n ok left short => cases waits
  | failed f error concludes =>
    obtain ⟨outcome, rfl⟩ := concludes.exists_closed
    cases waits

theorem not_awaiting_of_answer {m : Machine} {state : State} {text : Text} {t : Transition}
    (h : m.answer state text = .ok t) : t.state.awaiting = false := by
  obtain ⟨v, -, resumes⟩ := answer_cases h
  exact not_awaiting_of_resume resumes

/-- **A wait begins with a step, and directives leave it as it is.** -/
theorem Reacts.awaiting (h : Reacts s now takes cue s' told)
    (waits : s'.phase = .awaiting run since) :
    cue = .step ∧ since = now ∨
      s.phase = .awaiting run since ∧ ∃ m, cue = .message m ∧ Inbound.isDirective m = true := by
  have not_answered {m : Text} {r : Session} {run run' : Run}
      (delivers : Delivers r takes (run.machine.answer run.state m) (r.settled now run) s' told)
      (waits : s'.phase = .awaiting run' since) : False := by
    obtain ⟨t, answers, asks, -⟩ := delivers.awaiting waits
    rw [not_awaiting_of_answer answers] at asks
    cases asks
  have concluded {last : Event} (concludes : Concludes s takes last s' told) : False := by
    obtain ⟨outcome, rfl⟩ := concludes.exists_closed
    cases waits
  cases h with
  | directive m d listens directive => exact .inr ⟨waits, m, rfl, directive⟩
  | hangup listens left => cases waits
  | started m program idle text decodes unseeded => cases waits
  | seeded m program idle text decodes seeded delivers =>
    cases delivers with
    | told t ok => cases waits
    | cut t n ok left short => cases waits
    | failed f error concludes => exact (concluded concludes).elim
  | step run ready delivers =>
    obtain ⟨-, -, -, rfl⟩ := delivers.awaiting waits
    exact .inl ⟨rfl, rfl⟩
  | wake run since pacing => cases waits
  | kept m run since pacing text room =>
    change s.phase = _ at waits
    rw [pacing] at waits
    cases waits
  | dropped m run since pacing text full =>
    rw [pacing] at waits
    cases waits
  | queued m rest run since awaiting inputs delivers => exact (not_answered delivers waits).elim
  | answered m run since awaiting empty text delivers => exact (not_answered delivers waits).elim
  | refused m e idle text refuses concludes => exact (concluded concludes).elim
  | inputTimeout run since awaiting empty late concludes => exact (concluded concludes).elim
  | runTimeout run runs late concludes => exact (concluded concludes).elim

theorem Delivers.not_idle {result : Except Fault Transition} {next : State → Session}
    (h : Delivers s takes result next s' told) (goesOn : ∀ state, (next state).phase ≠ .idle) :
    s'.phase ≠ .idle :=
  h.session (P := fun r => r.phase ≠ .idle) goesOn (closed_ne_idle s)

/-- A session that still waits for a source has been sent a directive, and has told nothing. -/
theorem Reacts.idle (h : Reacts s now takes cue s' told) (idle : s'.phase = .idle) :
    s.phase = .idle ∧ told = [] ∧ ∃ m, cue = .message m ∧ Inbound.isDirective m = true := by
  have concluded {last : Event} (concludes : Concludes s takes last s' told) : False := by
    obtain ⟨outcome, rfl⟩ := concludes.exists_closed
    cases idle
  cases h with
  | directive m d listens directive => exact ⟨idle, rfl, m, rfl, directive⟩
  | hangup listens left => cases idle
  | started m program waits text decodes unseeded => cases idle
  | seeded m program waits text decodes seeded delivers =>
    exact absurd idle (delivers.not_idle fun state => by simp)
  | step run ready delivers =>
    exact absurd idle (delivers.not_idle fun state => phaseAfter_ne_idle _ now)
  | wake run since pacing => cases idle
  | kept m run since pacing text room =>
    change s.phase = _ at idle
    rw [pacing] at idle
    cases idle
  | dropped m run since pacing text full =>
    rw [pacing] at idle
    cases idle
  | queued m rest run since awaiting inputs delivers =>
    exact absurd idle (delivers.not_idle fun state => phaseAfter_ne_idle _ now)
  | answered m run since awaiting empty text delivers =>
    exact absurd idle (delivers.not_idle fun state => phaseAfter_ne_idle _ now)
  | refused m e waits text refuses concludes => exact (concluded concludes).elim
  | inputTimeout run since awaiting empty late concludes => exact (concluded concludes).elim
  | runTimeout run runs late concludes => exact (concluded concludes).elim

end Session

namespace Conversation

open Session

variable {c : Conversation} {cue : Cue} {mv : Move} {schedule : List Move} {run : Run}
  {since : Instant} {fuel limit : Nat}

/-! ### Messages that come while the session responds -/

/-- The client sends a message. -/
def Move.sends : Move → Bool
  | .post _ => true
  | _ => false

theorem Move.not_sends_respond : ¬ Move.respond.sends = true :=
  Bool.false_ne_true

theorem length_inbox_move_le (mv : Move) (short : c.inbox.length ≤ linkCapacity) :
    (c.move mv).inbox.length ≤ linkCapacity := by
  cases mv with
  | post m => exact length_inbox_post_le c m short
  | pass ms | leave events | resume => exact short
  | respond =>
    simp only [move]
    split
    · exact Nat.le_trans (length_inbox_follow_le c _) short
    · exact short

/-- There are never more messages on the link than it has room for. -/
theorem length_inbox_moves_le (schedule : List Move) (short : c.inbox.length ≤ linkCapacity) :
    (c.moves schedule).inbox.length ≤ linkCapacity := by
  induction schedule generalizing c with
  | nil => exact short
  | cons mv rest ih => exact ih (length_inbox_move_le mv short)

/-- What is not a response brings one message at most, and leaves as much to be done. -/
theorem move_silent (limit : Nat) (silent : mv ≠ .respond) :
    (c.move mv).session.phase.duties limit = c.session.phase.duties limit ∧
      (c.move mv).inbox.length ≤ c.inbox.length + if mv.sends then 1 else 0 := by
  cases mv with
  | post m =>
    rcases History.post_cases c m with ⟨same, -⟩ | posted
    · have talk : c.move (.post m) = c := same
      rw [talk]
      exact ⟨rfl, Nat.le_add_right _ _⟩
    · simp [posted, Move.sends]
  | pass ms | leave events => exact ⟨rfl, Nat.le_refl _⟩
  | resume => exact ⟨duties_restarted _ _, Nat.le_refl _⟩
  | respond => exact absurd rfl silent

/-! ### When the run time is up -/

/-- A run has begun, and its time is up. -/
structure IsLate (c : Conversation) : Prop where
  begun : c.session.phase ≠ .idle
  late : ∀ run, c.session.phase.run? = some run → run.deadline ≤ c.instant

theorem IsLate.follow (late : c.IsLate) (due : c.cue? = some cue) : (c.follow cue).IsLate := by
  have reacts := reacts_of_cue due
  constructor
  · intro idle
    exact late.begun (reacts.idle idle).1
  · intro run' running
    rcases reacts.deadline running with ⟨run, runs, same⟩ | ⟨begins, -⟩
    · rw [same]
      exact late.late run runs
    · exact absurd begins.1 late.begun

theorem IsLate.move (late : c.IsLate) (mv : Move) : (c.move mv).IsLate := by
  cases mv with
  | post m =>
    rcases History.post_cases c m with ⟨same, -⟩ | posted
    · simp only [Conversation.move, same]
      exact late
    · simp only [Conversation.move, posted]
      exact ⟨late.begun, late.late⟩
  | pass ms =>
    refine ⟨late.begun, fun run runs => Nat.le_trans (late.late run runs) ?_⟩
    exact Nat.mul_le_mul_right _ (Nat.le_add_right _ _)
  | leave events => exact ⟨late.begun, late.late⟩
  | resume =>
    have same := sameButWhen_restarted c.session c.instant
    refine ⟨fun idle => late.begun (same.idle.mp idle), fun run runs => ?_⟩
    exact late.late run (same.run.symm.trans runs)
  | respond =>
    simp only [Conversation.move]
    split
    · rename_i cue due
      exact late.follow due
    · exact late

theorem IsLate.over_of_rests (late : c.IsLate) (rests : c.cue? = none) : c.isOver = true := by
  cases Conversation.rests_of_cue? rests with
  | idle idle => exact absurd idle late.begun
  | pacing run since pacing empty paused inTime =>
    exact absurd (late.late run (by rw [pacing]; rfl)) (Nat.not_le_of_lt inTime)
  | awaiting run since awaiting empty waits inTime =>
    exact absurd (late.late run (by rw [awaiting]; rfl)) (Nat.not_le_of_lt inTime)
  | ended outcome ended => exact isOver_of_ended ended

/-- No step is taken any more, so what is left to do does not depend on a limit of steps. -/
theorem IsLate.pending_follow (late : c.IsLate) (due : c.cue? = some cue) :
    (c.follow cue).pending 0 < c.pending 0 := by
  refine Conversation.pending_follow ?_ due
  rintro rfl
  obtain ⟨run, ready, inTime⟩ := before_deadline_of_step due
  exact absurd (late.late run (by rw [ready]; rfl)) (Nat.not_le_of_lt inTime)

theorem pending_zero_le (c : Conversation) : c.pending 0 ≤ c.inbox.length + 3 := by
  have duties := duties_le 0 c.session.phase
  simp only [pending]
  omega

theorem over_of_pending (pending : c.pending 0 = 0) : c.isOver = true := by
  have none := Nat.eq_zero_of_add_eq_zero_right pending
  cases phase : c.session.phase with
  | ended outcome => exact isOver_of_ended phase
  | idle | ready run | pacing run since | awaiting run since =>
    rw [phase] at none
    simp [Phase.duties] at none

theorem isOver_move (isOver : c.isOver = true) (mv : Move) : (c.move mv).isOver = true := by
  by_cases silent : mv = .respond
  · subst silent
    obtain ⟨outcome, ended⟩ := Option.isSome_iff_exists.mp isOver
    have rests : c.cue? = none := by
      simp only [cue?, Session.cue?, phase_of_outcome ended]
    simpa only [move, rests] using isOver
  · have same := (History.frame_of_move (h := { talk := c }) silent).session.outcome
    change (c.move mv).session.outcome?.isSome = true
    exact same ▸ isOver

/-- What is over stays over. -/
theorem isOver_moves (isOver : c.isOver = true) (schedule : List Move) :
    (c.moves schedule).isOver = true := by
  induction schedule generalizing c with
  | nil => exact isOver
  | cons mv rest ih => exact ih (isOver_move isOver mv)

/-- **A session whose run time is up ends**, whatever else happens, if it may respond as often as
    it has something left to do. -/
theorem IsLate.over_of_responds (late : c.IsLate)
    (enough : c.pending 0 + schedule.countP Move.sends ≤ schedule.count .respond) :
    (c.moves schedule).isOver = true := by
  induction schedule generalizing c with
  | nil => exact over_of_pending (Nat.le_zero.mp enough)
  | cons mv rest ih =>
    by_cases isOver : c.isOver = true
    · exact isOver_moves isOver (mv :: rest)
    · refine ih (late.move mv) ?_
      by_cases silent : mv = .respond
      · subst silent
        cases due : c.cue? with
        | none => exact absurd (late.over_of_rests due) isOver
        | some cue =>
          have less := late.pending_follow due
          rw [move_respond due]
          rw [List.countP_cons_of_neg Move.not_sends_respond, List.count_cons_self] at enough
          omega
      · obtain ⟨duties, inbox⟩ := move_silent (c := c) 0 silent
        rw [List.count_cons_of_ne silent, List.countP_cons] at enough
        simp only [pending, duties] at enough ⊢
        omega

/-- **Settling ends such a session.** -/
theorem IsLate.over_settle (late : c.IsLate) (short : c.inbox.length ≤ linkCapacity) :
    c.settle.isOver = true := by
  have left := pending_zero_le c
  have patient : c.inbox.length + 3 ≤ c.patience := by
    unfold patience
    split
    · omega
    · exact Nat.le_trans (Nat.add_le_add_right short 3) (by decide)
  obtain ⟨still, rests⟩ := cue?_settleWithin 0 (P := IsLate)
    (fun _ _ late due => ⟨late.follow due, late.pending_follow due⟩) late
    (Nat.le_trans left patient)
  exact still.over_of_rests rests

/-! ### When a wait has been too long -/

/-- The session waits for a value, and the time of the wait or that of the run is up. -/
structure IsOverdue (c : Conversation) (run : Run) (since : Instant) : Prop where
  awaiting : c.session.phase = .awaiting run since
  late : min (since + c.session.config.inputTimeout) run.deadline ≤ c.instant

theorem IsOverdue.exists_cue (overdue : c.IsOverdue run since) : ∃ cue, c.cue? = some cue := by
  refine Option.ne_none_iff_exists'.mp fun rests => ?_
  have rests := Conversation.rests_of_cue? rests
  have waits := rests.before_timeout overdue.awaiting
  have inTime := rests.before_deadline (by rw [overdue.awaiting]; rfl)
  exact absurd overdue.late (Nat.not_le_of_lt (Nat.lt_min.mpr ⟨waits, inTime⟩))

/-- A response ends the wait, or takes a directive from the link. -/
theorem IsOverdue.follow (overdue : c.IsOverdue run since) (due : c.cue? = some cue) :
    (c.follow cue).session.phase.waits = false ∨
      (c.follow cue).IsOverdue run since ∧ (c.follow cue).inbox.length < c.inbox.length := by
  have reacts := reacts_of_cue due
  cases phase : (c.follow cue).session.phase with
  | idle | ready run' | pacing run' since' | ended outcome => exact .inl rfl
  | awaiting run' since' =>
    right
    rcases reacts.awaiting phase with ⟨rfl, -⟩ | ⟨before, m, rfl, -⟩
    · obtain ⟨run, ready, -⟩ := before_deadline_of_step due
      cases overdue.awaiting.symm.trans ready
    · cases overdue.awaiting.symm.trans before
      refine ⟨⟨phase, ?_⟩, length_inbox_follow_lt due⟩
      have config : (c.follow (.message m)).session.config = c.session.config :=
        reacts.settings.config
      rw [config]
      exact overdue.late

theorem IsOverdue.move (overdue : c.IsOverdue run since) (onTime : mv.OnTime c)
    (silent : mv ≠ .respond) : (c.move mv).IsOverdue run since := by
  obtain ⟨awaiting, late⟩ := overdue
  cases mv with
  | post m =>
    rcases History.post_cases c m with ⟨same, -⟩ | posted
    · simp only [Conversation.move, same]
      exact ⟨awaiting, late⟩
    · simp only [Conversation.move, posted]
      exact ⟨awaiting, late⟩
  | pass ms =>
    obtain ⟨cue, due⟩ := IsOverdue.exists_cue ⟨awaiting, late⟩
    cases due.symm.trans onTime.1
  | leave events => exact ⟨awaiting, late⟩
  | resume => exact onTime.elim
  | respond => exact absurd rfl silent

/-- **A wait that has been too long ends**, whatever comes meanwhile, if the session may respond
    once more often than there are messages. -/
theorem IsOverdue.ends_of_responds (overdue : c.IsOverdue run since)
    (punctual : c.Punctual schedule)
    (enough : c.inbox.length + schedule.countP Move.sends < schedule.count .respond) :
    ∃ front back, schedule = front ++ back ∧ (c.moves front).session.phase.waits = false := by
  induction schedule generalizing c with
  | nil => exact absurd enough (Nat.not_lt_zero _)
  | cons mv rest ih =>
    obtain ⟨onTime, punctual⟩ := punctual
    have further (still : (c.move mv).IsOverdue run since)
        (enough : (c.move mv).inbox.length + rest.countP Move.sends < rest.count .respond) :
        ∃ front back, mv :: rest = front ++ back ∧
          (c.moves front).session.phase.waits = false := by
      obtain ⟨front, back, same, ends⟩ := ih still punctual enough
      exact ⟨mv :: front, back, by rw [same, List.cons_append], ends⟩
    by_cases silent : mv = .respond
    · subst silent
      obtain ⟨cue, due⟩ := overdue.exists_cue
      have next := move_respond due
      rcases overdue.follow due with ends | ⟨still, less⟩
      · refine ⟨[.respond], rest, rfl, ?_⟩
        change (c.move .respond).session.phase.waits = false
        rw [next, ends]
      · refine further (next ▸ still) ?_
        rw [next]
        rw [List.countP_cons_of_neg Move.not_sends_respond, List.count_cons_self] at enough
        omega
    · refine further (overdue.move onTime silent) ?_
      obtain ⟨-, inbox⟩ := move_silent (c := c) 0 silent
      rw [List.count_cons_of_ne silent, List.countP_cons] at enough
      omega

end Conversation

end Stepwise

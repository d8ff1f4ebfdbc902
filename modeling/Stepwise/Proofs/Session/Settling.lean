/-
  Stepwise/Proofs/Session/Settling.lean
  =====================================
  **Settling ends, and a client's doings make a punctual schedule.**

  At one moment a session has only so much to do.  Every response either brings it nearer
  to the end of its run or takes a message, and what lies before it can be counted
  (`Phase.duties`): for every instruction that the limit of steps still allows there is the
  step, the answer to a read and the end of a pause.  The patience of a conversation is more
  than that, so nothing is due any more when it has settled (`cue?_settle`).

  Time then passes only while nothing is due, and not over a timer.  Whatever a client does
  is therefore a schedule in which nothing is late (`exists_punctual_actAll`), and what
  holds of those holds of it.
-/
import Stepwise.Proofs.Machine.Limits
import Stepwise.Proofs.Session.Faults
import Stepwise.Proofs.Session.Pacing

namespace Stepwise

open Machine

namespace Machine

variable {m : Machine} {s : State} {t : Transition} {v : Int} {limit : Nat}

/-- A step of a machine that does not wait counts, unless it ends the run. -/
theorem counts_or_halts (running : s.awaiting = false) (h : m.step s = .ok t) :
    t.state.awaiting = false ∧ t.state.isHalted = true ∨
      m.limits.spent? s.steps = none ∧ t.state.steps = s.steps + 1 := by
  rcases step_cases h with
    ⟨hp, rfl⟩ | ⟨i, hp, ⟨hg, rfl⟩ | ⟨instruction, hg, ⟨hw, rfl⟩ | ⟨hw, left, he⟩⟩⟩
  · exact .inl ⟨running, by simp [State.isHalted, hp]⟩
  · exact .inl ⟨rfl, by simp [State.isHalted]⟩
  · rw [running] at hw
    cases hw
  · have counted : t.state.steps = s.steps + 1 :=
      (keeps_steps m _).execute (fun _ _ => trivial) (lt_size_of_get hg) rfl he
    exact .inr ⟨left, counted⟩

theorem steps_of_resume (h : m.resume s v = .ok t) : t.state.steps = s.steps := by
  obtain ⟨i, target, u, -, -, -, -, stored, rfl⟩ := resume_stores h
  exact steps_of_store stored

end Machine

namespace Session

variable {s s' : Session} {now : Instant} {takes : Takes} {cue : Cue} {told : List Event}
  {run : Run} {limit n : Nat}

/-! ### What lies before a session -/

/-- A number of responses that a session comes to at one moment, if it gets no message. -/
def Phase.duties (limit : Nat) : Phase → Nat
  | .idle => 3 * limit + 2
  | .ready run => 3 * (limit - run.state.steps) + 1
  | .pacing run _ => 3 * (limit - run.state.steps) + 2
  | .awaiting run _ => 3 * (limit - run.state.steps) + 3
  | .ended _ => 0

/-- The run of a session goes by the limit of steps, and waits exactly if the session does. -/
structure Regular (limit : Nat) (s : Session) : Prop where
  bound : s.config.limits.maxSteps = some limit
  limits : ∀ run, s.phase.run? = some run → run.machine.limits.maxSteps = some limit
  waits : ∀ run, s.phase.run? = some run → run.state.awaiting = s.phase.waits

theorem duties_pos_of_run (runs : s.phase.run? = some run) : 0 < s.phase.duties limit := by
  cases phase : s.phase with
  | idle | ended outcome =>
    rw [phase] at runs
    cases runs
  | ready run | pacing run since | awaiting run since => exact Nat.succ_pos _

theorem duties_pos_of_listens (listens : s.Listens) : 0 < s.phase.duties limit := by
  cases listens with
  | idle h | pacing run since h | awaiting run since h =>
    rw [h]
    exact Nat.succ_pos _

theorem Concludes.duties_lt {last : Event} (h : Concludes s takes last s' told)
    (pos : 0 < n) : s'.phase.duties limit < n :=
  h.session (P := fun r => r.phase.duties limit < n) fun _ => pos

theorem Delivers.duties_lt {result : Except Fault Transition} {next : State → Session}
    (h : Delivers s takes result next s' told) (pos : 0 < n)
    (goesOn : ∀ t, result = .ok t → (next t.state).phase.duties limit < n) :
    s'.phase.duties limit < n := by
  cases h with
  | told t ok => exact goesOn t ok
  | cut t n ok left short => exact pos
  | failed f error concludes => exact concludes.duties_lt pos

/-- A step leaves less to be done than there was. -/
theorem duties_phaseAfter_step (limits : run.machine.limits.maxSteps = some limit)
    (running : run.state.awaiting = false)
    {t : Transition} (steps : run.machine.step run.state = .ok t) :
    (({ run with state := t.state } : Run).phaseAfter now).duties limit <
      (Phase.ready run).duties limit := by
  unfold Run.phaseAfter
  rcases counts_or_halts running steps with ⟨goesOn, halted⟩ | ⟨left, counted⟩
  · simp [goesOn, halted, Phase.duties]
  · -- a step counts, which is worth three: the read or the pause behind it is worth no more
    have room : run.state.steps < limit := lt_of_spent left limits
    split
    · simp only [Phase.duties, counted]
      omega
    · split
      · exact Nat.succ_pos _
      · simp only [Phase.duties, counted]
        omega

theorem duties_phaseAfter_answer {since : Instant} {m : Text} {t : Transition}
    (answers : run.machine.answer run.state m = .ok t) :
    (({ run with state := t.state } : Run).phaseAfter now).duties limit <
      (Phase.awaiting run since).duties limit := by
  obtain ⟨v, -, resumes⟩ := answer_cases answers
  unfold Run.phaseAfter
  rw [if_neg (by simp [not_awaiting_of_resume resumes])]
  split
  · exact Nat.succ_pos _
  · simp only [Phase.duties, steps_of_resume resumes]
    omega

/-- **Every response leaves less to be done, or takes a message.**  Only steps have to be counted
    for it. -/
theorem Reacts.duties_lt (h : Reacts s now takes cue s' told)
    (regular : cue = .step → s.Regular limit) :
    s'.phase.duties limit < s.phase.duties limit ∨
      (∃ m, cue = .message m) ∧ s'.phase.duties limit ≤ s.phase.duties limit := by
  cases h with
  | directive m d listens directive => exact .inr ⟨⟨m, rfl⟩, Nat.le_refl _⟩
  | hangup listens left => exact .inl (duties_pos_of_listens listens)
  | refused m e idle text refuses concludes =>
    exact .inl (concludes.duties_lt (duties_pos_of_listens (.idle idle)))
  | started m program idle text decodes unseeded =>
    rw [idle]
    exact .inl (Nat.lt_succ_self _)
  | seeded m program idle text decodes seeded delivers =>
    refine .inl (delivers.duties_lt (duties_pos_of_listens (.idle idle)) fun t _ => ?_)
    rw [idle]
    simp only [Phase.duties]
    omega
  | step run ready delivers =>
    have runs : s.phase.run? = some run := by rw [ready]; rfl
    have running : run.state.awaiting = false := by rw [(regular rfl).waits run runs, ready]; rfl
    refine .inl (delivers.duties_lt (duties_pos_of_run runs) fun t steps => ?_)
    rw [ready]
    exact duties_phaseAfter_step ((regular rfl).limits run runs) running steps
  | wake run since pacing =>
    rw [pacing]
    exact .inl (Nat.lt_succ_self _)
  | kept m run since pacing text room => exact .inr ⟨⟨m, rfl⟩, Nat.le_refl _⟩
  | dropped m run since pacing text full => exact .inr ⟨⟨m, rfl⟩, Nat.le_refl _⟩
  | queued m rest run since awaiting inputs delivers =>
    have runs : s.phase.run? = some run := by rw [awaiting]; rfl
    refine .inl (delivers.duties_lt (duties_pos_of_run runs) fun t answers => ?_)
    rw [awaiting]
    exact duties_phaseAfter_answer answers
  | answered m run since awaiting empty text delivers =>
    have runs : s.phase.run? = some run := by rw [awaiting]; rfl
    refine .inl (delivers.duties_lt (duties_pos_of_run runs) fun t answers => ?_)
    rw [awaiting]
    exact duties_phaseAfter_answer answers
  | inputTimeout run since awaiting empty late concludes =>
    exact .inl (concludes.duties_lt (duties_pos_of_listens (.awaiting run since awaiting empty)))
  | runTimeout run runs late concludes => exact .inl (concludes.duties_lt (duties_pos_of_run runs))

@[simp] theorem duties_restarted (s : Session) (now : Instant) :
    (s.restarted now).phase.duties limit = s.phase.duties limit := by
  cases phase : s.phase <;> simp [restarted, phase, Phase.duties]

end Session

namespace Conversation

open Session

variable {c c' : Conversation} {cue : Cue} {limit fuel ms turns : Nat}

/-! ### Settling -/

/-- A number of responses after which nothing is due. -/
def pending (limit : Nat) (c : Conversation) : Nat :=
  c.session.phase.duties limit + c.inbox.length

theorem length_inbox_post_le (c : Conversation) (m : Text)
    (short : c.inbox.length ≤ linkCapacity) : (c.post m).1.inbox.length ≤ linkCapacity := by
  simp only [post]
  split
  · exact short
  · split
    · exact short
    · split
      · exact short
      · rename_i room
        rw [List.length_append]
        exact Nat.lt_of_not_le room

theorem length_inbox_follow_le (c : Conversation) (cue : Cue) :
    (c.follow cue).inbox.length ≤ c.inbox.length := by
  cases cue with
  | message m =>
    change c.inbox.tail.length ≤ _
    simp
  | _ => exact Nat.le_refl _

theorem length_inbox_follow_lt {m : Text} (due : c.cue? = some (.message m)) :
    (c.follow (.message m)).inbox.length < c.inbox.length := by
  obtain ⟨rest, link⟩ := History.cue_message (h := { talk := c }) due
  have link : c.inbox = m :: rest := link
  change c.inbox.tail.length < c.inbox.length
  simp [link]

theorem pending_follow (regular : cue = .step → c.session.Regular limit)
    (due : c.cue? = some cue) :
    (c.follow cue).pending limit < c.pending limit := by
  rcases (reacts_of_cue due).duties_lt regular with less | ⟨⟨m, rfl⟩, le⟩
  · exact Nat.add_lt_add_of_lt_of_le less (length_inbox_follow_le c cue)
  · exact Nat.add_lt_add_of_le_of_lt le (length_inbox_follow_lt due)

/-- Whatever a conversation comes to, its session is regular. -/
def Steady (limit : Nat) (c : Conversation) : Prop :=
  ∀ c', c.Reaches c' → c'.session.Regular limit

theorem Steady.reaches (steady : c.Steady limit) (reaches : c.Reaches c') : c'.Steady limit :=
  fun _ further => steady _ (reaches.trans further)

theorem Steady.regular (steady : c.Steady limit) : c.session.Regular limit := steady c (.refl c)

theorem steady_opened (peer : Text) (config : Config) (seed : Int)
    (bound : config.limits.maxSteps = some limit) : (opened peer config seed).Steady limit := by
  rintro _ ⟨schedule, rfl⟩
  have stands := History.stands_of peer config seed schedule
  have settings := History.config_of peer config seed schedule
  rw [← History.talk_of]
  refine ⟨settings.symm ▸ bound, ?_, ?_⟩
  · intro run runs
    obtain ⟨source, program, ds, r⟩ := stands.of_run runs
    rw [r.machine]
    exact bound
  · intro run runs
    obtain ⟨source, program, ds, r⟩ := stands.of_run runs
    exact r.waits

/-- Settling ends if every response counts. -/
theorem cue?_settleWithin (limit : Nat) {P : Conversation → Prop}
    (follow : ∀ c cue, P c → c.cue? = some cue →
      P (c.follow cue) ∧ (c.follow cue).pending limit < c.pending limit)
    (start : P c) (enough : c.pending limit ≤ fuel) :
    P (settleWithin fuel c) ∧ (settleWithin fuel c).cue? = none := by
  induction fuel generalizing c with
  | zero =>
    cases due : c.cue? with
    | none => exact ⟨start, due⟩
    | some cue =>
      obtain ⟨-, less⟩ := follow c cue start due
      exact absurd (Nat.lt_of_lt_of_le less enough) (Nat.not_lt_zero _)
  | succ fuel ih =>
    simp only [settleWithin]
    cases due : c.cue? with
    | none => exact ⟨start, due⟩
    | some cue =>
      obtain ⟨next, less⟩ := follow c cue start due
      exact ih next (Nat.le_of_lt_succ (Nat.lt_of_lt_of_le less enough))

theorem duties_le (limit : Nat) (phase : Phase) : phase.duties limit ≤ 3 * limit + 3 := by
  cases phase <;> simp only [Phase.duties] <;> omega

/-- **Settling ends.**  If the limit of steps is a number, nothing is due any more afterwards. -/
theorem cue?_settle (steady : c.Steady limit) : c.settle.cue? = none := by
  refine (cue?_settleWithin limit (P := fun c => c.Steady limit) ?_ steady ?_).2
  · intro c cue steady due
    exact ⟨steady.reaches (.follow due), pending_follow (fun _ => steady.regular) due⟩
  · have duties := duties_le limit c.session.phase
    simp only [pending, patience, steady.regular.bound]
    omega

/-! ### Whatever a client does is in time -/

/-- A punctual schedule leads from one conversation to another. -/
def ReachesInTime (c c' : Conversation) : Prop :=
  ∃ schedule, c.Punctual schedule ∧ c.moves schedule = c'

theorem ReachesInTime.refl (c : Conversation) : c.ReachesInTime c := ⟨[], trivial, rfl⟩

theorem ReachesInTime.trans {c₁ c₂ c₃ : Conversation} (h : c₁.ReachesInTime c₂)
    (h' : c₂.ReachesInTime c₃) : c₁.ReachesInTime c₃ := by
  obtain ⟨first, punctual, rfl⟩ := h
  obtain ⟨second, later, rfl⟩ := h'
  exact ⟨first ++ second, punctual_append_iff.mpr ⟨punctual, later⟩, List.foldl_append⟩

theorem ReachesInTime.move (mv : Move) (onTime : mv.OnTime c) : c.ReachesInTime (c.move mv) :=
  ⟨[mv], ⟨onTime, trivial⟩, rfl⟩

theorem ReachesInTime.reaches (h : c.ReachesInTime c') : c.Reaches c' := by
  obtain ⟨schedule, -, same⟩ := h
  exact ⟨schedule, same⟩

theorem reachesInTime_settleWithin (fuel : Nat) (c : Conversation) :
    c.ReachesInTime (settleWithin fuel c) := by
  induction fuel generalizing c with
  | zero => exact .refl c
  | succ fuel ih =>
    simp only [settleWithin]
    cases due : c.cue? with
    | none => exact .refl c
    | some cue =>
      have first : c.ReachesInTime (c.follow cue) := move_respond due ▸ .move .respond trivial
      exact first.trans (ih _)

theorem settle_in_time (steady : c.Steady limit) :
    c.ReachesInTime c.settle ∧ c.settle.cue? = none :=
  ⟨reachesInTime_settleWithin _ c, cue?_settle steady⟩

theorem instant_lt_alarm {alarm : Instant} (rests : c.cue? = none)
    (halarm : alarm ∈ c.session.alarm?) : c.instant < alarm := by
  unfold alarm? at halarm
  cases rests_of_cue? rests with
  | idle phase | ended outcome phase =>
    rw [phase] at halarm
    cases halarm
  | pacing run since phase empty paused inTime =>
    rw [phase] at halarm
    cases halarm
    exact Nat.lt_min.mpr ⟨paused, inTime⟩
  | awaiting run since phase empty waits inTime =>
    rw [phase] at halarm
    cases halarm
    exact Nat.lt_min.mpr ⟨waits, inTime⟩

/-- The milliseconds that are passed over, and the one after them, may pass. -/
theorem free_quiet (rests : c.cue? = none) (ms : Nat) : c.Free (c.quiet ms + 1) := by
  refine ⟨rests, fun alarm halarm => ?_⟩
  have later : c.now < Duration.inMillis alarm :=
    Duration.lt_inMillis_iff.mpr (instant_lt_alarm rests halarm)
  have quiet : c.quiet ms ≤ Duration.inMillis alarm - (c.now + 1) := by
    simp only [Conversation.quiet, Option.mem_def.mp halarm]
    exact Nat.min_le_right _ _
  omega

theorem elapseWithin_in_time (steady : c.Steady limit) (rests : c.cue? = none) :
    c.ReachesInTime (elapseWithin turns ms c) ∧ (elapseWithin turns ms c).cue? = none := by
  induction turns generalizing ms c with
  | zero => exact ⟨.refl c, rests⟩
  | succ turns ih =>
    cases ms with
    | zero => exact ⟨.refl c, rests⟩
    | succ ms =>
      simp only [elapseWithin]
      split
      · exact ⟨.refl c, rests⟩
      · -- what is passed over and the millisecond behind it are one move of the clock
        have passes : c.ReachesInTime (c.skip (c.quiet ms + 1)) :=
          .move (.pass _) (free_quiet rests ms)
        have settles := settle_in_time (steady.reaches passes.reaches)
        have ticks : c.ReachesInTime (c.skip (c.quiet ms)).tick := passes.trans settles.1
        obtain ⟨further, rests'⟩ := ih (steady.reaches ticks.reaches) settles.2
        exact ⟨ticks.trans further, rests'⟩

theorem reachesInTime_postAll (messages : List Text) (c : Conversation) :
    c.ReachesInTime (c.postAll messages).1 := by
  induction messages generalizing c with
  | nil => exact .refl c
  | cons message rest ih =>
    have first : c.ReachesInTime (c.post message).1 := .move (.post message) trivial
    exact first.trans (ih _)

theorem act_in_time (steady : c.Steady limit) (rests : c.cue? = none) (action : Action) :
    c.ReachesInTime (c.act action).1 ∧ (c.act action).1.cue? = none := by
  have settled {c' : Conversation} (first : c.ReachesInTime c') :
      c.ReachesInTime c'.settle ∧ c'.settle.cue? = none := by
    obtain ⟨settles, rests'⟩ := settle_in_time (steady.reaches first.reaches)
    exact ⟨first.trans settles, rests'⟩
  cases action with
  | send messages => exact settled (reachesInTime_postAll messages c)
  | sleep ms => exact elapseWithin_in_time steady rests
  | drop => exact settled (.move (.leave 0) trivial)
  | dropAfter events => exact settled (.move (.leave events) trivial)

theorem actAll_in_time (steady : c.Steady limit) (rests : c.cue? = none) (actions : List Action) :
    c.ReachesInTime (c.actAll actions).1 ∧ (c.actAll actions).1.cue? = none := by
  induction actions generalizing c with
  | nil => exact ⟨.refl c, rests⟩
  | cons action rest ih =>
    obtain ⟨first, rests'⟩ := act_in_time steady rests action
    obtain ⟨further, last⟩ := ih (steady.reaches first.reaches) rests'
    exact ⟨first.trans further, last⟩

/-- **Whatever the client of a conversation does, nothing is late**, and nothing is due when it has
    done it. -/
theorem exists_punctual_actAll (steady : c.Steady limit) (actions : List Action) :
    ∃ schedule, c.Punctual schedule ∧ c.moves schedule = (c.settle.actAll actions).1 ∧
      (c.moves schedule).cue? = none := by
  obtain ⟨settles, rests⟩ := settle_in_time steady
  obtain ⟨acts, rests'⟩ := actAll_in_time (steady.reaches settles.reaches) rests actions
  obtain ⟨schedule, punctual, same⟩ := settles.trans acts
  exact ⟨schedule, punctual, same, same ▸ rests'⟩

end Conversation

end Stepwise

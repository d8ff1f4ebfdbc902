/-
  Stepwise/Proofs/Server/Clock.lean
  =================================
  **When a server's clock can hold the moments that its sessions compute.**

  A session adds budgets to moments: the run time to the moment at which a run begins, the time for
  a value to the moment at which a read begins to wait, and its delay to the moment at which a pause
  begins.  A moment is held as a number of whole seconds in 63 bits, and a sum that does not fit in
  there is not computed at all.  The command line accepts seconds up to 2^64, and only the delay is
  held against anything, which is a setting of its own.

  Every sum is at most the present moment and its budget (`Session.Dated`), and a client can have
  each of the three computed as soon as the run time lets a first step be taken.  So the sessions of
  an accepted command line are safe exactly as long as the clock holds the sums of the present
  moment and the budgets (`moments_are_held_iff`); with a run time of 1e19 seconds no source can be
  run at any time (`run_time_is_not_held`).
-/
import Stepwise.Proofs.Server.CommandLine
import Stepwise.Proofs.Server.Seconds
import Stepwise.Proofs.Session.Waking

namespace Stepwise

open Session (Config Run)

/-! ### The clock -/

namespace Clock

/-- The greatest number of whole seconds that a moment can have: 2^63 - 1. -/
def maxSeconds : Nat := 9223372036854775807

/-- The clock can hold the moment. -/
def Holds (i : Instant) : Prop := Duration.wholeSeconds i ≤ maxSeconds

instance (i : Instant) : Decidable (Holds i) := inferInstanceAs (Decidable (_ ≤ _))

theorem Holds.of_le {i j : Instant} (holds : Holds j) (le : i ≤ j) : Holds i :=
  Nat.le_trans (Nat.div_le_div_right le) holds

end Clock

/-! ### Sessions -/

namespace Session

open Machine

variable {s s' : Session} {now now' since : Instant} {takes : Takes} {cue : Cue}
  {told : List Event} {run : Run}

/-- The budgets get a run to its first step: there is time for it, and room for the seed. -/
def Config.Steps (config : Config) : Prop :=
  0 < config.maxRunTime ∧ (config.seedInput = true → 0 < config.limits.maxStack)

/-- What a session has begun it has begun before, and within its budgets. -/
structure Dated (s : Session) (now : Instant) : Prop where
  deadline : ∀ run, s.phase.run? = some run → run.deadline ≤ now + s.config.maxRunTime
  seeded : ∀ run, s.phase.run? = some run → s.config.seedInput = true → 0 < s.config.limits.maxStack
  pacing : ∀ run since, s.phase = .pacing run since → since ≤ now ∧ 0 < s.config.maxRunTime
  awaiting : ∀ run since, s.phase = .awaiting run since → since ≤ now ∧ 0 < s.config.maxRunTime

theorem Dated.later (dated : s.Dated now) (le : now ≤ now') : s.Dated now' where
  deadline run runs := Nat.le_trans (dated.deadline run runs) (Nat.add_le_add_right le _)
  seeded := dated.seeded
  pacing run since h :=
    ⟨Nat.le_trans (dated.pacing run since h).1 le, (dated.pacing run since h).2⟩
  awaiting run since h :=
    ⟨Nat.le_trans (dated.awaiting run since h).1 le, (dated.awaiting run since h).2⟩

theorem Dated.restarted (dated : s.Dated now) : (s.restarted now).Dated now := by
  unfold Session.restarted
  split
  · rename_i run since pacing
    have runs : s.phase.run? = some run := by rw [pacing]; rfl
    refine ⟨?_, ?_, ?_, by simp⟩
    · rintro _ ⟨⟩
      exact dated.deadline run runs
    · rintro _ ⟨⟩
      exact dated.seeded run runs
    · rintro _ _ ⟨⟩
      exact ⟨Nat.le_refl _, (dated.pacing run since pacing).2⟩
  · rename_i run since awaiting
    have runs : s.phase.run? = some run := by rw [awaiting]; rfl
    refine ⟨?_, ?_, by simp, ?_⟩
    · rintro _ ⟨⟩
      exact dated.deadline run runs
    · rintro _ ⟨⟩
      exact dated.seeded run runs
    · rintro _ _ ⟨⟩
      exact ⟨Nat.le_refl _, (dated.awaiting run since awaiting).2⟩
  · exact dated

theorem dated_closed (s : Session) (outcome : Outcome) (now : Instant) :
    (s.closed outcome).Dated now :=
  ⟨by rintro _ ⟨⟩, by rintro _ ⟨⟩, by rintro _ _ ⟨⟩, by rintro _ _ ⟨⟩⟩

theorem dated_ready (deadline : run.deadline ≤ now + s.config.maxRunTime)
    (seeded : s.config.seedInput = true → 0 < s.config.limits.maxStack) :
    Dated { s with phase := .ready run } now := by
  refine ⟨?_, ?_, by rintro _ _ ⟨⟩, by rintro _ _ ⟨⟩⟩
  · rintro _ ⟨⟩
    exact deadline
  · rintro _ ⟨⟩
    exact seeded

/-- What is told of a step or of an answer begins a pause or a wait, if anything. -/
theorem dated_of_delivers {result : Except Fault Transition}
    (delivers : Delivers s takes result (s.settled now run) s' told)
    (deadline : run.deadline ≤ now + s.config.maxRunTime) (steps : s.config.Steps) :
    s'.Dated now := by
  refine delivers.session (P := fun r => r.Dated now) (fun state => ?_)
    fun outcome => dated_closed s outcome now
  refine ⟨?_, fun _ _ => steps.2, ?_, ?_⟩
  · intro run' runs
    obtain rfl := run?_phaseAfter runs
    exact deadline
  · intro run' since pacing
    change Run.phaseAfter _ _ = _ at pacing
    unfold Run.phaseAfter at pacing
    split at pacing
    · cases pacing
    · split at pacing
      · cases pacing
      · cases pacing
        exact ⟨Nat.le_refl _, steps.1⟩
  · intro run' since awaiting
    change Run.phaseAfter _ _ = _ at awaiting
    unfold Run.phaseAfter at awaiting
    split at awaiting
    · cases awaiting
      exact ⟨Nat.le_refl _, steps.1⟩
    · split at awaiting <;> cases awaiting

/-- **What a session makes of a cue keeps it dated.** -/
theorem Reacts.dated (h : Reacts s now takes cue s' told) (dated : s.Dated now)
    (inTime : ∀ run, cue = .step → s.phase = .ready run → now < run.deadline) : s'.Dated now := by
  have concluded {last : Event} (concludes : Concludes s takes last s' told) : s'.Dated now := by
    obtain ⟨outcome, rfl⟩ := concludes.exists_closed
    exact dated_closed s outcome now
  have unchanged {r : Session} (phase : r.phase = s.phase) (config : r.config = s.config) :
      r.Dated now := by
    refine ⟨?_, ?_, ?_, ?_⟩ <;> rw [phase, config]
    · exact dated.deadline
    · exact dated.seeded
    · exact dated.pacing
    · exact dated.awaiting
  cases h with
  | directive m d listens directive => exact unchanged rfl rfl
  | hangup listens left => exact dated_closed s _ now
  | refused m e idle text refuses concludes => exact concluded concludes
  | started m program idle text decodes unseeded =>
    refine dated_ready (Nat.le_refl _) ?_
    rw [unseeded]
    rintro ⟨⟩
  | seeded m program idle text decodes seeded delivers =>
    cases delivers with
    | told t ok =>
      refine dated_ready (Nat.le_refl _) fun _ => ?_
      obtain ⟨pushed, pushes, -⟩ := bind_succeeds_iff.mp ok
      rw [Transition.push] at pushes
      split at pushes
      · cases pushes
      · rename_i room
        exact Nat.not_le.mp room
    | cut t n ok left short => exact dated_closed s _ now
    | failed f error concludes => exact concluded concludes
  | step run ready delivers =>
    have runs : s.phase.run? = some run := by rw [ready]; rfl
    have deadline := dated.deadline run runs
    have before := Nat.lt_of_lt_of_le (inTime run rfl ready) deadline
    exact dated_of_delivers delivers deadline
      ⟨Nat.pos_of_lt_add_right before, dated.seeded run runs⟩
  | wake run since pacing =>
    have runs : s.phase.run? = some run := by rw [pacing]; rfl
    exact dated_ready (dated.deadline run runs) (dated.seeded run runs)
  | kept m run since pacing text room => exact unchanged rfl rfl
  | dropped m run since pacing text full => exact dated
  | queued m rest run since awaiting inputs delivers =>
    have runs : s.phase.run? = some run := by rw [awaiting]; rfl
    exact dated_of_delivers delivers (dated.deadline run runs)
      ⟨(dated.awaiting run since awaiting).2, dated.seeded run runs⟩
  | answered m run since awaiting empty text delivers =>
    have runs : s.phase.run? = some run := by rw [awaiting]; rfl
    exact dated_of_delivers delivers (dated.deadline run runs)
      ⟨(dated.awaiting run since awaiting).2, dated.seeded run runs⟩
  | inputTimeout run since awaiting empty late concludes => exact concluded concludes
  | runTimeout run runs late concludes => exact concluded concludes

/-! ### First steps -/

/-- A run begins with a source that decodes, if there is room for the seed. -/
theorem ready_of_source {m : Text} {program : Program} (idle : s.phase = .idle)
    (text : Inbound.isDirective m = false) (decodes : decode m = .ok program)
    (steps : s.config.Steps) (h : Reacts s now none (.message m) s' told) :
    ∃ state, s' = { s with phase := .ready { s.runOf now program with state } } ∧
      state.pointer = .index 0 ∧ state.awaiting = false ∧ state.steps = 0 := by
  have not_idle {phase : Phase} (same : s.phase = phase) (other : phase ≠ .idle) : False :=
    other (same.symm.trans idle)
  cases h with
  | directive _ d listens directive =>
    rw [text] at directive
    cases directive
  | refused _ e _ _ refuses concludes => cases decodes.symm.trans refuses
  | started _ program' _ _ decodes' unseeded =>
    cases decodes.symm.trans decodes'
    exact ⟨{}, rfl, rfl, rfl, rfl⟩
  | seeded _ program' _ _ decodes' seeded delivers =>
    cases decodes.symm.trans decodes'
    have room : ¬ s.config.limits.maxStack ≤ ([] : List Int).length :=
      Nat.not_le.mpr (steps.2 seeded)
    have pushes : (s.runOf now program).machine.seed {} s.seed =
        .ok ⟨{ stack := [s.seed] }, { stack := some [s.seed], input := some (.consumed s.seed) }⟩ :=
      bind_succeeds_iff.mpr ⟨_, if_neg room, rfl⟩
    cases delivers with
    | told t ok =>
      cases pushes.symm.trans ok
      exact ⟨_, rfl, rfl, rfl, rfl⟩
    | cut t n ok left short => cases left
    | failed f error concludes => cases pushes.symm.trans error
  | kept _ run since pacing => exact (not_idle pacing (by simp)).elim
  | dropped _ run since pacing => exact (not_idle pacing (by simp)).elim
  | answered _ run since awaiting => exact (not_idle awaiting (by simp)).elim

/-- A step that succeeds is told, if the client stays. -/
theorem settled_of_step {t : Transition} (ready : s.phase = .ready run)
    (ok : run.machine.step run.state = .ok t) (h : Reacts s now none .step s' told) :
    s' = s.settled now run t.state := by
  cases h with
  | step run' ready' delivers =>
    cases ready.symm.trans ready'
    cases delivers with
    | told t' ok' =>
      cases ok.symm.trans ok'
      rfl
    | cut t n ok left short => cases left
    | failed f error concludes => cases ok.symm.trans error

end Session

/-! ### Conversations -/

namespace Conversation

open Session

namespace History

variable {h : History} {config : Config} {mv : Move} {cue : Cue}

/-- The session computes a moment. -/
inductive Computes (h : History) : Instant → Prop where
  /-- The end of the run time, when a source has been taken. -/
  | deadline (t : Turn) (listed : t ∈ h.turns) (begins : t.Begins) : Computes h t.deadline
  /-- The end of the pause that it is in. -/
  | wake (run : Run) (since : Instant) (pacing : h.talk.session.phase = .pacing run since) :
      Computes h (since + h.talk.session.delay)
  /-- The end of the time for a value that it waits for. -/
  | timeout (run : Run) (since : Instant) (awaiting : h.talk.session.phase = .awaiting run since)
      (empty : h.talk.session.inputs = []) : Computes h (since + h.talk.session.config.inputTimeout)

/-- All that has begun has begun before, and within the budgets of the settings. -/
structure Dated (h : History) (config : Config) : Prop where
  settings : h.talk.session.config = config
  turns : ∀ t ∈ h.turns, t.before.session.config = config ∧ t.before.now ≤ h.talk.now
  session : h.talk.session.Dated h.talk.instant

theorem Dated.respond (due : h.talk.cue? = some cue) (dated : h.Dated config) :
    (h.respondTo cue).Dated config where
  settings := (config_respondTo due).trans dated.settings
  turns := by
    intro t listed
    rcases mem_turns_respondTo listed with old | rfl
    · exact dated.turns t old
    · exact ⟨dated.settings, Nat.le_refl _⟩
  session := by
    refine (reacts_of_cue due).dated dated.session fun run step ready => ?_
    subst step
    obtain ⟨run', ready', before⟩ := before_deadline_of_step due
    cases ready.symm.trans ready'
    exact before

theorem Dated.move (mv : Move) (dated : h.Dated config) : (h.move mv).Dated config := by
  by_cases responds : mv = .respond
  · subst responds
    rcases respond_cases h with same | ⟨cue, due, next⟩
    · rwa [same]
    · rw [next]
      exact dated.respond due
  · have frame := frame_of_move (h := h) responds
    have now : h.talk.now ≤ (h.move mv).talk.now := now_le_move h.talk mv
    have elapsed : h.talk.session.Dated (h.move mv).talk.instant :=
      dated.session.later (Nat.mul_le_mul_right _ now)
    refine ⟨frame.session.config.trans dated.settings, ?_, ?_⟩
    · rw [frame.turns]
      intro t listed
      exact ⟨(dated.turns t listed).1, Nat.le_trans (dated.turns t listed).2 now⟩
    · cases mv with
      | post message =>
        rcases post_cases h.talk message with ⟨same, -⟩ | posted
        · have session : (h.move (.post message)).talk.session = h.talk.session :=
            congrArg Conversation.session same
          rwa [session]
        · have session : (h.move (.post message)).talk.session = h.talk.session :=
            congrArg (fun p => p.1.session) posted
          rwa [session]
      | pass ms => exact elapsed
      | leave events => exact elapsed
      | resume => exact dated.session.restarted
      | respond => exact absurd rfl responds

theorem dated_of (peer : Text) (config : Config) (seed : Int) (schedule : List Move) :
    (History.of peer config seed schedule).Dated config := by
  have kept (schedule : List Move) {h : History} (dated : h.Dated config) :
      (h.run schedule).Dated config := by
    induction schedule generalizing h with
    | nil => exact dated
    | cons mv rest ih => exact ih (dated.move mv)
  refine kept schedule ⟨rfl, by simp, ?_⟩
  exact ⟨by rintro _ ⟨⟩, by rintro _ ⟨⟩, by rintro _ _ ⟨⟩, by rintro _ _ ⟨⟩⟩

/-! ### Schedules in which a moment is computed -/

end History

variable {c c' : Conversation} {config : Config} {latest : Nat} {m : Text} {program : Program}

/-- The conversation waits for a source at a time of the clock, and the client for nothing. -/
structure Opens (c : Conversation) (config : Config) (latest : Nat) : Prop where
  idle : c.session.phase = .idle
  settings : c.session.config = config
  inputs : c.session.inputs = []
  inbox : c.inbox = []
  stays : c.takes = none
  now : c.now = latest

theorem opens_of_opened (peer : Text) (config : Config) (seed : Int) (latest : Nat) :
    Opens ((opened peer config seed).move (.pass latest)) config latest :=
  ⟨rfl, rfl, rfl, rfl, rfl, Nat.zero_add latest⟩

theorem Opens.post (opens : c.Opens config latest) (m : Text) :
    (c.move (.post m)) = { c with inbox := [m] } ∧ (c.move (.post m)).cue? = some (.message m) := by
  have posted : c.move (.post m) = { c with inbox := [m] } := by
    simp [Conversation.post, gone, Session.Takes.gone, isOver, Session.isOver, Session.outcome?,
      opens.idle, opens.stays, opens.inbox, linkCapacity]
  refine ⟨posted, ?_⟩
  rw [posted]
  simp [Conversation.cue?, Session.cue?, opens.idle, clientCue?]

/-- The pause of the session after a directive that it has taken. -/
theorem Opens.directive {d : Duration} (opens : c.Opens config latest)
    (asks : Inbound.parse m = .ok (.delay d)) :
    Opens ((c.move (.post m)).move .respond) config latest ∧
      ((c.move (.post m)).move .respond).session.delay = min d config.maxDelay := by
  obtain ⟨posted, due⟩ := opens.post m
  have session : ((c.move (.post m)).follow (.message m)).session =
      { c.session with delay := min d config.maxDelay } := by
    rw [posted]
    simp [follow, respond, takeMessage, asks, setDelay, Config.clampDelay, opens.settings]
  rw [move_respond due]
  refine ⟨⟨?_, ?_, ?_, ?_, ?_, ?_⟩, ?_⟩
  · rw [session]
    exact opens.idle
  · rw [session]
    exact opens.settings
  · rw [session]
    exact opens.inputs
  · rw [posted]
    rfl
  · rw [posted]
    simp [follow, opens.stays, Session.Takes.after]
  · rw [posted]
    exact opens.now
  · rw [session]

/-- The run of a source that a client has sent is about to take its first step. -/
structure Ready (c c' : Conversation) (config : Config) (latest : Nat) (program : Program)
    (run : Run) : Prop where
  session : c'.session = { c.session with phase := .ready run }
  now : c'.now = latest
  stays : c'.takes = none
  machine : run.machine = { program, limits := config.limits }
  deadline : run.deadline = Duration.ofMillis latest + config.maxRunTime
  pointer : run.state.pointer = .index 0
  asks : run.state.awaiting = false
  fresh : run.state.steps = 0

theorem Opens.source (opens : c.Opens config latest) (text : Inbound.isDirective m = false)
    (decodes : decode m = .ok program) (steps : config.Steps) :
    ∃ run, Ready c ((c.move (.post m)).move .respond) config latest program run := by
  obtain ⟨posted, due⟩ := opens.post m
  have same : (c.move (.post m)).session = c.session ∧
      (c.move (.post m)).instant = Duration.ofMillis latest ∧
      (c.move (.post m)).takes = none ∧ (c.move (.post m)).now = latest := by
    rw [posted]
    exact ⟨rfl, congrArg Duration.ofMillis opens.now, opens.stays, opens.now⟩
  have reacts : Reacts _ _ (c.move (.post m)).takes _ _ _ := Session.reacts_of_cue due
  rw [move_respond due]
  rw [same.1, same.2.1, same.2.2.1] at reacts
  obtain ⟨state, ready, pointer, asks, fresh⟩ :=
    ready_of_source opens.idle text decodes (opens.settings ▸ steps) reacts
  refine ⟨{ c.session.runOf (Duration.ofMillis latest) program with state }, ?_, same.2.2.2, ?_, ?_,
    ?_, pointer, asks, fresh⟩
  · rw [← ready, follow, same.1, same.2.1, same.2.2.1]
  · rw [follow, same.2.2.1]
    rfl
  · rw [← opens.settings]
    rfl
  · rw [← opens.settings]
    rfl

/-- The first step is taken in time and within the limit, so that it is the instruction that
    decides what becomes of it. -/
theorem Ready.step {run : Run} {instruction : Instruction} {t : Machine.Transition}
    (ready : Ready c c' config latest program run) (inTime : 0 < config.maxRunTime)
    (unspent : config.limits.maxSteps ≠ some 0) (first : program.get? 0 = some instruction)
    (executes : run.machine.execute 0 { state := run.state.counted } instruction = .ok t) :
    (c'.move .respond).now = latest ∧
      (c'.move .respond).session = c.session.settled (Duration.ofMillis latest) run t.state := by
  have phase : c'.session.phase = .ready run := by rw [ready.session]
  have instant : c'.instant = Duration.ofMillis latest := congrArg Duration.ofMillis ready.now
  have early : run.isLate c'.instant = false := by
    rw [Run.isLate, ready.deadline, instant]
    exact decide_eq_false (Nat.not_le.mpr (Nat.lt_add_of_pos_right inTime))
  have due : c'.cue? = some .step := by
    simp [Conversation.cue?, Session.cue?, phase, early]
  have steps : run.machine.step run.state = .ok t := by
    have within : run.machine.limits.spent? run.state.steps = none := by
      rw [ready.machine, ready.fresh, Machine.Limits.spent?, Option.filter_eq_none_iff]
      rintro (_ | limit) limited
      · exact absurd limited unspent
      · simp
    have found : run.machine.program.get? 0 = some instruction := by rw [ready.machine, first]
    simp only [Machine.step, ready.pointer, found, ready.asks, Bool.false_eq_true, if_false, within,
      executes]
  have reacts : Reacts _ _ c'.takes _ _ _ := Session.reacts_of_cue due
  rw [ready.stays] at reacts
  rw [move_respond due, follow, ready.stays, settled_of_step phase steps reacts, instant,
    ready.session]
  exact ⟨ready.now, rfl⟩

namespace History

variable (peer : Text) (config : Config) (seed : Int) (latest : Nat)

/-- A source makes a session compute the end of its run time. -/
theorem computes_deadline :
    let h := of peer config seed [.pass latest, .post "halt".toList, .respond]
    h.talk.now = latest ∧ h.Computes (Duration.ofMillis latest + config.maxRunTime) := by
  let c := (opened peer config seed).move (.pass latest)
  have opens : c.Opens config latest := opens_of_opened peer config seed latest
  obtain ⟨posted, due⟩ := opens.post "halt".toList
  refine ⟨?_, ?_⟩
  · rw [of, talk_run]
    change ((c.move (.post "halt".toList)).move .respond).now = latest
    rw [move_respond due, posted]
    exact opens.now
  · have begins : Turn.Begins ⟨c.move (.post "halt".toList), .message "halt".toList⟩ := by
      rw [posted]
      exact ⟨opens.idle, _, _, rfl, rfl, rfl⟩
    have moment : Turn.deadline ⟨c.move (.post "halt".toList), .message "halt".toList⟩ =
        Duration.ofMillis latest + config.maxRunTime := by
      rw [Turn.deadline, posted, ← opens.now]
      exact congrArg (fun config : Config => _ + config.maxRunTime) opens.settings
    rw [← moment]
    refine .deadline _ ?_ begins
    change _ ∈ responses (c.move (.post "halt".toList)) .respond
    rw [responses, due]
    exact List.mem_singleton_self _

/-- A source that reads makes a session compute the end of the time for a value. -/
theorem computes_timeout (steps : config.Steps) (unspent : config.limits.maxSteps ≠ some 0) :
    ∃ schedule, (of peer config seed schedule).talk.now = latest ∧
      Computes (of peer config seed schedule) (Duration.ofMillis latest + config.inputTimeout) := by
  let c := (opened peer config seed).move (.pass latest)
  have opens : c.Opens config latest := opens_of_opened peer config seed latest
  have decodes : ∃ program, decode "read".toList = .ok program ∧
      program.get? 0 = some (.read .stack) := ⟨_, rfl, rfl⟩
  obtain ⟨program, decodes, first⟩ := decodes
  obtain ⟨run, ready⟩ := opens.source rfl decodes steps
  obtain ⟨now, settled⟩ := ready.step steps.1 unspent first rfl
  let schedule : List Move := [.pass latest, .post "read".toList, .respond, .respond]
  have talk : (of peer config seed schedule).talk =
      ((c.move (.post "read".toList)).move .respond).move .respond := talk_run _ _
  have session := (congrArg Conversation.session talk).trans settled
  refine ⟨schedule, (congrArg Conversation.now talk).trans now, ?_⟩
  have computed := Computes.timeout (h := of peer config seed schedule) _ _
    (by rw [session]; rfl) (by rw [session]; exact opens.inputs)
  rwa [config_of] at computed

/-- A source that goes on makes a session compute the end of the longest pause, if a client can
    ask for that. -/
theorem computes_wake (steps : config.Steps) (unspent : config.limits.maxSteps ≠ some 0)
    (asks : Inbound.parse m = .ok (.delay config.maxDelay)) :
    ∃ schedule, (of peer config seed schedule).talk.now = latest ∧
      Computes (of peer config seed schedule) (Duration.ofMillis latest + config.maxDelay) := by
  let c := (opened peer config seed).move (.pass latest)
  obtain ⟨opens, granted⟩ := (opens_of_opened peer config seed latest).directive asks
  have decodes : ∃ program, decode "mov a 1".toList = .ok program ∧
      program.get? 0 = some (.mov ⟨0⟩ (.imm 1)) := ⟨_, rfl, rfl⟩
  obtain ⟨program, decodes, first⟩ := decodes
  obtain ⟨run, ready⟩ := opens.source rfl decodes steps
  have executes : ∃ t,
      run.machine.execute 0 { state := run.state.counted } (.mov ⟨0⟩ (.imm 1)) = .ok t ∧
      t.state.awaiting = false ∧ t.state.isHalted = false := ⟨_, rfl, ready.asks, rfl⟩
  obtain ⟨t, executes, asksNothing, goesOn⟩ := executes
  obtain ⟨now, settled⟩ := ready.step steps.1 unspent first executes
  let schedule : List Move :=
    [.pass latest, .post m, .respond, .post "mov a 1".toList, .respond, .respond]
  have talk : (of peer config seed schedule).talk =
      ((((c.move (.post m)).move .respond).move (.post "mov a 1".toList)).move .respond).move
        .respond := talk_run _ _
  have session := (congrArg Conversation.session talk).trans settled
  have pacing : (of peer config seed schedule).talk.session.phase =
      .pacing { run with state := t.state } (Duration.ofMillis latest) := by
    rw [session, Session.settled, Run.phaseAfter, if_neg (by simp [asksNothing]),
      if_neg (by simp [goesOn])]
  have paused : (of peer config seed schedule).talk.session.delay = config.maxDelay := by
    rw [session]
    exact granted.trans (Nat.min_self _)
  refine ⟨schedule, (congrArg Conversation.now talk).trans now, ?_⟩
  rw [← paused]
  exact .wake _ _ pacing

end History

end Conversation

/-! ### Command lines -/

namespace Server

namespace Options

open Conversation (History)

variable {o : Options} {arguments : List Text} {environment : Option Text}

/-- A client can ask for the longest pause: the command line has named it, in the words that a
    client may use, or it is the default. -/
theorem exists_directive_of_accepted (accepted : ofArguments arguments environment = .ok o) :
    ∃ m, Inbound.parse m = .ok (.delay o.session.maxDelay) := by
  have asked := asks_maxDelay accepted
  unfold Asks at asked
  split at asked
  · rw [asked]
    exact ⟨"@d 10".toList, by decide +kernel⟩
  · rename_i c last
    obtain ⟨value, -, read⟩ := Option.bind_eq_some_iff.mp asked
    obtain ⟨decimal, spelled, -⟩ := Option.bind_eq_some_iff.mp read
    obtain ⟨begun, plain⟩ := (Decimal.spells_of_parse? spelled).word
    exact ⟨_, Inbound.parse_iff.mpr ⟨value, Inbound.asksFor_append begun plain, read⟩⟩

/-- **When the clock can hold what sessions compute.**  Up to a time on the clock, every moment that
    a session under an accepted command line computes can be held, whatever its client does and
    whenever the session responds, exactly if the clock can hold the sum of that time and the run
    time, and, if the budgets get a run to its first step, the sums of that time and the two others:
    the time for a value and the longest pause. -/
theorem moments_are_held_iff (accepted : ofArguments arguments environment = .ok o) (peer : Text)
    (seed : Int) (latest : Nat) :
    (∀ schedule, (History.of peer o.session seed schedule).talk.now ≤ latest →
      ∀ i, (History.of peer o.session seed schedule).Computes i → Clock.Holds i) ↔
    Clock.Holds (Duration.ofMillis latest + o.session.maxRunTime) ∧
      (o.session.Steps → Clock.Holds (Duration.ofMillis latest + o.session.inputTimeout) ∧
        Clock.Holds (Duration.ofMillis latest + o.session.maxDelay)) := by
  constructor
  · intro held
    have reached {i : Instant}
        (computes : ∃ schedule, (History.of peer o.session seed schedule).talk.now = latest ∧
          (History.of peer o.session seed schedule).Computes i) : Clock.Holds i := by
      obtain ⟨schedule, now, computes⟩ := computes
      exact held schedule (Nat.le_of_eq now) i computes
    refine ⟨reached ⟨_, History.computes_deadline peer o.session seed latest⟩,
      fun steps => ⟨?_, ?_⟩⟩
    · exact reached (History.computes_timeout peer o.session seed latest steps
        (maxSteps_of_accepted accepted))
    · obtain ⟨m, asks⟩ := exists_directive_of_accepted accepted
      exact reached (History.computes_wake peer o.session seed latest steps
        (maxSteps_of_accepted accepted) asks)
  · rintro ⟨runTime, others⟩ schedule now i computes
    have dated := History.dated_of peer o.session seed schedule
    have elapsed {ms : Nat} (le : ms ≤ latest) : Duration.ofMillis ms ≤ Duration.ofMillis latest :=
      Nat.mul_le_mul_right _ le
    have settings := dated.settings
    cases computes with
    | deadline t listed begins =>
      obtain ⟨same, before⟩ := dated.turns t listed
      refine runTime.of_le ?_
      rw [Conversation.Turn.deadline, same]
      exact Nat.add_le_add_right (elapsed (Nat.le_trans before now)) _
    | wake run since pacing =>
      obtain ⟨le, inTime⟩ := dated.session.pacing run since pacing
      have seeded := dated.session.seeded run (by rw [pacing]; rfl)
      rw [settings] at inTime seeded
      exact (others ⟨inTime, seeded⟩).2.of_le
        (Nat.add_le_add (Nat.le_trans le (elapsed now)) (History.delay_le_maxDelay peer _ seed _))
    | timeout run since awaiting empty =>
      obtain ⟨le, inTime⟩ := dated.session.awaiting run since awaiting
      have seeded := dated.session.seeded run (by rw [awaiting]; rfl)
      rw [settings] at inTime seeded ⊢
      exact (others ⟨inTime, seeded⟩).1.of_le
        (Nat.add_le_add_right (Nat.le_trans le (elapsed now)) _)

/-- With the default budgets, sessions are safe for more than thirty thousand years. -/
theorem moments_are_held_by_default :
    ofArguments [] none = .ok {} ∧
      ∀ schedule, (History.of "local#0".toList {} 1 schedule).talk.now ≤ 1000000000000000 →
        ∀ i, (History.of "local#0".toList {} 1 schedule).Computes i → Clock.Holds i := by
  have accepted : ofArguments [] none = .ok {} := rfl
  refine ⟨accepted, (moments_are_held_iff accepted "local#0".toList 1 1000000000000000).mpr ?_⟩
  exact ⟨by decide, fun _ => ⟨by decide, by decide⟩⟩

/-- A command line with a run time of 1e19 seconds is accepted, and no clock can hold the end of the
    run time that a session under it computes when its client sends a source. -/
theorem run_time_is_not_held :
    let o : Options := { session := { maxRunTime := .ofSeconds (10 ^ 19) } }
    let h := History.of "local#0".toList o.session 1 [.pass 0, .post "halt".toList, .respond]
    ofArguments ["--run-timeout".toList, "1e19".toList] none = .ok o ∧
      h.Computes (Duration.ofSeconds (10 ^ 19)) ∧ ¬ Clock.Holds (Duration.ofSeconds (10 ^ 19)) := by
  intro o h
  obtain ⟨-, computes⟩ := History.computes_deadline "local#0".toList o.session 1 0
  have sum : Duration.ofMillis 0 + o.session.maxRunTime = Duration.ofSeconds (10 ^ 19) := by
    rw [Duration.ofMillis, Nat.zero_mul, Nat.zero_add]
  rw [sum] at computes
  exact ⟨by decide +kernel, computes, by decide⟩

end Options

end Server

end Stepwise

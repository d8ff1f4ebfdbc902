/-
  Stepwise/Proofs/Session/Budgets.lean
  ====================================
  **Budgets of time are kept, whatever the client sends.**

  A run is given a deadline when it begins, and no cue moves it.  A wait for a value begins
  when the program asks for it, and no directive begins it anew.  As long as nothing is
  late, the clock therefore never gets past either: no step is taken at the deadline or
  behind it, nothing is told later than the first whole millisecond at or behind it, and a
  wait is over when its own time or that of the run is (`budgets_hold`).

  The step that is due at the deadline is not taken, but a message that comes in that
  millisecond still answers a read: while a session waits for a value, messages come first.
  What is left to do then ends after few responses (`IsLate.over_of_responds`,
  `IsOverdue.ends_of_responds`), so the clock is never kept from going on.
-/
import Stepwise.Proofs.Session.Overdue

namespace Stepwise

open Machine

namespace Conversation

open Session

variable {c : Conversation} {ms : Nat} {run : Run} {since : Instant}

/-! ### Time that may pass -/

theorem Free.running (free : c.Free ms) (running : c.session.phase.run? = some run) :
    c.now + ms ≤ Duration.inMillis run.deadline := by
  obtain ⟨waits, alarms⟩ := free
  cases phase : c.session.phase with
  | idle | ended outcome =>
    rw [phase] at running
    cases running
  | ready run' => exact absurd phase (rests_of_cue? waits).not_ready
  | pacing run' since | awaiting run' since =>
    rw [phase] at running
    cases running
    have alarm := alarms _ (by rw [alarm?, phase]; rfl)
    exact Nat.le_trans alarm (Duration.inMillis_mono (Nat.min_le_right _ _))

theorem Free.awaiting (free : c.Free ms) (awaiting : c.session.phase = .awaiting run since) :
    c.now + ms ≤ Duration.inMillis (since + c.session.config.inputTimeout) := by
  obtain ⟨-, alarms⟩ := free
  have alarm := alarms _ (by rw [alarm?, awaiting]; rfl)
  exact Nat.le_trans alarm (Duration.inMillis_mono (Nat.min_le_left _ _))

/-- The moment at which the run time is up that begins with the turn. -/
def Turn.deadline (t : Turn) : Instant := t.before.instant + t.before.session.config.maxRunTime

def Turn.Begins (t : Turn) : Prop := t.before.session.Begins t.cue

namespace History

variable {h h' : History} {config : Config} {cue : Cue} {t : Turn}

/-! ### The run time -/

/-- Nothing has been late so far. -/
structure Timely (h : History) : Prop where
  config : ∀ t ∈ h.turns, t.before.session.config = h.talk.session.config
  unbegun : h.talk.session.phase = .idle →
    h.talk.received = [] ∧ ∀ t ∈ h.turns, ¬ t.Begins ∧ t.cue ≠ .step
  running : ∀ run, h.talk.session.phase.run? = some run →
    h.talk.now ≤ Duration.inMillis run.deadline
  deadline : ∀ t ∈ h.turns, t.Begins → ∀ run, h.talk.session.phase.run? = some run →
    run.deadline = t.deadline
  steps : ∀ t ∈ h.turns, t.Begins → ∀ u ∈ h.turns, u.cue = .step → u.before.instant < t.deadline
  told : ∀ t ∈ h.turns, t.Begins → ∀ e ∈ h.talk.received, e.1 ≤ Duration.inMillis t.deadline

theorem Timely.elapse {ms : Nat} (elapses : h.Elapses ms h') (free : 0 < ms → h.talk.Free ms)
    (timely : h.Timely) : h'.Timely where
  config := by
    rw [elapses.session, elapses.turns]
    exact timely.config
  unbegun := by
    rw [elapses.session, elapses.received, elapses.turns]
    exact timely.unbegun
  running := by
    intro run running
    rw [elapses.session] at running
    rw [elapses.now]
    rcases Nat.eq_zero_or_pos ms with rfl | later
    · exact timely.running run running
    · exact (free later).running running
  deadline := by
    rw [elapses.session, elapses.turns]
    exact timely.deadline
  steps := by
    rw [elapses.turns]
    exact timely.steps
  told := by
    rw [elapses.turns, elapses.received]
    exact timely.told

theorem exists_run_of_cue (due : h.talk.cue? = some cue) (begun : h.talk.session.phase ≠ .idle) :
    ∃ run, h.talk.session.phase.run? = some run := by
  cases phase : h.talk.session.phase with
  | idle => exact absurd phase begun
  | ready run | pacing run since | awaiting run since => exact ⟨run, rfl⟩
  | ended outcome =>
    simp only [Conversation.cue?, Session.cue?, phase] at due
    cases due

theorem mem_received_respondTo {e : Nat × Event} (he : e ∈ (h.respondTo cue).talk.received) :
    e ∈ h.talk.received ∨ e.1 = h.talk.now := by
  rcases List.mem_append.mp he with new | old
  · rw [List.mem_reverse, List.mem_map] at new
    obtain ⟨event, -, rfl⟩ := new
    exact .inr rfl
  · exact .inl old

theorem now_le_of_begins (t : Turn) : t.before.now ≤ Duration.inMillis t.deadline :=
  Duration.le_inMillis (Nat.le_add_right _ _)

theorem mem_turns_respondTo (ht : t ∈ (h.respondTo cue).turns) :
    t ∈ h.turns ∨ t = ⟨h.talk, cue⟩ := by
  simpa using ht

theorem Timely.begun (timely : h.Timely) (ht : t ∈ h.turns) (begins : t.Begins) :
    h.talk.session.phase ≠ .idle :=
  fun idle => ((timely.unbegun idle).2 t ht).1 begins

theorem Timely.respond (due : h.talk.cue? = some cue) (timely : h.Timely) :
    (h.respondTo cue).Timely where
  config := by
    intro t ht
    rw [config_respondTo due]
    rcases mem_turns_respondTo ht with old | rfl
    · exact timely.config t old
    · rfl
  unbegun := by
    intro idle
    obtain ⟨waits, silent, m, rfl, directive⟩ := (reacts_of_cue due).idle idle
    obtain ⟨untold, turns⟩ := timely.unbegun waits
    constructor
    · have received : (h.respondTo (.message m)).talk.received =
          ((h.talk.session.respond h.talk.instant h.talk.takes (.message m)).told.map
            fun e => (h.talk.now, e)).reverse ++ h.talk.received := rfl
      rw [received, silent, untold]
      rfl
    · intro t ht
      rcases mem_turns_respondTo ht with old | rfl
      · exact turns t old
      · refine ⟨?_, by simp⟩
        rintro ⟨-, m', program, same, text, -⟩
        cases same
        rw [directive] at text
        cases text
  running := by
    intro run' running
    rcases (reacts_of_cue due).deadline running with ⟨run, runs, same⟩ | ⟨-, same⟩
    · rw [same]
      exact timely.running run runs
    · rw [same]
      exact now_le_of_begins ⟨h.talk, cue⟩
  deadline := by
    intro t ht begins run' running
    rcases mem_turns_respondTo ht with old | rfl
    · rcases (reacts_of_cue due).deadline running with ⟨run, runs, same⟩ | ⟨again, -⟩
      · rw [same]
        exact timely.deadline t old begins run runs
      · -- only a session that waits for a source takes one, and this one has had its own
        exact absurd again.1 (timely.begun old begins)
    · rcases (reacts_of_cue due).deadline running with ⟨run, runs, -⟩ | ⟨-, same⟩
      · have idle : h.talk.session.phase = .idle := begins.1
        rw [idle] at runs
        cases runs
      · exact same
  steps := by
    intro t ht begins u hu step
    rcases mem_turns_respondTo ht with old | rfl
    · rcases mem_turns_respondTo hu with before | rfl
      · exact timely.steps t old begins u before step
      · obtain rfl : cue = .step := step
        obtain ⟨run, ready, inTime⟩ := before_deadline_of_step due
        have runs : h.talk.session.phase.run? = some run := by rw [ready]; rfl
        exact timely.deadline t old begins run runs ▸ inTime
    · rcases mem_turns_respondTo hu with before | rfl
      · exact absurd step ((timely.unbegun begins.1).2 u before).2
      · obtain ⟨-, m, program, same, -⟩ := begins
        cases same.symm.trans step
  told := by
    intro t ht begins e he
    rcases mem_turns_respondTo ht with old | rfl
    · rcases mem_received_respondTo he with told | now
      · exact timely.told t old begins e told
      · -- something is due, so the session has not ended, and time has not passed its timers
        obtain ⟨run, runs⟩ := exists_run_of_cue due (timely.begun old begins)
        rw [now, ← timely.deadline t old begins run runs]
        exact timely.running run runs
    · rcases mem_received_respondTo he with told | now
      · rw [(timely.unbegun begins.1).1] at told
        cases told
      · rw [now]
        exact now_le_of_begins ⟨h.talk, cue⟩

/-! ### The time of a read -/

/-- A wait for a value began with a step of the moment that it is counted from, only directives have
    come since, and it has not been too long. -/
structure Waits (h : History) : Prop where
  begun : ∀ run since, h.talk.session.phase = .awaiting run since →
    ∃ front u back, h.turns = front ++ u :: back ∧ u.cue = .step ∧ u.before.instant = since ∧
      ∀ v ∈ back, v.after.session.phase = .awaiting run since ∧
        ∃ m, v.cue = .message m ∧ Inbound.isDirective m = true
  inTime : ∀ run since, h.talk.session.phase = .awaiting run since →
    h.talk.now ≤ Duration.inMillis (since + h.talk.session.config.inputTimeout)

theorem Waits.elapse {ms : Nat} (elapses : h.Elapses ms h') (free : 0 < ms → h.talk.Free ms)
    (waits : h.Waits) : h'.Waits where
  begun := by
    rw [elapses.session, elapses.turns]
    exact waits.begun
  inTime := by
    intro run since awaiting
    rw [elapses.session] at awaiting ⊢
    rw [elapses.now]
    rcases Nat.eq_zero_or_pos ms with rfl | later
    · exact waits.inTime run since awaiting
    · exact (free later).awaiting awaiting

theorem Waits.respond (due : h.talk.cue? = some cue) (waits : h.Waits) :
    (h.respondTo cue).Waits := by
  have reacts := reacts_of_cue due
  constructor
  · intro run since awaiting
    rcases reacts.awaiting awaiting with ⟨rfl, rfl⟩ | ⟨before, m, rfl, directive⟩
    · exact ⟨h.turns, ⟨h.talk, .step⟩, [], rfl, rfl, rfl, by simp⟩
    · obtain ⟨front, u, back, turns, step, moment, directives⟩ := waits.begun run since before
      refine ⟨front, u, back ++ [⟨h.talk, .message m⟩], ?_, step, moment, ?_⟩
      · simp [turns]
      · exact List.forall_mem_append.mpr
          ⟨directives, List.forall_mem_singleton.mpr ⟨awaiting, m, rfl, directive⟩⟩
  · intro run since awaiting
    rw [config_respondTo due]
    rcases reacts.awaiting awaiting with ⟨rfl, rfl⟩ | ⟨before, -⟩
    · exact Duration.le_inMillis (Nat.le_add_right _ _)
    · exact waits.inTime run since before

/-! ### Punctual sessions -/

variable {peer : Text} {seed : Int} {schedule : List Move}

theorem timely_of (punctual : (opened peer config seed).Punctual schedule) :
    (History.of peer config seed schedule).Timely := by
  refine punctual_induction (fun _ _ _ elapses free timely => timely.elapse elapses free)
    (fun _ _ due timely => timely.respond due) ?_ punctual
  refine ⟨by simp, fun _ => ⟨rfl, by simp⟩, ?_, by simp, by simp, by simp⟩
  intro run running
  cases running

theorem waits_of (punctual : (opened peer config seed).Punctual schedule) :
    (History.of peer config seed schedule).Waits := by
  refine punctual_induction (fun _ _ _ elapses free waits => waits.elapse elapses free)
    (fun _ _ due waits => waits.respond due) ?_ punctual
  refine ⟨?_, ?_⟩
  · intro run since awaiting
    cases awaiting
  · intro run since awaiting
    cases awaiting

/-- Once a run has begun, the session is over, or the run goes on with its deadline. -/
theorem Timely.over_or_running (timely : h.Timely) (ht : t ∈ h.turns) (begins : t.Begins) :
    h.talk.isOver = true ∨
      ∃ run, h.talk.session.phase.run? = some run ∧ run.deadline = t.deadline := by
  have goesOn {run : Run} (runs : h.talk.session.phase.run? = some run) :
      ∃ run, h.talk.session.phase.run? = some run ∧ run.deadline = t.deadline :=
    ⟨run, runs, timely.deadline t ht begins run runs⟩
  cases phase : h.talk.session.phase with
  | idle => exact absurd begins ((timely.unbegun phase).2 t ht).1
  | ready run | pacing run since | awaiting run since =>
    rw [phase] at goesOn
    exact .inr (goesOn rfl)
  | ended outcome => exact .inl (by simp [Conversation.isOver, Session.isOver, outcome?, phase])

/-- What lies behind the deadline of a run is late. -/
theorem Timely.isLate (timely : h.Timely) (ht : t ∈ h.turns) (begins : t.Begins)
    (late : Duration.inMillis t.deadline ≤ h.talk.now) : h.talk.IsLate where
  begun := timely.begun ht begins
  late := by
    intro run runs
    rw [timely.deadline t ht begins run runs]
    exact Duration.inMillis_le_iff.mp late

theorem length_inbox_of (peer : Text) (config : Config) (seed : Int) (schedule : List Move) :
    (History.of peer config seed schedule).talk.inbox.length ≤ linkCapacity := by
  rw [talk_of]
  exact length_inbox_moves_le schedule (Nat.zero_le _)

/-- **Budgets of time are kept.**  A session of which nothing is late takes a source at some
    moment.  No step is taken at the deadline of the run or behind it.  Nothing is told later than
    the first whole millisecond at or behind the deadline, and when the session has responded in
    that millisecond, it is over: settling ends it, and so do three responses and one for each
    message that is on the link or comes onto it, whatever is done between them and whether the
    number of steps is limited or not.  A wait for a value began with a step, only directives have
    come since, and it lasts no longer than to the first whole millisecond at which its own time
    or that of the run is up: in that millisecond it ends with one response more than there are
    messages.  Where the number of steps is limited, nothing is late whatever the client does. -/
theorem budgets_hold (peer : Text) (config : Config) (seed : Int) (schedule : List Move) (t : Turn)
    (punctual : (opened peer config seed).Punctual schedule)
    (ht : t ∈ (History.of peer config seed schedule).turns) (begins : t.Begins) :
    let h := History.of peer config seed schedule
    let deadline := t.before.instant + config.maxRunTime
    (∀ u ∈ h.turns, u.cue = .step → u.before.instant < deadline) ∧
      (∀ e ∈ h.talk.received, e.1 ≤ Duration.inMillis deadline) ∧
      (Duration.inMillis deadline ≤ h.talk.now → h.talk.cue? = none → h.talk.isOver = true) ∧
      (Duration.inMillis deadline < h.talk.now → h.talk.isOver = true) ∧
      (Duration.inMillis deadline ≤ h.talk.now →
        h.talk.settle.isOver = true ∧
          ∀ more : List Move,
            h.talk.inbox.length + 3 + more.countP Move.sends ≤ more.count .respond →
              (h.run more).talk.isOver = true) ∧
      (∀ run since, h.talk.session.phase = .awaiting run since →
        let last := min (since + config.inputTimeout) deadline
        h.talk.now ≤ Duration.inMillis last ∧
          (h.talk.cue? = none → h.talk.now < Duration.inMillis last) ∧
          (Duration.inMillis last ≤ h.talk.now →
            ∀ more : List Move, h.talk.Punctual more →
              h.talk.inbox.length + more.countP Move.sends < more.count .respond →
                ∃ front back, more = front ++ back ∧
                  (h.run front).talk.session.phase.waits = false) ∧
          ∃ front u back, h.turns = front ++ u :: back ∧ u.cue = .step ∧
            u.before.instant = since ∧
            ∀ v ∈ back, v.after.session.phase = .awaiting run since ∧
              ∃ m, v.cue = .message m ∧ Inbound.isDirective m = true) ∧
      ∀ limit, config.limits.maxSteps = some limit → ∀ actions : List Action,
        ∃ more, h.talk.Punctual more ∧ (h.run more).talk = (h.talk.settle.actAll actions).1 ∧
          (h.run more).talk.cue? = none := by
  intro h deadline
  have timely : h.Timely := timely_of punctual
  have waits : h.Waits := waits_of punctual
  have settings : h.talk.session.config = config := config_of peer config seed schedule
  have same : t.deadline = deadline := by
    rw [Turn.deadline, timely.config t ht, settings]
  refine ⟨?_, ?_, ?_, ?_, ?_, ?_, ?_⟩
  · intro u hu step
    exact same ▸ timely.steps t ht begins u hu step
  · intro e he
    exact same ▸ timely.told t ht begins e he
  · intro late free
    exact (timely.isLate ht begins (same ▸ late)).over_of_rests free
  · intro late
    refine (timely.over_or_running ht begins).resolve_right ?_
    rintro ⟨run, runs, ends⟩
    have inTime := timely.running run runs
    rw [ends, same] at inTime
    exact Nat.not_le_of_lt late inTime
  · intro late
    have late : h.talk.IsLate := timely.isLate ht begins (same ▸ late)
    refine ⟨late.over_settle (length_inbox_of peer config seed schedule), ?_⟩
    intro more enough
    rw [talk_run]
    apply late.over_of_responds
    exact Nat.le_trans (Nat.add_le_add_right (pending_zero_le h.talk) _) enough
  · intro run since awaiting last
    have runs : h.talk.session.phase.run? = some run := by rw [awaiting]; rfl
    have ends : run.deadline = deadline := same ▸ timely.deadline t ht begins run runs
    refine ⟨?_, ?_, ?_, waits.begun run since awaiting⟩
    · refine Duration.le_inMillis_min ?_ ?_
      · exact settings ▸ waits.inTime run since awaiting
      · exact ends ▸ timely.running run runs
    · intro free
      refine Nat.lt_of_succ_le (Duration.le_inMillis_min ?_ ?_)
      · exact Duration.lt_inMillis_iff.mpr (settings ▸ (rests_of_cue? free).before_timeout awaiting)
      · exact Duration.lt_inMillis_iff.mpr (ends ▸ (rests_of_cue? free).before_deadline runs)
    · intro late more punctual enough
      have overdue : h.talk.IsOverdue run since := by
        refine ⟨awaiting, ?_⟩
        rw [settings, ends]
        exact Duration.inMillis_le_iff.mp late
      obtain ⟨front, back, parts, ended⟩ := overdue.ends_of_responds punctual enough
      exact ⟨front, back, parts, by rw [talk_run, ended]⟩
  · intro limit bound actions
    have steady : h.talk.Steady limit := by
      refine (steady_opened peer config seed bound).reaches ⟨schedule, ?_⟩
      exact (talk_of peer config seed schedule).symm
    obtain ⟨more, punctual, acts, rests⟩ := exists_punctual_actAll steady actions
    exact ⟨more, punctual, by rw [talk_run, acts], by rw [talk_run, rests]⟩

/-- The run begins after three milliseconds and may take two and a half.  A read waits when the time
    of the run is up, although directives, one of them unknown, keep coming; one more comes just
    then, and the next response but one ends the wait and the session. -/
theorem budgets_hold_deadline_in_read :
    let config : Config := { delay := .ofMillis 1, maxRunTime := 2500000 }
    let source := "push 1\nread".toList
    let schedule : List Move :=
      [.pass 3, .post source, .respond, .respond, .pass 1, .respond, .respond,
        .post "@d 0.5".toList, .post "@what".toList, .respond, .respond, .pass 1,
        .post "@d".toList, .respond, .pass 1]
    let h := History.of [] config 0 schedule
    let deadline := Duration.ofMillis 3 + 2500000
    let last : List Move := [.post "@d 9".toList, .respond, .respond]
    let more : List Move := last ++ [.respond, .respond]
    h.talk.session.phase.waits = true ∧ h.talk.now = 6 ∧
      (∀ u ∈ h.turns, u.cue = .step → u.before.instant < deadline) ∧
      (∀ e ∈ h.talk.received, e.1 ≤ 6) ∧ h.talk.settle.isOver = true ∧
      (∃ front back, last = front ++ back ∧ (h.run front).talk.session.phase.waits = false) ∧
      (h.run more).talk.isOver = true ∧
      (h.run last).told.getLast? = some (.failed (.exceeded (.runTime 2500000))) := by
  intro config source schedule h deadline last more
  obtain ⟨whole, same⟩ : ∃ whole, whole = schedule := ⟨_, rfl⟩
  have punctual : (opened [] config 0).Punctual whole := by
    rw [same]
    decide +kernel
  obtain ⟨begun, here⟩ : ∃ t : Turn,
      t = ⟨(opened [] config 0).moves [.pass 3, .post source], .message source⟩ := ⟨_, rfl⟩
  have member : begun ∈ (History.of [] config 0 whole).turns := by
    rw [same, here]
    decide +kernel
  have begins : begun.Begins := by
    rw [here]
    exact ⟨by rfl, source, _, rfl, by rfl, by rfl⟩
  have start : begun.before.instant + config.maxRunTime = deadline := by
    rw [here]
    decide +kernel
  have up : Duration.inMillis deadline = 6 := by decide +kernel
  have kept := budgets_hold [] config 0 whole begun punctual member begins
  simp only [start, up] at kept
  obtain ⟨steps, told, -, -, ends, waiting, -⟩ := kept
  rw [same] at steps told ends waiting
  have waits : h.talk.session.phase.waits = true := by decide +kernel
  have now : h.talk.now = 6 := by decide +kernel
  obtain ⟨settles, ends⟩ := ends (Nat.le_of_eq now.symm)
  obtain ⟨run, since, awaiting⟩ := exists_awaiting waits
  obtain ⟨-, -, ended, -⟩ := waiting run since awaiting
  have late : Duration.inMillis (min (since + config.inputTimeout) deadline) ≤ h.talk.now :=
    Nat.le_trans (Duration.inMillis_mono (Nat.min_le_right _ _)) (Nat.le_of_eq (up.trans now.symm))
  have inTime : h.talk.Punctual last := by decide +kernel
  have few : h.talk.inbox.length + last.countP Move.sends < last.count .respond := by
    decide +kernel
  have enough : h.talk.inbox.length + 3 + more.countP Move.sends ≤ more.count .respond := by
    decide +kernel
  have word : (h.run last).told.getLast? = some (.failed (.exceeded (.runTime 2500000))) := by
    decide +kernel
  exact ⟨waits, now, steps, told, settles, ended late last inTime few, ends more enough, word⟩

end History

end Conversation

end Stepwise

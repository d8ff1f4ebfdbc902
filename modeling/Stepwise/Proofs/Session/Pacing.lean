/-
  Stepwise/Proofs/Session/Pacing.lean
  ===================================
  **What a pause hears.**

  In a pause the messages on the link are taken one after the other, and each directive
  moves the end of the pause: it lasts as long as the latest one says, from its beginning.
  So a message is taken if the pause is not over when its turn comes, and the step that
  follows comes no earlier than the directives taken in the pause want it
  (`step_follows_pause`).

  When the pause is over, the step comes first, whatever is waiting: a client that sends
  without end cannot hold it back.  A pause of length zero is over as it begins, and hears
  nothing.  A session whose delay is zero therefore passes over every directive until it
  waits for a value (`directives_passed_over`).
-/
import Stepwise.Proofs.Session.Punctual

namespace Stepwise

namespace Session

variable {s : Session} {now since : Instant} {takes : Takes} {cue : Cue} {inbox : List Text}
  {run : Run} {m : Text}

/-! ### Directives -/

/-- The delay that a session is left with by a message, from the one that it has. -/
def Config.delayAfter (config : Config) (delay : Duration) (m : Text) : Duration :=
  match Inbound.parse m with
  | .ok (.delay d) => config.clampDelay d
  | _ => delay

def Config.delayAfterAll (config : Config) (delay : Duration) (messages : List Text) : Duration :=
  messages.foldl config.delayAfter delay

theorem delayAfter_of_directive {d : Duration} (config : Config) (delay : Duration)
    (parses : Inbound.parse m = .ok (.delay d)) :
    config.delayAfter delay m = config.clampDelay d := by
  simp [Config.delayAfter, parses]

theorem delayAfter_of_other (config : Config) (delay : Duration)
    (other : ∀ d, Inbound.parse m ≠ .ok (.delay d)) : config.delayAfter delay m = delay := by
  unfold Config.delayAfter
  split
  · rename_i d parses
    exact absurd parses (other d)
  · rfl

@[simp] theorem delayAfterAll_append (config : Config) (delay : Duration) (front back : List Text) :
    config.delayAfterAll delay (front ++ back) =
      config.delayAfterAll (config.delayAfterAll delay front) back :=
  List.foldl_append

theorem delayAfterAll_of_others (config : Config) (delay : Duration) {messages : List Text}
    (others : ∀ m ∈ messages, ∀ d, Inbound.parse m ≠ .ok (.delay d)) :
    config.delayAfterAll delay messages = delay := by
  induction messages generalizing delay with
  | nil => rfl
  | cons m rest ih =>
    obtain ⟨first, rest⟩ := List.forall_mem_cons.mp others
    exact (ih _ rest).trans (delayAfter_of_other config delay first)

/-- The latest directive decides. -/
theorem delayAfterAll_of_latest (config : Config) (delay : Duration) (front : List Text)
    {back : List Text} {d : Duration} (parses : Inbound.parse m = .ok (.delay d))
    (latest : ∀ b ∈ back, ∀ d, Inbound.parse b ≠ .ok (.delay d)) :
    config.delayAfterAll delay (front ++ m :: back) = config.clampDelay d := by
  rw [delayAfterAll_append]
  exact (delayAfterAll_of_others _ _ latest).trans (delayAfter_of_directive _ _ parses)

theorem takeMessage_in_pause (pacing : s.phase = .pacing run since) :
    (s.takeMessage now takes m).session.phase = .pacing run since ∧
      (s.takeMessage now takes m).session.delay = s.config.delayAfter s.delay m := by
  unfold takeMessage Config.delayAfter
  cases Inbound.parse m with
  | error e => exact ⟨pacing, rfl⟩
  | ok inbound =>
    cases inbound with
    | delay d => exact ⟨pacing, rfl⟩
    | text t =>
      simp only [takeText, pacing, enqueue]
      split
      · exact ⟨pacing, rfl⟩
      · exact ⟨rfl, rfl⟩

/-! ### Cues in a pause -/

/-- The moment at which the pause began that the session is in. -/
def pausedSince? (s : Session) : Option Instant :=
  match s.phase with
  | .pacing _ since => some since
  | _ => none

theorem pacing_of_pausedSince (h : s.pausedSince? = some since) :
    ∃ run, s.phase = .pacing run since := by
  unfold pausedSince? at h
  split at h
  · rename_i run since' pacing
    cases h
    exact ⟨run, pacing⟩
  · cases h

/-- In a pause that is not over, the oldest message is taken, or the session ends. -/
theorem pause_cases {gone : Bool} (pacing : s.phase = .pacing run since)
    (due : s.cue? now inbox gone = some cue) :
    cue = .wake ∧ since + s.delay ≤ now ∨
      now < since + s.delay ∧
        (cue = .runTimeout ∨ cue = .hangup ∨ ∃ m rest, inbox = m :: rest ∧ cue = .message m) := by
  simp only [cue?, pacing] at due
  split at due
  · rename_i past
    cases due
    exact .inl ⟨rfl, past⟩
  · rename_i goesOn
    refine .inr ⟨Nat.lt_of_not_le goesOn, ?_⟩
    split at due
    · cases due
      exact .inl rfl
    · rcases clientCue_cases due with ⟨m, rest, link, rfl⟩ | ⟨-, -, rfl⟩
      · exact .inr (.inr ⟨m, rest, link, rfl⟩)
      · exact .inr (.inl rfl)

theorem ready_cases {gone : Bool} (ready : s.phase = .ready run)
    (due : s.cue? now inbox gone = some cue) : cue = .step ∨ cue = .runTimeout := by
  simp only [cue?, ready] at due
  split at due
  · cases due
    exact .inr rfl
  · cases due
    exact .inl rfl

/-- Waking ends the pause, and the step is next. -/
theorem respond_wake (pacing : s.phase = .pacing run since) :
    (s.respond now takes .wake).session = { s with phase := .ready run } := by
  simp only [respond, pacing]

theorem ended_of_runTimeout (s : Session) (now : Instant) (takes : Takes) :
    ∃ outcome, (s.respond now takes .runTimeout).session.phase = .ended outcome := by
  simp only [respond, failLate, fail, endWith]
  split
  · exact ⟨_, rfl⟩
  · exact ⟨_, rfl⟩

end Session

namespace Conversation

open Session

namespace History

variable {h h' start : History} {since : Instant} {cue : Cue} {taken : List Text} {ms : Nat}

/-! ### Finding a turn again -/

theorem turns_run (h : History) (schedule : List Move) : h.turns <+: (h.run schedule).turns := by
  induction schedule generalizing h with
  | nil => exact List.prefix_rfl
  | cons mv rest ih => exact (List.prefix_append _ _).trans (ih (h.move mv))

/-- A turn of a run is taken at some point of it, and the turns before that point are those in
    front of it. -/
theorem exists_of_turn {between rest : List Turn} {t : Turn} (schedule : List Move)
    (turns : (h.run schedule).turns = h.turns ++ between ++ t :: rest) :
    ∃ front back, schedule = front ++ back ∧ (h.run front).turns = h.turns ++ between ∧
      (h.run front).talk = t.before ∧ t.before.cue? = some t.cue := by
  induction schedule generalizing h between with
  | nil => simp [run] at turns
  | cons mv later ih =>
    have turns : ((h.move mv).run later).turns = h.turns ++ between ++ t :: rest := turns
    have pass (same : (h.move mv).turns = h.turns) :
        ∃ front back, mv :: later = front ++ back ∧
          (h.run front).turns = h.turns ++ between ∧ (h.run front).talk = t.before ∧
          t.before.cue? = some t.cue := by
      rw [← same] at turns
      obtain ⟨front, back, rfl, here⟩ := ih turns
      rw [same] at here
      exact ⟨mv :: front, back, rfl, here⟩
    by_cases responds : mv = .respond
    · subst responds
      rcases respond_cases h with same | ⟨cue, due, next⟩
      · exact pass (by rw [same])
      · -- this response is the first of the turns that come
        rw [next] at turns
        have first : [(⟨h.talk, cue⟩ : Turn)] <+: between ++ t :: rest := by
          have extends' := turns_run (h.respondTo cue) later
          rw [turns, List.append_assoc] at extends'
          exact (List.prefix_append_right_inj _).mp extends'
        cases between with
        | nil =>
          obtain ⟨more, same⟩ := first
          cases same
          exact ⟨[], .respond :: later, rfl, (List.append_nil _).symm, rfl, due⟩
        | cons u between =>
          obtain ⟨more, same⟩ := first
          cases same
          have behind : ((h.respondTo cue).run later).turns =
              (h.respondTo cue).turns ++ between ++ t :: rest := by simpa using turns
          obtain ⟨front, back, rfl, turns, at'⟩ := ih behind
          have run : h.run (.respond :: front) = (h.respondTo cue).run front :=
            congrArg (fun h => h.run front) next
          refine ⟨.respond :: front, back, rfl, ?_, ?_⟩
          · rw [run, turns]
            simp
          · rw [run]
            exact at'
    · exact pass (frame_of_move responds).turns

/-! ### From a moment of a pause to the next step -/

variable {run : Run}

/-- Where messages are taken at the moment, the pause is over behind these. -/
def Ends (h : History) (since : Instant) (messages : List Text) : Prop :=
  since + h.talk.session.config.delayAfterAll h.talk.session.delay messages ≤ h.talk.instant

/-- What a pause hears from a moment on: the messages on the link up to the first ones behind which
    it is over, and if it is never over, all of them and what comes later. -/
inductive Hears (h : History) (since : Instant) (taken : List Text) : Prop where
  | upTo (link : taken <+: h.talk.inbox) (past : h.Ends since taken)
      (goesOn : ∀ front, front <+: taken → front ≠ taken → ¬ h.Ends since front)
  | all (link : h.talk.inbox <+: taken)
      (goesOn : ∀ front, front <+: h.talk.inbox → ¬ h.Ends since front)

/-- What has been taken since an earlier moment, and what has become of the delay. -/
structure Since (start h : History) (taken : List Text) : Prop where
  config : h.talk.session.config = start.talk.session.config
  messages : h.taken = start.taken ++ taken
  delay : h.talk.session.delay =
    start.talk.session.config.delayAfterAll start.talk.session.delay taken

/-- How far a session has come since a moment of a pause, if it has not taken a step. -/
inductive Stage (start : History) (since : Instant) (h : History) : Prop where
  /-- The messages that were on the link are being taken. -/
  | listening (run : Run) (taken left more : List Text)
      (pacing : h.talk.session.phase = .pacing run since) (kept : start.Since h taken)
      (link : start.talk.inbox = taken ++ left) (inbox : h.talk.inbox = left ++ more)
      (now : h.talk.now = start.talk.now)
      (goesOn : ∀ front, front <+: taken → front ≠ taken → ¬ start.Ends since front)
  /-- All of them have been taken, and the pause goes on. -/
  | heard (run : Run) (taken : List Text) (pacing : h.talk.session.phase = .pacing run since)
      (kept : start.Since h taken) (link : start.talk.inbox <+: taken)
      (goesOn : ∀ front, front <+: start.talk.inbox → ¬ start.Ends since front)
  | woken (run : Run) (taken : List Text) (ready : h.talk.session.phase = .ready run)
      (kept : start.Since h taken) (hears : start.Hears since taken)
      (past : since + h.talk.session.delay ≤ h.talk.instant)
  | closed (outcome : Outcome) (ended : h.talk.session.phase = .ended outcome)

theorem Since.elapse (kept : start.Since h taken) (elapses : h.Elapses ms h') :
    start.Since h' taken where
  config := by rw [elapses.session, kept.config]
  messages := by rw [History.taken, elapses.turns, ← kept.messages, History.taken]
  delay := by rw [elapses.session, kept.delay]

theorem Since.ends_iff (kept : start.Since h taken) (now : h.talk.now = start.talk.now) :
    start.Ends since taken ↔ since + h.talk.session.delay ≤ h.talk.instant := by
  rw [Ends, kept.delay, instant, instant, now]

theorem Since.respond (kept : start.Since h taken) (due : h.talk.cue? = some cue)
    (same : (h.respondTo cue).talk.session.delay = h.talk.session.delay)
    (silent : Turn.message? ⟨h.talk, cue⟩ = none) : start.Since (h.respondTo cue) taken where
  config := (config_respondTo due).trans kept.config
  messages := by
    rw [taken_respondTo, silent, kept.messages]
    exact List.append_nil _
  delay := same.trans kept.delay

/-- A message that is taken in a pause. -/
theorem Since.message {m : Text} (kept : start.Since h taken)
    (due : h.talk.cue? = some (.message m)) (pacing : h.talk.session.phase = .pacing run since) :
    start.Since (h.respondTo (.message m)) (taken ++ [m]) where
  config := (config_respondTo due).trans kept.config
  messages := by
    rw [taken_respondTo, kept.messages, List.append_assoc]
    rfl
  delay := by
    rw [delayAfterAll_append, ← kept.delay, ← kept.config]
    exact (takeMessage_in_pause pacing).2

/-- A pause that still listens and is not over has not been over behind anything it has heard. -/
theorem Since.goesOn (kept : start.Since h taken) (now : h.talk.now = start.talk.now)
    (inTime : h.talk.instant < since + h.talk.session.delay)
    (goesOn : ∀ front, front <+: taken → front ≠ taken → ¬ start.Ends since front)
    {front : List Text} (hfront : front <+: taken) : ¬ start.Ends since front := by
  by_cases whole : front = taken
  · rw [whole, kept.ends_iff now]
    exact Nat.not_le_of_lt inTime
  · exact goesOn front hfront whole

theorem Stage.elapse (stage : start.Stage since h) (elapses : h.Elapses ms h')
    (free : 0 < ms → h.talk.Free ms) : start.Stage since h' := by
  cases stage with
  | listening run taken left more pacing kept link inbox now goesOn =>
    have pacing' : h'.talk.session.phase = .pacing run since := elapses.session ▸ pacing
    rcases Nat.eq_zero_or_pos ms with rfl | later
    · obtain ⟨new, more'⟩ := elapses.inbox
      refine .listening run taken left (more ++ new) pacing' (kept.elapse elapses) link ?_ ?_ goesOn
      · rw [← more', inbox, List.append_assoc]
      · rw [elapses.now, now, Nat.add_zero]
    · -- time passes only when nothing is left on the link, and before the pause is over
      obtain ⟨inTime, empty⟩ := (rests_of_cue? (free later).1).in_pause pacing
      obtain ⟨rfl, rfl⟩ := List.append_eq_nil_iff.mp (inbox.symm.trans empty)
      rw [List.append_nil] at link
      refine .heard run taken pacing' (kept.elapse elapses) (link ▸ List.prefix_rfl) ?_
      intro front hfront
      exact kept.goesOn now inTime goesOn (link ▸ hfront)
  | heard run taken pacing kept link goesOn =>
    exact .heard run taken (elapses.session ▸ pacing) (kept.elapse elapses) link goesOn
  | woken run taken ready kept hears past =>
    rcases Nat.eq_zero_or_pos ms with rfl | later
    · refine .woken run taken (elapses.session ▸ ready) (kept.elapse elapses) hears ?_
      rw [elapses.session, instant, elapses.now]
      exact past
    · exact absurd ready (rests_of_cue? (free later).1).not_ready
  | closed outcome ended => exact .closed outcome (elapses.session ▸ ended)

/-- What a session makes of a cue in a pause: the messages in front of it have been heard. -/
theorem Stage.respond_in_pause (due : h.talk.cue? = some cue)
    (pacing : h.talk.session.phase = .pacing run since) (kept : start.Since h taken)
    (wakes : since + h.talk.session.delay ≤ h.talk.instant → start.Hears since taken)
    (hears : ∀ m rest, h.talk.inbox = m :: rest → h.talk.instant < since + h.talk.session.delay →
      (h.respondTo (.message m)).talk.session.phase = .pacing run since →
      start.Since (h.respondTo (.message m)) (taken ++ [m]) →
      start.Stage since (h.respondTo (.message m))) : start.Stage since (h.respondTo cue) := by
  rcases pause_cases pacing due with ⟨rfl, past⟩ | ⟨inTime, rfl | rfl | ⟨m, rest, link, rfl⟩⟩
  · have next : (h.respondTo .wake).talk.session = { h.talk.session with phase := .ready run } := by
      simp only [respondTo, follow, Session.respond, pacing]
    refine .woken run taken (by rw [next]) (kept.respond due (by rw [next]) rfl) (wakes past) ?_
    rw [next]
    exact past
  · obtain ⟨outcome, ended⟩ := ended_of_runTimeout h.talk.session h.talk.instant h.talk.takes
    exact .closed outcome ended
  · exact .closed .disconnected rfl
  · exact hears m rest link inTime (takeMessage_in_pause pacing).1 (kept.message due pacing)

theorem Stage.respond (stage : start.Stage since h) (due : h.talk.cue? = some cue)
    (unstepped : cue ≠ .step) : start.Stage since (h.respondTo cue) := by
  cases stage with
  | listening run taken left more pacing kept link inbox now goesOn =>
    refine respond_in_pause due pacing kept ?_ ?_
    · intro past
      exact .upTo ⟨left, link.symm⟩ ((kept.ends_iff now).mpr past) goesOn
    · intro m rest first inTime pacing' kept'
      have goesOn' {front : List Text} (hfront : front <+: taken) : ¬ start.Ends since front :=
        kept.goesOn now inTime goesOn hfront
      cases left with
      | nil =>
        rw [List.append_nil] at link
        refine .heard run (taken ++ [m]) pacing' kept' (link ▸ List.prefix_append _ _) ?_
        intro front hfront
        exact goesOn' (link ▸ hfront)
      | cons m' left =>
        obtain ⟨rfl, behind⟩ := List.cons.inj (first.symm.trans inbox)
        refine .listening run (taken ++ [m]) left more pacing' kept' (by simp [link]) ?_ now ?_
        · change h.talk.inbox.tail = _
          rw [first]
          exact behind
        · intro front hfront part
          exact goesOn' ((List.prefix_concat_iff.mp hfront).resolve_left part)
  | heard run taken pacing kept link goesOn =>
    refine respond_in_pause due pacing kept (fun _ => .all link goesOn) ?_
    intro m rest first inTime pacing' kept'
    exact .heard run (taken ++ [m]) pacing' kept' (link.trans (List.prefix_append _ _)) goesOn
  | woken run taken ready kept hears past =>
    obtain rfl := (ready_cases ready due).resolve_left unstepped
    obtain ⟨outcome, ended⟩ := ended_of_runTimeout h.talk.session h.talk.instant h.talk.takes
    exact .closed outcome ended
  | closed outcome ended =>
    simp only [Conversation.cue?, Session.cue?, ended] at due
    cases due

/-- Until the next step is taken, a session is at one of the stages. -/
theorem stage_of {schedule : List Move} {between : List Turn}
    (pause : start.talk.session.pausedSince? = some since)
    (punctual : start.talk.Punctual schedule)
    (turns : (start.run schedule).turns = start.turns ++ between)
    (unstepped : ∀ t ∈ between, t.cue ≠ .step) : start.Stage since (start.run schedule) := by
  have stages : ∃ between, (start.run schedule).turns = start.turns ++ between ∧
      ((∀ t ∈ between, t.cue ≠ .step) → start.Stage since (start.run schedule)) := by
    refine punctual_induction (P := fun h => ∃ between, h.turns = start.turns ++ between ∧
      ((∀ t ∈ between, t.cue ≠ .step) → start.Stage since h)) ?_ ?_ ?_ punctual
    · rintro h h' ms elapses free ⟨between, turns, stage⟩
      exact ⟨between, elapses.turns.trans turns,
        fun unstepped => (stage unstepped).elapse elapses free⟩
    · rintro h cue due ⟨between, turns, stage⟩
      refine ⟨between ++ [⟨h.talk, cue⟩], by simp [turns], fun unstepped => ?_⟩
      obtain ⟨before, last⟩ := List.forall_mem_append.mp unstepped
      exact (stage before).respond due (last _ (List.mem_singleton_self _))
    · obtain ⟨run, pacing⟩ := pacing_of_pausedSince pause
      refine ⟨[], (List.append_nil _).symm, fun _ => ?_⟩
      refine .listening run [] start.talk.inbox [] pacing ⟨rfl, (List.append_nil _).symm, rfl⟩ rfl
        (List.append_nil _).symm rfl ?_
      intro front empty part
      exact absurd (List.prefix_nil.mp empty) part
  obtain ⟨between', turns', stage⟩ := stages
  obtain rfl := List.append_cancel_left (turns.symm.trans turns')
  exact stage unstepped

/-- A step that is due in a stage ends a pause that has heard what it could. -/
theorem Stage.due (stage : start.Stage since h) (due : h.talk.cue? = some .step) :
    ∃ taken, start.Since h taken ∧ start.Hears since taken ∧
      since + h.talk.session.delay ≤ h.talk.instant := by
  have paused {run : Run} (pacing : h.talk.session.phase = .pacing run since) : False := by
    rcases pause_cases pacing due with ⟨same, -⟩ | ⟨-, same | same | ⟨m, rest, -, same⟩⟩ <;>
      cases same
  cases stage with
  | listening run taken left more pacing kept link inbox now goesOn => exact (paused pacing).elim
  | heard run taken pacing kept link goesOn => exact (paused pacing).elim
  | woken run taken ready kept hears past => exact ⟨taken, kept, hears, past⟩
  | closed outcome ended =>
    simp only [Conversation.cue?, Session.cue?, ended] at due
    cases due

/-- A message on the link is heard if the pause is not over behind any of those in front of it. -/
theorem Hears.message {front back : List Text} {m : Text} (hears : h.Hears since taken)
    (link : h.talk.inbox = front ++ m :: back)
    (goesOn : ∀ part, part <+: front → ¬ h.Ends since part) : front ++ [m] <+: taken := by
  have within : front ++ [m] <+: h.talk.inbox := ⟨back, by simp [link]⟩
  cases hears with
  | upTo link past _ =>
    -- both are beginnings of what is on the link, so one is a beginning of the other
    rcases List.prefix_or_prefix_of_prefix within link with heard | short
    · exact heard
    · rcases List.prefix_concat_iff.mp short with rfl | part
      · exact List.prefix_rfl
      · exact absurd past (goesOn taken part)
  | all link _ => exact within.trans link

/-- Nothing is heard behind messages behind which the pause is over. -/
theorem Hears.within {front : List Text} (hears : h.Hears since taken)
    (link : front <+: h.talk.inbox) (past : h.Ends since front) : taken <+: front := by
  cases hears with
  | upTo link' _ goesOn =>
    rcases List.prefix_or_prefix_of_prefix link' link with heard | short
    · exact heard
    · by_cases whole : front = taken
      · exact whole ▸ List.prefix_rfl
      · exact absurd past (goesOn front short whole)
  | all _ goesOn => exact absurd past (goesOn front link)

/-- **The next step follows the pause as the directives in it have it.**  At any moment of a pause,
    however long it has lasted, let the session go on until it takes the next step.  The step comes
    no earlier than the delay after the beginning of the pause that the latest directive taken
    since has asked for, clamped.  A message that is on the link is taken before the step if the
    pause is not over behind any message in front of it, and is not taken before the step if it is
    over behind those in front of it. -/
theorem step_follows_pause (h : History) (schedule : List Move) (between : List Turn) (next : Turn)
    (rest : List Turn) (since : Instant) (pause : h.talk.session.pausedSince? = some since)
    (punctual : h.talk.Punctual schedule)
    (turns : (h.run schedule).turns = h.turns ++ between ++ next :: rest)
    (step : next.cue = .step) (first : ∀ t ∈ between, t.cue ≠ .step) :
    let config := h.talk.session.config
    let delayAfterAll := config.delayAfterAll h.talk.session.delay
    let taken := between.filterMap Turn.message?
    next.before.session.delay = delayAfterAll taken ∧
      since + delayAfterAll taken ≤ next.before.instant ∧
      (∀ front m back d, taken = front ++ m :: back → Inbound.parse m = .ok (.delay d) →
        (∀ b ∈ back, ∀ d, Inbound.parse b ≠ .ok (.delay d)) →
          next.before.session.delay = config.clampDelay d ∧
            since + config.clampDelay d ≤ next.before.instant) ∧
      (∀ front m back, h.talk.inbox = front ++ m :: back →
        (∀ part, part <+: front → h.talk.instant < since + delayAfterAll part) →
          front ++ [m] <+: taken) ∧
      ∀ front, front <+: h.talk.inbox → since + delayAfterAll front ≤ h.talk.instant →
        taken <+: front := by
  intro config delayAfterAll taken
  obtain ⟨upTo, later, rfl, turns, talk, due⟩ := exists_of_turn schedule turns
  have stage : h.Stage since (h.run upTo) :=
    stage_of pause (punctual_append_iff.mp punctual).1 turns first
  rw [step, ← talk] at due
  obtain ⟨messages, kept, hears, past⟩ := stage.due due
  obtain rfl : taken = messages := by
    have same := kept.messages
    rw [History.taken, turns, List.filterMap_append] at same
    exact List.append_cancel_left same
  have delay : next.before.session.delay = delayAfterAll taken := talk ▸ kept.delay
  rw [talk] at past
  refine ⟨delay, delay ▸ past, ?_, ?_, ?_⟩
  · intro front m back d split parses latest
    have granted : next.before.session.delay = config.clampDelay d := by
      rw [delay, split]
      exact delayAfterAll_of_latest config _ front parses latest
    exact ⟨granted, granted ▸ past⟩
  · intro front m back link goesOn
    exact hears.message link fun part hpart => Nat.not_le_of_lt (goesOn part hpart)
  · intro front link past
    exact hears.within link past

/-- A pause of three milliseconds.  After one of them, a directive asks for two, the next one for
    none at all, and a third one comes behind it: the pause is over before its turn. -/
theorem step_follows_pause_lowered :
    let config : Config := { delay := .ofMillis 3 }
    let messages := ["@d 0.002".toList, "7".toList, "@d 0".toList]
    let h := History.of [] config 0
      ([.post "push 1\npush 2".toList, .respond, .respond, .pass 1] ++
        (messages ++ ["@d 5".toList]).map .post)
    let woken := h.run [.respond, .respond, .respond, .respond]
    let between := woken.turns.drop h.turns.length
    let next : Turn := ⟨woken.talk, .step⟩
    h.talk.session.pausedSince? = some 0 ∧
      (woken.move .respond).turns = h.turns ++ between ++ [next] ∧
      next.before.session.delay = 0 ∧
      messages <+: between.filterMap Turn.message? ∧
      between.filterMap Turn.message? <+: messages := by
  intro config messages h woken between next
  have pause : h.talk.session.pausedSince? = some 0 := by decide +kernel
  have punctual : h.talk.Punctual [.respond, .respond, .respond, .respond, .respond] := by
    decide +kernel
  have turns : (woken.move .respond).turns = h.turns ++ between ++ [next] := by decide +kernel
  have first : ∀ t ∈ between, t.cue ≠ .step := by decide +kernel
  obtain ⟨-, -, latest, heard, notHeard⟩ :=
    step_follows_pause h [.respond, .respond, .respond, .respond, .respond] between next [] 0 pause
      punctual turns rfl first
  have link : h.talk.inbox =
      ["@d 0.002".toList, "7".toList] ++ "@d 0".toList :: ["@d 5".toList] := by decide +kernel
  have all : messages <+: between.filterMap Turn.message? := by
    refine heard ["@d 0.002".toList, "7".toList] "@d 0".toList ["@d 5".toList] link ?_
    intro part hpart
    rcases List.prefix_cons_iff.mp hpart with rfl | ⟨part, rfl, later⟩
    · decide +kernel
    · rcases List.prefix_cons_iff.mp later with rfl | ⟨part, rfl, last⟩
      · decide +kernel
      · obtain rfl := List.prefix_nil.mp last
        decide +kernel
  have only : between.filterMap Turn.message? <+: messages :=
    notHeard messages (by decide +kernel) (by decide +kernel)
  have taken : messages = between.filterMap Turn.message? := all.eq_of_length_le only.length_le
  obtain ⟨granted, -⟩ :=
    latest ["@d 0.002".toList, "7".toList] "@d 0".toList [] 0 taken.symm (by decide +kernel)
      (by simp)
  have zero : h.talk.session.config.clampDelay 0 = 0 := Nat.zero_min _
  exact ⟨pause, turns, granted.trans zero, all, only⟩

/-- **Not every directive in a pause comes before the next step.**  The session takes as long a
    delay as the directive asks for, which is on the link when the pause begins; but its delay is
    zero, and the pause is over. -/
theorem directives_passed_over :
    ¬ ∀ (peer : Text) (config : Config) (seed : Int) (schedule later : List Move)
      (between : List Turn) (next : Turn) (rest : List Turn) (since : Instant) (m : Text)
      (d : Duration),
        let h := History.of peer config seed schedule
        0 < config.maxDelay → (opened peer config seed).Punctual (schedule ++ later) →
          h.talk.session.pausedSince? = some since → h.talk.instant = since →
          h.talk.inbox = [m] → Inbound.parse m = .ok (.delay d) →
          (h.run later).turns = h.turns ++ between ++ next :: rest → next.cue = .step →
          (∀ t ∈ between, t.cue ≠ .step) →
            m ∈ between.filterMap Turn.message? ∧
              since + config.clampDelay d ≤ next.before.instant := by
  intro all
  let source : Move := .post "push 1\npush 2".toList
  let directive : Move := .post "@d 1".toList
  let opened : Conversation := opened [] { delay := 0 } 0
  have heard := all [] { delay := 0 } 0 [source, directive, .respond, .respond] [.respond, .respond]
    [⟨opened.moves [source, directive, .respond, .respond], .wake⟩]
    ⟨opened.moves [source, directive, .respond, .respond, .respond], .step⟩ [] 0 "@d 1".toList
    (.ofSeconds 1) (by decide) (by decide +kernel) (by decide +kernel) (by decide +kernel)
    (by decide +kernel) (by decide +kernel) (by decide +kernel) rfl (by decide +kernel)
  exact absurd heard.1 (by decide +kernel)

end History

end Conversation

end Stepwise

/-
  Stepwise/Proofs/Session/Punctual.lean
  =====================================
  **Schedules in which nothing is late.**

  In a schedule the session may respond whenever it likes, and the clock may pass over its
  timers.  In a punctual one it may not: time passes only when no cue is due, and then no
  further than to the first whole millisecond in which a timer fires, and the client never
  holds the session up.  All that is proved of times is proved of punctual schedules, by one
  induction (`punctual_induction`): what holds at the start, while such time passes, and
  after a response holds of every punctual run.

  Where the machine has a limit of steps, settling ends, and whatever the client of a
  conversation does is punctual (`exists_punctual_actAll`).
-/
import Stepwise.Proofs.Session.History

namespace Stepwise

/-! ### Milliseconds -/

namespace Duration

/-- A whole millisecond is at or after the end of a duration exactly if it is not before the first
    one that is. -/
theorem inMillis_le_iff {d ms : Nat} : inMillis d ≤ ms ↔ d ≤ ofMillis ms := by
  change (d + 999999) / 1000000 ≤ ms ↔ d ≤ ms * 1000000
  omega

theorem lt_inMillis_iff {d ms : Nat} : ms < inMillis d ↔ ofMillis ms < d := by
  rw [← Nat.not_le, inMillis_le_iff]
  exact Nat.not_le

theorem inMillis_mono {d d' : Nat} (h : d ≤ d') : inMillis d ≤ inMillis d' :=
  inMillis_le_iff.mpr (Nat.le_trans h (inMillis_le_iff.mp (Nat.le_refl _)))

theorem le_inMillis {d ms : Nat} (h : ofMillis ms ≤ d) : ms ≤ inMillis d := by
  change ms * 1000000 ≤ d at h
  change ms ≤ (d + 999999) / 1000000
  omega

theorem le_inMillis_min {a b n : Nat} (first : n ≤ inMillis a) (second : n ≤ inMillis b) :
    n ≤ inMillis (min a b) := by
  rcases Nat.le_total a b with le | le
  · rwa [Nat.min_eq_left le]
  · rwa [Nat.min_eq_right le]

end Duration

/-! ### Rest -/

namespace Session

variable {s : Session} {now since : Instant} {inbox : List Text} {gone : Bool} {run : Run}

/-- Nothing is due: no message has come, and no time is up. -/
inductive Rests (s : Session) (now : Instant) (inbox : List Text) : Prop where
  | idle (idle : s.phase = .idle) (empty : inbox = [])
  | pacing (run : Run) (since : Instant) (pacing : s.phase = .pacing run since) (empty : inbox = [])
      (paused : now < since + s.delay) (inTime : now < run.deadline)
  | awaiting (run : Run) (since : Instant) (awaiting : s.phase = .awaiting run since)
      (empty : inbox = []) (waits : now < since + s.config.inputTimeout)
      (inTime : now < run.deadline)
  | ended (outcome : Outcome) (ended : s.phase = .ended outcome)

theorem inbox_eq_nil_of_clientCue? (h : clientCue? inbox gone = none) : inbox = [] := by
  cases inbox with
  | nil => rfl
  | cons m rest => cases h

theorem lt_deadline_of_not_isLate (h : ¬ run.isLate now = true) : now < run.deadline := by
  simpa [Run.isLate] using h

theorem rests_of_cue? (h : s.cue? now inbox gone = none) : s.Rests now inbox := by
  unfold cue? at h
  split at h
  · rename_i idle
    exact .idle idle (inbox_eq_nil_of_clientCue? h)
  · split at h <;> cases h
  · rename_i run since pacing
    split at h
    · cases h
    · rename_i paused
      split at h
      · cases h
      · rename_i inTime
        exact .pacing run since pacing (inbox_eq_nil_of_clientCue? h) (Nat.lt_of_not_le paused)
          (lt_deadline_of_not_isLate inTime)
  · rename_i run since awaiting
    split at h
    · cases h
    · obtain ⟨client, timers⟩ := Option.or_eq_none_iff.mp h
      split at timers
      · cases timers
      · rename_i waits
        split at timers
        · cases timers
        · rename_i inTime
          exact .awaiting run since awaiting (inbox_eq_nil_of_clientCue? client)
            (Nat.lt_of_not_le waits) (lt_deadline_of_not_isLate inTime)
  · rename_i outcome ended
    exact .ended outcome ended

/-- Something is due when the run time is up. -/
theorem Rests.before_deadline (h : s.Rests now inbox) (running : s.phase.run? = some run) :
    now < run.deadline := by
  cases h with
  | idle phase | ended outcome phase =>
    rw [phase] at running
    cases running
  | pacing run' since phase empty paused inTime | awaiting run' since phase empty waits inTime =>
    rw [phase] at running
    cases running
    exact inTime

/-- Something is due when a wait for a value has been too long. -/
theorem Rests.before_timeout (h : s.Rests now inbox) (awaiting : s.phase = .awaiting run since) :
    now < since + s.config.inputTimeout := by
  cases h with
  | idle phase | ended outcome phase | pacing run' since' phase =>
    rw [phase] at awaiting
    cases awaiting
  | awaiting run' since' phase empty waits inTime =>
    rw [phase] at awaiting
    cases awaiting
    exact waits

/-- Something is due when a pause is over, or a message has come. -/
theorem Rests.in_pause (h : s.Rests now inbox) (pacing : s.phase = .pacing run since) :
    now < since + s.delay ∧ inbox = [] := by
  cases h with
  | idle phase | ended outcome phase | awaiting run' since' phase =>
    rw [phase] at pacing
    cases pacing
  | pacing run' since' phase empty paused inTime =>
    rw [phase] at pacing
    cases pacing
    exact ⟨paused, empty⟩

theorem Rests.not_ready (h : s.Rests now inbox) : s.phase ≠ .ready run := by
  intro ready
  cases h with
  | idle phase | ended outcome phase | awaiting run' since' phase | pacing run' since' phase =>
    rw [phase] at ready
    cases ready

/-- No step is due at the deadline or behind it. -/
theorem before_deadline_of_step {gone : Bool} (due : s.cue? now inbox gone = some .step) :
    ∃ run, s.phase = .ready run ∧ now < run.deadline := by
  have client : clientCue? inbox gone ≠ some .step := by
    intro client
    rcases clientCue_cases client with ⟨m, rest, -, same⟩ | ⟨-, -, same⟩
    · cases same
    · cases same
  unfold cue? at due
  split at due
  · exact absurd due client
  · rename_i run ready
    split at due
    · cases due
    · rename_i inTime
      exact ⟨run, ready, by simpa [Run.isLate] using inTime⟩
  · split at due
    · cases due
    · split at due
      · cases due
      · exact absurd due client
  · split at due
    · cases due
    · rcases Option.or_eq_some_iff.mp due with due | ⟨-, due⟩
      · exact absurd due client
      · split at due
        · cases due
        · split at due <;> cases due
  · cases due

end Session

namespace Conversation

/-! ### Punctual schedules -/

/-- So many milliseconds may pass: nothing is due, and no timer fires before the last of them. -/
def Free (c : Conversation) (ms : Nat) : Prop :=
  c.cue? = none ∧ ∀ alarm ∈ c.session.alarm?, c.now + ms ≤ Duration.inMillis alarm

def Move.OnTime (c : Conversation) : Move → Prop
  | .pass ms => c.Free ms
  | .resume => False
  | .post _ | .leave _ | .respond => True

/-- Nothing is late in the schedule. -/
def Punctual (c : Conversation) : List Move → Prop
  | [] => True
  | mv :: rest => mv.OnTime c ∧ Punctual (c.move mv) rest

instance (c : Conversation) (ms : Nat) : Decidable (c.Free ms) :=
  inferInstanceAs (Decidable (_ ∧ _))

instance (c : Conversation) : (mv : Move) → Decidable (mv.OnTime c)
  | .pass ms => inferInstanceAs (Decidable (c.Free ms))
  | .resume => isFalse id
  | .post _ | .leave _ | .respond => isTrue trivial

instance decidablePunctual (c : Conversation) :
    (schedule : List Move) → Decidable (c.Punctual schedule)
  | [] => isTrue trivial
  | mv :: rest =>
    have := decidablePunctual (c.move mv) rest
    inferInstanceAs (Decidable (mv.OnTime c ∧ Punctual (c.move mv) rest))

variable {c : Conversation} {schedule more : List Move}

theorem rests_of_cue? (h : c.cue? = none) : c.session.Rests c.instant c.inbox :=
  Session.rests_of_cue? h

theorem punctual_append_iff :
    c.Punctual (schedule ++ more) ↔ c.Punctual schedule ∧ (c.moves schedule).Punctual more := by
  induction schedule generalizing c with
  | nil => simp [Punctual, moves]
  | cons mv rest ih =>
    simp only [List.cons_append, Punctual, ih, and_assoc]
    rfl

namespace History

/-- Time passes, and messages may come; the session does nothing. -/
structure Elapses (h : History) (ms : Nat) (h' : History) : Prop where
  session : h'.talk.session = h.talk.session
  now : h'.talk.now = h.talk.now + ms
  inbox : h.talk.inbox <+: h'.talk.inbox
  received : h'.talk.received = h.talk.received
  turns : h'.turns = h.turns

variable {h : History}

theorem config_respondTo {cue : Session.Cue} (due : h.talk.cue? = some cue) :
    (h.respondTo cue).talk.session.config = h.talk.session.config :=
  (Session.reacts_of_cue due).settings.config

theorem config_of (peer : Text) (config : Session.Config) (seed : Int) (schedule : List Move) :
    (History.of peer config seed schedule).talk.session.config = config := by
  refine run_induction (P := fun h => h.talk.session.config = config) ?_ ?_ rfl schedule
  · intro h h' frame same
    rw [frame.session.config, same]
  · intro h cue due same
    exact (config_respondTo due).trans same

theorem elapses_of_move {mv : Move} (onTime : mv.OnTime h.talk) (silent : mv ≠ .respond) :
    ∃ ms, h.Elapses ms (h.move mv) ∧ (0 < ms → h.talk.Free ms) := by
  cases mv with
  | post message =>
    refine ⟨0, ?_, fun later => absurd later (Nat.lt_irrefl 0)⟩
    rcases post_cases h.talk message with ⟨same, -⟩ | posted
    · have talk : (h.move (.post message)).talk = h.talk := same
      exact ⟨by rw [talk], by rw [talk]; rfl, talk ▸ List.prefix_rfl, by rw [talk],
        List.append_nil _⟩
    · have talk : (h.move (.post message)).talk =
          { h.talk with inbox := h.talk.inbox ++ [message] } := congrArg Prod.fst posted
      exact ⟨by rw [talk], by rw [talk]; rfl, by rw [talk]; exact List.prefix_append _ _,
        by rw [talk], List.append_nil _⟩
  | pass ms => exact ⟨ms, ⟨rfl, rfl, List.prefix_rfl, rfl, List.append_nil _⟩, fun _ => onTime⟩
  | leave events =>
    exact ⟨0, ⟨rfl, rfl, List.prefix_rfl, rfl, List.append_nil _⟩,
      fun later => absurd later (Nat.lt_irrefl 0)⟩
  | resume => exact onTime.elim
  | respond => exact absurd rfl silent

/-- What holds at the start, and still holds when time has passed that may pass and when the session
    has responded, holds of every punctual run. -/
theorem punctual_induction {P : History → Prop}
    (elapse : ∀ h h' ms, h.Elapses ms h' → (0 < ms → h.talk.Free ms) → P h → P h')
    (respond : ∀ h cue, h.talk.cue? = some cue → P h → P (h.respondTo cue))
    (start : P h) (punctual : h.talk.Punctual schedule) : P (h.run schedule) := by
  induction schedule generalizing h with
  | nil => exact start
  | cons mv rest ih =>
    obtain ⟨onTime, later⟩ := punctual
    refine ih ?_ later
    by_cases silent : mv = .respond
    · subst silent
      rcases respond_cases h with same | ⟨cue, due, next⟩
      · rw [same]
        exact start
      · rw [next]
        exact respond h cue due start
    · obtain ⟨ms, elapses, free⟩ := elapses_of_move onTime silent
      exact elapse h _ ms elapses free start

end History

end Conversation

end Stepwise

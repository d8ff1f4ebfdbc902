/-
  Stepwise/Proofs/Session/Waking.lean
  ===================================
  **How long a pause lasts.**

  A pause is measured from its beginning, not from the latest message.  At every moment a delay is
  in force: the latest directive that has come, clamped, or the delay that the session had when
  the pause began.  The pause is over at the first moment at which the delay in force has passed
  since its beginning (`pause_lasts_as_directed`).  This is the first whole millisecond at or after
  the end of that delay, or the moment at which a directive comes that asks for no more than has
  passed already (`Pause.Reaches.time_cases`).

  Several messages can come in one millisecond, so a moment has two coordinates: how many messages
  have come, and the milliseconds on the clock (`Moment`).  What is carried through a schedule is
  that no moment of the pause but the present one has it over (`Pause.Lasts`).
-/
import Stepwise.Proofs.Session.Budgets
import Stepwise.Proofs.Session.Pacing

namespace Stepwise

open Session

/-- The delay that a message asks for, if it is a directive that asks for one. -/
def Inbound.delay? (m : Text) : Option Duration :=
  match parse m with
  | .ok (.delay d) => some d
  | _ => none

/-! ### Moments -/

/-- The milliseconds have come and so many of the messages, with their times, and no others. -/
structure Moment (arrivals : List (Nat × Text)) (k ms : Nat) : Prop where
  within : k ≤ arrivals.length
  come : ∀ a ∈ arrivals.take k, a.1 ≤ ms
  later : ∀ a ∈ arrivals.drop k, ms ≤ a.1

namespace Moment

variable {arrivals more : List (Nat × Text)} {k ms : Nat}

theorem of_append (moment : Moment (arrivals ++ more) k ms) (within : k ≤ arrivals.length) :
    Moment arrivals k ms where
  within := within
  come := by
    have := moment.come
    rwa [List.take_append_of_le_length within] at this
  later := by
    intro a ha
    apply moment.later a
    rw [List.drop_append_of_le_length within]
    exact List.mem_append_left _ ha

theorem append (moment : Moment arrivals k ms) (later : ∀ a ∈ more, ms ≤ a.1) :
    Moment (arrivals ++ more) k ms where
  within := by
    rw [List.length_append]
    exact Nat.le_add_right_of_le moment.within
  come := by
    rw [List.take_append_of_le_length moment.within]
    exact moment.come
  later := by
    rw [List.drop_append_of_le_length moment.within]
    intro a ha
    rcases List.mem_append.mp ha with ha | ha
    · exact moment.later a ha
    · exact later a ha

theorem le_getElem (moment : Moment arrivals k ms) (left : k < arrivals.length) :
    ms ≤ arrivals[k].1 := by
  apply moment.later
  rw [List.drop_eq_getElem_cons left]
  exact List.mem_cons_self

/-- Moments follow one another. -/
theorem total {j t : Nat} (moment : Moment arrivals k ms) (other : Moment arrivals j t) :
    k ≤ j ∧ ms ≤ t ∨ j ≤ k ∧ t ≤ ms := by
  have ordered {k j ms t : Nat} (before : Moment arrivals k ms) (behind : Moment arrivals j t)
      (lt : k < j) : ms ≤ t := by
    have left : k < arrivals.length := Nat.lt_of_lt_of_le lt behind.within
    have come : arrivals[k] ∈ arrivals.take j :=
      List.mem_take_iff_getElem.mpr ⟨k, by omega, rfl⟩
    exact Nat.le_trans (before.le_getElem left) (behind.come _ come)
  rcases Nat.lt_trichotomy k j with lt | rfl | lt
  · exact .inl ⟨Nat.le_of_lt lt, ordered moment other lt⟩
  · rcases Nat.le_total ms t with le | le
    · exact .inl ⟨Nat.le_refl _, le⟩
    · exact .inr ⟨Nat.le_refl _, le⟩
  · exact .inr ⟨Nat.le_of_lt lt, ordered other moment lt⟩

/-- The millisecond before, if none of the messages has come in this one. -/
theorem back (moment : Moment arrivals k ms) (early : ∀ a ∈ arrivals.take k, a.1 < ms) :
    Moment arrivals k (ms - 1) where
  within := moment.within
  come := by
    intro a ha
    exact Nat.le_sub_one_of_lt (early a ha)
  later := by
    intro a ha
    exact Nat.le_trans (Nat.sub_le _ _) (moment.later a ha)

/-- The same millisecond in front of the last message, if it has come just now. -/
theorem front {m : Text} (moment : Moment arrivals (k + 1) ms)
    (last : arrivals[k]? = some (ms, m)) : Moment arrivals k ms where
  within := Nat.le_of_succ_le moment.within
  come := by
    intro a ha
    exact moment.come a (List.take_subset_take_left _ (Nat.le_succ k) ha)
  later := by
    obtain ⟨within, here⟩ := List.getElem?_eq_some_iff.mp last
    intro a ha
    rw [List.drop_eq_getElem_cons within, here] at ha
    rcases List.mem_cons.mp ha with rfl | behind
    · exact Nat.le_refl _
    · exact moment.later a behind

/-- If a message has come just now, the last one has. -/
theorem exists_last {a : Nat × Text} (moment : Moment arrivals k ms)
    (sorted : arrivals.Pairwise fun a b => a.1 ≤ b.1) (ha : a ∈ arrivals.take k)
    (now : ms ≤ a.1) : ∃ j m, k = j + 1 ∧ arrivals[j]? = some (ms, m) := by
  cases k with
  | zero => cases ha
  | succ j =>
    have within : j < arrivals.length := moment.within
    have last : arrivals[j] ∈ arrivals.take (j + 1) :=
      List.mem_take_iff_getElem.mpr ⟨j, by omega, rfl⟩
    have latest : a.1 ≤ arrivals[j].1 := by
      obtain ⟨i, inside, rfl⟩ := List.mem_take_iff_getElem.mp ha
      rcases Nat.lt_or_eq_of_le (show i ≤ j by omega) with lt | rfl
      · exact List.pairwise_iff_getElem.mp sorted i j (by omega) within lt
      · exact Nat.le_refl _
    have time : arrivals[j].1 = ms := Nat.le_antisymm (moment.come _ last) (Nat.le_trans now latest)
    exact ⟨j, arrivals[j].2, rfl, by rw [List.getElem?_eq_getElem within, ← time]⟩

end Moment

/-- A pause as it begins. -/
structure Pause where
  since : Instant
  config : Config
  delay : Duration

namespace Pause

variable {p : Pause} {arrivals more : List (Nat × Text)} {k j ms t : Nat} {m : Text}

/-- The delay in force behind messages: the latest directive, clamped. -/
def delayBehind (p : Pause) (messages : List Text) : Duration :=
  ((messages.filterMap Inbound.delay?).getLast?).elim p.delay p.config.clampDelay

/-- The delay in force has passed since the beginning of the pause. -/
def IsOver (p : Pause) (arrivals : List (Nat × Text)) (k ms : Nat) : Prop :=
  p.since + p.delayBehind ((arrivals.take k).map Prod.snd) ≤ Duration.ofMillis ms

/-- The pause gets as far as this moment: it is not over at an earlier one. -/
structure Reaches (p : Pause) (arrivals : List (Nat × Text)) (k ms : Nat) : Prop where
  moment : Moment arrivals k ms
  goesOn : ∀ j t, Moment arrivals j t → j ≤ k → t ≤ ms → p.IsOver arrivals j t → j = k ∧ t = ms

theorem delayAfter_eq (config : Config) (delay : Duration) (m : Text) :
    config.delayAfter delay m = (Inbound.delay? m).elim delay config.clampDelay := by
  unfold Config.delayAfter Inbound.delay?
  cases Inbound.parse m with
  | error e => rfl
  | ok inbound => cases inbound <;> rfl

theorem delayBehind_concat (p : Pause) (messages : List Text) (m : Text) :
    p.delayBehind (messages ++ [m]) = p.config.delayAfter (p.delayBehind messages) m := by
  rw [delayAfter_eq]
  unfold delayBehind
  rw [List.filterMap_append, List.filterMap_cons, List.filterMap_nil]
  cases Inbound.delay? m with
  | none => simp
  | some d => simp

/-! ### How far a pause gets -/

theorem isOver_append_iff (within : k ≤ arrivals.length) (more : List (Nat × Text)) :
    p.IsOver (arrivals ++ more) k ms ↔ p.IsOver arrivals k ms := by
  rw [IsOver, IsOver, List.take_append_of_le_length within]

/-- What comes at the moment or later does not matter for how far the pause gets. -/
theorem Reaches.append (reaches : p.Reaches arrivals k ms) (later : ∀ a ∈ more, ms ≤ a.1) :
    p.Reaches (arrivals ++ more) k ms where
  moment := reaches.moment.append later
  goesOn := by
    intro j t moment le le' isOver
    have within : j ≤ arrivals.length := Nat.le_trans le reaches.moment.within
    rw [isOver_append_iff within] at isOver
    exact reaches.goesOn j t (moment.of_append within) le le' isOver

/-- The pause gets as far as the next message if it is not over in front of it. -/
theorem Reaches.take (reaches : p.Reaches arrivals k ms) (inTime : ¬ p.IsOver arrivals k ms)
    (next : arrivals[k]? = some (ms, m)) : p.Reaches arrivals (k + 1) ms where
  moment := by
    obtain ⟨-, come, later⟩ := reaches.moment
    obtain ⟨within, -⟩ := List.getElem?_eq_some_iff.mp next
    refine ⟨within, ?_, ?_⟩
    · rw [List.take_add_one, next]
      intro a ha
      rcases List.mem_append.mp ha with before | last
      · exact come a before
      · obtain rfl : a = (ms, m) := by simpa using last
        exact Nat.le_refl _
    · intro a ha
      exact later a (List.mem_of_mem_drop (List.drop_drop .. ▸ ha))
  goesOn := by
    intro j t moment le le' isOver
    rcases Nat.le_succ_iff.mp le with le | rfl
    · obtain ⟨rfl, rfl⟩ := reaches.goesOn j t moment le le' isOver
      exact absurd isOver inTime
    · refine ⟨rfl, Nat.le_antisymm le' ?_⟩
      exact moment.come (ms, m) (by rw [List.take_add_one, next]; simp)

/-- The pause gets as far as a later millisecond if no message is left to come and it is over in
    none in front of that one. -/
theorem Reaches.wait (reaches : p.Reaches arrivals arrivals.length ms) (le : ms ≤ t)
    (inTime : ∀ t', t' < t → ¬ p.IsOver arrivals arrivals.length t') :
    p.Reaches arrivals arrivals.length t where
  moment := by
    refine ⟨Nat.le_refl _, ?_, by simp⟩
    intro a ha
    exact Nat.le_trans (reaches.moment.come a ha) le
  goesOn := by
    intro j t' moment within le' isOver
    rcases Nat.lt_or_eq_of_le within with left | rfl
    · -- a message is left, which has come by now
      have come := reaches.moment.come arrivals[j] (by simp)
      have early : t' ≤ ms := Nat.le_trans (moment.le_getElem left) come
      obtain ⟨same, -⟩ := reaches.goesOn j t' moment within early isOver
      exact absurd same (Nat.ne_of_lt left)
    · refine ⟨rfl, Nat.le_antisymm le' (Nat.le_of_not_lt ?_)⟩
      intro early
      exact inTime t' early isOver

/-- A pause is over at one moment first. -/
theorem Reaches.unique (reaches : p.Reaches arrivals k ms) (isOver : p.IsOver arrivals k ms)
    (reaches' : p.Reaches arrivals j t) (isOver' : p.IsOver arrivals j t) : j = k ∧ t = ms := by
  rcases reaches.moment.total reaches'.moment with ⟨le, le'⟩ | ⟨le, le'⟩
  · obtain ⟨rfl, rfl⟩ := reaches'.goesOn k ms reaches.moment le le' isOver
    exact ⟨rfl, rfl⟩
  · exact reaches.goesOn j t reaches'.moment le le' isOver'

/-- The last message that has come has made the pause end at once. -/
structure LoweredAt (p : Pause) (arrivals : List (Nat × Text)) (j ms : Nat) (d : Duration) :
    Prop where
  directive : ∃ m, arrivals[j]? = some (ms, m) ∧ Inbound.delay? m = some d
  elapsed : p.since + p.config.clampDelay d ≤ Duration.ofMillis ms
  goesOn : ¬ p.IsOver arrivals j ms

/-- **When a pause is over**: at the first whole millisecond at or after the end of the delay in
    force, or when a directive comes that asks for no more than has passed. -/
theorem Reaches.time_cases (reaches : p.Reaches arrivals k ms) (isOver : p.IsOver arrivals k ms)
    (sorted : arrivals.Pairwise fun a b => a.1 ≤ b.1) :
    ms = Duration.inMillis (p.since + p.delayBehind ((arrivals.take k).map Prod.snd)) ∨
      ∃ j d, k = j + 1 ∧ p.LoweredAt arrivals j ms d := by
  have past := Duration.inMillis_le_iff.mpr isOver
  rcases Nat.eq_or_lt_of_le past with same | early
  · exact .inl same.symm
  right
  -- The pause was over a millisecond before, so a message has come in this one.
  obtain ⟨a, ha, now⟩ : ∃ a ∈ arrivals.take k, ms ≤ a.1 := by
    by_contra none
    simp only [not_exists, not_and, Nat.not_le] at none
    have isOver' : p.IsOver arrivals k (ms - 1) :=
      Duration.inMillis_le_iff.mp (Nat.le_sub_one_of_lt early)
    obtain ⟨-, same⟩ := reaches.goesOn k (ms - 1) (reaches.moment.back none) (Nat.le_refl _)
      (Nat.sub_le _ _) isOver'
    omega
  obtain ⟨j, m, rfl, last⟩ := reaches.moment.exists_last sorted ha now
  have inTime : ¬ p.IsOver arrivals j ms := by
    intro isOver'
    obtain ⟨same, -⟩ := reaches.goesOn j ms (reaches.moment.front last) (Nat.le_succ j)
      (Nat.le_refl _) isOver'
    omega
  rw [IsOver, List.take_add_one, last] at isOver
  simp only [Option.toList_some, List.map_append, List.map_cons, List.map_nil,
    delayBehind_concat, delayAfter_eq] at isOver
  cases asks : Inbound.delay? m with
  | none =>
    rw [asks] at isOver
    exact absurd isOver inTime
  | some d =>
    rw [asks] at isOver
    exact ⟨j, d, rfl, ⟨m, last, asks⟩, isOver, inTime⟩

end Pause

namespace Conversation

/-! ### Messages and their times -/

/-- The messages that come onto the link in a schedule, each with the milliseconds on the clock. -/
def arrivalsAt (c : Conversation) : List Move → List (Nat × Text)
  | [] => []
  | mv :: rest => (History.arrivals c mv).map (c.now, ·) ++ (c.move mv).arrivalsAt rest

theorem now_le_move (c : Conversation) (mv : Move) : c.now ≤ (c.move mv).now := by
  cases mv with
  | post message =>
    rcases History.post_cases c message with ⟨same, -⟩ | posted
    · simp only [move, same, Nat.le_refl]
    · simp only [move, posted, Nat.le_refl]
  | pass ms => exact Nat.le_add_right _ _
  | leave events | resume => exact Nat.le_refl _
  | respond =>
    simp only [move]
    split <;> exact Nat.le_refl _

theorem le_of_mem_arrivalsAt (c : Conversation) (schedule : List Move) :
    ∀ a ∈ c.arrivalsAt schedule, c.now ≤ a.1 := by
  induction schedule generalizing c with
  | nil => simp [arrivalsAt]
  | cons mv rest ih =>
    intro a ha
    rcases List.mem_append.mp ha with first | later
    · obtain ⟨m, -, rfl⟩ := List.mem_map.mp first
      exact Nat.le_refl _
    · exact Nat.le_trans (now_le_move c mv) (ih _ a later)

theorem pairwise_at (ms : Nat) (messages : List Text) :
    (messages.map (ms, ·)).Pairwise fun a b => a.1 ≤ b.1 := by
  rw [List.pairwise_map]
  exact List.pairwise_of_forall fun _ _ => Nat.le_refl ms

theorem pairwise_arrivalsAt (c : Conversation) (schedule : List Move) :
    (c.arrivalsAt schedule).Pairwise fun a b => a.1 ≤ b.1 := by
  induction schedule generalizing c with
  | nil => exact .nil
  | cons mv rest ih =>
    refine List.pairwise_append.mpr ⟨pairwise_at _ _, ih _, ?_⟩
    intro a ha b hb
    obtain ⟨m, -, rfl⟩ := List.mem_map.mp ha
    exact Nat.le_trans (now_le_move c mv) (le_of_mem_arrivalsAt _ rest b hb)

end Conversation

namespace Pause

open Conversation Conversation.History

/-- The turns have taken the first of the messages, one each. -/
def Hears (arrivals : List (Nat × Text)) (heard : List Turn) : Prop :=
  heard.map Turn.cue = (arrivals.take heard.length).map fun a => Cue.message a.2

/-- What becomes of a pause in which messages come, by the turns behind those in front of it. -/
inductive Course (p : Pause) (arrivals : List (Nat × Text)) (front : List Turn) (h : History) :
    Prop where
  /-- It has not ended yet, and ends at once if it is over. -/
  | lasts (heard : List Turn) (turns : h.turns = front ++ heard) (hears : Hears arrivals heard)
      (paused : h.talk.session.pausedSince? = some p.since)
      (reaches : p.Reaches arrivals heard.length h.talk.now)
      (wakes : h.talk.cue? = some .wake ↔ p.IsOver arrivals heard.length h.talk.now)
  /-- It has ended when it was over: the session, which was in this pause, is in none, and takes
      the next step. -/
  | ends (heard : List Turn) (t : Turn) (rest : List Turn)
      (turns : h.turns = front ++ heard ++ t :: rest) (hears : Hears arrivals heard)
      (wake : t.cue = .wake)
      (reaches : p.Reaches arrivals heard.length t.before.now)
      (isOver : p.IsOver arrivals heard.length t.before.now)
      (ended : t.after.session.pausedSince? = none)
      (next : ∃ run, t.before.session.phase = .pacing run p.since ∧
        t.after.session.phase = .ready run)
  /-- The end of the run time or the client's leaving has come first, and has ended the session. -/
  | overtaken (heard : List Turn) (t : Turn) (rest : List Turn)
      (turns : h.turns = front ++ heard ++ t :: rest) (hears : Hears arrivals heard)
      (first : t.cue = .runTimeout ∨ t.cue = .hangup)
      (reaches : p.Reaches arrivals heard.length t.before.now)
      (goesOn : ¬ p.IsOver arrivals heard.length t.before.now)
      (ended : t.after.session.isOver = true)

/-- Where a pause stands that has not ended: some of the messages have been taken, and the others
    are on the link, where they have just come. -/
structure Lasts (p : Pause) (arrivals : List (Nat × Text)) (front heard : List Turn) (h : History) :
    Prop where
  turns : h.turns = front ++ heard
  hears : Hears arrivals heard
  paused : h.talk.session.pausedSince? = some p.since
  config : h.talk.session.config = p.config
  delay : h.talk.session.delay = p.delayBehind ((arrivals.take heard.length).map Prod.snd)
  inbox : h.talk.inbox = (arrivals.drop heard.length).map Prod.snd
  waiting : ∀ a ∈ arrivals.drop heard.length, a.1 = h.talk.now
  reaches : p.Reaches arrivals heard.length h.talk.now

variable {p : Pause} {arrivals : List (Nat × Text)} {front heard : List Turn} {h h' : History}
  {mv : Move} {m : Text} {ms : Nat} {schedule : List Move}

theorem Lasts.isOver_iff (lasts : p.Lasts arrivals front heard h) :
    p.IsOver arrivals heard.length h.talk.now ↔
      p.since + h.talk.session.delay ≤ h.talk.instant := by
  rw [IsOver, lasts.delay]
  rfl

theorem Lasts.wakes_iff (lasts : p.Lasts arrivals front heard h) :
    h.talk.cue? = some .wake ↔ p.IsOver arrivals heard.length h.talk.now := by
  rw [lasts.isOver_iff]
  obtain ⟨run, pacing⟩ := pacing_of_pausedSince lasts.paused
  constructor
  · intro due
    rcases pause_cases pacing due with ⟨-, past⟩ | ⟨-, same | same | ⟨m, rest, -, same⟩⟩
    · exact past
    all_goals cases same
  · intro past
    simp [Conversation.cue?, Session.cue?, pacing, past]

/-- Messages come onto the link. -/
theorem Lasts.come {new : List Text} (lasts : p.Lasts arrivals front heard h)
    (turns : h'.turns = h.turns) (session : h'.talk.session = h.talk.session)
    (now : h'.talk.now = h.talk.now) (inbox : h'.talk.inbox = h.talk.inbox ++ new) :
    p.Lasts (arrivals ++ new.map (h.talk.now, ·)) front heard h' := by
  have within : heard.length ≤ arrivals.length := lasts.reaches.moment.within
  have take : (arrivals ++ new.map (h.talk.now, ·)).take heard.length =
      arrivals.take heard.length := List.take_append_of_le_length within
  have drop : (arrivals ++ new.map (h.talk.now, ·)).drop heard.length =
      arrivals.drop heard.length ++ new.map (h.talk.now, ·) := List.drop_append_of_le_length within
  have just : ∀ a ∈ new.map (h.talk.now, ·), a.1 = h.talk.now := by simp
  refine ⟨turns.trans lasts.turns, ?_, ?_, ?_, ?_, ?_, ?_, ?_⟩
  · rw [Hears, take]
    exact lasts.hears
  · rw [session, lasts.paused]
  · rw [session, lasts.config]
  · rw [session, take, lasts.delay]
  · rw [inbox, drop, lasts.inbox, List.map_append, List.map_map]
    simp [Function.comp_def]
  · rw [drop, now]
    intro a ha
    exact (List.mem_append.mp ha).elim (lasts.waiting a) (just a)
  · rw [now]
    exact lasts.reaches.append fun a ha => Nat.le_of_eq (just a ha).symm

/-- Time passes, when all messages have been taken, up to the moment at which the pause is over. -/
theorem Lasts.wait (lasts : p.Lasts arrivals front heard h) (free : h.talk.Free ms) :
    p.Lasts arrivals front heard (h.move (.pass ms)) := by
  obtain ⟨rests, alarms⟩ := free
  obtain ⟨run, pacing⟩ := pacing_of_pausedSince lasts.paused
  obtain ⟨-, empty⟩ := (Conversation.rests_of_cue? rests).in_pause pacing
  have all : arrivals.drop heard.length = [] := by
    have := lasts.inbox
    rw [empty] at this
    exact List.map_eq_nil_iff.mp this.symm
  have whole : heard.length = arrivals.length :=
    Nat.le_antisymm lasts.reaches.moment.within (List.drop_eq_nil_iff.mp all)
  refine ⟨(List.append_nil _).trans lasts.turns, lasts.hears, lasts.paused, lasts.config,
    lasts.delay, lasts.inbox, by simp [all], ?_⟩
  have reaches := lasts.reaches
  rw [whole] at reaches ⊢
  apply reaches.wait (Nat.le_add_right _ _)
  intro t early isOver
  have alarm := alarms (min (p.since + h.talk.session.delay) run.deadline)
    (by simp [Session.alarm?, pacing])
  have past : Duration.inMillis (p.since + h.talk.session.delay) ≤ t := by
    rw [lasts.delay, whole]
    exact Duration.inMillis_le_iff.mpr isOver
  have soonest := Duration.inMillis_mono
    (Nat.min_le_left (p.since + h.talk.session.delay) run.deadline)
  change t < h.talk.now + ms at early
  omega

/-- What the client and the clock do. -/
theorem Lasts.elapse (lasts : p.Lasts arrivals front heard h) (onTime : mv.OnTime h.talk)
    (silent : mv ≠ .respond) :
    p.Lasts (arrivals ++ (History.arrivals h.talk mv).map (h.talk.now, ·)) front heard
      (h.move mv) := by
  cases mv with
  | post message =>
    rcases post_cases h.talk message with ⟨same, refused⟩ | posted
    · apply lasts.come (List.append_nil _)
      · exact congrArg Conversation.session same
      · exact congrArg Conversation.now same
      · simp [same, refused]
    · apply lasts.come (List.append_nil _)
      all_goals simp [posted]
  | pass ms =>
    rw [show History.arrivals h.talk (.pass ms) = [] from rfl, List.map_nil, List.append_nil]
    exact lasts.wait onTime
  | leave events =>
    exact lasts.come (List.append_nil _) rfl rfl (List.append_nil _).symm
  | resume => exact onTime.elim
  | respond => exact absurd rfl silent

/-- The oldest message on the link is the next one, and has come just now. -/
theorem Lasts.oldest {rest : List Text} (lasts : p.Lasts arrivals front heard h)
    (link : h.talk.inbox = m :: rest) :
    ∃ later, arrivals.drop heard.length = (h.talk.now, m) :: later ∧
      later.map Prod.snd = rest := by
  have inbox := lasts.inbox
  rw [link] at inbox
  obtain ⟨⟨time, text⟩, later, drop, rfl, left⟩ := List.map_eq_cons_iff.mp inbox.symm
  obtain rfl : time = h.talk.now := lasts.waiting _ (drop ▸ List.mem_cons_self)
  exact ⟨later, drop, left⟩

/-- The session takes the oldest message on the link. -/
theorem Lasts.hear (lasts : p.Lasts arrivals front heard h) (due : h.talk.cue? = some (.message m))
    (inTime : ¬ p.IsOver arrivals heard.length h.talk.now) :
    p.Lasts arrivals front (heard ++ [⟨h.talk, .message m⟩]) (h.respondTo (.message m)) := by
  obtain ⟨rest, link⟩ := cue_message due
  obtain ⟨run, pacing⟩ := pacing_of_pausedSince lasts.paused
  obtain ⟨paused, delay⟩ :
      (h.talk.session.takeMessage h.talk.instant h.talk.takes m).session.phase =
          .pacing run p.since ∧
        (h.talk.session.takeMessage h.talk.instant h.talk.takes m).session.delay =
          h.talk.session.config.delayAfter h.talk.session.delay m := takeMessage_in_pause pacing
  obtain ⟨later, drop, left⟩ := lasts.oldest link
  have next : arrivals[heard.length]? = some (h.talk.now, m) := by
    rw [← List.head?_drop, drop]
    rfl
  have behind : arrivals.drop (heard.length + 1) = later := by
    rw [← List.tail_drop, drop]
    rfl
  have length : (heard ++ [(⟨h.talk, .message m⟩ : Turn)]).length = heard.length + 1 := by simp
  refine ⟨?_, ?_, ?_, ?_, ?_, ?_, ?_, ?_⟩
  · rw [respondTo, lasts.turns, List.append_assoc]
  · have hears := lasts.hears
    rw [Hears] at hears ⊢
    rw [length, List.take_add_one, next, List.map_append, List.map_append, hears]
    rfl
  · change (h.talk.session.takeMessage h.talk.instant h.talk.takes m).session.pausedSince? = _
    rw [pausedSince?, paused]
  · rw [config_respondTo due, lasts.config]
  · rw [length, List.take_add_one, next, List.map_append]
    refine delay.trans ?_
    rw [lasts.config, lasts.delay]
    exact (delayBehind_concat p _ m).symm
  · rw [length, behind, left]
    change h.talk.inbox.tail = rest
    rw [link]
    rfl
  · rw [length, behind]
    intro b hb
    exact lasts.waiting b (drop ▸ List.mem_cons_of_mem _ hb)
  · rw [length]
    exact lasts.reaches.take inTime next

/-- The turn at which a pause ends, or is overtaken. -/
theorem Lasts.last (lasts : p.Lasts arrivals front heard h) {cue : Cue}
    (next : h.move .respond = h.respondTo cue) (schedule : List Move) :
    ∃ rest, (h.run (.respond :: schedule)).turns = front ++ heard ++ ⟨h.talk, cue⟩ :: rest := by
  obtain ⟨rest, turns⟩ := turns_run (h.respondTo cue) schedule
  refine ⟨rest, ?_⟩
  change ((h.move .respond).run schedule).turns = _
  rw [next, ← turns, respondTo, lasts.turns, List.append_assoc]
  rfl

/-- **The course of a pause**, under every punctual schedule. -/
theorem Lasts.course (lasts : p.Lasts arrivals front heard h)
    (punctual : h.talk.Punctual schedule) :
    p.Course (arrivals ++ h.talk.arrivalsAt schedule) front (h.run schedule) := by
  induction schedule generalizing arrivals heard h with
  | nil =>
    rw [arrivalsAt, List.append_nil]
    exact .lasts heard lasts.turns lasts.hears lasts.paused lasts.reaches lasts.wakes_iff
  | cons mv later ih =>
    obtain ⟨onTime, punctual⟩ := punctual
    by_cases silent : mv = .respond
    · subst silent
      have within : heard.length ≤ arrivals.length := lasts.reaches.moment.within
      have reaches := lasts.reaches.append (le_of_mem_arrivalsAt h.talk (.respond :: later))
      have hears : Hears (arrivals ++ h.talk.arrivalsAt (.respond :: later)) heard := by
        rw [Hears, List.take_append_of_le_length within]
        exact lasts.hears
      obtain ⟨run, pacing⟩ := pacing_of_pausedSince lasts.paused
      rcases respond_cases h with same | ⟨cue, due, next⟩
      · have lasts : p.Lasts arrivals front heard (h.move .respond) := same.symm ▸ lasts
        exact ih lasts punctual
      · obtain ⟨rest, turns⟩ := lasts.last next later
        rcases pause_cases pacing due with ⟨rfl, past⟩ | ⟨inTime, other⟩
        · have awake : (Turn.after ⟨h.talk, .wake⟩).session =
              { h.talk.session with phase := .ready run } := respond_wake pacing
          refine .ends heard _ rest turns hears rfl reaches ?_ ?_ ⟨run, pacing, ?_⟩
          · rw [isOver_append_iff within, lasts.isOver_iff]
            exact past
          · rw [awake]
            rfl
          · rw [awake]
        · have inTime : ¬ p.IsOver arrivals heard.length h.talk.now := by
            rw [lasts.isOver_iff]
            exact Nat.not_le_of_lt inTime
          have overtaken (first : cue = .runTimeout ∨ cue = .hangup) :
              p.Course (arrivals ++ h.talk.arrivalsAt (.respond :: later)) front
                (h.run (.respond :: later)) := by
            refine .overtaken heard _ rest turns hears first reaches ?_ ?_
            · rw [isOver_append_iff within]
              exact inTime
            · rcases first with rfl | rfl
              · obtain ⟨outcome, ended⟩ :=
                  ended_of_runTimeout h.talk.session h.talk.instant h.talk.takes
                exact isOver_of_ended ended
              · rfl
          rcases other with late | gone | ⟨m, -, -, rfl⟩
          · exact overtaken (.inl late)
          · exact overtaken (.inr gone)
          · have lasts := next ▸ lasts.hear due inTime
            exact ih lasts punctual
    · rw [arrivalsAt, ← List.append_assoc]
      exact ih (lasts.elapse onTime silent) punctual

end Pause

namespace Session

variable {s : Session} {now : Instant} {takes : Takes} {cue : Cue} {inbox : List Text}

/-- A session never has a longer delay than the longest. -/
theorem delay_respond_le (due : s.cue? now inbox takes.gone = some cue)
    (within : s.delay ≤ s.config.maxDelay) :
    (s.respond now takes cue).session.delay ≤ s.config.maxDelay := by
  have reacts := reacts_of_cue due
  generalize result : (s.respond now takes cue).session = s' at reacts
  generalize (s.respond now takes cue).told = told at reacts
  cases reacts with
  | directive m d listens directive =>
    rw [← result]
    rcases Inbound.parse_of_directive directive with ⟨d, parses⟩ | ⟨e, parses⟩
    · simp only [respond, takeMessage, parses, setDelay]
      exact Nat.min_le_right _ _
    · simp only [respond, takeMessage, parses, ignore]
      exact within
  | hangup | started | wake | kept | dropped => exact within
  | refused m e idle text refuses concludes | inputTimeout run since awaiting empty late concludes
  | runTimeout run running late concludes =>
    exact concludes.session (P := fun s' => s'.delay ≤ s.config.maxDelay) fun _ => within
  | seeded m program idle text decodes seeded delivers | step run ready delivers
  | queued m rest run since awaiting inputs delivers
  | answered m run since awaiting empty text delivers =>
    exact delivers.session (P := fun s' => s'.delay ≤ s.config.maxDelay) (fun _ => within)
      fun _ => within

end Session

namespace Conversation.History

theorem delay_move_le {h : History} (mv : Move)
    (within : h.talk.session.delay ≤ h.talk.session.config.maxDelay) :
    (h.move mv).talk.session.delay ≤ (h.move mv).talk.session.config.maxDelay := by
  cases mv with
  | post message =>
    rcases post_cases h.talk message with ⟨same, -⟩ | posted
    · simpa only [History.move, Conversation.move, same] using within
    · simpa only [History.move, Conversation.move, posted] using within
  | pass ms | leave events => exact within
  | resume =>
    simp only [History.move, Conversation.move, resumed, restarted]
    split <;> exact within
  | respond =>
    rcases respond_cases h with same | ⟨cue, due, next⟩
    · rw [same]
      exact within
    · rw [next, config_respondTo due]
      exact delay_respond_le due within

theorem delay_le_maxDelay (peer : Text) (config : Config) (seed : Int) (schedule : List Move) :
    (History.of peer config seed schedule).talk.session.delay ≤ config.maxDelay := by
  have kept (schedule : List Move) {h : History}
      (within : h.talk.session.delay ≤ h.talk.session.config.maxDelay) :
      (h.run schedule).talk.session.delay ≤ (h.run schedule).talk.session.config.maxDelay := by
    induction schedule generalizing h with
    | nil => exact within
    | cons mv rest ih => exact ih (delay_move_le mv within)
  have reached : (History.of peer config seed schedule).talk.session.delay ≤
      (History.of peer config seed schedule).talk.session.config.maxDelay :=
    kept schedule (Nat.min_le_right _ _)
  rwa [config_of] at reached

/-- **A pause lasts as the directives that come in it have it.**  At any moment of a session at
    which a pause begins, with whatever messages on the link or still to come: the session takes
    the messages as they come until the first moment at which the delay in force has passed since
    the beginning of the pause.  It wakes at this moment, is in no pause any more and takes the
    next step, unless the end of the run time or the client's leaving has ended it before.  There
    is one such moment at most.  It is the first whole millisecond at or after the end of the delay
    in force, or it is when a directive comes that asks for no more than has passed already.
    Messages that ask for no delay do not matter. -/
theorem pause_lasts_as_directed (peer : Text) (config : Config) (seed : Int)
    (before schedule : List Move) (since : Instant)
    (paused : (History.of peer config seed before).talk.session.pausedSince? = some since)
    (begins : (History.of peer config seed before).talk.instant = since)
    (punctual : (History.of peer config seed before).talk.Punctual schedule) :
    let start := History.of peer config seed before
    let p : Pause := ⟨since, config, start.talk.session.delay⟩
    let arrivals := start.talk.inbox.map (start.talk.now, ·) ++ start.talk.arrivalsAt schedule
    p.delay ≤ config.maxDelay ∧
      p.Course arrivals start.turns (start.run schedule) ∧
      (∀ k ms, p.Reaches arrivals k ms → p.IsOver arrivals k ms →
        (∀ j t, p.Reaches arrivals j t → p.IsOver arrivals j t → j = k ∧ t = ms) ∧
          (ms = Duration.inMillis (since + p.delayBehind ((arrivals.take k).map Prod.snd)) ∨
            ∃ j d, k = j + 1 ∧ p.LoweredAt arrivals j ms d)) ∧
      ∀ j ms m t, arrivals[j]? = some (ms, m) → Inbound.delay? m = none →
        (p.IsOver arrivals (j + 1) t ↔ p.IsOver arrivals j t) := by
  intro start p arrivals
  refine ⟨delay_le_maxDelay peer config seed before, ?_, ?_, ?_⟩
  · have reaches : p.Reaches (start.talk.inbox.map (start.talk.now, ·)) 0 start.talk.now := by
      refine ⟨⟨Nat.zero_le _, by simp, by simp⟩, ?_⟩
      intro j t _ first past isOver
      obtain rfl := Nat.le_zero.mp first
      have passed : since ≤ Duration.ofMillis t := Nat.le_trans (Nat.le_add_right _ _) isOver
      rw [← begins] at passed
      change start.talk.now * 1000000 ≤ t * 1000000 at passed
      exact ⟨rfl, by omega⟩
    have lasts : p.Lasts (start.talk.inbox.map (start.talk.now, ·)) start.turns [] start :=
      ⟨(List.append_nil _).symm, rfl, paused, config_of peer config seed before, rfl,
        by simp [Function.comp_def], by simp, reaches⟩
    exact lasts.course punctual
  · intro k ms reaches isOver
    refine ⟨fun j t reaches' isOver' => reaches.unique isOver reaches' isOver', ?_⟩
    apply reaches.time_cases isOver
    refine List.pairwise_append.mpr ⟨pairwise_at _ _, pairwise_arrivalsAt _ _, ?_⟩
    intro a ha b hb
    obtain ⟨m, -, rfl⟩ := List.mem_map.mp ha
    exact le_of_mem_arrivalsAt _ schedule b hb
  · intro j ms m t next other
    rw [Pause.IsOver, Pause.IsOver, List.take_add_one, next, List.map_append]
    simp [Pause.delayBehind_concat, Pause.delayAfter_eq, other]

/-- A pause of three milliseconds is raised to ten, which is the longest, and lowered to three and
    a half when five have passed: it ends then, and the message that came before that directive in
    the same millisecond has been taken. -/
theorem pause_lasts_as_directed_raised_and_lowered :
    let config : Config := { delay := .ofMillis 3, maxDelay := .ofMillis 10 }
    let before : List Move := [.post "push 1\npush 2".toList, .respond, .respond]
    let start := History.of [] config 0 before
    let schedule : List Move :=
      [.pass 1, .post "@d 0.5".toList, .respond, .pass 4, .post "@x 0".toList,
        .post "@d 0.0035".toList, .respond, .respond, .respond]
    let arrivals := [(1, "@d 0.5".toList), (5, "@x 0".toList), (5, "@d 0.0035".toList)]
    let p : Pause := ⟨0, config, .ofMillis 3⟩
    start.talk.session.pausedSince? = some 0 ∧ start.talk.instant = 0 ∧
      start.talk.session.delay = .ofMillis 3 ∧ start.talk.Punctual schedule ∧
      start.talk.arrivalsAt schedule = arrivals ∧
      p.Reaches arrivals 3 5 ∧ p.IsOver arrivals 3 5 ∧ (∃ d, p.LoweredAt arrivals 2 5 d) ∧
      ∃ t ∈ (start.run schedule).turns, t.cue = .wake ∧ t.before.now = 5 ∧
        t.after.session.pausedSince? = none := by
  intro config before start schedule arrivals p
  have paused : start.talk.session.pausedSince? = some 0 := by decide +kernel
  have begins : start.talk.instant = 0 := by decide +kernel
  have delay : start.talk.session.delay = .ofMillis 3 := by decide +kernel
  have punctual : start.talk.Punctual schedule := by decide +kernel
  have empty : start.talk.inbox = [] := by decide +kernel
  have come : start.talk.arrivalsAt schedule = arrivals := by decide +kernel
  have begun : start.turns.length = 2 := by decide +kernel
  have goesOn : (start.run schedule).talk.session.pausedSince? = none := by decide +kernel
  have told : (start.run schedule).turns.map (fun t => (t.cue, t.before.now)) =
      [(.message "push 1\npush 2".toList, 0), (.step, 0), (.message "@d 0.5".toList, 1),
        (.message "@x 0".toList, 5), (.message "@d 0.0035".toList, 5), (.wake, 5)] := by
    decide +kernel
  subst start
  obtain ⟨-, course, first, -⟩ :=
    pause_lasts_as_directed [] config 0 before schedule 0 paused begins punctual
  generalize History.of [] config 0 before = start at *
  rw [delay, come, empty, List.map_nil, List.nil_append] at course first
  -- The first turn that takes no message is the fourth one.
  have last {heard rest : List Turn} {t : Turn}
      (turns : (start.run schedule).turns = start.turns ++ heard ++ t :: rest)
      (other : ∀ m, t.cue ≠ .message m) (within : heard.length ≤ 3) :
      heard.length = 3 ∧ t.cue = .wake ∧ t.before.now = 5 := by
    have found :
        ((start.run schedule).turns.map fun t => (t.cue, t.before.now))[2 + heard.length]? =
          some (t.cue, t.before.now) := by
      rw [List.getElem?_map, turns, ← begun, ← List.length_append,
        List.getElem?_append_right (Nat.le_refl _), Nat.sub_self]
      rfl
    rw [told] at found
    generalize heard.length = k at found within
    match k, within with
    | 0, _ | 1, _ | 2, _ =>
      exact absurd (congrArg Prod.fst (Option.some.inj found)).symm (other _)
    | 3, _ =>
      obtain ⟨cue, now⟩ := Prod.mk.inj (Option.some.inj found)
      exact ⟨rfl, cue.symm, now.symm⟩
  have ended : p.Reaches arrivals 3 5 ∧ p.IsOver arrivals 3 5 ∧
      ∃ t ∈ (start.run schedule).turns, t.cue = .wake ∧ t.before.now = 5 ∧
        t.after.session.pausedSince? = none := by
    cases course with
    | lasts heard turns hears still => cases goesOn.symm.trans still
    | ends heard t rest turns hears wake reaches isOver ended =>
      obtain ⟨length, -, now⟩ := last turns (by simp [wake]) reaches.moment.within
      rw [length, now] at reaches isOver
      exact ⟨reaches, isOver, t, by rw [turns]; simp, wake, now, ended⟩
    | overtaken heard t rest turns hears overtakes reaches =>
      have other (m : Text) : t.cue ≠ .message m := by
        rcases overtakes with cue | cue <;> simp [cue]
      obtain ⟨-, wake, -⟩ := last turns other reaches.moment.within
      rcases overtakes with cue | cue <;> cases wake.symm.trans cue
  obtain ⟨reaches, isOver, awake⟩ := ended
  obtain ⟨-, late | ⟨j, d, next, lowered⟩⟩ := first 3 5 reaches isOver
  · exact absurd late (by decide +kernel)
  · cases next
    exact ⟨paused, begins, delay, punctual, come, reaches, isOver, ⟨d, lowered⟩, awake⟩

end Conversation.History

end Stepwise

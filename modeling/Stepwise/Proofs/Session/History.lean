/-
  Stepwise/Proofs/Session/History.lean
  ====================================
  **Every way in which a session, its client and the clock can take turns.**

  A schedule is a list of moves: a message is put on the link, time passes, the client
  leaves, at once or after a number of further events, it lets go of a session that it has
  held up, or the session responds to the cue that is due.  Nothing says when the session
  has to respond, so a schedule may let time pass over its timers, and it may have the
  client do anything between any two of its responses.  What the client of a conversation
  does, with all that the session makes of it, is one such schedule (`exists_run_actAll`).

  A history is a conversation together with what has happened in it: the messages that
  came onto the link, and the cues that the session has responded to.  From these the
  messages taken, what became of each, and the inputs that reads have consumed are read
  off.  A property of histories holds of every run if it holds at the start, if what the
  client and the clock do leaves it alone, and if responses preserve it
  (`run_induction`).
-/
import Stepwise.Proofs.Session.Reaction

namespace Stepwise

/-- The messages that are not directives. -/
def Inbound.texts (messages : List Text) : List Text := messages.filter fun m => !isDirective m

@[simp] theorem Inbound.texts_of_directive {m : Text} (h : isDirective m = true) :
    texts [m] = [] := by
  simp [texts, h]

@[simp] theorem Inbound.texts_of_text {m : Text} (h : isDirective m = false) : texts [m] = [m] := by
  simp [texts, h]

namespace Conversation

/-! ### Schedules -/

/-- A move of the client, of the clock, or of the session. -/
inductive Move where
  | post (message : Text)
  | pass (ms : Nat)
  /-- The client leaves after a number of further events. -/
  | leave (events : Nat)
  /-- The client has held the session up, and lets it go on at this moment. -/
  | resume
  /-- The session responds to the cue that is due, if there is one. -/
  | respond
deriving DecidableEq, Repr

def move (c : Conversation) : Move → Conversation
  | .post message => (c.post message).1
  | .pass ms => c.skip ms
  | .leave events => c.leaveAfter events
  | .resume => c.resumed
  | .respond =>
    match c.cue? with
    | some cue => c.follow cue
    | none => c

@[simp] theorem move_post (c : Conversation) (message : Text) :
    c.move (.post message) = (c.post message).1 := rfl

@[simp] theorem move_pass (c : Conversation) (ms : Nat) : c.move (.pass ms) = c.skip ms := rfl

@[simp] theorem move_leave (c : Conversation) (events : Nat) :
    c.move (.leave events) = c.leaveAfter events := rfl

@[simp] theorem move_resume (c : Conversation) : c.move .resume = c.resumed := rfl

@[simp] theorem move_respond {c : Conversation} {cue : Session.Cue} (due : c.cue? = some cue) :
    c.move .respond = c.follow cue := by
  simp only [move, due]

@[simp] theorem move_respond_of_rest {c : Conversation} (rests : c.cue? = none) :
    c.move .respond = c := by
  simp only [move, rests]

@[simp] theorem inbox_skip (c : Conversation) (ms : Nat) : (c.skip ms).inbox = c.inbox := rfl

@[simp] theorem inbox_leaveAfter (c : Conversation) (events : Nat) :
    (c.leaveAfter events).inbox = c.inbox := rfl

@[simp] theorem inbox_resumed (c : Conversation) : c.resumed.inbox = c.inbox := rfl

@[simp] theorem inbox_follow (c : Conversation) (cue : Session.Cue) :
    (c.follow cue).inbox = inboxAfter c.inbox cue := rfl

@[simp] theorem received_follow (c : Conversation) (cue : Session.Cue) :
    (c.follow cue).received =
      ((c.session.respond c.instant c.takes cue).told.map fun e => (c.now, e)).reverse ++
        c.received := rfl

def moves (c : Conversation) (schedule : List Move) : Conversation := schedule.foldl move c

/-- Some schedule leads from one conversation to another. -/
def Reaches (c c' : Conversation) : Prop := ∃ schedule, c.moves schedule = c'

theorem Reaches.refl (c : Conversation) : c.Reaches c := ⟨[], rfl⟩

theorem Reaches.trans {c₁ c₂ c₃ : Conversation} (h : c₁.Reaches c₂) (h' : c₂.Reaches c₃) :
    c₁.Reaches c₃ := by
  obtain ⟨first, rfl⟩ := h
  obtain ⟨second, rfl⟩ := h'
  exact ⟨first ++ second, List.foldl_append⟩

theorem Reaches.move (c : Conversation) (mv : Move) : c.Reaches (c.move mv) := ⟨[mv], rfl⟩

theorem Reaches.follow {c : Conversation} {cue : Session.Cue} (due : c.cue? = some cue) :
    c.Reaches (c.follow cue) := move_respond due ▸ .move c .respond

theorem reaches_settleWithin (fuel : Nat) (c : Conversation) :
    c.Reaches (settleWithin fuel c) := by
  induction fuel generalizing c with
  | zero => exact .refl c
  | succ fuel ih =>
    simp only [settleWithin]
    split
    · exact .refl c
    · rename_i cue due
      exact (Reaches.follow due).trans (ih _)

theorem reaches_settle (c : Conversation) : c.Reaches c.settle := reaches_settleWithin _ c

theorem reaches_tick (c : Conversation) : c.Reaches c.tick :=
  (Reaches.move c (.pass 1)).trans (reaches_settle _)

theorem reaches_elapseWithin (turns ms : Nat) (c : Conversation) :
    c.Reaches (elapseWithin turns ms c) := by
  induction turns generalizing ms c with
  | zero => exact .refl c
  | succ turns ih =>
    cases ms with
    | zero => exact .refl c
    | succ ms =>
      simp only [elapseWithin]
      split
      · exact .refl c
      · exact ((Reaches.move c (.pass _)).trans (reaches_tick _)).trans (ih _ _)

theorem reaches_postAll (messages : List Text) (c : Conversation) :
    c.Reaches (c.postAll messages).1 := by
  induction messages generalizing c with
  | nil => exact .refl c
  | cons message rest ih => exact (Reaches.move c (.post message)).trans (ih _)

theorem reaches_act (c : Conversation) (action : Action) : c.Reaches (c.act action).1 := by
  cases action with
  | send messages => exact (reaches_postAll messages c).trans (reaches_settle _)
  | sleep ms => exact reaches_elapseWithin ms ms c
  | drop => exact (Reaches.move c (.leave 0)).trans (reaches_settle _)
  | dropAfter events => exact (Reaches.move c (.leave events)).trans (reaches_settle _)

theorem reaches_actAll (actions : List Action) (c : Conversation) :
    c.Reaches (c.actAll actions).1 := by
  induction actions generalizing c with
  | nil => exact .refl c
  | cons action rest ih => exact (reaches_act c action).trans (ih _)

/-! ### Histories -/

/-- The session responds to a cue. -/
structure Turn where
  /-- The conversation in which the cue is due. -/
  before : Conversation
  cue : Session.Cue
deriving DecidableEq, Repr

/-- What becomes of an input that the session takes from the link. -/
inductive Fate where
  /-- There is no room for it. -/
  | dropped
  /-- It is kept for a later read. -/
  | queued
  /-- It answers the read that waits. -/
  | answered
deriving DecidableEq, Repr

namespace Turn

def after (t : Turn) : Conversation := t.before.follow t.cue

def message? (t : Turn) : Option Text :=
  match t.cue with
  | .message m => some m
  | _ => none

/-- The input that is taken from the link, if one is, and what becomes of it.  The first
    text is not an input but the source. -/
def fate? (t : Turn) : Option (Text × Fate) :=
  match t.cue, t.before.session.phase with
  | .message _, .idle => none
  | .message m, .awaiting _ _ => if Inbound.isDirective m then none else some (m, .answered)
  | .message m, _ =>
    if Inbound.isDirective m then none
    else if t.after.session.inputs = t.before.session.inputs then some (m, .dropped)
    else some (m, .queued)
  | _, _ => none

/-- The input that a read consumes, if one does: the oldest in the queue, or the message
    that it waited for. -/
def consumed? (t : Turn) : Option Text :=
  match t.before.session.phase, t.cue with
  | .awaiting _ _, .queued => t.before.session.inputs.head?
  | .awaiting _ _, .message m => if Inbound.isDirective m then none else some m
  | _, _ => none

variable {c : Conversation} {cue : Session.Cue} {m : Text}

@[simp] theorem fate?_of_directive (h : Inbound.isDirective m = true) :
    fate? ⟨c, .message m⟩ = none := by
  cases phase : c.session.phase <;> simp [fate?, phase, h]

@[simp] theorem consumed?_of_directive (h : Inbound.isDirective m = true) :
    consumed? ⟨c, .message m⟩ = none := by
  cases phase : c.session.phase <;> simp [consumed?, phase, h]

/-- Only the queue and the link have inputs to give. -/
theorem consumed?_eq_none (queued : cue ≠ .queued) (message : ∀ m, cue ≠ .message m) :
    consumed? ⟨c, cue⟩ = none := by
  cases cue with
  | queued => exact absurd rfl queued
  | message m => exact absurd rfl (message m)
  | _ => cases phase : c.session.phase <;> simp [consumed?, phase]

end Turn

/-- A conversation with what has happened in it. -/
structure History where
  talk : Conversation
  /-- The messages that have come onto the link, in order. -/
  arrived : List Text := []
  /-- The cues that the session has responded to, in order. -/
  turns : List Turn := []
deriving DecidableEq, Repr

namespace History

/-- The messages that a move brings onto the link. -/
@[simp] def arrivals (c : Conversation) : Move → List Text
  | .post message => if (c.post message).2 = .ok then [message] else []
  | _ => []

def responses (c : Conversation) : Move → List Turn
  | .respond => (c.cue?.map fun cue => ⟨c, cue⟩).toList
  | _ => []

@[simps] def move (h : History) (mv : Move) : History where
  talk := h.talk.move mv
  arrived := h.arrived ++ arrivals h.talk mv
  turns := h.turns ++ responses h.talk mv

def run (h : History) (schedule : List Move) : History := schedule.foldl move h

/-- The history of a conversation from its beginning. -/
def of (peer : Text) (config : Session.Config) (seed : Int) (schedule : List Move) : History :=
  run { talk := .opened peer config seed } schedule

def told (h : History) : List Event := h.talk.received.reverse.map (·.2)

def taken (h : History) : List Text := h.turns.filterMap Turn.message?

/-- The inputs that the session has taken from the link, in order, and what became of
    each. -/
def fates (h : History) : List (Text × Fate) := h.turns.filterMap Turn.fate?

/-- The inputs taken that have not been dropped, in order. -/
def accepted (h : History) : List Text := (h.fates.filter fun f => f.2 ≠ .dropped).map (·.1)

def consumed (h : History) : List Text := h.turns.filterMap Turn.consumed?

theorem talk_run (h : History) (schedule : List Move) :
    (h.run schedule).talk = h.talk.moves schedule := by
  induction schedule generalizing h with
  | nil => rfl
  | cons mv rest ih => exact ih (h.move mv)

theorem talk_of (peer : Text) (config : Session.Config) (seed : Int) (schedule : List Move) :
    (History.of peer config seed schedule).talk = (opened peer config seed).moves schedule :=
  talk_run _ schedule

/-- Whatever the client does, there is a history of it. -/
theorem exists_run_actAll (h : History) (actions : List Action) :
    ∃ schedule, (h.run schedule).talk = (h.talk.actAll actions).1 := by
  obtain ⟨schedule, hs⟩ := reaches_actAll actions h.talk
  exact ⟨schedule, (talk_run h schedule).trans hs⟩

/-! ### What holds of every run -/

/-- What the session has done is the same in two histories, and a client that has left
    has left. -/
structure Frame (h h' : History) : Prop where
  session : h.talk.session.SameButWhen h'.talk.session
  received : h'.talk.received = h.talk.received
  turns : h'.turns = h.turns
  gone : h.talk.gone = true → h'.talk.gone = true

@[simps] def respondTo (h : History) (cue : Session.Cue) : History where
  talk := h.talk.follow cue
  arrived := h.arrived
  turns := h.turns ++ [⟨h.talk, cue⟩]

variable {h h' : History} {cue : Session.Cue}

theorem post_cases (c : Conversation) (message : Text) :
    (c.post message).1 = c ∧ (c.post message).2 ≠ .ok ∨
      c.post message = ({ c with inbox := c.inbox ++ [message] }, .ok) := by
  simp only [post]
  split
  · exact .inl ⟨rfl, by simp⟩
  · split
    · exact .inl ⟨rfl, by simp⟩
    · split
      · exact .inl ⟨rfl, by simp⟩
      · exact .inr rfl

theorem frame_of_move {mv : Move} (hmv : mv ≠ .respond) : Frame h (h.move mv) := by
  cases mv with
  | post message =>
    rcases post_cases h.talk message with ⟨hp, -⟩ | hp
    · have talk : (h.move (.post message)).talk = h.talk := hp
      exact ⟨by rw [talk]; exact .refl _, by rw [talk], List.append_nil _,
        fun left => by rw [talk]; exact left⟩
    · have talk : (h.move (.post message)).talk = (h.talk.post message).1 := rfl
      rw [hp] at talk
      exact ⟨by rw [talk]; exact .refl _, by rw [talk], List.append_nil _,
        fun left => by rw [talk]; exact left⟩
  | pass ms => exact ⟨.refl _, rfl, List.append_nil _, id⟩
  | resume => exact ⟨Session.sameButWhen_restarted _ _, rfl, List.append_nil _, id⟩
  | leave events =>
    refine ⟨.refl _, rfl, List.append_nil _, fun left => ?_⟩
    have takes : h.talk.takes = some 0 := by
      simpa [Conversation.gone, Session.Takes.gone] using left
    simp [leaveAfter, Conversation.gone, Session.Takes.gone, Session.Takes.atMost, takes]
  | respond => exact absurd rfl hmv

theorem respond_cases (h : History) :
    h.move .respond = h ∨ ∃ cue, h.talk.cue? = some cue ∧ h.move .respond = h.respondTo cue := by
  cases hc : h.talk.cue? with
  | none =>
    refine .inl ?_
    simp [History.move, responses, hc]
  | some cue =>
    refine .inr ⟨cue, rfl, ?_⟩
    simp [History.move, responses, respondTo, hc]

/-- What holds at the start, is left alone by the client and the clock, and is preserved
    by responses holds of every run. -/
theorem run_induction {P : History → Prop} (frame : ∀ h h', Frame h h' → P h → P h')
    (respond : ∀ h cue, h.talk.cue? = some cue → P h → P (h.respondTo cue))
    (start : P h) (schedule : List Move) : P (h.run schedule) := by
  induction schedule generalizing h with
  | nil => exact start
  | cons mv rest ih =>
    refine ih ?_
    by_cases hmv : mv = .respond
    · subst hmv
      rcases respond_cases h with same | ⟨cue, hc, next⟩
      · rw [same]
        exact start
      · rw [next]
        exact respond h cue hc start
    · exact frame h _ (frame_of_move hmv) start

/-! ### What is read off -/

theorem told_of_frame (f : Frame h h') : h'.told = h.told := by
  simp only [told, f.received]

theorem taken_of_frame (f : Frame h h') : h'.taken = h.taken := by
  simp only [taken, f.turns]

theorem fates_of_frame (f : Frame h h') : h'.fates = h.fates := by
  simp only [fates, f.turns]

theorem accepted_of_frame (f : Frame h h') : h'.accepted = h.accepted := by
  simp only [accepted, fates_of_frame f]

theorem consumed_of_frame (f : Frame h h') : h'.consumed = h.consumed := by
  simp only [consumed, f.turns]

theorem filterMap_respondTo {α : Type} (f : Turn → Option α) (h : History) (cue : Session.Cue) :
    (h.respondTo cue).turns.filterMap f = h.turns.filterMap f ++ (f ⟨h.talk, cue⟩).toList := by
  simp only [respondTo, List.filterMap_append, List.filterMap_cons, List.filterMap_nil]
  cases f ⟨h.talk, cue⟩ <;> rfl

theorem forall_turns_respondTo {P : Turn → Prop} (old : ∀ t ∈ h.turns, P t)
    (new : P ⟨h.talk, cue⟩) : ∀ t ∈ (h.respondTo cue).turns, P t :=
  List.forall_mem_append.mpr ⟨old, List.forall_mem_singleton.mpr new⟩

@[simp] theorem taken_respondTo (h : History) (cue : Session.Cue) :
    (h.respondTo cue).taken = h.taken ++ (Turn.message? ⟨h.talk, cue⟩).toList :=
  filterMap_respondTo _ h cue

theorem texts_respondTo (h : History) (cue : Session.Cue) :
    Inbound.texts (h.respondTo cue).taken =
      Inbound.texts h.taken ++ Inbound.texts (Turn.message? ⟨h.talk, cue⟩).toList := by
  rw [taken_respondTo, Inbound.texts, List.filter_append]
  rfl

@[simp] theorem fates_respondTo (h : History) (cue : Session.Cue) :
    (h.respondTo cue).fates = h.fates ++ (Turn.fate? ⟨h.talk, cue⟩).toList :=
  filterMap_respondTo _ h cue

@[simp] theorem consumed_respondTo (h : History) (cue : Session.Cue) :
    (h.respondTo cue).consumed = h.consumed ++ (Turn.consumed? ⟨h.talk, cue⟩).toList :=
  filterMap_respondTo _ h cue

/-- What a response does to the session and to what the client has been told. -/
theorem respondTo_reacts (hc : h.talk.cue? = some cue) :
    ∃ told, Session.Reacts h.talk.session h.talk.instant h.talk.takes cue
        (h.respondTo cue).talk.session told ∧
      (h.respondTo cue).told = h.told ++ told ∧
      (h.respondTo cue).talk.takes = h.talk.takes.after told.length := by
  refine ⟨_, Session.reacts_of_cue hc, ?_, rfl⟩
  simp [told, Function.comp_def]

/-! ### Messages are taken in the order in which they arrive -/

theorem cue_message {m : Text} (hc : h.talk.cue? = some (.message m)) :
    ∃ rest, h.talk.inbox = m :: rest := by
  have client : ∀ {cue}, Session.clientCue? h.talk.inbox h.talk.gone = some cue →
      cue = .message m → ∃ rest, h.talk.inbox = m :: rest := by
    rintro cue hcue rfl
    rcases Session.clientCue_cases hcue with ⟨m', rest, hi, he⟩ | ⟨-, -, he⟩
    · cases he
      exact ⟨rest, hi⟩
    · cases he
  simp only [cue?, Session.cue?] at hc
  split at hc
  · exact client hc rfl
  · split at hc <;> cases hc
  · split at hc
    · cases hc
    · split at hc
      · cases hc
      · exact client hc rfl
  · split at hc
    · cases hc
    · rcases Option.or_eq_some_iff.mp hc with hc | ⟨-, hc⟩
      · exact client hc rfl
      · split at hc
        · cases hc
        · split at hc <;> cases hc
  · cases hc

/-- **Nothing is lost on the link**: what the session has taken and what it has not taken
    yet is what has arrived, in order. -/
theorem taken_append_inbox (h : History) (start : h.taken ++ h.talk.inbox = h.arrived)
    (schedule : List Move) :
    (h.run schedule).taken ++ (h.run schedule).talk.inbox = (h.run schedule).arrived := by
  induction schedule generalizing h with
  | nil => exact start
  | cons mv rest ih =>
    refine ih (h.move mv) ?_
    cases mv with
    | post message =>
      have same : (h.move (.post message)).taken = h.taken :=
        taken_of_frame (frame_of_move (by simp))
      rw [same]
      rcases post_cases h.talk message with ⟨hp, hn⟩ | hp
      · simpa [hp, hn] using start
      · simp [hp, ← start]
    | pass ms =>
      rw [taken_of_frame (frame_of_move (by simp))]
      simpa using start
    | leave events =>
      rw [taken_of_frame (frame_of_move (by simp))]
      simpa using start
    | resume =>
      rw [taken_of_frame (frame_of_move (by simp))]
      simpa using start
    | respond =>
      rcases respond_cases h with same | ⟨cue, hc, next⟩
      · rw [same]
        exact start
      · rw [next, taken_respondTo]
        cases cue with
        | message m =>
          obtain ⟨rest, hi⟩ := cue_message hc
          simpa [Turn.message?, inboxAfter, hi] using start
        | _ => simpa [Turn.message?, inboxAfter] using start

theorem texts_taken_within_arrived (peer : Text) (config : Session.Config) (seed : Int)
    (schedule : List Move) :
    Inbound.texts (History.of peer config seed schedule).taken <+:
      Inbound.texts (History.of peer config seed schedule).arrived := by
  have link := taken_append_inbox { talk := .opened peer config seed } rfl schedule
  exact List.IsPrefix.filter _ ⟨_, link⟩

end History

end Conversation

end Stepwise

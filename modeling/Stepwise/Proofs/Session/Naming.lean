/-
  Stepwise/Proofs/Session/Naming.lean
  ===================================
  **A session does not look at the name of its client.**

  The name stands in what is logged and nowhere else.  To respond under another name is to respond
  and then to change the name (`renames_respond`), and so it is with every move of a conversation
  (`nameless_move`).  What has been received and logged is not looked at either, so a conversation
  may be compared with another without all three (`nameless`).
-/
import Stepwise.Proofs.Session.Settling

namespace Stepwise

namespace Session

/-- The session of a client with another name. -/
@[simps] def named (s : Session) (peer : Text) : Session := { s with peer }

/-- Two responses differ in nothing but the name of the client and the log. -/
structure Response.Renames (peer : Text) (r r' : Response) : Prop where
  session : r'.session = r.session.named peer
  told : r'.told = r.told

variable {s : Session} {peer : Text} {now : Instant} {takes : Takes}

open Response (Renames)

theorem renames_finish (s : Session) (outcome : Outcome) (told : List Event)
    (log log' : List Log.Entry) :
    Renames peer (s.finish outcome told log) ((s.named peer).finish outcome told log') :=
  ⟨rfl, rfl⟩

theorem renames_endWith (s : Session) (takes : Takes) (last : Event) (reason : Text) :
    Renames peer (s.endWith takes last reason) ((s.named peer).endWith takes last reason) := by
  simp only [endWith]
  split <;> exact renames_finish ..

theorem renames_tell {after after' : Session → Response} (d : Machine.Delta)
    (h : Renames peer (after s) (after' (s.named peer))) :
    Renames peer (s.tell takes d after) ((s.named peer).tell takes d after') := by
  simp only [tell]
  split
  · exact renames_finish ..
  · exact ⟨h.session, congrArg (Event.ofDelta d ++ ·) h.told⟩

theorem renames_settleStep (s : Session) (now : Instant) (run : Run) :
    Renames peer (s.settleStep now run) ((s.named peer).settleStep now run) := by
  simp only [settleStep]
  split
  · exact renames_finish ..
  · exact ⟨rfl, rfl⟩

theorem renames_takeStep (s : Session) (now : Instant) (takes : Takes) (run : Run) :
    Renames peer (s.takeStep now takes run) ((s.named peer).takeStep now takes run) := by
  simp only [takeStep]
  split
  · exact renames_endWith ..
  · refine renames_tell _ ?_
    split
    · exact ⟨rfl, rfl⟩
    · exact renames_settleStep ..

theorem renames_answer (s : Session) (now : Instant) (takes : Takes) (run : Run) (input : Text) :
    Renames peer (s.answer now takes run input) ((s.named peer).answer now takes run input) := by
  simp only [answer]
  split
  · exact renames_endWith ..
  · split
    · exact renames_endWith ..
    · exact renames_tell _ (renames_settleStep ..)

theorem renames_enqueue (s : Session) (input : Text) :
    Renames peer (s.enqueue input) ((s.named peer).enqueue input) := by
  by_cases full : s.config.inputQueue ≤ s.inputs.length
  · simp only [enqueue, named, full, if_true]
    exact ⟨rfl, rfl⟩
  · simp only [enqueue, named, full, if_false]
    exact ⟨rfl, rfl⟩

theorem renames_startRun (s : Session) (now : Instant) (takes : Takes) (program : Program) :
    Renames peer (s.startRun now takes program) ((s.named peer).startRun now takes program) := by
  by_cases seeded : s.config.seedInput = true
  · simp only [startRun, named, seeded, if_true]
    split
    · exact renames_endWith ..
    · refine renames_tell _ ?_
      exact ⟨rfl, rfl⟩
  · simp only [startRun, named, seeded]
    exact ⟨rfl, rfl⟩

theorem renames_takeSource (s : Session) (now : Instant) (takes : Takes) (source : Text) :
    Renames peer (s.takeSource now takes source) ((s.named peer).takeSource now takes source) := by
  simp only [takeSource]
  split
  · exact renames_endWith ..
  · rename_i program decodes
    have starts : Renames peer (s.startRun now takes program)
        ((s.named peer).startRun now takes program) := renames_startRun ..
    exact ⟨starts.session, starts.told⟩

theorem renames_takeText (s : Session) (now : Instant) (takes : Takes) (text : Text) :
    Renames peer (s.takeText now takes text) ((s.named peer).takeText now takes text) := by
  cases phase : s.phase with
  | idle => simpa [takeText, phase] using renames_takeSource s now takes text
  | ready run => simpa [takeText, phase] using renames_enqueue s text
  | pacing run since => simpa [takeText, phase] using renames_enqueue s text
  | awaiting run since => simpa [takeText, phase] using renames_answer s now takes run text
  | ended outcome =>
    have unchanged : Renames peer { session := s } { session := s.named peer } := ⟨rfl, rfl⟩
    simpa [takeText, phase] using unchanged

theorem renames_takeMessage (s : Session) (now : Instant) (takes : Takes) (message : Text) :
    Renames peer (s.takeMessage now takes message)
      ((s.named peer).takeMessage now takes message) := by
  simp only [takeMessage]
  split
  · exact ⟨rfl, rfl⟩
  · exact ⟨rfl, rfl⟩
  · exact renames_takeText ..

theorem renames_takeQueued (s : Session) (now : Instant) (takes : Takes) :
    Renames peer (s.takeQueued now takes) ((s.named peer).takeQueued now takes) := by
  simp only [takeQueued, named]
  split
  · exact renames_answer ..
  · exact ⟨rfl, rfl⟩

/-- **A session does not look at the name of its client.** -/
theorem renames_respond (s : Session) (peer : Text) (now : Instant) (takes : Takes) (cue : Cue) :
    Renames peer (s.respond now takes cue) ((s.named peer).respond now takes cue) := by
  cases cue with
  | step =>
    simp only [respond, named]
    split
    · exact renames_takeStep ..
    · exact ⟨rfl, rfl⟩
  | wake =>
    simp only [respond, named]
    split <;> exact ⟨rfl, rfl⟩
  | queued => exact renames_takeQueued ..
  | message m => exact renames_takeMessage ..
  | hangup => exact renames_finish ..
  | inputTimeout => exact renames_endWith ..
  | runTimeout => exact renames_endWith ..

theorem restarted_named (s : Session) (peer : Text) (now : Instant) :
    (s.named peer).restarted now = (s.restarted now).named peer := by
  cases phase : s.phase <;> simp [restarted, named, phase]

theorem Regular.named {limit : Nat} (h : s.Regular limit) (peer : Text) :
    (s.named peer).Regular limit :=
  ⟨h.bound, h.limits, h.waits⟩

theorem Regular.of_named {limit : Nat} (h : (s.named peer).Regular limit) : s.Regular limit :=
  ⟨h.bound, h.limits, h.waits⟩

end Session

namespace Conversation

variable {c c' : Conversation} {limit : Nat}

/-- The conversation without the name of the client, and without what has been received and
    logged. -/
def nameless (c : Conversation) : Conversation :=
  { c with session := c.session.named [], received := [], log := [] }

theorem nameless_follow (c : Conversation) (cue : Session.Cue) :
    (c.nameless.follow cue).nameless = (c.follow cue).nameless := by
  obtain ⟨session, told⟩ := Session.renames_respond c.session [] c.instant c.takes cue
  have response : c.nameless.session.respond c.nameless.instant c.nameless.takes cue =
      (c.session.named []).respond c.instant c.takes cue := rfl
  simp only [nameless, follow] at response ⊢
  simp only [response, session, told]
  rfl

theorem told_of_nameless (same : c'.nameless = c.nameless) (cue : Session.Cue) :
    (c'.session.respond c'.instant c'.takes cue).told =
      (c.session.respond c.instant c.takes cue).told := by
  have session : c'.session.named [] = c.session.named [] := congrArg Conversation.session same
  have instant : c'.instant = c.instant := (congrArg Conversation.instant same :)
  have takes : c'.takes = c.takes := (congrArg Conversation.takes same :)
  rw [← (Session.renames_respond c.session [] c.instant c.takes cue).told,
    ← (Session.renames_respond c'.session [] c'.instant c'.takes cue).told, session, instant, takes]

theorem received_follow_of_nameless (same : c'.nameless = c.nameless)
    (received : c'.received = c.received)
    (cue : Session.Cue) : (c'.follow cue).received = (c.follow cue).received := by
  have now : c'.now = c.now := (congrArg Conversation.now same :)
  simp only [follow, told_of_nameless same, now, received]

theorem nameless_post (c : Conversation) (m : Text) :
    (c.nameless.post m).1.nameless = (c.post m).1.nameless := by
  have gone : c.nameless.gone = c.gone := rfl
  have isOver : c.nameless.isOver = c.isOver := rfl
  have inbox : c.nameless.inbox = c.inbox := rfl
  simp only [post, gone, isOver, inbox]
  split
  · rfl
  · split
    · rfl
    · split <;> rfl

theorem nameless_resumed (c : Conversation) :
    c.nameless.resumed.nameless = c.resumed.nameless := by
  change ({ c with
      session := ((c.session.named []).restarted c.instant).named []
      received := []
      log := [] } : Conversation) = _
  rw [Session.restarted_named]
  rfl

theorem nameless_move (c : Conversation) (mv : Move) :
    (c.nameless.move mv).nameless = (c.move mv).nameless := by
  cases mv with
  | post m => exact nameless_post c m
  | pass ms => rfl
  | leave events => rfl
  | resume => exact nameless_resumed c
  | respond =>
    have due : c.nameless.cue? = c.cue? := rfl
    simp only [move, due]
    cases c.cue? with
    | none => rfl
    | some cue => exact nameless_follow c cue

theorem nameless_moves (same : c'.nameless = c.nameless) (schedule : List Move) :
    (c'.moves schedule).nameless = (c.moves schedule).nameless := by
  induction schedule generalizing c c' with
  | nil => exact same
  | cons mv rest ih =>
    refine ih ?_
    rw [← nameless_move c, ← nameless_move c', same]

/-- Whether settling ends has nothing to do with the name. -/
theorem Steady.of_nameless (steady : c.Steady limit) (same : c'.nameless = c.nameless) :
    c'.Steady limit := by
  rintro _ ⟨schedule, rfl⟩
  have regular := steady _ ⟨schedule, rfl⟩
  have session := congrArg Conversation.session (nameless_moves same schedule)
  have named : ((c'.moves schedule).session.named []).Regular limit := by
    change (c'.moves schedule).nameless.session.Regular limit
    rw [session]
    exact regular.named []
  exact named.of_named

end Conversation

end Stepwise

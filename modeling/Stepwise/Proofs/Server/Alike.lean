/-
  Stepwise/Proofs/Server/Alike.lean
  =================================
  **What happens to a client has nothing to do with its name, nor with the number of its session.**

  Two clients are alike if they differ in nothing but these, and what has been logged of them
  (`Alike`).  Whatever is done to both, they stay alike, and whatever they can see is the same.
-/
import Stepwise.Proofs.Server.Requests
import Stepwise.Proofs.Server.Resting

namespace Stepwise

namespace Server

/-- What the link is at, whatever the number of the session. -/
def Attention.nameless : Attention → Attention
  | .waiting => .waiting
  | .served _ => .served 0
  | .cut => .cut

namespace Client

/-- Two clients differ in nothing but their names, their numbers, and what has been logged. -/
structure Alike (c d : Client) : Prop where
  attention : d.attention.nameless = c.attention.nameless
  talk : d.talk.nameless = c.talk.nameless
  received : d.talk.received = c.talk.received
  outbox : d.outbox = c.outbox

variable {c d c' d' : Client} {cue : Session.Cue} {m : Text} {ms n now id id' : Nat}

/-! ### What does not depend on names -/

theorem Alike.isHeldUp (h : Alike c d) : d.isHeldUp = c.isHeldUp := by
  rw [Client.isHeldUp, h.outbox]
  rfl

theorem Alike.isDone (h : Alike c d) : d.isDone = c.isDone := by
  have ended : d.talk.isOver = c.talk.isOver := (congrArg Conversation.isOver h.talk :)
  rw [Client.isDone, ended, h.isHeldUp]
  rfl

theorem Alike.cases (h : Alike c d) :
    (c.attention = .waiting ∧ d.attention = .waiting) ∨
      (∃ id id', c.attention = .served id ∧ d.attention = .served id') ∨
        (c.attention = .cut ∧ d.attention = .cut) := by
  have same := h.attention
  cases link : c.attention <;> cases link' : d.attention <;>
    simp [Attention.nameless, link, link'] at same ⊢

theorem Alike.waiting_iff (h : Alike c d) : d.attention = .waiting ↔ c.attention = .waiting := by
  rcases h.cases with ⟨waiting, waiting'⟩ | ⟨id, id', served, served'⟩ | ⟨cut, cut'⟩
  · simp [waiting, waiting']
  · simp [served, served']
  · simp [cut, cut']

theorem Alike.isActive (h : Alike c d) : d.isActive = c.isActive := by
  rcases h.cases with ⟨waiting, waiting'⟩ | ⟨id, id', served, served'⟩ | ⟨cut, cut'⟩
  · simp only [Client.isActive, waiting, waiting']
  · simp only [Client.isActive, served, served', h.isDone]
  · simp only [Client.isActive, cut, cut']

theorem Alike.isClosed (h : Alike c d) : d.isClosed = c.isClosed := by
  rcases h.cases with ⟨waiting, waiting'⟩ | ⟨id, id', served, served'⟩ | ⟨cut, cut'⟩
  · simp only [Client.isClosed, waiting, waiting']
  · simp only [Client.isClosed, served, served', h.isDone]
  · simp only [Client.isClosed, cut, cut']

/-- A move is the same for both. -/
theorem Alike.nameless_move (h : Alike c d) (mv : Conversation.Move) :
    (d.talk.move mv).nameless = (c.talk.move mv).nameless := by
  rw [← Conversation.nameless_move c.talk, ← Conversation.nameless_move d.talk, h.talk]

/-! ### What the session does -/

theorem Alike.follow (h : Alike c d) (cue : Session.Cue) : Alike (c.follow cue) (d.follow cue) where
  attention := h.attention
  talk := by
    have followed : (d.talk.follow cue).nameless = (c.talk.follow cue).nameless := by
      rw [← Conversation.nameless_follow c.talk, ← Conversation.nameless_follow d.talk, h.talk]
    exact followed
  received := rfl
  outbox := by
    have received := Conversation.received_follow_of_nameless h.talk h.received cue
    change d.outbox.tell _ = c.outbox.tell _
    rw [h.outbox]
    exact congrArg (fun l => c.outbox.tell (l.reverse.map (·.2))) received

theorem Alike.settleWithin (h : Alike c d) (fuel : Nat) :
    Alike (settleWithin fuel c) (settleWithin fuel d) := by
  induction fuel generalizing c d with
  | zero => exact h
  | succ fuel ih =>
    have due : d.talk.cue? = c.talk.cue? := (congrArg Conversation.cue? h.talk :)
    rw [Client.settleWithin, Client.settleWithin, h.isHeldUp, due]
    split
    · exact h
    · cases c.talk.cue? with
      | none => exact h
      | some cue => exact ih (h.follow cue)

theorem Alike.goOn (h : Alike c d) : Alike c.goOn d.goOn := by
  simp only [Client.goOn, h.isHeldUp, h.outbox]
  split
  · exact ⟨h.attention, h.nameless_move .resume, h.received, rfl⟩
  · exact ⟨h.attention, h.talk, h.received, rfl⟩

theorem Alike.settle (h : Alike c d) : Alike c.settle d.settle := by
  have patience : d.talk.patience = c.talk.patience := (congrArg Conversation.patience h.talk :)
  rw [Client.settle, Client.settle, patience]
  exact h.goOn.settleWithin _

theorem Alike.respond (h : Alike c d) : Alike c.respond d.respond := by
  rcases h.cases with ⟨waiting, waiting'⟩ | ⟨id, id', served, served'⟩ | ⟨cut, cut'⟩
  · simpa only [Client.respond, waiting, waiting'] using h
  · simpa only [Client.respond, served, served'] using h.settle
  · simpa only [Client.respond, cut, cut'] using h

theorem Alike.pickUp (h : Alike c d) (now id id' : Nat) :
    Alike (c.pickUp now id) (d.pickUp now id') := by
  refine settle ⟨rfl, ?_, h.received, h.outbox⟩
  exact congrArg (fun t : Conversation => { t with now }) h.talk

theorem Alike.cutOff (h : Alike c d) : Alike c.cutOff d.cutOff :=
  ⟨rfl, h.talk, h.received, h.outbox⟩

theorem Alike.lastTurn (h : Alike c d) : Alike c.lastTurn d.lastTurn := by
  simp only [Client.lastTurn, h.isHeldUp]
  split
  · exact respond ⟨h.attention, h.talk, h.received, congrArg (Outbox.limited · turnSize) h.outbox⟩
  · exact h

theorem Alike.skip (h : Alike c d) (ms : Nat) : Alike (c.skip ms) (d.skip ms) := by
  simp only [Client.skip, h.isActive]
  split
  · exact ⟨h.attention, h.nameless_move (.pass ms), h.received, h.outbox⟩
  · exact h

theorem Alike.tick (h : Alike c d) : Alike c.tick d.tick := (h.skip 1).respond

theorem Alike.tick_iterate (h : Alike c d) (n : Nat) :
    Alike (Client.tick^[n] c) (Client.tick^[n] d) := by
  induction n with
  | zero => exact h
  | succ n ih =>
    rw [Function.iterate_succ_apply', Function.iterate_succ_apply']
    exact ih.tick

/-! ### What the client does -/

theorem received_post (t : Conversation) (m : Text) : (t.post m).1.received = t.received := by
  rcases Conversation.History.post_cases t m with ⟨same, -⟩ | posted
  · rw [same]
  · rw [posted]

theorem Alike.send (h : Alike c d) (m : Text) :
    (∃ e, c.send m = .error e ∧ d.send m = .error e) ∨
      ∃ c' d', c.send m = .ok c' ∧ d.send m = .ok d' ∧ Alike c' d' := by
  have gone : d.talk.gone = c.talk.gone := (congrArg Conversation.gone h.talk :)
  simp only [Client.send, gone, h.isClosed]
  split
  · exact .inl ⟨_, rfl, rfl⟩
  · refine .inr ⟨_, _, rfl, rfl, respond ⟨h.attention, h.nameless_move (.post m), ?_, h.outbox⟩⟩
    rw [received_post, received_post, h.received]

theorem Alike.leave (h : Alike c d) : Alike c.leave d.leave := by
  have left : Alike { c with talk := c.talk.leaveAfter 0 } { d with talk := d.talk.leaveAfter 0 } :=
    ⟨h.attention, h.nameless_move (.leave 0), h.received, h.outbox⟩
  simp only [Client.leave, h.isHeldUp]
  split
  · exact left.cutOff
  · exact left.respond

theorem Alike.takeAll (h : Alike c d) :
    d.takeAll.1 = c.takeAll.1 ∧ Alike c.takeAll.2 d.takeAll.2 := by
  have taken : d.outbox.take = c.outbox.take := congrArg Outbox.take h.outbox
  refine ⟨(congrArg Prod.fst taken :), h.attention, h.talk, h.received, ?_⟩
  exact (congrArg Prod.snd taken :)

end Client

end Server

end Stepwise

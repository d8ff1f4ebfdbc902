/-
  Stepwise/Server/Outbox.lean
  ===========================
  **What a session has told its client and the client has not taken.**

  A link has room for a number of events.  Those that are told beyond it are held back,
  in order, and come onto the link when the client has taken what was there and the link
  is filled again.  Taking does not fill the link by itself: that is the session's doing,
  and it happens when the session has its turn.
-/
import Stepwise.Protocol.Event

namespace Stepwise

namespace Server

structure Outbox where
  /-- Events on the link, the last one first. -/
  onLink : List Event := []
  room : Nat := 1024
  /-- Events that the link has had no room for, the oldest first. -/
  heldBack : List Event := []
deriving DecidableEq, Repr

namespace Outbox

def capacity : Nat := ({} : Outbox).room

def isBlocked (o : Outbox) : Bool := !o.heldBack.isEmpty

/-- Put events onto a link with given room until there is none. -/
def put (onLink : List Event) : Nat → List Event → Outbox
  | room, [] => { onLink, room }
  | 0, events => { onLink, room := 0, heldBack := events }
  | room + 1, event :: rest => put (event :: onLink) room rest

/-- Tell events, after those that are held back. -/
def tell (o : Outbox) (events : List Event) : Outbox :=
  put o.onLink o.room (o.heldBack ++ events)

def fill (o : Outbox) : Outbox := o.tell []

/-- The outbox with room on the link for at most a number of further events. -/
def limited (o : Outbox) (room : Nat) : Outbox := { o with room := min o.room room }

def take (o : Outbox) : List Event × Outbox :=
  (o.onLink.reverse, { heldBack := o.heldBack })

end Outbox

end Server

end Stepwise

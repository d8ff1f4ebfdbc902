/-
  Stepwise/Server/Transport.lean
  ==============================
  **Transports: where clients connect, and the channels their links arrive on.**

  A transport has an address and hands out clients.  It is started once, with a channel
  that its links go to, and keeps that channel for good: a second start fails, whatever
  has become of the channel since.  Clients of one transport are numbered in the order in
  which they connect.

  A server starts the transports of its roster in order, all with one channel.  It stops
  at the first that is started already; the ones before it then stay started, on a
  channel that nobody holds.
-/
import Stepwise.Text.Numeral

namespace Stepwise

inductive TransportError where
  | closed
  | alreadyStarted
deriving DecidableEq, Repr

namespace TransportError

def kind : TransportError → Text
  | closed => "Closed".toList
  | alreadyStarted => "AlreadyStarted".toList

def message : TransportError → Text
  | closed => "link closed".toList
  | alreadyStarted => "transport already started".toList

end TransportError

/-- The number of a channel that links arrive on. -/
abbrev Channel := Nat

structure Transport where
  address : Text
  channel : Option Channel := none
  clients : Nat := 0
deriving DecidableEq, Repr

namespace Transport

def isStarted (t : Transport) : Bool := t.channel.isSome

def start (t : Transport) (channel : Channel) : Except TransportError Transport :=
  if t.isStarted then .error .alreadyStarted else .ok { t with channel := some channel }

def peerName (t : Transport) (client : Nat) : Text := t.address ++ '#' :: Text.ofNat client

def counted (t : Transport) : Transport := { t with clients := t.clients + 1 }

/-- Start the transports with the given positions, in order, on one channel, until one
    cannot be started.  A position without a transport is passed over. -/
def startAll (channel : Channel) (transports : List Transport) :
    List Nat → List Transport × Option TransportError
  | [] => (transports, none)
  | position :: rest =>
    match transports[position]? with
    | none => startAll channel transports rest
    | some t =>
      match t.start channel with
      | .error e => (transports, some e)
      | .ok t => startAll channel (transports.set position t) rest

end Transport

end Stepwise

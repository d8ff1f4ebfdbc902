/-
  Stepwise/Session/Conversation.lean
  ==================================
  **A session and its client under one clock.**

  A conversation is a session together with the link to its client: the messages on
  their way to the session, whether the client has left, and everything it has received.
  The clock counts whole milliseconds.  Nothing that the two do takes time, so at any
  moment the session responds to cues until none is due (`settle`), and only then may the
  clock go on (`tick`).  A timer of the session therefore fires at the first whole
  millisecond at or after its moment.  Milliseconds in which no timer fires change nothing
  but the clock, and are passed over all at once (`elapse`).

  Settling ends because every step is counted against the limit of the machine.  Without
  such a limit a program that never pauses would keep the session busy for ever at one
  moment; then settling gives up after a number of responses that no run comes near.
-/
import Stepwise.Session.Basic

namespace Stepwise

/-- A session, the link to its client, and the clock. -/
structure Conversation where
  now : Nat := 0
  session : Session
  /-- Messages that the session has not taken yet, the oldest first. -/
  inbox : List Text := []
  /-- Number of events that the client receives before it leaves, if it is to leave. -/
  takes : Session.Takes := none
  /-- Events that the client has received, with the time of each, the last one first. -/
  received : List (Nat × Event) := []
  /-- What the session has logged, the last entry first. -/
  log : List Log.Entry := []
deriving DecidableEq, Repr

namespace Conversation

def instant (c : Conversation) : Instant := Duration.ofMillis c.now

def gone (c : Conversation) : Bool := c.takes.gone

def isOver (c : Conversation) : Bool := c.session.isOver

/-- The conversation with the session's pause or wait begun at this moment. -/
def resumed (c : Conversation) : Conversation :=
  { c with session := c.session.restarted c.instant }

/-! ### The session's side -/

def cue? (c : Conversation) : Option Session.Cue := c.session.cue? c.instant c.inbox c.gone

/-- The messages left when a cue has been responded to. -/
def inboxAfter (inbox : List Text) : Session.Cue → List Text
  | .message _ => inbox.tail
  | _ => inbox

def follow (c : Conversation) (cue : Session.Cue) : Conversation :=
  let response := c.session.respond c.instant c.takes cue
  { c with
    session := response.session
    inbox := inboxAfter c.inbox cue
    takes := c.takes.after response.told.length
    received := (response.told.map fun e => (c.now, e)).reverse ++ c.received
    log := response.log.reverse ++ c.log }

/-- Respond to cues, at most a given number of them, until none is due. -/
def settleWithin : Nat → Conversation → Conversation
  | 0, c => c
  | fuel + 1, c =>
    match c.cue? with
    | none => c
    | some cue => settleWithin fuel (c.follow cue)

/-- Responses after which settling gives up if the machine has no limit of its own. -/
def unlimitedPatience : Nat := 1000000000000

/-- A number of responses that settling never needs: each executed instruction takes at
    most three (the step, the answer to a read, the end of a pause), each message one,
    and a few more are taken at either end. -/
def patience (c : Conversation) : Nat :=
  match c.session.config.limits.maxSteps with
  | some limit => 3 * (limit + 2) + c.inbox.length + 2
  | none => unlimitedPatience

def settle (c : Conversation) : Conversation := settleWithin c.patience c

/-! ### Time -/

def tick (c : Conversation) : Conversation := settle { c with now := c.now + 1 }

/-- Of a number of milliseconds, how many pass before one in which a timer may fire. -/
def quiet (c : Conversation) (ms : Nat) : Nat :=
  match c.session.alarm? with
  | none => ms
  | some alarm => min ms (Duration.inMillis alarm - (c.now + 1))

def skip (c : Conversation) (ms : Nat) : Conversation := { c with now := c.now + ms }

/-- Milliseconds pass, in at most a given number of turns; each turn passes over those
    in which nothing happens and ends with one in which something may. -/
def elapseWithin : Nat → Nat → Conversation → Conversation
  | 0, _, c => c
  | _, 0, c => c
  | turns + 1, ms + 1, c =>
    if c.isOver then c
    else
      let quiet := c.quiet ms
      elapseWithin turns (ms - quiet) (c.skip quiet).tick

/-- Milliseconds pass, but none after the end of the session.  There are not more turns
    than milliseconds. -/
def elapse (ms : Nat) (c : Conversation) : Conversation := elapseWithin ms ms c

/-! ### The client's side -/

def linkCapacity : Nat := 64

inductive Sent where
  | ok
  | full
  | closed
  | dropped
deriving DecidableEq, Repr

def post (c : Conversation) (message : Text) : Conversation × Sent :=
  if c.gone then (c, .dropped)
  else if c.isOver then (c, .closed)
  else if linkCapacity ≤ c.inbox.length then (c, .full)
  else ({ c with inbox := c.inbox ++ [message] }, .ok)

def postAll (c : Conversation) : List Text → Conversation × List Sent
  | [] => (c, [])
  | message :: rest =>
    let (c, sent) := c.post message
    let (c, more) := c.postAll rest
    (c, sent :: more)

def leaveAfter (c : Conversation) (events : Nat) : Conversation :=
  { c with takes := c.takes.atMost events }

inductive Action where
  /-- Send messages, all before the session sees any of them. -/
  | send (messages : List Text)
  | sleep (ms : Nat)
  | drop
  | dropAfter (events : Nat)
deriving DecidableEq, Repr

def act (c : Conversation) : Action → Conversation × List Sent
  | .send messages =>
    let (c, sent) := c.postAll messages
    (c.settle, sent)
  | .sleep ms => (c.elapse ms, [])
  | .drop => (settle (c.leaveAfter 0), [])
  | .dropAfter events => (settle (c.leaveAfter events), [])

structure Snapshot where
  now : Nat
  sent : List Sent
  events : Nat
  ended : Bool
deriving DecidableEq, Repr

/-- The client does things one after the other; with the conversation comes what can be
    seen after each. -/
def actAll (c : Conversation) : List Action → Conversation × List Snapshot
  | [] => (c, [])
  | action :: rest =>
    let (c, sent) := c.act action
    let snapshot : Snapshot :=
      { now := c.now, sent, events := c.received.length, ended := c.isOver }
    let (c, more) := c.actAll rest
    (c, snapshot :: more)

def opened (peer : Text) (config : Session.Config) (seed : Int) : Conversation :=
  { session := .start peer config seed }

/-- A whole conversation: the client does things one after the other, and then leaves. -/
def play (c : Conversation) (actions : List Action) : Conversation × List Snapshot :=
  let (c, snapshots) := c.actAll actions
  ((c.act .drop).1, snapshots)

end Conversation

end Stepwise

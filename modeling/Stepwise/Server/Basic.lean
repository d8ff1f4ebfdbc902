/-
  Stepwise/Server/Basic.lean
  ==========================
  **A server, its transports and its clients under one clock.**

  Starting a server opens a channel; serving picks up the links that arrive on it and
  gives each a session of its own, under a number that is never used again.  The registry
  holds the sessions that are not over, with the names of their clients.  Sessions share
  nothing: between a client and its own session everything goes as in a conversation of
  the two alone.

  Except for one thing: the client of a conversation takes every event at once, and the
  client of a server takes events when it likes.  A session that has more to tell than the
  link has room for is held up: it tells what fits, and neither time nor messages move it
  until the client has taken what is there.

  Links that arrive before the server serves wait on the channel, with the messages that
  their clients send meanwhile.  When the server is shut down it gives up its channel:
  sessions end without a word, waiting links are closed, and nobody can connect any more.
-/
import Stepwise.Server.Outbox
import Stepwise.Server.Transport
import Stepwise.Session.Conversation

namespace Stepwise

namespace Server

inductive Stage where
  | created
  /-- Links arrive on its channel and wait. -/
  | started (channel : Channel)
  /-- It picks up links as they arrive. -/
  | serving (channel : Channel)
  | stopped
deriving DecidableEq, Repr

def Stage.channel? : Stage → Option Channel
  | .started channel | .serving channel => some channel
  | .created | .stopped => none

inductive Attention where
  | waiting
  | served (id : Nat)
  /-- It is closed, and so was its session, if it had one. -/
  | cut
deriving DecidableEq, Repr

structure Client where
  attention : Attention := .waiting
  /-- Its conversation, all of whose events have been handed to the outbox.  While the
      link waits nothing happens in it but messages arriving. -/
  talk : Conversation
  outbox : Outbox := {}
deriving DecidableEq, Repr

namespace Client

def isHeldUp (c : Client) : Bool := c.outbox.isBlocked

/-- The session is over, and all that it had to tell has come onto the link. -/
def isDone (c : Client) : Bool := c.talk.isOver && !c.isHeldUp

def isActive (c : Client) : Bool :=
  match c.attention with
  | .served _ => !c.isDone
  | _ => false

/-- Nothing more can come from the server. -/
def isClosed (c : Client) : Bool :=
  match c.attention with
  | .waiting => false
  | .served _ => c.isDone
  | .cut => true

/-! ### The session's side -/

def handOn (c : Client) : Client where
  attention := c.attention
  talk := { c.talk with received := [] }
  outbox := c.outbox.tell (c.talk.received.reverse.map (·.2))

def follow (c : Client) (cue : Session.Cue) : Client :=
  handOn { c with talk := c.talk.follow cue }

/-- Respond to cues, at most a given number of them, until none is due or the session is
    held up. -/
def settleWithin : Nat → Client → Client
  | 0, c => c
  | fuel + 1, c =>
    if c.isHeldUp then c
    else
      match c.talk.cue? with
      | none => c
      | some cue => settleWithin fuel (c.follow cue)

/-- A session that is held up goes on telling.  When it has told all it had to tell, what
    it does next begins at this moment. -/
def goOn (c : Client) : Client :=
  let outbox := c.outbox.fill
  if c.isHeldUp && !outbox.isBlocked then { c with outbox, talk := c.talk.resumed }
  else { c with outbox }

/-- Respond to cues until none is due or the session is held up. -/
def settle (c : Client) : Client := settleWithin c.talk.patience c.goOn

/-- The link is picked up at a moment and gets a session with a number. -/
def pickUp (c : Client) (now id : Nat) : Client :=
  settle { c with attention := .served id, talk := { c.talk with now } }

def respond (c : Client) : Client :=
  match c.attention with
  | .served _ => c.settle
  | _ => c

def cutOff (c : Client) : Client := { c with attention := .cut }

/-- Number of events that a session can tell in one turn when others wait for theirs. -/
def turnSize : Nat := 128

/-- A session that was held up, and for which the client has made room, has one last turn
    before the link is closed. -/
def lastTurn (c : Client) : Client :=
  if c.isHeldUp then respond { c with outbox := c.outbox.limited turnSize } else c

/-! ### Time -/

/-- Of a number of milliseconds, how many pass before one in which something may happen
    by itself. -/
def quiet (c : Client) (ms : Nat) : Nat :=
  if c.isActive && !c.isHeldUp then c.talk.quiet ms else ms

def skip (ms : Nat) (c : Client) : Client :=
  if c.isActive then { c with talk := c.talk.skip ms } else c

def tick (c : Client) : Client := (c.skip 1).respond

/-! ### The client's side -/

def send (c : Client) (message : Text) : Except TransportError Client :=
  if c.talk.gone || c.isClosed then .error .closed
  else .ok (respond { c with talk := (c.talk.post message).1 })

def leave (c : Client) : Client :=
  let left : Client := { c with talk := c.talk.leaveAfter 0 }
  if c.isHeldUp then left.cutOff else left.respond

/-- The client takes the events on the link, the oldest first. -/
def takeAll (c : Client) : List Event × Client :=
  let (events, outbox) := c.outbox.take
  (events, { c with outbox })

end Client

end Server

structure Server where
  config : Session.Config
  seed : Int
  roster : List Nat
  transports : List Transport
  now : Nat := 0
  stage : Server.Stage := .created
  channels : Nat := 0
  sessions : Nat := 0
  /-- Numbers of the sessions that are not over, with the names of their clients. -/
  registry : List (Nat × Text) := []
  /-- Everyone who ever connected, in order. -/
  clients : List Server.Client := []
deriving DecidableEq, Repr

namespace Server

/-- A server over transports that nobody has started, one for each address. -/
def ofAddresses (addresses : List Text) (config : Session.Config) (seed : Int) : Server where
  config := config
  seed := seed
  roster := List.range addresses.length
  transports := addresses.map fun address => { address }

def isServing (s : Server) : Bool :=
  match s.stage with
  | .serving _ => true
  | _ => false

def activeSessions (s : Server) : Nat := s.registry.length

/-! ### Sessions -/

/-- Give every one of some clients its turn, in the order in which they connected: waiting
    links are picked up, and sessions go on. -/
def takeTurns (s : Server) : List Client → Server
  | [] => s
  | c :: rest =>
    match c.attention with
    | .waiting =>
      takeTurns
        { s with
          sessions := s.sessions + 1
          registry := s.registry ++ [(s.sessions, c.talk.session.peer)]
          clients := s.clients ++ [c.pickUp s.now s.sessions] }
        rest
    | _ => takeTurns { s with clients := s.clients ++ [c.respond] } rest

def isLive (s : Server) (id : Nat) : Bool :=
  s.clients.any fun c => c.attention == .served id && c.isActive

def prune (s : Server) : Server :=
  { s with registry := s.registry.filter fun entry => s.isLive entry.1 }

/-- Do what is to be done at this moment, if the server serves: give every client its
    turn, and strike sessions that are over. -/
def settle (s : Server) : Server :=
  if s.isServing then (takeTurns { s with clients := [] } s.clients).prune else s

/-! ### Time -/

/-- Of a number of milliseconds, how many pass before one in which something may happen
    by itself. -/
def quiet (s : Server) (ms : Nat) : Nat := s.clients.foldl (fun n c => min n (c.quiet ms)) ms

def skip (s : Server) (ms : Nat) : Server :=
  { s with now := s.now + ms, clients := s.clients.map (·.skip ms) }

def tick (s : Server) : Server :=
  prune { s with now := s.now + 1, clients := s.clients.map (·.tick) }

/-- Milliseconds pass, in at most a given number of turns; each turn passes over those
    in which nothing happens and ends with one in which something may. -/
def elapseWithin : Nat → Nat → Server → Server
  | 0, _, s => s
  | _, 0, s => s
  | turns + 1, ms + 1, s =>
    let quiet := s.quiet ms
    elapseWithin turns (ms - quiet) (s.skip quiet).tick

/-- Milliseconds pass, after what is to be done at this moment.  There are not more turns
    than milliseconds. -/
def elapse (s : Server) (ms : Nat) : Server := elapseWithin ms ms s.settle

/-! ### What can be asked of a server -/

def start (s : Server) : Server × Option TransportError :=
  let channel := s.channels
  let (transports, error) := Transport.startAll channel s.transports s.roster
  let s := { s with transports, channels := s.channels + 1 }
  match error with
  | some e => (s, some e)
  | none => ({ s with stage := .started channel }, none)

/-- Serve the links that arrive.  Without a transport nothing can ever arrive, and
    serving ends at once. -/
def serve (s : Server) : Server :=
  match s.stage with
  | .started channel =>
    { s with stage := if s.roster.isEmpty then .stopped else .serving channel }
  | _ => s

/-- Shut a serving server down; with the server comes whether it was serving. -/
def shutdown (s : Server) : Server × Bool :=
  if s.isServing then
    let clients := s.clients.map fun c => c.lastTurn.cutOff
    ({ s with stage := .stopped, registry := [], clients }, true)
  else (s, false)

/-- Connect to the transport at a position; with the server comes the number of the new
    client. -/
def connect (s : Server) (position : Nat) : Server × Except TransportError Nat :=
  match s.transports[position]? with
  | none => (s, .error .closed)
  | some t =>
    match t.channel with
    | none => (s, .error .closed)
    | some channel =>
      let counted := { s with transports := s.transports.set position t.counted }
      if s.stage.channel? = some channel then
        let talk := Conversation.opened (t.peerName t.clients) s.config s.seed
        ({ counted with clients := s.clients ++ [{ talk }] }, .ok s.clients.length)
      else (counted, .error .closed)

/-- A client sends a message.  If that ends its session, the session is struck from the
    registry. -/
def send (s : Server) (client : Nat) (message : Text) : Server × Option TransportError :=
  match s.clients[client]? with
  | none => (s, some .closed)
  | some c =>
    match c.send message with
    | .error e => (s, some e)
    | .ok c => (prune { s with clients := s.clients.set client c }, none)

def leave (s : Server) (client : Nat) : Server :=
  prune { s with clients := s.clients.modify client Client.leave }

/-- A client takes the events that it has received; with them comes whether nothing more
    can come. -/
def receive (s : Server) (client : Nat) : Server × List Event × Bool :=
  match s.clients[client]? with
  | none => (s, [], true)
  | some c =>
    if c.talk.gone then (s, [], true)
    else
      let (events, c) := c.takeAll
      ({ s with clients := s.clients.set client c }, events, c.isClosed)

end Server

end Stepwise

/-
  Stepwise/Session/Basic.lean
  ===========================
  **A session: one program, run step by step for one client.**

  A session waits for a source, runs the program, pauses after every step, waits for
  values that the program reads, and ends.  It never acts by itself.  What happens next
  is a *cue*: the turn to take a step, the end of a pause, a queued input, a message, the
  client's leaving, a timeout.  `cue?` says which cue is due in a given situation, and so
  holds every rule about what comes before what; `respond` says what the session makes of
  a cue, and so holds every rule about what is told and what follows.

  The order of cues at one moment:

  - in a pause, the end of the pause comes before the end of the run time, and that
    before messages: a client that sends without end cannot hold back a step, and a pause
    of length zero is over before any message is looked at;
  - in a read, queued inputs come first, then messages, then the input timeout, then the
    end of the run time.

  A client that has left is noticed only when nothing it sent is left to be taken, or
  when something is to be told to it.  It may leave in the middle of a delta: then it has
  been told the first events of that delta and not the others.

  Time is counted in nanoseconds from an arbitrary start.
-/
import Stepwise.Assembly.Decode
import Stepwise.Log
import Stepwise.Protocol.Event
import Stepwise.Protocol.Inbound
import Stepwise.Session.Config

namespace Stepwise

/-- A moment, in nanoseconds from the start of the clock. -/
abbrev Instant := Nat

namespace Session

inductive Outcome where
  | halted
  /-- The source was refused, or the run failed, and the client was told. -/
  | errored
  | disconnected
deriving DecidableEq, Repr

namespace Outcome

def text : Outcome → Text
  | halted => "halted".toList
  | errored => "errored".toList
  | disconnected => "disconnected".toList

end Outcome

structure Run where
  machine : Machine
  /-- The moment at which the run time is used up. -/
  deadline : Instant
  state : Machine.State := {}
deriving DecidableEq, Repr

/-- What a session is at; a pause and a wait for a value began at a moment. -/
inductive Phase where
  | idle
  | ready (run : Run)
  | pacing (run : Run) (since : Instant)
  | awaiting (run : Run) (since : Instant)
  | ended (outcome : Outcome)
deriving DecidableEq, Repr

/-- Something that a session has to respond to. -/
inductive Cue where
  | step
  | wake
  | queued
  | message (m : Text)
  | hangup
  | inputTimeout
  | runTimeout
deriving DecidableEq, Repr

end Session

structure Session where
  peer : Text
  config : Session.Config
  seed : Int
  delay : Duration
  /-- Inputs that no read has taken yet, the oldest first. -/
  inputs : List Text := []
  /-- Number of deltas of steps and answered reads that have been told. -/
  steps : Nat := 0
  phase : Session.Phase := .idle
deriving DecidableEq, Repr

namespace Session

def start (peer : Text) (config : Config) (seed : Int) : Session where
  peer := peer
  config := config
  seed := seed
  delay := config.clampDelay config.delay

def outcome? (s : Session) : Option Outcome :=
  match s.phase with
  | .ended outcome => some outcome
  | _ => none

def isOver (s : Session) : Bool := s.outcome?.isSome

/-- The moment at which a timer of the session fires, if nothing happens before; none if
    without a message or the client's leaving nothing will happen. -/
def alarm? (s : Session) : Option Instant :=
  match s.phase with
  | .pacing run since => some (min (since + s.delay) run.deadline)
  | .awaiting run since => some (min (since + s.config.inputTimeout) run.deadline)
  | _ => none

def restarted (s : Session) (now : Instant) : Session :=
  match s.phase with
  | .pacing run _ => { s with phase := .pacing run now }
  | .awaiting run _ => { s with phase := .awaiting run now }
  | _ => s

def Run.isLate (r : Run) (now : Instant) : Bool := decide (r.deadline ≤ now)

/-! ### What happens next -/

/-- The cue that the client gives: its next message, or that it has left. -/
def clientCue? (inbox : List Text) (gone : Bool) : Option Cue :=
  match inbox with
  | m :: _ => some (.message m)
  | [] => if gone then some .hangup else none

/-- The cue that is due at a moment, given the messages that have arrived (the oldest
    first) and whether the client has left; nothing while the session has to wait. -/
def cue? (s : Session) (now : Instant) (inbox : List Text) (gone : Bool) : Option Cue :=
  match s.phase with
  | .idle => clientCue? inbox gone
  | .ready run => if run.isLate now then some .runTimeout else some .step
  | .pacing run since =>
    if since + s.delay ≤ now then some .wake
    else if run.isLate now then some .runTimeout
    else clientCue? inbox gone
  | .awaiting run since =>
    if !s.inputs.isEmpty then some .queued
    else
      (clientCue? inbox gone).or
        (if since + s.config.inputTimeout ≤ now then some .inputTimeout
          else if run.isLate now then some .runTimeout
          else none)
  | .ended _ => none

/-! ### Responses -/

/-- How many more events the client takes before it leaves; any number while it stays. -/
abbrev Takes := Option Nat

namespace Takes

def gone (takes : Takes) : Bool := takes == some 0

def short? (takes : Takes) (n : Nat) : Option Nat := takes.filter (· < n)

def after (takes : Takes) (n : Nat) : Takes := takes.map (· - n)

def atMost (takes : Takes) (n : Nat) : Takes := some (min n (takes.getD n))

end Takes

/-- What a session makes of a cue: what it is afterwards, what it tells the client, and
    what it logs, both in order. -/
structure Response where
  session : Session
  told : List Event := []
  log : List Log.Entry := []
deriving DecidableEq, Repr

def note (s : Session) (level : Log.Level) (text : Text) : Log.Entry :=
  ⟨level, s.peer ++ ": ".toList ++ text⟩

/-- The session is over; what was told and logged before stands in front. -/
def finish (s : Session) (outcome : Outcome) (told : List Event) (log : List Log.Entry) :
    Response where
  session := { s with phase := .ended outcome }
  told := told
  log := log ++
    [s.note .info
      ("session ".toList ++ outcome.text ++ " after ".toList ++ Text.ofNat s.steps
        ++ " steps".toList)]

/-- End with one last event, unless the client has left. -/
def endWith (s : Session) (takes : Takes) (last : Event) (reason : Text) : Response :=
  let log := [s.note .info reason]
  if takes.gone then s.finish .disconnected [] log else s.finish .errored [last] log

def refuse (s : Session) (takes : Takes) (e : DecodeError) : Response :=
  s.endWith takes (.refused e) ("decode failed: ".toList ++ e.message)

def fail (s : Session) (takes : Takes) (f : Fault) : Response :=
  s.endWith takes (.failed f) ("run failed: ".toList ++ f.message)

def failLate (s : Session) (takes : Takes) : Response :=
  s.fail takes (.exceeded (.runTime s.config.maxRunTime))

/-- Tell a delta and go on; a client that leaves before it has been told all of it ends
    the session instead. -/
def tell (s : Session) (takes : Takes) (d : Machine.Delta) (after : Session → Response) :
    Response :=
  let events := Event.ofDelta d
  match takes.short? events.length with
  | some n => s.finish .disconnected (events.take n) []
  | none =>
    let response := after s
    { response with told := events ++ response.told }

def counted (s : Session) : Session := { s with steps := s.steps + 1 }

/-- What follows a delta that asks for nothing: the end of the session with the end of
    the run, and a pause otherwise. -/
def settleStep (s : Session) (now : Instant) (run : Run) : Response :=
  if run.state.isHalted then s.finish .halted [] []
  else { session := { s with phase := .pacing run now } }

def takeStep (s : Session) (now : Instant) (takes : Takes) (run : Run) : Response :=
  match run.machine.step run.state with
  | .error f => s.fail takes f
  | .ok t =>
    let run := { run with state := t.state }
    s.tell takes t.delta fun s =>
      if t.state.awaiting then { session := { s.counted with phase := .awaiting run now } }
      else s.counted.settleStep now run

def answer (s : Session) (now : Instant) (takes : Takes) (run : Run) (input : Text) : Response :=
  match inputValue input with
  | .error f => s.fail takes f
  | .ok v =>
    match run.machine.resume run.state v with
    | .error f => s.fail takes f
    | .ok t =>
      s.tell takes t.delta fun s => s.counted.settleStep now { run with state := t.state }

/-! ### Messages -/

def setDelay (s : Session) (requested : Duration) : Response :=
  let granted := s.config.clampDelay requested
  { session := { s with delay := granted }
    log :=
      if granted < requested then
        [s.note .warn
          ("delay ".toList ++ Duration.brief requested ++ " clamped to ".toList
            ++ Duration.brief granted)]
      else [] }

/-- Pass over a directive that says nothing. -/
def ignore (s : Session) (e : DirectiveError) : Response where
  session := s
  log := [s.note .warn ("ignoring message: ".toList ++ e.message)]

def enqueue (s : Session) (input : Text) : Response :=
  if s.config.inputQueue ≤ s.inputs.length then
    { session := s
      log := [s.note .warn ("input queue full, dropping ".toList ++ (Text.trim input).quoted)] }
  else { session := { s with inputs := s.inputs ++ [input] } }

/-- Run a program from its start, the seed first if the settings ask for it. -/
def startRun (s : Session) (now : Instant) (takes : Takes) (program : Program) : Response :=
  let machine : Machine := { program, limits := s.config.limits }
  let run : Run := { machine, deadline := now + s.config.maxRunTime }
  if s.config.seedInput then
    match machine.seed run.state s.seed with
    | .error f => s.fail takes f
    | .ok t =>
      s.tell takes t.delta fun s =>
        { session := { s with phase := .ready { run with state := t.state } } }
  else { session := { s with phase := .ready run } }

def takeSource (s : Session) (now : Instant) (takes : Takes) (source : Text) : Response :=
  match decode source with
  | .error e => s.refuse takes e
  | .ok program =>
    let response := s.startRun now takes program
    let announcement :=
      s.note .debug
        ("running ".toList ++ Text.ofNat program.size ++ " instructions, delay ".toList
          ++ Duration.brief s.delay)
    { response with log := announcement :: response.log }

/-- Take a text for what the phase makes of it: the source, an input for later, or the
    answer to a read. -/
def takeText (s : Session) (now : Instant) (takes : Takes) (text : Text) : Response :=
  match s.phase with
  | .idle => s.takeSource now takes text
  | .awaiting run _ => s.answer now takes run text
  | .ready _ | .pacing _ _ => s.enqueue text
  | .ended _ => { session := s }

def takeMessage (s : Session) (now : Instant) (takes : Takes) (message : Text) : Response :=
  match Inbound.parse message with
  | .error e => s.ignore e
  | .ok (.delay d) => s.setDelay d
  | .ok (.text t) => s.takeText now takes t

/-! ### The response to a cue -/

def takeQueued (s : Session) (now : Instant) (takes : Takes) : Response :=
  match s.phase, s.inputs with
  | .awaiting run _, input :: rest => answer { s with inputs := rest } now takes run input
  | _, _ => { session := s }

/-- What the session makes of a cue at a moment.  A cue that the phase does not know
    changes nothing. -/
def respond (s : Session) (now : Instant) (takes : Takes) : Cue → Response
  | .step =>
    match s.phase with
    | .ready run => s.takeStep now takes run
    | _ => { session := s }
  | .wake =>
    match s.phase with
    | .pacing run _ => { session := { s with phase := .ready run } }
    | _ => { session := s }
  | .queued => s.takeQueued now takes
  | .message m => s.takeMessage now takes m
  | .hangup => s.finish .disconnected [] []
  | .inputTimeout => s.fail takes (.exceeded (.inputTimeout s.config.inputTimeout))
  | .runTimeout => s.failLate takes

end Session

end Stepwise

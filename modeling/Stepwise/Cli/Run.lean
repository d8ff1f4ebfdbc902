/-
  Stepwise/Cli/Run.lean
  =====================
  **The command that runs a program in the terminal.**

  The program goes through a session like any other: the command is its client, sends it
  the source, shows every event, and answers every request with a line of its standard
  input, for which it prompts on the error stream.  When the input has ended the client
  leaves.  The command succeeds if the program reaches its end.

  A line that is taken for a directive answers nothing.  The command does not prompt
  again for the same request; it waits with the session until that gives up.  A source
  that is taken for a directive is never run, and then the command waits for ever.
-/
import Stepwise.Assembly.Diagnostic
import Stepwise.Cli.Exit
import Stepwise.Session.Conversation

namespace Stepwise

namespace Cli

namespace Run

def usage (program : Text) : Text :=
  unlines
    ["Program Runner".toList,
     [],
     "USAGE:".toList,
     "    ".toList ++ program ++ " <program.asm> [OPTIONS]".toList,
     [],
     "ARGS:".toList,
     "    <program.asm>    Program source file to run".toList,
     [],
     "OPTIONS:".toList,
     "    --delay <secs>    Pause between steps (defaults to 0)".toList,
     "    --seed-input      Push a random value in 1..=100 before the first step".toList,
     "    -h, --help        Print this help message".toList,
     [],
     "ENVIRONMENT:".toList,
     "    ".toList ++ levelVariable ++ "    Minimum log level (debug, info, warn, error)".toList,
     [],
     "EXAMPLES:".toList,
     "    # Run as fast as possible".toList,
     "    ".toList ++ program ++ " countdown.asm".toList,
     [],
     "    # Watch it step twice a second".toList,
     "    ".toList ++ program ++ " countdown.asm --delay 0.5".toList]

/-! ### Options -/

inductive OptionsError where
  | missingDelay
  | invalidDelay (value : Text)
  | unexpectedArgument (argument : Text)
deriving DecidableEq, Repr

namespace OptionsError

def message : OptionsError → Text
  | missingDelay => "--delay requires an argument".toList
  | invalidDelay value =>
    "Invalid delay: '".toList ++ value ++ "' is not a number of seconds".toList
  | unexpectedArgument argument => "Unexpected argument: ".toList ++ argument ++ ['\n']

def showsUsage : OptionsError → Bool
  | unexpectedArgument _ => true
  | _ => false

end OptionsError

def defaults : Session.Config := { delay := 0 }

def readOptions (config : Session.Config) : List Text → Except OptionsError Session.Config
  | [] => .ok config
  | flag :: rest =>
    if flag = "--delay".toList then
      match rest with
      | [] => .error .missingDelay
      | value :: rest =>
        match Duration.parse? value with
        | none => .error (.invalidDelay value)
        | some d => readOptions { config with delay := config.clampDelay d } rest
    else if flag = "--seed-input".toList then readOptions { config with seedInput := true } rest
    else .error (.unexpectedArgument flag)

/-! ### The client -/

/-- Milliseconds after which a run that has begun is over. -/
def runMillis (config : Session.Config) : Nat := config.maxRunTime / Duration.perMilli + 1

def isAwaiting (c : Conversation) : Bool :=
  match c.session.phase with
  | .awaiting _ _ => true
  | _ => false

def waitForRequest : Nat → Conversation → Conversation
  | 0, c => c
  | ms + 1, c => if c.isOver || isAwaiting c then c else waitForRequest ms c.tick

/-- The target of the request that the client has received last. -/
def lastTarget (c : Conversation) : Text :=
  match c.received with
  | (_, .requested target) :: _ => target.text
  | _ => []

/-- Write what the session has logged since it was last written. -/
def flush (minimum : Log.Level) (screen : Screen) (c : Conversation) : Screen × Conversation :=
  (screen.logAll minimum c.log.reverse, { c with log := [] })

/-- Wait for the next request or the end of the session, write what was logged
    meanwhile, and prompt if there is a request. -/
def approach (minimum : Log.Level) (screen : Screen) (c : Conversation) : Screen × Conversation :=
  let (screen, c) := flush minimum screen (waitForRequest (runMillis c.session.config) c)
  if isAwaiting c then (screen.warn ("input for ".toList ++ lastTarget c ++ "> ".toList), c)
  else (screen, c)

def attend (minimum : Log.Level) (screen : Screen) (c : Conversation) :
    List Text → Screen × Conversation
  | [] =>
    let (screen, c) := approach minimum screen c
    if isAwaiting c then flush minimum screen (c.act .drop).1 else (screen, c)
  | line :: rest =>
    let (screen, c) := approach minimum screen c
    if !isAwaiting c then (screen, c)
    else
      let answered := (c.act (.send [line])).1
      if answered.session.steps = c.session.steps then
        flush minimum screen (answered.elapse (runMillis c.session.config))
      else
        let (screen, answered) := flush minimum screen answered
        attend minimum screen answered rest

def opening (config : Session.Config) (seed : Int) (source : Text) : Conversation :=
  ((Conversation.opened "terminal#0".toList config seed).act (.send [source])).1

def exitCode : Session.Outcome → Nat
  | .halted => 0
  | _ => 1

def report (s : Session) (outcome : Session.Outcome) : Log.Entry :=
  ⟨.info, "Run ".toList ++ outcome.text ++ " after ".toList ++ Text.ofNat s.steps
    ++ " steps".toList⟩

/-- Run a source that is known to decode, and show all of it; nothing if the session
    never ends. -/
def play (minimum : Log.Level) (screen : Screen) (config : Session.Config) (seed : Int)
    (source : Text) (input : List Text) : Option Exit :=
  let (screen, c) := attend minimum screen (opening config seed source) input
  c.session.outcome?.map fun outcome =>
    let screen := screen.print (c.received.reverse.map fun entry => entry.2.line)
    { code := exitCode outcome, screen := screen.log minimum (report c.session outcome) }

/-! ### The command -/

structure Settings where
  path : Text
  minimum : Log.Level
  config : Session.Config
deriving DecidableEq, Repr

def failWith (text : Text) : Exit where
  code := 1
  screen := Screen.log {} .error ⟨.error, text⟩

def minimumLevel (environment : Option Text) : Except Exit Log.Level :=
  match environment with
  | none => .ok .info
  | some value =>
    match Log.Level.parse? value with
    | some l => .ok l
    | none =>
      .error { code := 1, screen := Screen.warnLine {} (Log.Level.unknownMessage value) }

def sessionConfig (program : Text) (options : List Text) : Except Exit Session.Config :=
  match readOptions defaults options with
  | .ok config => .ok config
  | .error e =>
    let stopped := failWith e.message
    .error
      (if e.showsUsage then { stopped with screen := stopped.screen.warnLine (usage program) }
        else stopped)

/-- What the command is asked for, or how it ends without running anything.  Help is
    given only where the source file would stand. -/
def settings (program : Text) (arguments : List Text) (environment : Option Text) :
    Except Exit Settings :=
  match arguments with
  | [] => .error { code := 1, screen := Screen.warnLine {} (usage program) }
  | path :: options =>
    if path = "--help".toList ∨ path = "-h".toList then
      .error { code := 0, screen := Screen.warnLine {} (usage program) }
    else do
      let minimum ← minimumLevel environment
      let config ← sessionConfig program options
      return { path, minimum, config }

/-- The source in a file, and what is written when it decodes; or how the command ends
    because the file cannot be read or is refused. -/
def load (settings : Settings) (file : Except Text Text) : Except Exit (Text × Screen) :=
  match file with
  | .error reason =>
    .error (failWith ("Failed to read ".toList ++ settings.path ++ ": ".toList ++ reason))
  | .ok source =>
    match decode source with
    | .error e =>
      .error { code := 1, screen := Screen.warn {} (Diagnostic.render settings.path source e) }
    | .ok program =>
      .ok (source,
        Screen.log {} settings.minimum
          ⟨.info, "Decoded ".toList ++ settings.path ++ " (".toList ++ Text.ofNat program.size
            ++ " instructions)".toList⟩)

structure Surroundings where
  level : Option Text := none
  contents : Text → Except Text Text
  input : Text := []
  seed : Int := 1

/-- The whole command: its name, its arguments, and what is around it; nothing if it
    waits for ever. -/
def command (program : Text) (arguments : List Text) (s : Surroundings) : Option Exit :=
  match settings program arguments s.level with
  | .error stopped => some stopped
  | .ok settings =>
    match load settings (s.contents settings.path) with
    | .error stopped => some stopped
    | .ok (source, screen) =>
      play settings.minimum screen settings.config s.seed source s.input.lines

end Run

end Cli

end Stepwise

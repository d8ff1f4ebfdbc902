/-
  Stepwise/Main.lean
  ==================
  **The program: two commands in one executable.**

  `run` plays a source file in the terminal and keeps the pace: the clock of the
  conversation goes on by one millisecond when a millisecond has passed.  `serve` reads
  the settings of a server.  Everything that is decided is decided in the library; here
  it is read, written and waited for.
-/
import Stepwise.Cli.Run
import Stepwise.Cli.Serve

namespace Stepwise

namespace Cli

def writeExit (e : Exit) : IO UInt32 := do
  for line in e.screen.out do
    IO.println (String.ofList line)
  IO.eprint (String.ofList e.screen.err)
  return UInt32.ofNat e.code

def writeNews (minimum : Log.Level) (shown : Nat) (c : Conversation) : IO Conversation := do
  for entry in c.received.reverse.drop shown do
    IO.println (String.ofList entry.2.line)
  let (screen, c) := Run.flush minimum {} c
  IO.eprint (String.ofList screen.err)
  return c

/-- Read a line of the standard input, without its line end; nothing at the end. -/
def readLine? : IO (Option Text) := do
  let line ← (← IO.getStdin).getLine
  return (Text.lines line.toList).head?

/-- Go on with a conversation until the session is over.  When a line has answered
    nothing, there is no further prompt for the same request. -/
partial def attendLive (minimum : Log.Level) (shown : Nat) (muted : Bool) (c : Conversation) :
    IO Conversation := do
  let c ← writeNews minimum shown c
  let shown := c.received.length
  if c.isOver then
    return c
  else if Run.isAwaiting c && !muted then
    IO.eprint (String.ofList ("input for ".toList ++ Run.lastTarget c ++ "> ".toList))
    match ← readLine? with
    | none => attendLive minimum shown muted (c.act .drop).1
    | some line =>
      let answered := (c.act (.send [line])).1
      attendLive minimum shown (answered.session.steps == c.session.steps) answered
  else
    IO.sleep 1
    attendLive minimum shown muted c.tick

def readSource (path : Text) : IO (Except Text Text) := do
  try
    return .ok (← IO.FS.readFile (String.ofList path)).toList
  catch e =>
    return .error (toString e).toList

def readLevel : IO (Option Text) := do
  return (← IO.getEnv (String.ofList levelVariable)).map String.toList

def runMain (arguments : List Text) : IO UInt32 := do
  match Run.settings "run".toList arguments (← readLevel) with
  | .error stopped => writeExit stopped
  | .ok settings =>
    match Run.load settings (← readSource settings.path) with
    | .error stopped => writeExit stopped
    | .ok (source, screen) =>
      IO.eprint (String.ofList screen.err)
      let seed ← IO.rand 1 100
      let c ← attendLive settings.minimum 0 false (Run.opening settings.config seed source)
      match c.session.outcome? with
      | none => return 1
      | some outcome =>
        let report := Screen.log {} settings.minimum (Run.report c.session outcome)
        IO.eprint (String.ofList report.err)
        return UInt32.ofNat (Run.exitCode outcome)

def serveMain (arguments : List Text) : IO UInt32 := do
  match Serve.prepare "serve".toList arguments (← readLevel) with
  | .error stopped => writeExit stopped
  | .ok options =>
    IO.eprintln ("no sockets here: nothing listens on " ++ String.ofList options.listen.text)
    return 1

end Cli

end Stepwise

def main (args : List String) : IO UInt32 := do
  match args.map String.toList with
  | command :: arguments =>
    if command = "run".toList then Stepwise.Cli.runMain arguments
    else if command = "serve".toList then Stepwise.Cli.serveMain arguments
    else
      IO.eprintln "the first argument is run or serve"
      return 1
  | [] =>
    IO.eprintln "the first argument is run or serve"
    return 1

/-
  Stepwise/Server/Options.lean
  ============================
  **The settings of a server, and the command line they are read from.**

  The environment may name a log level, which is read first.  The first argument may be
  the address to listen on, if it does not start with a dash.  All others are options:
  `--seed-input` stands alone, every other one takes the next argument as its value,
  whatever that looks like.  Where an option is given more than once the last one counts.
  The pause is held against the longest pause only when all options have been read.
-/
import Stepwise.Server.Address
import Stepwise.Session.Config
import Stepwise.Log

namespace Stepwise

namespace Server

structure Options where
  listen : Address := .v4 [127, 0, 0, 1] 7000
  /-- The largest frame that is accepted, in bytes. -/
  maxFrame : Nat := 65536
  logLevel : Log.Level := .info
  session : Session.Config := {}
deriving DecidableEq, Repr

inductive OptionsError where
  | missingValue (flag : Text)
  | invalidValue (flag value : Text)
  | invalidAddress (argument : Text)
  | unexpectedArgument (argument : Text)
  | invalidLogLevel (value : Text)
deriving DecidableEq, Repr

namespace OptionsError

def kind : OptionsError → Text
  | missingValue _ => "MissingValue".toList
  | invalidValue _ _ => "InvalidValue".toList
  | invalidAddress _ => "InvalidAddress".toList
  | unexpectedArgument _ => "UnexpectedArgument".toList
  | invalidLogLevel _ => "InvalidLogLevel".toList

def message : OptionsError → Text
  | missingValue flag => flag ++ " requires an argument".toList
  | invalidValue flag value =>
    "invalid value ".toList ++ value.quoted ++ " for ".toList ++ flag
  | invalidAddress argument => "invalid listen address: ".toList ++ argument
  | unexpectedArgument argument => "unexpected argument: ".toList ++ argument
  | invalidLogLevel value => Log.Level.unknownMessage value

end OptionsError

namespace Options

/-! ### Values -/

def seconds (flag value : Text) : Except OptionsError Duration :=
  match Duration.parse? value with
  | some d => .ok d
  | none => .error (.invalidValue flag value)

def number (flag value : Text) : Except OptionsError Nat :=
  match Text.toWord? value with
  | some n => .ok n
  | none => .error (.invalidValue flag value)

def level (value : Text) : Except OptionsError Log.Level :=
  match Log.Level.parse? value with
  | some l => .ok l
  | none => .error (.invalidLogLevel value)

/-! ### Options -/

def seedFlag : Text := "--seed-input".toList

def withLimits (o : Options) (change : Machine.Limits → Machine.Limits) : Options :=
  { o with session := { o.session with limits := change o.session.limits } }

/-- Set the option that a flag names.  A number of steps of zero stands for no limit. -/
def set (o : Options) (flag value : Text) : Except OptionsError Options :=
  if flag = "--delay".toList then
    (seconds flag value).map fun d => { o with session := { o.session with delay := d } }
  else if flag = "--max-delay".toList then
    (seconds flag value).map fun d => { o with session := { o.session with maxDelay := d } }
  else if flag = "--input-timeout".toList then
    (seconds flag value).map fun d => { o with session := { o.session with inputTimeout := d } }
  else if flag = "--run-timeout".toList then
    (seconds flag value).map fun d => { o with session := { o.session with maxRunTime := d } }
  else if flag = "--max-stack".toList then
    (number flag value).map fun n => o.withLimits fun l => { l with maxStack := n }
  else if flag = "--max-steps".toList then
    (number flag value).map fun n =>
      o.withLimits fun l => { l with maxSteps := if n = 0 then none else some n }
  else if flag = "--max-frame".toList then
    (number flag value).map fun n => { o with maxFrame := n }
  else if flag = "--log-level".toList then
    (level value).map fun l => { o with logLevel := l }
  else .error (.unexpectedArgument flag)

def withSeed (o : Options) : Options := { o with session := { o.session with seedInput := true } }

def readAll (o : Options) : List Text → Except OptionsError Options
  | [] => .ok o
  | flag :: rest =>
    if flag = seedFlag then o.withSeed.readAll rest
    else
      match rest with
      | [] => .error (.missingValue flag)
      | value :: rest =>
        match o.set flag value with
        | .error e => .error e
        | .ok o => o.readAll rest

def withEnvironment (o : Options) : Option Text → Except OptionsError Options
  | none => .ok o
  | some value => (level value).map fun l => { o with logLevel := l }

def readAddress (o : Options) : List Text → Except OptionsError (Options × List Text)
  | [] => .ok (o, [])
  | first :: rest =>
    if first.head? = some '-' then .ok (o, first :: rest)
    else
      match Address.parse? first with
      | some a => .ok ({ o with listen := a }, rest)
      | none => .error (.invalidAddress first)

/-- The settings with the pause held against the longest pause. -/
def clamped (o : Options) : Options :=
  { o with session := { o.session with delay := o.session.clampDelay o.session.delay } }

def ofArguments (arguments : List Text) (environment : Option Text) :
    Except OptionsError Options := do
  let o ← withEnvironment {} environment
  let (o, arguments) ← o.readAddress arguments
  let o ← o.readAll arguments
  return o.clamped

end Options

end Server

end Stepwise

/-
  Stepwise/Protocol/Inbound.lean
  ==============================
  **What a client's message says.**

  A message whose first character that is not blank is `@` is a directive.  There is one,
  the delay, with one argument in seconds; any other directive, and a delay that is no
  duration, is an error that leaves the session as it is.  Every other message is text,
  kept as it came: the program source first, inputs after that.
-/
import Stepwise.Machine.Fault
import Stepwise.Text.Blank

namespace Stepwise

inductive DirectiveError where
  | unknown (name : Text)
  | invalidDelay (argument : Text)
deriving DecidableEq, Repr

namespace DirectiveError

def kind : DirectiveError → Text
  | unknown _ => "Unknown".toList
  | invalidDelay _ => "InvalidDelay".toList

def message : DirectiveError → Text
  | unknown name => "unknown directive ".toList ++ name
  | invalidDelay argument =>
    "invalid delay ".toList ++ argument.quoted
      ++ ", expected a non-negative number of seconds".toList

end DirectiveError

inductive Inbound where
  | delay (d : Duration)
  | text (t : Text)
deriving DecidableEq, Repr

namespace Inbound

def delayNames : List Text := ["@d".toList, "@delay".toList]

def isDirective (message : Text) : Bool := message.trim.head? == some '@'

/-- A directive, given without blanks around it, by its name and arguments. -/
def parseDirective (directive name : Text) (arguments : List Text) :
    Except DirectiveError Inbound :=
  if !delayNames.contains name then .error (.unknown name)
  else
    match arguments with
    | _ :: _ :: _ => .error (.invalidDelay (Text.trim (directive.drop name.length)))
    | _ =>
      let argument := arguments.head?.getD []
      match Duration.parse? argument with
      | some d => .ok (.delay d)
      | none => .error (.invalidDelay argument)

def parse (message : Text) : Except DirectiveError Inbound :=
  if isDirective message then
    match message.words with
    | [] => .error (.unknown [])
    | name :: arguments => parseDirective message.trim name arguments
  else .ok (.text message)

end Inbound

/-- The value that an input text denotes: an integer within bounds, with either sign or
    none, and blanks around it. -/
def inputValue (t : Text) : Except Fault Int :=
  match (Text.toInt? t.trim).filter inRange with
  | some v => .ok v
  | none => .error (.invalidInput t.trim maxValue)

end Stepwise

/-
  Stepwise/Protocol/Event.lean
  ============================
  **What a session tells its client: one line for each event.**

  A delta is told in a fixed order: the value that was consumed, the bank, the stack, the
  output, the new pointer, the value that is asked for, the end of the run.  A refused
  source and a failed run are told in one last line.  Every line starts with a tag of two
  characters and ends where the message ends; no line holds a line feed.
-/
import Stepwise.Assembly.Error
import Stepwise.Machine.Fault
import Stepwise.Machine.State

namespace Stepwise

inductive Event where
  | pointer (i : Nat)
  | registers (values : List Int)
  /-- The stack, its top first. -/
  | stack (values : List Int)
  | output (v : Int)
  | requested (target : InputTarget)
  | consumed (v : Int)
  | finished
  | refused (e : DecodeError)
  | failed (f : Fault)
deriving DecidableEq, Repr

namespace Event

/-- What a delta has to tell, in order. -/
def ofDelta (d : Machine.Delta) : List Event :=
  (match d.input with
    | some (.consumed v) => [consumed v]
    | _ => [])
  ++ (d.registers.map registers).toList
  ++ (d.stack.map stack).toList
  ++ (d.output.map output).toList
  ++ (d.pointer.map pointer).toList
  ++ (match d.input with
    | some (.requested target) => [requested target]
    | _ => [])
  ++ (if d.halted then [finished] else [])

def bars (values : List Int) : Text := Text.join ['|'] (values.map Text.ofInt)

def errorLine (kind message : Text) : Text := "@e ".toList ++ kind ++ ": ".toList ++ message

/-- The line that tells an event.  A stack is told from its bottom to its top. -/
def line : Event → Text
  | pointer i => "@p ".toList ++ Text.ofNat i
  | registers values => "@r ".toList ++ bars values
  | stack values => "@s ".toList ++ bars values.reverse
  | output v => "@o ".toList ++ Text.ofInt v
  | requested target => "@i ?".toList ++ target.text
  | consumed v => "@i ".toList ++ Text.ofInt v
  | finished => "@f".toList
  | refused e => errorLine e.cause.kind e.message
  | failed f => errorLine f.kind f.message

end Event

end Stepwise

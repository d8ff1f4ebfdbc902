/-
  Stepwise/Machine/Fault.lean
  ===========================
  **Why a run fails.**

  A fault is raised by a step, by a value that is offered to the machine, or by a budget
  of the session that runs it.  Like a refused source it has a kind in one word and a
  message in words; the budgets share one kind.
-/
import Stepwise.Assembly.Error
import Stepwise.Duration
import Stepwise.Text.Quoted

namespace Stepwise

inductive Budget where
  | stackDepth (limit : Nat)
  | stepCount (limit : Nat)
  | inputTimeout (limit : Duration)
  | runTime (limit : Duration)
deriving DecidableEq, Repr

namespace Budget

def message : Budget → Text
  | stackDepth limit => "stack depth exceeded ".toList ++ Text.ofNat limit
  | stepCount limit => "step count exceeded ".toList ++ Text.ofNat limit
  | inputTimeout limit =>
    "no input received within ".toList ++ Duration.seconds limit ++ " seconds".toList
  | runTime limit => "run time exceeded ".toList ++ Duration.seconds limit ++ " seconds".toList

end Budget

inductive Fault where
  | stackUnderflow (index : Nat)
  | divisionByZero (index : Nat)
  | invalidRegister (register available : Nat)
  | invalidJumpTarget (target size : Nat)
  | valueOverflow (index : Nat) (bound : Int)
  | invalidInput (input : Text) (bound : Int)
  | unexpectedInput
  | exceeded (budget : Budget)
deriving DecidableEq, Repr

namespace Fault

def kind : Fault → Text
  | stackUnderflow _ => "StackUnderflow".toList
  | divisionByZero _ => "DivisionByZero".toList
  | invalidRegister _ _ => "InvalidRegister".toList
  | invalidJumpTarget _ _ => "InvalidJumpTarget".toList
  | valueOverflow _ _ => "ValueOverflow".toList
  | invalidInput _ _ => "InvalidInput".toList
  | unexpectedInput => "UnexpectedInput".toList
  | exceeded _ => "ResourceLimitExceeded".toList

def place (index : Nat) : Text := " (instruction ".toList ++ Text.ofNat index ++ ")".toList

def message : Fault → Text
  | stackUnderflow index => "cannot pop from empty stack".toList ++ place index
  | divisionByZero index => "division by zero".toList ++ place index
  | invalidRegister register available =>
    "register r".toList ++ Text.ofNat register ++ " out of range, machine has ".toList
      ++ Text.ofNat available ++ " registers".toList
  | invalidJumpTarget target size =>
    "jump target ".toList ++ Text.ofNat target ++ " outside program of ".toList
      ++ Text.ofNat size ++ " instructions".toList
  | valueOverflow index bound => "value exceeded ".toList ++ Text.ofInt bound ++ place index
  | invalidInput input bound =>
    "input ".toList ++ input.quoted ++ " is not an integer within [-".toList
      ++ Text.ofInt bound ++ ", ".toList ++ Text.ofInt bound ++ "]".toList
  | unexpectedInput => "input supplied while the machine was not waiting for it".toList
  | exceeded budget => budget.message

end Fault

end Stepwise

/-
  Stepwise/Assembly/Error.lean
  ============================
  **Why a source is refused.**

  A refusal is a cause and the source line that it is reported at.  Every cause has a
  kind, a single word that clients can rely on, and a message for people.  Messages
  repeat tokens, names and whole header lines of the source as they were after
  normalization; those never hold a line end, so neither does a message.
-/
import Stepwise.Assembly.Instruction

namespace Stepwise

inductive MacroFlaw where
  | badHeader (line : Text)
  | nested
  | invokesItself (name : Text)
  | tooManyPlaceholders
deriving DecidableEq, Repr

inductive DecodeCause where
  | unterminatedDefine (name : Text)
  | undefinedMacro (name : Text)
  | macroRedefinition (name : Text)
  | invalidMacro (flaw : MacroFlaw)
  | strayEnddefine
  | unknownOpcode (name : Text)
  | arityMismatch (mnemonic : Text) (expected : List Nat) (actual : Nat)
  | invalidOperand (mnemonic token : Text) (expected : OperandKind)
  | immediateOutOfRange (token : Text)
  | invalidLabel (token : Text)
  | duplicateLabel (label : Text)
  | undefinedLabel (label : Text)
  | codeTooBig (actual : Nat)
deriving DecidableEq, Repr

/-- A cause and the source line, counted from one, that it is reported at. -/
structure DecodeError where
  line : Nat
  cause : DecodeCause
deriving DecidableEq, Repr

/-- The largest number of instructions of a program. -/
def maxProgramSize : Nat := 2048

def valueBounds : Text :=
  "[-".toList ++ Text.ofInt maxValue ++ ", ".toList ++ Text.ofInt maxValue ++ "]".toList

namespace MacroFlaw

def message : MacroFlaw → Text
  | badHeader line => "bad definition header \x60".toList ++ line ++ "\x60".toList
  | nested => "nested #define".toList
  | invokesItself name => "macro ".toList ++ name ++ " invokes itself".toList
  | tooManyPlaceholders => "too many '\x7b\x7d' in one line".toList

end MacroFlaw

namespace DecodeCause

def kind : DecodeCause → Text
  | unterminatedDefine _ => "UnterminatedDefine".toList
  | undefinedMacro _ => "UndefinedMacro".toList
  | macroRedefinition _ => "MacroRedefinition".toList
  | invalidMacro _ => "InvalidMacro".toList
  | strayEnddefine => "StrayEnddefine".toList
  | unknownOpcode _ => "UnknownOpcode".toList
  | arityMismatch _ _ _ => "ArityMismatch".toList
  | invalidOperand _ _ _ => "InvalidOperand".toList
  | immediateOutOfRange _ => "ImmediateOutOfRange".toList
  | invalidLabel _ => "InvalidLabel".toList
  | duplicateLabel _ => "DuplicateLabel".toList
  | undefinedLabel _ => "UndefinedLabel".toList
  | codeTooBig _ => "CodeTooBig".toList

def message : DecodeCause → Text
  | unterminatedDefine name =>
    "macro ".toList ++ name ++ " is never closed with #enddefine".toList
  | undefinedMacro name => "macro ".toList ++ name ++ " is not defined".toList
  | macroRedefinition name => "macro ".toList ++ name ++ " is already defined".toList
  | invalidMacro flaw => "invalid macro: ".toList ++ flaw.message
  | strayEnddefine => "#enddefine used without #define".toList
  | unknownOpcode name => "unknown instruction ".toList ++ name
  | arityMismatch mnemonic expected actual =>
    mnemonic ++ " takes ".toList ++ Text.join " or ".toList (expected.map Text.ofNat)
      ++ " operand(s), got ".toList ++ Text.ofNat actual
  | invalidOperand mnemonic token expected =>
    "invalid operand ".toList ++ token ++ " for ".toList ++ mnemonic
      ++ ": expected ".toList ++ expected.description
  | immediateOutOfRange token =>
    "immediate ".toList ++ token ++ " is outside ".toList ++ valueBounds
  | invalidLabel token => "invalid label declaration ".toList ++ token
  | duplicateLabel label => "label ".toList ++ label ++ " is already defined".toList
  | undefinedLabel label => "label ".toList ++ label ++ " is not defined".toList
  | codeTooBig actual =>
    "program has ".toList ++ Text.ofNat actual ++ " instructions, the maximum is ".toList
      ++ Text.ofNat maxProgramSize

end DecodeCause

namespace DecodeError

def message (e : DecodeError) : Text :=
  "line ".toList ++ Text.ofNat e.line ++ ": ".toList ++ e.cause.message

end DecodeError

end Stepwise

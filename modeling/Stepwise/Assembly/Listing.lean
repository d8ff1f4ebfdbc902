/-
  Stepwise/Assembly/Listing.lean
  ==============================
  **Instructions written back as a source.**

  A listing has one line for each instruction: a label that spells the index, the
  mnemonic, and the operands with commas between them.  A jump target is written as the
  label of its index, so one more label closes the listing for jumps to the end.
-/
import Stepwise.Assembly.Program

namespace Stepwise

namespace Listing

def labelName (index : Nat) : Text := 'l' :: Text.ofNat index

def declaration (index : Nat) : Text := labelName index ++ [':']

def operandTexts : Instruction → List Text
  | .push v => [v.text]
  | .pop => []
  | .popInto d => [d.text]
  | .arith _ => []
  | .arithReg _ d v => [d.text, v.text]
  | .mov d v => [d.text, v.text]
  | .jmp t => [labelName t]
  | .branch _ t => [labelName t]
  | .branchReg _ s t => [s.text, labelName t]
  | .halt => []
  | .read .stack => []
  | .read (.reg d) => [d.text]
  | .write => []
  | .writeValue v => [v.text]

def instructionText (i : Instruction) : Text :=
  i.mnemonic ++ ' ' :: Text.join ", ".toList (operandTexts i)

def line (index : Nat) (i : Instruction) : Text :=
  declaration index ++ ' ' :: instructionText i

def lines (instructions : List Instruction) : List Text :=
  instructions.zipIdx.map (fun entry => line entry.2 entry.1)
    ++ [declaration instructions.length]

def render (instructions : List Instruction) : Text := Text.join ['\n'] (lines instructions)

end Listing

end Stepwise

/-
  Stepwise/Assembly/Token.lean
  ============================
  **Tokens of a line, and what a token at an operand's place denotes.**

  Tokens stand between blanks and commas.  At an operand's place a token is read by the
  kind that the form asks for: a register by its name, a value as a register or else as a
  decimal integer, a label bare or in double quotes.  An integer is told by its shape
  alone, however long it is, and only then held against the bounds of values, so the two
  complaints are never confused.
-/
import Stepwise.Text.Blank
import Stepwise.Assembly.Error
import Stepwise.Assembly.Program

namespace Stepwise

namespace Token

def isSeparator (c : Char) : Bool := Text.isBlank c || c == ','

def split (line : Text) : List Text := line.fields isSeparator

/-! ### Label declarations -/

def isDeclaration (token : Text) : Bool := token.endsWith ':'

/-- The text can name a label: it is not empty and holds no colon and no quote. -/
def isLabelName (name : Text) : Bool := !name.isEmpty && !name.contains ':' && !name.contains '"'

def declaredName (token : Text) : Except DecodeCause Text :=
  if isLabelName token.dropLast then .ok token.dropLast else .error (.invalidLabel token)

/-! ### Operands -/

def register (mnemonic token : Text) : Except DecodeCause Register :=
  match Register.parse? token with
  | some r => .ok r
  | none => .error (.invalidOperand mnemonic token .register)

/-- The value that a token denotes: a register, or else an integer within bounds. -/
def value (mnemonic token : Text) : Except DecodeCause Operand :=
  match Register.parse? token with
  | some r => .ok (.reg r)
  | none =>
    match Text.toNegatableInt? token with
    | none => .error (.invalidOperand mnemonic token .value)
    | some v => if inRange v then .ok (.imm v) else .error (.immediateOutOfRange token)

/-- The name that a token refers to: the token itself, or what stands between double
    quotes.  A token that opens a quote and does not close it refers to nothing. -/
def referredName : Text → Text
  | '"' :: rest => (Text.dropEnd? '"' rest).getD []
  | token => token

def label (labels : LabelTable) (mnemonic token : Text) : Except DecodeCause Nat :=
  let name := referredName token
  if name.isEmpty || name.contains '"' then .error (.invalidOperand mnemonic token .label)
  else
    match labels.find? name with
    | some index => .ok index
    | none => .error (.undefinedLabel name)

end Token

end Stepwise

/-
  Stepwise/Machine/Arith.lean
  ===========================
  **Arithmetic on values.**

  Quotients are rounded toward zero, and a remainder has the sign of the dividend.
  Intermediate results are kept in 64-bit words, which only one operation can tell from
  plain integers: a remainder is taken where the quotient fits in a word, and the least
  word divided by minus one has a quotient that does not.
-/
import Stepwise.Assembly.Instruction

namespace Stepwise

/-- The integer fits in a signed 64-bit word. -/
def fitsWord (v : Int) : Bool :=
  decide (-9223372036854775808 ≤ v) && decide (v ≤ 9223372036854775807)

namespace ArithOp

/-- The operation divides, and so has no result when the right operand is zero. -/
def divides : ArithOp → Bool
  | div | mod => true
  | _ => false

/-- The result of the operation as an integer; where it divides, rounded toward zero. -/
def result : ArithOp → Int → Int → Int
  | add, left, right => left + right
  | sub, left, right => left - right
  | mul, left, right => left * right
  | div, left, right => left.tdiv right
  | mod, left, right => left.tmod right

/-- The result, if it is a value and can be computed in words. -/
def value? (op : ArithOp) (left right : Int) : Option Int :=
  if op = .mod ∧ fitsWord (left.tdiv right) = false then none
  else if inRange (op.result left right) then some (op.result left right)
  else none

end ArithOp

end Stepwise

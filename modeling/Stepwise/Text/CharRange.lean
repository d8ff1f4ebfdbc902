/-
  Stepwise/Text/CharRange.lean
  ============================
  **Sets of characters as lists of code point ranges.**

  A property of characters that a standard fixes by enumeration is written down
  as the list of its maximal ranges, both ends included, in ascending order.
  Membership is a search of that list; nothing depends on the order.
-/

namespace Stepwise

/-- A range of code points, both ends included. -/
structure CharRange where
  first : Nat
  last : Nat
deriving DecidableEq, Repr

namespace CharRange

def covers (r : CharRange) (code : Nat) : Bool :=
  decide (r.first ≤ code) && decide (code ≤ r.last)

def anyCovers (ranges : List CharRange) (c : Char) : Bool :=
  ranges.any (·.covers c.toNat)

end CharRange

end Stepwise

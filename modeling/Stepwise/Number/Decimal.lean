/-
  Stepwise/Number/Decimal.lean
  ============================
  **Decimal fractions with an exponent: their text and their nearest binary number.**

  The text is an optional sign, digits with an optional point and at least one digit on
  either side of it, and an optional exponent of its own sign.  A decimal is kept
  exactly, as a natural number of units of a power of ten; how long its text is plays no
  role.  Words for infinity and for not-a-number denote no decimal.
-/
import Stepwise.Text.Numeral
import Stepwise.Number.Binary64

namespace Stepwise

/-- The number `± coefficient * 10 ^ exponent`. -/
structure Decimal where
  negative : Bool
  coefficient : Nat
  exponent : Int
deriving DecidableEq, Repr

namespace Decimal

/-! ### Text -/

def splitSign : Text → Bool × Text
  | '-' :: rest => (true, rest)
  | '+' :: rest => (false, rest)
  | rest => (false, rest)

/-- The leading ASCII digits of a text and what follows them. -/
def splitDigits (t : Text) : Text × Text := (t.takeWhile Char.isDigit, t.dropWhile Char.isDigit)

/-- The digits behind a point, if there is one, and what follows them. -/
def splitFraction : Text → Text × Text
  | '.' :: rest => splitDigits rest
  | rest => ([], rest)

/-- The exponent that makes up a whole text: nothing at all, or the letter and a signed
    numeral. -/
def readExponent? : Text → Option Int
  | [] => some 0
  | c :: rest =>
    if c = 'e' ∨ c = 'E' then
      let (negative, digits) := splitSign rest
      (Text.toNat? digits).map fun n => if negative then -(n : Int) else n
    else none

def parse? (t : Text) : Option Decimal :=
  let (negative, unsigned) := splitSign t
  let (whole, rest) := splitDigits unsigned
  let (fraction, tail) := splitFraction rest
  if (whole ++ fraction).isEmpty then none
  else
    (readExponent? tail).map fun exponent =>
      { negative
        coefficient := Nat.ofDigitChars 10 (whole ++ fraction) 0
        exponent := exponent - (fraction.length : Int) }

/-! ### Value -/

/-- The power of ten just above a decimal other than zero. -/
def order (d : Decimal) : Int := (Text.ofNat d.coefficient).length + d.exponent

/-- Decimals of a larger order than this are beyond the binary format, and decimals of
    a smaller order than its negative are less than half of the smallest number. -/
def orderLimit : Int := 400

/-- The binary number nearest to the decimal without its sign, unless that is beyond
    the format. -/
def magnitude? (d : Decimal) : Option Binary64 :=
  if d.coefficient = 0 then some ⟨0⟩
  else if orderLimit < d.order then none
  else if d.order < -orderLimit then some ⟨0⟩
  else if 0 ≤ d.exponent then some (.ofRatio (d.coefficient * powTen d.exponent.toNat) 1)
  else some (.ofRatio d.coefficient (powTen (-d.exponent).toNat))

end Decimal

end Stepwise

/-
  Stepwise/Number/Binary64.lean
  =============================
  **Numbers with 53 significant bits, exactly.**

  Seconds are read and shown through the double-precision binary format, so two
  roundings stand between a decimal and a whole number of nanoseconds.  Both are
  computed here in natural numbers: a nonnegative number of the format is a multiple of
  the smallest one, 2^-1074, and a rounding is one division with the remainder
  compared to half the divisor.

  Signs are kept by the callers, who only ever need to know whether a negative number
  is zero.  The upper end of the exponent range is not modelled: every caller refuses
  numbers far below it (`Number/Decimal.lean`, `Duration.lean`).
-/

namespace Stepwise

/-- The whole number nearest to a quotient; of two equally near, the even one. -/
def roundDiv (num den : Nat) : Nat :=
  let below := num / den
  let twice := 2 * (num % den)
  if twice < den then below
  else if den < twice then below + 1
  else if below % 2 = 0 then below
  else below + 1

def powTen (n : Nat) : Nat := Nat.pow 10 n

/-- A nonnegative number of the format, as a multiple of 2^-1074. -/
structure Binary64 where
  quanta : Nat
deriving DecidableEq, Repr

namespace Binary64

/-- Number of quanta in one: 2^1074. -/
def unit : Nat := Nat.pow 2 1074

def precision : Nat := 53

/-- How many low bits of a number of quanta do not fit beside the significant ones. -/
def excessBits (quanta : Nat) : Nat := Nat.log2 quanta + 1 - precision

/-- The distance from a number of quanta to the next one that the format holds. -/
def gap (quanta : Nat) : Nat := Nat.pow 2 (excessBits quanta)

/-- The number of the format nearest to a quotient of quanta; of two equally near, the
    one whose last significant bit is zero. -/
def ofQuanta (num den : Nat) : Binary64 :=
  let step := gap (num / den)
  ⟨roundDiv num (den * step) * step⟩

def ofRatio (num den : Nat) : Binary64 := ofQuanta (num * unit) den

def ofNat (n : Nat) : Binary64 := ofRatio n 1

def add (x y : Binary64) : Binary64 := ofQuanta (x.quanta + y.quanta) 1

/-- Zero, the only number without a significant bit. -/
def isZero (x : Binary64) : Bool := x.quanta == 0

end Binary64

end Stepwise

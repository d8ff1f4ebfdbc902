/-
  Stepwise/Duration.lean
  ======================
  **Lengths of time in whole nanoseconds.**

  Delays, timeouts and budgets are natural numbers of nanoseconds.  They are read as
  decimal seconds: the decimal is rounded to a binary number first and that number to
  whole nanoseconds, both to nearest with ties to even.  A negative number, unless it
  rounds to zero, and a number of 2^64 seconds or more is no duration.

  Durations are shown in two ways: as seconds, through the binary format and back
  (`seconds`), where a fault names the budget that ran out; and exactly, in the largest
  unit that leaves a whole part (`brief`), in the log.
-/
import Stepwise.Number.Decimal
import Stepwise.Number.Shortest

namespace Stepwise

/-- A length of time in nanoseconds. -/
abbrev Duration := Nat

namespace Duration

/-! ### Units -/

def perSecond : Nat := 1000000000

def perMilli : Nat := 1000000

def ofMillis (ms : Nat) : Duration := ms * perMilli

def ofSeconds (s : Nat) : Duration := s * perSecond

/-- The first whole millisecond at or after the end of the duration. -/
def inMillis (d : Duration) : Nat := (d + (perMilli - 1)) / perMilli

def wholeSeconds (d : Duration) : Nat := d / perSecond

def subsecond (d : Duration) : Nat := d % perSecond

/-! ### Reading -/

/-- Numbers of seconds from here on are no duration: 2^64. -/
def secondsLimit : Nat := 18446744073709551616

/-- Whole nanoseconds nearest to a number of seconds, ties to even. -/
def ofBinary64? (x : Binary64) : Option Duration :=
  if x.quanta < secondsLimit * Binary64.unit then
    some (roundDiv (x.quanta * perSecond) Binary64.unit)
  else none

/-- The duration of a decimal number of seconds.  A minus sign is allowed only where
    the binary number nearest to the decimal is zero. -/
def ofDecimal? (d : Decimal) : Option Duration :=
  d.magnitude?.bind fun x => if d.negative && !x.isZero then none else ofBinary64? x

def parse? (t : Text) : Option Duration := (Decimal.parse? t).bind ofDecimal?

/-! ### Showing -/

/-- The number of seconds as a binary number: whole seconds and the fraction are
    rounded each, and then their sum. -/
def toBinary64 (d : Duration) : Binary64 :=
  (Binary64.ofNat (wholeSeconds d)).add (.ofRatio (subsecond d) perSecond)

def seconds (d : Duration) : Text := (toBinary64 d).text

/-- A number of the smaller units that make up one larger unit of 10^places, as a
    fraction without trailing zeros. -/
def fraction (places n : Nat) : Text :=
  let digits := (Text.ofNatPadded places n).stripEnd (· == '0')
  if digits.isEmpty then [] else '.' :: digits

/-- The duration exactly, in the largest of seconds, milliseconds, microseconds and
    nanoseconds that it reaches. -/
def brief (d : Duration) : Text :=
  if perSecond ≤ d then
    Text.ofNat (d / perSecond) ++ fraction 9 (d % perSecond) ++ "s".toList
  else if perMilli ≤ d then
    Text.ofNat (d / perMilli) ++ fraction 6 (d % perMilli) ++ "ms".toList
  else if 1000 ≤ d then Text.ofNat (d / 1000) ++ fraction 3 (d % 1000) ++ "µs".toList
  else Text.ofNat d ++ "ns".toList

end Duration

end Stepwise

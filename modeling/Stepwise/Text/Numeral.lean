/-
  Stepwise/Text/Numeral.lean
  ==========================
  **Numerals: integers as text, and text as integers.**

  Numbers are written in decimal without leading zeros or a plus sign.  What is read
  is wider: leading zeros are allowed everywhere, and a sign where the reader says so.
  A digit is one of the ten ASCII digits, whatever other scripts call a digit, and a
  run of digits denotes its value however long it is.  Bounds are for the caller to
  put on the value, never on the length of the text.
-/
import Stepwise.Text.Basic

namespace Stepwise

namespace Text

/-! ### Writing -/

def ofNat (n : Nat) : Text := Nat.toDigits 10 n

/-- Decimal digits of an integer, a minus sign before a negative one. -/
def ofInt : Int → Text
  | .ofNat n => ofNat n
  | .negSucc n => '-' :: ofNat (n + 1)

/-- Hexadecimal digits of a natural number, lower case, without leading zeros. -/
def ofNatHex (n : Nat) : Text := Nat.toDigits 16 n

/-- Decimal digits of a natural number, zeros in front up to a given width. -/
def ofNatPadded (width n : Nat) : Text :=
  List.replicate (width - (ofNat n).length) '0' ++ ofNat n

/-! ### Reading -/

/-- A nonempty run of ASCII digits. -/
def isNumeral (t : Text) : Bool := !t.isEmpty && t.all Char.isDigit

/-- The number that a nonempty run of ASCII digits denotes; nothing for any other
    text. -/
def toNat? (t : Text) : Option Nat :=
  if isNumeral t then some (Nat.ofDigitChars 10 t 0) else none

/-- The integer that a numeral denotes, with a minus sign before it or none. -/
def toNegatableInt? : Text → Option Int
  | '-' :: digits => (toNat? digits).map fun n => -(n : Int)
  | digits => (toNat? digits).map fun n => (n : Int)

/-- The integer that a numeral denotes, with either sign before it or none. -/
def toInt? : Text → Option Int
  | '+' :: digits => (toNat? digits).map fun n => (n : Int)
  | t => toNegatableInt? t

def maxWord : Nat := 18446744073709551615

/-- The number that a numeral denotes, with a plus sign before it or none, if it fits
    in 64 bits. -/
def toWord? (t : Text) : Option Nat :=
  let digits :=
    match t with
    | '+' :: digits => digits
    | _ => t
  (toNat? digits).filter (· ≤ maxWord)

end Text

end Stepwise

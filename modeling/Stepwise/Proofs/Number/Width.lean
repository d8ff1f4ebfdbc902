/-
  Stepwise/Proofs/Number/Width.lean
  =================================
  **Numerals are read in numbers of fixed width as they are read without bounds.**

  A number of fixed width is an integer between two bounds, with zero between them (`Width`).  A
  numeral is read into it digit by digit, and nothing is read once a product or a sum does not fit
  (`Width.readOn?`).  Digits lead away from zero and never back, so what does not fit on the way
  does not fit at the end either: what is read is the number that the digits stand for by their
  places, if that fits (`Width.readOn?_eq_checked`).  A reader that keeps only what fits anyway
  cannot tell that there are bounds (`Width.filter_parse?`).
-/
import Stepwise.Proofs.Number.Spelling
import Mathlib.Data.Nat.Digits.Defs

namespace Stepwise

open Decimal

variable {t digits : Text} {negative : Bool} {m n : Nat}

/-! ### Places -/

namespace Text

/-- The number that an ASCII digit stands for. -/
def digit (c : Char) : Nat := c.toNat - '0'.toNat

/-- The number that digits stand for by their places: the last one counts once, and each other
    one ten times what the place behind it does. -/
def placeValue (t : Text) : Nat := Nat.ofDigits 10 (t.reverse.map digit)

theorem placeValue_cons (c : Char) (t : Text) :
    placeValue (c :: t) = digit c * 10 ^ t.length + placeValue t := by
  rw [placeValue, List.map_reverse, List.map_cons, Nat.ofDigits_reverse_cons, List.length_map,
    ← List.map_reverse, ← placeValue, Nat.add_comm, Nat.mul_comm]

/-- Digits come to the same number from left to right and by their places. -/
theorem count_eq_placeValue (t : Text) : count t = placeValue t := by
  induction t with
  | nil => rfl
  | cons c t ih =>
    have single : count [c] = digit c := Nat.zero_add _
    rw [placeValue_cons, ← ih, ← List.singleton_append, count_append, single, Nat.mul_comm]

theorem toNat?_eq_placeValue (numeral : isNumeral t = true) : toNat? t = some (placeValue t) := by
  rw [toNat?, if_pos numeral, ← count_eq_placeValue]
  rfl

theorem splitSign_of_numeral (numeral : isNumeral t = true) : splitSign t = (false, t) := by
  obtain ⟨begun, all⟩ := digits_of_toNat? (toNat?_eq_placeValue numeral)
  obtain ⟨c, head, digit⟩ := head?_of_digits all begun
  refine splitSign_append .absent ?_ ?_ <;> rw [head] <;> rintro ⟨⟩ <;> cases digit

/-- An integer is read by its sign and its digits. -/
theorem toInt?_eq_splitSign (t : Text) :
    toInt? t = (toNat? (splitSign t).2).map fun n : Nat => factor (splitSign t).1 * n := by
  unfold toInt?
  split
  · rename_i digits
    have unsigned : splitSign ('+' :: digits) = (false, digits) := rfl
    rw [unsigned]
    cases toNat? digits <;> simp [factor]
  · rename_i positive
    unfold toNegatableInt?
    split
    · rename_i digits
      have unsigned : splitSign ('-' :: digits) = (true, digits) := rfl
      rw [unsigned]
      cases toNat? digits <;> simp [factor]
    · rename_i plain
      have unsigned : splitSign t = (false, t) := by
        unfold splitSign
        split
        · exact absurd rfl (plain _)
        · exact absurd rfl (positive _)
        · rfl
      rw [unsigned]
      cases toNat? t <;> simp [factor]

end Text

/-! ### Widths -/

/-- The bounds of numbers of fixed width, with zero between them. -/
structure Width where
  least : Int
  greatest : Int
  least_le_zero : least ≤ 0 := by decide
  zero_le_greatest : 0 ≤ greatest := by decide

namespace Width

/-- Eight bits without a sign. -/
def byte : Width where
  least := 0
  greatest := 255

/-- Sixty-four bits with a sign. -/
def signed64 : Width where
  least := -9223372036854775808
  greatest := 9223372036854775807

/-- The integer fits. -/
def Holds (w : Width) (v : Int) : Prop := w.least ≤ v ∧ v ≤ w.greatest

instance (w : Width) (v : Int) : Decidable (w.Holds v) := inferInstanceAs (Decidable (_ ∧ _))

/-- The result of an operation, if it fits. -/
def checked (w : Width) (v : Int) : Option Int := if w.Holds v then some v else none

/-- Read digits behind the number that those in front of them have come to: each moves the number
    up by a place and is counted on, away from zero.  Nothing is read once a product or a sum
    does not fit. -/
def readOn? (w : Width) (negative : Bool) : Int → Text → Option Int
  | v, [] => some v
  | v, c :: rest =>
    (w.checked (v * 10)).bind fun tenfold =>
      (w.checked (tenfold + factor negative * Text.digit c)).bind fun next =>
        w.readOn? negative next rest

/-- The integer that a numeral denotes, with a sign in front or none, read digit by digit.  Where no
    negative number fits, no minus sign is taken. -/
def parse? (w : Width) (t : Text) : Option Int :=
  let (negative, digits) := splitSign t
  if Text.isNumeral digits ∧ (negative = true → w.least < 0) then w.readOn? negative 0 digits
  else none

variable {w : Width}

theorem holds_zero (w : Width) : w.Holds 0 := ⟨w.least_le_zero, w.zero_le_greatest⟩

/-- What is nearer to zero on the same side fits as well. -/
theorem Holds.of_le (h : w.Holds (factor negative * n)) (le : m ≤ n) :
    w.Holds (factor negative * m) := by
  have least := w.least_le_zero
  have greatest := w.zero_le_greatest
  obtain ⟨below, above⟩ := h
  cases negative with
  | false =>
    simp only [factor, Bool.false_eq_true, if_false] at *
    exact ⟨by omega, by omega⟩
  | true =>
    simp only [factor, if_true] at *
    exact ⟨by omega, by omega⟩

/-- **One digit.**  The product fits wherever the sum does, so a digit is read exactly if what the
    digits so far come to fits. -/
theorem readOn?_cons (w : Width) (negative : Bool) (m : Nat) (c : Char) (rest : Text) :
    w.readOn? negative (factor negative * m) (c :: rest) =
      if w.Holds (factor negative * (m * 10 + Text.digit c : Nat)) then
        w.readOn? negative (factor negative * (m * 10 + Text.digit c : Nat)) rest
      else none := by
  have tenfold : factor negative * (m : Int) * 10 = factor negative * (m * 10 : Nat) := by
    push_cast
    ring
  have next : factor negative * ((m * 10 : Nat) : Int) + factor negative * Text.digit c =
      factor negative * (m * 10 + Text.digit c : Nat) := by
    push_cast
    ring
  rw [readOn?, tenfold]
  by_cases fits : w.Holds (factor negative * (m * 10 + Text.digit c : Nat))
  · have product : w.Holds (factor negative * (m * 10 : Nat)) := fits.of_le (Nat.le_add_right _ _)
    rw [checked, if_pos product, Option.bind_some, next, checked, if_pos fits, Option.bind_some,
      if_pos fits]
  · rw [if_neg fits]
    by_cases product : w.Holds (factor negative * (m * 10 : Nat))
    · rw [checked, if_pos product, Option.bind_some, next, checked, if_neg fits, Option.bind_none]
    · rw [checked, if_neg product, Option.bind_none]

/-- **A run of digits.**  Checking every digit comes to checking the whole number once. -/
theorem readOn?_eq_checked (fits : w.Holds (factor negative * m)) :
    w.readOn? negative (factor negative * m) t =
      w.checked (factor negative * (m * 10 ^ t.length + Text.placeValue t : Nat)) := by
  -- along the digits, with what has been read before them
  induction t generalizing m with
  | nil =>
    have whole : m * 10 ^ ([] : Text).length + Text.placeValue [] = m := Nat.mul_one m
    rw [whole, checked, if_pos fits]
    rfl
  | cons c rest ih =>
    have whole : m * 10 ^ (c :: rest).length + Text.placeValue (c :: rest) =
        (m * 10 + Text.digit c) * 10 ^ rest.length + Text.placeValue rest := by
      rw [Text.placeValue_cons, List.length_cons]
      ring
    rw [readOn?_cons, whole]
    by_cases next : w.Holds (factor negative * (m * 10 + Text.digit c : Nat))
    · rw [if_pos next, ih next]
    · -- what does not fit here does not fit with the other digits either
      have more : m * 10 + Text.digit c ≤
          (m * 10 + Text.digit c) * 10 ^ rest.length + Text.placeValue rest :=
        Nat.le_add_right_of_le (Nat.le_mul_of_pos_right _ (Nat.pow_pos (by decide)))
      rw [if_neg next, checked, if_neg]
      intro held
      exact next (held.of_le more)

/-- A numeral is read as the number that its digits stand for, with its sign, if that fits. -/
theorem parse?_eq_checked (parted : splitSign t = (negative, digits))
    (numeral : Text.isNumeral digits = true) (allowed : negative = true → w.least < 0) :
    w.parse? t = w.checked (factor negative * Text.placeValue digits) := by
  have zero : factor negative * ((0 : Nat) : Int) = 0 := Int.mul_zero _
  have fits : w.Holds (factor negative * ((0 : Nat) : Int)) := zero ▸ w.holds_zero
  simp only [parse?, parted]
  rw [if_pos ⟨numeral, allowed⟩, ← zero, readOn?_eq_checked fits, Nat.zero_mul, Nat.zero_add]

/-- Digits without a sign are read in every width. -/
theorem parse?_of_numeral (w : Width) (numeral : Text.isNumeral digits = true) :
    w.parse? digits = w.checked (Text.placeValue digits) := by
  have positive : factor false * (Text.placeValue digits : Int) = Text.placeValue digits :=
    Int.one_mul _
  have parted := Text.splitSign_of_numeral numeral
  rw [parse?_eq_checked parted numeral (absurd · Bool.false_ne_true), positive]

/-- Where negative numbers fit, every integer that fits is read, and nothing else. -/
theorem parse?_eq_filter (signed : w.least < 0) (t : Text) :
    w.parse? t = (Text.toInt? t).filter fun v => decide (w.Holds v) := by
  cases parted : splitSign t with
  | mk negative digits =>
    by_cases numeral : Text.isNumeral digits = true
    · rw [parse?_eq_checked parted numeral fun _ => signed, Text.toInt?_eq_splitSign, parted,
        Text.toNat?_eq_placeValue numeral, checked]
      simp [Option.filter]
    · have unread : Text.toNat? digits = none := if_neg numeral
      rw [Text.toInt?_eq_splitSign, parted, unread]
      simp only [parse?, parted]
      rw [if_neg fun h => numeral h.1]
      rfl

/-- A reader that keeps only integers which fit anyway reads them as if there were no bounds. -/
theorem filter_parse? {keeps : Int → Bool} (signed : w.least < 0)
    (within : ∀ v, keeps v = true → w.Holds v) (t : Text) :
    (w.parse? t).filter keeps = (Text.toInt? t).filter keeps := by
  have both : (fun v => decide (w.Holds v) && keeps v) = keeps := by
    funext v
    cases kept : keeps v with
    | false => exact Bool.and_false _
    | true => rw [decide_eq_true (within v kept), Bool.true_and]
  rw [parse?_eq_filter signed, Option.filter_filter, both]

end Width

end Stepwise

/-
  Stepwise/Proofs/Number/Spelling.lean
  ====================================
  **What number a decimal text spells.**

  A text spells a number by its parts: a sign, digits on at least one side of a point, and an
  exponent that moves the point (`Spells`).  Nothing there tells how a text is taken apart.  What
  is read from a text is the number that it spells, and a text that spells none is not read
  (`spells_iff`); so no text spells two numbers, and none with a blank in it spells any.
-/
import Stepwise.Number.Decimal
import Stepwise.Proofs.Text.Numeral
import Stepwise.Text.Blank
import Mathlib.Algebra.Order.Field.Power
import Mathlib.Data.Rat.Lemmas
import Mathlib.Tactic.FieldSimp
import Mathlib.Tactic.Ring

namespace Stepwise

namespace Decimal

/-! ### Parts of a text -/

/-- A text of ASCII digits alone, maybe of none. -/
def IsDigits (t : Text) : Prop := ∀ c ∈ t, c.isDigit = true

/-- The number that digits stand for. -/
def count (digits : Text) : Nat := Nat.ofDigitChars 10 digits 0

/-- A sign, which may be left out, and whether it is a minus sign. -/
inductive Sign : Text → Bool → Prop where
  | absent : Sign [] false
  | plus : Sign ['+'] false
  | minus : Sign ['-'] true

/-- The factor that a sign stands for. -/
def factor (negative : Bool) : Int := if negative then -1 else 1

/-- What may stand behind the whole part, and the digits of the fraction in it. -/
inductive Fraction : Text → Text → Prop where
  | absent : Fraction [] []
  | point {fraction : Text} (digits : IsDigits fraction) : Fraction ('.' :: fraction) fraction

/-- What may stand at the end, and the number of places by which it moves the point. -/
inductive Shift : Text → Int → Prop where
  | absent : Shift [] 0
  | exponent {c : Char} {sign digits : Text} {negative : Bool} (letter : c = 'e' ∨ c = 'E')
      (signed : Sign sign negative) (begun : digits ≠ []) (all : IsDigits digits) :
      Shift (c :: (sign ++ digits)) (factor negative * count digits)

/-- The text spells a number, with so many digits behind the point once the point has been moved.
    Without an exponent these are the digits that are written there. -/
inductive Spells : Text → Int → ℚ → Prop where
  | parts {sign whole pointed fraction shift : Text} {negative : Bool} {k : Int}
      (signed : Sign sign negative) (digits : IsDigits whole) (behind : Fraction pointed fraction)
      (begun : whole ++ fraction ≠ []) (moved : Shift shift k) :
      Spells (sign ++ (whole ++ (pointed ++ shift))) (fraction.length - k)
        (factor negative * (count whole + count fraction / 10 ^ fraction.length) * 10 ^ k)

/-- The number that a decimal is. -/
def value (d : Decimal) : ℚ := factor d.negative * d.coefficient * 10 ^ d.exponent

variable {t u sign whole pointed fraction shift : Text} {negative : Bool} {k places : Int} {v : ℚ}
  {d : Decimal}

/-! ### Signs -/

@[simp] theorem factor_mul (negative : Bool) (n : Nat) :
    factor negative * n = if negative then -(n : Int) else n := by
  cases negative <;> simp [factor]

theorem exists_sign (t : Text) :
    ∃ sign, Sign sign (splitSign t).1 ∧ t = sign ++ (splitSign t).2 := by
  unfold splitSign
  split
  · exact ⟨_, .minus, rfl⟩
  · exact ⟨_, .plus, rfl⟩
  · exact ⟨_, .absent, rfl⟩

/-- What does not begin with a sign keeps its place behind one. -/
theorem splitSign_append (signed : Sign sign negative) (h : t.head? ≠ some '-')
    (h' : t.head? ≠ some '+') : splitSign (sign ++ t) = (negative, t) := by
  cases signed with
  | plus => rfl
  | minus => rfl
  | absent =>
    rw [List.nil_append]
    unfold splitSign
    split
    · exact absurd rfl h
    · exact absurd rfl h'
    · rfl

/-! ### Digits -/

theorem head?_of_digits (digits : IsDigits t) (begun : t ≠ []) :
    ∃ c, t.head? = some c ∧ c.isDigit = true := by
  obtain ⟨c, rest, rfl⟩ := List.exists_cons_of_ne_nil begun
  exact ⟨c, rfl, digits c List.mem_cons_self⟩

theorem count_append (t u : Text) : count (t ++ u) = 10 ^ u.length * count t + count u := by
  rw [count, Nat.ofDigitChars_append, Nat.ofDigitChars_eq_ofDigitChars_zero]
  rfl

theorem toNat?_of_digits (digits : IsDigits t) (begun : t ≠ []) :
    Text.toNat? t = some (count t) := by
  have numeral : Text.isNumeral t = true := by
    simp only [Text.isNumeral, Bool.and_eq_true, Bool.not_eq_true', List.isEmpty_eq_false_iff,
      List.all_eq_true]
    exact ⟨begun, digits⟩
  rw [Text.toNat?, if_pos numeral]
  rfl

theorem splitDigits_append (digits : IsDigits t)
    (stop : ∀ c, u.head? = some c → c.isDigit = false) :
    splitDigits (t ++ u) = (t, u) := by
  have none : u.takeWhile Char.isDigit = [] ∧ u.dropWhile Char.isDigit = u := by
    cases u with
    | nil => exact ⟨rfl, rfl⟩
    | cons c rest => simp [stop c rfl]
  rw [splitDigits, List.takeWhile_append_of_pos digits, List.dropWhile_append_of_pos digits, none.1,
    none.2, List.append_nil]

theorem splitDigits_eq (h : splitDigits t = (whole, u)) : IsDigits whole ∧ t = whole ++ u := by
  simp only [splitDigits, Prod.mk.injEq] at h
  obtain ⟨rfl, rfl⟩ := h
  exact ⟨fun c hc => List.all_eq_true.mp List.all_takeWhile c hc,
    List.takeWhile_append_dropWhile.symm⟩

/-! ### Exponents and fractions -/

theorem Shift.head? (moved : Shift t k) {c : Char} (h : t.head? = some c) : c = 'e' ∨ c = 'E' := by
  cases moved with
  | absent => cases h
  | exponent letter => exact Option.some.inj h ▸ letter

theorem Shift.head?_not_digit (moved : Shift t k) (c : Char) (h : t.head? = some c) :
    c.isDigit = false := by
  rcases moved.head? h with rfl | rfl <;> rfl

theorem readExponent?_of_shift (moved : Shift t k) : readExponent? t = some k := by
  cases moved with
  | absent => rfl
  | @exponent c sign digits negative letter signed begun all =>
    obtain ⟨first, head, digit⟩ := head?_of_digits all begun
    have unsigned : splitSign (sign ++ digits) = (negative, digits) := by
      refine splitSign_append signed ?_ ?_ <;> rw [head] <;> rintro ⟨⟩ <;> cases digit
    simp only [readExponent?, letter, if_true, unsigned, toNat?_of_digits all begun, factor_mul]
    rfl

theorem shift_of_readExponent? (h : readExponent? t = some k) : Shift t k := by
  cases t with
  | nil =>
    cases h
    exact .absent
  | cons c rest =>
    simp only [readExponent?] at h
    split at h
    · rename_i letter
      obtain ⟨sign, signed, eq⟩ := exists_sign rest
      obtain ⟨_, lifted, rfl⟩ := Option.map_eq_some_iff.mp h
      obtain ⟨n, read, ⟨⟩⟩ := Option.bind_eq_some_iff.mp lifted
      obtain ⟨begun, digits⟩ := Text.digits_of_toNat? read
      rw [toNat?_of_digits digits begun] at read
      cases read
      rw [← factor_mul]
      nth_rewrite 1 [eq]
      exact .exponent letter signed begun digits
    · cases h

theorem splitFraction_append (behind : Fraction pointed fraction) (moved : Shift shift k) :
    splitFraction (pointed ++ shift) = (fraction, shift) := by
  cases behind with
  | point digits => exact splitDigits_append digits moved.head?_not_digit
  | absent =>
    cases moved with
    | absent => rfl
    | exponent letter => rcases letter with rfl | rfl <;> rfl

theorem fraction_of_splitFraction (h : splitFraction t = (fraction, u)) :
    ∃ pointed, Fraction pointed fraction ∧ t = pointed ++ u := by
  unfold splitFraction at h
  split at h
  · obtain ⟨digits, rfl⟩ := splitDigits_eq h
    exact ⟨_, .point digits, rfl⟩
  · cases h
    exact ⟨_, .absent, rfl⟩

/-- The whole part ends where the point or the exponent begins. -/
theorem stop_at_pointed (behind : Fraction pointed fraction) (moved : Shift shift k) (c : Char)
    (h : (pointed ++ shift).head? = some c) : c.isDigit = false := by
  cases behind with
  | absent => exact moved.head?_not_digit c h
  | point =>
    cases h
    rfl

/-! ### Texts and numbers -/

theorem value_of_parts (negative : Bool) (whole fraction : Text) (k : Int) :
    value ⟨negative, count (whole ++ fraction), k - fraction.length⟩ =
      factor negative * (count whole + count fraction / 10 ^ fraction.length) * 10 ^ k := by
  have ten : (10 : ℚ) ≠ 0 := by norm_num
  simp only [value, count_append, zpow_sub₀ ten, zpow_natCast]
  push_cast
  field_simp

/-- What stands behind the sign begins with a digit or with the point. -/
theorem head?_unsigned (shift : Text) (digits : IsDigits whole) (behind : Fraction pointed fraction)
    (begun : whole ++ fraction ≠ []) :
    ∃ c, (whole ++ (pointed ++ shift)).head? = some c ∧ (c.isDigit = true ∨ c = '.') := by
  by_cases empty : whole = []
  · subst empty
    cases behind with
    | absent => exact absurd rfl begun
    | point => exact ⟨'.', rfl, .inr rfl⟩
  · obtain ⟨c, head, digit⟩ := head?_of_digits digits empty
    exact ⟨c, by rw [List.head?_append, head, Option.some_or], .inl digit⟩

theorem parse?_of_spells (h : Spells t places v) :
    ∃ d, parse? t = some d ∧ -d.exponent = places ∧ d.value = v := by
  cases h with
  | @parts sign whole pointed fraction shift negative k signed digits behind begun moved =>
    obtain ⟨c, head, first⟩ := head?_unsigned shift digits behind begun
    have unsigned : splitSign (sign ++ (whole ++ (pointed ++ shift))) =
        (negative, whole ++ (pointed ++ shift)) := by
      refine splitSign_append signed ?_ ?_ <;> rw [head] <;> rintro ⟨⟩ <;>
        rcases first with digit | ⟨⟨⟩⟩ <;> cases digit
    have shown : (whole ++ fraction).isEmpty = false := List.isEmpty_eq_false_iff.mpr begun
    refine ⟨⟨negative, count (whole ++ fraction), k - fraction.length⟩, ?_, ?_,
      value_of_parts negative whole fraction k⟩
    · simp only [parse?, unsigned, splitDigits_append digits (stop_at_pointed behind moved),
        splitFraction_append behind moved, shown, Bool.false_eq_true, if_false,
        readExponent?_of_shift moved, Option.map_some]
      rfl
    · exact Int.neg_sub _ _

theorem spells_of_parse? (h : parse? t = some d) : Spells t (-d.exponent) d.value := by
  obtain ⟨sign, signed, eq⟩ := exists_sign t
  simp only [parse?] at h
  generalize splitSign t = split at h signed eq
  obtain ⟨negative, unsigned⟩ := split
  cases parted : splitDigits unsigned with
  | mk whole rest =>
    obtain ⟨digits, rfl⟩ := splitDigits_eq parted
    cases ended : splitFraction rest with
    | mk fraction shift =>
      obtain ⟨pointed, behind, rfl⟩ := fraction_of_splitFraction ended
      simp only [parted, ended] at h
      split at h
      · cases h
      · rename_i shown
        obtain ⟨k, read, rfl⟩ := Option.map_eq_some_iff.mp h
        have begun : whole ++ fraction ≠ [] := by simpa using shown
        have spelled := Spells.parts signed digits behind begun (shift_of_readExponent? read)
        rw [← value_of_parts, ← Int.neg_sub, ← eq] at spelled
        exact spelled

/-- **A text is read as the number that it spells**, and only a text that spells a number. -/
theorem spells_iff :
    Spells t places v ↔ ∃ d, parse? t = some d ∧ -d.exponent = places ∧ d.value = v := by
  constructor
  · exact parse?_of_spells
  · rintro ⟨d, read, rfl, rfl⟩
    exact spells_of_parse? read

/-- Without sign and exponent the digits behind the point are all places. -/
theorem spells_of_digits (digits : IsDigits whole) (digits' : IsDigits fraction)
    (begun : whole ++ fraction ≠ []) : Spells (whole ++ '.' :: fraction) fraction.length
      (count whole + count fraction / 10 ^ fraction.length) := by
  have spelled := Spells.parts .absent digits (.point digits') begun .absent
  simpa [factor] using spelled

/-! ### Characters -/

theorem Sign.mem {c : Char} (signed : Sign sign negative) (h : c ∈ sign) : c = '-' ∨ c = '+' := by
  cases signed with
  | absent => cases h
  | plus => exact .inr (List.mem_singleton.mp h)
  | minus => exact .inl (List.mem_singleton.mp h)

theorem not_blank_of_digit {c : Char} (h : c.isDigit = true) : Text.isBlank c = false := by
  have all : ∀ c ∈ "0123456789".toList, Text.isBlank c = false := by decide
  exact all c (Text.mem_digits h)

theorem Sign.plain (signed : Sign sign negative) (c : Char) (h : c ∈ sign) :
    Text.isBlank c = false := by
  rcases signed.mem h with rfl | rfl <;> decide

theorem Fraction.plain (behind : Fraction pointed fraction) (c : Char) (h : c ∈ pointed) :
    Text.isBlank c = false := by
  cases behind with
  | absent => cases h
  | point digits =>
    rcases List.mem_cons.mp h with rfl | digit
    · decide
    · exact not_blank_of_digit (digits c digit)

theorem Shift.plain (moved : Shift shift k) (c : Char) (h : c ∈ shift) :
    Text.isBlank c = false := by
  cases moved with
  | absent => cases h
  | exponent letter signed begun all =>
    rcases List.mem_cons.mp h with rfl | h
    · rcases letter with rfl | rfl <;> decide
    · rcases List.mem_append.mp h with h | h
      · exact signed.plain c h
      · exact not_blank_of_digit (all c h)

/-- A text that spells a number is one word. -/
theorem Spells.word (h : Spells t places v) : t ≠ [] ∧ ∀ c ∈ t, Text.isBlank c = false := by
  cases h with
  | parts signed digits behind begun moved =>
    refine ⟨?_, ?_⟩
    · obtain ⟨c, head, -⟩ := head?_unsigned _ digits behind begun
      intro empty
      rw [(List.append_eq_nil_iff.mp empty).2] at head
      cases head
    · intro c h
      simp only [List.mem_append] at h
      rcases h with h | h | h | h
      · exact signed.plain c h
      · exact not_blank_of_digit (digits c h)
      · exact behind.plain c h
      · exact moved.plain c h

end Decimal

end Stepwise

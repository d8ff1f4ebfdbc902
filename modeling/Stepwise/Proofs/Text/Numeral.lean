/-
  Stepwise/Proofs/Text/Numeral.lean
  =================================
  **Numerals are read back as the numbers that they were written for.**
-/
import Stepwise.Text.Numeral

namespace Stepwise

namespace Text

variable {c : Char} {n : Nat}

theorem isDigit_of_mem_ofNat (h : c ∈ ofNat n) : c.isDigit = true :=
  Nat.isDigit_of_mem_toDigits (by decide) (by decide) h

theorem mem_ofInt {v : Int} (h : c ∈ ofInt v) : c = '-' ∨ c.isDigit = true := by
  cases v with
  | ofNat n => exact .inr (isDigit_of_mem_ofNat h)
  | negSucc n =>
    rcases List.mem_cons.mp h with sign | digit
    · exact .inl sign
    · exact .inr (isDigit_of_mem_ofNat digit)

/-- There are ten digits. -/
theorem mem_digits (h : c.isDigit = true) : c ∈ "0123456789".toList := by
  have all : ∀ n < 0x80, (Char.ofNat n).isDigit = true → Char.ofNat n ∈ "0123456789".toList := by
    decide +kernel
  have ascii : c.toNat < 0x80 := by
    simp only [Char.isDigit, Bool.and_eq_true, decide_eq_true_eq] at h
    have high : c.toNat ≤ 0x39 := UInt32.le_iff_toNat_le.mp h.2
    omega
  have digit := all c.toNat ascii
  rw [Char.ofNat_toNat] at digit
  exact digit h

theorem ofNat_ne_nil (n : Nat) : ofNat n ≠ [] := Nat.toDigits_ne_nil

theorem digits_of_toNat? {t : Text} (h : toNat? t = some n) :
    t ≠ [] ∧ ∀ c ∈ t, c.isDigit = true := by
  simp only [toNat?] at h
  split at h
  · rename_i numeral
    simpa [isNumeral] using numeral
  · cases h

/-- A number ends in a digit, whatever stands in front of it. -/
theorem digit_of_getLast? {t : Text} {mark d : Char} (h : toNat? t = some n)
    (last : (mark :: t).getLast? = some d) : d.isDigit = true := by
  obtain ⟨begun, digits⟩ := digits_of_toNat? h
  rw [List.getLast?_cons, List.getLast?_eq_some_getLast begun] at last
  cases last
  exact digits _ (List.getLast_mem begun)

@[simp] theorem toNat?_ofNat (n : Nat) : toNat? (ofNat n) = some n := by
  have numeral : isNumeral (ofNat n) = true := by
    simp only [isNumeral, Bool.and_eq_true, Bool.not_eq_true', List.isEmpty_eq_false_iff,
      List.all_eq_true]
    exact ⟨ofNat_ne_nil n, fun c hc => isDigit_of_mem_ofNat hc⟩
  rw [toNat?, if_pos numeral, ofNat, Nat.ofDigitChars_toDigits (by decide) (by decide)]

theorem ofNat_injective {m n : Nat} (h : ofNat m = ofNat n) : m = n := by
  have same := congrArg toNat? h
  rw [toNat?_ofNat, toNat?_ofNat] at same
  exact Option.some.inj same

/-- A numeral has no sign. -/
theorem exists_digit_cons (n : Nat) : ∃ c digits, ofNat n = c :: digits ∧ c.isDigit = true := by
  obtain ⟨c, digits, eq⟩ := List.exists_cons_of_ne_nil (ofNat_ne_nil n)
  exact ⟨c, digits, eq, isDigit_of_mem_ofNat (eq ▸ List.mem_cons_self)⟩

theorem toNegatableInt?_ofNat (n : Nat) : toNegatableInt? (ofNat n) = some (n : Int) := by
  obtain ⟨c, digits, eq, digit⟩ := exists_digit_cons n
  have unsigned : c ≠ '-' := by
    rintro rfl
    cases digit
  unfold toNegatableInt?
  split
  · rename_i sign
    rw [eq] at sign
    cases sign
    exact absurd rfl unsigned
  · rw [toNat?_ofNat]
    rfl

theorem toNegatableInt?_ofInt (v : Int) : toNegatableInt? (ofInt v) = some v := by
  cases v with
  | ofNat n => exact toNegatableInt?_ofNat n
  | negSucc n =>
    simp only [ofInt, toNegatableInt?, toNat?_ofNat]
    rfl

end Text

end Stepwise

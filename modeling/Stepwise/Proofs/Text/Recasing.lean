/-
  Stepwise/Proofs/Text/Recasing.lean
  ==================================
  **Texts that differ in the case of ASCII letters.**

  Two characters with the same small ASCII letter are the same character, or one is a capital
  and the other its small letter.  What is blank, what is a slash, and what counts for a
  sigma beside it is the same for both (`of_capitals`).  So comments begin in the same
  places, and lower case makes the same text of both (`lower_recased`).
-/
import Mathlib.Data.List.Forall2
import Stepwise.Proofs.Text.Lower

namespace Stepwise

namespace Text

variable {c d : Char} {t u : Text}

/-- The texts are the same, but for the case of ASCII letters. -/
def Recased (t u : Text) : Prop := List.Forall₂ (fun c d => c.toLower = d.toLower) t u

/-! ### Characters -/

/-- The ASCII letters that have a small letter of their own. -/
def capitals : Text := "ABCDEFGHIJKLMNOPQRSTUVWXYZ".toList

theorem toLower_of_not_capital (h : c ∉ capitals) : c.toLower = c := by
  have all : ∀ n < 0x80, Char.ofNat n ∉ capitals → (Char.ofNat n).toLower = Char.ofNat n := by
    decide +kernel
  by_cases ascii : c.toNat < 0x80
  · have same := all c.toNat ascii
    rw [Char.ofNat_toNat] at same
    exact same h
  · refine dif_neg ?_
    rintro ⟨-, below⟩
    have high : c.toNat ≤ 0x5A := UInt32.le_iff_toNat_le.mp below
    omega

/-- What capitals and their small letters have in common is common to characters that differ in
    case alone. -/
theorem of_capitals {α : Type} {f : Char → α} (h : ∀ c ∈ capitals, f c = f c.toLower)
    (same : c.toLower = d.toLower) : f c = f d := by
  have small (c : Char) : f c = f c.toLower := by
    by_cases capital : c ∈ capitals
    · exact h c capital
    · rw [toLower_of_not_capital capital]
  rw [small c, small d, same]

theorem isBlank_recased (same : c.toLower = d.toLower) : isBlank c = isBlank d := by
  have capital : ∀ c ∈ capitals, isBlank c = isBlank c.toLower := by decide
  exact of_capitals capital same

theorem lowerChar_recased (same : c.toLower = d.toLower) : lowerChar c = lowerChar d := by
  have capital : ∀ c ∈ capitals, lowerChar c = lowerChar c.toLower := by decide
  exact of_capitals capital same

theorem isCased_recased (same : c.toLower = d.toLower) : isCased c = isCased d := by
  have capital : ∀ c ∈ capitals, isCased c = isCased c.toLower := by decide +kernel
  exact of_capitals capital same

theorem isCaseIgnorable_recased (same : c.toLower = d.toLower) :
    isCaseIgnorable c = isCaseIgnorable d := by
  have capital : ∀ c ∈ capitals, isCaseIgnorable c = isCaseIgnorable c.toLower := by
    decide +kernel
  exact of_capitals capital same

/-- A character that is no letter of ASCII stays what it is. -/
theorem eq_iff_recased (same : c.toLower = d.toLower) {mark : Char}
    (other : ∀ c ∈ capitals, c ≠ mark ∧ c.toLower ≠ mark) : c = mark ↔ d = mark := by
  have capital : ∀ c ∈ capitals, (c = mark) = (c.toLower = mark) := by
    intro c hc
    obtain ⟨big, small⟩ := other c hc
    rw [eq_false big, eq_false small]
  have iff := of_capitals (f := (· = mark)) capital same
  exact iff ▸ Iff.rfl

/-! ### Texts -/

namespace Recased

theorem refl (t : Text) : Recased t t := List.forall₂_same.mpr fun _ _ => rfl

theorem reverse (h : Recased t u) : Recased t.reverse u.reverse := List.rel_reverse h

theorem beforePair (h : Recased t u) :
    Recased (t.beforePair '/' '/') (u.beforePair '/' '/') := by
  have slash : ∀ c ∈ capitals, c ≠ '/' ∧ c.toLower ≠ '/' := by decide
  induction h with
  | nil => exact .nil
  | @cons c d t u same rest ih =>
    cases rest with
    | nil => exact .cons same .nil
    | @cons c' d' t u same' rest =>
      simp only [Text.beforePair, eq_iff_recased same slash, eq_iff_recased same' slash]
      split
      · exact .nil
      · exact .cons same ih

theorem dropBlanks (h : Recased t u) : Recased (t.dropWhile isBlank) (u.dropWhile isBlank) := by
  induction h with
  | nil => exact .nil
  | @cons c d t u same rest ih =>
    simp only [List.dropWhile_cons, isBlank_recased same]
    split
    · exact ih
    · exact .cons same rest

theorem trim (h : Recased t u) : Recased t.trim u.trim := h.dropBlanks.reverse.dropBlanks.reverse

theorem startsCased (h : Recased t u) : startsCased t = startsCased u := by
  induction h with
  | nil => rfl
  | @cons c d t u same rest ih =>
    simp only [Text.startsCased, isCaseIgnorable_recased same, isCased_recased same, ih]

end Recased

theorem lowerAfter_recased (h : Recased t u) (cased : Bool) :
    lowerAfter cased t = lowerAfter cased u := by
  have sigma : ∀ c ∈ capitals, c ≠ 'Σ' ∧ c.toLower ≠ 'Σ' := by decide
  induction h generalizing cased with
  | nil => rfl
  | @cons c d t u same rest ih =>
    simp only [lowerAfter, eq_iff_recased same sigma, lowerChar_recased same,
      isCaseIgnorable_recased same, isCased_recased same, Recased.startsCased rest, ih]

/-- **Lower case forgets the case of ASCII letters**, whatever else there is in the text. -/
theorem lower_recased (h : Recased t u) : lower t = lower u := lowerAfter_recased h false

end Text

end Stepwise

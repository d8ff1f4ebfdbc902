/-
  Stepwise/Proofs/Text/Lower.lean
  ===============================
  **Lower case changes nothing a second time.**

  What letters become is small: no mapping of the table leads to a character that another
  one moves further, and a sigma becomes one of the two small ones.  A text of small
  characters is its own lower case (`lower_of_small`).  A character that comes out changed
  is neither blank nor a slash, so lower case opens no comment and puts no blank at an end
  (`lowersTo_lower`).
-/
import Stepwise.Text.Blank
import Stepwise.Text.Case

namespace Stepwise

/-! ### Where the table leads -/

namespace CaseRun

variable {r s : CaseRun} {code : Nat}

def lowest (r : CaseRun) : Nat := (r.first + r.shift).toNat

def highest (r : CaseRun) : Nat := (r.last + r.shift).toNat

/-- No code point from `low` to `high` is in the range. -/
def beside (low high : Nat) (range : CharRange) : Bool :=
  Nat.blt high range.first || Nat.blt range.last low

/-- The run maps no code point from `low` to `high`, taken in steps: it lies elsewhere, or
    every second one lies between them. -/
def passes (low high stride : Nat) (s : CaseRun) : Bool :=
  beside low high ⟨s.first, s.last⟩
    || (s.stride == 2 && (stride == 2 || low == high) && (low + s.first) % 2 == 1)

/-- Code points that no run may lead to: blanks, the slash, the dotted capital I, and those
    that are no character. -/
def kept : List CharRange := Text.blankRanges ++ [⟨0x2F, 0x2F⟩, ⟨0x130, 0x130⟩, ⟨0xD800, 0xDFFF⟩]

def settles (r : CaseRun) : Bool :=
  decide (0 ≤ r.first + r.shift) && Nat.blt r.highest 0x110000
    && kept.all (beside r.lowest r.highest)
    && Text.lowerRuns.all (passes r.lowest r.highest r.stride)

theorem settles_of_mem : ∀ r ∈ Text.lowerRuns, settles r = true := by decide +kernel

theorem not_covers_of_beside {low high : Nat} {range : CharRange}
    (h : beside low high range = true) (hl : low ≤ code) (hh : code ≤ high) :
    range.covers code = false := by
  simp only [beside, Bool.or_eq_true, Nat.blt_eq] at h
  simp only [CharRange.covers, Bool.and_eq_false_iff, decide_eq_false_iff_not]
  omega

theorem not_covers_of_passes {low high stride : Nat} (h : passes low high stride s = true)
    (hl : low ≤ code) (hh : code ≤ high) (step : (code - low) % stride = 0) :
    s.covers code = false := by
  simp only [passes, Bool.or_eq_true, Bool.and_eq_true, beq_iff_eq] at h
  simp only [covers, Bool.and_eq_false_iff, decide_eq_false_iff_not, beq_eq_false_iff_ne]
  rcases h with elsewhere | ⟨⟨every, steps⟩, odd⟩
  · have := not_covers_of_beside elsewhere hl hh
    simp only [CharRange.covers, Bool.and_eq_false_iff, decide_eq_false_iff_not] at this
    exact .inl this
  · by_cases below : s.first ≤ code
    · refine .inr ?_
      rw [every]
      rcases steps with two | one
      · rw [two] at step
        omega
      · omega
    · exact .inl (.inl below)

theorem target_bounds (h : r.covers code = true) (starts : 0 ≤ r.first + r.shift) :
    r.lowest ≤ (code + r.shift).toNat ∧ (code + r.shift).toNat ≤ r.highest ∧
      ((code + r.shift).toNat - r.lowest) % r.stride = 0 := by
  simp only [covers, Bool.and_eq_true, decide_eq_true_eq, beq_iff_eq] at h
  obtain ⟨⟨low, high⟩, stride⟩ := h
  have distance : (code + r.shift).toNat - r.lowest = code - r.first := by
    simp only [lowest]
    omega
  refine ⟨?_, ?_, distance ▸ stride⟩
  · simp only [lowest]
    omega
  · simp only [highest]
    omega

/-- What a run maps, none maps further, and it is no blank, no slash and no capital. -/
theorem settled_of_covers (hr : r ∈ Text.lowerRuns) (h : r.covers code = true) :
    (code + r.shift).toNat.isValidChar ∧
      (∀ range ∈ kept, range.covers (code + r.shift).toNat = false) ∧
      ∀ s ∈ Text.lowerRuns, s.covers (code + r.shift).toNat = false := by
  have settles := settles_of_mem r hr
  simp only [CaseRun.settles, Bool.and_eq_true, decide_eq_true_eq, Nat.blt_eq, List.all_eq_true]
    at settles
  obtain ⟨⟨⟨starts, small⟩, keeps⟩, others⟩ := settles
  obtain ⟨low, high, step⟩ := target_bounds h starts
  have kept : ∀ range ∈ kept, range.covers (code + r.shift).toNat = false :=
    fun range hrange => not_covers_of_beside (keeps range hrange) low high
  refine ⟨?_, kept, fun s hs => not_covers_of_passes (others s hs) low high step⟩
  have surrogate := kept ⟨0xD800, 0xDFFF⟩ (by decide)
  simp only [CharRange.covers, Bool.and_eq_false_iff, decide_eq_false_iff_not] at surrogate
  simp only [Nat.isValidChar]
  omega

end CaseRun

namespace Text

variable {c d : Char} {t u : Text}

/-! ### Characters -/

/-- What is said of the characters of a text is checked on those of the text, however many
    characters there are. -/
instance decidableForallMem {P : Char → Prop} [DecidablePred P] (t : Text) :
    Decidable (∀ c ∈ t, P c) :=
  List.decidableBAll P t

/-- Lower case leaves the character as it is, whatever its neighbours. -/
def Small (c : Char) : Prop := c ≠ 'Σ' ∧ lowerChar c = [c]

instance (c : Char) : Decidable (Small c) := inferInstanceAs (Decidable (_ ∧ _))

/-- What may take the place of a character: small characters, and the same one, or others
    that are neither blank nor slashes. -/
def Lowers (c : Char) (part : Text) : Prop :=
  part ≠ [] ∧ (∀ d ∈ part, Small d) ∧ (part = [c] ∨ ∀ d ∈ part, isBlank d = false ∧ d ≠ '/')

instance (c : Char) (part : Text) : Decidable (Lowers c part) :=
  inferInstanceAs (Decidable (_ ∧ _))

theorem small_of_not_covers (dotted : c.toNat ≠ 0x130)
    (h : ∀ r ∈ lowerRuns, r.covers c.toNat = false) : Small c := by
  refine ⟨?_, ?_⟩
  · rintro rfl
    exact absurd (h ⟨0x3A3, 0x3AB, 1, 32⟩ (by decide)) (by decide)
  · have none : lowerRuns.find? (·.covers c.toNat) = none := by
      rw [List.find?_eq_none]
      intro r hr
      rw [h r hr]
      exact Bool.false_ne_true
    have capitals := h ⟨0x41, 0x5A, 1, 32⟩ List.mem_cons_self
    simp only [CaseRun.covers, Nat.mod_one, BEq.rfl, Bool.and_true, Bool.and_eq_false_iff,
      decide_eq_false_iff_not] at capitals
    have same : c.toLower = c := by
      refine dif_neg ?_
      rintro ⟨above, below⟩
      have low : 0x41 ≤ c.toNat := UInt32.le_iff_toNat_le.mp above
      have high : c.toNat ≤ 0x5A := UInt32.le_iff_toNat_le.mp below
      omega
    simp only [lowerChar, same, dotted, none, if_false, ite_self]

theorem lowers_ascii : ∀ n < 0x80, Lowers (Char.ofNat n) [(Char.ofNat n).toLower] := by
  decide +kernel

theorem lowers_of_char (small : Small d) (marks : d = c ∨ isBlank d = false ∧ d ≠ '/') :
    Lowers c [d] := by
  refine ⟨List.cons_ne_nil _ _, List.forall_mem_singleton.mpr small, ?_⟩
  rcases marks with same | mark
  · exact .inl (same ▸ rfl)
  · exact .inr (List.forall_mem_singleton.mpr mark)

theorem lowers_lowerChar (c : Char) : Lowers c (lowerChar c) := by
  simp only [lowerChar]
  split
  · rename_i ascii
    have lowers := lowers_ascii c.toNat ascii
    rw [Char.ofNat_toNat] at lowers
    exact lowers
  · split
    · refine ⟨List.cons_ne_nil _ _, ?_, .inr ?_⟩ <;> decide +kernel
    · rename_i dotted
      split
      · rename_i r hr
        have covers : r.covers c.toNat = true := by simpa using List.find?_some hr
        obtain ⟨valid, keeps, settled⟩ :=
          CaseRun.settled_of_covers (List.mem_of_find?_eq_some hr) covers
        generalize hd : Char.ofNat (c.toNat + r.shift).toNat = d
        have code : d.toNat = (c.toNat + r.shift).toNat := by
          rw [← hd, Char.ofNat, dif_pos valid]
          rfl
        rw [← code] at keeps settled
        refine lowers_of_char (small_of_not_covers ?_ settled) (.inr ⟨?_, ?_⟩)
        · intro dotted
          exact absurd (keeps ⟨0x130, 0x130⟩ (by decide)) (by simp [dotted, CharRange.covers])
        · rw [isBlank, CharRange.anyCovers, List.any_eq_false]
          intro range hrange
          rw [keeps range (List.mem_append_left _ hrange)]
          exact Bool.false_ne_true
        · rintro rfl
          exact absurd (keeps ⟨0x2F, 0x2F⟩ (by decide)) (by decide)
      · rename_i unmapped
        refine lowers_of_char (small_of_not_covers dotted fun r hr => ?_) (.inl rfl)
        simpa using List.find?_eq_none.mp unmapped r hr

/-! ### Texts -/

/-- Each character of the first text comes out as a part of the second, in order. -/
inductive LowersTo : Text → Text → Prop where
  | nil : LowersTo [] []
  | cons {c : Char} {part t u : Text} (lowers : Lowers c part) (rest : LowersTo t u) :
      LowersTo (c :: t) (part ++ u)

theorem lowersTo_lowerAfter (cased : Bool) (t : Text) : LowersTo t (lowerAfter cased t) := by
  induction t generalizing cased with
  | nil => exact .nil
  | cons c t ih =>
    simp only [lowerAfter]
    refine .cons ?_ (ih _)
    split
    · rename_i sigma
      subst sigma
      split <;> decide +kernel
    · exact lowers_lowerChar c

/-- **Lower case is small**, character by character. -/
theorem lowersTo_lower (t : Text) : LowersTo t (lower t) := lowersTo_lowerAfter false t

theorem lowerAfter_of_small (h : ∀ c ∈ t, Small c) (cased : Bool) : lowerAfter cased t = t := by
  induction t generalizing cased with
  | nil => rfl
  | cons c t ih =>
    obtain ⟨⟨sigma, first⟩, rest⟩ := List.forall_mem_cons.mp h
    simp only [lowerAfter, sigma, if_false, first, ih rest]
    rfl

theorem lower_of_small (h : ∀ c ∈ t, Small c) : lower t = t := lowerAfter_of_small h false

namespace LowersTo

theorem small (h : LowersTo t u) (hd : d ∈ u) : Small d := by
  induction h with
  | nil => cases hd
  | cons lowers _ ih =>
    rcases List.mem_append.mp hd with hd | hd
    · exact lowers.2.1 d hd
    · exact ih hd

theorem mem (h : LowersTo t u) (hd : d ∈ u) : d ∈ t ∨ isBlank d = false ∧ d ≠ '/' := by
  induction h with
  | nil => cases hd
  | cons lowers _ ih =>
    rcases List.mem_append.mp hd with hd | hd
    · rcases lowers.2.2 with rfl | marks
      · exact .inl (List.mem_singleton.mp hd ▸ List.mem_cons_self)
      · exact .inr (marks d hd)
    · exact (ih hd).imp_left (List.mem_cons_of_mem _)

theorem eq_nil (h : LowersTo t u) (empty : u = []) : t = [] := by
  cases h with
  | nil => rfl
  | cons lowers _ => exact absurd (List.append_eq_nil_iff.mp empty).1 lowers.1

theorem head? (h : LowersTo t u) (hd : u.head? = some d) :
    t.head? = some d ∨ isBlank d = false ∧ d ≠ '/' := by
  cases h with
  | nil => cases hd
  | @cons c part t u lowers rest =>
    rcases lowers.2.2 with rfl | marks
    · exact .inl hd
    · obtain ⟨e, more, rfl⟩ := List.exists_cons_of_ne_nil lowers.1
      cases hd
      exact .inr (marks d List.mem_cons_self)

theorem getLast? (h : LowersTo t u) (hd : u.getLast? = some d) :
    t.getLast? = some d ∨ isBlank d = false ∧ d ≠ '/' := by
  induction h with
  | nil => cases hd
  | @cons c part t u lowers rest ih =>
    rw [List.getLast?_append, Option.or_eq_some_iff, List.getLast?_eq_none_iff] at hd
    rcases hd with behind | ⟨empty, here⟩
    · refine (ih behind).imp_left fun last => ?_
      rw [List.getLast?_cons, last]
      rfl
    · rw [rest.eq_nil empty]
      rcases lowers.2.2 with rfl | marks
      · exact .inl here
      · exact .inr (marks d (List.mem_of_getLast? here))

end LowersTo

end Text

end Stepwise

/-
  Stepwise/Proofs/Text/Placeholders.lean
  ======================================
  **Placeholders are filled where they stand.**

  A placeholder is two different characters in a row, so it never overlaps another one, and
  nothing else can begin or end inside it.  A text is therefore filled part by part
  (`replacePair_append_cons`, `replacePair_append_pair`), and if neither of the two
  characters separates fields, its fields are filled one by one (`fields_replacePair`).
-/
import Stepwise.Proofs.Assembly.NormalForm

namespace Stepwise

namespace Text

variable {a b c : Char} {filling t u : Text} {isSeparator : Char → Bool}

@[simp] theorem replacePair_cons (other : c ≠ a) (t : Text) :
    replacePair a b filling (c :: t) = c :: replacePair a b filling t := by
  cases t with
  | nil => rfl
  | cons d t => simp [replacePair, other]

/-- A text is filled apart from what stands in front of a character that is in no
    placeholder. -/
theorem replacePair_append_cons (first : c ≠ a) (second : c ≠ b) (t u : Text) :
    replacePair a b filling (t ++ c :: u) =
      replacePair a b filling t ++ c :: replacePair a b filling u := by
  fun_induction replacePair a b filling t with
  | case1 => exact replacePair_cons first u
  | case2 d => simp [replacePair, second, replacePair_cons first u]
  | case3 d e rest pair ih =>
    rw [List.cons_append, List.cons_append, replacePair, if_pos pair, ih, List.append_assoc]
  | case4 d e rest pair ih =>
    rw [List.cons_append] at ih
    rw [List.cons_append, List.cons_append, replacePair, if_neg pair, ih, List.cons_append]

theorem replacePair_append_of_not_mem (unmarked : a ∉ t) (u : Text) :
    replacePair a b filling (t ++ u) = t ++ replacePair a b filling u := by
  induction t with
  | nil => rfl
  | cons c t ih =>
    rw [List.mem_cons, not_or] at unmarked
    rw [List.cons_append, replacePair_cons (Ne.symm unmarked.1), ih unmarked.2, List.cons_append]

/-- **A placeholder is filled where it stands.** -/
theorem replacePair_append_pair (apart : a ≠ b) (t u : Text) :
    replacePair a b filling (t ++ a :: b :: u) =
      replacePair a b filling t ++ filling ++ replacePair a b filling u := by
  fun_induction replacePair a b filling t with
  | case1 => simp [replacePair]
  | case2 d => simp [replacePair, apart]
  | case3 d e rest pair ih =>
    rw [List.cons_append, List.cons_append, replacePair, if_pos pair, ih]
    simp only [List.append_assoc]
  | case4 d e rest pair ih =>
    rw [List.cons_append] at ih
    rw [List.cons_append, List.cons_append, replacePair, if_neg pair, ih]
    simp only [List.cons_append]

theorem countPair_append_pair (apart : a ≠ b) (t u : Text) :
    countPair a b (t ++ a :: b :: u) = countPair a b t + 1 + countPair a b u := by
  fun_induction countPair a b t with
  | case1 => simp [countPair, Nat.add_comm]
  | case2 d => simp [countPair, apart, Nat.add_comm]
  | case3 d e rest pair ih =>
    rw [List.cons_append, List.cons_append, countPair, if_pos pair, ih]
    omega
  | case4 d e rest pair ih =>
    rw [List.cons_append] at ih
    rw [List.cons_append, List.cons_append, countPair, if_neg pair, ih]

theorem countPair_of_not_mem (unmarked : a ∉ t) : countPair a b t = 0 := by
  fun_induction countPair a b t with
  | case1 => rfl
  | case2 d => rfl
  | case3 d e rest pair ih => exact absurd (pair.1 ▸ List.mem_cons_self) unmarked
  | case4 d e rest pair ih => exact ih fun mark => unmarked (List.mem_cons_of_mem d mark)

theorem countPair_of_append (none : countPair a b (t ++ u) = 0) : countPair a b t = 0 := by
  fun_induction countPair a b t with
  | case1 => rfl
  | case2 d => rfl
  | case3 d e rest pair => simp [countPair, pair] at none
  | case4 d e rest pair ih =>
    rw [List.cons_append, List.cons_append, countPair, if_neg pair] at none
    exact ih none

theorem replacePair_of_countPair (none : countPair a b t = 0) : replacePair a b filling t = t := by
  fun_induction countPair a b t with
  | case1 => rfl
  | case2 d => rfl
  | case3 d e rest pair ih => cases none
  | case4 d e rest pair ih => rw [replacePair, if_neg pair, ih none]

theorem replacePair_of_not_mem (unmarked : a ∉ t) : replacePair a b filling t = t :=
  replacePair_of_countPair (countPair_of_not_mem unmarked)

theorem fields_replacePair_of_plain (shown : filling ≠ [])
    (plain : ∀ c ∈ filling, isSeparator c = false) (all : ∀ c ∈ t, isSeparator c = false) :
    fields isSeparator (replacePair a b filling t) =
      (fields isSeparator t).map (replacePair a b filling) := by
  have filled : ∀ c ∈ replacePair a b filling t, isSeparator c = false := by
    intro c hc
    rcases mem_replacePair hc with hc | hc
    · exact plain c hc
    · exact all c hc
  by_cases begun : t = []
  · subst begun
    rfl
  · have begun' : replacePair a b filling t ≠ [] :=
      fun empty => begun (replacePair_eq_nil shown empty)
    rw [fields_of_plain begun' filled, fields_of_plain begun all]
    rfl

/-- **Fields are filled one by one.** -/
theorem fields_replacePair (shown : filling ≠ []) (plain : ∀ c ∈ filling, isSeparator c = false)
    (first : isSeparator a = false) (second : isSeparator b = false) (t : Text) :
    fields isSeparator (replacePair a b filling t) =
      (fields isSeparator t).map (replacePair a b filling) := by
  induction t using fields_induction isSeparator with
  | plain t all => exact fields_replacePair_of_plain shown plain all
  | separated front c back hf hc ih =>
    have other {d : Char} (hd : isSeparator d = false) : c ≠ d := by
      rintro rfl
      rw [hc] at hd
      cases hd
    rw [replacePair_append_cons (other first) (other second), fields_append_separator hc,
      fields_append_separator hc, fields_replacePair_of_plain shown plain hf, ih, List.map_append]

end Text

end Stepwise

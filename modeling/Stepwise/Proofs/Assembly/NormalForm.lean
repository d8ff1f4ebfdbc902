/-
  Stepwise/Proofs/Assembly/NormalForm.lean
  ========================================
  **Texts in normal form.**

  The normal form of a line has small letters only, no comment, no blanks at its ends and
  no line feed (`NormalForm`, `normalForm_normalize`), and a text like that is its own
  normal form (`NormalForm.normalize_eq`).  So normalization changes nothing a second time.
  It changes nothing either in what is put together of such texts, as long as no two slashes
  come to stand side by side: a text behind another one (`NormalForm.append`), or a text
  with its placeholders filled in (`NormalForm.fill`).
-/
import Mathlib.Data.List.Chain
import Stepwise.Assembly.Expansion
import Stepwise.Proofs.Assembly.Opening
import Stepwise.Proofs.Text.Fields
import Stepwise.Proofs.Text.Lower

namespace Stepwise

namespace Text

variable {t u : Text} {c d : Char}

/-! ### Comments -/

/-- No two slashes stand side by side. -/
def Uncommented (t : Text) : Prop := t.IsChain fun c d => ¬ (c = '/' ∧ d = '/')

theorem uncommented_of_not_mem (h : '/' ∉ t) : Uncommented t := by
  induction t with
  | nil => exact .nil
  | cons c t ih =>
    rw [List.mem_cons, not_or] at h
    refine List.isChain_cons.mpr ⟨?_, ih h.2⟩
    rintro d - ⟨slash, -⟩
    exact h.1 slash.symm

/-- Texts without comments have none when they are joined, unless slashes meet. -/
theorem Uncommented.append (ht : Uncommented t) (hu : Uncommented u)
    (apart : t.getLast? ≠ some '/' ∨ u.head? ≠ some '/') : Uncommented (t ++ u) := by
  refine List.isChain_append.mpr ⟨ht, hu, ?_⟩
  rintro c hc d hd ⟨rfl, rfl⟩
  rcases apart with h | h
  · exact h hc
  · exact h hd

theorem isPrefix_beforePair (a b : Char) (t : Text) : t.beforePair a b <+: t := by
  fun_induction beforePair a b t with
  | case1 => exact List.nil_prefix
  | case2 c => exact List.prefix_rfl
  | case3 c d rest pair => exact List.nil_prefix
  | case4 c d rest pair ih => exact List.prefix_cons_inj c |>.mpr ih

theorem uncommented_beforePair (t : Text) : Uncommented (t.beforePair '/' '/') := by
  fun_induction beforePair '/' '/' t with
  | case1 => exact .nil
  | case2 c => exact .singleton c
  | case3 c d rest pair => exact .nil
  | case4 c d rest pair ih =>
    refine List.isChain_cons.mpr ⟨?_, ih⟩
    rintro e he ⟨rfl, rfl⟩
    -- what follows is the beginning of the text behind
    obtain ⟨more, eq⟩ := isPrefix_beforePair '/' '/' (d :: rest)
    refine pair ⟨rfl, ?_⟩
    cases h : beforePair '/' '/' (d :: rest) with
    | nil => simp [h] at he
    | cons e' front =>
      rw [h] at he eq
      cases he
      cases eq
      rfl

theorem beforePair_of_uncommented (h : Uncommented t) : t.beforePair '/' '/' = t := by
  fun_induction beforePair '/' '/' t with
  | case1 => rfl
  | case2 c => rfl
  | case3 c d rest pair => exact absurd pair (List.isChain_cons_cons.mp h).1
  | case4 c d rest pair ih => rw [ih (List.isChain_cons_cons.mp h).2]

theorem beforePair_concat {a b : Char} (other : c ≠ b) (t : Text) :
    beforePair a b (t ++ [c]) = beforePair a b t ++ [c] ∨
      beforePair a b (t ++ [c]) = beforePair a b t := by
  fun_induction beforePair a b t with
  | case1 => exact .inl rfl
  | case2 d => simp [beforePair, other]
  | case3 d e rest pair => simp [beforePair, pair]
  | case4 d e rest pair ih =>
    simp only [List.cons_append, beforePair, pair, if_false] at ih ⊢
    rcases ih with ih | ih
    · exact .inl (by rw [ih])
    · exact .inr (by rw [ih])

theorem LowersTo.uncommented (h : LowersTo t u) (ht : Uncommented t) : Uncommented u := by
  induction h with
  | nil => exact .nil
  | @cons c part t u lowers rest ih =>
    obtain ⟨next, chain⟩ := List.isChain_cons.mp ht
    rcases lowers.2.2 with rfl | marks
    · refine List.isChain_cons.mpr ⟨?_, ih chain⟩
      rintro d hd ⟨rfl, rfl⟩
      rcases rest.head? hd with same | ⟨-, mark⟩
      · exact next _ same ⟨rfl, rfl⟩
      · exact mark rfl
    · refine (uncommented_of_not_mem ?_).append (ih chain) (.inl ?_)
      · intro slash
        exact (marks _ slash).2 rfl
      · intro slash
        exact (marks _ (List.mem_of_getLast? slash)).2 rfl

/-! ### Blanks -/

theorem first_trim (h : t.trim.head? = some c) : isBlank c = false := by
  rw [head?_trim] at h
  exact mark_of_firstMark? h

theorem last_trim (h : t.trim.getLast? = some c) : isBlank c = false := by
  rw [trim, strip, List.getLast?_reverse, head?_dropWhile] at h
  exact mark_of_firstMark? h

theorem dropWhile_of_first (first : ∀ c, t.head? = some c → isBlank c = false) :
    t.dropWhile isBlank = t := by
  cases t with
  | nil => rfl
  | cons c t => exact List.dropWhile_cons_of_neg (by simp [first c rfl])

theorem trim_eq_self (first : ∀ c, t.head? = some c → isBlank c = false)
    (last : ∀ c, t.getLast? = some c → isBlank c = false) : t.trim = t := by
  have back : t.reverse.dropWhile isBlank = t.reverse := by
    refine dropWhile_of_first fun c hc => last c ?_
    rwa [List.head?_reverse] at hc
  rw [trim, strip, dropWhile_of_first first, back, List.reverse_reverse]

theorem trim_concat (blank : isBlank c = true) (t : Text) : (t ++ [c]).trim = t.trim := by
  rw [trim, strip, List.dropWhile_append]
  split
  · rename_i empty
    simp [trim, strip, List.isEmpty_iff.mp empty, blank]
  · simp [trim, strip, blank]

theorem isInfix_trim (t : Text) : t.trim <:+: t := by
  obtain ⟨front, back, eq, -, -⟩ := exists_strip_eq isBlank t
  exact ⟨front, back, eq.symm⟩

/-! ### Lines -/

theorem unbroken_closeLine {current : Text} (h : '\n' ∉ current) : '\n' ∉ closeLine current := by
  unfold closeLine
  split
  · intro feed
    exact h (List.mem_cons_of_mem _ (List.mem_reverse.mp feed))
  · intro feed
    exact h (List.mem_reverse.mp feed)

theorem unbroken_of_mem_linesFrom {current line : Text} (hc : '\n' ∉ current)
    (h : line ∈ linesFrom current t) : '\n' ∉ line := by
  induction t generalizing current with
  | nil =>
    simp only [linesFrom] at h
    split at h
    · cases h
    · rw [List.mem_singleton.mp h]
      simpa using hc
  | cons c t ih =>
    simp only [linesFrom] at h
    split at h
    · rcases List.mem_cons.mp h with rfl | h
      · exact unbroken_closeLine hc
      · exact ih List.not_mem_nil h
    · rename_i other
      refine ih ?_ h
      rw [List.mem_cons, not_or]
      exact ⟨fun feed => other feed.symm, hc⟩

theorem unbroken_of_mem_lines {line : Text} (h : line ∈ t.lines) : '\n' ∉ line :=
  unbroken_of_mem_linesFrom List.not_mem_nil h

theorem normalize_concat (blank : isBlank c = true) (other : c ≠ '/') (line : Text) :
    SourceLine.normalize (line ++ [c]) = SourceLine.normalize line := by
  have trimmed : (beforePair '/' '/' (line ++ [c])).trim = (beforePair '/' '/' line).trim := by
    rcases beforePair_concat other line with kept | cut
    · rw [kept, trim_concat blank]
    · rw [cut]
  rw [SourceLine.normalize, trimmed, SourceLine.normalize]

/-- A carriage return at the end of a line is a blank, whether or not a line feed follows. -/
theorem normalize_closeLine (current : Text) :
    SourceLine.normalize (closeLine current) = SourceLine.normalize current.reverse := by
  unfold closeLine
  split
  · rename_i line
    rw [List.reverse_cons, normalize_concat (by decide) (by decide)]
  · rfl

theorem normalize_linesFrom_feed (current t : Text) :
    ∃ blank, (∀ line ∈ blank, line = []) ∧
      (linesFrom current (t ++ ['\n'])).map SourceLine.normalize =
        (linesFrom current t).map SourceLine.normalize ++ blank := by
  induction t generalizing current with
  | nil =>
    by_cases begun : current = []
    · exact ⟨[[]], by simp, by simp [begun, linesFrom, closeLine]; rfl⟩
    · exact ⟨[], by simp, by simp [begun, linesFrom, normalize_closeLine]⟩
  | cons c t ih =>
    simp only [List.cons_append, linesFrom]
    split
    · obtain ⟨blank, empty, same⟩ := ih []
      exact ⟨blank, empty, by rw [List.map_cons, same, List.map_cons, List.cons_append]⟩
    · exact ih (c :: current)

/-! ### Placeholders -/

section Placeholders

variable {a b : Char} {filling : Text} {R : Char → Char → Prop}

theorem mem_replacePair (h : d ∈ replacePair a b filling t) : d ∈ filling ∨ d ∈ t := by
  fun_induction replacePair a b filling t with
  | case1 => cases h
  | case2 c => exact .inr h
  | case3 c e rest pair ih =>
    rcases List.mem_append.mp h with h | h
    · exact .inl h
    · exact (ih h).imp_right fun h => List.mem_cons_of_mem _ (List.mem_cons_of_mem _ h)
  | case4 c e rest pair ih =>
    rcases List.mem_cons.mp h with rfl | h
    · exact .inr List.mem_cons_self
    · exact (ih h).imp_right (List.mem_cons_of_mem _)

theorem head?_replacePair (shown : filling ≠ []) (h : (replacePair a b filling t).head? = some d) :
    filling.head? = some d ∧ t.head? = some a ∨ t.head? = some d := by
  obtain ⟨f, more, rfl⟩ := List.exists_cons_of_ne_nil shown
  fun_cases replacePair a b (f :: more) t with
  | case1 => cases h
  | case2 c => exact .inr h
  | case3 c e rest pair =>
    rw [replacePair, if_pos pair] at h
    exact .inl ⟨h, congrArg some pair.1⟩
  | case4 c e rest pair =>
    rw [replacePair, if_neg pair] at h
    exact .inr h

theorem replacePair_eq_nil (shown : filling ≠ []) (h : replacePair a b filling t = []) :
    t = [] := by
  fun_cases replacePair a b filling t with
  | case1 => rfl
  | case2 c => cases h
  | case3 c e rest pair =>
    rw [replacePair, if_pos pair] at h
    exact absurd (List.append_eq_nil_iff.mp h).1 shown
  | case4 c e rest pair =>
    rw [replacePair, if_neg pair] at h
    cases h

theorem getLast?_replacePair (shown : filling ≠ [])
    (h : (replacePair a b filling t).getLast? = some d) :
    filling.getLast? = some d ∨ t.getLast? = some d := by
  fun_induction replacePair a b filling t with
  | case1 => cases h
  | case2 c => exact .inr h
  | case3 c e rest pair ih =>
    rw [List.getLast?_append, Option.or_eq_some_iff] at h
    rcases h with behind | ⟨-, here⟩
    · refine (ih behind).imp_right fun last => ?_
      simp [List.getLast?_cons, last]
    · exact .inl here
  | case4 c e rest pair ih =>
    cases behind : (replacePair a b filling (e :: rest)).getLast? with
    | none =>
      rw [List.getLast?_eq_none_iff] at behind
      cases replacePair_eq_nil shown behind
    | some e' =>
      rw [List.getLast?_cons, behind] at h
      cases h
      refine (ih behind).imp_right fun last => ?_
      rw [List.getLast?_cons, last]
      rfl

/-- What holds of neighbours holds of them in the filled text, if the filling gets on with
    all that its placeholder got on with. -/
theorem isChain_replacePair (shown : filling ≠ []) (within : filling.IsChain R)
    (before : ∀ c, R c a → ∀ d, filling.head? = some d → R c d)
    (behind : ∀ d, R b d → ∀ c, filling.getLast? = some c → R c d) (h : t.IsChain R) :
    (replacePair a b filling t).IsChain R := by
  fun_induction replacePair a b filling t with
  | case1 => exact .nil
  | case2 c => exact .singleton c
  | case3 c e rest pair ih =>
    obtain ⟨rfl, rfl⟩ := pair
    obtain ⟨-, next, chain⟩ := by simpa only [List.isChain_cons] using h
    refine List.isChain_append.mpr ⟨within, ih chain, ?_⟩
    intro last hl d hd
    rcases head?_replacePair shown hd with ⟨again, placeholder⟩ | same
    · exact before last (behind _ (next _ placeholder) last hl) d again
    · exact behind d (next d same) last hl
  | case4 c e rest pair ih =>
    obtain ⟨next, chain⟩ := List.isChain_cons_cons.mp h
    refine List.isChain_cons.mpr ⟨?_, ih chain⟩
    intro d hd
    rcases head?_replacePair shown hd with ⟨filled, placeholder⟩ | same
    · cases placeholder
      exact before c next d filled
    · cases same
      exact next

end Placeholders

/-! ### Normal forms -/

/-- The text is one that normalization leaves. -/
structure NormalForm (t : Text) : Prop where
  small : ∀ c ∈ t, Small c
  uncommented : Uncommented t
  first : ∀ c, t.head? = some c → isBlank c = false
  last : ∀ c, t.getLast? = some c → isBlank c = false
  unbroken : '\n' ∉ t

namespace NormalForm

theorem normalize_eq (h : NormalForm t) : SourceLine.normalize t = t := by
  rw [SourceLine.normalize, beforePair_of_uncommented h.uncommented, trim_eq_self h.first h.last,
    lower_of_small h.small]

theorem isLine (h : NormalForm t) (begun : t ≠ []) : IsLine t where
  begun := begun
  unbroken := h.unbroken
  uncut := fun last => absurd (h.last _ last) (by decide)

theorem append (ht : NormalForm t) (hu : NormalForm u)
    (apart : t.getLast? ≠ some '/' ∨ u.head? ≠ some '/') : NormalForm (t ++ u) where
  small := List.forall_mem_append.mpr ⟨ht.small, hu.small⟩
  uncommented := ht.uncommented.append hu.uncommented apart
  first := by
    intro c hc
    rw [List.head?_append, Option.or_eq_some_iff] at hc
    rcases hc with hc | ⟨-, hc⟩
    · exact ht.first c hc
    · exact hu.first c hc
  last := by
    intro c hc
    rw [List.getLast?_append, Option.or_eq_some_iff] at hc
    rcases hc with hc | ⟨-, hc⟩
    · exact hu.last c hc
    · exact ht.last c hc
  unbroken := by
    rw [List.mem_append, not_or]
    exact ⟨ht.unbroken, hu.unbroken⟩

/-- Placeholders filled with a text in normal form leave one. -/
theorem fill {tag : Text} (ht : NormalForm tag) (shown : tag ≠ []) (apart : '/' ∉ tag)
    (h : NormalForm t) : NormalForm (Expansion.fill tag t) where
  small := by
    intro c hc
    rcases mem_replacePair hc with hc | hc
    · exact ht.small c hc
    · exact h.small c hc
  uncommented := by
    refine isChain_replacePair shown ht.uncommented ?_ ?_ h.uncommented
    · rintro c - d hd ⟨-, rfl⟩
      exact apart (List.mem_of_head? hd)
    · rintro d - c hc ⟨rfl, -⟩
      exact apart (List.mem_of_getLast? hc)
  first := by
    intro c hc
    rcases head?_replacePair shown hc with ⟨hc, -⟩ | hc
    · exact ht.first c hc
    · exact h.first c hc
  last := by
    intro c hc
    rcases getLast?_replacePair shown hc with hc | hc
    · exact ht.last c hc
    · exact h.last c hc
  unbroken := by
    intro feed
    rcases mem_replacePair feed with feed | feed
    · exact ht.unbroken feed
    · exact h.unbroken feed

end NormalForm

/-- **Normalization leaves normal forms.** -/
theorem normalForm_normalize (unbroken : '\n' ∉ t) : NormalForm (SourceLine.normalize t) := by
  have lowers := lowersTo_lower (t.beforePair '/' '/').trim
  have inner := isInfix_trim (t.beforePair '/' '/')
  have uncommented : Uncommented (t.beforePair '/' '/').trim :=
    List.IsChain.infix (uncommented_beforePair t) inner
  refine ⟨fun c hc => lowers.small hc, ?_, ?_, ?_, ?_⟩
  · exact lowers.uncommented uncommented
  · intro c hc
    rcases lowers.head? hc with hc | ⟨mark, -⟩
    · exact first_trim hc
    · exact mark
  · intro c hc
    rcases lowers.getLast? hc with hc | ⟨mark, -⟩
    · exact last_trim hc
    · exact mark
  · intro feed
    rcases lowers.mem feed with feed | ⟨mark, -⟩
    · exact unbroken ((isPrefix_beforePair '/' '/' t).mem (inner.mem feed))
    · exact absurd mark (by decide)

end Text

theorem SourceLine.normalForm_of_mem {source : Text} {line : SourceLine}
    (h : line ∈ ofSource source) : Text.NormalForm line.text := by
  obtain ⟨⟨raw, number⟩, entry, rfl⟩ := List.mem_map.mp h
  exact Text.normalForm_normalize (Text.unbroken_of_mem_lines (List.fst_mem_of_mem_zipIdx entry))

/-- **A source of lines in normal form is its own normal form.** -/
theorem SourceLine.texts_ofSource_join {texts : List Text}
    (normal : ∀ t ∈ texts, Text.NormalForm t) (begun : ∀ t ∈ texts, t ≠ []) :
    (ofSource (Text.join ['\n'] texts)).map (·.text) = texts := by
  have lines : (Text.join ['\n'] texts).lines = texts :=
    Text.lines_join fun t ht => (normal t ht).isLine (begun t ht)
  rw [ofSource, lines, List.map_map]
  have same : ∀ entry ∈ texts.zipIdx 1, normalize entry.1 = entry.1 :=
    fun entry he => (normal _ (List.fst_mem_of_mem_zipIdx he)).normalize_eq
  exact (List.map_congr_left same).trans (List.zipIdx_map_fst 1 texts)

end Stepwise

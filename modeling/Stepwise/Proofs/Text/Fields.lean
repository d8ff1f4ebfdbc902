/-
  Stepwise/Proofs/Text/Fields.lean
  ================================
  **Fields and lines of texts that are put together.**

  Fields end at a separator, wherever it stands (`fields_append_separator`); all that is
  said here about fields follows from that, and from what the fields of a text without
  separators are.  Lines end at a line feed, wherever it stands (`lines_append_feed`); those
  that are joined by line feeds are read back as they were, if none of them is empty, holds
  a line feed, or ends in a carriage return (`lines_join`).
-/
import Stepwise.Text.Blank

namespace Stepwise

namespace Text

variable {isSeparator : Char → Bool} {t u field : Text} {c : Char} {ts : List Text}

/-! ### Fields -/

theorem fieldsFrom_append_separator (h : isSeparator c = true) (current t u : Text) :
    fieldsFrom isSeparator current (t ++ c :: u) =
      fieldsFrom isSeparator current t ++ fields isSeparator u := by
  induction t generalizing current with
  | nil =>
    by_cases begun : current = []
    · simp [fieldsFrom, h, begun, fields]
    · simp [fieldsFrom, h, begun, fields]
  | cons d t ih =>
    simp only [List.cons_append, fieldsFrom]
    split
    · split
      · exact ih []
      · rw [ih, List.cons_append]
    · exact ih (d :: current)

/-- **Fields end at a separator.** -/
theorem fields_append_separator (h : isSeparator c = true) (t u : Text) :
    fields isSeparator (t ++ c :: u) = fields isSeparator t ++ fields isSeparator u :=
  fieldsFrom_append_separator h [] t u

theorem fields_cons_separator (h : isSeparator c = true) (t : Text) :
    fields isSeparator (c :: t) = fields isSeparator t :=
  fields_append_separator h [] t

theorem fieldsFrom_of_plain (plain : ∀ c ∈ t, isSeparator c = false) (current : Text) :
    fieldsFrom isSeparator current t = fieldsFrom isSeparator (t.reverse ++ current) [] := by
  induction t generalizing current with
  | nil => rfl
  | cons c t ih =>
    have first : isSeparator c = false := plain c List.mem_cons_self
    have rest : ∀ d ∈ t, isSeparator d = false := fun d hd => plain d (List.mem_cons_of_mem _ hd)
    simp only [fieldsFrom.eq_2, first, Bool.false_eq_true, if_false]
    rw [ih rest, List.reverse_cons, List.append_assoc]
    rfl

theorem fields_of_plain (h : t ≠ []) (plain : ∀ c ∈ t, isSeparator c = false) :
    fields isSeparator t = [t] := by
  rw [fields, fieldsFrom_of_plain plain, List.append_nil]
  simp [fieldsFrom, h]

theorem fields_eq_nil (separators : ∀ c ∈ t, isSeparator c = true) :
    fields isSeparator t = [] := by
  induction t with
  | nil => rfl
  | cons c t ih =>
    rw [fields_cons_separator (separators c List.mem_cons_self)]
    exact ih fun d hd => separators d (List.mem_cons_of_mem _ hd)

/-- A text is plain, or it has a first separator. -/
theorem plain_or_separated (isSeparator : Char → Bool) (t : Text) :
    (∀ c ∈ t, isSeparator c = false) ∨
      ∃ front c back, t = front ++ c :: back ∧ (∀ d ∈ front, isSeparator d = false) ∧
        isSeparator c = true := by
  induction t with
  | nil => exact .inl (by simp)
  | cons c t ih =>
    by_cases h : isSeparator c = true
    · exact .inr ⟨[], c, t, rfl, by simp, h⟩
    · have first : isSeparator c = false := by simpa using h
      rcases ih with plain | ⟨front, d, back, rfl, plain, hd⟩
      · exact .inl (List.forall_mem_cons.mpr ⟨first, plain⟩)
      · exact .inr ⟨c :: front, d, back, rfl, List.forall_mem_cons.mpr ⟨first, plain⟩, hd⟩

/-- What holds of texts without separators, and of texts put together at one, holds of every
    text. -/
theorem fields_induction (isSeparator : Char → Bool) {P : Text → Prop}
    (plain : ∀ t, (∀ c ∈ t, isSeparator c = false) → P t)
    (separated : ∀ front c back, (∀ d ∈ front, isSeparator d = false) → isSeparator c = true →
      P back → P (front ++ c :: back)) (t : Text) : P t := by
  -- on the length, since what is behind a separator is no tail of the text
  induction h : t.length using Nat.strongRecOn generalizing t with
  | _ n ih =>
    rcases plain_or_separated isSeparator t with all | ⟨front, c, back, rfl, hf, hc⟩
    · exact plain t all
    · refine separated front c back hf hc (ih back.length ?_ back rfl)
      rw [← h, List.length_append, List.length_cons]
      omega

/-- Fields are parts of the text, not empty, and without separators. -/
theorem of_mem_fields (h : field ∈ fields isSeparator t) :
    field ≠ [] ∧ (∀ c ∈ field, isSeparator c = false) ∧ field <:+: t := by
  have piece {t : Text} (plain : ∀ c ∈ t, isSeparator c = false)
      (h : field ∈ fields isSeparator t) : field ≠ [] ∧ field = t := by
    by_cases empty : t = []
    · subst empty
      cases h
    · rw [fields_of_plain empty plain, List.mem_singleton] at h
      subst h
      exact ⟨empty, rfl⟩
  induction t using fields_induction isSeparator with
  | plain t all =>
    obtain ⟨begun, rfl⟩ := piece all h
    exact ⟨begun, all, List.infix_rfl⟩
  | separated front c back hf hc ih =>
    rw [fields_append_separator hc] at h
    rcases List.mem_append.mp h with h | h
    · obtain ⟨begun, rfl⟩ := piece hf h
      exact ⟨begun, hf, [], c :: back, rfl⟩
    · obtain ⟨begun, chars, before, after, rfl⟩ := ih h
      exact ⟨begun, chars, front ++ c :: before, after, by simp⟩

/-- The end of a text is the end of its last field, unless it separates. -/
theorem getLast?_fields (h : t.getLast? = some c) (plain : isSeparator c = false) :
    ∃ field, (fields isSeparator t).getLast? = some field ∧ field.getLast? = some c := by
  induction t using fields_induction isSeparator with
  | plain t all =>
    have begun : t ≠ [] := by
      rintro rfl
      cases h
    exact ⟨t, by rw [fields_of_plain begun all]; rfl, h⟩
  | separated front d back hf hd ih =>
    rw [List.getLast?_append, List.getLast?_cons, Option.some_or, Option.some.injEq] at h
    cases last : back.getLast? with
    | none =>
      rw [last, Option.getD_none] at h
      rw [h, plain] at hd
      cases hd
    | some e =>
      rw [last, Option.getD_some] at h
      obtain ⟨field, behind, ends⟩ := ih (h ▸ last)
      refine ⟨field, ?_, ends⟩
      rw [fields_append_separator hd, List.getLast?_append, behind, Option.some_or]

theorem fields_append_of_separators (separators : ∀ c ∈ u, isSeparator c = true) (t : Text) :
    fields isSeparator (t ++ u) = fields isSeparator t := by
  cases u with
  | nil => rw [List.append_nil]
  | cons c u =>
    rw [fields_append_separator (separators c List.mem_cons_self),
      fields_eq_nil fun d hd => separators d (List.mem_cons_of_mem _ hd), List.append_nil]

theorem fields_append_of_separators_left (separators : ∀ c ∈ t, isSeparator c = true) (u : Text) :
    fields isSeparator (t ++ u) = fields isSeparator u := by
  induction t with
  | nil => rfl
  | cons c t ih =>
    rw [List.cons_append, fields_cons_separator (separators c List.mem_cons_self)]
    exact ih fun d hd => separators d (List.mem_cons_of_mem _ hd)

/-- Fields are read back as they were, whatever separators stand between them. -/
theorem fields_join {between : Text} (begun : between ≠ [])
    (separators : ∀ c ∈ between, isSeparator c = true)
    (h : ∀ t ∈ ts, t ≠ [] ∧ ∀ c ∈ t, isSeparator c = false) :
    fields isSeparator (join between ts) = ts := by
  obtain ⟨c, more, rfl⟩ := List.exists_cons_of_ne_nil begun
  obtain ⟨first, others⟩ := List.forall_mem_cons.mp separators
  induction ts with
  | nil => rfl
  | cons t ts ih =>
    obtain ⟨⟨shown, plain⟩, rest⟩ := List.forall_mem_cons.mp h
    cases ts with
    | nil => exact fields_of_plain shown plain
    | cons t' ts =>
      rw [join, List.append_assoc, List.cons_append, fields_append_separator first,
        fields_of_plain shown plain, fields_append_of_separators_left others, ih rest]
      · rfl
      · simp

/-! ### What is stripped -/

/-- Stripping takes away what matches, and nothing else. -/
theorem exists_strip_eq (matching : Char → Bool) (t : Text) :
    ∃ front back, t = front ++ t.strip matching ++ back ∧ (∀ c ∈ front, matching c = true) ∧
      ∀ c ∈ back, matching c = true := by
  have all (t : Text) : ∀ c ∈ t.takeWhile matching, matching c = true := by
    intro c hc
    exact List.all_eq_true.mp (List.all_takeWhile (p := matching)) c hc
  refine ⟨t.takeWhile matching, ((t.dropWhile matching).reverse.takeWhile matching).reverse, ?_,
    all t, ?_⟩
  · rw [strip, List.append_assoc, ← List.reverse_append, List.takeWhile_append_dropWhile,
      List.reverse_reverse, List.takeWhile_append_dropWhile]
  · intro c hc
    exact all _ c (List.mem_reverse.mp hc)

theorem fields_strip {matching : Char → Bool}
    (separates : ∀ c, matching c = true → isSeparator c = true) (t : Text) :
    fields isSeparator (t.strip matching) = fields isSeparator t := by
  obtain ⟨front, back, eq, hf, hb⟩ := exists_strip_eq matching t
  have whole : fields isSeparator (front ++ t.strip matching ++ back) =
      fields isSeparator (t.strip matching) := by
    rw [fields_append_of_separators fun c hc => separates c (hb c hc),
      fields_append_of_separators_left fun c hc => separates c (hf c hc)]
  rw [← whole, ← eq]

/-! ### Lines -/

/-- The text can be a line of its own in front of a line feed. -/
structure IsLine (t : Text) : Prop where
  begun : t ≠ []
  unbroken : '\n' ∉ t
  uncut : t.getLast? ≠ some '\r'

theorem linesFrom_append_feed (unbroken : '\n' ∉ t) (current u : Text) :
    linesFrom current (t ++ '\n' :: u) = closeLine (t.reverse ++ current) :: lines u := by
  induction t generalizing current with
  | nil => simp [linesFrom, lines]
  | cons c t ih =>
    rw [List.mem_cons, not_or] at unbroken
    have first : ¬ c = '\n' := fun h => unbroken.1 h.symm
    simp only [List.cons_append, linesFrom, first, if_false]
    rw [ih unbroken.2, List.reverse_cons, List.append_assoc]
    rfl

theorem linesFrom_unbroken (unbroken : '\n' ∉ t) (current : Text) :
    linesFrom current t = linesFrom (t.reverse ++ current) [] := by
  induction t generalizing current with
  | nil => rfl
  | cons c t ih =>
    rw [List.mem_cons, not_or] at unbroken
    have first : ¬ c = '\n' := fun h => unbroken.1 h.symm
    simp only [linesFrom.eq_2, first, if_false]
    rw [ih unbroken.2, List.reverse_cons, List.append_assoc]
    rfl

theorem IsLine.closeLine (h : IsLine t) : closeLine t.reverse = t := by
  have uncut := h.uncut
  rw [← List.head?_reverse] at uncut
  unfold Text.closeLine
  split
  · rename_i eq
    rw [eq] at uncut
    exact absurd rfl uncut
  · exact List.reverse_reverse t

theorem IsLine.lines (h : IsLine t) : lines t = [t] := by
  rw [Text.lines, linesFrom_unbroken h.unbroken, List.append_nil]
  simp [linesFrom, h.begun]

/-- The text behind a line is cut into lines on its own. -/
theorem IsLine.lines_append (h : IsLine t) (u : Text) :
    Text.lines (t ++ '\n' :: u) = t :: Text.lines u := by
  rw [Text.lines, linesFrom_append_feed h.unbroken, List.append_nil, h.closeLine]

theorem linesFrom_append_lines (current t u : Text) :
    linesFrom current (t ++ '\n' :: u) = linesFrom current (t ++ ['\n']) ++ lines u := by
  induction t generalizing current with
  | nil => simp [linesFrom, lines]
  | cons c t ih =>
    simp only [List.cons_append, linesFrom]
    split
    · rw [ih, List.cons_append]
    · exact ih (c :: current)

/-- **Lines end at a line feed**, wherever it stands. -/
theorem lines_append_feed (t u : Text) : lines (t ++ '\n' :: u) = lines (t ++ ['\n']) ++ lines u :=
  linesFrom_append_lines [] t u

theorem length_linesFrom_feed (current t : Text) :
    (linesFrom current (t ++ ['\n'])).length = t.count '\n' + 1 := by
  induction t generalizing current with
  | nil => rfl
  | cons c t ih =>
    simp only [List.cons_append, linesFrom]
    split
    · rename_i feed
      rw [List.length_cons, ih, feed, List.count_cons_self]
    · rename_i other
      rw [ih, List.count_cons_of_ne other]

theorem length_lines_feed (t : Text) : (lines (t ++ ['\n'])).length = t.count '\n' + 1 :=
  length_linesFrom_feed [] t

/-- **Lines are read back as they were.** -/
theorem lines_join (h : ∀ t ∈ ts, IsLine t) : lines (join ['\n'] ts) = ts := by
  induction ts with
  | nil => rfl
  | cons t ts ih =>
    obtain ⟨first, rest⟩ := List.forall_mem_cons.mp h
    cases ts with
    | nil => exact first.lines
    | cons t' ts =>
      rw [join, List.append_assoc, List.singleton_append, first.lines_append, ih rest]
      exact List.cons_ne_nil t' ts

end Text

end Stepwise

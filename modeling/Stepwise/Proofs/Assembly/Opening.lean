/-
  Stepwise/Proofs/Assembly/Opening.lean
  =====================================
  **How a source that decodes can begin.**

  Blanks and comments aside, a source begins where its first line does that is not blank,
  and the first character there is also the first one of the line's normal form and of its
  first token.  Hardly any character can stand there: a token that opens a line is a
  mnemonic, an invocation of a macro, a directive of the expander or a label declaration.
  An at sign begins none of the first three, so a source that begins with one declares a
  label with an at sign in its name, and binds it to its first instruction
  (`label_of_at_sign`).
-/
import Mathlib.Data.List.TakeWhile
import Stepwise.Proofs.Assembly.Expanding
import Stepwise.Proofs.Assembly.Shape

namespace Stepwise

/-! ### Texts -/

namespace Text

/-- The first character that is not blank. -/
def firstMark? (t : Text) : Option Char := t.find? fun c => !isBlank c

variable {t : Text} {c : Char}

@[simp] theorem firstMark?_append (t u : Text) :
    firstMark? (t ++ u) = (firstMark? t).or (firstMark? u) :=
  List.find?_append

@[simp] theorem firstMark?_cons_of_blank (h : isBlank c = true) :
    firstMark? (c :: t) = firstMark? t := by
  simp [firstMark?, h]

@[simp] theorem firstMark?_cons_of_mark (h : isBlank c = false) : firstMark? (c :: t) = some c := by
  simp [firstMark?, h]

theorem mark_of_firstMark? (h : firstMark? t = some c) : isBlank c = false := by
  simpa using List.find?_some h

theorem head?_dropWhile (t : Text) : (t.dropWhile isBlank).head? = firstMark? t :=
  (List.find?_not_eq_head?_dropWhile isBlank t).symm

@[simp] theorem head?_trim (t : Text) : t.trim.head? = firstMark? t := by
  have first := head?_dropWhile t
  rw [trim, strip, ← first]
  cases h : t.dropWhile isBlank with
  | nil => rfl
  | cons c rest =>
    -- what is stripped from the end stops behind the first mark at the latest
    rw [h] at first
    have mark : isBlank c = false := mark_of_firstMark? first.symm
    rw [List.reverse_cons, List.dropWhile_append]
    split
    · simp [mark]
    · simp

theorem firstMark?_closeLine (current : Text) :
    firstMark? (closeLine current) = firstMark? current.reverse := by
  cases current with
  | nil => rfl
  | cons c rest =>
    by_cases h : c = '\r'
    · subst h
      have blank : firstMark? ['\r'] = none := by decide
      simp only [closeLine, List.reverse_cons, firstMark?_append, blank, Option.or_none]
    · unfold closeLine
      split
      · rename_i same
        cases same
        exact absurd rfl h
      · rfl

/-- The first mark of a text is that of the first of its lines that has one. -/
theorem findSome?_linesFrom (current t : Text) :
    (linesFrom current t).findSome? firstMark? = firstMark? (current.reverse ++ t) := by
  induction t generalizing current with
  | nil =>
    cases current with
    | nil => rfl
    | cons c rest =>
      simp [linesFrom]
  | cons c rest ih =>
    simp only [linesFrom]
    split
    · rename_i feed
      subst feed
      have blank : isBlank '\n' = true := by decide
      rw [List.findSome?_cons, ih, firstMark?_closeLine, List.reverse_nil, List.nil_append,
        firstMark?_append, firstMark?_cons_of_blank blank]
      cases firstMark? current.reverse <;> rfl
    · rw [ih]
      simp

theorem findSome?_lines (t : Text) : t.lines.findSome? firstMark? = firstMark? t :=
  findSome?_linesFrom [] t

/-- A comment takes nothing away in front of a mark that does not begin one. -/
theorem firstMark?_beforePair (t : Text) (h : firstMark? t ≠ some '/') :
    firstMark? (t.beforePair '/' '/') = firstMark? t := by
  fun_induction beforePair '/' '/' t with
  | case1 => rfl
  | case2 c => rfl
  | case3 c d rest pair =>
    obtain ⟨rfl, rfl⟩ := pair
    exact absurd (firstMark?_cons_of_mark (by decide)) h
  | case4 c d rest pair ih =>
    by_cases blank : isBlank c = true
    · rw [firstMark?_cons_of_blank blank] at h ⊢
      rw [firstMark?_cons_of_blank blank, ih h]
    · have mark : isBlank c = false := by simpa using blank
      rw [firstMark?_cons_of_mark mark, firstMark?_cons_of_mark mark]

/-- The field that has been begun is the first one. -/
theorem fieldsFrom_begun (isSeparator : Char → Bool) (t current : Text) (h : current ≠ []) :
    ∃ more rest, fieldsFrom isSeparator current t = (current.reverse ++ more) :: rest := by
  induction t generalizing current with
  | nil =>
    refine ⟨[], [], ?_⟩
    simp [fieldsFrom, h]
  | cons c t ih =>
    simp only [fieldsFrom]
    split
    · refine ⟨[], fieldsFrom isSeparator [] t, ?_⟩
      simp [h]
    · obtain ⟨more, rest, eq⟩ := ih (c :: current) (by simp)
      refine ⟨c :: more, rest, ?_⟩
      rw [eq]
      simp

end Text

open Text

variable {source : Text} {program : Program}

/-! ### Lines -/

namespace SourceLine

theorem normalize_of_blank {line : Text} (h : firstMark? line = none) : normalize line = [] := by
  have mark : (line.beforePair '/' '/').trim.head? = none := by
    rw [head?_trim, firstMark?_beforePair line (by simp [h]), h]
  rw [normalize, List.head?_eq_none_iff.mp mark]
  rfl

theorem normalize_of_at_sign {line : Text} (h : firstMark? line = some '@') :
    ∃ rest, normalize line = '@' :: rest := by
  have mark : (line.beforePair '/' '/').trim.head? = some '@' := by
    rw [head?_trim, firstMark?_beforePair line (by simp [h]), h]
  obtain ⟨rest, trimmed⟩ := List.head?_eq_some_iff.mp mark
  rw [normalize, trimmed]
  exact ⟨_, rfl⟩

/-- The lines before the one that a source begins with are empty in normal form. -/
theorem ofSource_of_at_sign (h : firstMark? source = some '@') :
    ∃ front number rest back, ofSource source = front ++ ⟨number, '@' :: rest⟩ :: back ∧
      ∀ line ∈ front, line.text = [] := by
  rw [← findSome?_lines] at h
  obtain ⟨front, line, back, lines, mark, blank⟩ := List.findSome?_eq_some_iff.mp h
  obtain ⟨rest, normal⟩ := normalize_of_at_sign mark
  let number (entry : Text × Nat) : SourceLine := ⟨entry.2, normalize entry.1⟩
  refine ⟨(front.zipIdx 1).map number, 1 + front.length, rest,
    (back.zipIdx (1 + front.length + 1)).map number, ?_, ?_⟩
  · rw [ofSource, lines, List.zipIdx_append, List.map_append, List.zipIdx_cons, List.map_cons,
      normal]
  · intro line hl
    obtain ⟨⟨text, n⟩, entry, rfl⟩ := List.mem_map.mp hl
    exact normalize_of_blank (blank text (List.fst_mem_of_mem_zipIdx entry))

end SourceLine

namespace Expansion.State

theorem feedAll_of_blank {s : State} (outside : s.inside = none) {front : List SourceLine}
    (blank : ∀ line ∈ front, line.text = []) (rest : List SourceLine) :
    s.feedAll (front ++ rest) = s.feedAll rest := by
  induction front with
  | nil => rfl
  | cons line front ih =>
    have nothing : s.feed line = .ok (s, []) := by
      simp [feed, outside, feedOutside, blank line List.mem_cons_self]
    have ih := ih fun l hl => blank l (List.mem_cons_of_mem _ hl)
    simp only [List.cons_append, feedAll, nothing, ih, bind, Except.bind]
    cases s.feedAll rest <;> rfl

/-- Where no macro is defined yet, a line that begins with an at sign stands for itself. -/
theorem feed_of_at_sign {s : State} {number : Nat} {rest : Text} {shown : List SourceLine}
    (h : feed {} ⟨number, '@' :: rest⟩ = .ok (s, shown)) :
    shown = [⟨number, '@' :: rest⟩] := by
  obtain ⟨texts, feeds, rfl⟩ := feeds_of_feed h
  cases feeds with
  | closes d inside | passes d inside | collects d inside => cases inside
  | blank outside blank => cases blank
  | opens name outside starts =>
    have word : defineWord = '#' :: defineWord.tail := by decide
    rw [startsDefinition, word] at starts
    cases starts
  | shows => rfl
  | invokes label name m outside begun closed noDirective calls known =>
    -- there is no macro to invoke
    cases known

end Expansion.State

theorem expand_of_at_sign {lines : List SourceLine} (h : firstMark? source = some '@')
    (expands : expand source = .ok lines) :
    ∃ number rest more, lines = ⟨number, '@' :: rest⟩ :: more := by
  obtain ⟨front, number, rest, back, ofSource, blank⟩ := SourceLine.ofSource_of_at_sign h
  simp only [expand, ofSource, Expansion.State.feedAll_of_blank (s := {}) rfl blank,
    Expansion.State.feedAll, bind_succeeds_iff, pure_succeeds_iff] at expands
  obtain ⟨⟨s, shown⟩, ⟨⟨s₁, first⟩, feeds, ⟨s₂, more⟩, -, eq⟩, -, -, rfl⟩ := expands
  cases eq
  rw [Expansion.State.feed_of_at_sign feeds]
  exact ⟨number, rest, more, rfl⟩

/-! ### Labels -/

theorem not_isMnemonic_of_at_sign (rest : Text) : isMnemonic ('@' :: rest) = false := by
  have others : ∀ f ∈ Form.all, f.mnemonic.head? ≠ some '@' := by decide
  rw [isMnemonic, List.any_eq_false]
  intro f hf same
  exact others f hf (by rw [eq_of_beq same]; rfl)

/-- A line that begins with an at sign declares a label that does, or it is not laid out. -/
theorem declared?_of_at_sign {lines : List SourceLine} (accepts : Accepts lines) {number : Nat}
    {rest : Text} (hl : ⟨number, '@' :: rest⟩ ∈ lines) :
    ∃ name, SourceLine.declared? ⟨number, '@' :: rest⟩ = some ('@' :: name) := by
  obtain ⟨more, tokens, split⟩ : ∃ more tokens,
      Token.split ('@' :: rest) = ('@' :: more) :: tokens := by
    obtain ⟨more, tokens, eq⟩ :=
      fieldsFrom_begun Token.isSeparator rest ['@'] (by simp)
    exact ⟨more, tokens, eq⟩
  by_cases declares : Token.isDeclaration ('@' :: more) = true
  · cases more with
    | nil => cases declares
    | cons c more =>
      refine ⟨(c :: more).dropLast, ?_⟩
      simp [SourceLine.declared?, split, declares]
  · -- the token would have to be a mnemonic
    have code : SourceLine.code ⟨number, '@' :: rest⟩ = ('@' :: more) :: tokens := by
      simp [SourceLine.code, split, declares]
    have known := accepts.mnemonics _ hl (by rw [SourceLine.hasCode, code]; rfl)
    rw [SourceLine.mnemonic, code, List.headD_cons, not_isMnemonic_of_at_sign] at known
    cases known

/-- **A source that decodes and begins with an at sign begins with a label.** -/
theorem label_of_at_sign (decodes : decode source = .ok program)
    (h : firstMark? source = some '@') :
    ∃ name, program.labels.find? ('@' :: name) = some 0 := by
  simp only [decode, bind_succeeds_iff] at decodes
  obtain ⟨lines, expands, assembles⟩ := decodes
  obtain ⟨number, rest, more, rfl⟩ := expand_of_at_sign h expands
  obtain ⟨accepts, -⟩ := assemble_succeeds_iff.mp assembles
  obtain ⟨name, declares⟩ := declared?_of_at_sign accepts List.mem_cons_self
  have follows := follows_of_assemble assembles
  exact ⟨name, (follows.bound _ 0).mpr ⟨[], _, more, rfl, declares, rfl⟩⟩

end Stepwise

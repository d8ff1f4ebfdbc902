/-
  Stepwise/Proofs/Assembly/Carets.lean
  ====================================
  **Where the carets of a diagnostic stand.**

  Under the line that a diagnostic quotes there is one caret for each character of its text,
  without the blanks around it.  The carets do not stand under the text, though.  The gutter of
  their row is that of a number of one digit, while the number above is padded to four columns;
  and they are indented by as many columns as the blanks in front of the text have bytes, while
  the text is indented by as many as they have characters.  The two differences go in opposite
  directions, and the carets are in place exactly if they cancel out
  (`Diagnostic.carets_in_place_iff`), which blanks of one byte never bring about.
-/
import Stepwise.Proofs.Assembly.Provenance

namespace Stepwise

open Text

variable {source raw line file : Text} {e : DecodeError} {number : Nat}

/-! ### Texts -/

namespace Text

variable {t u : Text}

theorem trim_append_of_blank (blank : ∀ c ∈ u, isBlank c = true) (t : Text) :
    (t ++ u).trim = t.trim := by
  induction u using List.reverseRecOn with
  | nil => rw [List.append_nil]
  | append_singleton u c ih =>
    obtain ⟨before, last⟩ := List.forall_mem_append.mp blank
    rw [← List.append_assoc, trim_concat (last c List.mem_cons_self), ih before]

theorem byteSize_append (t u : Text) : byteSize (t ++ u) = byteSize t + byteSize u := by
  induction t with
  | nil => rw [List.nil_append, byteSize, Nat.zero_add]
  | cons c t ih => rw [List.cons_append, byteSize, byteSize, ih, Nat.add_assoc]

theorem byteSize_of_ascii (ascii : ∀ c ∈ t, c.utf8Size = 1) : byteSize t = t.length := by
  induction t with
  | nil => rfl
  | cons c t ih =>
    obtain ⟨one, rest⟩ := List.forall_mem_cons.mp ascii
    rw [byteSize, one, ih rest, List.length_cons, Nat.add_comm]

end Text

/-- A line with something on it is not all blank. -/
theorem HasContent.trim_ne_nil (h : HasContent raw) : raw.trim ≠ [] := by
  obtain ⟨c, hc, mark⟩ := h
  intro blank
  have unmarked : firstMark? raw = none := by rw [← head?_trim, blank]; rfl
  have passed := List.find?_eq_none.mp unmarked c ((isPrefix_beforePair '/' '/' raw).subset hc)
  simp [mark] at passed

namespace Diagnostic

/-! ### Columns -/

/-- The blanks in front of the text of a line. -/
def indentation (line : Text) : Text := line.takeWhile isBlank

/-- The column, counted from zero, at which the text of a quoted line starts. -/
def textColumn (number : Nat) (line : Text) : Nat :=
  (gutterNumber number ++ " | ".toList).length + (indentation line).length

/-- The column, counted from zero, at which the carets under a line start. -/
def caretColumn (line : Text) : Nat := (caretRow line).findIdx (· == '^')

/-- The text of a line, if it has any, starts in its column. -/
theorem getElem?_textColumn (number : Nat) (line : Text) :
    (quotedRow number line)[textColumn number line]? = line.trim.head? := by
  have split : quotedRow number line =
      (gutterNumber number ++ " | ".toList ++ indentation line) ++ line.dropWhile isBlank := by
    rw [quotedRow, indentation, List.append_assoc _ (line.takeWhile isBlank),
      List.takeWhile_append_dropWhile]
  have column : textColumn number line =
      (gutterNumber number ++ " | ".toList ++ indentation line).length :=
    List.length_append.symm
  rw [split, column, List.getElem?_append_right (Nat.le_refl _), Nat.sub_self, head?_trim,
    ← head?_dropWhile, List.head?_eq_getElem?]

theorem length_textColumn (number : Nat) (line : Text) :
    textColumn number line = max 4 (ofNat number).length + 3 + (indentation line).length := by
  rw [textColumn, List.length_append, length_gutterNumber]
  rfl

/-- The indentation is counted in bytes. -/
theorem indent_eq (line : Text) : indent line = byteSize (indentation line) := by
  have split := byteSize_append (indentation line) (line.dropWhile isBlank)
  rw [indentation, List.takeWhile_append_dropWhile] at split
  rw [indent, indentation]
  omega

theorem caretRow_eq (line : Text) :
    caretRow line = ("  | ".toList ++ List.replicate (byteSize (indentation line)) ' ') ++
      List.replicate (width line) '^' := by
  rw [caretRow, indent_eq]

theorem caretColumn_eq (line : Text) : caretColumn line = 4 + byteSize (indentation line) := by
  have shown : 0 < width line := by
    rw [width]
    omega
  have first : (List.replicate (width line) '^').findIdx (· == '^') = 0 := by
    obtain ⟨more, carets⟩ := Nat.exists_eq_succ_of_ne_zero shown.ne'
    rw [carets, List.replicate_succ, List.findIdx_cons]
    rfl
  have gutter : ¬ ∃ c ∈ "  | ".toList ++ List.replicate (byteSize (indentation line)) ' ',
      (c == '^') = true := by
    rintro ⟨c, hc, caret⟩
    obtain rfl := beq_iff_eq.mp caret
    rcases List.mem_append.mp hc with bar | blank
    · exact absurd bar (by decide)
    · exact absurd (List.eq_of_mem_replicate blank) (by decide)
  rw [caretColumn, caretRow_eq, List.findIdx_append, if_neg (mt List.findIdx_lt_length.mp gutter),
    first, List.length_append, List.length_replicate, Nat.zero_add]
  rfl

theorem drop_caretColumn (line : Text) :
    (caretRow line).drop (caretColumn line) = List.replicate (width line) '^' := by
  rw [caretColumn_eq, caretRow_eq]
  refine List.drop_left' ?_
  rw [List.length_append, List.length_replicate]
  rfl

/-- How far the carets are from the text. -/
theorem caretColumn_add (number : Nat) (line : Text) :
    caretColumn line + (max 4 (ofNat number).length - 1) + (indentation line).length =
      textColumn number line + byteSize (indentation line) := by
  rw [caretColumn_eq, length_textColumn]
  omega

/-! ### Refused sources -/

/-- **The carets are as many as the text of the line has characters, and stand under it exactly if
    the blanks in front of it have as many bytes too many as the gutter above is wider.**  Where
    every one of these blanks is a single byte, they stand to the left of the text. -/
theorem carets_in_place_iff (h : decode source = .error e) (file : Text) :
    ∃ raw line head, source.lines[e.line - 1]? = some raw ∧ line = raw.stripEnd (· == '\r') ∧
      (render file source e).lines = head ++ [quotedRow e.line line, caretRow line] ∧
      (quotedRow e.line line)[textColumn e.line line]? = raw.trim.head? ∧
      (caretRow line).drop (caretColumn line) = List.replicate raw.trim.length '^' ∧
      raw.trim ≠ [] ∧
      (caretColumn line = textColumn e.line line ↔
        byteSize (indentation line) =
          (indentation line).length + (max 4 (ofNat e.line).length - 1)) ∧
      ((∀ c ∈ indentation line, c.utf8Size = 1) → caretColumn line < textColumn e.line line) := by
  have located := locates_of_fails (.inr h)
  obtain ⟨line, k, found, uncut, shown⟩ := located.quoted
  obtain ⟨head, lines⟩ := shown file
  have content := (located.content _ found).trim_ne_nil
  have returns : ∀ c ∈ List.replicate k '\r', isBlank c = true := by
    intro c hc
    rw [List.eq_of_mem_replicate hc]
    decide
  have trimmed := trim_append_of_blank returns line
  have marks : width line = (trim line).length := by
    have shown := List.length_pos_iff.mpr (trimmed ▸ content)
    rw [width]
    omega
  have apart := caretColumn_add e.line line
  refine ⟨_, line, head, found, (stripEnd_eq_iff.mpr ⟨k, rfl, uncut⟩).symm, lines, ?_, ?_, content,
    ?_, ?_⟩
  · rw [trimmed, getElem?_textColumn]
  · rw [trimmed, drop_caretColumn, marks]
  · omega
  · intro ascii
    have narrow := byteSize_of_ascii ascii
    omega

/-- The blanks are two characters of five bytes, and three columns make up for the gutter. -/
theorem carets_in_place_behind_wide_blanks :
    let source := "\u3000\u00a0jump end\r".toList
    let e : DecodeError := ⟨1, .unknownOpcode "jump".toList⟩
    decode source = .error e ∧ ∃ line head,
      (render "prog.asm".toList source e).lines = head ++ [quotedRow 1 line, caretRow line] ∧
        caretColumn line = textColumn 1 line := by
  intro source e
  have refuses : decode source = .error e := by rfl
  obtain ⟨raw, line, head, found, stripped, lines, -, -, -, places, -⟩ :=
    carets_in_place_iff refuses "prog.asm".toList
  have first : (Text.lines source)[e.line - 1]? = some source := by rfl
  obtain rfl : raw = source := Option.some.inj (found.symm.trans first)
  refine ⟨refuses, line, head, lines, places.mpr ?_⟩
  rw [stripped]
  decide +kernel

/-- Without any blanks, the carets are three columns to the left of the text. -/
theorem carets_left_of_text :
    let source := "jump end".toList
    let e : DecodeError := ⟨1, .unknownOpcode "jump".toList⟩
    decode source = .error e ∧
      (render "prog.asm".toList source e).lines =
        ["error[UnknownOpcode]: unknown instruction jump".toList, " --> prog.asm:1".toList,
          "  |".toList, "   1 | jump end".toList, "  | ^^^^^^^^".toList] ∧
      textColumn 1 source = 7 ∧ caretColumn source = 4 := by
  intro source e
  exact ⟨by rfl, by decide +kernel, by rfl, by rfl⟩

end Diagnostic

end Stepwise

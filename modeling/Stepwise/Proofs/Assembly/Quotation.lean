/-
  Stepwise/Proofs/Assembly/Quotation.lean
  =======================================
  **What a diagnostic shows of the line that it is about.**

  If the source has the line that an error names, the diagnostic ends in two rows: one that
  quotes the line behind its number, without carriage returns at its end, and the row of
  carets (`Diagnostic.lines_render`).  Both are read back as rows whatever the line is made of,
  since a line holds no line feed and the quoted one does not end in a carriage return.
-/
import Stepwise.Assembly.Diagnostic
import Stepwise.Proofs.Assembly.NormalForm
import Stepwise.Proofs.Protocol.SingleLine

namespace Stepwise

variable {t u line raw file source : Text} {c : Char} {e : DecodeError} {number : Nat}

/-! ### Texts -/

namespace Text

/-- What is stripped from the end of a text is all that repeats a character there. -/
theorem stripEnd_eq_iff : t.stripEnd (· == c) = u ↔
    ∃ k, t = u ++ List.replicate k c ∧ u.getLast? ≠ some c := by
  constructor
  · rintro rfl
    refine ⟨(t.reverse.takeWhile (· == c)).length, ?_, ?_⟩
    · have same : ∀ d ∈ t.reverse.takeWhile (· == c), d = c := fun d hd =>
        beq_iff_eq.mp (List.all_eq_true.mp List.all_takeWhile d hd)
      have repeats : t.reverse.takeWhile (· == c) =
          List.replicate (t.reverse.takeWhile (· == c)).length c :=
        List.eq_replicate_iff.mpr ⟨rfl, same⟩
      calc t = (t.reverse.takeWhile (· == c) ++ t.reverse.dropWhile (· == c)).reverse := by
            rw [List.takeWhile_append_dropWhile, List.reverse_reverse]
        _ = t.stripEnd (· == c) ++ (t.reverse.takeWhile (· == c)).reverse := by
            rw [List.reverse_append, stripEnd]
        _ = t.stripEnd (· == c) ++ List.replicate (t.reverse.takeWhile (· == c)).length c := by
            rw [repeats, List.reverse_replicate, List.length_replicate]
    · intro last
      rw [stripEnd, List.getLast?_reverse] at last
      have passed := List.head?_dropWhile_not (· == c) t.reverse
      rw [last] at passed
      simp at passed
  · rintro ⟨k, rfl, uncut⟩
    rw [← List.head?_reverse] at uncut
    have kept : u.reverse.dropWhile (· == c) = u.reverse := by
      cases behind : u.reverse with
      | nil => rfl
      | cons d rest =>
        rw [behind, List.head?_cons] at uncut
        exact List.dropWhile_cons_of_neg fun same => uncut (congrArg some (beq_iff_eq.mp same))
    rw [stripEnd, List.reverse_append, List.reverse_replicate, List.dropWhile_append_of_pos, kept,
      List.reverse_reverse]
    intro d hd
    exact beq_iff_eq.mpr (List.eq_of_mem_replicate hd)

end Text

open Text

/-! ### The quoted line -/

namespace Diagnostic

/-- The row that quotes a line behind its number. -/
def quotedRow (number : Nat) (line : Text) : Text :=
  gutterNumber number ++ " | ".toList ++ line

/-- A source line is quoted without the carriage returns at its end. -/
theorem quotedLine?_eq_some_iff :
    quotedLine? source number = some line ↔
      ∃ k, source.lines[number - 1]? = some (line ++ List.replicate k '\r') ∧
        line.getLast? ≠ some '\r' := by
  rw [quotedLine?, Option.map_eq_some_iff]
  constructor
  · rintro ⟨raw, found, stripped⟩
    obtain ⟨k, rfl, uncut⟩ := stripEnd_eq_iff.mp stripped
    exact ⟨k, found, uncut⟩
  · rintro ⟨k, found, uncut⟩
    exact ⟨_, found, stripEnd_eq_iff.mpr ⟨k, rfl, uncut⟩⟩

theorem mem_gutterNumber (h : c ∈ gutterNumber number) : c = ' ' ∨ c.isDigit = true := by
  rcases List.mem_append.mp h with blank | digit
  · exact .inl (List.eq_of_mem_replicate blank)
  · exact .inr (isDigit_of_mem_ofNat digit)

theorem length_gutterNumber (number : Nat) :
    (gutterNumber number).length = max 4 (ofNat number).length := by
  rw [gutterNumber, List.length_append, List.length_replicate]
  omega

theorem isLine_quotedRow (unbroken : '\n' ∉ line) (uncut : line.getLast? ≠ some '\r') :
    IsLine (quotedRow number line) where
  begun := by simp [quotedRow]
  unbroken := by
    refine List.not_mem_append (List.not_mem_append ?_ (by decide)) unbroken
    intro feed
    rcases mem_gutterNumber feed with blank | digit
    · cases blank
    · cases digit
  uncut := by
    rw [quotedRow, List.getLast?_append]
    cases last : line.getLast? with
    | none => simp
    | some c => rwa [last] at uncut

theorem isLine_caretRow (line : Text) : IsLine (caretRow line) where
  begun := by simp [caretRow]
  unbroken := by
    refine List.not_mem_append (List.not_mem_append (by decide) ?_) ?_
    · intro feed
      cases List.eq_of_mem_replicate feed
    · intro feed
      cases List.eq_of_mem_replicate feed
  uncut := by
    have shown : width line ≠ 0 := by
      rw [width]
      omega
    rw [caretRow, List.getLast?_append, List.getLast?_replicate, if_neg shown]
    simp

/-- **A diagnostic ends in the line that the error names and the carets under it**, if there is
    such a line. -/
theorem lines_render (quoted : quotedLine? source e.line = some line) :
    ∃ head, (render file source e).lines = head ++ [quotedRow e.line line, caretRow line] := by
  obtain ⟨k, found, uncut⟩ := quotedLine?_eq_some_iff.mp quoted
  have unbroken : '\n' ∉ line := fun feed =>
    unbroken_of_mem_lines (List.mem_of_getElem? found) (List.mem_append_left _ feed)
  let front : Text :=
    (["error[".toList ++ e.cause.kind ++ "]: ".toList ++ e.cause.message,
      " --> ".toList ++ file ++ ':' :: ofNat e.line].flatMap fun row => row ++ ['\n']) ++
        "  |".toList
  have cut : render file source e =
      front ++ '\n' :: (quotedRow e.line line ++ '\n' :: (caretRow line ++ ['\n'])) := by
    rw [render, rows, quoted]
    simp [front, quotation, quotedRow]
  refine ⟨(front ++ ['\n']).lines, ?_⟩
  rw [cut, lines_append_feed, (isLine_quotedRow unbroken uncut).lines_append,
    (isLine_caretRow line).lines_append]
  rfl

end Diagnostic

end Stepwise

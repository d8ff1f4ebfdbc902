/-
  Stepwise/Text/Blank.lean
  ========================
  **Blank characters, and what is read around them.**

  A character is blank when it has the Unicode property White_Space.  These are
  25 characters; the zero width space, the byte order mark and the four
  information separators U+001C to U+001F are not among them.  Trimming and
  splitting into words go by this one set everywhere in the program.
-/
import Stepwise.Text.Basic
import Stepwise.Text.CharRange

namespace Stepwise

namespace Text

def blankRanges : List CharRange :=
  [⟨0x9, 0xD⟩, ⟨0x20, 0x20⟩, ⟨0x85, 0x85⟩, ⟨0xA0, 0xA0⟩, ⟨0x1680, 0x1680⟩,
   ⟨0x2000, 0x200A⟩, ⟨0x2028, 0x2029⟩, ⟨0x202F, 0x202F⟩, ⟨0x205F, 0x205F⟩,
   ⟨0x3000, 0x3000⟩]

def isBlank (c : Char) : Bool := CharRange.anyCovers blankRanges c

def trim (t : Text) : Text := t.strip isBlank

/-- The longest runs of characters that are not blank, in order. -/
def words (t : Text) : List Text := t.fields isBlank

theorem isBlank_of_isWhitespace {c : Char} (h : c.isWhitespace) : isBlank c := by
  simp only [Char.isWhitespace, Bool.or_eq_true, decide_eq_true_eq] at h
  rcases h with ((h | h) | h) | h <;> subst h <;> decide

end Text

end Stepwise

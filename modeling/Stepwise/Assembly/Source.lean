/-
  Stepwise/Assembly/Source.lean
  =============================
  **Source lines: their numbers, and their normal form.**

  A source is a list of lines, counted from one.  What a line means depends only on its
  normal form: the comment is cut off, blanks are stripped from both ends, and letters
  are lower case.  A line that is blank in normal form means nothing, but it is counted.
-/
import Stepwise.Text.Blank
import Stepwise.Text.Case

namespace Stepwise

/-- A line in normal form, with the number of the source line that it came from. -/
structure SourceLine where
  number : Nat
  text : Text
deriving DecidableEq, Repr

namespace SourceLine

/-- Normal form of a line.  A comment starts at the first double slash, wherever it
    stands. -/
def normalize (line : Text) : Text := (line.beforePair '/' '/').trim.lower

def ofSource (source : Text) : List SourceLine :=
  (source.lines.zipIdx 1).map fun entry => ⟨entry.2, normalize entry.1⟩

end SourceLine

end Stepwise

/-
  Stepwise/Assembly/Diagnostic.lean
  =================================
  **A refusal shown with the line that it is about.**

  The head names the kind, the message, the file and the line.  If the source has that
  line, its text follows behind a gutter with the line number, and under it a row of
  carets.  The row is indented by as many columns as the blanks before the text have
  bytes, and has one caret for each character of the text without the blanks around it,
  at least one.
-/
import Stepwise.Text.Blank
import Stepwise.Assembly.Error

namespace Stepwise

namespace Diagnostic

/-- A number in front of the gutter: blanks before it up to four columns. -/
def gutterNumber (n : Nat) : Text :=
  List.replicate (4 - (Text.ofNat n).length) ' ' ++ Text.ofNat n

/-- Number of bytes of the blanks before a text. -/
def indent (line : Text) : Nat := Text.byteSize line - Text.byteSize (line.dropWhile Text.isBlank)

def width (line : Text) : Nat := max 1 line.trim.length

/-- The source line that a line number names, without carriage returns at its end; zero
    names the first line, as one does. -/
def quotedLine? (source : Text) (number : Nat) : Option Text :=
  (source.lines[number - 1]?).map (·.stripEnd (· == '\r'))

def caretRow (line : Text) : Text :=
  "  | ".toList ++ List.replicate (indent line) ' ' ++ List.replicate (width line) '^'

def quotation (number : Nat) (line : Text) : List Text :=
  ["  |".toList, gutterNumber number ++ " | ".toList ++ line, caretRow line]

def rows (file source : Text) (e : DecodeError) : List Text :=
  ["error[".toList ++ e.cause.kind ++ "]: ".toList ++ e.cause.message,
   " --> ".toList ++ file ++ ':' :: Text.ofNat e.line]
    ++ ((quotedLine? source e.line).map (quotation e.line)).getD []

/-- A diagnostic, every row with its line end. -/
def render (file source : Text) (e : DecodeError) : Text :=
  (rows file source e).flatMap fun row => row ++ ['\n']

end Diagnostic

end Stepwise

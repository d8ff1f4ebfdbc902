/-
  Stepwise/Text/Basic.lean
  ========================
  **Text as a list of characters: lines, fields, affixes and substitution.**

  Everything the program reads (sources, messages, option values) is taken
  apart character by character, so the lexical layers work on `List Char` and a
  `String` appears only where text enters or leaves.  Recursion is then on the
  text itself, and a law about a text is an induction over its characters.

  Nothing here decides which characters are blank or how letters fold: those are
  tables of their own (`Text/Blank.lean`, `Text/Case.lean`).
-/

namespace Stepwise

/-- A text, first character first. -/
abbrev Text := List Char

namespace Text

/-! ### Lines -/

/-- A finished line, given backwards: the carriage return that stood directly
    before the line feed belongs to the line end. -/
def closeLine : Text → Text
  | '\r' :: line => line.reverse
  | line => line.reverse

/-- The lines of a text, with the characters of the current line already read
    (backwards) in hand.  A line ends at a line feed, or at a carriage return
    followed by one; nothing after the last line end is no line. -/
def linesFrom (current : Text) : Text → List Text
  | [] => if current.isEmpty then [] else [current.reverse]
  | c :: rest =>
    if c = '\n' then closeLine current :: linesFrom [] rest
    else linesFrom (c :: current) rest

/-- The lines of a text, without their line ends.  A text that ends with a line
    end has no further line after it, and a carriage return that no line feed
    follows stays in its line. -/
def lines (t : Text) : List Text := linesFrom [] t

/-! ### Fields -/

/-- The fields of a text, with the characters of the current field already read
    (backwards) in hand. -/
def fieldsFrom (isSeparator : Char → Bool) (current : Text) : Text → List Text
  | [] => if current.isEmpty then [] else [current.reverse]
  | c :: rest =>
    if isSeparator c then
      if current.isEmpty then fieldsFrom isSeparator [] rest
      else current.reverse :: fieldsFrom isSeparator [] rest
    else fieldsFrom isSeparator (c :: current) rest

/-- The longest runs of characters that separate nothing, in order.  Runs of
    separators count as one, also at the ends, so no field is empty. -/
def fields (isSeparator : Char → Bool) (t : Text) : List Text :=
  fieldsFrom isSeparator [] t

def strip (matching : Char → Bool) (t : Text) : Text :=
  ((t.dropWhile matching).reverse.dropWhile matching).reverse

def stripEnd (matching : Char → Bool) (t : Text) : Text :=
  (t.reverse.dropWhile matching).reverse

/-! ### Affixes and search -/

/-- The text without its last character, if that character is the given one. -/
def dropEnd? (c : Char) (t : Text) : Option Text :=
  if t.getLast? = some c then some t.dropLast else none

def endsWith (c : Char) (t : Text) : Bool := t.getLast? == some c

/-- Everything before the first occurrence of two given characters in a row, or
    the whole text if they never stand side by side. -/
def beforePair (a b : Char) : Text → Text
  | [] => []
  | [c] => [c]
  | c :: d :: rest =>
    if c = a ∧ d = b then [] else c :: beforePair a b (d :: rest)

/-- Number of places where two given characters stand side by side, counted from
    the left without overlap. -/
def countPair (a b : Char) : Text → Nat
  | [] => 0
  | [_] => 0
  | c :: d :: rest =>
    if c = a ∧ d = b then countPair a b rest + 1 else countPair a b (d :: rest)

/-- Replace every place where two given characters stand side by side, from the
    left without overlap. -/
def replacePair (a b : Char) (filling : Text) : Text → Text
  | [] => []
  | [c] => [c]
  | c :: d :: rest =>
    if c = a ∧ d = b then filling ++ replacePair a b filling rest
    else c :: replacePair a b filling (d :: rest)

def join (separator : Text) : List Text → Text
  | [] => []
  | [t] => t
  | t :: rest => t ++ separator ++ join separator rest

/-! ### Size and order -/

/-- Number of bytes of the UTF-8 form. -/
def byteSize : Text → Nat
  | [] => 0
  | c :: rest => c.utf8Size + byteSize rest

/-- The text stands before or equals another one, compared character by character by
    code point; the bytes of the UTF-8 forms compare the same way. -/
def precedes : Text → Text → Bool
  | [], _ => true
  | _ :: _, [] => false
  | c :: s, d :: t => if c = d then precedes s t else decide (c.toNat < d.toNat)

end Text

end Stepwise

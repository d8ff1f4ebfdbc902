/-
  Stepwise/Text/Quoted.lean
  =========================
  **Text in double quotes, safe to print on one line.**

  Messages that repeat what a client or a command line supplied quote it.  The
  quotation holds only characters that show: the quote and the backslash stand behind
  a backslash, the common controls have their letters, and every other character that
  is invisible or combining is written by its code point.  In particular a quoted text
  has no line feed, whatever it quotes.
-/
import Stepwise.Text.Numeral
import Stepwise.Text.PrintableTable

namespace Stepwise

namespace Text

/-- The character shows nothing, or attaches to what stands before it. -/
def needsCode (c : Char) : Bool :=
  if c.toNat < 0x7F then decide (c.toNat < 0x20)
  else CharRange.anyCovers combiningRanges c || CharRange.anyCovers invisibleRanges c

def codeEscape (c : Char) : Text :=
  ['\\', 'u', '{'] ++ ofNatHex c.toNat ++ ['}']

/-- How a character is written inside quotes. -/
def escapeChar (c : Char) : Text :=
  if c = '"' then ['\\', '"']
  else if c = '\\' then ['\\', '\\']
  else if c = '\n' then ['\\', 'n']
  else if c = '\r' then ['\\', 'r']
  else if c = '\t' then ['\\', 't']
  else if c.toNat = 0 then ['\\', '0']
  else if needsCode c then codeEscape c
  else [c]

def quoted (t : Text) : Text := '"' :: t.flatMap escapeChar ++ ['"']

end Text

end Stepwise

/-
  Stepwise/Text/Case.lean
  =======================
  **Lower case, by the full Unicode rules.**

  Three rules, in this order of strength:

  - a capital sigma becomes a final sigma at the end of a word: when the nearest
    character before it that case does not look past is cased, and the nearest such
    character after it is not.  Anywhere else it becomes the ordinary small sigma;
  - the capital I with a dot becomes a small i followed by a combining dot;
  - any other character moves by its simple mapping, or stays.

  Only the first rule looks at neighbours, so lower case is a single pass that
  carries one bit: whether the last character that counts was cased.
-/
import Stepwise.Text.Basic
import Stepwise.Text.CaseTable

namespace Stepwise

namespace Text

def isCased (c : Char) : Bool := CharRange.anyCovers casedRanges c

def isCaseIgnorable (c : Char) : Bool := CharRange.anyCovers caseIgnorableRanges c

/-- The small form of a character, its neighbours aside. -/
def lowerChar (c : Char) : Text :=
  if c.toNat < 0x80 then [c.toLower]
  else if c.toNat = 0x130 then ['i', Char.ofNat 0x307]
  else
    match lowerRuns.find? (·.covers c.toNat) with
    | some run => [Char.ofNat (c.toNat + run.shift).toNat]
    | none => [c]

/-- The first character that case does not look past is cased. -/
def startsCased : Text → Bool
  | [] => false
  | c :: rest => if isCaseIgnorable c then startsCased rest else isCased c

/-- Lower case of what follows a text whose last character that counts was cased or
    not. -/
def lowerAfter (cased : Bool) : Text → Text
  | [] => []
  | c :: rest =>
    let small :=
      if c = 'Σ' then [if cased && !startsCased rest then 'ς' else 'σ'] else lowerChar c
    small ++ lowerAfter (if isCaseIgnorable c then cased else isCased c) rest

def lower (t : Text) : Text := lowerAfter false t

end Text

end Stepwise

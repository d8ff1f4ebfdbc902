/-
  Stepwise/Assembly/Expansion.lean
  ================================
  **Macros: definitions are taken out of a source, invocations are filled in.**

  A definition stands between `#define NAME` and `#enddefine`.  A line that is `NAME!`
  alone, or a label declaration and `NAME!`, is replaced by the lines of the body, which
  are not looked at again: a macro knows no other macro.  So that a body can be used more
  than once, each use has a tag of its own, `NAME-n#` with n the number of uses before
  it; the tag is put in front of a label that a body line declares, and in place of the
  placeholder.

  The expander reads a source line by line.  It is either outside every definition or
  inside one, knows the macros defined so far, and answers each line with the lines that
  stand for it.  A source is refused at the first line that does not fit, and at the
  opening line of a definition that is still open at the end.
-/
import Stepwise.Assembly.Error
import Stepwise.Assembly.Source

namespace Stepwise

namespace Expansion

/-! ### Directives, invocations, placeholders -/

def defineWord : Text := "#define".toList

def enddefineWord : Text := "#enddefine".toList

def startsDefinition (line : Text) : Bool := defineWord.isPrefixOf line

/-- The name that an opening line defines, if it is the directive and one name. -/
def headerName? (line : Text) : Option Text :=
  match line.words with
  | [word, name] => if word = defineWord then some name else none
  | _ => none

/-- The name that a token invokes: what stands before its final exclamation mark. -/
def invokedName? (token : Text) : Option Text :=
  (token.dropEnd? '!').filter fun name => !name.isEmpty

/-- The label declaration in front of an invocation, if there is one, and the invoked
    name; nothing for a line that is no invocation. -/
def invocation? (line : Text) : Option (Option Text × Text) :=
  match line.words with
  | [call] => (invokedName? call).map fun name => (none, name)
  | [label, call] =>
    if label.endsWith ':' then (invokedName? call).map fun name => (some label, name) else none
  | _ => none

def placeholders (t : Text) : Nat := t.countPair '{' '}'

def fill (tag t : Text) : Text := Text.replacePair '{' '}' tag t

/-! ### Macros -/

structure Macro where
  name : Text
  body : List Text
  uses : Nat := 0
deriving DecidableEq, Repr

/-- What sets the n-th use of a macro apart, counted from zero. -/
def tag (name : Text) (n : Nat) : Text := name ++ '-' :: Text.ofNat n ++ ['#']

/-- The body line declares a label that spells no placeholder. -/
def declaresPlainLabel (line : Text) : Bool :=
  match line.words with
  | [] => false
  | first :: _ => first.endsWith ':' && placeholders first == 0

/-- A body line as one use of the macro shows it. -/
def instantiate (tag line : Text) : Text :=
  fill tag (if declaresPlainLabel line then tag ++ line else line)

def Macro.expand (m : Macro) : List Text := m.body.map (instantiate (tag m.name m.uses))

def bodyFlaw? (name line : Text) : Option MacroFlaw :=
  if startsDefinition line then some .nested
  else if line.words.contains (name ++ ['!']) then some (.invokesItself name)
  else if 1 < placeholders line then some .tooManyPlaceholders
  else none

/-! ### The expander -/

structure Definition where
  opened : Nat
  name : Text
  body : List Text := []
deriving DecidableEq, Repr

/-- The macros defined so far, and the definition being read, if there is one. -/
structure State where
  macros : List Macro := []
  inside : Option Definition := none
deriving DecidableEq, Repr

namespace State

def find? (s : State) (name : Text) : Option Macro := s.macros.find? fun m => m.name == name

def countUse (s : State) (name : Text) : State :=
  { s with
    macros := s.macros.map fun m => if m.name = name then { m with uses := m.uses + 1 } else m }

/-- Read a line inside a definition.  Nothing stands for it. -/
def feedInside (s : State) (d : Definition) (line : Text) : Except DecodeCause State :=
  if line = enddefineWord then
    .ok { macros := s.macros ++ [{ name := d.name, body := d.body }], inside := none }
  else if line.isEmpty then .ok s
  else
    match bodyFlaw? d.name line with
    | some flaw => .error (.invalidMacro flaw)
    | none => .ok { s with inside := some { d with body := d.body ++ [line] } }

/-- Read a line that opens a definition.  Nothing stands for it. -/
def openDefinition (s : State) (line : SourceLine) : Except DecodeCause State :=
  match headerName? line.text with
  | none => .error (.invalidMacro (.badHeader line.text))
  | some name =>
    if (s.find? name).isSome then .error (.macroRedefinition name)
    else .ok { s with inside := some { opened := line.number, name } }

/-- Read a line outside every definition; with the new state come the texts that stand
    for the line. -/
def feedOutside (s : State) (line : SourceLine) : Except DecodeCause (State × List Text) :=
  if line.text.isEmpty then .ok (s, [])
  else if line.text = enddefineWord then .error .strayEnddefine
  else if startsDefinition line.text then (s.openDefinition line).map fun s => (s, [])
  else
    match invocation? line.text with
    | none => .ok (s, [line.text])
    | some (label, name) =>
      match s.find? name with
      | none => .error (.undefinedMacro name)
      | some m => .ok (s.countUse name, label.toList ++ m.expand)

/-- Read a line; with the new state come the lines that stand for it, all under its
    number. -/
def feed (s : State) (line : SourceLine) : Except DecodeError (State × List SourceLine) :=
  let answer :=
    match s.inside with
    | some d => (s.feedInside d line.text).map fun s => (s, [])
    | none => s.feedOutside line
  match answer with
  | .error cause => .error ⟨line.number, cause⟩
  | .ok (s, texts) => .ok (s, texts.map fun text => ⟨line.number, text⟩)

def feedAll (s : State) : List SourceLine → Except DecodeError (State × List SourceLine)
  | [] => .ok (s, [])
  | line :: rest => do
    let (s, shown) ← s.feed line
    let (s, more) ← s.feedAll rest
    return (s, shown ++ more)

/-- A state in which reading may end: no definition is open. -/
def close (s : State) : Except DecodeError Unit :=
  match s.inside with
  | some d => .error ⟨d.opened, .unterminatedDefine d.name⟩
  | none => .ok ()

end State

end Expansion

/-- The lines of a source that are left when definitions are taken out and invocations
    are filled in. -/
def expand (source : Text) : Except DecodeError (List SourceLine) := do
  let (s, shown) ← Expansion.State.feedAll {} (SourceLine.ofSource source)
  s.close
  return shown

end Stepwise

/-
  Stepwise/Assembly/Decode.lean
  =============================
  **From a source to a program.**

  Decoding takes the lines that expansion leaves and goes over them twice.  The first
  pass lays them out: it takes label declarations off the front of lines, binds them to
  the number of instruction lines before them, and keeps the rest of each line for later.
  Labels may be used before they are declared, so operands are read in a second pass,
  when the table is complete.

  Either pass stops at the first line that it refuses.  Whatever the first pass refuses
  is therefore reported before anything that only the second one would find.
-/
import Stepwise.Assembly.Expansion
import Stepwise.Assembly.Token

namespace Stepwise

/-! ### Reading one instruction -/

namespace Form

/-- Read the operands of an instruction of a given form from as many tokens, leftmost
    first. -/
def readOperands (labels : LabelTable) (form : Form) (tokens : List Text) :
    Except DecodeCause Instruction :=
  let register := Token.register form.mnemonic
  let value := Token.value form.mnemonic
  let label := Token.label labels form.mnemonic
  match form, tokens with
  | push, [v] => do return .push (← value v)
  | pop, [] => .ok .pop
  | popInto, [d] => do return .popInto (← register d)
  | arith op, [] => .ok (.arith op)
  | arithReg op, [d, v] => do return .arithReg op (← register d) (← value v)
  | mov, [d, v] => do return .mov (← register d) (← value v)
  | jmp, [t] => do return .jmp (← label t)
  | branch on, [t] => do return .branch on (← label t)
  | branchReg on, [s, t] => do return .branchReg on (← register s) (← label t)
  | halt, [] => .ok .halt
  | read, [] => .ok (.read .stack)
  | readInto, [d] => do return .read (.reg (← register d))
  | write, [] => .ok .write
  | writeValue, [v] => do return .writeValue (← value v)
  | _, _ => .error (.arityMismatch form.mnemonic (arities form.mnemonic) tokens.length)

end Form

namespace Instruction

/-- The instruction that a mnemonic and operand tokens denote.  The form is chosen by the
    mnemonic and the number of tokens, before any token is looked at. -/
def parse (labels : LabelTable) (mnemonic : Text) (tokens : List Text) :
    Except DecodeCause Instruction :=
  match Form.select? mnemonic tokens.length with
  | some form => form.readOperands labels tokens
  | none =>
    if isMnemonic mnemonic then
      .error (.arityMismatch mnemonic (Form.arities mnemonic) tokens.length)
    else .error (.unknownOpcode mnemonic)

end Instruction

/-! ### Layout -/

/-- An instruction line whose operands are still to be read. -/
structure Pending where
  line : Nat
  mnemonic : Text
  tokens : List Text
deriving DecidableEq, Repr

/-- What the first pass has found so far: bound labels, and instruction lines, the last
    one first. -/
structure Layout where
  labels : LabelTable := {}
  pending : List Pending := []
deriving DecidableEq, Repr

namespace Layout

def declareLabel (l : Layout) (token : Text) : Except DecodeCause Layout :=
  match Token.declaredName token with
  | .error cause => .error cause
  | .ok name =>
    if l.labels.contains name then .error (.duplicateLabel name)
    else .ok { l with labels := l.labels.bind name l.pending.length }

def addInstruction (l : Layout) (line : Nat) : List Text → Except DecodeCause Layout
  | [] => .ok l
  | mnemonic :: tokens =>
    if !isMnemonic mnemonic then .error (.unknownOpcode mnemonic)
    else if l.pending.length = maxProgramSize then
      .error (.codeTooBig (l.pending.length + 1))
    else .ok { l with pending := ⟨line, mnemonic, tokens⟩ :: l.pending }

def addTokens (l : Layout) (line : Nat) : List Text → Except DecodeCause Layout
  | [] => .ok l
  | first :: rest =>
    if Token.isDeclaration first then
      match l.declareLabel first with
      | .error cause => .error cause
      | .ok l => l.addInstruction line rest
    else l.addInstruction line (first :: rest)

def add (l : Layout) (line : SourceLine) : Except DecodeError Layout :=
  match l.addTokens line.number (Token.split line.text) with
  | .error cause => .error ⟨line.number, cause⟩
  | .ok l => .ok l

def addAll (l : Layout) : List SourceLine → Except DecodeError Layout
  | [] => .ok l
  | line :: rest =>
    match l.add line with
    | .error e => .error e
    | .ok l => l.addAll rest

end Layout

namespace Pending

def resolve (labels : LabelTable) (p : Pending) : Except DecodeError Instruction :=
  match Instruction.parse labels p.mnemonic p.tokens with
  | .error cause => .error ⟨p.line, cause⟩
  | .ok i => .ok i

end Pending

/-! ### Decoding -/

def Layout.program (l : Layout) : Except DecodeError Program :=
  let pending := l.pending.reverse
  match pending.mapM (·.resolve l.labels) with
  | .error e => .error e
  | .ok instructions =>
    .ok { instructions, labels := l.labels, lines := pending.map (·.line) }

def assemble (lines : List SourceLine) : Except DecodeError Program := do
  let layout ← Layout.addAll {} lines
  layout.program

def decode (source : Text) : Except DecodeError Program := do
  let lines ← expand source
  assemble lines

end Stepwise

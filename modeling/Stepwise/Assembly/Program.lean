/-
  Stepwise/Assembly/Program.lean
  ==============================
  **Programs: instructions, the names of places between them, and their source lines.**

  A label names the index of the instruction that it stands in front of; one that stands
  behind the last instruction names the length of the program.  A program may also be put
  together by hand, and then its labels and line numbers need not fit its instructions.
-/
import Stepwise.Assembly.Instruction

namespace Stepwise

/-- Names bound to instruction indices; the entry bound last stands first, and a name
    has one entry. -/
structure LabelTable where
  entries : List (Text × Nat) := []
deriving DecidableEq, Repr

namespace LabelTable

def find? (t : LabelTable) (name : Text) : Option Nat :=
  (t.entries.find? fun e => e.1 == name).map (·.2)

def contains (t : LabelTable) (name : Text) : Bool := (t.find? name).isSome

def bind (t : LabelTable) (name : Text) (index : Nat) : LabelTable :=
  ⟨(name, index) :: t.entries.filter fun e => e.1 != name⟩

def ofList (entries : List (Text × Nat)) : LabelTable :=
  entries.foldl (fun t e => t.bind e.1 e.2) {}

/-- The entries in the order of their names, compared character by character. -/
def sorted (t : LabelTable) : List (Text × Nat) :=
  t.entries.mergeSort fun a b => Text.precedes a.1 b.1

def size (t : LabelTable) : Nat := t.entries.length

end LabelTable

structure Program where
  instructions : List Instruction
  labels : LabelTable := {}
  lines : List Nat := []
deriving DecidableEq, Repr

namespace Program

def size (p : Program) : Nat := p.instructions.length

def get? (p : Program) (index : Nat) : Option Instruction := p.instructions[index]?

/-- The source line of the instruction at an index, counted from one; zero where there
    is none. -/
def sourceLine (p : Program) (index : Nat) : Nat := (p.lines[index]?).getD 0

end Program

end Stepwise

/-
  Stepwise/Machine/State.lean
  ===========================
  **Machine states, and the deltas that describe how one state follows from another.**

  A state is the register bank, the stack, the pointer, a counter of executed
  instructions, and whether the machine waits for a value.  A delta names what a step
  changed: the new pointer, whole snapshots of the bank and of the stack, an output, an
  input event, the end of the run.  Someone who starts from the first state and applies
  every delta in turn knows all of a state but the counter, which no delta mentions.

  Stacks are kept with the top first, in states and in deltas alike; they are turned
  around only where they are shown.
-/
import Stepwise.Assembly.Operand

namespace Stepwise

/-! ### Registers -/

structure Bank where
  a : Int := 0
  b : Int := 0
  c : Int := 0
  d : Int := 0
deriving DecidableEq, Repr

namespace Bank

/-- The values in the order of the registers. -/
def values (bank : Bank) : List Int := [bank.a, bank.b, bank.c, bank.d]

def get? (bank : Bank) (r : Register) : Option Int := bank.values[r.index.val]?

/-- The bank with one register set; nothing for a name without a register behind it. -/
def set? (bank : Bank) (r : Register) (v : Int) : Option Bank :=
  match r.index.val with
  | 0 => some { bank with a := v }
  | 1 => some { bank with b := v }
  | 2 => some { bank with c := v }
  | 3 => some { bank with d := v }
  | _ => none

/-- The bank with its registers set from a snapshot, first to last: registers beyond the
    end of the snapshot stay, values beyond the last register are ignored. -/
def overwrite (bank : Bank) (snapshot : List Int) : Bank where
  a := snapshot.getD 0 bank.a
  b := snapshot.getD 1 bank.b
  c := snapshot.getD 2 bank.c
  d := snapshot.getD 3 bank.d

end Bank

/-! ### States -/

inductive Pointer where
  /-- In front of the instruction with an index; the run ends there if there is none. -/
  | index (i : Nat)
  | halted
deriving DecidableEq, Repr

namespace Machine

/-- A machine state; without arguments, the one that every run starts from. -/
structure State where
  bank : Bank := {}
  /-- The stack, its top first. -/
  stack : List Int := []
  pointer : Pointer := .index 0
  steps : Nat := 0
  awaiting : Bool := false
deriving DecidableEq, Repr

namespace State

def isHalted (s : State) : Bool := s.pointer == .halted

end State

/-! ### Deltas -/

inductive InputEvent where
  | requested (target : InputTarget)
  | consumed (value : Int)
deriving DecidableEq, Repr

structure Delta where
  pointer : Option Nat := none
  registers : Option (List Int) := none
  /-- Snapshot of the stack, its top first. -/
  stack : Option (List Int) := none
  output : Option Int := none
  input : Option InputEvent := none
  halted : Bool := false
deriving DecidableEq, Repr

namespace Delta

def halt : Delta := { halted := true }

def isEmpty (d : Delta) : Bool := d == {}

end Delta

namespace State

def awaitingAfter (awaiting : Bool) : Option InputEvent → Bool
  | some (.requested _) => true
  | some (.consumed _) => false
  | none => awaiting

/-- The pointer after a delta: the end of a run overrides a move. -/
def pointerAfter (pointer : Pointer) (d : Delta) : Pointer :=
  if d.halted then .halted
  else
    match d.pointer with
    | some i => .index i
    | none => pointer

def apply (s : State) (d : Delta) : State where
  bank :=
    match d.registers with
    | some snapshot => s.bank.overwrite snapshot
    | none => s.bank
  stack := d.stack.getD s.stack
  pointer := pointerAfter s.pointer d
  steps := s.steps
  awaiting := awaitingAfter s.awaiting d.input

end State

end Machine

end Stepwise

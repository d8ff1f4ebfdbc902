/-
  Stepwise/Machine/Step.lean
  ==========================
  **One step of the machine, and the two ways to give it a value.**

  A step is a function: from a state it gives the next state together with the delta, or
  a fault and no state at all, so nothing is ever changed halfway.

  `step` executes the instruction under the pointer and counts it.  It counts nothing
  when the run is over already, when it ends because the pointer has left the program, or
  when the machine waits for a value: then the request is only repeated.  `resume` gives
  the value that a waiting machine asked for, and moves on.  `seed` pushes a value before
  the first step.

  Instructions are put together from a few changes (go to an index, push, pop, set a
  register), each of which records itself in the delta.
-/
import Stepwise.Assembly.Program
import Stepwise.Machine.Arith
import Stepwise.Machine.Fault
import Stepwise.Machine.State

namespace Stepwise

namespace Machine

structure Limits where
  maxStack : Nat := 1000
  /-- Number of instructions that a run may execute; without one, any number. -/
  maxSteps : Option Nat := some 100000
deriving DecidableEq, Repr

structure Transition where
  state : State
  delta : Delta := {}
deriving DecidableEq, Repr

namespace Transition

/-! ### Changes -/

def goTo (t : Transition) (i : Nat) : Transition where
  state := { t.state with pointer := .index i }
  delta := { t.delta with pointer := some i }

def advance (t : Transition) (i : Nat) : Transition := t.goTo (i + 1)

def push (t : Transition) (maxStack : Nat) (v : Int) : Except Fault Transition :=
  if maxStack ≤ t.state.stack.length then .error (.exceeded (.stackDepth maxStack))
  else
    .ok
      { state := { t.state with stack := v :: t.state.stack }
        delta := { t.delta with stack := some (v :: t.state.stack) } }

def pop (t : Transition) (i : Nat) : Except Fault (Int × Transition) :=
  match t.state.stack with
  | [] => .error (.stackUnderflow i)
  | v :: rest =>
    .ok (v,
      { state := { t.state with stack := rest }
        delta := { t.delta with stack := some rest } })

def setRegister (t : Transition) (r : Register) (v : Int) : Except Fault Transition :=
  match t.state.bank.set? r v with
  | none => .error (.invalidRegister r.index.val Register.bankSize)
  | some bank =>
    .ok
      { state := { t.state with bank }
        delta := { t.delta with registers := some bank.values } }

def putOut (t : Transition) (v : Int) : Transition where
  state := t.state
  delta := { t.delta with output := some v }

def halt (t : Transition) : Transition where
  state := { t.state with pointer := .halted }
  delta := { t.delta with halted := true }

def request (t : Transition) (target : InputTarget) : Transition where
  state := { t.state with awaiting := true }
  delta := { t.delta with input := some (.requested target) }

/-- Record that a value was given; the machine no longer waits. -/
def consume (t : Transition) (v : Int) : Transition where
  state := { t.state with awaiting := false }
  delta := { t.delta with input := some (.consumed v) }

end Transition

/-! ### Reading values -/

namespace State

def register (s : State) (r : Register) : Except Fault Int :=
  match s.bank.get? r with
  | some v => .ok v
  | none => .error (.invalidRegister r.index.val Register.bankSize)

def operand (s : State) : Operand → Except Fault Int
  | .reg r => s.register r
  | .imm v => .ok v

def top (s : State) (i : Nat) : Except Fault Int :=
  match s.stack with
  | [] => .error (.stackUnderflow i)
  | v :: _ => .ok v

end State

def compute (i : Nat) (op : ArithOp) (left right : Int) : Except Fault Int :=
  if op.divides = true ∧ right = 0 then .error (.divisionByZero i)
  else
    match op.value? left right with
    | some v => .ok v
    | none => .error (.valueOverflow i maxValue)

end Machine

structure Machine where
  program : Program
  limits : Machine.Limits := {}
deriving DecidableEq, Repr

namespace Machine

/-! ### Instructions -/

/-- Go on at a jump target, if it is an instruction or the end of the program. -/
def jump (m : Machine) (t : Transition) (target : Nat) : Except Fault Transition :=
  if m.program.size < target then .error (.invalidJumpTarget target m.program.size)
  else .ok (t.goTo target)

/-- Go on at a jump target if a value meets a condition, and behind the instruction
    otherwise. -/
def jumpIf (m : Machine) (i : Nat) (t : Transition) (on : Sign) (v : Int) (target : Nat) :
    Except Fault Transition :=
  if on.holds v then m.jump t target else .ok (t.advance i)

def execute (m : Machine) (i : Nat) (t : Transition) : Instruction → Except Fault Transition
  | .push value => do
    let v ← t.state.operand value
    let t ← t.push m.limits.maxStack v
    return t.advance i
  | .pop => do
    let (_, t) ← t.pop i
    return t.advance i
  | .popInto dest => do
    let (v, t) ← t.pop i
    let t ← t.setRegister dest v
    return t.advance i
  | .arith op =>
    match t.state.stack with
    | right :: left :: _ => do
      let v ← compute i op left right
      let (_, t) ← t.pop i
      let (_, t) ← t.pop i
      let t ← t.push m.limits.maxStack v
      return t.advance i
    | _ => .error (.stackUnderflow i)
  | .arithReg op dest value => do
    let left ← t.state.register dest
    let right ← t.state.operand value
    let v ← compute i op left right
    let t ← t.setRegister dest v
    return t.advance i
  | .mov dest value => do
    let v ← t.state.operand value
    let t ← t.setRegister dest v
    return t.advance i
  | .jmp target => m.jump t target
  | .branch on target => do
    let v ← t.state.top i
    m.jumpIf i t on v target
  | .branchReg on source target => do
    let v ← t.state.register source
    m.jumpIf i t on v target
  | .halt => .ok t.halt
  | .read .stack => .ok (t.request .stack)
  | .read (.reg dest) => do
    let _ ← t.state.register dest
    return t.request (.reg dest)
  | .write => do
    let (v, t) ← t.pop i
    return (t.putOut v).advance i
  | .writeValue value => do
    let v ← t.state.operand value
    return (t.putOut v).advance i

/-! ### Steps -/

/-- What the instruction under the pointer of a waiting machine asks for. -/
def requestTarget : Instruction → InputTarget
  | .read target => target
  | _ => .stack

def Limits.spent? (limits : Limits) (steps : Nat) : Option Nat :=
  limits.maxSteps.filter fun limit => limit ≤ steps

/-- The state in which an instruction is carried out: it counts already. -/
def State.counted (s : State) : State := { s with steps := s.steps + 1 }

def step (m : Machine) (s : State) : Except Fault Transition :=
  match s.pointer with
  | .halted => .ok { state := s, delta := .halt }
  | .index i =>
    match m.program.get? i with
    | none =>
      .ok { state := { s with pointer := .halted, awaiting := false }, delta := .halt }
    | some instruction =>
      if s.awaiting then
        .ok { state := s, delta := { input := some (.requested (requestTarget instruction)) } }
      else
        match m.limits.spent? s.steps with
        | some limit => .error (.exceeded (.stepCount limit))
        | none => m.execute i { state := s.counted } instruction

/-- Give a value to the place that an instruction reads into; only reads have one. -/
def store (m : Machine) (t : Transition) (v : Int) : Instruction → Except Fault Transition
  | .read .stack => t.push m.limits.maxStack v
  | .read (.reg dest) => t.setRegister dest v
  | _ => .error .unexpectedInput

def resume (m : Machine) (s : State) (v : Int) : Except Fault Transition :=
  match s.pointer with
  | .halted => .error .unexpectedInput
  | .index i =>
    if s.awaiting = false then .error .unexpectedInput
    else if inRange v = false then .error (.invalidInput (Text.ofInt v) maxValue)
    else
      match m.program.get? i with
      | none => .error .unexpectedInput
      | some instruction => do
        let t ← m.store { state := s } v instruction
        return (t.consume v).advance i

/-- Push a value that no instruction asked for; the pointer stays. -/
def seed (m : Machine) (s : State) (v : Int) : Except Fault Transition := do
  let t ← Transition.push { state := s } m.limits.maxStack v
  return { t with delta := { t.delta with input := some (.consumed v) } }

end Machine

end Stepwise

/-
  Stepwise/Machine/Run.lean
  =========================
  **Runs of the machine, without a clock.**

  A machine is stepped by itself until something stops it: the end of the run, a request
  for a value, a fault, or the number of steps that was asked for.
-/
import Stepwise.Machine.Step

namespace Stepwise

namespace Machine

inductive Stop where
  | halted
  | input
  | fault (f : Fault)
  | limit
deriving DecidableEq, Repr

/-- Steps taken in a row: their deltas in order, the state behind the last one, and why
    there is no further one. -/
structure Stretch where
  deltas : List Delta
  state : State
  stop : Stop
deriving DecidableEq, Repr

/-- Step at most a number of times, with the deltas before (the last one first) in hand. -/
def runFrom (m : Machine) (done : List Delta) : Nat → State → Stretch
  | 0, s => ⟨done.reverse, s, .limit⟩
  | n + 1, s =>
    match m.step s with
    | .error f => ⟨done.reverse, s, .fault f⟩
    | .ok t =>
      let done := t.delta :: done
      if t.state.isHalted then ⟨done.reverse, t.state, .halted⟩
      else if t.state.awaiting then ⟨done.reverse, t.state, .input⟩
      else runFrom m done n t.state

/-- Step until the run is over, a value is asked for, a step fails, or a number of steps
    has been taken.  The step that ends the run or asks for a value counts. -/
def runFor (m : Machine) (n : Nat) (s : State) : Stretch := m.runFrom [] n s

end Machine

end Stepwise

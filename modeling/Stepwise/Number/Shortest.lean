/-
  Stepwise/Number/Shortest.lean
  =============================
  **The fewest decimal digits that read back as the same binary number.**

  The decimals that round to a given binary number form an interval around it, half a
  gap wide on either side; the ends belong to it when the last significant bit is zero.
  On the grid of multiples of a power of ten only the two neighbours of the number need
  to be looked at: if any grid point lies in the interval, one of them does.  The
  coarsest grid with a hit gives the fewest digits, the nearer of two hits the digits,
  and of two equally near ones the greater is taken.

  Every number of the format is a multiple of 10^-1074, so the search always ends with
  a hit.
-/
import Stepwise.Text.Numeral
import Stepwise.Number.Binary64

namespace Stepwise

namespace Binary64

/-- A power of ten as a quotient: the factor and the divisor that it puts on a count of
    grid steps. -/
def gridStep (exponent : Int) : Nat × Nat :=
  if 0 ≤ exponent then (powTen exponent.toNat, 1) else (1, powTen (-exponent).toNat)

/-- The half gap below the number, in halves of a quantum.  Below a power of two the
    numbers stand twice as dense. -/
def halfGapBelow (x : Binary64) : Nat :=
  let step := gap x.quanta
  if x.quanta = Nat.pow 2 (precision - 1) * step ∧ 1 < step then step / 2 else step

def halfGapAbove (x : Binary64) : Nat := gap x.quanta

def isEven (x : Binary64) : Bool := x.quanta / gap x.quanta % 2 == 0

/-- The decimal `count * 10 ^ exponent` reads back as the number. -/
def readsBack (x : Binary64) (count : Nat) (exponent : Int) : Bool :=
  let (factor, divisor) := gridStep exponent
  let decimal := 2 * count * factor * unit
  let low := (2 * x.quanta - halfGapBelow x) * divisor
  let high := (2 * x.quanta + halfGapAbove x) * divisor
  if isEven x then decide (low ≤ decimal) && decide (decimal ≤ high)
  else decide (low < decimal) && decide (decimal < high)

/-- The grid neighbour of the number that reads back as it: the nearer one, and the
    greater of two equally near. -/
def neighbour? (x : Binary64) (exponent : Int) : Option Nat :=
  let (factor, divisor) := gridStep exponent
  let below := x.quanta * divisor / (factor * unit)
  let rest := x.quanta * divisor % (factor * unit)
  let low := readsBack x below exponent
  let high := readsBack x (below + 1) exponent
  if low && (!high || decide (2 * rest < factor * unit)) then some below
  else if high then some (below + 1)
  else none

/-- The first grid with a hit, going from one power of ten to the next smaller one. -/
def searchGrid (x : Binary64) : Nat → Int → Nat × Int
  | 0, exponent => (0, exponent)
  | fuel + 1, exponent =>
    match neighbour? x exponent with
    | some count => (count, exponent)
    | none => searchGrid x fuel (exponent - 1)

/-- The power of ten at which the search starts: above every number of the format. -/
def coarsest : Int := 310

/-- The grid on which every number of the format lies. -/
def finest : Int := -1074

/-- Count and grid exponent of the shortest decimal that reads back. -/
def shortest (x : Binary64) : Nat × Int :=
  if x.isZero then (0, 0) else searchGrid x (coarsest - finest + 1).toNat coarsest

/-- A count of grid steps in positional notation: no exponent, and a point only where
    digits follow it. -/
def positional (count : Nat) (exponent : Int) : Text :=
  if 0 ≤ exponent then Text.ofNat (count * powTen exponent.toNat)
  else
    let places := (-exponent).toNat
    Text.ofNat (count / powTen places) ++ '.' :: Text.ofNatPadded places (count % powTen places)

def text (x : Binary64) : Text :=
  let (count, exponent) := x.shortest
  positional count exponent

end Binary64

end Stepwise

/-
  Stepwise/Assembly/Operand.lean
  ==============================
  **Registers, operands and input targets, and the bound on values.**

  Values are integers within `[-maxValue, maxValue]`.  A register name is an index that
  fits in a byte; only the first `Register.bankSize` indices have a register behind
  them, and naming another one is found out when the instruction runs, not when it is
  read.
-/
import Stepwise.Text.Numeral

namespace Stepwise

def maxValue : Int := 2147483648

/-- The value is one that the machine may hold. -/
def inRange (v : Int) : Bool := decide (-maxValue ≤ v) && decide (v ≤ maxValue)

/-! ### Registers -/

/-- The name of a register: an index that fits in a byte. -/
structure Register where
  index : Fin 256
deriving DecidableEq, Repr

namespace Register

def bankSize : Nat := 4

def letters : List Char := ['a', 'b', 'c', 'd']

def ofNat? (n : Nat) : Option Register := if h : n < 256 then some ⟨⟨n, h⟩⟩ else none

/-- The letter of a register of the machine; `r` and the index for any other. -/
def text (r : Register) : Text :=
  match letters[r.index.val]? with
  | some letter => [letter]
  | none => 'r' :: Text.ofNat r.index.val

/-- The register that a token names: by its letter, or by `r` and its index with any
    number of leading zeros. -/
def parse? : Text → Option Register
  | [c] => (letters.idxOf? c).bind ofNat?
  | 'r' :: digits => (Text.toNat? digits).bind ofNat?
  | _ => none

end Register

/-! ### Operands -/

inductive Operand where
  | reg (r : Register)
  | imm (v : Int)
deriving DecidableEq, Repr

namespace Operand

def text : Operand → Text
  | reg r => r.text
  | imm v => Text.ofInt v

def typeName : Operand → Text
  | reg _ => "Register".toList
  | imm _ => "Integer".toList

end Operand

inductive InputTarget where
  | stack
  | reg (r : Register)
deriving DecidableEq, Repr

namespace InputTarget

def text : InputTarget → Text
  | stack => "stack".toList
  | reg r => r.text

end InputTarget

end Stepwise

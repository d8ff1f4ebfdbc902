/-
  Stepwise/Assembly/Instruction.lean
  ==================================
  **The instruction set: instructions, and the table of forms they are written in.**

  A form is a mnemonic together with the kinds of its operands.  Several forms may share
  a mnemonic, and then differ in the number of operands: `add` alone works on the stack,
  `add reg, value` on a register.  `Form.all` lists every form once, and all that the
  decoder knows about the set it asks of that list: which words are mnemonics, how many
  operands a mnemonic takes, and which form a line is written in.

  Forms that differ only in the operation or the condition are one constructor with that
  operation or condition as its argument, so a law about arithmetic is one case and not
  ten.
-/
import Stepwise.Assembly.Operand

namespace Stepwise

/-! ### Operations and conditions -/

inductive ArithOp where
  | add
  | sub
  | mul
  | div
  | mod
deriving DecidableEq, Repr

namespace ArithOp

def all : List ArithOp := [.add, .sub, .mul, .div, .mod]

def mnemonic : ArithOp → Text
  | add => "add".toList
  | sub => "sub".toList
  | mul => "mul".toList
  | div => "div".toList
  | mod => "mod".toList

end ArithOp

/-- A condition on one value: how it compares to zero. -/
inductive Sign where
  | zero
  | negative
  | positive
deriving DecidableEq, Repr

namespace Sign

def all : List Sign := [.zero, .negative, .positive]

def holds : Sign → Int → Bool
  | zero, v => decide (v = 0)
  | negative, v => decide (v < 0)
  | positive, v => decide (0 < v)

def mnemonic : Sign → Text
  | zero => "je".toList
  | negative => "jl".toList
  | positive => "jg".toList

end Sign

/-! ### Forms -/

inductive OperandKind where
  | register
  | value
  | label
deriving DecidableEq, Repr

namespace OperandKind

def description : OperandKind → Text
  | register => "register".toList
  | value => "register or integer".toList
  | label => "label".toList

end OperandKind

inductive Form where
  | push
  | pop
  | popInto
  | arith (op : ArithOp)
  | arithReg (op : ArithOp)
  | mov
  | jmp
  | branch (on : Sign)
  | branchReg (on : Sign)
  | halt
  | read
  | readInto
  | write
  | writeValue
deriving DecidableEq, Repr

namespace Form

def all : List Form :=
  [.push, .pop, .popInto]
    ++ ArithOp.all.flatMap (fun op => [.arith op, .arithReg op])
    ++ [.mov, .jmp]
    ++ Sign.all.flatMap (fun on => [.branch on, .branchReg on])
    ++ [.halt, .read, .readInto, .write, .writeValue]

def mnemonic : Form → Text
  | push => "push".toList
  | pop | popInto => "pop".toList
  | arith op | arithReg op => op.mnemonic
  | mov => "mov".toList
  | jmp => "jmp".toList
  | branch on | branchReg on => on.mnemonic
  | halt => "halt".toList
  | read | readInto => "read".toList
  | write | writeValue => "write".toList

def operands : Form → List OperandKind
  | push | writeValue => [.value]
  | pop | arith _ | halt | read | write => []
  | popInto | readInto => [.register]
  | arithReg _ | mov => [.register, .value]
  | jmp | branch _ => [.label]
  | branchReg _ => [.register, .label]

def arity (f : Form) : Nat := f.operands.length

def arities (mnemonic : Text) : List Nat :=
  (all.filter (fun f => f.mnemonic == mnemonic)).map arity

def select? (mnemonic : Text) (arity : Nat) : Option Form :=
  all.find? fun f => f.mnemonic == mnemonic && f.arity == arity

theorem mem_all (f : Form) : f ∈ all := by
  cases f with
  | arith op => cases op <;> decide
  | arithReg op => cases op <;> decide
  | branch on => cases on <;> decide
  | branchReg on => cases on <;> decide
  | _ => decide

end Form

def isMnemonic (word : Text) : Bool := Form.all.any fun f => f.mnemonic == word

/-! ### Instructions -/

/-- One instruction with its operands; a jump target is the index of an instruction. -/
inductive Instruction where
  | push (value : Operand)
  | pop
  | popInto (dest : Register)
  /-- Replace the two topmost values by the result; the topmost is the right one. -/
  | arith (op : ArithOp)
  | arithReg (op : ArithOp) (dest : Register) (value : Operand)
  | mov (dest : Register) (value : Operand)
  | jmp (target : Nat)
  | branch (on : Sign) (target : Nat)
  | branchReg (on : Sign) (source : Register) (target : Nat)
  | halt
  | read (into : InputTarget)
  | write
  | writeValue (value : Operand)
deriving DecidableEq, Repr

namespace Instruction

def form : Instruction → Form
  | push _ => .push
  | pop => .pop
  | popInto _ => .popInto
  | arith op => .arith op
  | arithReg op _ _ => .arithReg op
  | mov _ _ => .mov
  | jmp _ => .jmp
  | branch on _ => .branch on
  | branchReg on _ _ => .branchReg on
  | halt => .halt
  | read .stack => .read
  | read (.reg _) => .readInto
  | write => .write
  | writeValue _ => .writeValue

def mnemonic (i : Instruction) : Text := i.form.mnemonic

def jumpTarget? : Instruction → Option Nat
  | jmp target | branch _ target | branchReg _ _ target => some target
  | _ => none

/-- The value written into the instruction itself. -/
def immediate? : Instruction → Option Int
  | push (.imm v) | arithReg _ _ (.imm v) | mov _ (.imm v) | writeValue (.imm v) => some v
  | _ => none

end Instruction

end Stepwise

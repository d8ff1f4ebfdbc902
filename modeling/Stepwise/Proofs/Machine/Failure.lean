/-
  Stepwise/Proofs/Machine/Failure.lean
  ====================================
  **Everything that an instruction fails for, and what has to be the case for it.**

  `Fails` lists the causes, one constructor for each; every fault of an instruction is on
  the list (`fails_of_execute`), and the guards say what the state must be like.  A step
  fails for these and for the limit of steps alone (`step_fails`), and a value from outside
  is refused where there is no read for it, no room or no register, or where it is none
  (`resume_fails`, `seed_fails`).
-/
import Stepwise.Proofs.Machine.Record

namespace Stepwise

/-- Number of values that the instruction finds on the stack. -/
def Instruction.needs : Instruction → Nat
  | pop | popInto _ | branch _ _ | write => 1
  | arith _ => 2
  | _ => 0

namespace Machine

variable {m : Machine} {s : State} {t u : Transition} {i n : Nat} {v : Int} {f : Fault}
  {instruction : Instruction}

/-- The instruction applies an operation to two values. -/
inductive State.Operands (s : State) : Instruction → ArithOp → Int → Int → Prop where
  | onStack {op : ArithOp} {left right : Int} {rest : List Int}
      (stack : s.stack = right :: left :: rest) : Operands s (.arith op) op left right
  | inRegister {op : ArithOp} {dest : Register} {value : Operand} {left right : Int}
      (dividend : s.register dest = .ok left) (operand : s.operand value = .ok right) :
      Operands s (.arithReg op dest value) op left right

/-- What the instruction at an index fails for. -/
inductive Fails (m : Machine) (i : Nat) (s : State) (instruction : Instruction) :
    Fault → Prop where
  | stackUnderflow (few : s.stack.length < instruction.needs) :
      Fails m i s instruction (.stackUnderflow i)
  | stackDepth (full : m.limits.maxStack + instruction.needs ≤ s.stack.length) :
      Fails m i s instruction (.exceeded (.stackDepth m.limits.maxStack))
  | invalidRegister (r : Register) (outside : Register.bankSize ≤ r.index.val) :
      Fails m i s instruction (.invalidRegister r.index.val Register.bankSize)
  | invalidJumpTarget (target : Nat) (jumps : instruction.jumpTarget? = some target)
      (beyond : m.program.size < target) :
      Fails m i s instruction (.invalidJumpTarget target m.program.size)
  | divisionByZero {op : ArithOp} {left : Int} (operands : s.Operands instruction op left 0)
      (divides : op.divides = true) : Fails m i s instruction (.divisionByZero i)
  | valueOverflow {op : ArithOp} {left right : Int}
      (operands : s.Operands instruction op left right)
      (divisor : op.divides = true → right ≠ 0) (without : op.value? left right = none) :
      Fails m i s instruction (.valueOverflow i maxValue)

/-! ### Changes -/

theorem Bank.get?_eq_none_iff (bank : Bank) (r : Register) :
    bank.get? r = none ↔ Register.bankSize ≤ r.index.val := by
  simp [Bank.get?, Bank.values, Register.bankSize]

theorem Bank.set?_eq_none_iff (bank : Bank) (r : Register) (v : Int) :
    bank.set? r v = none ↔ Register.bankSize ≤ r.index.val := by
  obtain ⟨⟨index, lt⟩⟩ := r
  rcases index with _ | _ | _ | _ | index <;> simp [Bank.set?, Register.bankSize]

theorem push_fails (h : t.push n v = .error f) :
    n ≤ t.state.stack.length ∧ f = .exceeded (.stackDepth n) := by
  simp only [Transition.push] at h
  split at h
  · rename_i full
    cases h
    exact ⟨full, rfl⟩
  · cases h

theorem pop_fails (h : t.pop i = .error f) : t.state.stack = [] ∧ f = .stackUnderflow i := by
  simp only [Transition.pop] at h
  split at h
  · rename_i empty
    cases h
    exact ⟨empty, rfl⟩
  · cases h

theorem top_fails (h : s.top i = .error f) : s.stack = [] ∧ f = .stackUnderflow i := by
  simp only [State.top] at h
  split at h
  · rename_i empty
    cases h
    exact ⟨empty, rfl⟩
  · cases h

theorem setRegister_fails {r : Register} (h : t.setRegister r v = .error f) :
    Register.bankSize ≤ r.index.val ∧ f = .invalidRegister r.index.val Register.bankSize := by
  simp only [Transition.setRegister] at h
  split at h
  · rename_i missing
    cases h
    exact ⟨(Bank.set?_eq_none_iff _ _ _).mp missing, rfl⟩
  · cases h

theorem register_fails {r : Register} (h : s.register r = .error f) :
    Register.bankSize ≤ r.index.val ∧ f = .invalidRegister r.index.val Register.bankSize := by
  simp only [State.register] at h
  split at h
  · cases h
  · rename_i missing
    cases h
    exact ⟨(Bank.get?_eq_none_iff _ _).mp missing, rfl⟩

theorem jump_fails {target : Nat} (h : m.jump t target = .error f) :
    m.program.size < target ∧ f = .invalidJumpTarget target m.program.size := by
  simp only [jump] at h
  split at h
  · rename_i beyond
    cases h
    exact ⟨beyond, rfl⟩
  · cases h

theorem jumpIf_fails {on : Sign} {target : Nat} (h : m.jumpIf i t on v target = .error f) :
    m.program.size < target ∧ f = .invalidJumpTarget target m.program.size := by
  simp only [jumpIf] at h
  split at h
  · exact jump_fails h
  · cases h

/-! ### Instructions -/

theorem Fails.register {r : Register} (h : s.register r = .error f) :
    m.Fails i s instruction f := by
  obtain ⟨outside, rfl⟩ := register_fails h
  exact .invalidRegister r outside

theorem Fails.operand {value : Operand} (h : s.operand value = .error f) :
    m.Fails i s instruction f := by
  cases value with
  | reg r => exact .register h
  | imm w => cases h

theorem Fails.setRegister {r : Register} (h : t.setRegister r v = .error f) :
    m.Fails i s instruction f := by
  obtain ⟨outside, rfl⟩ := setRegister_fails h
  exact .invalidRegister r outside

theorem Fails.pop (h : t.pop i = .error f) (needs : instruction.needs = 1) :
    m.Fails i t.state instruction f := by
  obtain ⟨empty, rfl⟩ := pop_fails h
  refine .stackUnderflow ?_
  rw [empty, needs]
  exact Nat.zero_lt_one

theorem Fails.compute {op : ArithOp} {left right : Int}
    (operands : s.Operands instruction op left right)
    (h : Machine.compute i op left right = .error f) : m.Fails i s instruction f := by
  simp only [Machine.compute] at h
  split at h
  · rename_i zero
    cases h
    obtain ⟨divides, rfl⟩ := zero
    exact .divisionByZero operands divides
  · rename_i divisor
    split at h
    · cases h
    · rename_i without
      cases h
      refine .valueOverflow operands ?_ without
      intro divides zero
      exact divisor ⟨divides, zero⟩

/-- **The list is complete**: what an instruction fails for is on it. -/
theorem fails_of_execute (h : m.execute i t instruction = .error f) :
    m.Fails i t.state instruction f := by
  cases instruction with
  | push value =>
    simp only [execute, bind_fails_iff] at h
    rcases h with hv | ⟨v, -, hpush | ⟨w, -, h⟩⟩
    · exact .operand hv
    · obtain ⟨full, rfl⟩ := push_fails hpush
      exact .stackDepth full
    · cases h
  | pop =>
    simp only [execute, bind_fails_iff] at h
    rcases h with hpop | ⟨w, -, h⟩
    · exact .pop hpop rfl
    · cases h
  | popInto dest =>
    simp only [execute, bind_fails_iff] at h
    rcases h with hpop | ⟨w, -, hset | ⟨w', -, h⟩⟩
    · exact .pop hpop rfl
    · exact .setRegister hset
    · cases h
  | arith op =>
    simp only [execute] at h
    split at h
    · rename_i right left rest hs
      simp only [Transition.pop, hs, bind_fails_iff] at h
      -- both operands are there to be popped, so what is left is the operation and the push
      rcases h with hc | ⟨v, -, hpop | ⟨w, hw, hpop | ⟨w', hw', hpush | ⟨w'', -, h⟩⟩⟩⟩
      · exact .compute (.onStack hs) hc
      · cases hpop
      · cases hw
        cases hpop
      · cases hw
        cases hw'
        obtain ⟨full, rfl⟩ := push_fails hpush
        refine .stackDepth ?_
        rw [hs, List.length_cons, List.length_cons]
        exact Nat.add_le_add_right full 2
      · cases h
    · rename_i few
      cases h
      refine .stackUnderflow ?_
      rcases hs : t.state.stack with _ | ⟨right, _ | ⟨left, rest⟩⟩
      · exact Nat.zero_lt_two
      · exact Nat.one_lt_two
      · exact absurd hs (few right left rest)
  | arithReg op dest value =>
    simp only [execute, bind_fails_iff] at h
    rcases h with hleft | ⟨left, hleft, hright | ⟨right, hright, hc | ⟨v, -, hset | ⟨w, -, h⟩⟩⟩⟩
    · exact .register hleft
    · exact .operand hright
    · exact .compute (.inRegister hleft hright) hc
    · exact .setRegister hset
    · cases h
  | mov dest value =>
    simp only [execute, bind_fails_iff] at h
    rcases h with hv | ⟨v, -, hset | ⟨w, -, h⟩⟩
    · exact .operand hv
    · exact .setRegister hset
    · cases h
  | jmp target =>
    obtain ⟨beyond, rfl⟩ := jump_fails h
    exact .invalidJumpTarget target rfl beyond
  | branch on target =>
    simp only [execute, bind_fails_iff] at h
    rcases h with htop | ⟨v, -, h⟩
    · obtain ⟨empty, rfl⟩ := top_fails htop
      refine .stackUnderflow ?_
      rw [empty]
      exact Nat.zero_lt_one
    · obtain ⟨beyond, rfl⟩ := jumpIf_fails h
      exact .invalidJumpTarget target rfl beyond
  | branchReg on source target =>
    simp only [execute, bind_fails_iff] at h
    rcases h with hreg | ⟨v, -, h⟩
    · exact .register hreg
    · obtain ⟨beyond, rfl⟩ := jumpIf_fails h
      exact .invalidJumpTarget target rfl beyond
  | halt => cases h
  | read target =>
    cases target with
    | stack => cases h
    | reg dest =>
      simp only [execute, bind_fails_iff] at h
      rcases h with hreg | ⟨v, -, h⟩
      · exact .register hreg
      · cases h
  | write =>
    simp only [execute, bind_fails_iff] at h
    rcases h with hpop | ⟨w, -, h⟩
    · exact .pop hpop rfl
    · cases h
  | writeValue value =>
    simp only [execute, bind_fails_iff] at h
    rcases h with hv | ⟨v, -, h⟩
    · exact .operand hv
    · cases h

/-! ### Steps -/

/-- The next step carries out the instruction at an index. -/
structure CarriesOut (m : Machine) (s : State) (i : Nat) (instruction : Instruction) : Prop where
  pointer : s.pointer = .index i
  fetched : m.program.get? i = some instruction
  running : s.awaiting = false
  left : m.limits.spent? s.steps = none

theorem CarriesOut.step (h : m.CarriesOut s i instruction) :
    m.step s = m.execute i { state := s.counted } instruction := by
  simp [Machine.step, h.pointer, h.fetched, h.running, h.left]

theorem step_fails (h : m.step s = .error f) :
    (∃ limit, m.limits.spent? s.steps = some limit ∧ f = .exceeded (.stepCount limit)) ∨
      ∃ i instruction, m.CarriesOut s i instruction ∧ m.Fails i s.counted instruction f := by
  simp only [Machine.step] at h
  split at h
  · cases h
  · rename_i i hp
    split at h
    · cases h
    · rename_i instruction hg
      split at h
      · cases h
      · rename_i hw
        split at h
        · rename_i limit spent
          cases h
          exact .inl ⟨limit, spent, rfl⟩
        · rename_i left
          exact .inr ⟨i, instruction, ⟨hp, hg, by simpa using hw, left⟩, fails_of_execute h⟩

/-! ### Values from outside -/

theorem store_fails (h : m.store t v instruction = .error f) :
    f = .unexpectedInput ∨
      (m.limits.maxStack ≤ t.state.stack.length ∧
        f = .exceeded (.stackDepth m.limits.maxStack)) ∨
      ∃ r : Register, Register.bankSize ≤ r.index.val ∧
        f = .invalidRegister r.index.val Register.bankSize := by
  simp only [store] at h
  split at h
  · exact .inr (.inl (push_fails h))
  · exact .inr (.inr ⟨_, setRegister_fails h⟩)
  · cases h
    exact .inl rfl

theorem resume_fails (h : m.resume s v = .error f) :
    f = .unexpectedInput ∨
      (inRange v = false ∧ f = .invalidInput (Text.ofInt v) maxValue) ∨
      (m.limits.maxStack ≤ s.stack.length ∧ f = .exceeded (.stackDepth m.limits.maxStack)) ∨
      ∃ r : Register, Register.bankSize ≤ r.index.val ∧
        f = .invalidRegister r.index.val Register.bankSize := by
  simp only [resume] at h
  split at h
  · cases h
    exact .inl rfl
  · split at h
    · cases h
      exact .inl rfl
    · split at h
      · rename_i without
        cases h
        exact .inr (.inl ⟨without, rfl⟩)
      · split at h
        · cases h
          exact .inl rfl
        · simp only [bind_fails_iff] at h
          rcases h with hstore | ⟨u, -, h⟩
          · rcases store_fails hstore with hf | full
            · exact .inl hf
            · exact .inr (.inr full)
          · cases h

theorem seed_fails (h : m.seed s v = .error f) :
    m.limits.maxStack ≤ s.stack.length ∧ f = .exceeded (.stackDepth m.limits.maxStack) := by
  simp only [seed, bind_fails_iff] at h
  rcases h with hpush | ⟨u, -, h⟩
  · exact push_fails hpush
  · cases h

end Machine

end Stepwise

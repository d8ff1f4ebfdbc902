/-
  Stepwise/Proofs/Machine/Values.lean
  ===================================
  **A machine that runs a decoded program holds nothing but values.**

  The bound on values is checked in three places: where the immediates of a source are
  read, where a waiting machine is given a value, and where an operation has a result.  No
  other change makes a new integer, so together with seeds that are values the three keep
  every register, every entry of the stack and every output within the bound
  (`State.InRange`, `Transition.InRange`).

  Operands within the bound are so far from the ends of a 64-bit word that no operation on
  them leaves it (`not_overflows`).  So the word has no say in which results are values: an
  operation fails exactly for results that are out of bounds (`step_valueOverflow_iff`).
-/
import Stepwise.Proofs.Assembly.Shape
import Stepwise.Proofs.Machine.Failure
import Stepwise.Proofs.Machine.Preservation

namespace Stepwise

/-! ### Arithmetic -/

namespace ArithOp

/-- The true result of an operation, in the integers: a quotient is rounded toward zero, a remainder
    has the sign of the dividend, and nothing is divided by zero. -/
def trueResult? : ArithOp → Int → Int → Option Int
  | add, left, right => some (left + right)
  | sub, left, right => some (left - right)
  | mul, left, right => some (left * right)
  | div, left, right => if right = 0 then none else some (Int.tdiv left right)
  | mod, left, right => if right = 0 then none else some (Int.tmod left right)

/-- Carried out in words, the operation overflows: its true result does not fit, or the quotient
    that comes with a remainder does not. -/
def Overflows (op : ArithOp) (left right : Int) : Prop :=
  (∃ v, op.trueResult? left right = some v ∧ fitsWord v = false) ∨
    ((op = .div ∨ op = .mod) ∧ fitsWord (Int.tdiv left right) = false)

variable {op : ArithOp} {left right v : Int}

theorem trueResult?_eq_none_iff :
    op.trueResult? left right = none ↔ op.divides = true ∧ right = 0 := by
  cases op with
  | add | sub | mul => simp [trueResult?, divides]
  | div | mod => simp [trueResult?, divides]

/-- **The machine computes the true result**, wherever there is one. -/
theorem trueResult?_eq_some_iff :
    op.trueResult? left right = some v ↔
      (op.divides = true → right ≠ 0) ∧ op.result left right = v := by
  cases op with
  | add | sub | mul => simp [trueResult?, divides, result]
  | div | mod => simp [trueResult?, divides, result]

end ArithOp

theorem inRange_iff {v : Int} : inRange v = true ↔ v.natAbs ≤ 2147483648 := by
  have max : maxValue = 2147483648 := rfl
  simp only [inRange, max, Bool.and_eq_true, decide_eq_true_eq]
  omega

theorem fitsWord_of_natAbs_le {v : Int} (h : v.natAbs ≤ 4611686018427387904) :
    fitsWord v = true := by
  simp only [fitsWord, Bool.and_eq_true, decide_eq_true_eq]
  omega

theorem natAbs_result_le (op : ArithOp) {left right : Int}
    (hl : left.natAbs ≤ 2147483648) (hr : right.natAbs ≤ 2147483648) :
    (op.result left right).natAbs ≤ 4611686018427387904 := by
  cases op with
  | add =>
    simp only [ArithOp.result]
    omega
  | sub =>
    simp only [ArithOp.result]
    omega
  | mul =>
    have product : (left * right).natAbs ≤ 2147483648 * 2147483648 := by
      rw [Int.natAbs_mul]
      exact Nat.mul_le_mul hl hr
    exact product
  | div =>
    have quotient : (left.tdiv right).natAbs ≤ left.natAbs := Int.natAbs_tdiv_le_natAbs left right
    simp only [ArithOp.result]
    omega
  | mod =>
    have remainder : (left.tmod right).natAbs ≤ left.natAbs := by
      rw [Int.natAbs_tmod]
      exact Nat.mod_le _ _
    simp only [ArithOp.result]
    omega

/-- **Operations on values do not overflow.** -/
theorem not_overflows (op : ArithOp) {left right : Int} (hl : inRange left = true)
    (hr : inRange right = true) : ¬ op.Overflows left right := by
  have hl := inRange_iff.mp hl
  have hr := inRange_iff.mp hr
  have result := fitsWord_of_natAbs_le (natAbs_result_le op hl hr)
  have quotient := fitsWord_of_natAbs_le (natAbs_result_le .div hl hr)
  rintro (⟨v, yields, h⟩ | ⟨-, h⟩)
  · obtain ⟨-, rfl⟩ := ArithOp.trueResult?_eq_some_iff.mp yields
    rw [result] at h
    cases h
  · rw [ArithOp.result] at quotient
    rw [quotient] at h
    cases h

theorem ArithOp.inRange_of_value {op : ArithOp} {left right v : Int}
    (h : op.value? left right = some v) : inRange v = true := by
  simp only [ArithOp.value?] at h
  split at h
  · cases h
  · split at h
    · rename_i within
      cases h
      exact within
    · cases h

/-- What the machine makes of the true result of an operation that does not overflow. -/
theorem ArithOp.value?_of_trueResult {op : ArithOp} {left right v : Int}
    (fits : ¬ op.Overflows left right) (yields : op.trueResult? left right = some v) :
    op.value? left right = if inRange v then some v else none := by
  obtain ⟨-, rfl⟩ := trueResult?_eq_some_iff.mp yields
  have exact : ¬ (op = .mod ∧ fitsWord (left.tdiv right) = false) := by
    rintro ⟨rfl, h⟩
    exact fits (.inr ⟨.inr rfl, h⟩)
  rw [value?, if_neg exact]

namespace Machine

variable {m : Machine} {s : State} {t u : Transition} {i : Nat} {v w : Int} {op : ArithOp}
  {left right bound : Int} {instruction : Instruction}

/-! ### States -/

/-- Every register and every entry of the stack is a value. -/
structure State.InRange (s : State) : Prop where
  bank : ∀ v ∈ s.bank.values, inRange v = true
  stack : ∀ v ∈ s.stack, inRange v = true

/-- So is what has been put out on the way to the state. -/
structure Transition.InRange (t : Transition) : Prop extends t.state.InRange where
  output : ∀ v, t.delta.output = some v → inRange v = true

theorem inRange_start : State.InRange {} where
  bank := by decide
  stack := by
    intro v hv
    cases hv

theorem Transition.InRange.silent (h : t.state.InRange) (quiet : t.delta.output = none) :
    t.InRange where
  toInRange := h
  output := by
    intro v hv
    rw [quiet] at hv
    cases hv

theorem State.InRange.transition (h : s.InRange) : Transition.InRange { state := s } :=
  .silent h rfl

theorem mem_of_set {bank bank' : Bank} {r : Register} (h : bank.set? r v = some bank')
    (hw : w ∈ bank'.values) : w = v ∨ w ∈ bank.values := by
  simp only [Bank.set?] at h
  split at h <;> cases h <;>
    · simp only [Bank.values, List.mem_cons, List.not_mem_nil, or_false] at hw ⊢
      grind

theorem keeps_inRange (m : Machine) :
    m.Keeps (fun v => inRange v = true) Transition.InRange where
  push := by
    intro t u v ht hv h
    simp only [Transition.push] at h
    split at h
    · cases h
    · cases h
      refine ⟨⟨ht.bank, ?_⟩, ht.output⟩
      intro w hw
      rcases List.mem_cons.mp hw with rfl | hw
      · exact hv
      · exact ht.stack w hw
  pop := by
    intro t u v i ht h
    have stack := ht.stack
    simp only [Transition.pop] at h
    split at h
    · cases h
    · rename_i top rest hs
      cases h
      rw [hs] at stack
      refine ⟨stack v List.mem_cons_self, ⟨ht.bank, ?_⟩, ht.output⟩
      intro w hw
      exact stack w (List.mem_cons_of_mem _ hw)
  setRegister := by
    intro t u r v ht hv h
    simp only [Transition.setRegister] at h
    split at h
    · cases h
    · rename_i bank hset
      cases h
      refine ⟨⟨?_, ht.stack⟩, ht.output⟩
      intro w hw
      rcases mem_of_set hset hw with rfl | hw
      · exact hv
      · exact ht.bank w hw
  register := by
    intro t r v ht h
    simp only [State.register] at h
    split at h
    · rename_i w hget
      cases h
      exact ht.bank v (List.mem_of_getElem? hget)
    · cases h
  compute := by
    -- a result is held against the bound itself, so nothing is asked of the operands
    intro i op left right v _ _ h
    simp only [compute] at h
    split at h
    · cases h
    · split at h
      · rename_i w hv
        cases h
        exact ArithOp.inRange_of_value hv
      · cases h
  putOut := by
    intro t v ht hv
    refine ⟨ht.toInRange, ?_⟩
    intro w hw
    cases hw
    exact hv
  goTo := fun ht _ => ⟨⟨ht.bank, ht.stack⟩, ht.output⟩
  halt := fun ht => ⟨⟨ht.bank, ht.stack⟩, ht.output⟩
  request := fun ht => ⟨⟨ht.bank, ht.stack⟩, ht.output⟩

/-! ### Calls -/

/-- Every immediate of the program is a value. -/
def HasValues (m : Machine) : Prop :=
  ∀ instruction ∈ m.program.instructions, ∀ v, instruction.immediate? = some v → inRange v = true

theorem inRange_of_step (values : m.HasValues) (hs : s.InRange) (h : m.step s = .ok t) :
    t.InRange := by
  rcases step_cases h with
    ⟨-, rfl⟩ | ⟨i, -, ⟨-, rfl⟩ | ⟨instruction, hg, ⟨-, rfl⟩ | ⟨-, -, he⟩⟩⟩
  · exact .silent hs rfl
  · exact .silent ⟨hs.bank, hs.stack⟩ rfl
  · exact .silent hs rfl
  · -- carrying out an instruction is where immediates of the program come in
    have imm : ∀ v, instruction.immediate? = some v → inRange v = true :=
      values instruction (List.mem_of_getElem? hg)
    have start : Transition.InRange { state := s.counted } := .silent ⟨hs.bank, hs.stack⟩ rfl
    exact (keeps_inRange m).execute imm (lt_size_of_get hg) start he

theorem inRange_of_resume (hs : s.InRange) (h : m.resume s v = .ok t) : t.InRange := by
  obtain ⟨i, target, u, -, -, within, -, hu, rfl⟩ := resume_stores h
  have stored : u.InRange := (keeps_inRange m).store hs.transition within hu
  exact ⟨⟨stored.bank, stored.stack⟩, stored.output⟩

theorem inRange_of_seed (hs : s.InRange) (hv : inRange v = true) (h : m.seed s v = .ok t) :
    t.InRange := by
  obtain ⟨u, hu, rfl⟩ := seed_pushes h
  have pushed : u.InRange := (keeps_inRange m).push hs.transition hv hu
  exact ⟨⟨pushed.bank, pushed.stack⟩, pushed.output⟩

/-- What is offered to a waiting machine need not be a value, what it is seeded with must. -/
theorem inRange_of_call {c : Call} (values : m.HasValues) (hs : s.InRange)
    (seeded : ∀ v, c = .seed v → inRange v = true) (h : m.call s c = .ok t) : t.InRange := by
  cases c with
  | step => exact inRange_of_step values hs h
  | resume v => exact inRange_of_resume hs h
  | seed v => exact inRange_of_seed hs (seeded v rfl) h

/-! ### Results -/

theorem State.InRange.operands (hs : s.InRange)
    (imm : ∀ v, instruction.immediate? = some v → inRange v = true)
    (h : s.Operands instruction op left right) : inRange left = true ∧ inRange right = true := by
  cases h with
  | onStack stack =>
    have onStack := hs.stack
    rw [stack] at onStack
    exact ⟨onStack left (by simp), onStack right (by simp)⟩
  | inRegister dividend operand =>
    have keeps := keeps_inRange { program := { instructions := [] } }
    refine ⟨keeps.register hs.transition dividend, keeps.operand hs.transition ?_ operand⟩
    intro v hv
    exact imm v (by rw [hv]; rfl)

theorem compute_without (divisor : op.divides = true → right ≠ 0)
    (without : op.value? left right = none) :
    compute i op left right = .error (.valueOverflow i maxValue) := by
  have nonzero : ¬ (op.divides = true ∧ right = 0) := fun h => divisor h.1 h.2
  rw [compute, if_neg nonzero, without]

theorem execute_without (h : t.state.Operands instruction op left right)
    (divisor : op.divides = true → right ≠ 0) (without : op.value? left right = none) :
    m.execute i t instruction = .error (.valueOverflow i maxValue) := by
  have fails := compute_without (i := i) divisor without
  cases h with
  | onStack stack => simp [execute, stack, fails, bind, Except.bind]
  | inRegister dividend operand => simp [execute, dividend, operand, fails, bind, Except.bind]

theorem State.operands_counted :
    s.counted.Operands instruction op left right ↔ s.Operands instruction op left right := by
  constructor
  · intro h
    cases h with
    | onStack stack => exact .onStack stack
    | inRegister dividend operand => exact .inRegister dividend operand
  · intro h
    cases h with
    | onStack stack => exact .onStack stack
    | inRegister dividend operand => exact .inRegister dividend operand

/-- A step overflows exactly where it computes a result that is no value. -/
theorem step_valueOverflow_iff (values : m.HasValues) (hs : s.InRange) :
    m.step s = .error (.valueOverflow i bound) ↔
      bound = maxValue ∧ ∃ instruction op left right, m.CarriesOut s i instruction ∧
        s.Operands instruction op left right ∧
        ∃ v, op.trueResult? left right = some v ∧ inRange v = false := by
  have counted : State.InRange s.counted := ⟨hs.bank, hs.stack⟩
  constructor
  · intro h
    rcases step_fails h with ⟨limit, -, hf⟩ | ⟨j, instruction, carries, fails⟩
    · cases hf
    · have imm := values instruction (List.mem_of_getElem? carries.fetched)
      cases fails with
      | valueOverflow operands divisor without =>
        rename_i op left right
        obtain ⟨hl, hr⟩ := counted.operands imm operands
        have yields : op.trueResult? left right = some (op.result left right) :=
          ArithOp.trueResult?_eq_some_iff.mpr ⟨divisor, rfl⟩
        have value := ArithOp.value?_of_trueResult (not_overflows _ hl hr) yields
        refine ⟨rfl, instruction, _, _, _, carries, State.operands_counted.mp operands, _, yields,
          ?_⟩
        simpa [without] using value
  · rintro ⟨rfl, instruction, op, left, right, carries, operands, v, yields, out⟩
    have imm := values instruction (List.mem_of_getElem? carries.fetched)
    obtain ⟨hl, hr⟩ := hs.operands imm operands
    obtain ⟨divisor, -⟩ := ArithOp.trueResult?_eq_some_iff.mp yields
    have without : op.value? left right = none := by
      rw [ArithOp.value?_of_trueResult (not_overflows op hl hr) yields, out]
      rfl
    rw [carries.step]
    exact execute_without (State.operands_counted.mpr operands) divisor without

/-! ### Every reached state -/

/-- **A machine that runs a decoded program holds and puts out nothing but values**, under
    any limits and whatever it is offered while it waits, if it is seeded with values.  So
    its operations do not overflow their words, and it reports an overflow exactly where
    the true result of an operation, the divisor not being zero, is out of bounds. -/
theorem reached_inRange {source : Text} {program : Program} (limits : Limits) (calls : List Call)
    (decodes : decode source = .ok program) (seeds : ∀ v, .seed v ∈ calls → inRange v = true) :
    let m : Machine := { program, limits }
    let s := m.attemptAll {} calls
    s.InRange ∧
      (∀ c t, (∀ v, c = .seed v → inRange v = true) → m.call s c = .ok t → t.InRange) ∧
      (∀ i instruction op left right, m.CarriesOut s i instruction →
        s.Operands instruction op left right → ¬ op.Overflows left right) ∧
      ∀ c i bound, m.call s c = .error (.valueOverflow i bound) ↔
        c = .step ∧ bound = maxValue ∧ ∃ instruction op left right,
          m.CarriesOut s i instruction ∧ s.Operands instruction op left right ∧
            ∃ v, op.trueResult? left right = some v ∧ inRange v = false := by
  intro m s
  have values : m.HasValues := fun _ hi _ hv => inRange_of_decode decodes hi hv
  have hs : s.InRange := by
    refine attempt_induction ?_ inRange_start
    intro s c t hc hs h
    exact (inRange_of_call values hs (fun v hv => seeds v (hv ▸ hc)) h).toInRange
  refine ⟨hs, ?_, ?_, ?_⟩
  · intro c t seeded h
    exact inRange_of_call values hs seeded h
  · intro i instruction op left right carries operands
    have imm := values instruction (List.mem_of_getElem? carries.fetched)
    obtain ⟨hl, hr⟩ := hs.operands imm operands
    exact not_overflows op hl hr
  · intro c i bound
    cases c with
    | step =>
      constructor
      · intro h
        exact ⟨rfl, (step_valueOverflow_iff values hs).mp h⟩
      · rintro ⟨-, h⟩
        exact (step_valueOverflow_iff values hs).mpr h
    | resume v =>
      -- a value from outside that is out of bounds is refused as input, not as an overflow
      refine ⟨?_, fun h => by cases h.1⟩
      intro h
      rcases resume_fails h with hf | ⟨-, hf⟩ | ⟨-, hf⟩ | ⟨r, -, hf⟩ <;> cases hf
    | seed v =>
      refine ⟨?_, fun h => by cases h.1⟩
      intro h
      cases (seed_fails h).2

/-- The product of the extreme values fits in a word, and is an overflow all the same. -/
theorem reached_inRange_product_of_extremes :
    let source := "mul".toList
    let program : Program := { instructions := [.arith .mul], lines := [1] }
    let m : Machine := { program }
    let s := m.attemptAll {} [.seed (-2147483648), .seed 2147483648]
    decode source = .ok program ∧ s.stack = [2147483648, -2147483648] ∧
      ¬ ArithOp.mul.Overflows (-2147483648) 2147483648 ∧
      m.step s = .error (.valueOverflow 0 maxValue) := by
  intro source program m s
  have decodes : decode source = .ok program := by rfl
  have reached := reached_inRange {} [.seed (-2147483648), .seed 2147483648] decodes (by
    intro v hv
    simp only [List.mem_cons, Call.seed.injEq, List.not_mem_nil, or_false] at hv
    rcases hv with rfl | rfl <;> decide)
  obtain ⟨-, -, fits, overflows⟩ := reached
  have carries : m.CarriesOut s 0 (.arith .mul) := ⟨rfl, rfl, rfl, rfl⟩
  have operands : s.Operands (.arith .mul) .mul (-2147483648) 2147483648 := .onStack rfl
  refine ⟨decodes, rfl, fits _ _ _ _ _ carries operands, ?_⟩
  exact (overflows .step 0 maxValue).mpr
    ⟨rfl, rfl, _, _, _, _, carries, operands, _, rfl, by decide⟩

end Machine

end Stepwise

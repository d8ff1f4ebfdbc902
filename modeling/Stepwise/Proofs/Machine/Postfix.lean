/-
  Stepwise/Proofs/Machine/Postfix.lean
  ====================================
  **Postfix code computes the value of its expression.**

  An expression is written in postfix by writing its operands from left to right and the
  operator behind them.  Wherever such code stands in a program, carrying it out pushes the
  value of the expression, whatever is on the stack below, and changes nothing else that the
  program can see (`postfix_evaluates`).  If an operator of the expression has no value, the run
  gets as far as the first such operator, in the order in which they are written, and fails there.

  The induction is on the expression.  What it carries along is a run that goes on behind the
  code (`Leads`): with any number of steps still to take and any deltas before it, since the
  code of an operand is followed by that of the next operand and by the operator.
-/
import Stepwise.Machine.Run
import Stepwise.Proofs.Machine.Values

namespace Stepwise

/-! ### Expressions -/

/-- An arithmetic expression over immediates. -/
inductive Expression where
  | imm (v : Int)
  | apply (op : ArithOp) (left right : Expression)
deriving DecidableEq, Repr

namespace Expression

/-- The immediates, from left to right. -/
def immediates : Expression → List Int
  | imm v => [v]
  | apply _ left right => left.immediates ++ right.immediates

/-- The expression in postfix. -/
def code : Expression → List Instruction
  | imm v => [.push (.imm v)]
  | apply op left right => left.code ++ right.code ++ [.arith op]

/-- Number of values that the code puts on the stack at most. -/
def depth : Expression → Nat
  | imm _ => 1
  | apply _ left right => max left.depth (right.depth + 1)

/-- Why an operator has no value. -/
inductive Cause where
  | divisionByZero
  | overflow
deriving DecidableEq, Repr

/-- The fault of an operator that is the instruction at an index. -/
def Cause.fault (index : Nat) : Cause → Fault
  | divisionByZero => .divisionByZero index
  | overflow => .valueOverflow index maxValue

/-- An operator without a value, with the number of instructions of the code in front of it. -/
structure Failure where
  place : Nat
  cause : Cause
deriving DecidableEq, Repr

/-- The value of an operator on two values: its true result, if there is one and it is no further
    from zero than `2 ^ 31`. -/
def operate (op : ArithOp) (left right : Int) : Except Cause Int :=
  match op.trueResult? left right with
  | none => .error .divisionByZero
  | some v => if v.natAbs ≤ 2147483648 then .ok v else .error .overflow

/-- The value of an expression, from left to right, or its first operator without a value. -/
def eval : Expression → Except Failure Int
  | imm v => .ok v
  | apply op left right =>
    match left.eval with
    | .error f => .error f
    | .ok a =>
      match right.eval with
      | .error f => .error { f with place := left.code.length + f.place }
      | .ok b =>
        (operate op a b).mapError (Failure.mk (left.code.length + right.code.length))

theorem depth_pos (e : Expression) : 0 < e.depth := by
  cases e with
  | imm v => exact Nat.one_pos
  | apply op left right => exact Nat.lt_of_lt_of_le right.depth.succ_pos (Nat.le_max_right _ _)

variable {e : Expression} {op : ArithOp} {left right v : Int} {f : Failure}

theorem inRange_of_operate (h : operate op left right = .ok v) : inRange v = true := by
  unfold operate at h
  split at h
  · cases h
  · split at h
    · rename_i within
      cases h
      exact inRange_iff.mpr within
    · cases h

/-- The value of an expression over values is a value. -/
theorem inRange_of_eval (literals : ∀ v ∈ e.immediates, inRange v = true)
    (h : e.eval = .ok v) : inRange v = true := by
  cases e with
  | imm w =>
    cases h
    exact literals v (List.mem_singleton_self v)
  | apply op left right =>
    simp only [eval] at h
    cases valueLeft : left.eval with
    | error f => simp [valueLeft] at h
    | ok a =>
      cases valueRight : right.eval with
      | error f => simp [valueLeft, valueRight] at h
      | ok b =>
        cases result : operate op a b with
        | error cause => simp [valueLeft, valueRight, result, Except.mapError] at h
        | ok w =>
          simp only [valueLeft, valueRight, result, Except.mapError, Except.ok.injEq] at h
          exact h ▸ inRange_of_operate result

/-- An operator that fails is one of the instructions of the code. -/
theorem operator_of_failure (h : e.eval = .error f) :
    ∃ op, e.code[f.place]? = some (.arith op) := by
  induction e generalizing f with
  | imm v => cases h
  | apply op left right ihl ihr =>
    simp only [eval] at h
    simp only [code, List.append_assoc]
    cases valueLeft : left.eval with
    | error f' =>
      simp only [valueLeft, Except.error.injEq] at h
      subst h
      obtain ⟨op', here⟩ := ihl valueLeft
      obtain ⟨inside, -⟩ := List.getElem?_eq_some_iff.mp here
      exact ⟨op', by rw [List.getElem?_append_left inside, here]⟩
    | ok a =>
      cases valueRight : right.eval with
      | error f' =>
        simp only [valueLeft, valueRight, Except.error.injEq] at h
        subst h
        obtain ⟨op', here⟩ := ihr valueRight
        obtain ⟨inside, -⟩ := List.getElem?_eq_some_iff.mp here
        refine ⟨op', ?_⟩
        rw [List.getElem?_append_right (Nat.le_add_right _ _), Nat.add_sub_cancel_left,
          List.getElem?_append_left inside, here]
      | ok b =>
        cases result : operate op a b with
        | error cause =>
          simp only [valueLeft, valueRight, result, Except.mapError, Except.error.injEq] at h
          subst h
          refine ⟨op, ?_⟩
          rw [← List.append_assoc, ← List.length_append, List.getElem?_concat_length]
        | ok v => simp [valueLeft, valueRight, result, Except.mapError] at h

end Expression

namespace Machine

open Expression

variable {m : Machine} {s r q : State} {t : Transition} {i k l n : Nat} {v left right : Int}
  {op : ArithOp} {f : Fault} {code more : List Instruction}

/-! ### Runs that go on -/

/-- So many steps lead from one state to another, and the run goes on from there. -/
def Leads (m : Machine) (s : State) (k : Nat) (r : State) : Prop :=
  ∃ ds : List Delta, ds.length = k ∧
    ∀ done n, m.runFrom done (k + n) s = m.runFrom (ds ++ done) n r

theorem Leads.trans (h : m.Leads s k r) (h' : m.Leads r l q) : m.Leads s (k + l) q := by
  obtain ⟨ds, rfl, first⟩ := h
  obtain ⟨ds', rfl, second⟩ := h'
  refine ⟨ds' ++ ds, by rw [List.length_append, Nat.add_comm], ?_⟩
  intro done n
  rw [Nat.add_assoc, first, second, List.append_assoc]

theorem Leads.step (h : m.step s = .ok t) (running : t.state.isHalted = false)
    (goesOn : t.state.awaiting = false) : m.Leads s 1 t.state := by
  refine ⟨[t.delta], rfl, ?_⟩
  intro done n
  rw [Nat.add_comm, runFrom]
  simp [h, running, goesOn]

theorem Leads.runFor (h : m.Leads s k r) :
    ∃ ds, ds.length = k ∧ m.runFor k s = ⟨ds, r, .limit⟩ := by
  obtain ⟨ds, length, run⟩ := h
  refine ⟨ds.reverse, by rw [List.length_reverse, length], ?_⟩
  have here := run [] 0
  rw [List.append_nil] at here
  exact here

/-- A run that gets to a state from which it cannot go on fails there, if it is to go on. -/
theorem Leads.runFor_of_fails (h : m.Leads s k r) (fails : m.step r = .error f) (further : k < n) :
    ∃ ds, ds.length = k ∧ m.runFor n s = ⟨ds, r, .fault f⟩ := by
  obtain ⟨ds, length, run⟩ := h
  obtain ⟨rest, rfl⟩ := Nat.exists_eq_add_of_lt further
  refine ⟨ds.reverse, by rw [List.length_reverse, length], ?_⟩
  rw [Machine.runFor, Nat.add_assoc, run, List.append_nil, runFrom]
  simp [fails]

/-! ### Code in a program -/

/-- The code stands in the program from an index on. -/
def HasCode (m : Machine) (i : Nat) (code : List Instruction) : Prop :=
  ∃ front back, m.program.instructions = front ++ code ++ back ∧ front.length = i

theorem HasCode.append (h : m.HasCode i (code ++ more)) :
    m.HasCode i code ∧ m.HasCode (i + code.length) more := by
  obtain ⟨front, back, program, length⟩ := h
  constructor
  · exact ⟨front, more ++ back, by simp [program], length⟩
  · exact ⟨front ++ code, back, by simp [program], by rw [List.length_append, length]⟩

theorem HasCode.get? {instruction : Instruction} (h : m.HasCode i [instruction]) :
    m.program.get? i = some instruction := by
  obtain ⟨front, back, program, rfl⟩ := h
  simp [Program.get?, program]

/-- The machine is about to carry out what stands at an index, with room for so many values
    and so many steps left. -/
structure Ready (m : Machine) (s : State) (i room steps : Nat) : Prop where
  pointer : s.pointer = .index i
  running : s.awaiting = false
  room : s.stack.length + room ≤ m.limits.maxStack
  left : ∀ limit, m.limits.maxSteps = some limit → s.steps + steps ≤ limit

/-- The state behind code of a length that has pushed a value. -/
def State.pushed (s : State) (i length : Nat) (v : Int) : State :=
  { s with stack := v :: s.stack, pointer := .index (i + length), steps := s.steps + length }

theorem Ready.carriesOut {room steps : Nat} {instruction : Instruction}
    (h : m.Ready s i room (steps + 1)) (code : m.HasCode i [instruction]) :
    m.CarriesOut s i instruction where
  pointer := h.pointer
  fetched := code.get?
  running := h.running
  left := by
    rw [Limits.spent?, Option.filter_eq_none_iff]
    intro limit bound
    have := h.left limit bound
    simp only [decide_eq_true_eq]
    omega

/-! ### Operators -/

/-- The machine computes the value of an operator on values, and fails where it has none. -/
theorem compute_of_inRange (hl : inRange left = true) (hr : inRange right = true) :
    compute i op left right = (operate op left right).mapError (Cause.fault i) := by
  unfold compute operate
  cases yields : op.trueResult? left right with
  | none =>
    rw [if_pos (ArithOp.trueResult?_eq_none_iff.mp yields)]
    rfl
  | some v =>
    obtain ⟨divisor, -⟩ := ArithOp.trueResult?_eq_some_iff.mp yields
    have nonzero : ¬ (op.divides = true ∧ right = 0) := fun h => divisor h.1 h.2
    rw [if_neg nonzero, ArithOp.value?_of_trueResult (not_overflows op hl hr) yields]
    by_cases within : v.natAbs ≤ 2147483648
    · simp [inRange_iff.mpr within, within, Except.mapError]
    · have out : ¬ inRange v = true := fun h => within (inRange_iff.mp h)
      simp [out, within, Except.mapError, Cause.fault]

theorem execute_push (room : t.state.stack.length < m.limits.maxStack) :
    m.execute i t (.push (.imm v)) =
      .ok
        { state := { t.state with stack := v :: t.state.stack, pointer := .index (i + 1) }
          delta :=
            { t.delta with stack := some (v :: t.state.stack), pointer := some (i + 1) } } := by
  have free : ¬ m.limits.maxStack ≤ t.state.stack.length := Nat.not_le_of_lt room
  simp only [execute, State.operand, Transition.push, free, if_false, bind, Except.bind]
  rfl

/-- An operator finds its operands on the stack, the right one on top. -/
theorem execute_arith {rest : List Int} (stack : t.state.stack = right :: left :: rest)
    (room : rest.length < m.limits.maxStack) :
    m.execute i t (.arith op) =
      (compute i op left right).map fun v =>
        { state := { t.state with stack := v :: rest, pointer := .index (i + 1) }
          delta := { t.delta with stack := some (v :: rest), pointer := some (i + 1) } } := by
  have free : ¬ m.limits.maxStack ≤ rest.length := Nat.not_le_of_lt room
  simp only [execute, stack, Transition.pop, Transition.push, bind, Except.bind]
  cases compute i op left right with
  | error f => rfl
  | ok v =>
    simp only [free, if_false, Except.map]
    rfl

/-! ### Expressions -/

variable {e : Expression}

theorem Ready.weaken {room steps room' steps' : Nat} (h : m.Ready s i room steps)
    (lessRoom : room' ≤ room) (fewer : steps' ≤ steps) : m.Ready s i room' steps' where
  pointer := h.pointer
  running := h.running
  room := by
    have := h.room
    omega
  left := by
    intro limit bound
    have := h.left limit bound
    omega

/-- Behind an operand there is one value more on the stack, and fewer steps are left. -/
theorem Ready.pushed {room steps length : Nat} (h : m.Ready s i (room + 1) (length + steps))
    (v : Int) : m.Ready (s.pushed i length v) (i + length) room steps where
  pointer := rfl
  running := h.running
  room := by
    have := h.room
    simp only [State.pushed, List.length_cons]
    omega
  left := by
    intro limit bound
    have := h.left limit bound
    simp only [State.pushed]
    omega

/-- What an expression comes to when its code is carried out from a state. -/
inductive Computes (m : Machine) (s : State) (i : Nat) (length : Nat) :
    Except Failure Int → Prop where
  | value (v : Int) (leads : m.Leads s length (s.pushed i length v)) : Computes m s i length (.ok v)
  | failure (f : Failure) (r : State) (leads : m.Leads s f.place r) (bank : r.bank = s.bank)
      (pointer : r.pointer = .index (i + f.place))
      (fails : m.step r = .error (f.cause.fault (i + f.place))) : Computes m s i length (.error f)

theorem Computes.of_ok {length : Nat} {outcome : Except Failure Int}
    (h : m.Computes s i length outcome) (value : outcome = .ok v) :
    m.Leads s length (s.pushed i length v) := by
  subst value
  cases h with
  | value _ leads => exact leads

theorem Computes.of_error {length : Nat} {outcome : Except Failure Int} {f : Failure}
    (h : m.Computes s i length outcome) (failed : outcome = .error f) :
    ∃ r, m.Leads s f.place r ∧ r.bank = s.bank ∧ r.pointer = .index (i + f.place) ∧
      m.step r = .error (f.cause.fault (i + f.place)) := by
  subst failed
  cases h with
  | failure _ r leads bank pointer fails => exact ⟨r, leads, bank, pointer, fails⟩

theorem computes_imm (code : m.HasCode i [.push (.imm v)]) (ready : m.Ready s i 1 1) :
    m.Computes s i 1 (.ok v) := by
  have steps : m.step s = .ok _ := (ready.carriesOut code).step.trans (execute_push ready.room)
  exact .value v (.step steps rfl ready.running)

/-- The operator, behind the code of both operands. -/
theorem computes_operator (hl : inRange left = true) (hr : inRange right = true)
    (leads : m.Leads s (k + l) ((s.pushed i k left).pushed (i + k) l right))
    (code : m.HasCode (i + (k + l)) [.arith op]) (ready : m.Ready s i 2 (k + (l + 1))) :
    m.Computes s i (k + l + 1) ((operate op left right).mapError (Failure.mk (k + l))) := by
  have behind : m.Ready _ (i + k + l) 0 1 := (ready.pushed left).pushed right
  rw [← Nat.add_assoc] at code
  have room : s.stack.length < m.limits.maxStack := Nat.lt_of_succ_lt ready.room
  have step := (behind.carriesOut code).step.trans (execute_arith rfl room)
  rw [compute_of_inRange hl hr, Nat.add_assoc i k l] at step
  cases result : operate op left right with
  | ok v =>
    rw [result] at step
    apply Computes.value
    have last := leads.trans (.step step rfl ready.running)
    simpa [State.pushed, State.counted, Nat.add_assoc] using last
  | error cause =>
    rw [result] at step
    exact .failure ⟨k + l, cause⟩ _ leads rfl (congrArg Pointer.index (Nat.add_assoc i k l)) step

/-- **The code of an expression computes it.** -/
theorem computes_eval (literals : ∀ v ∈ e.immediates, inRange v = true) (code : m.HasCode i e.code)
    (ready : m.Ready s i e.depth e.code.length) : m.Computes s i e.code.length e.eval := by
  induction e generalizing s i with
  | imm v => exact computes_imm code ready
  | apply op left right ihl ihr =>
    simp only [Expression.immediates, List.mem_append] at literals
    have hl : ∀ v ∈ left.immediates, inRange v = true := fun v h => literals v (.inl h)
    have hr : ∀ v ∈ right.immediates, inRange v = true := fun v h => literals v (.inr h)
    obtain ⟨operands, operator⟩ := code.append
    obtain ⟨first, second⟩ := operands.append
    simp only [Expression.code, Expression.depth, List.length_append, List.length_singleton]
      at ready operator ⊢
    rw [Nat.add_assoc] at ready
    have readyLeft : m.Ready s i left.depth left.code.length :=
      ready.weaken (Nat.le_max_left _ _) (Nat.le_add_right _ _)
    simp only [eval]
    cases valueLeft : left.eval with
    | error f =>
      obtain ⟨r, leads, bank, pointer, fails⟩ := (ihl hl first readyLeft).of_error valueLeft
      exact .failure f r leads bank pointer fails
    | ok a =>
      have leadsLeft := (ihl hl first readyLeft).of_ok valueLeft
      -- The right operand starts with the value of the left one on the stack.
      have readyRight : m.Ready (s.pushed i left.code.length a) (i + left.code.length) right.depth
          right.code.length :=
        ((ready.weaken (Nat.le_max_right _ _) (Nat.le_refl _)).pushed a).weaken (Nat.le_refl _)
          (Nat.le_add_right _ _)
      cases valueRight : right.eval with
      | error f =>
        obtain ⟨r, leads, bank, pointer, fails⟩ := (ihr hr second readyRight).of_error valueRight
        rw [Nat.add_assoc] at pointer fails
        exact .failure _ r (leadsLeft.trans leads) bank pointer fails
      | ok b =>
        have leads := leadsLeft.trans ((ihr hr second readyRight).of_ok valueRight)
        have room : 2 ≤ max left.depth (right.depth + 1) :=
          Nat.le_trans (Nat.succ_le_succ right.depth_pos) (Nat.le_max_right _ _)
        exact computes_operator (inRange_of_eval hl valueLeft) (inRange_of_eval hr valueRight)
          leads operator (ready.weaken room (Nat.le_refl _))

/-- **Postfix code evaluates its expression.**  From a state in front of the code, with any stack
    below that leaves room for the code and with enough steps left: if the expression has a
    value, exactly the steps of the code push it and change nothing else but the pointer and the
    count; if not, every instruction in front of the first operator without a value is carried
    out, and the operator fails. -/
theorem postfix_evaluates (e : Expression) (front back : List Instruction)
    (literals : ∀ v ∈ e.immediates, inRange v = true)
    (program : m.program.instructions = front ++ e.code ++ back)
    (pointer : s.pointer = .index front.length) (running : s.awaiting = false)
    (room : s.stack.length + e.depth ≤ m.limits.maxStack)
    (left : ∀ limit, m.limits.maxSteps = some limit → s.steps + e.code.length ≤ limit) :
    (∀ v, e.eval = .ok v →
      ∃ ds, ds.length = e.code.length ∧
        m.runFor e.code.length s =
          { deltas := ds
            state :=
              { s with
                stack := v :: s.stack
                pointer := .index (front.length + e.code.length)
                steps := s.steps + e.code.length }
            stop := .limit }) ∧
    (∀ f, e.eval = .error f →
      (∃ op, e.code[f.place]? = some (.arith op)) ∧
      ∃ ds r, ds.length = f.place ∧ r.bank = s.bank ∧
        r.pointer = .index (front.length + f.place) ∧
        m.runFor e.code.length s =
          { deltas := ds
            state := r
            stop := .fault (f.cause.fault (front.length + f.place)) }) := by
  have computes := computes_eval literals ⟨front, back, program, rfl⟩ ⟨pointer, running, room, left⟩
  constructor
  · intro v value
    exact (computes.of_ok value).runFor
  · intro f failed
    obtain ⟨op, operator⟩ := operator_of_failure failed
    obtain ⟨r, leads, bank, pointer, fails⟩ := computes.of_error failed
    obtain ⟨inside, -⟩ := List.getElem?_eq_some_iff.mp operator
    obtain ⟨ds, length, run⟩ := leads.runFor_of_fails fails inside
    exact ⟨⟨op, operator⟩, ds, r, length, bank, pointer, run⟩

/-- `-7 / 2 - -7 % 2` on top of a value, with room and steps for it and no more, is `-2`; and
    `1 + 65536 * 65536` fails at its product, whose operands stand on a third value. -/
theorem postfix_evaluates_signs_and_product :
    ((∀ v ∈ ([-7, 2, -7, 2] : List Int), inRange v = true) ∧ 1 + 3 ≤ 4 ∧ 1 + 7 ≤ 8 ∧
      ∃ ds, ds.length = 7 ∧
        Machine.runFor
          { program :=
              ⟨[.push (.imm 9), .push (.imm (-7)), .push (.imm 2), .arith .div,
                .push (.imm (-7)), .push (.imm 2), .arith .mod, .arith .sub, .halt], {}, []⟩
            limits := ⟨4, some 8⟩ } 7
          { bank := ⟨1, 2, 3, 4⟩, stack := [9], pointer := .index 1, steps := 1 } =
        { deltas := ds
          state := { bank := ⟨1, 2, 3, 4⟩, stack := [-2, 9], pointer := .index 8, steps := 8 }
          stop := .limit }) ∧
    ∃ ds r, ds.length = 3 ∧ r.bank = {} ∧ r.pointer = .index 3 ∧
      Machine.runFor
        { program :=
            ⟨[.push (.imm 1), .push (.imm 65536), .push (.imm 65536), .arith .mul, .arith .add],
              {}, []⟩ } 5 {} =
      { deltas := ds, state := r, stop := .fault (.valueOverflow 3 maxValue) } := by
  refine ⟨⟨by decide, by decide, by decide, ?_⟩, ?_⟩
  · refine (postfix_evaluates (.apply .sub (.apply .div (.imm (-7)) (.imm 2))
      (.apply .mod (.imm (-7)) (.imm 2))) [.push (.imm 9)] [.halt] (by decide)
      rfl rfl rfl (by decide) (by rintro _ ⟨⟩; decide)).1 (-2) rfl
  · have product := postfix_evaluates (m := ⟨⟨[.push (.imm 1), .push (.imm 65536),
      .push (.imm 65536), .arith .mul, .arith .add], {}, []⟩, {}⟩) (s := {})
      (.apply .add (.imm 1) (.apply .mul (.imm 65536) (.imm 65536))) [] [] (by decide)
      rfl rfl rfl (by decide) (by rintro _ ⟨⟩; decide)
    exact (product.2 ⟨3, .overflow⟩ rfl).2

end Machine

end Stepwise

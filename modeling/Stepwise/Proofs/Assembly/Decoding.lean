/-
  Stepwise/Proofs/Assembly/Decoding.lean
  ======================================
  **What instructions are read from.**

  An instruction is read from tokens by the form that the mnemonic and the number of
  operands select (`Instruction.parse_cases`), and each form makes of its tokens what it
  says, and of no others (`Form.Reads`).  Every immediate has been held against the bounds
  of values there (`Form.Reads.immediate_inRange`).
-/
import Stepwise.Assembly.Decode
import Stepwise.Proofs.Succeeds

namespace Stepwise

variable {labels : LabelTable} {mnemonic token : Text} {tokens : List Text}
  {instruction : Instruction} {v : Int}

/-! ### Instructions -/

theorem Form.mnemonic_of_select {arity : Nat} {form : Form}
    (h : select? mnemonic arity = some form) : form.mnemonic = mnemonic ∧ form.arity = arity := by
  simpa [select?] using List.find?_some h

theorem Instruction.parse_cases (h : Instruction.parse labels mnemonic tokens = .ok instruction) :
    ∃ form, Form.select? mnemonic tokens.length = some form ∧
      form.readOperands labels tokens = .ok instruction := by
  simp only [Instruction.parse] at h
  split at h
  · rename_i form hf
    exact ⟨form, hf, h⟩
  · split at h <;> cases h

/-- What each form makes of its tokens. -/
inductive Form.Reads (labels : LabelTable) : Form → List Text → Instruction → Prop where
  | push {t : Text} {value : Operand} (reads : Token.value Form.push.mnemonic t = .ok value) :
      Reads labels .push [t] (.push value)
  | pop : Reads labels .pop [] .pop
  | popInto {t : Text} {dest : Register}
      (names : Token.register Form.popInto.mnemonic t = .ok dest) :
      Reads labels .popInto [t] (.popInto dest)
  | arith (op : ArithOp) : Reads labels (.arith op) [] (.arith op)
  | arithReg (op : ArithOp) {t t' : Text} {dest : Register} {value : Operand}
      (names : Token.register (Form.arithReg op).mnemonic t = .ok dest)
      (reads : Token.value (Form.arithReg op).mnemonic t' = .ok value) :
      Reads labels (.arithReg op) [t, t'] (.arithReg op dest value)
  | mov {t t' : Text} {dest : Register} {value : Operand}
      (names : Token.register Form.mov.mnemonic t = .ok dest)
      (reads : Token.value Form.mov.mnemonic t' = .ok value) :
      Reads labels .mov [t, t'] (.mov dest value)
  | jmp {t : Text} {target : Nat}
      (refers : Token.label labels Form.jmp.mnemonic t = .ok target) :
      Reads labels .jmp [t] (.jmp target)
  | branch (on : Sign) {t : Text} {target : Nat}
      (refers : Token.label labels (Form.branch on).mnemonic t = .ok target) :
      Reads labels (.branch on) [t] (.branch on target)
  | branchReg (on : Sign) {t t' : Text} {source : Register} {target : Nat}
      (names : Token.register (Form.branchReg on).mnemonic t = .ok source)
      (refers : Token.label labels (Form.branchReg on).mnemonic t' = .ok target) :
      Reads labels (.branchReg on) [t, t'] (.branchReg on source target)
  | halt : Reads labels .halt [] .halt
  | read : Reads labels .read [] (.read .stack)
  | readInto {t : Text} {dest : Register}
      (names : Token.register Form.readInto.mnemonic t = .ok dest) :
      Reads labels .readInto [t] (.read (.reg dest))
  | write : Reads labels .write [] .write
  | writeValue {t : Text} {value : Operand}
      (reads : Token.value Form.writeValue.mnemonic t = .ok value) :
      Reads labels .writeValue [t] (.writeValue value)

theorem Form.reads_of_readOperands {form : Form}
    (h : form.readOperands labels tokens = .ok instruction) :
    form.Reads labels tokens instruction := by
  simp only [Form.readOperands] at h
  -- the cases come in the order of the constructors
  split at h <;> (try simp only [bind_succeeds_iff, pure_succeeds_iff] at h)
  · obtain ⟨value, reads, rfl⟩ := h
    exact .push reads
  · cases h
    exact .pop
  · obtain ⟨dest, names, rfl⟩ := h
    exact .popInto names
  · cases h
    exact .arith _
  · obtain ⟨dest, names, value, reads, rfl⟩ := h
    exact .arithReg _ names reads
  · obtain ⟨dest, names, value, reads, rfl⟩ := h
    exact .mov names reads
  · obtain ⟨target, refers, rfl⟩ := h
    exact .jmp refers
  · obtain ⟨target, refers, rfl⟩ := h
    exact .branch _ refers
  · obtain ⟨source, names, target, refers, rfl⟩ := h
    exact .branchReg _ names refers
  · cases h
    exact .halt
  · cases h
    exact .read
  · obtain ⟨dest, names, rfl⟩ := h
    exact .readInto names
  · cases h
    exact .write
  · obtain ⟨value, reads, rfl⟩ := h
    exact .writeValue reads
  · cases h

theorem Form.Reads.readOperands {form : Form} (h : form.Reads labels tokens instruction) :
    form.readOperands labels tokens = .ok instruction := by
  cases h <;> simp_all [Form.readOperands, bind, Except.bind, pure, Except.pure]

/-! ### Immediates -/

theorem Token.inRange_of_value (h : Token.value mnemonic token = .ok (.imm v)) :
    inRange v = true := by
  simp only [Token.value] at h
  split at h
  · cases h
  · split at h
    · cases h
    · split at h
      · rename_i within
        cases h
        exact within
      · cases h

theorem Instruction.immediate_cases (h : instruction.immediate? = some v) :
    instruction = .push (.imm v) ∨ (∃ op dest, instruction = .arithReg op dest (.imm v)) ∨
      (∃ dest, instruction = .mov dest (.imm v)) ∨ instruction = .writeValue (.imm v) := by
  simp only [Instruction.immediate?] at h
  split at h
  · cases h
    exact .inl rfl
  · cases h
    exact .inr (.inl ⟨_, _, rfl⟩)
  · cases h
    exact .inr (.inr (.inl ⟨_, rfl⟩))
  · cases h
    exact .inr (.inr (.inr rfl))
  · cases h

theorem Form.Reads.immediate_inRange {form : Form} (h : form.Reads labels tokens instruction)
    (hv : instruction.immediate? = some v) : inRange v = true := by
  rcases Instruction.immediate_cases hv with rfl | ⟨op, dest, rfl⟩ | ⟨dest, rfl⟩ | rfl
  · cases h with
    | push reads => exact Token.inRange_of_value reads
  · cases h with
    | arithReg op names reads => exact Token.inRange_of_value reads
  · cases h with
    | mov names reads => exact Token.inRange_of_value reads
  · cases h with
    | writeValue reads => exact Token.inRange_of_value reads

end Stepwise

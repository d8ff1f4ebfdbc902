/-
  Stepwise/Proofs/Assembly/Shape.lean
  ===================================
  **What the lines of a source and the program decoded from it have to do with each other.**

  Each line of code is one instruction, in the order of the lines, and the program knows
  no label that no line declares.  A label stands for the number of lines of code in front
  of its declaration, which is the index of the instruction behind it, or the length of the
  program if there is none.  A jump goes where the name in its line is bound, wherever that
  name is declared (`Program.FollowsFrom`, `follows_of_decode`).  In particular no jump
  leads out of the program (`target_le_of_decode`), and every immediate is a value
  (`inRange_of_decode`).
-/
import Stepwise.Proofs.Assembly.Layout

namespace Stepwise

open SourceLine

variable {lines : List SourceLine} {line : SourceLine} {source : Text} {program : Program}
  {labels : LabelTable} {tokens : List Text} {token name : Text} {instruction : Instruction}
  {i t : Nat}

/-! ### References -/

/-- The token refers to the name, bare or in quotes. -/
inductive Token.RefersTo : Text → Text → Prop where
  | bare {name : Text} (named : name ≠ []) (plain : '"' ∉ name) : RefersTo name name
  | quoted {name : Text} (named : name ≠ []) (plain : '"' ∉ name) :
      RefersTo ('"' :: name ++ ['"']) name

theorem Token.referredName_eq (h : Token.RefersTo token name) : referredName token = name := by
  cases h with
  | bare named plain =>
    unfold referredName
    split
    · simp at plain
    · rfl
  | quoted named plain => simp [referredName, Text.dropEnd?]

theorem Token.refersTo_referredName (named : referredName token ≠ [])
    (plain : '"' ∉ referredName token) : Token.RefersTo token (referredName token) := by
  revert named plain
  unfold referredName
  split
  · rename_i rest
    simp only [Text.dropEnd?]
    split
    · rename_i last
      intro named plain
      obtain ⟨front, rfl⟩ := List.getLast?_eq_some_iff.mp last
      rw [Option.getD_some, List.dropLast_concat] at named plain ⊢
      exact .quoted named plain
    · intro named
      exact absurd rfl named
  · intro named plain
    exact .bare named plain

theorem Token.label_succeeds_iff {mnemonic : Text} :
    Token.label labels mnemonic token = .ok i ↔
      ∃ name, Token.RefersTo token name ∧ labels.find? name = some i := by
  have reads : Token.label labels mnemonic token = .ok i ↔
      (referredName token ≠ [] ∧ '"' ∉ referredName token) ∧
        labels.find? (referredName token) = some i := by
    simp only [label]
    split
    · rename_i bad
      simp at bad
      tauto
    · rename_i good
      simp at good
      cases labels.find? (referredName token) <;> simp [good]
  rw [reads]
  constructor
  · rintro ⟨⟨named, plain⟩, bound⟩
    exact ⟨_, refersTo_referredName named plain, bound⟩
  · rintro ⟨name, refers, bound⟩
    rw [referredName_eq refers]
    cases refers with
    | bare named plain => exact ⟨⟨named, plain⟩, bound⟩
    | quoted named plain => exact ⟨⟨named, plain⟩, bound⟩

/-! ### Instructions -/

theorem Form.Reads.form {form : Form} (h : form.Reads labels tokens instruction) :
    instruction.form = form := by
  cases h <;> rfl

theorem Form.Reads.target {form : Form} (h : form.Reads labels tokens instruction)
    (jumps : instruction.jumpTarget? = some t) :
    ∃ token name, tokens.getLast? = some token ∧ Token.RefersTo token name ∧
      labels.find? name = some t := by
  cases h with
  | jmp refers | branch _ refers | branchReg _ _ refers =>
    cases jumps
    obtain ⟨name, refers, bound⟩ := Token.label_succeeds_iff.mp refers
    exact ⟨_, name, rfl, refers, bound⟩
  | _ => cases jumps

/-- The line of code is the instruction: it starts with the mnemonic, and its operands are
    what the form asks for. -/
structure SourceLine.Holds (labels : LabelTable) (line : SourceLine) (instruction : Instruction) :
    Prop where
  mnemonic : line.mnemonic = instruction.mnemonic
  operands : instruction.form.Reads labels line.operands instruction

theorem SourceLine.holds_of_parse
    (h : Instruction.parse labels line.mnemonic line.operands = .ok instruction) :
    line.Holds labels instruction := by
  obtain ⟨form, selected, reads⟩ := Instruction.parse_cases h
  have reads := Form.reads_of_readOperands reads
  obtain ⟨mnemonic, -⟩ := Form.mnemonic_of_select selected
  refine ⟨?_, reads.form ▸ reads⟩
  rw [← mnemonic, Instruction.mnemonic, reads.form]

/-! ### Programs -/

/-- The program is what the lines of its source say, and nothing else. -/
structure Program.FollowsFrom (p : Program) (lines : List SourceLine) : Prop where
  size : p.size = (lines.filter hasCode).length
  fits : p.size ≤ maxProgramSize
  numbers : p.lines = (lines.filter hasCode).map (·.number)
  instructions : List.Forall₂ (Holds p.labels) (lines.filter hasCode) p.instructions
  /-- The table has an entry for each name that is declared, and no name is declared twice. -/
  labels : p.labels.size = (lines.filterMap declared?).length
  distinct : (lines.filterMap declared?).Nodup
  /-- A name is bound to the number of lines of code in front of its declaration, -/
  bound : ∀ name i, p.labels.find? name = some i ↔
    ∃ front line back, lines = front ++ line :: back ∧ line.declared? = some name ∧
      i = front.countP hasCode
  /-- which is the index of its own line, if there is code in it. -/
  own : ∀ front line back, lines = front ++ line :: back → line.hasCode = true →
    (lines.filter hasCode)[front.countP hasCode]? = some line
  within : ∀ name i, p.labels.find? name = some i → i ≤ p.size
  /-- A jump goes where the name is bound that its last operand refers to. -/
  jumps : ∀ (k : Nat) (instruction : Instruction) (t : Nat),
    p.instructions[k]? = some instruction → instruction.jumpTarget? = some t →
      ∃ (line : SourceLine) (token name : Text), (lines.filter hasCode)[k]? = some line ∧
        line.operands.getLast? = some token ∧ Token.RefersTo token name ∧
        p.labels.find? name = some t
  immediates : ∀ instruction ∈ p.instructions, ∀ v, instruction.immediate? = some v →
    inRange v = true

theorem LabelTable.find?_ofLines_iff (accepts : Accepts lines) :
    (LabelTable.ofLines lines).find? name = some i ↔
      ∃ front line back, lines = front ++ line :: back ∧ line.declared? = some name ∧
        i = front.countP hasCode := by
  have names : (LabelTable.ofLines lines).entries.map (·.1) =
      (lines.filterMap declared?).reverse := Layout.names_ofLines lines
  have distinct : ((LabelTable.ofLines lines).entries.map (·.1)).Nodup := by
    rw [names, List.nodup_reverse]
    exact accepts.distinct
  rw [LabelTable.find?_eq_some_iff distinct, LabelTable.ofLines, List.mem_reverse,
    mem_declarations_iff]
  simp only [Nat.zero_add]

theorem countP_le_of_eq_append {front back : List SourceLine}
    (h : lines = front ++ line :: back) : front.countP hasCode ≤ lines.countP hasCode := by
  rw [h, List.countP_append]
  exact Nat.le_add_right _ _

/-- Code that stands behind `n` lines of code is the `n`-th line of code, from zero. -/
theorem getElem?_filter_of_eq_append {front back : List SourceLine}
    (h : lines = front ++ line :: back) (code : line.hasCode = true) :
    (lines.filter hasCode)[front.countP hasCode]? = some line := by
  have last : (front.filter hasCode).length = front.countP hasCode :=
    List.countP_eq_length_filter.symm
  rw [h, List.filter_append, List.filter_cons_of_pos code, List.getElem?_append_right (by omega),
    last, Nat.sub_self]
  rfl

/-- What stands at a place in the second list is related to what stands there in the first. -/
theorem exists_getElem?_of_forall₂ {α β : Type} {R : α → β → Prop} {as : List α} {bs : List β}
    (h : List.Forall₂ R as bs) {k : Nat} {b : β} (hb : bs[k]? = some b) :
    ∃ a, as[k]? = some a ∧ R a b := by
  obtain ⟨hk, rfl⟩ := List.getElem?_eq_some_iff.mp hb
  have hk' : k < as.length := h.length_eq ▸ hk
  exact ⟨as[k], List.getElem?_eq_getElem hk', h.get hk' hk⟩

theorem follows_of_assemble (h : assemble lines = .ok program) : program.FollowsFrom lines := by
  obtain ⟨accepts, parses, labels, numbers⟩ := assemble_succeeds_iff.mp h
  have holds : List.Forall₂ (Holds program.labels) (lines.filter hasCode) program.instructions := by
    refine parses.imp ?_
    intro line instruction parse
    exact labels ▸ holds_of_parse parse
  have size : program.size = (lines.filter hasCode).length := holds.length_eq.symm
  have count : program.size = lines.countP hasCode := by
    rw [size, List.countP_eq_length_filter]
  have bound : ∀ name i, program.labels.find? name = some i ↔
      ∃ front line back, lines = front ++ line :: back ∧ line.declared? = some name ∧
        i = front.countP hasCode := by
    intro name i
    rw [← labels]
    exact LabelTable.find?_ofLines_iff accepts
  refine ⟨size, count ▸ accepts.fits, numbers.symm, holds, ?_, accepts.distinct, bound, ?_, ?_, ?_,
    ?_⟩
  · have names := congrArg List.length (Layout.names_ofLines lines)
    rw [List.length_map, List.length_reverse] at names
    rw [← labels, LabelTable.size]
    exact names
  · intro front line back split code
    exact getElem?_filter_of_eq_append split code
  · intro name i hi
    obtain ⟨front, line, back, split, -, rfl⟩ := (bound name i).mp hi
    rw [count]
    exact countP_le_of_eq_append split
  · intro k instruction t hk jumps
    obtain ⟨line, hl, holds⟩ := exists_getElem?_of_forall₂ holds hk
    obtain ⟨token, name, last, refers, bound⟩ := holds.operands.target jumps
    exact ⟨line, token, name, hl, last, refers, bound⟩
  · intro instruction hi v hv
    obtain ⟨k, hk⟩ := List.getElem?_of_mem hi
    obtain ⟨line, -, holds⟩ := exists_getElem?_of_forall₂ holds hk
    exact holds.operands.immediate_inRange hv

/-- **A program follows from the lines of its source.**  The lines are those that expansion
    leaves.  Each line of code is one instruction, the labels are those that the lines
    declare, and jumps go where their names are bound. -/
theorem follows_of_decode (decodes : decode source = .ok program) :
    ∃ lines, expand source = .ok lines ∧ program.FollowsFrom lines := by
  simp only [decode, bind_succeeds_iff] at decodes
  obtain ⟨lines, expands, assembles⟩ := decodes
  exact ⟨lines, expands, follows_of_assemble assembles⟩

/-- Labels on lines of their own, in front of code, from a macro and behind the last
    instruction; jumps forth and back, with and without quotes. -/
theorem follows_of_decode_labels_everywhere :
    let source :=
      "#define m\nx: jmp \x7b\x7dx\n#enddefine\nstart:\nje \"end\"\nm!\nmid: push -5\njmp start\nend:".toList
    let program : Program :=
      { instructions := [.branch .zero 4, .jmp 1, .push (.imm (-5)), .jmp 0]
        labels := ⟨[("end".toList, 4), ("mid".toList, 2), ("m-0#x".toList, 1),
          ("start".toList, 0)]⟩
        lines := [5, 6, 7, 8] }
    decode source = .ok program ∧ ∃ lines, expand source = .ok lines ∧
      program.FollowsFrom lines := by
  intro source program
  have decodes : decode source = .ok program := by rfl
  exact ⟨decodes, follows_of_decode decodes⟩

theorem target_le_of_decode (decodes : decode source = .ok program)
    (hi : instruction ∈ program.instructions) (jumps : instruction.jumpTarget? = some t) :
    t ≤ program.size := by
  simp only [decode, bind_succeeds_iff] at decodes
  obtain ⟨lines, -, assembles⟩ := decodes
  have follows := follows_of_assemble assembles
  obtain ⟨k, hk⟩ := List.getElem?_of_mem hi
  obtain ⟨line, token, name, -, -, -, bound⟩ := follows.jumps k instruction t hk jumps
  exact follows.within name t bound

/-- **Immediates of a decoded program are values.** -/
theorem inRange_of_decode {v : Int} (decodes : decode source = .ok program)
    (hi : instruction ∈ program.instructions) (hv : instruction.immediate? = some v) :
    inRange v = true := by
  simp only [decode, bind_succeeds_iff] at decodes
  obtain ⟨lines, -, assembles⟩ := decodes
  exact (follows_of_assemble assembles).immediates instruction hi v hv

end Stepwise

/-
  Stepwise/Proofs/Assembly/RoundTrip.lean
  =======================================
  **A listing decodes to the instructions that it lists.**

  A listing is written in few characters, none of which means anything to the expander or
  is changed by normalization (`Listing.Mark`), so each of its lines is a label declaration
  and an instruction.  Each operand is read back as what it was written for: registers by
  their names, integers by their digits, targets by the labels of their indices, which are
  all declared.  So the listing of any instructions with values in range and targets within
  them is a source for them (`decode_render`).
-/
import Stepwise.Assembly.Listing
import Stepwise.Proofs.Assembly.Expanding
import Stepwise.Proofs.Assembly.NormalForm
import Stepwise.Proofs.Assembly.Shape
import Stepwise.Proofs.Text.Numeral

namespace Stepwise

variable {r : Register} {v : Int} {c : Char} {mnemonic : Text} {labels : LabelTable}
  {instruction : Instruction} {instructions : List Instruction} {n k : Nat}

/-! ### Operands -/

theorem Register.parse?_text (r : Register) : parse? r.text = some r := by
  obtain ⟨index⟩ := r
  by_cases lettered : index.val < letters.length
  · have all : ∀ index : Fin 256, index.val < letters.length →
        parse? (text ⟨index⟩) = some ⟨index⟩ := by
      decide +kernel
    exact all index lettered
  · have unlettered : letters[index.val]? = none := List.getElem?_eq_none (Nat.not_lt.mp lettered)
    obtain ⟨c, digits, eq, -⟩ := Text.exists_digit_cons index.val
    have numbered : parse? ('r' :: c :: digits) = (Text.toNat? (c :: digits)).bind ofNat? := rfl
    simp only [text, unlettered]
    rw [eq, numbered, ← eq, Text.toNat?_ofNat]
    simp [ofNat?, index.isLt]

/-- Only four letters and what starts with `r` can name a register. -/
theorem Register.parse?_eq_none {rest : Text} (other : c ∉ 'r' :: letters) :
    parse? (c :: rest) = none := by
  rw [List.mem_cons, not_or] at other
  unfold parse?
  split
  · rename_i letter eq
    cases eq
    rw [List.idxOf?_eq_none_iff.mpr other.2]
    rfl
  · rename_i digits eq
    cases eq
    exact absurd rfl other.1
  · rfl

theorem Register.parse?_ofInt (v : Int) : parse? (Text.ofInt v) = none := by
  cases v with
  | ofNat n =>
    obtain ⟨c, digits, eq, digit⟩ := Text.exists_digit_cons n
    rw [Text.ofInt, eq]
    refine parse?_eq_none fun named => ?_
    have letter : ∀ c ∈ 'r' :: letters, c.isDigit = false := by decide
    rw [letter c named] at digit
    cases digit
  | negSucc n => exact parse?_eq_none (by decide)

theorem Token.register_text (mnemonic : Text) (r : Register) :
    register mnemonic r.text = .ok r := by
  rw [register, Register.parse?_text]

theorem Token.value_text (mnemonic : Text) {value : Operand}
    (within : ∀ v, value = .imm v → inRange v = true) :
    Token.value mnemonic value.text = .ok value := by
  cases value with
  | reg r => rw [Token.value, Operand.text, Register.parse?_text]
  | imm v =>
    rw [Token.value, Operand.text, Register.parse?_ofInt, Text.toNegatableInt?_ofInt]
    exact if_pos (within v rfl)

namespace Listing

theorem not_mem_labelName (letter : c ≠ 'l') (digit : c.isDigit = false) : c ∉ labelName k := by
  intro hc
  rcases List.mem_cons.mp hc with same | hc
  · exact letter same
  · rw [Text.isDigit_of_mem_ofNat hc] at digit
    cases digit

theorem refersTo_labelName (t : Nat) : Token.RefersTo (labelName t) (labelName t) :=
  .bare (List.cons_ne_nil _ _) (not_mem_labelName (by decide) (by decide))

theorem isLabelName_labelName (k : Nat) : Token.isLabelName (labelName k) = true := by
  have colon : ':' ∉ labelName k := not_mem_labelName (by decide) (by decide)
  have quote : '"' ∉ labelName k := not_mem_labelName (by decide) (by decide)
  have shown : labelName k ≠ [] := List.cons_ne_nil _ _
  simp [Token.isLabelName, colon, quote, shown]

theorem labelName_injective {k n : Nat} (h : labelName k = labelName n) : k = n :=
  Text.ofNat_injective (List.cons.inj h).2

theorem label_labelName (mnemonic : Text) (bound : labels.find? (labelName n) = some n) :
    Token.label labels mnemonic (labelName n) = .ok n :=
  Token.label_succeeds_iff.mpr ⟨labelName n, refersTo_labelName n, bound⟩

/-! ### Instructions -/

theorem length_operandTexts (instruction : Instruction) :
    (operandTexts instruction).length = instruction.form.arity := by
  cases instruction with
  | read into => cases into <;> rfl
  | _ => rfl

theorem select?_form (form : Form) : Form.select? form.mnemonic form.arity = some form := by
  have all : ∀ form ∈ Form.all, Form.select? form.mnemonic form.arity = some form := by
    decide +kernel
  exact all form (Form.mem_all form)

theorem reads_operandTexts (values : ∀ v, instruction.immediate? = some v → inRange v = true)
    (targets : ∀ t, instruction.jumpTarget? = some t → labels.find? (labelName t) = some t) :
    instruction.form.Reads labels (operandTexts instruction) instruction := by
  cases instruction with
  | push o => exact .push (Token.value_text _ fun v ho => values v (by rw [ho]; rfl))
  | pop => exact .pop
  | popInto d => exact .popInto (Token.register_text _ d)
  | arith op => exact .arith op
  | arithReg op d o =>
    refine .arithReg op (Token.register_text _ d) (Token.value_text _ fun v ho => values v ?_)
    rw [ho]
    rfl
  | mov d o =>
    refine .mov (Token.register_text _ d) (Token.value_text _ fun v ho => values v ?_)
    rw [ho]
    rfl
  | jmp t => exact .jmp (label_labelName _ (targets t rfl))
  | branch on t => exact .branch on (label_labelName _ (targets t rfl))
  | branchReg on s t =>
    exact .branchReg on (Token.register_text _ s) (label_labelName _ (targets t rfl))
  | halt => exact .halt
  | read into =>
    cases into with
    | stack => exact .read
    | reg d => exact .readInto (Token.register_text _ d)
  | write => exact .write
  | writeValue o => exact .writeValue (Token.value_text _ fun v ho => values v (by rw [ho]; rfl))

/-- **An instruction is read back from its operands as they are written.** -/
theorem parse_operandTexts (values : ∀ v, instruction.immediate? = some v → inRange v = true)
    (targets : ∀ t, instruction.jumpTarget? = some t → labels.find? (labelName t) = some t) :
    Instruction.parse labels instruction.mnemonic (operandTexts instruction) =
      .ok instruction := by
  rw [Instruction.parse, length_operandTexts, Instruction.mnemonic, select?_form]
  exact (reads_operandTexts values targets).readOperands

/-! ### Characters -/

/-- The character stands in the tokens of listings: it is small, separates nothing, and
    means nothing to the expander. -/
def Mark (c : Char) : Prop :=
  Text.Small c ∧ Token.isSeparator c = false ∧ c ∉ ['/', '!', '#', '"']

instance (c : Char) : Decidable (Mark c) := inferInstanceAs (Decidable (_ ∧ _))

/-- The text can be a token of a listing. -/
def Spells (t : Text) : Prop := t ≠ [] ∧ ∀ c ∈ t, Mark c

theorem mark_of_digit (digit : c.isDigit = true) : Mark c := by
  have all : ∀ c ∈ "0123456789".toList, Mark c := by decide +kernel
  exact all c (Text.mem_digits digit)

theorem spells_ofNat (n : Nat) : Spells (Text.ofNat n) :=
  ⟨Text.ofNat_ne_nil n, fun _ hc => mark_of_digit (Text.isDigit_of_mem_ofNat hc)⟩

theorem Spells.cons {t : Text} (h : Spells t) (mark : Mark c) : Spells (c :: t) :=
  ⟨List.cons_ne_nil c t, List.forall_mem_cons.mpr ⟨mark, h.2⟩⟩

theorem spells_labelName (k : Nat) : Spells (labelName k) :=
  (spells_ofNat k).cons (by decide +kernel)

theorem spells_declaration (k : Nat) : Spells (declaration k) := by
  refine ⟨by simp [declaration], List.forall_mem_append.mpr ⟨(spells_labelName k).2, ?_⟩⟩
  decide +kernel

theorem spells_mnemonic (form : Form) : Spells form.mnemonic := by
  have all : ∀ form ∈ Form.all, form.mnemonic ≠ [] ∧ ∀ c ∈ form.mnemonic, Mark c := by
    decide +kernel
  exact all form (Form.mem_all form)

theorem spells_register (r : Register) : Spells r.text := by
  have letters : ∀ letter ∈ Register.letters, Mark letter := by decide +kernel
  simp only [Register.text]
  split
  · rename_i letter lettered
    refine ⟨List.cons_ne_nil _ _, List.forall_mem_singleton.mpr ?_⟩
    exact letters letter (List.mem_of_getElem? lettered)
  · exact (spells_ofNat _).cons (by decide +kernel)

theorem spells_operand (o : Operand) : Spells o.text := by
  cases o with
  | reg r => exact spells_register r
  | imm v =>
    cases v with
    | ofNat n => exact spells_ofNat n
    | negSucc n => exact (spells_ofNat (n + 1)).cons (by decide +kernel)

theorem spells_operandTexts (instruction : Instruction) :
    ∀ t ∈ operandTexts instruction, Spells t := by
  cases instruction with
  | read into => cases into <;> simp [operandTexts, spells_register]
  | _ => simp [operandTexts, spells_operand, spells_register, spells_labelName]

/-! ### Lines -/

theorem split_instructionText (instruction : Instruction) :
    Token.split (instructionText instruction) =
      instruction.mnemonic :: operandTexts instruction := by
  obtain ⟨shown, marks⟩ := spells_mnemonic instruction.form
  have operands : Text.fields Token.isSeparator (Text.join ", ".toList (operandTexts instruction)) =
      operandTexts instruction := by
    refine Text.fields_join (by decide) (by decide) ?_
    intro t ht
    obtain ⟨shown, marks⟩ := spells_operandTexts instruction t ht
    exact ⟨shown, fun c hc => (marks c hc).2.1⟩
  rw [Token.split, instructionText, Text.fields_append_separator (by decide), operands,
    Instruction.mnemonic, Text.fields_of_plain shown fun c hc => (marks c hc).2.1]
  rfl

@[simp] theorem split_declaration (k : Nat) : Token.split (declaration k) = [declaration k] := by
  obtain ⟨shown, marks⟩ := spells_declaration k
  exact Text.fields_of_plain shown fun c hc => (marks c hc).2.1

@[simp] theorem split_line (k : Nat) (instruction : Instruction) :
    Token.split (line k instruction) =
      declaration k :: instruction.mnemonic :: operandTexts instruction := by
  have first := split_declaration k
  have rest := split_instructionText instruction
  rw [Token.split] at first rest ⊢
  rw [line, Text.fields_append_separator (by decide), first, rest]
  rfl

/-- The text is made of tokens of listings, and of what stands between them. -/
def Lists (t : Text) : Prop := ∀ c ∈ t, Mark c ∨ c = ' ' ∨ c = ','

theorem Spells.lists {t : Text} (h : Spells t) : Lists t := fun c hc => .inl (h.2 c hc)

theorem lists_join {texts : List Text} (h : ∀ t ∈ texts, Lists t) :
    Lists (Text.join ", ".toList texts) := by
  induction texts with
  | nil =>
    intro c hc
    cases hc
  | cons t texts ih =>
    obtain ⟨first, rest⟩ := List.forall_mem_cons.mp h
    cases texts with
    | nil => exact first
    | cons t' texts =>
      refine List.forall_mem_append.mpr ⟨List.forall_mem_append.mpr ⟨first, ?_⟩, ih rest⟩
      simp

theorem lists_line (k : Nat) (instruction : Instruction) : Lists (line k instruction) := by
  have operands : Lists (Text.join ", ".toList (operandTexts instruction)) :=
    lists_join fun t ht => (spells_operandTexts instruction t ht).lists
  refine List.forall_mem_append.mpr ⟨(spells_declaration k).lists, ?_⟩
  refine List.forall_mem_cons.mpr ⟨.inr (.inl rfl), ?_⟩
  refine List.forall_mem_append.mpr ⟨(spells_mnemonic instruction.form).lists, ?_⟩
  exact List.forall_mem_cons.mpr ⟨.inr (.inl rfl), operands⟩

theorem Lists.not_mem {t : Text} (h : Lists t) (other : ¬ Mark c ∧ c ≠ ' ' ∧ c ≠ ',') : c ∉ t := by
  intro hc
  rcases h c hc with mark | blank | comma
  · exact other.1 mark
  · exact other.2.1 blank
  · exact other.2.2 comma

theorem Lists.isLine {t : Text} (h : Lists t) (shown : t ≠ []) : Text.IsLine t where
  begun := shown
  unbroken := h.not_mem (by decide +kernel)
  uncut := fun last => h.not_mem (by decide +kernel) (List.mem_of_getLast? last)

theorem Lists.normalize_eq {t : Text} (h : Lists t) : SourceLine.normalize t = t.trim := by
  have uncommented : Text.Uncommented t :=
    Text.uncommented_of_not_mem (h.not_mem (by decide +kernel))
  have small : ∀ c ∈ t.trim, Text.Small c := by
    intro c hc
    rcases h c ((Text.isInfix_trim t).mem hc) with mark | rfl | rfl
    · exact mark.1
    · decide +kernel
    · decide +kernel
  rw [SourceLine.normalize, Text.beforePair_of_uncommented uncommented, Text.lower_of_small small]

/-- The tokens of a line of a listing are those of its normal form. -/
theorem Lists.split_normalize {t : Text} (h : Lists t) :
    Token.split (SourceLine.normalize t) = Token.split t := by
  rw [h.normalize_eq]
  refine Text.fields_strip (fun c blank => ?_) t
  rw [Token.isSeparator, blank]
  rfl

theorem Lists.plain {t : Text} (h : Lists t) (shown : Token.split t ≠ []) :
    Expansion.Plain (SourceLine.normalize t) := by
  have inner {c : Char} (other : ¬ Mark c ∧ c ≠ ' ' ∧ c ≠ ',') : c ∉ SourceLine.normalize t := by
    rw [h.normalize_eq]
    exact fun hc => h.not_mem other ((Text.isInfix_trim t).mem hc)
  refine Expansion.plain_of_marks ?_ ?_ (inner (by decide +kernel))
  · intro blank
    rw [← h.split_normalize, blank] at shown
    exact shown rfl
  · intro directive
    exact inner (by decide +kernel) (List.mem_of_head? directive)

/-! ### Listings -/

/-- The lines of a listing in normal form, the first one about the index `k`. -/
def sourceLines (k : Nat) : List Instruction → List SourceLine
  | [] => [⟨k + 1, SourceLine.normalize (declaration k)⟩]
  | instruction :: rest =>
    ⟨k + 1, SourceLine.normalize (line k instruction)⟩ :: sourceLines (k + 1) rest

theorem sourceLines_eq (k : Nat) (instructions : List Instruction) :
    sourceLines k instructions =
      (((instructions.zipIdx k).map (fun entry => line entry.2 entry.1)
          ++ [declaration (k + instructions.length)]).zipIdx (k + 1)).map
        fun entry => ⟨entry.2, SourceLine.normalize entry.1⟩ := by
  induction instructions generalizing k with
  | nil => rfl
  | cons instruction rest ih =>
    rw [sourceLines, ih, List.length_cons, Nat.add_right_comm, Nat.add_assoc]
    rfl

theorem isLine_of_mem_lines {t : Text} (h : t ∈ lines instructions) : Text.IsLine t := by
  rcases List.mem_append.mp h with h | h
  · obtain ⟨⟨instruction, k⟩, -, rfl⟩ := List.mem_map.mp h
    exact (lists_line k instruction).isLine (by simp [line, declaration])
  · rw [List.mem_singleton.mp h]
    exact (spells_declaration _).lists.isLine (spells_declaration _).1

theorem ofSource_render (instructions : List Instruction) :
    SourceLine.ofSource (render instructions) = sourceLines 0 instructions := by
  rw [SourceLine.ofSource, render, Text.lines_join fun t ht => isLine_of_mem_lines ht,
    sourceLines_eq, Nat.zero_add]
  rfl

theorem plain_of_mem_sourceLines {l : SourceLine} (h : l ∈ sourceLines k instructions) :
    Expansion.Plain l.text := by
  induction instructions generalizing k with
  | nil =>
    rw [List.mem_singleton.mp h]
    refine (spells_declaration k).lists.plain ?_
    rw [split_declaration]
    exact List.cons_ne_nil _ _
  | cons instruction rest ih =>
    rcases List.mem_cons.mp h with rfl | h
    · refine (lists_line k instruction).plain ?_
      rw [split_line]
      exact List.cons_ne_nil _ _
    · exact ih h

variable {number : Nat}

@[simp] theorem isDeclaration_declaration (k : Nat) :
    Token.isDeclaration (declaration k) = true := by
  rw [Token.isDeclaration, Text.endsWith, declaration, List.getLast?_concat]
  rfl

@[simp] theorem dropLast_declaration (k : Nat) : (declaration k).dropLast = labelName k :=
  List.dropLast_concat

theorem declared?_line (number k : Nat) (instruction : Instruction) :
    SourceLine.declared? ⟨number, SourceLine.normalize (line k instruction)⟩ =
      some (labelName k) := by
  simp [SourceLine.declared?, (lists_line k instruction).split_normalize]

theorem code_line (number k : Nat) (instruction : Instruction) :
    SourceLine.code ⟨number, SourceLine.normalize (line k instruction)⟩ =
      instruction.mnemonic :: operandTexts instruction := by
  simp [SourceLine.code, (lists_line k instruction).split_normalize]

theorem declared?_declaration (number k : Nat) :
    SourceLine.declared? ⟨number, SourceLine.normalize (declaration k)⟩ = some (labelName k) := by
  simp [SourceLine.declared?, (spells_declaration k).lists.split_normalize]

@[simp] theorem code_declaration (number k : Nat) :
    SourceLine.code ⟨number, SourceLine.normalize (declaration k)⟩ = [] := by
  simp [SourceLine.code, (spells_declaration k).lists.split_normalize]

theorem hasCode_line (number k : Nat) (instruction : Instruction) :
    SourceLine.hasCode ⟨number, SourceLine.normalize (line k instruction)⟩ = true := by
  rw [SourceLine.hasCode, code_line]
  rfl

theorem declarations_sourceLines (k : Nat) (instructions : List Instruction) :
    declarations k (sourceLines k instructions) =
      (List.range' k (instructions.length + 1)).map fun j => (labelName j, j) := by
  induction instructions generalizing k with
  | nil => simp [sourceLines, declarations, declared?_declaration]
  | cons instruction rest ih =>
    simp only [sourceLines, declarations, declared?_line, hasCode_line, if_true, ih]
    rfl

theorem declared?_sourceLines (k : Nat) (instructions : List Instruction) :
    (sourceLines k instructions).filterMap SourceLine.declared? =
      (List.range' k (instructions.length + 1)).map labelName := by
  rw [← map_fst_declarations k, declarations_sourceLines, List.map_map]
  rfl

theorem code_sourceLines (k : Nat) (instructions : List Instruction) :
    List.Forall₂
        (fun instruction l =>
          l.mnemonic = instruction.mnemonic ∧ l.operands = operandTexts instruction)
        instructions ((sourceLines k instructions).filter SourceLine.hasCode) := by
  induction instructions generalizing k with
  | nil => simp [sourceLines, SourceLine.hasCode]
  | cons instruction rest ih =>
    rw [sourceLines, List.filter_cons_of_pos (hasCode_line _ k instruction)]
    refine .cons ⟨?_, ?_⟩ (ih (k + 1))
    · rw [SourceLine.mnemonic, code_line, List.headD_cons]
    · rw [SourceLine.operands, code_line, List.tail_cons]

theorem number_sourceLines (k : Nat) (instructions : List Instruction) :
    ((sourceLines k instructions).filter SourceLine.hasCode).map (·.number) =
      List.range' (k + 1) instructions.length := by
  induction instructions generalizing k with
  | nil => simp [sourceLines, SourceLine.hasCode]
  | cons instruction rest ih =>
    rw [sourceLines, List.filter_cons_of_pos (hasCode_line _ k instruction), List.map_cons, ih]
    rfl

/-- Lines of a listing can be laid out. -/
theorem accepts_sourceLines (fits : instructions.length ≤ maxProgramSize) :
    Accepts (sourceLines 0 instructions) := by
  have reads := code_sourceLines 0 instructions
  have declared := declared?_sourceLines 0 instructions
  refine ⟨?_, ?_, ?_, ?_⟩
  · intro l hl name declares
    have named : name ∈ (sourceLines 0 instructions).filterMap SourceLine.declared? :=
      List.mem_filterMap.mpr ⟨l, hl, declares⟩
    rw [declared] at named
    obtain ⟨k, -, rfl⟩ := List.mem_map.mp named
    exact isLabelName_labelName k
  · rw [declared]
    exact List.Nodup.map (fun _ _ => labelName_injective) List.nodup_range'
  · intro l hl code
    obtain ⟨k, hk⟩ := List.getElem?_of_mem (List.mem_filter.mpr ⟨hl, code⟩)
    obtain ⟨instruction, -, mnemonic, -⟩ := exists_getElem?_of_forall₂ reads hk
    rw [mnemonic, isMnemonic, List.any_eq_true]
    exact ⟨instruction.form, Form.mem_all _, by rw [Instruction.mnemonic, BEq.rfl]⟩
  · rw [List.countP_eq_length_filter, ← reads.length_eq]
    exact fits

theorem find?_sourceLines_iff {name : Text} {i : Nat}
    (fits : instructions.length ≤ maxProgramSize) :
    (LabelTable.ofLines (sourceLines 0 instructions)).find? name = some i ↔
      ∃ k ≤ instructions.length, name = labelName k ∧ i = k := by
  have distinct : ((LabelTable.ofLines (sourceLines 0 instructions)).entries.map (·.1)).Nodup := by
    rw [LabelTable.ofLines, List.map_reverse, map_fst_declarations, List.nodup_reverse]
    exact (accepts_sourceLines fits).distinct
  rw [LabelTable.find?_eq_some_iff distinct, LabelTable.ofLines, List.mem_reverse,
    declarations_sourceLines, List.mem_map]
  constructor
  · rintro ⟨k, hk, same⟩
    obtain ⟨rfl, rfl⟩ := Prod.mk.inj same
    rw [List.mem_range'_1] at hk
    exact ⟨k, by omega, rfl, rfl⟩
  · rintro ⟨k, hk, rfl, rfl⟩
    exact ⟨i, List.mem_range'_1.mpr (by omega), rfl⟩

theorem expand_render (instructions : List Instruction) :
    expand (render instructions) = .ok (sourceLines 0 instructions) := by
  rw [← ofSource_render]
  refine Expansion.expand_of_plain ?_
  intro l hl
  rw [ofSource_render] at hl
  exact plain_of_mem_sourceLines hl

theorem assemble_sourceLines (fits : instructions.length ≤ maxProgramSize)
    (values : ∀ instruction ∈ instructions, ∀ v, instruction.immediate? = some v →
      inRange v = true)
    (targets : ∀ instruction ∈ instructions, ∀ t, instruction.jumpTarget? = some t →
      t ≤ instructions.length) :
    assemble (sourceLines 0 instructions) =
      .ok { instructions
            labels := .ofLines (sourceLines 0 instructions)
            lines := List.range' 1 instructions.length } := by
  have sound : ∀ instruction ∈ instructions,
      (∀ v, instruction.immediate? = some v → inRange v = true) ∧
        ∀ t, instruction.jumpTarget? = some t →
          (LabelTable.ofLines (sourceLines 0 instructions)).find? (labelName t) = some t := by
    intro instruction hi
    refine ⟨values instruction hi, ?_⟩
    intro t jumps
    exact (find?_sourceLines_iff fits).mpr ⟨t, targets instruction hi t jumps, rfl, rfl⟩
  have parses : List.Forall₂
      (fun l instruction =>
        Instruction.parse (.ofLines (sourceLines 0 instructions)) l.mnemonic l.operands =
          .ok instruction)
      ((sourceLines 0 instructions).filter SourceLine.hasCode) instructions := by
    refine ((List.forall₂_and_left _ _).mpr ⟨sound, code_sourceLines 0 instructions⟩).flip.imp ?_
    rintro l instruction ⟨⟨values, targets⟩, mnemonic, operands⟩
    rw [mnemonic, operands]
    exact parse_operandTexts values targets
  exact assemble_succeeds_iff.mpr
    ⟨accepts_sourceLines fits, parses, rfl, number_sourceLines 0 instructions⟩

end Listing

open Listing

/-- **A listing is a source for the instructions that it lists.** -/
theorem decode_render (instructions : List Instruction)
    (fits : instructions.length ≤ maxProgramSize)
    (values : ∀ instruction ∈ instructions, ∀ v, instruction.immediate? = some v →
      inRange v = true)
    (targets : ∀ instruction ∈ instructions, ∀ t, instruction.jumpTarget? = some t →
      t ≤ instructions.length) :
    ∃ program, decode (render instructions) = .ok program ∧
      program.instructions = instructions ∧
      (∀ name i, program.labels.find? name = some i ↔
        ∃ k ≤ instructions.length, name = labelName k ∧ i = k) ∧
      program.labels.size = instructions.length + 1 ∧
      program.lines = List.range' 1 instructions.length := by
  let program : Program :=
    { instructions
      labels := .ofLines (sourceLines 0 instructions)
      lines := List.range' 1 instructions.length }
  have decodes : decode (render instructions) = .ok program := by
    rw [decode, expand_render]
    exact assemble_sourceLines fits values targets
  refine ⟨program, decodes, rfl, ?_, ?_, rfl⟩
  · intro name i
    exact find?_sourceLines_iff fits
  · simp [program, LabelTable.size, LabelTable.ofLines, declarations_sourceLines]

/-- A jump to the end and one to the start, a register behind the last letter, and the
    largest value. -/
theorem decode_render_jumps :
    let instructions : List Instruction :=
      [.branchReg .negative ⟨255⟩ 4, .mov ⟨0⟩ (.imm maxValue), .read .stack, .jmp 0]
    render instructions =
        "l0: jl r255, l4\nl1: mov a, 2147483648\nl2: read \nl3: jmp l0\nl4:".toList ∧
      instructions.length ≤ maxProgramSize ∧
      (∀ instruction ∈ instructions, ∀ v, instruction.immediate? = some v → inRange v = true) ∧
      (∀ instruction ∈ instructions, ∀ t, instruction.jumpTarget? = some t →
        t ≤ instructions.length) ∧
      ∃ program, decode (render instructions) = .ok program ∧
        program.instructions = instructions ∧ program.labels.find? "l4".toList = some 4 ∧
        program.lines = [1, 2, 3, 4] := by
  intro instructions
  have fits : instructions.length ≤ maxProgramSize := by decide
  have values : ∀ instruction ∈ instructions, ∀ v, instruction.immediate? = some v →
      inRange v = true := by
    simp [instructions, Instruction.immediate?, maxValue, inRange]
  have targets : ∀ instruction ∈ instructions, ∀ t, instruction.jumpTarget? = some t →
      t ≤ instructions.length := by
    simp [instructions, Instruction.jumpTarget?]
  obtain ⟨program, decodes, same, labels, -, numbers⟩ :=
    decode_render instructions fits values targets
  refine ⟨by decide +kernel, fits, values, targets, program, decodes, same, ?_, numbers⟩
  exact (labels _ _).mpr ⟨4, by decide, rfl, rfl⟩

end Stepwise

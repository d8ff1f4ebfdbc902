/-
  Stepwise/Proofs/Assembly/Layout.lean
  ====================================
  **The layout of lines, read off the lines.**

  A line that expansion leaves has a label declaration in front, or not, and code behind
  it, or not (`SourceLine.declared?`, `SourceLine.code`).  Lines can be laid out exactly if
  each name can name a label and is declared once, each line of code starts with a
  mnemonic, and there are not too many of them (`Accepts`).  The layout then holds nothing
  that the lines do not say: the declared names, each with the number of lines of code in
  front of its declaration, and the lines of code in their order (`Layout.ofLines`,
  `Layout.addAll_succeeds_iff`).

  The instructions of a program are read from the lines of code of its layout, one from
  each, and its labels are those of the layout (`assemble_succeeds_iff`).
-/
import Mathlib.Data.List.Induction
import Mathlib.Data.List.Nodup
import Stepwise.Proofs.Assembly.Decoding

namespace Stepwise

/-! ### What a line says -/

namespace SourceLine

/-- The name that the line declares in front of its code, if it does. -/
def declared? (line : SourceLine) : Option Text :=
  match Token.split line.text with
  | [] => none
  | first :: _ => if Token.isDeclaration first then some first.dropLast else none

/-- The tokens of the line, a leading label declaration aside. -/
def code (line : SourceLine) : List Text :=
  match Token.split line.text with
  | [] => []
  | first :: rest => if Token.isDeclaration first then rest else first :: rest

def hasCode (line : SourceLine) : Bool := !line.code.isEmpty

def mnemonic (line : SourceLine) : Text := line.code.headD []

def operands (line : SourceLine) : List Text := line.code.tail

/-- The line of code as the first pass keeps it. -/
def pending (line : SourceLine) : Pending := ⟨line.number, line.mnemonic, line.operands⟩

end SourceLine

open SourceLine

/-- The names that lines declare, each with the number of lines of code in front of it,
    counted from `n`. -/
def declarations (n : Nat) : List SourceLine → List (Text × Nat)
  | [] => []
  | line :: rest =>
    (line.declared?.map fun name => (name, n)).toList
      ++ declarations (n + if line.hasCode then 1 else 0) rest

/-- Nothing in the lines keeps them from being laid out. -/
structure Accepts (lines : List SourceLine) : Prop where
  names : ∀ line ∈ lines, ∀ name, line.declared? = some name → Token.isLabelName name = true
  distinct : (lines.filterMap declared?).Nodup
  mnemonics : ∀ line ∈ lines, line.hasCode = true → isMnemonic line.mnemonic = true
  fits : lines.countP hasCode ≤ maxProgramSize

def LabelTable.ofLines (lines : List SourceLine) : LabelTable :=
  ⟨(declarations 0 lines).reverse⟩

def Layout.ofLines (lines : List SourceLine) : Layout where
  labels := .ofLines lines
  pending := ((lines.filter hasCode).map SourceLine.pending).reverse

variable {lines : List SourceLine} {line : SourceLine} {layout layout' : Layout} {name : Text}
  {source : Text} {program : Program} {i n : Nat}

/-! ### One line -/

namespace Layout

/-- The layout with one more line, if nothing is wrong with it. -/
def after (l : Layout) (line : SourceLine) : Layout where
  labels :=
    match line.declared? with
    | some name => l.labels.bind name l.pending.length
    | none => l.labels
  pending := if line.hasCode then line.pending :: l.pending else l.pending

@[mk_iff]
structure Admits (l : Layout) (line : SourceLine) : Prop where
  name : ∀ name, line.declared? = some name →
    Token.isLabelName name = true ∧ l.labels.contains name = false
  code : line.hasCode = true →
    isMnemonic line.mnemonic = true ∧ l.pending.length ≠ maxProgramSize

@[simp] theorem declareLabel_succeeds_iff {token : Text} :
    layout.declareLabel token = .ok layout' ↔
      (Token.isLabelName token.dropLast = true ∧ layout.labels.contains token.dropLast = false) ∧
        { layout with labels := layout.labels.bind token.dropLast layout.pending.length } =
          layout' := by
  simp only [declareLabel, Token.declaredName]
  by_cases named : Token.isLabelName token.dropLast = true
  · cases bound : layout.labels.contains token.dropLast <;> simp [named, bound]
  · simp [named]

@[simp] theorem addInstruction_succeeds_iff {number : Nat} {mnemonic : Text}
    {operands : List Text} :
    layout.addInstruction number (mnemonic :: operands) = .ok layout' ↔
      (isMnemonic mnemonic = true ∧ layout.pending.length ≠ maxProgramSize) ∧
        { layout with pending := ⟨number, mnemonic, operands⟩ :: layout.pending } = layout' := by
  simp only [addInstruction]
  by_cases known : isMnemonic mnemonic = true
  · by_cases full : layout.pending.length = maxProgramSize <;> simp [known, full]
  · simp [known]

/-- A line is taken in exactly if it is admitted, and for nothing but what it says. -/
theorem add_succeeds_iff :
    layout.add line = .ok layout' ↔ layout.Admits line ∧ layout.after line = layout' := by
  have adds : layout.add line = .ok layout' ↔
      layout.addTokens line.number (Token.split line.text) = .ok layout' := by
    simp only [add]
    cases layout.addTokens line.number (Token.split line.text) <;> simp
  rw [adds]
  -- by what the line's tokens begin with, as its declaration and its code are defined
  rcases tokens : Token.split line.text with _ | ⟨first, rest⟩
  · have declared : line.declared? = none := by simp [declared?, tokens]
    have code : line.code = [] := by simp [SourceLine.code, tokens]
    simp [addTokens, admits_iff, after, declared, hasCode, code]
  · by_cases declares : Token.isDeclaration first = true
    · have declared : line.declared? = some first.dropLast := by simp [declared?, tokens, declares]
      have code : line.code = rest := by simp [SourceLine.code, tokens, declares]
      have both : layout.addTokens line.number (first :: rest) = .ok layout' ↔
          ∃ l, layout.declareLabel first = .ok l ∧
            l.addInstruction line.number rest = .ok layout' := by
        simp only [addTokens, declares, if_true]
        cases layout.declareLabel first <;> simp
      rw [both]
      cases rest with
      | nil =>
        simp [addInstruction, admits_iff, after, declared, hasCode, code]
      | cons mnemonic operands =>
        simp [admits_iff, after, declared, hasCode, code, SourceLine.pending, SourceLine.mnemonic,
          SourceLine.operands, and_assoc]
    · have declared : line.declared? = none := by simp [declared?, tokens, declares]
      have code : line.code = first :: rest := by simp [SourceLine.code, tokens, declares]
      simp [addTokens, declares, admits_iff, after, declared, hasCode, code, SourceLine.pending,
        SourceLine.mnemonic, SourceLine.operands]

theorem addAll_append (layout : Layout) (front back : List SourceLine) :
    layout.addAll (front ++ back) = layout.addAll front >>= fun l => l.addAll back := by
  induction front generalizing layout with
  | nil => rfl
  | cons line front ih =>
    simp only [List.cons_append, addAll]
    cases layout.add line with
    | error e => rfl
    | ok l => exact ih l

@[simp] theorem addAll_singleton (layout : Layout) (line : SourceLine) :
    layout.addAll [line] = layout.add line := by
  simp only [addAll]
  cases layout.add line <;> rfl

end Layout

/-! ### Tables -/

namespace LabelTable

variable {table : LabelTable}

theorem contains_eq_false_iff :
    table.contains name = false ↔ name ∉ table.entries.map (·.1) := by
  rw [contains, Option.isSome_eq_false_iff, Option.isNone_iff_eq_none, find?,
    Option.map_eq_none_iff, List.find?_eq_none, List.mem_map]
  constructor
  · rintro h ⟨e, he, rfl⟩
    exact h e he (by simp)
  · intro h e he same
    exact h ⟨e, he, by simpa using same⟩

theorem bind_of_new (new : name ∉ table.entries.map (·.1)) (i : Nat) :
    table.bind name i = ⟨(name, i) :: table.entries⟩ := by
  have others : ∀ e ∈ table.entries, (e.1 != name) = true := by
    intro e he
    rw [bne_iff_ne]
    rintro rfl
    exact new (List.mem_map_of_mem he)
  rw [bind, List.filter_eq_self.mpr others]

/-- Where a name has one entry, that is what the name is bound to. -/
theorem find?_eq_some_iff (distinct : (table.entries.map (·.1)).Nodup) :
    table.find? name = some i ↔ (name, i) ∈ table.entries := by
  obtain ⟨entries⟩ := table
  simp only [find?]
  induction entries with
  | nil => simp
  | cons e entries ih =>
    obtain ⟨own, index⟩ := e
    simp only [List.map_cons, List.nodup_cons] at distinct
    by_cases same : own = name
    · subst same
      have once : (own, i) ∉ entries := fun he => distinct.1 (List.mem_map_of_mem he)
      simp [once, eq_comm]
    · have passed : (own == name) = false := by simpa using same
      simp [passed, ih distinct.2, Ne.symm same]

end LabelTable

@[simp] theorem declarations_append (n : Nat) (front back : List SourceLine) :
    declarations n (front ++ back) =
      declarations n front ++ declarations (n + front.countP hasCode) back := by
  induction front generalizing n with
  | nil => simp [declarations]
  | cons line front ih =>
    simp only [List.cons_append, declarations, ih, List.append_assoc, List.countP_cons]
    congr 3
    omega

@[simp] theorem map_fst_declarations (n : Nat) (lines : List SourceLine) :
    (declarations n lines).map (·.1) = lines.filterMap declared? := by
  induction lines generalizing n with
  | nil => rfl
  | cons line lines ih =>
    rw [declarations, List.map_append, ih, List.filterMap_cons]
    cases line.declared? <;> rfl

/-- A name is declared with the number of lines of code in front of its declaration. -/
theorem mem_declarations_iff :
    (name, i) ∈ declarations n lines ↔
      ∃ front line back, lines = front ++ line :: back ∧ line.declared? = some name ∧
        i = n + front.countP hasCode := by
  constructor
  · intro h
    induction lines generalizing n with
    | nil => cases h
    | cons line lines ih =>
      rcases List.mem_append.mp h with here | later
      · obtain ⟨own, declares, same⟩ := Option.map_eq_some_iff.mp (Option.mem_toList.mp here)
        cases same
        exact ⟨[], line, lines, rfl, declares, rfl⟩
      · obtain ⟨front, own, back, rfl, declares, rfl⟩ := ih later
        refine ⟨line :: front, own, back, rfl, declares, ?_⟩
        rw [List.countP_cons]
        omega
  · rintro ⟨front, line, back, rfl, declares, rfl⟩
    rw [declarations_append, declarations, declares]
    simp

/-! ### All lines -/

namespace Layout

@[simp] theorem length_pending_ofLines (lines : List SourceLine) :
    (ofLines lines).pending.length = lines.countP hasCode := by
  simp [ofLines, List.countP_eq_length_filter]

theorem names_ofLines (lines : List SourceLine) :
    (ofLines lines).labels.entries.map (·.1) = (lines.filterMap declared?).reverse := by
  rw [ofLines, LabelTable.ofLines, List.map_reverse, map_fst_declarations]

theorem after_ofLines (admits : (ofLines lines).Admits line) :
    (ofLines lines).after line = ofLines (lines ++ [line]) := by
  have labels : ((ofLines lines).after line).labels = (ofLines (lines ++ [line])).labels := by
    cases declares : line.declared? with
    | none => simp [after, ofLines, LabelTable.ofLines, declarations, declares]
    | some name =>
      have new := LabelTable.contains_eq_false_iff.mp (admits.name name declares).2
      simp only [after, declares, LabelTable.bind_of_new new, length_pending_ofLines]
      simp [ofLines, LabelTable.ofLines, declarations, declares]
  have pending : ((ofLines lines).after line).pending = (ofLines (lines ++ [line])).pending := by
    cases code : line.hasCode <;> simp [after, ofLines, code]
  exact congrArg₂ Layout.mk labels pending

theorem distinct_concat_iff :
    ((lines ++ [line]).filterMap declared?).Nodup ↔
      (lines.filterMap declared?).Nodup ∧
        ∀ name, line.declared? = some name → (ofLines lines).labels.contains name = false := by
  have bound (name : Text) : (ofLines lines).labels.contains name = false ↔
      name ∉ lines.filterMap declared? := by
    rw [LabelTable.contains_eq_false_iff, names_ofLines, List.mem_reverse]
  rw [List.filterMap_append, List.nodup_append_comm]
  cases declares : line.declared? with
  | none => simp [declares]
  | some name =>
    simp only [List.filterMap_cons, declares, List.filterMap_nil, List.singleton_append,
      List.nodup_cons, bound, Option.some.injEq, forall_eq', and_comm]

theorem fits_concat_iff :
    (lines ++ [line]).countP hasCode ≤ maxProgramSize ↔
      lines.countP hasCode ≤ maxProgramSize ∧
        (line.hasCode = true → (ofLines lines).pending.length ≠ maxProgramSize) := by
  rw [List.countP_append, List.countP_singleton, length_pending_ofLines]
  by_cases code : line.hasCode = true
  · simp only [code, if_true, true_implies]
    omega
  · simp [code]

theorem accepts_concat_iff :
    Accepts (lines ++ [line]) ↔ Accepts lines ∧ (ofLines lines).Admits line := by
  constructor
  · intro h
    obtain ⟨names, named⟩ := List.forall_mem_append.mp h.names
    obtain ⟨distinct, new⟩ := distinct_concat_iff.mp h.distinct
    obtain ⟨mnemonics, known⟩ := List.forall_mem_append.mp h.mnemonics
    obtain ⟨fits, room⟩ := fits_concat_iff.mp h.fits
    refine ⟨⟨names, distinct, mnemonics, fits⟩, ?_, ?_⟩
    · intro name declares
      exact ⟨named line (List.mem_singleton_self line) name declares, new name declares⟩
    · intro code
      exact ⟨known line (List.mem_singleton_self line) code, room code⟩
  · rintro ⟨h, admits⟩
    have named : ∀ name, line.declared? = some name → Token.isLabelName name = true :=
      fun name declares => (admits.name name declares).1
    have new : ∀ name, line.declared? = some name →
        (ofLines lines).labels.contains name = false :=
      fun name declares => (admits.name name declares).2
    have known : line.hasCode = true → isMnemonic line.mnemonic = true :=
      fun code => (admits.code code).1
    have room : line.hasCode = true → (ofLines lines).pending.length ≠ maxProgramSize :=
      fun code => (admits.code code).2
    constructor
    · exact List.forall_mem_append.mpr ⟨h.names, List.forall_mem_singleton.mpr named⟩
    · exact distinct_concat_iff.mpr ⟨h.distinct, new⟩
    · exact List.forall_mem_append.mpr ⟨h.mnemonics, List.forall_mem_singleton.mpr known⟩
    · exact fits_concat_iff.mpr ⟨h.fits, room⟩

/-- **Lines are laid out exactly if nothing is wrong with any of them**, and the layout is
    what they say. -/
theorem addAll_succeeds_iff :
    addAll {} lines = .ok layout ↔ Accepts lines ∧ ofLines lines = layout := by
  induction lines using List.reverseRecOn generalizing layout with
  | nil =>
    have accepts : Accepts [] := ⟨by simp, by simp, by simp, by simp⟩
    simp [addAll, accepts, ofLines, LabelTable.ofLines, declarations]
  | append_singleton lines line ih =>
    simp only [addAll_append, bind_succeeds_iff, addAll_singleton, add_succeeds_iff, ih,
      accepts_concat_iff]
    constructor
    · rintro ⟨l, ⟨accepts, rfl⟩, admits, rfl⟩
      exact ⟨⟨accepts, admits⟩, (after_ofLines admits).symm⟩
    · rintro ⟨⟨accepts, admits⟩, rfl⟩
      exact ⟨_, ⟨accepts, rfl⟩, admits, after_ofLines admits⟩

theorem program_succeeds_iff :
    layout.program = .ok program ↔
      layout.pending.reverse.mapM (·.resolve layout.labels) = .ok program.instructions ∧
        layout.labels = program.labels ∧
        layout.pending.reverse.map (·.line) = program.lines := by
  obtain ⟨instructions, labels, numbers⟩ := program
  simp only [program]
  cases layout.pending.reverse.mapM (·.resolve layout.labels) <;> simp

end Layout

theorem Pending.resolve_succeeds_iff {labels : LabelTable} {p : Pending}
    {instruction : Instruction} :
    p.resolve labels = .ok instruction ↔
      Instruction.parse labels p.mnemonic p.tokens = .ok instruction := by
  simp only [resolve]
  cases Instruction.parse labels p.mnemonic p.tokens <;> simp

/-- Lines are assembled exactly if they can be laid out and each line of code is an
    instruction. -/
theorem assemble_succeeds_iff :
    assemble lines = .ok program ↔
      Accepts lines ∧
        List.Forall₂
          (fun line instruction =>
            Instruction.parse (.ofLines lines) line.mnemonic line.operands = .ok instruction)
          (lines.filter hasCode) program.instructions ∧
        LabelTable.ofLines lines = program.labels ∧
        (lines.filter hasCode).map (·.number) = program.lines := by
  have laid : Layout.program (.ofLines lines) = .ok program ↔
      List.Forall₂
          (fun line instruction =>
            Instruction.parse (.ofLines lines) line.mnemonic line.operands = .ok instruction)
          (lines.filter hasCode) program.instructions ∧
        LabelTable.ofLines lines = program.labels ∧
        (lines.filter hasCode).map (·.number) = program.lines := by
    simp only [Layout.program_succeeds_iff, mapM_succeeds_iff, Pending.resolve_succeeds_iff,
      Layout.ofLines, List.reverse_reverse, List.forall₂_map_left_iff, List.map_map]
    rfl
  simp only [assemble, bind_succeeds_iff, Layout.addAll_succeeds_iff]
  constructor
  · rintro ⟨layout, ⟨accepts, rfl⟩, programs⟩
    exact ⟨accepts, laid.mp programs⟩
  · rintro ⟨accepts, programs⟩
    exact ⟨_, ⟨accepts, rfl⟩, laid.mpr programs⟩

end Stepwise

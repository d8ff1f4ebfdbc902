/-
  Stepwise/Proofs/Assembly/Joining.lean
  =====================================
  **Two sources in one decode to two programs in one.**

  A source can be put behind another one, with a line feed between them.  Nothing of the
  first one reaches into the second: the last line of the first one ends at the line feed,
  macros of other names are passed over (`feedAll_behind`), and so are labels of other names.
  What changes is where things stand.  The lines of the second source have higher numbers,
  its instructions have higher indices, and its labels and jumps are moved up with them
  (`assemble_append`, `decode_joined`).
-/
import Stepwise.Proofs.Assembly.Macros
import Stepwise.Proofs.Assembly.Sugar

namespace Stepwise

open SourceLine Expansion

variable {source source' : Text} {lines lines' : List SourceLine} {program program' : Program}
  {labels labels' : LabelTable} {name mnemonic : Text} {tokens : List Text}
  {instruction : Instruction} {form : Form} {n : Nat}

/-! ### Lines -/

theorem SourceLine.ofSource_eq (source : Text) :
    ofSource source =
      ((source.lines.map normalize).zipIdx 1).map fun entry => ⟨entry.2, entry.1⟩ := by
  rw [ofSource, List.zipIdx_map, List.map_map]
  rfl

theorem SourceLine.ofSource_append_feed (source source' : Text) :
    ofSource (source ++ '\n' :: source') =
      ofSource (source ++ ['\n']) ++ (ofSource source').map (·.later (source.count '\n' + 1)) := by
  have renumbered (texts : List Text) (k : Nat) :
      texts.zipIdx (1 + k) = (texts.zipIdx 1).map fun entry => (entry.1, k + entry.2) := by
    rw [List.zipIdx_eq_map_add, List.zipIdx_eq_map_add (i := 1), List.map_map]
    refine List.map_congr_left fun entry _ => ?_
    simp only [Function.comp_apply]
    congr 1
    omega
  rw [ofSource, Text.lines_append_feed, List.zipIdx_append, Text.length_lines_feed, renumbered,
    List.map_append, List.map_map, ofSource, ofSource, List.map_map]
  rfl

/-- A line feed at the end of a source adds a blank line, or none. -/
theorem SourceLine.ofSource_feed (source : Text) :
    ∃ blank, (∀ line ∈ blank, line.text = []) ∧
      ofSource (source ++ ['\n']) = ofSource source ++ blank := by
  obtain ⟨blank, empty, same⟩ := Text.normalize_linesFrom_feed [] source
  refine ⟨(blank.zipIdx (1 + (source.lines.map normalize).length)).map
    fun entry => ⟨entry.2, entry.1⟩, ?_, ?_⟩
  · intro line hl
    obtain ⟨entry, he, rfl⟩ := List.mem_map.mp hl
    exact empty _ (List.fst_mem_of_mem_zipIdx he)
  · rw [ofSource_eq, Text.lines, same, List.zipIdx_append, List.map_append, ofSource_eq]
    rfl

/-! ### Macros -/

theorem expand_joined (first : expand source = .ok lines) (second : expand source' = .ok lines')
    (apart : ∀ m ∈ macros source, ∀ m' ∈ macros source', m.name ≠ m'.name) :
    expand (source ++ '\n' :: source') =
      .ok (lines ++ lines'.map (·.later (source.count '\n' + 1))) := by
  have fed := expand_succeeds_iff.mp first
  have fed' := expand_succeeds_iff.mp second
  have others : ∀ name ∈ (State.mk (macros source') none).names,
      name ∉ (macros source).map (·.name) := by
    intro name later earlier
    obtain ⟨m, hm, rfl⟩ := List.mem_map.mp earlier
    obtain ⟨m', hm', same⟩ : ∃ m' ∈ macros source', m'.name = m.name := by
      simpa [State.names] using later
    exact apart m hm m' hm' same.symm
  have behind := feedAll_behind fed' others (source.count '\n' + 1)
  have start : State.behind (macros source) (source.count '\n' + 1) {} = ⟨macros source, none⟩ := by
    simp [State.behind]
  rw [start] at behind
  obtain ⟨blank, empty, same⟩ := ofSource_feed source
  have front :
      State.feedAll {} (ofSource (source ++ ['\n'])) = .ok (⟨macros source, none⟩, lines) := by
    have nothing : State.feedAll ⟨macros source, none⟩ blank = .ok (⟨macros source, none⟩, []) := by
      simpa [State.feedAll] using State.feedAll_of_blank rfl empty []
    rw [same]
    exact feedAll_append_succeeds_iff.mpr ⟨_, _, _, fed, nothing, (List.append_nil lines).symm⟩
  rw [expand, ofSource_append_feed, feedAll_append_succeeds_iff.mpr ⟨_, _, _, front, behind, rfl⟩]
  rfl

/-! ### Jumps -/

/-- The instruction with its jump target, if it has one, moved. -/
def Instruction.retarget (f : Nat → Nat) : Instruction → Instruction
  | .jmp target => .jmp (f target)
  | .branch on target => .branch on (f target)
  | .branchReg on source target => .branchReg on source (f target)
  | i => i

theorem Instruction.retarget_id (i : Instruction) : i.retarget id = i := by
  cases i <;> rfl

/-- Every name is bound where it was, moved. -/
def LabelTable.Moves (labels labels' : LabelTable) (f : Nat → Nat) : Prop :=
  ∀ name i, labels.find? name = some i → labels'.find? name = some (f i)

theorem Token.label_of_moves {f : Nat → Nat} {token : Text} {i : Nat}
    (moves : labels.Moves labels' f) (h : Token.label labels mnemonic token = .ok i) :
    Token.label labels' mnemonic token = .ok (f i) := by
  obtain ⟨name, refers, bound⟩ := Token.label_succeeds_iff.mp h
  exact Token.label_succeeds_iff.mpr ⟨name, refers, moves name i bound⟩

theorem Form.Reads.retarget {f : Nat → Nat} (moves : labels.Moves labels' f)
    (h : form.Reads labels tokens instruction) :
    form.Reads labels' tokens (instruction.retarget f) := by
  cases h with
  | push reads => exact .push reads
  | pop => exact .pop
  | popInto names => exact .popInto names
  | arith op => exact .arith op
  | arithReg op names reads => exact .arithReg op names reads
  | mov names reads => exact .mov names reads
  | jmp refers => exact .jmp (Token.label_of_moves moves refers)
  | branch on refers => exact .branch on (Token.label_of_moves moves refers)
  | branchReg on names refers => exact .branchReg on names (Token.label_of_moves moves refers)
  | halt => exact .halt
  | read => exact .read
  | readInto names => exact .readInto names
  | write => exact .write
  | writeValue reads => exact .writeValue reads

theorem Instruction.parse_retarget {f : Nat → Nat} (moves : labels.Moves labels' f)
    (h : parse labels mnemonic tokens = .ok instruction) :
    parse labels' mnemonic tokens = .ok (instruction.retarget f) := by
  obtain ⟨form, selected, reads⟩ := parse_cases h
  have moved := (Form.reads_of_readOperands reads).retarget moves
  simp only [parse, selected]
  exact moved.readOperands

/-! ### Labels -/

/-- The table with the entries of another one that is bound behind it, each moved up. -/
def LabelTable.followedBy (labels : LabelTable) (n : Nat) (labels' : LabelTable) : LabelTable :=
  ⟨(labels'.entries.map fun e => (e.1, n + e.2)) ++ labels.entries⟩

theorem LabelTable.find?_followedBy (name : Text) :
    (labels.followedBy n labels').find? name =
      ((labels'.find? name).map (n + ·)).or (labels.find? name) := by
  simp only [find?, followedBy, List.find?_append, List.find?_map, Option.map_or, Option.map_map]
  rfl

theorem LabelTable.contains_of_find? {i : Nat} (bound : labels.find? name = some i) :
    labels.contains name = true := by
  rw [contains, bound]
  rfl

theorem LabelTable.find?_of_not_contains (unbound : labels.contains name = false) :
    labels.find? name = none := by
  rwa [contains, Option.isSome_eq_false_iff, Option.isNone_iff_eq_none] at unbound

@[simp] theorem LabelTable.size_followedBy :
    (labels.followedBy n labels').size = labels.size + labels'.size := by
  simp [size, followedBy, Nat.add_comm]

theorem declarations_eq_map (n : Nat) (lines : List SourceLine) :
    declarations n lines = (declarations 0 lines).map fun e => (e.1, n + e.2) := by
  induction lines generalizing n with
  | nil => rfl
  | cons line lines ih =>
    rw [declarations, declarations, ih (n + _), ih (0 + _), List.map_append, List.map_map]
    congr 1
    · cases line.declared? <;> rfl
    · refine List.map_congr_left fun e _ => ?_
      simp only [Function.comp_apply, Nat.zero_add, Nat.add_assoc]

theorem LabelTable.ofLines_append (lines lines' : List SourceLine) :
    LabelTable.ofLines (lines ++ lines') =
      (LabelTable.ofLines lines).followedBy (lines.countP hasCode) (.ofLines lines') := by
  rw [ofLines, declarations_append, List.reverse_append, Nat.zero_add, declarations_eq_map]
  simp [ofLines, followedBy]

/-- Lines whose names do not meet are accepted together, if there is room for them. -/
theorem Accepts.append (h : Accepts lines) (h' : Accepts lines')
    (apart : ∀ name ∈ lines.filterMap declared?, name ∉ lines'.filterMap declared?)
    (fits : lines.countP hasCode + lines'.countP hasCode ≤ maxProgramSize) :
    Accepts (lines ++ lines') := by
  constructor
  · exact List.forall_mem_append.mpr ⟨h.names, h'.names⟩
  · rw [List.filterMap_append, List.nodup_append]
    refine ⟨h.distinct, h'.distinct, ?_⟩
    rintro name hn other ho rfl
    exact apart name hn ho
  · exact List.forall_mem_append.mpr ⟨h.mnemonics, h'.mnemonics⟩
  · rwa [List.countP_append]

/-! ### Programs -/

theorem size_eq_of_assemble (h : assemble lines = .ok program) :
    program.size = lines.countP hasCode := by
  rw [(follows_of_assemble h).size, List.countP_eq_length_filter]

theorem contains_of_declared (h : assemble lines = .ok program)
    (declared : name ∈ lines.filterMap declared?) : program.labels.contains name = true := by
  obtain ⟨-, -, table, -⟩ := assemble_succeeds_iff.mp h
  rw [← Bool.not_eq_false, LabelTable.contains_eq_false_iff, not_not, ← table]
  exact Layout.names_ofLines lines ▸ List.mem_reverse.mpr declared

/-- **Lines behind other lines assemble to a program behind another one**, as long as their
    labels have other names and the instructions are not too many. -/
theorem assemble_append (first : assemble lines = .ok program)
    (second : assemble lines' = .ok program')
    (apart : ∀ name, program.labels.contains name = true → program'.labels.contains name = false)
    (fits : program.size + program'.size ≤ maxProgramSize) :
    assemble (lines ++ lines') =
      .ok { instructions :=
              program.instructions ++ program'.instructions.map (·.retarget (program.size + ·))
            labels := program.labels.followedBy program.size program'.labels
            lines := program.lines ++ program'.lines } := by
  obtain ⟨accepts, parses, table, numbers⟩ := assemble_succeeds_iff.mp first
  obtain ⟨accepts', parses', table', numbers'⟩ := assemble_succeeds_iff.mp second
  have size := size_eq_of_assemble first
  have labels : LabelTable.ofLines (lines ++ lines') =
      program.labels.followedBy program.size program'.labels := by
    rw [LabelTable.ofLines_append, table, table', size]
  have others : ∀ name ∈ lines.filterMap declared?, name ∉ lines'.filterMap declared? := by
    intro name hn hn'
    have bound := contains_of_declared second hn'
    rw [apart name (contains_of_declared first hn)] at bound
    cases bound
  have moves :
      program.labels.Moves (program.labels.followedBy program.size program'.labels) id := by
    intro name i bound
    have unbound := apart name (LabelTable.contains_of_find? bound)
    rw [LabelTable.find?_followedBy, LabelTable.find?_of_not_contains unbound, bound]
    rfl
  have moves' : program'.labels.Moves (program.labels.followedBy program.size program'.labels)
      (program.size + ·) := by
    intro name i bound
    rw [LabelTable.find?_followedBy, bound]
    rfl
  refine assemble_succeeds_iff.mpr ⟨?_, ?_, labels, ?_⟩
  · refine accepts.append accepts' others ?_
    rwa [← size, ← size_eq_of_assemble second]
  · rw [List.filter_append, labels]
    refine List.rel_append (parses.imp ?_) ?_
    · intro line instruction parse
      rw [table] at parse
      have kept := Instruction.parse_retarget moves parse
      rwa [Instruction.retarget_id] at kept
    · refine List.forall₂_map_right_iff.mpr (parses'.imp ?_)
      intro line instruction parse
      rw [table'] at parse
      exact Instruction.parse_retarget moves' parse
  · rw [List.filter_append, List.map_append, numbers, numbers']

/-- **Decoding is compositional.**  Two sources that both decode define macros of different
    names, declare labels of different names, and have together no more instructions than a
    program may have.  Then the second one behind the first one, with a line feed between
    them, decodes as well: to the instructions of the first one, and behind them those of the
    second one with their jumps moved up by the number of the first ones; to the labels of
    both, moved in the same way; and to the line numbers of both, those of the second one
    moved up by the lines of the first one. -/
theorem decode_joined (first : decode source = .ok program) (second : decode source' = .ok program')
    (named : ∀ m ∈ macros source, ∀ m' ∈ macros source', m.name ≠ m'.name)
    (apart : ∀ name, program.labels.contains name = true → program'.labels.contains name = false)
    (fits : program.size + program'.size ≤ maxProgramSize) :
    ∃ joined, decode (source ++ '\n' :: source') = .ok joined ∧
      joined.instructions =
        program.instructions ++ program'.instructions.map (·.retarget (program.size + ·)) ∧
      (∀ name, joined.labels.find? name =
        (program.labels.find? name).or ((program'.labels.find? name).map (program.size + ·))) ∧
      joined.labels.size = program.labels.size + program'.labels.size ∧
      joined.lines =
        program.lines ++ program'.lines.map (source.count '\n' + 1 + ·) := by
  simp only [decode, bind_succeeds_iff] at first second
  obtain ⟨lines, expands, assembles⟩ := first
  obtain ⟨lines', expands', assembles'⟩ := second
  let k := source.count '\n' + 1
  have texts : lines'.map (·.text) = (lines'.map (·.later k)).map (·.text) := by
    rw [List.map_map]
    rfl
  have renumbered := assemble_of_texts texts assembles'
  have numbers : ((lines'.map (·.later k)).filter hasCode).map (·.number) =
      program'.lines.map (k + ·) := by
    obtain ⟨-, -, -, same⟩ := assemble_succeeds_iff.mp assembles'
    rw [← same, List.filter_map, List.map_map, List.map_map]
    rfl
  rw [numbers] at renumbered
  have expanded : decode (source ++ '\n' :: source') =
      assemble (lines ++ lines'.map (·.later k)) := by
    rw [decode, expand_joined expands expands' named]
    rfl
  have assembled := assemble_append assembles renumbered apart fits
  refine ⟨_, expanded.trans assembled, rfl, ?_, LabelTable.size_followedBy, rfl⟩
  intro name
  rw [LabelTable.find?_followedBy]
  -- no name is bound in both tables
  cases bound : program.labels.find? name with
  | none => exact Option.or_none
  | some i =>
    have unbound := apart name (LabelTable.contains_of_find? bound)
    rw [LabelTable.find?_of_not_contains unbound]
    rfl

/-- Both sources define a macro and use it, the first one twice; the first one ends in a line
    feed of its own, and both jump behind their last instruction. -/
theorem decode_joined_macros_in_both :
    let source := "#define m\nx: jl a, \x7b\x7dx\n#enddefine\nm!\r\nm!\njmp end\nend:\n".toList
    let source' :=
      "#define n\n\x7b\x7dx: pop\njmp \x7b\x7dx\n#enddefine\nback: n!\njg out\nout:".toList
    ∃ joined, decode (source ++ '\n' :: source') = .ok joined ∧
      joined.instructions =
        [.branchReg .negative ⟨0⟩ 0, .branchReg .negative ⟨0⟩ 1, .jmp 3,
          .pop, .jmp 3, .branch .positive 6] ∧
      joined.labels.find? "m-1#x".toList = some 1 ∧ joined.labels.find? "end".toList = some 3 ∧
      joined.labels.find? "n-0#x".toList = some 3 ∧ joined.labels.find? "out".toList = some 6 ∧
      joined.lines = [4, 5, 6, 13, 13, 14] := by
  intro source source'
  let program : Program :=
    { instructions := [.branchReg .negative ⟨0⟩ 0, .branchReg .negative ⟨0⟩ 1, .jmp 3]
      labels := ⟨[("end".toList, 3), ("m-1#x".toList, 1), ("m-0#x".toList, 0)]⟩
      lines := [4, 5, 6] }
  let program' : Program :=
    { instructions := [.pop, .jmp 0, .branch .positive 3]
      labels := ⟨[("out".toList, 3), ("n-0#x".toList, 0), ("back".toList, 0)]⟩
      lines := [5, 5, 6] }
  have first : decode source = .ok program := by rfl
  have second : decode source' = .ok program' := by rfl
  have named : ∀ m ∈ macros source, ∀ m' ∈ macros source', m.name ≠ m'.name := by decide +kernel
  have apart : ∀ name, program.labels.contains name = true →
      program'.labels.contains name = false := by
    have all : ∀ name ∈ program.labels.entries.map (·.1),
        program'.labels.contains name = false := by
      decide +kernel
    intro name bound
    refine all name ?_
    by_contra unbound
    rw [LabelTable.contains_eq_false_iff.mpr unbound] at bound
    cases bound
  obtain ⟨joined, decodes, instructions, labels, -, lines⟩ :=
    decode_joined first second named apart (by decide)
  refine ⟨joined, decodes, instructions, ?_, ?_, ?_, ?_, lines⟩
  all_goals
    rw [labels]
    rfl

end Stepwise

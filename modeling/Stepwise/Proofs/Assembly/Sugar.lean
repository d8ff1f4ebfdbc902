/-
  Stepwise/Proofs/Assembly/Sugar.lean
  ===================================
  **Macros are sugar: what the expander shows is a source for the same program.**

  The lines that expansion leaves can be written down as a source of their own.  They are in
  normal form, so reading them changes none of them; and if the source decodes, none of them
  holds an exclamation mark, since no mnemonic, no operand and no reference ends in one
  (`not_call_of_assemble`).  So nothing in them is a directive or an invocation, and they
  come out as they are.  Line numbers aside they are the same lines, and assemble to the same
  instructions and labels (`assemble_of_texts`, `decode_expanded`).
-/
import Stepwise.Proofs.Assembly.Shape
import Stepwise.Proofs.Assembly.Shown

namespace Stepwise

open SourceLine Expansion

variable {lines lines' : List SourceLine} {line : SourceLine} {program : Program}
  {labels : LabelTable} {form : Form} {tokens : List Text} {token name mnemonic t : Text}
  {instruction : Instruction} {source : Text} {n : Nat}

/-! ### Line numbers -/

/-- The line without its number. -/
def SourceLine.unnumbered (line : SourceLine) : SourceLine := { line with number := 0 }

theorem unnumbered_of_texts (same : lines.map (·.text) = lines'.map (·.text)) :
    lines.map unnumbered = lines'.map unnumbered := by
  have texts (lines : List SourceLine) :
      lines.map unnumbered = (lines.map (·.text)).map fun text => ⟨0, text⟩ := by
    rw [List.map_map]
    rfl
  rw [texts, texts, same]

theorem accepts_unnumbered_iff : Accepts (lines.map unnumbered) ↔ Accepts lines := by
  have names : (∀ line ∈ lines.map unnumbered, ∀ name, line.declared? = some name →
      Token.isLabelName name = true) ↔
      ∀ line ∈ lines, ∀ name, line.declared? = some name → Token.isLabelName name = true :=
    List.forall_mem_map
  have mnemonics : (∀ line ∈ lines.map unnumbered, line.hasCode = true →
      isMnemonic line.mnemonic = true) ↔
      ∀ line ∈ lines, line.hasCode = true → isMnemonic line.mnemonic = true :=
    List.forall_mem_map
  have distinct : (lines.map unnumbered).filterMap declared? = lines.filterMap declared? :=
    List.filterMap_map
  have fits : (lines.map unnumbered).countP hasCode = lines.countP hasCode := List.countP_map
  constructor
  · intro h
    exact ⟨names.mp h.names, distinct ▸ h.distinct, mnemonics.mp h.mnemonics, fits ▸ h.fits⟩
  · intro h
    exact ⟨names.mpr h.names, distinct ▸ h.distinct, mnemonics.mpr h.mnemonics, fits ▸ h.fits⟩

theorem declarations_unnumbered (n : Nat) (lines : List SourceLine) :
    declarations n (lines.map unnumbered) = declarations n lines := by
  induction lines generalizing n with
  | nil => rfl
  | cons line lines ih =>
    rw [List.map_cons, declarations, declarations, ih]
    rfl

theorem ofLines_unnumbered (lines : List SourceLine) :
    LabelTable.ofLines (lines.map unnumbered) = LabelTable.ofLines lines := by
  rw [LabelTable.ofLines, declarations_unnumbered]
  rfl

/-- **Lines with the same texts assemble alike**, but for the line numbers. -/
theorem assemble_of_texts (same : lines.map (·.text) = lines'.map (·.text))
    (h : assemble lines = .ok program) :
    assemble lines' = .ok { program with lines := (lines'.filter hasCode).map (·.number) } := by
  have unnumbered := unnumbered_of_texts same
  have table : LabelTable.ofLines lines = LabelTable.ofLines lines' := by
    rw [← ofLines_unnumbered, unnumbered, ofLines_unnumbered]
  let Parses (line : SourceLine) (instruction : Instruction) : Prop :=
    Instruction.parse (.ofLines lines) line.mnemonic line.operands = .ok instruction
  -- what a line of code parses to does not depend on its number
  have codes (lines : List SourceLine) :
      List.Forall₂ Parses ((lines.map SourceLine.unnumbered).filter hasCode)
          program.instructions ↔
        List.Forall₂ Parses (lines.filter hasCode) program.instructions := by
    rw [List.filter_map, List.forall₂_map_left_iff]
    rfl
  obtain ⟨accepts, parses, labels, -⟩ := assemble_succeeds_iff.mp h
  refine assemble_succeeds_iff.mpr ⟨?_, ?_, table ▸ labels, rfl⟩
  · rw [← accepts_unnumbered_iff, ← unnumbered, accepts_unnumbered_iff]
    exact accepts
  · rw [← table]
    refine (codes lines').mp ?_
    rw [← unnumbered]
    exact (codes lines).mpr parses

/-! ### Exclamation marks -/

theorem digit_of_parse? {r : Register} {c : Char} (h : Register.parse? token = some r)
    (last : token.getLast? = some c) : c ∈ Register.letters ∨ c.isDigit = true := by
  unfold Register.parse? at h
  split at h
  · rename_i letter
    obtain rfl : letter = c := Option.some.inj last
    obtain ⟨i, hi, -⟩ := Option.bind_eq_some_iff.mp h
    refine .inl ?_
    by_contra other
    rw [List.idxOf?_eq_none_iff.mpr other] at hi
    cases hi
  · rename_i digits
    obtain ⟨n, hn, -⟩ := Option.bind_eq_some_iff.mp h
    exact .inr (Text.digit_of_getLast? hn last)
  · cases h

theorem digit_of_toNegatableInt? {v : Int} {c : Char} (h : Text.toNegatableInt? token = some v)
    (last : token.getLast? = some c) : c.isDigit = true := by
  unfold Text.toNegatableInt? at h
  split at h
  · obtain ⟨v, digits, -⟩ := Option.map_eq_some_iff.mp h
    obtain ⟨n, hn, -⟩ := Option.bind_eq_some_iff.mp digits
    exact Text.digit_of_getLast? hn last
  · obtain ⟨v, digits, -⟩ := Option.map_eq_some_iff.mp h
    obtain ⟨n, hn, -⟩ := Option.bind_eq_some_iff.mp digits
    exact (Text.digits_of_toNat? hn).2 c (List.mem_of_getLast? last)

theorem Form.Reads.last_cases (h : form.Reads labels tokens instruction)
    (last : tokens.getLast? = some token) :
    (∃ mnemonic r, Token.register mnemonic token = .ok r) ∨
      (∃ mnemonic o, Token.value mnemonic token = .ok o) ∨
      ∃ mnemonic i, Token.label labels mnemonic token = .ok i := by
  cases h with
  | pop | arith | halt | read | write => cases last
  | popInto names | readInto names =>
    cases last
    exact .inl ⟨_, _, names⟩
  | push reads | writeValue reads | arithReg _ _ reads | mov _ reads =>
    cases last
    exact .inr (.inl ⟨_, _, reads⟩)
  | jmp refers | branch _ refers | branchReg _ _ refers =>
    cases last
    exact .inr (.inr ⟨_, _, refers⟩)

theorem not_call_of_parse? {r : Register} (h : Register.parse? token = some r) :
    token.getLast? ≠ some '!' := by
  intro mark
  rcases digit_of_parse? h mark with letter | digit
  · exact absurd letter (by decide)
  · exact absurd digit (by decide)

theorem not_call_of_register {r : Register} (h : Token.register mnemonic token = .ok r) :
    token.getLast? ≠ some '!' := by
  simp only [Token.register] at h
  split at h
  · rename_i named
    exact not_call_of_parse? named
  · cases h

theorem not_call_of_value {o : Operand} (h : Token.value mnemonic token = .ok o) :
    token.getLast? ≠ some '!' := by
  simp only [Token.value] at h
  split at h
  · rename_i named
    exact not_call_of_parse? named
  · split at h
    · cases h
    · rename_i number
      intro mark
      exact absurd (digit_of_toNegatableInt? number mark) (by decide)

theorem not_call_of_isMnemonic (known : isMnemonic mnemonic = true) :
    mnemonic.getLast? ≠ some '!' := by
  obtain ⟨form, member, same⟩ := List.any_eq_true.mp known
  have all : ∀ form ∈ Form.all, form.mnemonic.getLast? ≠ some '!' := by decide +kernel
  rw [← beq_iff_eq.mp same]
  exact all form member

theorem not_call_of_reads (silent : ∀ name i, labels.find? name = some i → '!' ∉ name)
    (h : form.Reads labels tokens instruction) (last : tokens.getLast? = some token) :
    token.getLast? ≠ some '!' := by
  rcases h.last_cases last with ⟨_, _, names⟩ | ⟨_, _, value⟩ | ⟨_, i, label⟩
  · exact not_call_of_register names
  · exact not_call_of_value value
  · intro mark
    obtain ⟨name, refers, bound⟩ := Token.label_succeeds_iff.mp label
    cases refers with
    | bare => exact silent _ i bound (List.mem_of_getLast? mark)
    | quoted =>
      rw [List.getLast?_concat] at mark
      cases mark

theorem not_mem_declared (calls : CallsLast line.text) (declares : line.declared? = some name) :
    '!' ∉ name := by
  simp only [declared?] at declares
  split at declares
  · cases declares
  · rename_i first rest tokens
    split at declares
    · cases declares
      have part : first <:+: line.text := by
        have member : first ∈ Token.split line.text := tokens ▸ List.mem_cons_self
        exact (Text.of_mem_fields member).2.2
      have calls : CallsLast first := List.IsChain.infix calls part
      exact callsLast_iff.mp calls
    · cases declares

/-- The last token of a line belongs to its code, unless it is a declaration. -/
theorem getLast?_code (last : (Token.split line.text).getLast? = some token)
    (plain : Token.isDeclaration token = false) : line.code.getLast? = some token := by
  simp only [SourceLine.code]
  split
  · rename_i tokens
    rw [tokens] at last
    cases last
  · rename_i first rest tokens
    rw [tokens] at last
    split
    · rename_i declares
      cases rest with
      | nil =>
        obtain rfl : first = token := Option.some.inj last
        rw [plain] at declares
        cases declares
      | cons second rest => exact last
    · exact last

/-- **No line that is assembled is an invocation.** -/
theorem not_call_of_assemble (calls : ∀ line ∈ lines, CallsLast line.text)
    (h : assemble lines = .ok program) : ∀ line ∈ lines, '!' ∉ line.text := by
  intro line hl mark
  have follows := follows_of_assemble h
  obtain ⟨accepts, -⟩ := assemble_succeeds_iff.mp h
  have silent : ∀ name i, program.labels.find? name = some i → '!' ∉ name := by
    intro name i bound
    obtain ⟨front, declaring, back, split, declares, -⟩ := (follows.bound name i).mp bound
    refine not_mem_declared (calls declaring ?_) declares
    rw [split]
    exact List.mem_append_right _ List.mem_cons_self
  have separates : Token.isSeparator '!' = false := by decide
  obtain ⟨token, last, ends⟩ := Text.getLast?_fields ((calls line hl).getLast? mark) separates
  have plain : Token.isDeclaration token = false := by
    rw [Token.isDeclaration, Text.endsWith, ends]
    rfl
  have last : line.code.getLast? = some token := getLast?_code last plain
  have begun : line.code ≠ [] := List.ne_nil_of_mem (List.mem_of_getLast? last)
  obtain ⟨mnemonic, operands, code⟩ := List.exists_cons_of_ne_nil begun
  have hasCode : line.hasCode = true := by rw [hasCode, code]; rfl
  rw [code] at last
  -- the token is the mnemonic if it stands alone, and the last operand else
  by_cases alone : operands = []
  · rw [alone] at last
    obtain rfl : mnemonic = token := Option.some.inj last
    have known := accepts.mnemonics line hl hasCode
    rw [SourceLine.mnemonic, code] at known
    exact not_call_of_isMnemonic known ends
  · rw [List.getLast?_cons_of_ne_nil alone] at last
    obtain ⟨k, hk⟩ := List.getElem?_of_mem (List.mem_filter.mpr ⟨hl, hasCode⟩)
    obtain ⟨instruction, -, holds⟩ := exists_getElem?_of_forall₂ follows.instructions.flip hk
    have reads := holds.operands
    rw [SourceLine.operands, code] at reads
    exact not_call_of_reads silent reads last ends

/-! ### Sources -/

/-- **Macros are only sugar.**  The lines that expansion leaves, written down as a source,
    are left as they are by normalization, define no macro and invoke none, and decode to
    the same instructions and labels. -/
theorem decode_expanded (decodes : decode source = .ok program) (reserves : Reserves source) :
    ∃ lines, expand source = .ok lines ∧
      let expanded := Text.join ['\n'] (lines.map (·.text))
      (ofSource expanded).map (·.text) = lines.map (·.text) ∧
        (∀ line ∈ ofSource expanded, Plain line.text) ∧
        State.feedAll {} (ofSource expanded) = .ok ({}, ofSource expanded) ∧
        expand expanded = .ok (ofSource expanded) ∧
        ∃ program', decode expanded = .ok program' ∧
          program'.instructions = program.instructions ∧ program'.labels = program.labels := by
  simp only [decode, bind_succeeds_iff] at decodes
  obtain ⟨lines, expands, assembles⟩ := decodes
  have shown : ∀ line ∈ lines, Shown line.text := reserves.shown_of_expand expands
  have silent : ∀ line ∈ lines, '!' ∉ line.text :=
    not_call_of_assemble (fun line hl => (shown line hl).calls) assembles
  refine ⟨lines, expands, ?_⟩
  intro expanded
  have texts : (ofSource expanded).map (·.text) = lines.map (·.text) := by
    refine texts_ofSource_join (List.forall_mem_map.mpr fun line hl => (shown line hl).normal) ?_
    exact List.forall_mem_map.mpr fun line hl => (shown line hl).begun
  have plain : ∀ line ∈ ofSource expanded, Plain line.text := by
    intro line hl
    have text : line.text ∈ lines.map (·.text) := texts ▸ List.mem_map_of_mem hl
    obtain ⟨original, member, same⟩ := List.mem_map.mp text
    rw [← same]
    have shown := shown original member
    exact plain_of_marks shown.begun shown.unmarked (silent original member)
  have passes : expand expanded = .ok (ofSource expanded) := expand_of_plain plain
  have assembled := assemble_of_texts texts.symm assembles
  let renumbered : Program :=
    { program with lines := ((ofSource expanded).filter hasCode).map (·.number) }
  refine ⟨texts, plain, feedAll_of_plain rfl plain, passes, renumbered, ?_, rfl, rfl⟩
  rw [decode, passes]
  exact assembled

/-- A macro that is used twice, once behind a label; in its body a label, a placeholder and a
    label that spells one. -/
theorem decode_expanded_labelled_uses :
    let source := "#define M//\nx: jl a, \x7b\x7dy\n\x7b\x7dy: pop\n#enddefine\nz: m!\nM!".toList
    let expanded :=
      "z:\nm-0#x: jl a, m-0#y\nm-0#y: pop\nm-1#x: jl a, m-1#y\nm-1#y: pop".toList
    Reserves source ∧
      ∃ program program', decode source = .ok program ∧ decode expanded = .ok program' ∧
        program'.instructions = program.instructions ∧ program'.labels = program.labels := by
  intro source expanded
  have names : ∀ line ∈ ofSource source, ∀ name ∈ headerName? line.text,
      ∀ c ∈ name, c.isAlphanum = true ∨ c = '_' := by
    decide +kernel
  have reserves : Reserves source := by
    refine ⟨fun line hl name header => names line hl name header, ?_, ?_⟩
    · decide +kernel
    · decide +kernel
  obtain ⟨program, decodes⟩ : ∃ program, decode source = .ok program := ⟨_, rfl⟩
  obtain ⟨lines, expands, -, -, -, -, program', again, same⟩ := decode_expanded decodes reserves
  have shown : (expand source).toOption.map (fun lines => Text.join ['\n'] (lines.map (·.text))) =
      some expanded := by
    decide +kernel
  have text : Text.join ['\n'] (lines.map (·.text)) = expanded := by
    rw [expands] at shown
    exact Option.some.inj shown
  rw [text] at again
  exact ⟨reserves, program, program', decodes, again, same⟩

end Stepwise

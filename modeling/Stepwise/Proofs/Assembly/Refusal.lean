/-
  Stepwise/Proofs/Assembly/Refusal.lean
  =====================================
  **Why a source is refused, pass by pass.**

  A source is refused at the first line that does not fit, and what is wrong with that line
  depends only on what the lines in front of it have left behind.  The expander has five
  things to say of a line (`Expansion.Refuses`, `expand_fails`), the layout has four
  (`Layout.Refuses`), and what is left are the operands of lines of code, once all lines are
  laid out (`Instruction.Refuses`, `assemble_fails`).
-/
import Stepwise.Proofs.Assembly.Expanding
import Stepwise.Proofs.Assembly.Layout

namespace Stepwise

/-! ### The expander -/

namespace Expansion

variable {s s' : State} {line : SourceLine} {lines shown : List SourceLine} {cause : DecodeCause}
  {e : DecodeError} {source : Text}

/-- What the expander has to say of a line that it refuses. -/
inductive Refuses : State → SourceLine → DecodeCause → Prop where
  | body {s : State} {line : SourceLine} (d : Definition) (flaw : MacroFlaw)
      (inside : s.inside = some d) (begun : line.text ≠ []) (open_ : line.text ≠ enddefineWord)
      (wrong : bodyFlaw? d.name line.text = some flaw) : Refuses s line (.invalidMacro flaw)
  | stray {s : State} {line : SourceLine} (outside : s.inside = none)
      (closing : line.text = enddefineWord) : Refuses s line .strayEnddefine
  | header {s : State} {line : SourceLine} (outside : s.inside = none)
      (starts : startsDefinition line.text = true) (nameless : headerName? line.text = none) :
      Refuses s line (.invalidMacro (.badHeader line.text))
  | again {s : State} {line : SourceLine} (name : Text) (m : Macro) (outside : s.inside = none)
      (starts : startsDefinition line.text = true) (header : headerName? line.text = some name)
      (known : s.find? name = some m) : Refuses s line (.macroRedefinition name)
  | unknown {s : State} {line : SourceLine} (label : Option Text) (name : Text)
      (outside : s.inside = none) (begun : line.text ≠ [])
      (calls : invocation? line.text = some (label, name)) (unknown : s.find? name = none) :
      Refuses s line (.undefinedMacro name)

theorem refuses_of_feedInside {d : Definition} (inside : s.inside = some d)
    (h : s.feedInside d line.text = .error cause) : Refuses s line cause := by
  simp only [State.feedInside] at h
  split at h
  · cases h
  · rename_i open_
    split at h
    · cases h
    · rename_i begun
      split at h
      · rename_i flaw wrong
        cases h
        exact .body d flaw inside (fun blank => begun (List.isEmpty_iff.mpr blank)) open_ wrong
      · cases h

theorem refuses_of_openDefinition (outside : s.inside = none)
    (starts : startsDefinition line.text = true) (h : s.openDefinition line = .error cause) :
    Refuses s line cause := by
  simp only [State.openDefinition] at h
  split at h
  · rename_i nameless
    cases h
    exact .header outside starts nameless
  · rename_i name header
    split at h
    · rename_i known
      cases h
      obtain ⟨m, known⟩ := Option.isSome_iff_exists.mp known
      exact .again name m outside starts header known
    · cases h

theorem refuses_of_feedOutside (outside : s.inside = none)
    (h : s.feedOutside line = .error cause) : Refuses s line cause := by
  simp only [State.feedOutside] at h
  split at h
  · cases h
  · rename_i begun
    split at h
    · rename_i closing
      cases h
      exact .stray outside closing
    · split at h
      · rename_i starts
        cases opened : s.openDefinition line with
        | error cause =>
          rw [opened] at h
          cases h
          exact refuses_of_openDefinition outside starts opened
        | ok next =>
          rw [opened] at h
          cases h
      · split at h
        · cases h
        · rename_i label name calls
          split at h
          · rename_i unknown
            cases h
            exact .unknown label name outside (fun blank => begun (List.isEmpty_iff.mpr blank))
              calls unknown
          · cases h

/-- A line is refused at its own number. -/
theorem refuses_of_feed (h : s.feed line = .error e) :
    e.line = line.number ∧ Refuses s line e.cause := by
  cases inside : s.inside with
  | none =>
    simp only [State.feed, inside] at h
    split at h
    · rename_i cause answer
      cases h
      exact ⟨rfl, refuses_of_feedOutside inside answer⟩
    · cases h
  | some d =>
    simp only [State.feed, inside] at h
    cases answer : s.feedInside d line.text with
    | error cause =>
      rw [answer] at h
      cases h
      exact ⟨rfl, refuses_of_feedInside inside answer⟩
    | ok next =>
      rw [answer] at h
      cases h

/-- **Reading stops at the first line that is refused.** -/
theorem feedAll_fails (h : s.feedAll lines = .error e) :
    ∃ front line back s' shown, lines = front ++ line :: back ∧
      s.feedAll front = .ok (s', shown) ∧ s'.feed line = .error e := by
  induction lines generalizing s with
  | nil => cases h
  | cons line lines ih =>
    simp only [State.feedAll, bind_fails_iff, Prod.exists] at h
    rcases h with here | ⟨s₁, first, fed, later | ⟨s₂, more, rest, done⟩⟩
    · exact ⟨[], line, lines, s, [], rfl, rfl, here⟩
    · obtain ⟨front, line', back, s', shown, rfl, read, fails⟩ := ih later
      exact ⟨line :: front, line', back, s', first ++ shown, rfl,
        feedAll_cons_succeeds_iff.mpr ⟨s₁, first, shown, fed, read, rfl⟩, fails⟩
    · cases done

/-- Lines are not expanded for one of them, or for a definition that is open behind the last. -/
theorem expand_fails (h : expand source = .error e) :
    (∃ front line back s shown, SourceLine.ofSource source = front ++ line :: back ∧
      State.feedAll {} front = .ok (s, shown) ∧ e.line = line.number ∧ Refuses s line e.cause) ∨
    ∃ s shown d, State.feedAll {} (SourceLine.ofSource source) = .ok (s, shown) ∧
      s.inside = some d ∧ e = ⟨d.opened, .unterminatedDefine d.name⟩ := by
  simp only [expand, bind_fails_iff, Prod.exists] at h
  rcases h with here | ⟨s, shown, read, open_ | ⟨_, closed, done⟩⟩
  · obtain ⟨front, line, back, s, shown, split, read, fails⟩ := feedAll_fails here
    exact .inl ⟨front, line, back, s, shown, split, read, refuses_of_feed fails⟩
  · simp only [State.close] at open_
    split at open_
    · rename_i d inside
      cases open_
      exact .inr ⟨s, shown, d, read, inside, rfl⟩
    · cases open_
  · cases done

end Expansion

/-! ### The layout -/

open SourceLine

variable {layout layout' : Layout} {line : SourceLine} {lines : List SourceLine}
  {cause : DecodeCause} {e : DecodeError} {labels : LabelTable} {mnemonic token : Text}
  {tokens : List Text} {source : Text}

namespace Layout

/-- What the first pass has to say of a line that it refuses. -/
inductive Refuses : Layout → SourceLine → DecodeCause → Prop where
  | unnamable {layout : Layout} {line : SourceLine} (token : Text)
      (first : (Token.split line.text).head? = some token)
      (declares : Token.isDeclaration token = true)
      (wrong : Token.isLabelName token.dropLast = false) :
      Refuses layout line (.invalidLabel token)
  | again {layout : Layout} {line : SourceLine} (name : Text)
      (declares : line.declared? = some name)
      (bound : layout.labels.contains name = true) : Refuses layout line (.duplicateLabel name)
  | unknown {layout : Layout} {line : SourceLine} (mnemonic : Text) (operands : List Text)
      (code : line.code = mnemonic :: operands) (unknown : isMnemonic mnemonic = false) :
      Refuses layout line (.unknownOpcode mnemonic)
  | full {layout : Layout} {line : SourceLine} (code : line.hasCode = true)
      (full : layout.pending.length = maxProgramSize) :
      Refuses layout line (.codeTooBig (maxProgramSize + 1))

/-- A label in front of a line adds nothing to the lines of code. -/
theorem pending_of_declareLabel (h : layout.declareLabel token = .ok layout') :
    layout'.pending = layout.pending := by
  obtain ⟨-, rfl⟩ := declareLabel_succeeds_iff.mp h
  rfl

theorem refuses_of_addInstruction {number : Nat} (same : layout'.pending = layout.pending)
    (h : layout'.addInstruction number line.code = .error cause) : Refuses layout line cause := by
  cases code : line.code with
  | nil =>
    rw [code] at h
    cases h
  | cons mnemonic operands =>
    rw [code] at h
    by_cases known : isMnemonic mnemonic = true
    · by_cases full : layout'.pending.length = maxProgramSize
      · simp only [addInstruction, known, full, if_true] at h
        cases h
        exact .full (by rw [hasCode, code]; rfl) (same ▸ full)
      · simp [addInstruction, known, full] at h
    · simp only [addInstruction, known] at h
      cases h
      exact .unknown mnemonic operands code (by simpa using known)

theorem refuses_of_declareLabel (first : (Token.split line.text).head? = some token)
    (declares : Token.isDeclaration token = true)
    (h : layout.declareLabel token = .error cause) : Refuses layout line cause := by
  have declared : line.declared? = some token.dropLast := by
    obtain ⟨rest, tokens⟩ := List.head?_eq_some_iff.mp first
    simp [declared?, tokens, declares]
  by_cases named : Token.isLabelName token.dropLast = true
  · cases bound : layout.labels.contains token.dropLast with
    | true =>
      simp only [declareLabel, Token.declaredName, named, bound, if_true] at h
      cases h
      exact .again token.dropLast declared bound
    | false => simp [declareLabel, Token.declaredName, named, bound] at h
  · simp only [declareLabel, Token.declaredName, named] at h
    cases h
    exact .unnamable token first declares (by simpa using named)

theorem refuses_of_add (h : layout.add line = .error e) :
    e.line = line.number ∧ Refuses layout line e.cause := by
  simp only [add] at h
  split at h
  swap
  · cases h
  · rename_i cause fails
    cases h
    refine ⟨rfl, ?_⟩
    -- by what the line's tokens begin with, as its code is defined
    rcases tokens : Token.split line.text with _ | ⟨first, rest⟩
    · rw [tokens] at fails
      cases fails
    · have head : (Token.split line.text).head? = some first := by rw [tokens]; rfl
      by_cases declares : Token.isDeclaration first = true
      · have code : line.code = rest := by simp [SourceLine.code, tokens, declares]
        simp only [tokens, addTokens, declares, if_true] at fails
        cases named : layout.declareLabel first with
        | error cause =>
          rw [named] at fails
          cases fails
          exact refuses_of_declareLabel head declares named
        | ok next =>
          rw [named] at fails
          exact refuses_of_addInstruction (pending_of_declareLabel named) (code ▸ fails)
      · have code : line.code = first :: rest := by simp [SourceLine.code, tokens, declares]
        simp only [tokens, addTokens, declares] at fails
        exact refuses_of_addInstruction rfl (code ▸ fails)

/-- **The first pass stops at the first line that it refuses**, with the lines in front of it laid
    out. -/
theorem addAll_fails (h : addAll {} lines = .error e) :
    ∃ front line back, lines = front ++ line :: back ∧ Accepts front ∧ e.line = line.number ∧
      Refuses (ofLines front) line e.cause := by
  induction lines using List.reverseRecOn with
  | nil => cases h
  | append_singleton lines line ih =>
    rw [addAll_append, bind_fails_iff] at h
    rcases h with earlier | ⟨layout, laid, here⟩
    · obtain ⟨front, line', back, rfl, known⟩ := ih earlier
      exact ⟨front, line', back ++ [line], by simp, known⟩
    · obtain ⟨accepts, rfl⟩ := addAll_succeeds_iff.mp laid
      rw [addAll_singleton] at here
      exact ⟨lines, line, [], rfl, accepts, refuses_of_add here⟩

end Layout

/-! ### Operands -/

/-- What there is to complain of about the token of an operand. -/
inductive Token.Refuses (mnemonic token : Text) : DecodeCause → Prop where
  | kind (expected : OperandKind) : Refuses mnemonic token (.invalidOperand mnemonic token expected)
  | range : Refuses mnemonic token (.immediateOutOfRange token)
  | label : Refuses mnemonic token (.undefinedLabel (Token.referredName token))

/-- What there is to complain of about the tokens of a line of code. -/
inductive Instruction.Refuses (mnemonic : Text) (tokens : List Text) : DecodeCause → Prop where
  | mnemonic : Refuses mnemonic tokens (.unknownOpcode mnemonic)
  | arity : Refuses mnemonic tokens
      (.arityMismatch mnemonic (Form.arities mnemonic) tokens.length)
  | operand (token : Text) (cause : DecodeCause) (here : token ∈ tokens)
      (wrong : Token.Refuses mnemonic token cause) : Refuses mnemonic tokens cause

namespace Token

theorem refuses_of_register (h : register mnemonic token = .error cause) :
    Refuses mnemonic token cause := by
  simp only [register] at h
  split at h
  · cases h
  · cases h
    exact .kind .register

theorem refuses_of_value (h : value mnemonic token = .error cause) :
    Refuses mnemonic token cause := by
  simp only [value] at h
  split at h
  · cases h
  · split at h
    · cases h
      exact .kind .value
    · split at h
      · cases h
      · cases h
        exact .range

theorem refuses_of_label (h : label labels mnemonic token = .error cause) :
    Refuses mnemonic token cause := by
  simp only [label] at h
  split at h
  · cases h
    exact .kind .label
  · split at h
    · cases h
    · cases h
      exact .label

end Token

theorem Form.refuses_of_readOperands {form : Form}
    (h : form.readOperands labels tokens = .error cause) :
    Instruction.Refuses form.mnemonic tokens cause := by
  have register (token : Text) (here : token ∈ tokens)
      (wrong : Token.register form.mnemonic token = .error cause) :
      Instruction.Refuses form.mnemonic tokens cause :=
    .operand token cause here (Token.refuses_of_register wrong)
  have value (token : Text) (here : token ∈ tokens)
      (wrong : Token.value form.mnemonic token = .error cause) :
      Instruction.Refuses form.mnemonic tokens cause :=
    .operand token cause here (Token.refuses_of_value wrong)
  have label (token : Text) (here : token ∈ tokens)
      (wrong : Token.label labels form.mnemonic token = .error cause) :
      Instruction.Refuses form.mnemonic tokens cause :=
    .operand token cause here (Token.refuses_of_label wrong)
  simp only [Form.readOperands] at h
  -- the cases are the forms that have operands, in their order, and last a wrong number of them
  split at h <;> (try simp only [bind_fails_iff, pure, Except.pure, reduceCtorEq, and_false,
    exists_false, or_false] at h)
  · exact value _ (by simp) h
  · exact register _ (by simp) h
  · rcases h with wrong | ⟨-, -, wrong⟩
    · exact register _ (by simp) wrong
    · exact value _ (by simp) wrong
  · rcases h with wrong | ⟨-, -, wrong⟩
    · exact register _ (by simp) wrong
    · exact value _ (by simp) wrong
  · exact label _ (by simp) h
  · exact label _ (by simp) h
  · rcases h with wrong | ⟨-, -, wrong⟩
    · exact register _ (by simp) wrong
    · exact label _ (by simp) wrong
  · exact register _ (by simp) h
  · exact value _ (by simp) h
  · cases h
    exact .arity

theorem Instruction.refuses_of_parse (h : Instruction.parse labels mnemonic tokens = .error cause) :
    Refuses mnemonic tokens cause := by
  simp only [parse] at h
  split at h
  · rename_i form selected
    obtain ⟨own, -⟩ := Form.mnemonic_of_select selected
    exact own ▸ Form.refuses_of_readOperands h
  · split at h
    · cases h
      exact .arity
    · cases h
      exact .mnemonic

/-! ### The source -/

/-- What there is to complain of in lines, if anything: a line that the first pass refuses, or the
    operands of a line of code. -/
theorem assemble_fails (h : assemble lines = .error e) :
    (∃ front line back, lines = front ++ line :: back ∧ Accepts front ∧ e.line = line.number ∧
      Layout.Refuses (.ofLines front) line e.cause) ∨
    Accepts lines ∧ ∃ line ∈ lines, line.hasCode = true ∧ e.line = line.number ∧
      Instruction.Refuses line.mnemonic line.operands e.cause := by
  rw [assemble, bind_fails_iff] at h
  rcases h with laying | ⟨layout, laid, operands⟩
  · exact .inl (Layout.addAll_fails laying)
  · obtain ⟨accepts, rfl⟩ := Layout.addAll_succeeds_iff.mp laid
    refine .inr ⟨accepts, ?_⟩
    simp only [Layout.program] at operands
    split at operands
    swap
    · cases operands
    · rename_i e' fails
      cases operands
      obtain ⟨p, hp, wrong⟩ := exists_of_mapM_fails fails
      simp only [Layout.ofLines, List.reverse_reverse, List.mem_map, List.mem_filter] at hp
      obtain ⟨line, ⟨hl, code⟩, rfl⟩ := hp
      simp only [Pending.resolve] at wrong
      split at wrong
      · rename_i cause wrong'
        cases wrong
        exact ⟨line, hl, code, rfl, Instruction.refuses_of_parse wrong'⟩
      · cases wrong

end Stepwise

/-
  Stepwise/Proofs/Assembly/Hygiene.lean
  =====================================
  **Uses of macros do not get into each other's labels.**

  In a tidy source names of macros and labels are words, and the body of a macro declares a
  label as the first word of a line.  Then every use of a macro declares the labels of its
  body behind a tag of its own, so no two uses declare the same label, and none declares a
  label that the source declares outside of macros.  In a source that decodes, a jump to a
  local label therefore goes to where the same use declares it (`Hygienic`,
  `hygienic_of_expand`).
-/
import Mathlib.Data.List.Lemmas
import Stepwise.Proofs.Assembly.LocalLabels

namespace Stepwise

namespace Expansion

open SourceLine

/-- Labels of uses of macros are told apart from all others. -/
def Part.isUse : Part → Bool
  | own _ => false
  | use _ => true

/-- Names are words, and macros declare labels in the first word of a line. -/
structure Tidy (source : Text) : Prop where
  names : ∀ m ∈ macros source, Word m.name
  labels : ∀ m ∈ macros source, ∀ t ∈ m.body, LabelsFirst t
  own : ∀ p ∈ parts source, p.isUse = false → ∀ x ∈ p.labels, Word x

/-- The mnemonics of jumps. -/
def jumpMnemonics : List Text := "jmp".toList :: Sign.all.map Sign.mnemonic

/-- The body line jumps to the local label of the given name. -/
structure JumpsTo (t x : Text) : Prop where
  mnemonic : SourceLine.mnemonic ⟨0, t⟩ ∈ jumpMnemonics
  target : ∃ token, (operands ⟨0, t⟩).getLast? = some token ∧
    Token.RefersTo token ('{' :: '}' :: x)

/-- How many lines of code there are in front of a body line, given the parts in front of the use
    and the lines of the body in front of the line. -/
def Use.codeBefore (u : Use) (front : List Part) (before : List Text) : Nat :=
  (front.flatMap Part.lines ++ before.map u.line).countP hasCode

/-- The uses of macros in a source keep their labels apart. -/
structure Hygienic (source : Text) (lines : List SourceLine) : Prop where
  shown : (parts source).flatMap Part.lines = lines
  /-- The uses of a macro are numbered from zero, -/
  numbered : ∀ name, ∃ count, (parts source).filterMap (Part.nth? name) = List.range count
  /-- and each shows the lines of the body, -/
  bodies : ∀ u, .use u ∈ parts source → ∃ m ∈ macros source, m.name = u.name ∧ m.body = u.body
  /-- with the tag of the use in front of the labels that they declare, -/
  labels : ∀ u, .use u ∈ parts source →
    (Part.use u).labels = (u.body.filterMap localLabel?).map (u.tag ++ ·)
  /-- and in the place of the placeholder. -/
  filled : ∀ u, .use u ∈ parts source → ∀ left right, left ++ '{' :: '}' :: right ∈ u.body →
    (u.line (left ++ '{' :: '}' :: right)).text =
      (if declaresPlainLabel (left ++ '{' :: '}' :: right) then u.tag else [])
        ++ left ++ u.tag ++ right
  /-- No use declares a label that is declared by another use or outside of macros. -/
  apart : (parts source).Pairwise fun p q =>
    p.isUse = true ∨ q.isUse = true → p.labels.Disjoint q.labels
  /-- A jump to a local label goes to where the same use declares it. -/
  jumps : ∀ program, decode source = .ok program →
    ∀ front u back, parts source = front ++ .use u :: back →
      ∀ x before t after before' t' after', u.body = before ++ t :: after → JumpsTo t x →
        u.body = before' ++ t' :: after' → localLabel? t' = some x →
          ∃ instruction, program.instructions[u.codeBefore front before]? = some instruction ∧
            instruction.jumpTarget? = some (u.codeBefore front before')

variable {source t x name token : Text} {n : Nat} {lines : List SourceLine} {m : Macro} {u u' : Use}
  {p q : Part} {instruction : Instruction}

/-! ### Bodies -/

theorem placeholders_le_of_bodyFlaw? (sound : bodyFlaw? name t = none) : placeholders t ≤ 1 := by
  unfold bodyFlaw? at sound
  by_contra many
  have many : 1 < placeholders t := by omega
  simp only [many, if_true] at sound
  split at sound
  · cases sound
  · split at sound
    · cases sound
    · cases sound

/-- Body lines are in normal form, and have one placeholder at most. -/
theorem normalForm_of_mem_body (expands : expand source = .ok lines) (hm : m ∈ macros source)
    (ht : t ∈ m.body) : Text.NormalForm t ∧ placeholders t ≤ 1 := by
  obtain ⟨front, header, inner, closing, back, split, encloses, -⟩ := definedIn_of_expand expands hm
  refine ⟨?_, placeholders_le_of_bodyFlaw? (encloses.sound t ht)⟩
  rw [encloses.kept, List.mem_filter, List.mem_map] at ht
  obtain ⟨⟨line, hl, rfl⟩, -⟩ := ht
  have known : line ∈ ofSource source := by
    rw [split]
    simp [hl]
  exact normalForm_of_mem known

/-- What is known of the body of a use in a tidy source. -/
structure Use.Sound (u : Use) : Prop where
  name : Word u.name
  first : ∀ t ∈ u.body, ∀ c, t.head? = some c → Text.isBlank c = false
  labels : ∀ t ∈ u.body, LabelsFirst t
  placeholders : ∀ t ∈ u.body, placeholders t ≤ 1

theorem Tidy.sound (tidy : Tidy source) (expands : expand source = .ok lines)
    (hu : .use u ∈ parts source) : u.Sound := by
  obtain ⟨m, hm, name, body⟩ := exists_macro_of_use expands hu
  have lines : ∀ t ∈ u.body, Text.NormalForm t ∧ placeholders t ≤ 1 :=
    fun t ht => normalForm_of_mem_body expands hm (body ▸ ht)
  exact ⟨name ▸ tidy.names m hm, fun t ht => (lines t ht).1.first, body ▸ tidy.labels m hm,
    fun t ht => (lines t ht).2⟩

/-! ### Labels -/

theorem Use.Sound.declared?_line (sound : u.Sound) (ht : t ∈ u.body) :
    (u.line t).declared? = (localLabel? t).map (u.tag ++ ·) :=
  declared?_shown sound.name (sound.first t ht) (sound.labels t ht) u.nth u.number

theorem Use.Sound.labels_eq (sound : u.Sound) :
    (Part.use u).labels = (u.body.filterMap localLabel?).map (u.tag ++ ·) := by
  rw [Part.labels, Part.lines, Use.lines, List.filterMap_map, List.map_filterMap]
  exact List.filterMap_congr fun t ht => sound.declared?_line ht

theorem Use.Sound.text_line (sound : u.Sound) {left right : Text}
    (ht : left ++ '{' :: '}' :: right ∈ u.body) :
    (u.line (left ++ '{' :: '}' :: right)).text =
      (if declaresPlainLabel (left ++ '{' :: '}' :: right) then u.tag else [])
        ++ left ++ u.tag ++ right := by
  have once := sound.placeholders _ ht
  rw [Expansion.placeholders, Text.countPair_append_pair (by decide)] at once
  have filled : fill u.tag (left ++ '{' :: '}' :: right) = left ++ u.tag ++ right := by
    rw [fill_append_placeholder, fill, Text.replacePair_of_countPair (by omega), fill,
      Text.replacePair_of_countPair (by omega)]
  have unbraced : '{' ∉ u.tag := not_mem_tag sound.name u.nth (by decide) (by decide)
  simp only [Use.line, instantiate]
  split
  · rw [fill_append_of_not_mem unbraced, filled]
    simp only [List.append_assoc]
  · rw [filled]
    rfl

theorem Use.Sound.tag_inj (sound : u.Sound) (sound' : u'.Sound) {x x' : Text}
    (same : u.tag ++ x = u'.tag ++ x') : u.name = u'.name ∧ u.nth = u'.nth := by
  obtain ⟨name, nth, -⟩ := tag_append_inj sound.name sound'.name same
  exact ⟨name, nth⟩

/-- Of two uses of one macro, the later one has the higher number. -/
theorem nth_lt_of_sublist (expands : expand source = .ok lines)
    (both : List.Sublist [.use u, .use u'] (parts source)) (same : u.name = u'.name) :
    u.nth < u'.nth := by
  obtain ⟨count, numbered⟩ := numbered_of_expand expands u.name
  have numbers := both.filterMap (Part.nth? u.name)
  rw [numbered] at numbers
  have increasing := (List.pairwise_lt_range (n := count)).sublist numbers
  simpa [List.filterMap_cons, Part.nth?, same] using increasing

theorem Tidy.disjoint (tidy : Tidy source) (expands : expand source = .ok lines)
    (both : List.Sublist [p, q] (parts source)) (used : p.isUse = true ∨ q.isUse = true) :
    p.labels.Disjoint q.labels := by
  have hp : p ∈ parts source := both.subset (by simp)
  have hq : q ∈ parts source := both.subset (by simp)
  -- words of the source are no labels of uses
  have alien {u : Use} {p : Part} (hu : .use u ∈ parts source) (hp : p ∈ parts source)
      (own : p.isUse = false) : (Part.use u).labels.Disjoint p.labels := by
    intro label declared here
    rw [(tidy.sound expands hu).labels_eq, List.mem_map] at declared
    obtain ⟨x, -, rfl⟩ := declared
    exact (tidy.own p hp own _ here).ne_tag_append rfl
  cases p with
  | own line =>
    cases q with
    | own line' => simp [Part.isUse] at used
    | use u' => exact List.disjoint_symm (alien hq hp rfl)
  | use u =>
    cases q with
    | own line' => exact alien hp hq rfl
    | use u' =>
      intro label first second
      have sound := tidy.sound expands hp
      have sound' := tidy.sound expands hq
      rw [sound.labels_eq, List.mem_map] at first
      rw [sound'.labels_eq, List.mem_map] at second
      obtain ⟨x, -, rfl⟩ := first
      obtain ⟨x', -, same⟩ := second
      obtain ⟨name, nth⟩ := sound.tag_inj sound' same.symm
      have later := nth_lt_of_sublist expands both name
      omega

/-! ### Jumps -/

theorem exists_target_of_mnemonic (h : instruction.mnemonic ∈ jumpMnemonics) :
    ∃ target, instruction.jumpTarget? = some target := by
  have all : ∀ f ∈ Form.all, f.mnemonic ∈ jumpMnemonics → f.operands.getLast? = some .label := by
    decide
  have last := all instruction.form (Form.mem_all _) h
  cases instruction with
  | jmp target | branch on target | branchReg on source target => exact ⟨target, rfl⟩
  | read into => cases into <;> cases last
  | _ => cases last

theorem refersTo_fill (h : Word name) (local_ : Word x) (n : Nat)
    (refers : Token.RefersTo token ('{' :: '}' :: x)) :
    Token.RefersTo (fill (tag name n) token) (tag name n ++ x) := by
  have begun : tag name n ++ x ≠ [] := by simp [tag]
  have plain : '"' ∉ tag name n ++ x := by
    rw [List.mem_append, not_or]
    exact ⟨not_mem_tag h n (by decide) (by decide), local_.not_mem (by decide)⟩
  have filled (t : Text) :
      fill (tag name n) ('{' :: '}' :: t) = tag name n ++ fill (tag name n) t :=
    fill_append_placeholder (tag name n) [] t
  cases refers with
  | bare named unquoted =>
    rw [filled, fill_of_word local_]
    exact .bare begun plain
  | quoted named unquoted =>
    have whole : fill (tag name n) ('"' :: ('{' :: '}' :: x) ++ ['"']) =
        '"' :: (tag name n ++ x) ++ ['"'] := by
      have quote : fill (tag name n) (x ++ ['"']) = x ++ ['"'] := by
        rw [fill_append_of_not_mem (local_.not_mem (by decide))]
        rfl
      have first : fill (tag name n) ('"' :: ('{' :: '}' :: x) ++ ['"']) =
          '"' :: fill (tag name n) ('{' :: '}' :: (x ++ ['"'])) :=
        Text.replacePair_cons (by decide) _
      rw [first, filled, quote]
      simp
    rw [whole]
    exact .quoted begun plain

/-- Behind its declaration, a jump in the body is still the same jump when it is shown, and its
    target is where the use declares the label. -/
theorem Use.Sound.target {labels : LabelTable} (sound : u.Sound) (jumps : JumpsTo t x)
    (local_ : Word x)
    (code : (u.line t).code = (SourceLine.code ⟨0, t⟩).map (fill u.tag))
    (holds : (u.line t).Holds labels instruction) :
    ∃ target, instruction.jumpTarget? = some target ∧ labels.find? (u.tag ++ x) = some target := by
  have mnemonic : (u.line t).mnemonic = SourceLine.mnemonic ⟨0, t⟩ := by
    have unbraced : ∀ word ∈ jumpMnemonics, '{' ∉ word := by decide
    have same : fill u.tag (SourceLine.mnemonic ⟨0, t⟩) = SourceLine.mnemonic ⟨0, t⟩ :=
      Text.replacePair_of_not_mem (unbraced _ jumps.mnemonic)
    rw [← same, SourceLine.mnemonic, SourceLine.mnemonic, code]
    cases SourceLine.code ⟨0, t⟩ <;> rfl
  have jump : instruction.mnemonic ∈ jumpMnemonics := by
    rw [← holds.mnemonic, mnemonic]
    exact jumps.mnemonic
  obtain ⟨target, goes⟩ := exists_target_of_mnemonic jump
  obtain ⟨token, name, last, refers, bound⟩ := holds.operands.target goes
  obtain ⟨written, lastWritten, refersWritten⟩ := jumps.target
  have operands : (u.line t).operands = (SourceLine.operands ⟨0, t⟩).map (fill u.tag) := by
    rw [SourceLine.operands, SourceLine.operands, code, List.map_tail]
  have filled : token = fill u.tag written := by
    rw [operands, List.getLast?_map, lastWritten] at last
    exact (Option.some.inj last).symm
  have named : name = u.tag ++ x := by
    rw [← Token.referredName_eq refers, filled]
    exact Token.referredName_eq (refersTo_fill sound.name local_ u.nth refersWritten)
  exact ⟨target, goes, named ▸ bound⟩

theorem lines_eq_of_body {front back : List Part} {before after : List Text}
    (shown : (parts source).flatMap Part.lines = lines)
    (split : parts source = front ++ .use u :: back) (body : u.body = before ++ t :: after) :
    lines = (front.flatMap Part.lines ++ before.map u.line)
      ++ u.line t :: (after.map u.line ++ back.flatMap Part.lines) := by
  rw [← shown, split, List.flatMap_append, List.flatMap_cons, Part.lines, Use.lines, body]
  simp

theorem mnemonic_of_code {line : SourceLine} {mnemonic : Text} {operands : List Text}
    (accepts : Accepts lines) (hl : line ∈ lines) (code : line.code = mnemonic :: operands) :
    isMnemonic mnemonic = true := by
  have known := accepts.mnemonics line hl (by rw [hasCode, code]; rfl)
  rwa [SourceLine.mnemonic, code] at known

theorem hasCode_of_jumpsTo {line : SourceLine} {f : Text → Text} (jumps : JumpsTo t x)
    (code : line.code = (SourceLine.code ⟨0, t⟩).map f) : line.hasCode = true := by
  have mnemonic := jumps.mnemonic
  rw [SourceLine.mnemonic] at mnemonic
  rw [hasCode, code]
  cases written : SourceLine.code ⟨0, t⟩ with
  | nil =>
    rw [written] at mnemonic
    exact absurd mnemonic (by decide)
  | cons first more => rfl

theorem word_of_localLabel? (labels : LabelsFirst t) (declares : localLabel? t = some x) :
    Word x := by
  rw [localLabel?, Option.map_eq_some_iff] at declares
  obtain ⟨y, declares, rfl⟩ := declares
  exact (labels y declares).1

/-- A jump in the body of a use goes to where the use declares the label. -/
theorem Tidy.jumpTarget (tidy : Tidy source) (expands : expand source = .ok lines)
    {program : Program} (decodes : decode source = .ok program) {front back : List Part}
    (split : parts source = front ++ .use u :: back) {before after before' after' : List Text}
    {t' : Text} (body : u.body = before ++ t :: after) (jumps : JumpsTo t x)
    (body' : u.body = before' ++ t' :: after') (declares : localLabel? t' = some x) :
    ∃ instruction, program.instructions[u.codeBefore front before]? = some instruction ∧
      instruction.jumpTarget? = some (u.codeBefore front before') := by
  have shown := flatMap_parts_of_expand expands
  have hu : .use u ∈ parts source := by simp [split]
  have sound := tidy.sound expands hu
  have ht : t ∈ u.body := by simp [body]
  have ht' : t' ∈ u.body := by simp [body']
  have local_ : Word x := word_of_localLabel? (sound.labels t' ht') declares
  simp only [decode, expands, bind_succeeds_iff] at decodes
  obtain ⟨_, same, assembles⟩ := decodes
  cases same
  have follows := follows_of_assemble assembles
  obtain ⟨accepts, -⟩ := assemble_succeeds_iff.mp assembles
  have place := lines_eq_of_body shown split body
  have place' := lines_eq_of_body shown split body'
  have member : u.line t ∈ lines := by
    rw [place]
    simp
  -- the line jumps, and the line that it jumps to is found by the label that it declares
  have code := code_shown sound.name (sound.first t ht) (sound.labels t ht) u.nth u.number
    (fun mnemonic operands code => mnemonic_of_code accepts member code)
  have hasCode : (u.line t).hasCode = true := hasCode_of_jumpsTo jumps code
  obtain ⟨instruction, here, holds⟩ := exists_getElem?_of_forall₂ follows.instructions.flip
    (follows.own _ _ _ place hasCode)
  obtain ⟨target, goes, bound⟩ := sound.target jumps local_ code holds
  have declared : (u.line t').declared? = some (u.tag ++ x) := by
    rw [sound.declared?_line ht', declares]
    rfl
  have own := (follows.bound (u.tag ++ x) _).mpr ⟨_, _, _, place', declared, rfl⟩
  refine ⟨instruction, here, ?_⟩
  rw [goes, ← bound]
  exact own

/-- **Macros are hygienic.**  In a tidy source that is not refused the uses of macros keep their
    labels apart. -/
theorem hygienic_of_expand (tidy : Tidy source) (expands : expand source = .ok lines) :
    Hygienic source lines where
  shown := flatMap_parts_of_expand expands
  numbered := numbered_of_expand expands
  bodies := fun u hu => exists_macro_of_use expands hu
  labels := by
    intro u hu
    exact (tidy.sound expands hu).labels_eq
  filled := by
    intro u hu left right ht
    exact (tidy.sound expands hu).text_line ht
  apart := by
    rw [List.pairwise_iff_forall_sublist]
    intro p q both used
    exact tidy.disjoint expands both used
  jumps := by
    intro program decodes front u back split x before t after before' t' after' body jumps body'
      declares
    exact tidy.jumpTarget expands decodes split body jumps body' declares

/-- Two macros, of which the name of one is the beginning of the name of the other, are used
    twice each, and the source declares the label that both have as well.  Both ways of declaring
    a local label and of jumping to one occur. -/
theorem hygienic_of_expand_names_alike :
    let source :=
      ("#define m\nx: push 1\nje \x7b\x7dx\n#enddefine\n" ++
        "#define m1\njmp \"\x7b\x7dx\"\n\x7b\x7dx: pop\n#enddefine\n" ++
        "x: m!\nm1!\nm!\njmp x\nm1!").toList
    let uses : List Use :=
      [⟨9, "m".toList, 0, ["x: push 1".toList, "je \x7b\x7dx".toList]⟩,
       ⟨10, "m1".toList, 0, ["jmp \"\x7b\x7dx\"".toList, "\x7b\x7dx: pop".toList]⟩,
       ⟨11, "m".toList, 1, ["x: push 1".toList, "je \x7b\x7dx".toList]⟩,
       ⟨13, "m1".toList, 1, ["jmp \"\x7b\x7dx\"".toList, "\x7b\x7dx: pop".toList]⟩]
    (∃ lines, expand source = .ok lines ∧ Hygienic source lines) ∧
      (∃ program, decode source = .ok program ∧ program.instructions.map (·.jumpTarget?) =
        [none, some 0, some 3, none, none, some 4, some 0, some 8, none]) ∧
      (∀ u ∈ uses, .use u ∈ parts source) ∧
      JumpsTo "jmp \"\x7b\x7dx\"".toList "x".toList ∧
      localLabel? "\x7b\x7dx: pop".toList = some "x".toList := by
  intro source uses
  have tidy : Tidy source := ⟨by decide +kernel, by decide +kernel, by decide +kernel⟩
  refine ⟨?_, ⟨_, by rfl, by rfl⟩, by decide +kernel, ⟨by decide, ?_⟩, by decide⟩
  · exact ⟨_, by rfl, hygienic_of_expand tidy (by rfl)⟩
  · have refers : Token.RefersTo ('"' :: ['{', '}', 'x'] ++ ['"']) ['{', '}', 'x'] :=
      .quoted (by decide) (by decide)
    exact ⟨_, by decide, refers⟩

end Expansion

end Stepwise

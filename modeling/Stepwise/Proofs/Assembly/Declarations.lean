/-
  Stepwise/Proofs/Assembly/Declarations.lean
  ==========================================
  **Labels that a macro declares without a placeholder.**

  A use of a macro puts its tag in front of a body line whose first word ends with a colon;
  the decoder looks at the first token, and tokens end at commas as well as at blanks.  So a
  body line that declares a label declares the same label behind the tag when it is shown
  exactly if it begins with its first token and its first word ends with a colon
  (`Leads`, `declares_shown_iff`).

  A macro that declares all its labels in this way, each of them once, can be used as often
  as one likes: no label is declared twice by its uses (`nodup_labels_of_uses`), and where a
  label is refused since it is bound already, something else declares it too.
-/
import Stepwise.Proofs.Assembly.Hygiene
import Stepwise.Proofs.Assembly.Refusal

namespace Stepwise

namespace Expansion

open SourceLine

variable {name t x label : Text} {n number : Nat} {source : Text} {lines : List SourceLine}
  {m : Macro} {u u' : Use} {p : Part} {cause : DecodeCause}

/-! ### Lines -/

/-- The decoder takes the line for one that declares the label. -/
def Declares (line : SourceLine) (x : Text) : Prop :=
  line.declared? = some x ∧ Token.isLabelName x = true

instance (line : SourceLine) (x : Text) : Decidable (Declares line x) :=
  inferInstanceAs (Decidable (_ ∧ _))

/-- The line begins with a token, and its first word ends with a colon. -/
def Leads (t : Text) : Prop :=
  t.head? ≠ some ',' ∧ ∃ word ∈ t.words.head?, word.endsWith ':' = true

instance (t : Text) : Decidable (Leads t) := inferInstanceAs (Decidable (_ ∧ _))

/-- A line that begins with a token and declares a label begins with the label. -/
theorem eq_append_of_declared (first : ∀ c, t.head? = some c → Text.isBlank c = false)
    (begins : t.head? ≠ some ',') (declares : declared? ⟨0, t⟩ = some x) :
    ∃ rest, t = x ++ ':' :: rest ∧ (∀ c ∈ x, Token.isSeparator c = false) ∧ Follows rest := by
  obtain ⟨word, rest, rfl, plain, follows⟩ := exists_first_token t
  have begun : word ≠ [] := by
    rintro rfl
    cases rest with
    | nil => cases declares
    | cons c rest =>
      have separates := follows c rfl
      rw [Token.isSeparator, first c rfl, Bool.false_or, beq_iff_eq] at separates
      exact begins (separates ▸ rfl)
  simp only [declared?, split_append begun plain follows] at declares
  split at declares
  · rename_i colon
    cases declares
    have whole : word = word.dropLast ++ [':'] := by
      obtain ⟨front, rfl⟩ := List.getLast?_eq_some_iff.mp (beq_iff_eq.mp colon)
      rw [List.dropLast_concat]
    refine ⟨rest, ?_, fun c hc => plain c ((List.dropLast_sublist word).mem hc), follows⟩
    conv_lhs => rw [whole]
    simp
  · cases declares

theorem isLabelName_append (h : Word name) (n : Nat) (named : Token.isLabelName x = true) :
    Token.isLabelName (tag name n ++ x) = true := by
  have colon : ':' ∉ tag name n := not_mem_tag h n (by decide) (by decide)
  have quote : '"' ∉ tag name n := not_mem_tag h n (by decide) (by decide)
  simp_all [Token.isLabelName]

theorem declaresPlainLabel_iff (plain : placeholders t = 0)
    (first : ∀ c, t.head? = some c → Text.isBlank c = false) :
    declaresPlainLabel t = true ↔ ∃ word ∈ t.words.head?, word.endsWith ':' = true := by
  constructor
  · intro declares
    cases words : t.words with
    | nil => simp [declaresPlainLabel, words] at declares
    | cons word more =>
      simp only [declaresPlainLabel, words, Bool.and_eq_true] at declares
      exact ⟨word, rfl, declares.1⟩
  · rintro ⟨word, here, ends⟩
    obtain ⟨rest, rfl, -⟩ := exists_eq_append_of_words first here
    have none : placeholders word = 0 := Text.countPair_of_append plain
    rw [declaresPlainLabel_eq here, ends, none]
    rfl

section Shown

variable (h : Word name) (first : ∀ c, t.head? = some c → Text.isBlank c = false)
  (plain : placeholders t = 0)

include h plain

/-- Without a placeholder, a use shows a body line as it is or behind the tag. -/
theorem instantiate_of_plain (n : Nat) :
    instantiate (tag name n) t = if declaresPlainLabel t then tag name n ++ t else t := by
  have unbraced : '{' ∉ tag name n := not_mem_tag h n (by decide) (by decide)
  have same : fill (tag name n) t = t := Text.replacePair_of_countPair plain
  rw [instantiate]
  split
  · rw [fill_append_of_not_mem unbraced, same]
  · exact same

include first

theorem leads_of_declared_shown (declares : declared? ⟨0, t⟩ = some x)
    (shown : declared? ⟨number, instantiate (tag name n) t⟩ = some (tag name n ++ x)) :
    Leads t := by
  rw [instantiate_of_plain h plain] at shown
  by_cases prefixed : declaresPlainLabel t = true
  · refine ⟨?_, (declaresPlainLabel_iff plain first).mp prefixed⟩
    intro comma
    -- the tag would be a token of its own
    obtain ⟨rest, rfl⟩ := List.head?_eq_some_iff.mp comma
    have begun : tag name n ≠ [] := tag_ne_nil name n
    have follows : Follows (',' :: rest) := by
      rintro c hc
      cases hc
      rfl
    have silent : declared? ⟨number, tag name n ++ ',' :: rest⟩ = none := by
      rw [declared?_eq_none_iff]
      intro token here
      rw [split_append begun (plain_tag h n) follows] at here
      cases here
      rw [getLast?_tag]
      decide
    rw [if_pos prefixed, silent] at shown
    cases shown
  · have same : some x = some (tag name n ++ x) := by
      rw [if_neg prefixed] at shown
      exact declares.symm.trans shown
    have longer := congrArg List.length (Option.some.inj same)
    have begun : 0 < (tag name n).length := List.length_pos_iff.mpr (tag_ne_nil name n)
    rw [List.length_append] at longer
    omega

theorem shown_of_leads (declares : declared? ⟨0, t⟩ = some x) (leads : Leads t) :
    declared? ⟨number, instantiate (tag name n) t⟩ = some (tag name n ++ x) ∧
      code ⟨number, instantiate (tag name n) t⟩ = code ⟨0, t⟩ := by
  have prefixed := (declaresPlainLabel_iff plain first).mpr leads.2
  obtain ⟨rest, rfl, bare, follows⟩ := eq_append_of_declared first leads.1 declares
  have tagged : ∀ c ∈ tag name n ++ x, Token.isSeparator c = false :=
    List.forall_mem_append.mpr ⟨plain_tag h n, bare⟩
  rw [instantiate_of_plain h plain, if_pos prefixed, ← List.append_assoc]
  refine ⟨declared?_label tagged follows, ?_⟩
  rw [code_label tagged follows, code_label bare follows]

/-- **The passes agree on a label** exactly if the line begins with a token and its first word
    ends with a colon. -/
theorem declares_shown_iff (declares : Declares ⟨0, t⟩ x) :
    Declares ⟨number, instantiate (tag name n) t⟩ (tag name n ++ x) ∧
      code ⟨number, instantiate (tag name n) t⟩ = code ⟨0, t⟩ ↔ Leads t := by
  constructor
  · rintro ⟨shown, -⟩
    exact leads_of_declared_shown h first plain declares.1 shown.1
  · intro leads
    obtain ⟨shown, code⟩ := shown_of_leads h first plain declares.1 leads
    exact ⟨⟨shown, isLabelName_append h n declares.2⟩, code⟩

end Shown

/-! ### Uses -/

/-- The macro declares its labels without placeholders, in front of lines, and each of them once. -/
structure Macro.DeclaresOnce (m : Macro) : Prop where
  leads : ∀ t ∈ m.body, ∀ x ∈ declared? ⟨0, t⟩, placeholders t = 0 ∧ Leads t
  once : (m.body.filterMap fun t => declared? ⟨0, t⟩).Nodup

/-- The part is a use of the macro of the given name. -/
def Part.isUseOf (name : Text) (p : Part) : Bool := (p.nth? name).isSome

theorem Part.isUseOf_iff : p.isUseOf name = true ↔ ∃ u, p = .use u ∧ u.name = name := by
  cases p with
  | own line => simp [isUseOf, nth?]
  | use u =>
    by_cases same : u.name = name
    · simp [isUseOf, nth?, same]
    · simp [isUseOf, nth?, same]

section Source

variable (expands : expand source = .ok lines) (hm : m ∈ macros source)

include expands hm

/-- A name has one macro, so all its uses show the same body. -/
theorem body_of_use (hu : .use u ∈ parts source) (same : u.name = m.name) : u.body = m.body := by
  obtain ⟨m', hm', own, body⟩ := exists_macro_of_use expands hu
  have distinct := distinct_of_feedAll (expand_succeeds_iff.mp expands) List.nodup_nil
  rw [State.names, Option.map_none, Option.toList_none, List.append_nil] at distinct
  have one : m' = m := List.inj_on_of_nodup_map distinct hm' hm (own.trans same)
  rw [← body, one]

variable (named : Word m.name)

include named

theorem labels_of_use (declares : m.DeclaresOnce) (hu : .use u ∈ parts source)
    (same : u.name = m.name) :
    (Part.use u).labels = (m.body.filterMap fun t => declared? ⟨0, t⟩).map (u.tag ++ ·) := by
  have word : Word u.name := same ▸ named
  rw [Part.labels, Part.lines, Use.lines, List.filterMap_map, List.map_filterMap,
    body_of_use expands hm hu same]
  refine List.filterMap_congr fun t ht => ?_
  cases declared : declared? ⟨0, t⟩ with
  | none => exact declared?_instantiate word declared
  | some x =>
    obtain ⟨plain, leads⟩ := declares.leads t ht x declared
    have normal := (normalForm_of_mem_body expands hm ht).1
    exact (shown_of_leads word normal.first plain declared leads).1

/-- **No label is declared twice by the uses of such a macro**, however many there are. -/
theorem nodup_labels_of_uses (declares : m.DeclaresOnce) :
    (((parts source).filter (Part.isUseOf m.name)).flatMap Part.labels).Nodup := by
  rw [List.nodup_flatMap]
  constructor
  · intro p hp
    obtain ⟨hp, used⟩ := List.mem_filter.mp hp
    obtain ⟨u, rfl, same⟩ := Part.isUseOf_iff.mp used
    rw [labels_of_use expands hm named declares hp same]
    exact declares.once.map fun x y eq => List.append_cancel_left eq
  · rw [List.pairwise_iff_forall_sublist]
    intro p q both
    have both' := both.trans List.filter_sublist
    obtain ⟨hp, used⟩ := List.mem_filter.mp (both.subset (by simp) : p ∈ _)
    obtain ⟨hq, used'⟩ := List.mem_filter.mp (both.subset (by simp) : q ∈ _)
    obtain ⟨u, rfl, same⟩ := Part.isUseOf_iff.mp used
    obtain ⟨u', rfl, same'⟩ := Part.isUseOf_iff.mp used'
    have later := nth_lt_of_sublist expands both' (same.trans same'.symm)
    intro label here there
    rw [labels_of_use expands hm named declares hp same, List.mem_map] at here
    rw [labels_of_use expands hm named declares hq same', List.mem_map] at there
    obtain ⟨x, -, rfl⟩ := here
    obtain ⟨x', -, eq⟩ := there
    obtain ⟨-, numbers, -⟩ := tag_append_inj (same' ▸ named) (same ▸ named) eq
    omega

end Source

/-! ### Refusals -/

theorem not_duplicateLabel_of_operands {mnemonic : Text} {tokens : List Text}
    (h : Instruction.Refuses mnemonic tokens cause) : cause ≠ .duplicateLabel label := by
  rintro rfl
  cases h with
  | operand token cause here wrong => cases wrong

/-- A label that is refused since it is bound already is declared twice. -/
theorem two_le_count_of_duplicateLabel
    (h : assemble lines = .error ⟨number, .duplicateLabel label⟩) :
    2 ≤ (lines.filterMap declared?).count label := by
  rcases assemble_fails h with ⟨front, line, back, rfl, accepts, -, refuses⟩ | operands
  · cases refuses with
    | again _ declares bound =>
      have known : label ∈ front.filterMap declared? := by
        by_contra unknown
        rw [← List.mem_reverse, ← Layout.names_ofLines,
          ← LabelTable.contains_eq_false_iff, bound] at unknown
        cases unknown
      have here : 0 < (front.filterMap declared?).count label := List.count_pos_iff.mpr known
      rw [List.filterMap_append, List.filterMap_cons, declares, List.count_append,
        List.count_cons_self]
      omega
  · obtain ⟨-, line, -, -, -, refuses⟩ := operands
    exact absurd rfl (not_duplicateLabel_of_operands refuses)

theorem count_labels_filter {ps : List Part} {which : Part → Bool}
    (h : ∀ p ∈ ps, label ∈ p.labels → which p = true) :
    (ps.flatMap Part.labels).count label = ((ps.filter which).flatMap Part.labels).count label := by
  induction ps with
  | nil => rfl
  | cons p ps ih =>
    obtain ⟨here, rest⟩ := List.forall_mem_cons.mp h
    rw [List.flatMap_cons, List.count_append, ih rest]
    by_cases chosen : which p = true
    · rw [List.filter_cons_of_pos chosen, List.flatMap_cons, List.count_append]
    · have none : p.labels.count label = 0 :=
        List.count_eq_zero_of_not_mem fun member => chosen (here member)
      rw [List.filter_cons_of_neg chosen, none, Nat.zero_add]

/-- **When the passes agree on what is declared.**  A body line without a placeholder that declares
    a label declares it behind the tag of each use, with the same tokens after it, exactly if it
    begins with a token and its first word ends with a colon.  If a label is refused since it is
    bound already, it is not for the uses of a macro that declares each of its labels once in this
    way: something else in the source declares it. -/
theorem declarations_read_alike (expands : expand source = .ok lines) (hm : m ∈ macros source)
    (named : Word m.name) :
    (∀ u, .use u ∈ parts source → u.name = m.name → ∀ t ∈ m.body, placeholders t = 0 →
      ∀ x, Declares ⟨0, t⟩ x →
        u.line t ∈ lines ∧
          (Declares (u.line t) (u.tag ++ x) ∧ (u.line t).code = code ⟨0, t⟩ ↔ Leads t)) ∧
    (m.DeclaresOnce → ∀ number label, decode source = .error ⟨number, .duplicateLabel label⟩ →
      ∃ p ∈ parts source, label ∈ p.labels ∧ ∀ u, p = .use u → u.name ≠ m.name) := by
  constructor
  · intro u hu same t ht plain x declares
    have normal := (normalForm_of_mem_body expands hm ht).1
    refine ⟨?_, declares_shown_iff (same ▸ named) normal.first plain declares⟩
    rw [← flatMap_parts_of_expand expands]
    refine List.mem_flatMap.mpr ⟨.use u, hu, List.mem_map_of_mem ?_⟩
    rw [body_of_use expands hm hu same]
    exact ht
  · intro declares number label refused
    rw [decode, expands] at refused
    have twice := two_le_count_of_duplicateLabel refused
    by_contra none
    have uses : ∀ p ∈ parts source, label ∈ p.labels → p.isUseOf m.name = true := by
      intro p hp member
      by_contra other
      refine none ⟨p, hp, member, fun u use same => other ?_⟩
      exact Part.isUseOf_iff.mpr ⟨u, use, same⟩
    have once := List.nodup_iff_count_le_one.mp
      (nodup_labels_of_uses expands hm named declares) label
    rw [← flatMap_parts_of_expand expands, List.filterMap_flatMap] at twice
    change 2 ≤ ((parts source).flatMap Part.labels).count label at twice
    rw [count_labels_filter uses] at twice
    omega

/-- A macro that is used twice, in a source that declares the label of its second use by itself. -/
theorem declarations_read_alike_label_taken :
    let source := ("#define m\nx: push, 1\njmp \x7b\x7dx\n#enddefine\n" ++
      "m!\nm-1#x: halt\nm!").toList
    let m : Macro := ⟨"m".toList, ["x: push, 1".toList, "jmp \x7b\x7dx".toList], 2⟩
    let u : Use := ⟨7, "m".toList, 1, m.body⟩
    let line := "x: push, 1".toList
    m ∈ macros source ∧ .use u ∈ parts source ∧ m.DeclaresOnce ∧ u.tag = "m-1#".toList ∧
      (Declares (u.line line) (u.tag ++ "x".toList) ∧ (u.line line).code = code ⟨0, line⟩) ∧
      decode source = .error ⟨7, .duplicateLabel "m-1#x".toList⟩ ∧
      ∃ p ∈ parts source, "m-1#x".toList ∈ p.labels ∧ ∀ u, p = .use u → u.name ≠ m.name := by
  intro source m u line
  have known : m ∈ macros source := by decide +kernel
  have used : .use u ∈ parts source := by decide +kernel
  have declares : m.DeclaresOnce := ⟨by decide +kernel, by decide⟩
  have refused : decode source = .error ⟨7, .duplicateLabel "m-1#x".toList⟩ := by rfl
  obtain ⟨lines, expands⟩ : ∃ lines, expand source = .ok lines := ⟨_, by rfl⟩
  obtain ⟨shown, apart⟩ := declarations_read_alike expands known (by decide)
  obtain ⟨-, leads⟩ := shown u used rfl line (by decide) (by decide) "x".toList (by decide)
  exact ⟨known, used, declares, by decide, leads.mpr (by decide), refused,
    apart declares 7 _ refused⟩

/-- A comma behind the colon keeps the tag away, so that all uses declare the same label.  A comma
    in front of the label keeps it apart from the tag, which is read as a token of its own. -/
theorem comma_parts_label_from_tag :
    let behind := "x:,push 1".toList
    let before := ",x: push 1".toList
    let source (line : Text) := "#define m\n".toList ++ line ++ "\n#enddefine\nm!\nm!".toList
    Declares ⟨0, behind⟩ "x".toList ∧ Declares ⟨0, before⟩ "x".toList ∧
      expand (source behind) = .ok [⟨4, behind⟩, ⟨5, behind⟩] ∧
      decode (source behind) = .error ⟨5, .duplicateLabel "x".toList⟩ ∧
      decode (source before) = .error ⟨4, .unknownOpcode "m-0#".toList⟩ := by
  refine ⟨by decide, by decide, by rfl, by rfl, by rfl⟩

end Expansion

end Stepwise

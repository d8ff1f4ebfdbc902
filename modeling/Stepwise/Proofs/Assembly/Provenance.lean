/-
  Stepwise/Proofs/Assembly/Provenance.lean
  ========================================
  **Line numbers are those of the source, from the expander to the diagnostic.**

  A line number is given once, when a source is cut into lines, and never changed.  What the
  expander shows for a line has its number (`Part.Of`), so numbers are those of source lines and
  come in their order; each instruction has the number of the line that it was read from.

  An error is about a line that has been looked at, and blank lines are not looked at: what is
  refused by the expander or the layout, and the header of a definition that is never closed,
  has something on it in front of its comment (`exists_line_of_fails`).  So the source has the
  line that the diagnostic is to quote, and quotes it (`Diagnostic.Locates`).
-/
import Stepwise.Proofs.Assembly.Parts
import Stepwise.Proofs.Assembly.Quotation
import Stepwise.Proofs.Assembly.Refusal

namespace Stepwise

open Text Expansion

variable {source raw : Text} {line shownLine : SourceLine} {lines shown : List SourceLine}
  {program : Program} {e : DecodeError}

/-! ### Source lines -/

/-- Something stands on the line in front of its comment. -/
def HasContent (raw : Text) : Prop := ∃ c ∈ raw.beforePair '/' '/', isBlank c = false

namespace SourceLine

/-- A line is empty in normal form exactly if it is blank in front of its comment. -/
theorem normalize_ne_nil_iff : normalize raw ≠ [] ↔ HasContent raw := by
  have lowered : normalize raw = [] ↔ (raw.beforePair '/' '/').trim = [] :=
    ⟨(lowersTo_lower _).eq_nil, fun empty => by rw [normalize, empty]; rfl⟩
  rw [ne_eq, lowered, ← List.head?_eq_none_iff, head?_trim, firstMark?, List.find?_eq_none]
  simp [HasContent]

theorem mem_ofSource_iff :
    line ∈ ofSource source ↔
      1 ≤ line.number ∧
        ∃ raw, source.lines[line.number - 1]? = some raw ∧ normalize raw = line.text := by
  simp only [ofSource, List.mem_map, Prod.exists, List.mk_mem_zipIdx_iff_le_and_getElem?_sub]
  constructor
  · rintro ⟨raw, number, ⟨starts, found⟩, rfl⟩
    exact ⟨starts, raw, found, rfl⟩
  · rintro ⟨starts, raw, found, normal⟩
    exact ⟨raw, line.number, ⟨starts, found⟩, by rw [normal]⟩

/-- A line of a source has one of the numbers from one to that of its lines. -/
theorem number_of_mem (h : line ∈ ofSource source) :
    1 ≤ line.number ∧ line.number ≤ source.lines.length := by
  obtain ⟨starts, raw, found, -⟩ := mem_ofSource_iff.mp h
  obtain ⟨within, -⟩ := List.getElem?_eq_some_iff.mp found
  exact ⟨starts, by omega⟩

theorem ascending_ofSource (source : Text) :
    (ofSource source).Pairwise fun a b => a.number ≤ b.number := by
  have numbers : (ofSource source).map (·.number) = List.range' 1 source.lines.length := by
    rw [ofSource, List.map_map, ← List.zipIdx_map_snd 1 source.lines]
    rfl
  have increasing : ((ofSource source).map (·.number)).Pairwise (· ≤ ·) := by
    rw [numbers]
    exact List.pairwise_le_range'
  exact List.pairwise_map.mp increasing

end SourceLine

/-! ### What the expander shows -/

namespace Expansion

variable {s s' : State} {texts : List Text} {p : Part}

/-- The part stands for the line, or for a piece of it: a line that is shown as it is, the label
    in front of an invocation, or the use of the macro that is invoked. -/
inductive Part.Of (line : SourceLine) : Part → Prop where
  | itself : Of line (.own line)
  | label (text name : Text) (calls : invocation? line.text = some (some text, name)) :
      Of line (.own { line with text })
  | use (label : Option Text) (u : Use) (calls : invocation? line.text = some (label, u.name))
      (here : u.number = line.number) : Of line (.use u)

/-- The lines of a part have the number of the line that it stands for. -/
theorem Part.Of.number (h : Part.Of line p) (hl : shownLine ∈ p.lines) :
    shownLine.number = line.number := by
  cases h with
  | itself => rw [List.mem_singleton.mp hl]
  | label text name calls => rw [List.mem_singleton.mp hl]
  | use label u calls here =>
    obtain ⟨text, -, rfl⟩ := List.mem_map.mp hl
    exact here

theorem of_mem_partsOf (h : p ∈ s.partsOf line) : line.text ≠ [] ∧ Part.Of line p := by
  simp only [State.partsOf] at h
  split at h
  · cases h
  · rename_i looked
    simp only [Bool.or_eq_true, List.isEmpty_iff, not_or] at looked
    refine ⟨looked.1.2, ?_⟩
    split at h
    · rw [List.mem_singleton.mp h]
      exact .itself
    · rename_i label name calls
      rcases List.mem_append.mp h with front | call
      · obtain ⟨text, declared, rfl⟩ := List.mem_map.mp front
        obtain rfl := Option.mem_toList.mp declared
        exact .label text name calls
      · obtain ⟨m, -, rfl⟩ := List.mem_map.mp call
        exact .use label _ calls rfl

theorem of_mem_parts (h : p ∈ s.parts lines) : ∃ line ∈ lines, line.text ≠ [] ∧ Part.Of line p := by
  induction lines generalizing s with
  | nil => cases h
  | cons line lines ih =>
    rw [State.parts] at h
    split at h
    · cases h
    · rcases List.mem_append.mp h with here | later
      · exact ⟨line, List.mem_cons_self, of_mem_partsOf here⟩
      · obtain ⟨origin, ho, known⟩ := ih later
        exact ⟨origin, List.mem_cons_of_mem _ ho, known⟩

/-- What is shown has the number of a line that is not blank. -/
theorem exists_origin_of_feedAll (h : s.feedAll lines = .ok (s', shown)) (hl : shownLine ∈ shown) :
    ∃ origin ∈ lines, origin.text ≠ [] ∧ shownLine.number = origin.number := by
  rw [← flatMap_parts_of_feedAll h] at hl
  obtain ⟨p, hp, within⟩ := List.mem_flatMap.mp hl
  obtain ⟨origin, ho, begun, stands⟩ := of_mem_parts hp
  exact ⟨origin, ho, begun, stands.number within⟩

/-- **Lines are shown in their order.** -/
theorem ascending_of_feedAll (h : s.feedAll lines = .ok (s', shown))
    (ascending : lines.Pairwise fun a b => a.number ≤ b.number) :
    shown.Pairwise fun a b => a.number ≤ b.number := by
  induction lines generalizing s shown with
  | nil =>
    cases h
    exact .nil
  | cons line lines ih =>
    obtain ⟨s₁, first, more, fed, rest, rfl⟩ := feedAll_cons_succeeds_iff.mp h
    obtain ⟨texts, -, rfl⟩ := feeds_of_feed fed
    obtain ⟨before, ascending⟩ := List.pairwise_cons.mp ascending
    refine List.pairwise_append.mpr ⟨?_, ih rest ascending, ?_⟩
    · -- all that one line shows has its number
      exact List.pairwise_map.mpr (List.pairwise_of_forall fun _ _ => Nat.le_refl _)
    · intro a ha b hb
      obtain ⟨text, -, rfl⟩ := List.mem_map.mp ha
      obtain ⟨origin, ho, -, same⟩ := exists_origin_of_feedAll rest hb
      rw [same]
      exact before origin ho

/-! ### What the expander refuses -/

theorem Refuses.begun {cause : DecodeCause} (h : Refuses s line cause) : line.text ≠ [] := by
  cases h with
  | body d flaw inside begun => exact begun
  | stray outside closing =>
    rw [closing]
    decide
  | header outside starts => exact begun_of_startsDefinition starts
  | again name m outside starts => exact begun_of_startsDefinition starts
  | unknown label name outside begun => exact begun

/-- A definition is open from a line that is not blank. -/
theorem exists_opening_of_feedAll {d : Definition} (h : State.feedAll {} lines = .ok (s, shown))
    (inside : s.inside = some d) : ∃ line ∈ lines, line.text ≠ [] ∧ line.number = d.opened := by
  let P (r : State) : Prop :=
    ∀ d, r.inside = some d → ∃ line ∈ lines, line.text ≠ [] ∧ line.number = d.opened
  have step (r : State) (line : SourceLine) (r' : State) (texts : List Text) (hl : line ∈ lines)
      (opened : P r) (feeds : Feeds r line r' texts) : P r' ∧ ∀ text ∈ texts, True := by
    refine ⟨fun d' hd => ?_, fun _ _ => trivial⟩
    cases feeds with
    | closes => cases hd
    | collects d inside =>
      cases hd
      exact opened d inside
    | opens name outside starts header =>
      cases hd
      exact ⟨line, hl, begun_of_startsDefinition starts, rfl⟩
    | passes | blank | shows | invokes => exact opened d' hd
  have none : P {} := by
    intro d inside
    cases inside
  have kept := feedAll_induction step none h
  exact kept.1 d inside

end Expansion

/-- **An error is about a line of the source that is not blank.** -/
theorem exists_line_of_fails (h : expand source = .error e ∨ decode source = .error e) :
    ∃ line ∈ SourceLine.ofSource source, line.text ≠ [] ∧ line.number = e.line := by
  have expansion (fails : expand source = .error e) :
      ∃ line ∈ SourceLine.ofSource source, line.text ≠ [] ∧ line.number = e.line := by
    rcases expand_fails fails with ⟨front, line, back, s, shown, split, -, here, refuses⟩ |
      ⟨s, shown, d, read, inside, rfl⟩
    · refine ⟨line, ?_, refuses.begun, here.symm⟩
      rw [split]
      exact List.mem_append_right _ List.mem_cons_self
    · exact exists_opening_of_feedAll read inside
  rcases h with fails | fails
  · exact expansion fails
  rw [decode, bind_fails_iff] at fails
  rcases fails with fails | ⟨lines, expands, fails⟩
  · exact expansion fails
  have blamed : ∃ line ∈ lines, e.line = line.number := by
    rcases assemble_fails fails with
      ⟨front, line, back, rfl, -, here, -⟩ | ⟨-, line, hl, -, here, -⟩
    · exact ⟨line, List.mem_append_right _ List.mem_cons_self, here⟩
    · exact ⟨line, hl, here⟩
  obtain ⟨line, hl, here⟩ := blamed
  obtain ⟨origin, ho, begun, same⟩ := exists_origin_of_feedAll (expand_succeeds_iff.mp expands) hl
  exact ⟨origin, ho, begun, by rw [here, same]⟩

/-! ### Provenance -/

/-- Where the lines that are left of a source come from: they are put together of parts, each of
    which stands for a line of the source and has its number throughout. -/
structure Traced (source : Text) (lines : List SourceLine) : Prop where
  within : ∀ line ∈ lines, 1 ≤ line.number ∧ line.number ≤ source.lines.length
  ascending : lines.Pairwise fun a b => a.number ≤ b.number
  assembled : (parts source).flatMap Part.lines = lines
  origin : ∀ p ∈ parts source, ∃ line ∈ SourceLine.ofSource source,
    Part.Of line p ∧ ∀ shownLine ∈ p.lines, shownLine.number = line.number

theorem traced_of_expand (expands : expand source = .ok lines) : Traced source lines := by
  have fed := expand_succeeds_iff.mp expands
  constructor
  · intro line hl
    obtain ⟨origin, ho, -, same⟩ := exists_origin_of_feedAll fed hl
    rw [same]
    exact SourceLine.number_of_mem ho
  · exact ascending_of_feedAll fed (SourceLine.ascending_ofSource source)
  · exact flatMap_parts_of_expand expands
  · intro p hp
    obtain ⟨line, hl, -, stands⟩ := of_mem_parts hp
    exact ⟨line, hl, stands, fun _ within => stands.number within⟩

/-- The instructions of a program have numbers of lines of the source, in their order. -/
structure Program.Traced (source : Text) (program : Program) : Prop where
  within : ∀ i < program.size,
    1 ≤ program.sourceLine i ∧ program.sourceLine i ≤ source.lines.length
  ascending : ∀ i j, i ≤ j → j < program.size → program.sourceLine i ≤ program.sourceLine j

theorem Program.traced_of_decode (decodes : decode source = .ok program) :
    program.Traced source := by
  obtain ⟨lines, expands, assembles⟩ := bind_succeeds_iff.mp decodes
  obtain ⟨-, reads, -, numbers⟩ := assemble_succeeds_iff.mp assembles
  have traced := traced_of_expand expands
  have counted : program.lines.length = program.size := by
    rw [← numbers, List.length_map, reads.length_eq, size]
  have numbered (i : Nat) (hi : i < program.size) :
      program.lines[i]? = some (program.sourceLine i) := by
    have within : i < program.lines.length := counted ▸ hi
    rw [sourceLine, List.getElem?_eq_getElem within, Option.getD_some]
  constructor
  · intro i hi
    have listed := List.mem_of_getElem? (numbered i hi)
    rw [← numbers] at listed
    obtain ⟨line, hl, same⟩ := List.mem_map.mp listed
    rw [← same]
    exact traced.within line (List.mem_of_mem_filter hl)
  · intro i j le hj
    have ascending : program.lines.Pairwise (· ≤ ·) := by
      rw [← numbers]
      exact List.pairwise_map.mpr (traced.ascending.filter _)
    rcases Nat.eq_or_lt_of_le le with rfl | lt
    · exact Nat.le_refl _
    · obtain ⟨hi', here⟩ := List.getElem?_eq_some_iff.mp (numbered i (by omega))
      obtain ⟨hj', there⟩ := List.getElem?_eq_some_iff.mp (numbered j hj)
      rw [← here, ← there]
      exact List.pairwise_iff_getElem.mp ascending i j hi' hj' lt

namespace Diagnostic

/-- The error is about a line of the source that is not blank or a comment, and a diagnostic
    quotes it: all of it but carriage returns at its end. -/
structure Locates (source : Text) (e : DecodeError) : Prop where
  within : 1 ≤ e.line ∧ e.line ≤ source.lines.length
  content : ∀ raw, source.lines[e.line - 1]? = some raw → HasContent raw
  quoted : ∃ line k, source.lines[e.line - 1]? = some (line ++ List.replicate k '\r') ∧
    line.getLast? ≠ some '\r' ∧
    ∀ file, ∃ head, (render file source e).lines = head ++ [quotedRow e.line line, caretRow line]

theorem locates_of_fails (h : expand source = .error e ∨ decode source = .error e) :
    Locates source e := by
  obtain ⟨line, hl, begun, here⟩ := exists_line_of_fails h
  obtain ⟨-, raw, found, normal⟩ := SourceLine.mem_ofSource_iff.mp hl
  have within := SourceLine.number_of_mem hl
  rw [here] at within found
  constructor
  · exact within
  · intro raw' found'
    obtain rfl : raw = raw' := Option.some.inj (found.symm.trans found')
    exact SourceLine.normalize_ne_nil_iff.mp (normal ▸ begun)
  · have quoted : quotedLine? source e.line = some (raw.stripEnd (· == '\r')) := by
      rw [quotedLine?, found, Option.map_some]
    obtain ⟨k, stripped, uncut⟩ := quotedLine?_eq_some_iff.mp quoted
    exact ⟨_, k, stripped, uncut, fun file => lines_render quoted⟩

end Diagnostic

/-- **Line numbers are those of the source.**  The lines that expansion leaves have numbers of
    lines of the source, in their order, those of a use of a macro all that of the line that invokes
    it; so have the instructions of a program; and a source that is refused, by the expander or
    later, is refused for a line of its own that is not blank, which the diagnostic quotes. -/
theorem line_numbers_traced (source : Text) :
    (∀ lines, expand source = .ok lines → Traced source lines) ∧
      (∀ program, decode source = .ok program → program.Traced source) ∧
      ∀ e, expand source = .error e ∨ decode source = .error e → Diagnostic.Locates source e :=
  ⟨fun _ => traced_of_expand, fun _ => Program.traced_of_decode,
    fun _ => Diagnostic.locates_of_fails⟩

/-- A use of a macro with a label in front of it, and a source that is refused for its second line,
    behind which there is a comment and more than one carriage return. -/
theorem line_numbers_traced_macro :
    let source := "#define m\npush 1\n\nwrite\n#enddefine\n\nx: m!\nhalt".toList
    let lines : List SourceLine :=
      [⟨7, "x:".toList⟩, ⟨7, "push 1".toList⟩, ⟨7, "write".toList⟩, ⟨8, "halt".toList⟩]
    let refused := "halt\n\tjump end // back\r\r\nhalt".toList
    (expand source = .ok lines ∧ Traced source lines) ∧
      (∃ program, decode source = .ok program ∧ program.lines = [7, 7, 8] ∧
        program.Traced source) ∧
      decode refused = .error ⟨2, .unknownOpcode "jump".toList⟩ ∧
      Diagnostic.Locates refused ⟨2, .unknownOpcode "jump".toList⟩ := by
  intro source lines refused
  have expands : expand source = .ok lines := by rfl
  have decodes : decode source =
      .ok ⟨[.push (.imm 1), .write, .halt], .ofList [("x".toList, 0)], [7, 7, 8]⟩ := by rfl
  have refuses : decode refused = .error ⟨2, .unknownOpcode "jump".toList⟩ := by rfl
  have traced := line_numbers_traced source
  exact ⟨⟨expands, traced.1 _ expands⟩, ⟨_, decodes, rfl, traced.2.1 _ decodes⟩, refuses,
    (line_numbers_traced refused).2.2 _ (.inr refuses)⟩

end Stepwise

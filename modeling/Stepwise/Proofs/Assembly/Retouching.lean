/-
  Stepwise/Proofs/Assembly/Retouching.lean
  ========================================
  **What no meaning hangs on: letter case, blanks around lines, comments, line ends.**

  A source can be retouched in five ways (`Retouch`), each of them within one line or at its
  end.  None of them changes the normal form of the line, and all other lines stay what they
  are (`expand_of_line`).  Everything that decoding does, refusals included, is done on normal
  forms and their numbers, so a source that has been retouched, however often, decodes to the
  same program or is refused with the same error (`decode_retouched`).

  At the end of a source a change may add a line, since nothing behind the last line end is no
  line but a blank is one.  That line is blank in normal form, and blank lines at the end
  change nothing; so each source is compared with one line end more behind it
  (`expand_append_feed`).
-/
import Mathlib.Logic.Relation
import Stepwise.Proofs.Assembly.Joining
import Stepwise.Proofs.Text.Recasing

namespace Stepwise

variable {source source' front back line line' note : Text} {c d : Char}

/-! ### Retouching -/

/-- A line starts behind the text. -/
def StartsLine (front : Text) : Prop := front = [] ∨ ∃ before, front = before ++ ['\n']

/-- A line ends in front of the text. -/
inductive EndsLine : Text → Prop where
  | last : EndsLine []
  | feed (back : Text) : EndsLine ('\n' :: back)
  | returned (back : Text) : EndsLine ('\r' :: '\n' :: back)

/-- A blank or a tab. -/
def IsPadding (c : Char) : Prop := c = ' ' ∨ c = '\t'

/-- One change to the look of a source. -/
inductive Retouch : Text → Text → Prop where
  /-- Another case for an ASCII letter. -/
  | recase (front back : Text) {c d : Char} (same : c.toLower = d.toLower) :
      Retouch (front ++ c :: back) (front ++ d :: back)
  /-- A blank or a tab at the start of a line. -/
  | indent {front : Text} (back : Text) {c : Char} (padding : IsPadding c)
      (starts : StartsLine front) : Retouch (front ++ back) (front ++ c :: back)
  /-- A blank or a tab at the end of a line. -/
  | extend (front : Text) {back : Text} {c : Char} (padding : IsPadding c)
      (ends : EndsLine back) : Retouch (front ++ back) (front ++ c :: back)
  /-- A blank and a comment at the end of a line. -/
  | comment (front : Text) {back note : Text} {c : Char} (padding : IsPadding c)
      (unbroken : '\n' ∉ note) (ends : EndsLine back) :
      Retouch (front ++ back) (front ++ c :: '/' :: '/' :: note ++ back)
  /-- A carriage return in front of a line feed. -/
  | returned (front back : Text) : Retouch (front ++ '\n' :: back) (front ++ '\r' :: '\n' :: back)

/-! ### The normal form of a line -/

namespace Text

variable {t u : Text}

theorem beforePair_cons {a b : Char} (other : c ≠ a) (t : Text) :
    beforePair a b (c :: t) = c :: beforePair a b t := by
  cases t with
  | nil => rfl
  | cons d t =>
    rw [beforePair, if_neg]
    rintro ⟨same, -⟩
    exact other same

/-- A comment that begins behind another character than a slash is cut off. -/
theorem beforePair_append_comment (other : c ≠ '/') (t note : Text) :
    beforePair '/' '/' (t ++ c :: '/' :: '/' :: note) = beforePair '/' '/' (t ++ [c]) := by
  fun_induction beforePair '/' '/' t with
  | case1 =>
    rw [List.nil_append, beforePair_cons other]
    rfl
  | case2 e =>
    simp only [List.cons_append, List.nil_append, beforePair, other, false_and, and_false, if_false,
      and_self, if_true]
  | case3 e f rest pair => simp only [List.cons_append, beforePair, pair, and_self, if_true]
  | case4 e f rest pair ih =>
    simp only [List.cons_append, beforePair, pair, if_false] at ih ⊢
    rw [ih]

theorem trim_cons (blank : isBlank c = true) (t : Text) : trim (c :: t) = trim t := by
  rw [trim, trim, strip, strip, List.dropWhile_cons_of_pos blank]

end Text

namespace SourceLine

theorem normalize_cons (blank : Text.isBlank c = true) (other : c ≠ '/') (line : Text) :
    normalize (c :: line) = normalize line := by
  rw [normalize, Text.beforePair_cons other, Text.trim_cons blank, normalize]

theorem normalize_comment (blank : Text.isBlank c = true) (other : c ≠ '/') (line note : Text) :
    normalize (line ++ c :: '/' :: '/' :: note) = normalize line := by
  rw [normalize, Text.beforePair_append_comment other, ← Text.normalize_concat blank other line,
    normalize]

theorem normalize_recased (h : Text.Recased line line') : normalize line = normalize line' := by
  rw [normalize, normalize, Text.lower_recased h.beforePair.trim]

/-- Lines that end at a line feed are normalized one by one. -/
theorem normalize_lines (starts : StartsLine front) (unbroken : '\n' ∉ line) (back : Text) :
    (front ++ line ++ '\n' :: back).lines.map normalize =
      front.lines.map normalize ++ normalize line :: back.lines.map normalize := by
  have here : (line ++ '\n' :: back).lines.map normalize =
      normalize line :: back.lines.map normalize := by
    rw [Text.lines, Text.linesFrom_append_feed unbroken, List.append_nil, List.map_cons,
      Text.normalize_closeLine, List.reverse_reverse]
  rcases starts with rfl | ⟨before, rfl⟩
  · exact here
  · rw [List.append_assoc, List.append_assoc, List.singleton_append, Text.lines_append_feed,
      List.map_append, here]

end SourceLine

/-! ### Sources with the same lines -/

namespace Expansion.State

/-- Blank lines at the end are passed over, inside a definition as well. -/
theorem feedAll_append_blank {s : State} {lines blank : List SourceLine}
    (empty : ∀ line ∈ blank, line.text = []) : s.feedAll (lines ++ blank) = s.feedAll lines := by
  have passed (s : State) {line : SourceLine} (h : line.text = []) : s.feed line = .ok (s, []) := by
    have open_ : ([] : Text) ≠ enddefineWord := by decide
    cases inside : s.inside with
    | none => simp only [feed, inside, feedOutside, h, List.isEmpty_nil, if_true, List.map_nil]
    | some d =>
      simp only [feed, inside, feedInside, h, open_, if_false, List.isEmpty_nil, if_true,
        Except.map, List.map_nil]
  have nothing (s : State) : s.feedAll blank = .ok (s, []) := by
    induction blank generalizing s with
    | nil => rfl
    | cons line blank ih =>
      obtain ⟨first, rest⟩ := List.forall_mem_cons.mp empty
      exact feedAll_cons_succeeds_iff.mpr ⟨s, [], [], passed s first, ih rest s, rfl⟩
  induction lines generalizing s with
  | nil => exact nothing s
  | cons line lines ih => simp only [List.cons_append, feedAll, ih]

end Expansion.State

theorem expand_of_ofSource (same : SourceLine.ofSource source' = SourceLine.ofSource source) :
    expand source' = expand source := by
  rw [expand, same, expand]

/-- One more line end behind a source makes no difference. -/
theorem expand_append_feed (source : Text) : expand (source ++ ['\n']) = expand source := by
  obtain ⟨blank, empty, same⟩ := SourceLine.ofSource_feed source
  rw [expand, same, Expansion.State.feedAll_append_blank empty, expand]

/-- **Lines are told apart by their normal forms alone.** -/
theorem expand_of_line (starts : StartsLine front) (unbroken : '\n' ∉ line)
    (unbroken' : '\n' ∉ line')
    (same : SourceLine.normalize line' = SourceLine.normalize line) (back : Text) :
    expand (front ++ line' ++ '\n' :: back) = expand (front ++ line ++ '\n' :: back) := by
  apply expand_of_ofSource
  rw [SourceLine.ofSource_eq, SourceLine.ofSource_eq, SourceLine.normalize_lines starts unbroken',
    SourceLine.normalize_lines starts unbroken, same]

/-! ### Where a change is made -/

/-- What stands before a place: whole lines, and the beginning of its own. -/
theorem exists_line_start (t : Text) :
    ∃ front line, t = front ++ line ∧ StartsLine front ∧ '\n' ∉ line := by
  induction t using List.reverseRecOn with
  | nil => exact ⟨[], [], rfl, .inl rfl, List.not_mem_nil⟩
  | append_singleton t c ih =>
    by_cases feed : c = '\n'
    · exact ⟨t ++ [c], [], by simp, .inr ⟨t, by rw [feed]⟩, List.not_mem_nil⟩
    · obtain ⟨front, line, rfl, starts, unbroken⟩ := ih
      refine ⟨front, line ++ [c], by simp, starts, List.not_mem_append unbroken ?_⟩
      exact fun h => feed (List.mem_singleton.mp h).symm

/-- What stands behind a place, with one more line end: the end of its own line, and others. -/
theorem exists_line_end (t : Text) :
    ∃ line back, t ++ ['\n'] = line ++ '\n' :: back ∧ '\n' ∉ line := by
  induction t with
  | nil => exact ⟨[], [], rfl, List.not_mem_nil⟩
  | cons c t ih =>
    by_cases feed : c = '\n'
    · exact ⟨[], t ++ ['\n'], by rw [feed]; rfl, List.not_mem_nil⟩
    · obtain ⟨line, back, same, unbroken⟩ := ih
      refine ⟨c :: line, back, by rw [List.cons_append, same]; rfl, ?_⟩
      rw [List.mem_cons, not_or]
      exact ⟨fun h => feed h.symm, unbroken⟩

/-- Where a line ends, nothing more of it is to come, but for a carriage return. -/
theorem EndsLine.rest (ends : EndsLine back) :
    ∃ rest behind, back ++ ['\n'] = rest ++ '\n' :: behind ∧ (rest = [] ∨ rest = ['\r']) := by
  cases ends with
  | last => exact ⟨[], [], rfl, .inl rfl⟩
  | feed back => exact ⟨[], back ++ ['\n'], rfl, .inl rfl⟩
  | returned back => exact ⟨['\r'], back ++ ['\n'], rfl, .inr rfl⟩

theorem IsPadding.marks (padding : IsPadding c) : Text.isBlank c = true ∧ c ≠ '/' ∧ c ≠ '\n' := by
  rcases padding with rfl | rfl <;> decide

theorem SourceLine.normalize_append_rest {rest : Text} (last : rest = [] ∨ rest = ['\r'])
    (line : Text) : normalize (line ++ rest) = normalize line := by
  rcases last with rfl | rfl
  · rw [List.append_nil]
  · exact Text.normalize_concat (by decide) (by decide) line

/-- What is put to the end of a line, and is not there in its normal form, makes no difference. -/
theorem expand_of_ending {part : Text} (ends : EndsLine back) (unbroken : '\n' ∉ part)
    (same : ∀ line rest, rest = [] ∨ rest = ['\r'] →
      SourceLine.normalize (line ++ part ++ rest) = SourceLine.normalize line) (front : Text) :
    expand (front ++ part ++ back) = expand (front ++ back) := by
  rw [← expand_append_feed (front ++ part ++ back), ← expand_append_feed (front ++ back)]
  obtain ⟨before, line, rfl, starts, unbroken'⟩ := exists_line_start front
  obtain ⟨rest, behind, split, last⟩ := ends.rest
  have changed : before ++ line ++ part ++ back ++ ['\n'] =
      before ++ (line ++ part ++ rest) ++ '\n' :: behind := by
    simp [split]
  have plain : before ++ line ++ back ++ ['\n'] = before ++ (line ++ rest) ++ '\n' :: behind := by
    simp [split]
  have single : '\n' ∉ rest := by rcases last with rfl | rfl <;> decide
  rw [changed, plain]
  apply expand_of_line starts
  · exact List.not_mem_append unbroken' single
  · exact List.not_mem_append (List.not_mem_append unbroken' unbroken) single
  · rw [same line rest last, SourceLine.normalize_append_rest last]

/-- A letter of another case changes its line, but not the normal form of it. -/
theorem expand_recased (same : c.toLower = d.toLower) (front back : Text) :
    expand (front ++ d :: back) = expand (front ++ c :: back) := by
  have feeds : c = '\n' ↔ d = '\n' := Text.eq_iff_recased same (by decide)
  by_cases feed : c = '\n'
  · rw [feed, feeds.mp feed]
  · rw [← expand_append_feed (front ++ d :: back), ← expand_append_feed (front ++ c :: back)]
    obtain ⟨before, start, rfl, starts, unbroken⟩ := exists_line_start front
    obtain ⟨rest, behind, split, unbroken'⟩ := exists_line_end back
    have line (e : Char) : before ++ start ++ e :: back ++ ['\n'] =
        before ++ (start ++ e :: rest) ++ '\n' :: behind := by
      simp [split]
    have whole {e : Char} (other : e ≠ '\n') : '\n' ∉ start ++ e :: rest := by
      refine List.not_mem_append unbroken ?_
      rw [List.mem_cons, not_or]
      exact ⟨fun h => other h.symm, unbroken'⟩
    rw [line, line]
    apply expand_of_line starts (whole feed) (whole fun h => feed (feeds.mpr h))
    apply SourceLine.normalize_recased
    exact List.rel_append (Text.Recased.refl start) (.cons same.symm (Text.Recased.refl rest))

theorem expand_indented (padding : IsPadding c) (starts : StartsLine front) (back : Text) :
    expand (front ++ c :: back) = expand (front ++ back) := by
  rw [← expand_append_feed (front ++ c :: back), ← expand_append_feed (front ++ back)]
  obtain ⟨blank, other, unbroken⟩ := padding.marks
  obtain ⟨line, behind, split, unbroken'⟩ := exists_line_end back
  have changed : front ++ c :: back ++ ['\n'] = front ++ (c :: line) ++ '\n' :: behind := by
    simp [split]
  have plain : front ++ back ++ ['\n'] = front ++ line ++ '\n' :: behind := by
    simp [split]
  rw [changed, plain]
  apply expand_of_line starts unbroken'
  · rw [List.mem_cons, not_or]
    exact ⟨fun h => unbroken h.symm, unbroken'⟩
  · exact SourceLine.normalize_cons blank other line

/-- **No change to the look of a source changes what is left of it by expansion.** -/
theorem expand_retouched (h : Retouch source source') : expand source' = expand source := by
  cases h with
  | recase front back same => exact expand_recased same front back
  | indent back padding starts => exact expand_indented padding starts back
  | @extend front back c padding ends =>
    obtain ⟨blank, other, unbroken⟩ := padding.marks
    have single : '\n' ∉ [c] := fun h => unbroken (List.mem_singleton.mp h).symm
    rw [← List.singleton_append, ← List.append_assoc]
    refine expand_of_ending ends single (fun line rest last => ?_) front
    rw [SourceLine.normalize_append_rest last, Text.normalize_concat blank other]
  | @comment front back note c padding unbroken ends =>
    obtain ⟨blank, other, unbroken'⟩ := padding.marks
    have single : '\n' ∉ c :: '/' :: '/' :: note := by
      simp only [List.mem_cons, not_or]
      exact ⟨fun h => unbroken' h.symm, by decide, by decide, unbroken⟩
    refine expand_of_ending ends single (fun line rest last => ?_) front
    rw [SourceLine.normalize_append_rest last, SourceLine.normalize_comment blank other]
  | returned front back =>
    have single : '\n' ∉ ['\r'] := by decide
    rw [← List.singleton_append, ← List.append_assoc]
    refine expand_of_ending (.feed back) single (fun line rest last => ?_) front
    rw [SourceLine.normalize_append_rest last, SourceLine.normalize_append_rest (.inr rfl)]

/-- **The look of a source does not matter.**  However often ASCII letters of a source are given
    another case, blanks and tabs are put to the starts and the ends of its lines, comments behind
    a blank are put to their ends, and carriage returns are put in front of line feeds: the source
    decodes to the same program, with the same labels and line numbers, or is refused with the same
    error at the same line. -/
theorem decode_retouched (h : Relation.ReflTransGen Retouch source source') :
    decode source' = decode source := by
  induction h with
  | refl => rfl
  | tail _ last ih => rw [← ih, decode, expand_retouched last, decode]

/-- All five changes, in a source that is refused for its second line. -/
theorem decode_retouched_refused :
    let source := "X: jmp x\nhalt 1".toList
    let source' := "\tx: jmp x // y\r\nhalt 1 ".toList
    Relation.ReflTransGen Retouch source source' ∧ decode source' = decode source ∧
      decode source = .error ⟨2, .arityMismatch "halt".toList [0] 1⟩ := by
  intro source source'
  have recased : Retouch source "x: jmp x\nhalt 1".toList :=
    .recase [] ": jmp x\nhalt 1".toList (c := 'X') (d := 'x') rfl
  have indented : Retouch "x: jmp x\nhalt 1".toList "\tx: jmp x\nhalt 1".toList :=
    .indent "x: jmp x\nhalt 1".toList (c := '\t') (.inr rfl) (.inl rfl)
  have commented : Retouch "\tx: jmp x\nhalt 1".toList "\tx: jmp x // y\nhalt 1".toList :=
    .comment "\tx: jmp x".toList (c := ' ') (.inl rfl) (by decide : '\n' ∉ " y".toList)
      (.feed "halt 1".toList)
  have returned : Retouch "\tx: jmp x // y\nhalt 1".toList "\tx: jmp x // y\r\nhalt 1".toList :=
    .returned "\tx: jmp x // y".toList "halt 1".toList
  have extended : Retouch "\tx: jmp x // y\r\nhalt 1".toList source' :=
    .extend "\tx: jmp x // y\r\nhalt 1".toList (c := ' ') (.inl rfl) .last
  have retouched : Relation.ReflTransGen Retouch source source' :=
    .tail (.tail (.tail (.tail (.single recased) indented) commented) returned) extended
  exact ⟨retouched, decode_retouched retouched, by rfl⟩

end Stepwise

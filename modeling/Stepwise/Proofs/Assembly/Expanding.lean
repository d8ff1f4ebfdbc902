/-
  Stepwise/Proofs/Assembly/Expanding.lean
  =======================================
  **What the expander does with a line.**

  There are seven things that it can do with a line that it does not refuse (`Feeds`,
  `feeds_of_feed`, `Feeds.feed`).  What each of them keeps, and what each of them says of the lines
  that it shows, holds of the whole source (`feedAll_induction`).  A line that is neither a
  directive nor an invocation stands for itself (`Plain`), and a source of such lines comes
  out as it is, with no macro defined (`feedAll_of_plain`).
-/
import Stepwise.Assembly.Expansion
import Stepwise.Proofs.Succeeds
import Stepwise.Proofs.Text.Fields

namespace Stepwise

namespace Expansion

variable {s s' : State} {line : SourceLine} {lines shown : List SourceLine} {texts : List Text}
  {t : Text}

/-! ### One line -/

/-- What becomes of a line that is not refused: the state behind it, and the texts that
    stand for it. -/
inductive Feeds : State → SourceLine → State → List Text → Prop where
  | closes {s : State} {line : SourceLine} (d : Definition) (inside : s.inside = some d)
      (closing : line.text = enddefineWord) :
      Feeds s line { macros := s.macros ++ [{ name := d.name, body := d.body }], inside := none } []
  | passes {s : State} {line : SourceLine} (d : Definition) (inside : s.inside = some d)
      (blank : line.text = []) : Feeds s line s []
  | collects {s : State} {line : SourceLine} (d : Definition) (inside : s.inside = some d)
      (begun : line.text ≠ []) (open_ : line.text ≠ enddefineWord)
      (sound : bodyFlaw? d.name line.text = none) :
      Feeds s line { s with inside := some { d with body := d.body ++ [line.text] } } []
  | blank {s : State} {line : SourceLine} (outside : s.inside = none) (blank : line.text = []) :
      Feeds s line s []
  | opens {s : State} {line : SourceLine} (name : Text) (outside : s.inside = none)
      (starts : startsDefinition line.text = true) (header : headerName? line.text = some name)
      (fresh : s.find? name = none) :
      Feeds s line { s with inside := some { opened := line.number, name } } []
  | shows {s : State} {line : SourceLine} (outside : s.inside = none) (begun : line.text ≠ [])
      (closed : line.text ≠ enddefineWord) (noDirective : startsDefinition line.text = false)
      (plain : invocation? line.text = none) : Feeds s line s [line.text]
  | invokes {s : State} {line : SourceLine} (label : Option Text) (name : Text) (m : Macro)
      (outside : s.inside = none) (begun : line.text ≠ []) (closed : line.text ≠ enddefineWord)
      (noDirective : startsDefinition line.text = false)
      (calls : invocation? line.text = some (label, name)) (known : s.find? name = some m) :
      Feeds s line (s.countUse name) (label.toList ++ m.expand)

theorem feeds_of_feedInside {d : Definition} (inside : s.inside = some d)
    (h : s.feedInside d line.text = .ok s') : Feeds s line s' [] := by
  simp only [State.feedInside] at h
  split at h
  · rename_i closing
    cases h
    exact .closes d inside closing
  · rename_i unclosed
    split at h
    · rename_i blank
      cases h
      exact .passes d inside (List.isEmpty_iff.mp blank)
    · rename_i begun
      split at h
      · cases h
      · rename_i sound
        cases h
        exact .collects d inside (fun blank => begun (List.isEmpty_iff.mpr blank)) unclosed sound

theorem openDefinition_cases (h : s.openDefinition line = .ok s') :
    ∃ name, headerName? line.text = some name ∧ s.find? name = none ∧
      s' = { s with inside := some { opened := line.number, name } } := by
  simp only [State.openDefinition] at h
  split at h
  · cases h
  · rename_i name header
    split at h
    · cases h
    · rename_i fresh
      cases h
      exact ⟨name, header, by simpa using fresh, rfl⟩

theorem feeds_of_feedOutside (outside : s.inside = none)
    (h : s.feedOutside line = .ok (s', texts)) : Feeds s line s' texts := by
  simp only [State.feedOutside] at h
  split at h
  · rename_i blank
    cases h
    exact .blank outside (List.isEmpty_iff.mp blank)
  · rename_i begun
    have begun : line.text ≠ [] := fun blank => begun (List.isEmpty_iff.mpr blank)
    split at h
    · cases h
    · rename_i closed
      split at h
      · rename_i starts
        cases opened : s.openDefinition line with
        | error cause =>
          rw [opened] at h
          cases h
        | ok next =>
          rw [opened] at h
          cases h
          obtain ⟨name, header, fresh, rfl⟩ := openDefinition_cases opened
          exact .opens name outside starts header fresh
      · rename_i noDirective
        have noDirective : startsDefinition line.text = false := by simpa using noDirective
        split at h
        · rename_i plain
          cases h
          exact .shows outside begun closed noDirective plain
        · rename_i label name calls
          split at h
          · cases h
          · rename_i m known
            cases h
            exact .invokes label name m outside begun closed noDirective calls known

/-- **A line that is not refused becomes one of seven things.** -/
theorem feeds_of_feed (h : s.feed line = .ok (s', shown)) :
    ∃ texts, Feeds s line s' texts ∧ shown = texts.map fun text => ⟨line.number, text⟩ := by
  cases inside : s.inside with
  | none =>
    simp only [State.feed, inside] at h
    split at h
    · cases h
    · rename_i next texts answer
      cases h
      exact ⟨texts, feeds_of_feedOutside inside answer, rfl⟩
  | some d =>
    simp only [State.feed, inside] at h
    cases answer : s.feedInside d line.text with
    | error cause =>
      rw [answer] at h
      cases h
    | ok next =>
      rw [answer] at h
      cases h
      exact ⟨[], feeds_of_feedInside inside answer, rfl⟩

theorem begun_of_startsDefinition (starts : startsDefinition t = true) : t ≠ [] := by
  rintro rfl
  cases starts

/-- Each of the seven is what becomes of the line. -/
theorem Feeds.feed (h : Feeds s line s' texts) :
    s.feed line = .ok (s', texts.map fun text => ⟨line.number, text⟩) := by
  cases h with
  | closes d inside closing => simp [State.feed, inside, State.feedInside, closing, Except.map]
  | passes d inside blank =>
    have open_ : ([] : Text) ≠ enddefineWord := by decide
    simp [State.feed, inside, State.feedInside, blank, open_, Except.map]
  | collects d inside begun open_ sound =>
    simp [State.feed, inside, State.feedInside, begun, open_, sound, Except.map]
  | blank outside blank => simp [State.feed, outside, State.feedOutside, blank]
  | opens name outside starts header fresh =>
    have begun := begun_of_startsDefinition starts
    have closed : line.text ≠ enddefineWord := by
      intro closing
      rw [closing] at starts
      exact absurd starts (by decide)
    simp [State.feed, outside, State.feedOutside, begun, closed, starts, State.openDefinition,
      header, fresh, Except.map]
  | shows outside begun closed noDirective plain =>
    simp [State.feed, outside, State.feedOutside, begun, closed, noDirective, plain]
  | invokes label name m outside begun closed noDirective calls known =>
    simp [State.feed, outside, State.feedOutside, begun, closed, noDirective, calls, known]

/-! ### Lines in a row -/

theorem feedAll_cons_succeeds_iff :
    s.feedAll (line :: lines) = .ok (s', shown) ↔
      ∃ s₁ first more, s.feed line = .ok (s₁, first) ∧ s₁.feedAll lines = .ok (s', more) ∧
        shown = first ++ more := by
  simp only [State.feedAll, bind_succeeds_iff, pure_succeeds_iff, Prod.exists, Prod.mk.injEq]
  constructor
  · rintro ⟨s₁, first, fed, s₂, more, rest, rfl, rfl⟩
    exact ⟨s₁, first, more, fed, rest, rfl⟩
  · rintro ⟨s₁, first, more, fed, rest, rfl⟩
    exact ⟨s₁, first, fed, s', more, rest, rfl, rfl⟩

/-- What each line keeps holds behind all of them, and what each says of the texts that it
    shows holds of all that are shown. -/
theorem feedAll_induction {P : State → Prop} {Q : Text → Prop}
    (step : ∀ s line s' texts, line ∈ lines → P s → Feeds s line s' texts →
      P s' ∧ ∀ text ∈ texts, Q text)
    (start : P s) (h : s.feedAll lines = .ok (s', shown)) :
    P s' ∧ ∀ line ∈ shown, Q line.text := by
  induction lines generalizing s shown with
  | nil =>
    cases h
    exact ⟨start, fun _ hl => by cases hl⟩
  | cons line lines ih =>
    obtain ⟨s₁, first, more, fed, rest, rfl⟩ := feedAll_cons_succeeds_iff.mp h
    obtain ⟨texts, feeds, rfl⟩ := feeds_of_feed fed
    obtain ⟨next, here⟩ := step s line s₁ texts List.mem_cons_self start feeds
    obtain ⟨final, behind⟩ :=
      ih (fun s line s' texts hl => step s line s' texts (List.mem_cons_of_mem _ hl)) next rest
    refine ⟨final, List.forall_mem_append.mpr ⟨?_, behind⟩⟩
    exact List.forall_mem_map.mpr here

/-! ### Lines that stand for themselves -/

/-- The line is no directive and no invocation, and not blank. -/
structure Plain (t : Text) : Prop where
  begun : t ≠ []
  closed : t ≠ enddefineWord
  noDirective : startsDefinition t = false
  calls : invocation? t = none

theorem feed_of_plain (outside : s.inside = none) (h : Plain line.text) :
    s.feed line = .ok (s, [line]) := by
  simp [State.feed, outside, State.feedOutside, h.begun, h.closed, h.noDirective, h.calls]

/-- **Plain lines come out as they are**, and define nothing. -/
theorem feedAll_of_plain (outside : s.inside = none) (h : ∀ line ∈ lines, Plain line.text) :
    s.feedAll lines = .ok (s, lines) := by
  induction lines with
  | nil => rfl
  | cons line lines ih =>
    obtain ⟨first, rest⟩ := List.forall_mem_cons.mp h
    exact feedAll_cons_succeeds_iff.mpr
      ⟨s, [line], lines, feed_of_plain outside first, ih rest, rfl⟩

theorem expand_of_plain {source : Text} (h : ∀ line ∈ SourceLine.ofSource source, Plain line.text) :
    expand source = .ok (SourceLine.ofSource source) := by
  rw [expand, feedAll_of_plain rfl h]
  rfl

theorem invokedName?_of_not_mem (h : '!' ∉ t) : invokedName? t = none := by
  have last : t.getLast? ≠ some '!' := fun last => h (List.mem_of_getLast? last)
  simp [invokedName?, Text.dropEnd?, last]

theorem invocation?_of_not_mem (h : '!' ∉ t) : invocation? t = none := by
  have word {w : Text} (hw : w ∈ t.words) : invokedName? w = none :=
    invokedName?_of_not_mem fun mark => h ((Text.of_mem_fields hw).2.2.mem mark)
  simp only [invocation?]
  split
  · rename_i call words
    rw [word (words ▸ List.mem_cons_self)]
    rfl
  · rename_i label call words
    rw [word (words ▸ List.mem_cons_of_mem _ List.mem_cons_self)]
    exact ite_self none
  · rfl

theorem plain_of_marks (begun : t ≠ []) (first : t.head? ≠ some '#') (calls : '!' ∉ t) :
    Plain t := by
  refine ⟨begun, ?_, ?_, invocation?_of_not_mem calls⟩
  · rintro rfl
    exact first rfl
  · cases t with
    | nil => exact absurd rfl begun
    | cons c t =>
      have other : ('#' == c) = false := by
        rw [beq_eq_false_iff_ne]
        rintro rfl
        exact first rfl
      have word : defineWord = '#' :: "define".toList := by decide
      rw [startsDefinition, word, List.isPrefixOf_cons_cons, other, Bool.false_and]

end Expansion

end Stepwise

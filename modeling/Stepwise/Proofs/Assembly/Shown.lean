/-
  Stepwise/Proofs/Assembly/Shown.lean
  ===================================
  **What the expander shows of a source that keeps hashes and exclamation marks for it.**

  In such a source (`Reserves`) every line that is shown is in normal form, begins with no
  hash, and holds no exclamation mark but at its end (`Shown`).  A line that is shown as it
  is was like that, and so were the bodies of macros.  Tags keep it so: they consist of the
  name of a macro, a number and two marks, none of which is a slash or an exclamation mark,
  and a tag begins with a letter of the name.
-/
import Stepwise.Proofs.Assembly.Expanding
import Stepwise.Proofs.Assembly.NormalForm
import Stepwise.Proofs.Text.Numeral

namespace Stepwise

namespace Expansion

open Text (NormalForm Small)

variable {s s' : State} {line : SourceLine} {texts : List Text} {t u name : Text} {c : Char}
  {n : Nat} {source : Text}

/-- Names of macros are words of ASCII letters, digits and underscores; a hash stands in
    directives only, and an exclamation mark only at the end of invocations.  Comments do
    not count: they are not in normal forms. -/
structure Reserves (source : Text) : Prop where
  names : ∀ line ∈ SourceLine.ofSource source, ∀ name, headerName? line.text = some name →
    ∀ c ∈ name, c.isAlphanum = true ∨ c = '_'
  hashes : ∀ line ∈ SourceLine.ofSource source, '#' ∈ line.text →
    line.text = enddefineWord ∨ startsDefinition line.text = true
  calls : ∀ line ∈ SourceLine.ofSource source, '!' ∈ line.text →
    (invocation? line.text).isSome = true ∧ '!' ∉ line.text.dropLast

/-! ### Exclamation marks -/

/-- An exclamation mark stands nowhere but at the end. -/
def CallsLast (t : Text) : Prop := t.IsChain fun c _ => c ≠ '!'

theorem callsLast_iff : CallsLast t ↔ '!' ∉ t.dropLast := by
  induction t with
  | nil => simp [CallsLast]
  | cons c t ih =>
    rw [CallsLast, List.isChain_cons, ← CallsLast, ih]
    cases t with
    | nil => simp
    | cons d t => simp [eq_comm]

theorem callsLast_of_not_mem (h : '!' ∉ t) : CallsLast t :=
  callsLast_iff.mpr fun mark => h (List.dropLast_subset t mark)

theorem CallsLast.getLast? (h : CallsLast t) (mark : '!' ∈ t) : t.getLast? = some '!' := by
  have begun : t ≠ [] := List.ne_nil_of_mem mark
  rw [← List.dropLast_append_getLast begun, List.mem_append] at mark
  rcases mark with inner | last
  · exact absurd inner (callsLast_iff.mp h)
  · rw [List.getLast?_eq_some_getLast begun, List.mem_singleton.mp last]

/-! ### Tags -/

/-- The character stands in tags. -/
def Tags (c : Char) : Prop := Small c ∧ Text.isBlank c = false ∧ c ≠ '/' ∧ c ≠ '!'

instance (c : Char) : Decidable (Tags c) := inferInstanceAs (Decidable (_ ∧ _))

/-- The text can be the name of a macro. -/
structure Names (name : Text) : Prop where
  begun : name ≠ []
  tags : ∀ c ∈ name, Tags c
  unmarked : '#' ∉ name

theorem tags_of_digit (digit : c.isDigit = true) : Tags c := by
  have all : ∀ c ∈ "0123456789".toList, Tags c := by decide +kernel
  exact all c (Text.mem_digits digit)

theorem Names.tags_tag (h : Names name) (n : Nat) : ∀ c ∈ tag name n, Tags c := by
  have number : ∀ c ∈ Text.ofNat n, Tags c :=
    fun c hc => tags_of_digit (Text.isDigit_of_mem_ofNat hc)
  simp only [tag, List.append_assoc, List.cons_append, List.forall_mem_append, List.forall_mem_cons]
  exact ⟨h.tags, by decide +kernel, number, by decide +kernel, by simp⟩

theorem Names.normalForm_tag (h : Names name) (n : Nat) : NormalForm (tag name n) where
  small := fun c hc => (h.tags_tag n c hc).1
  uncommented := Text.uncommented_of_not_mem fun slash => (h.tags_tag n _ slash).2.2.1 rfl
  first := fun c hc => (h.tags_tag n c (List.mem_of_head? hc)).2.1
  last := fun c hc => (h.tags_tag n c (List.mem_of_getLast? hc)).2.1
  unbroken := fun feed => absurd (h.tags_tag n _ feed).2.1 (by decide)

@[simp] theorem tag_ne_nil (name : Text) (n : Nat) : tag name n ≠ [] := by simp [tag]

@[simp] theorem getLast?_tag (name : Text) (n : Nat) : (tag name n).getLast? = some '#' :=
  List.getLast?_concat

theorem Names.head?_tag (h : Names name) (n : Nat) : (tag name n).head? ≠ some '#' := by
  obtain ⟨c, more, rfl⟩ := List.exists_cons_of_ne_nil h.begun
  intro hash
  cases hash
  exact h.unmarked List.mem_cons_self

/-! ### Lines -/

/-- The text is one that the expander shows. -/
structure Shown (t : Text) : Prop where
  normal : NormalForm t
  begun : t ≠ []
  unmarked : t.head? ≠ some '#'
  calls : CallsLast t

theorem Shown.behind_tag (ht : Shown t) (h : Names name) (n : Nat) : Shown (tag name n ++ t) where
  normal := (h.normalForm_tag n).append ht.normal (.inl (by simp))
  begun := by simp [tag]
  unmarked := by
    rw [List.head?_append_of_ne_nil _ (tag_ne_nil name n)]
    exact h.head?_tag n
  calls := by
    refine List.isChain_append.mpr ⟨?_, ht.calls, ?_⟩
    · exact callsLast_of_not_mem fun mark => (h.tags_tag n _ mark).2.2.2 rfl
    · rw [getLast?_tag]
      rintro c hc d - rfl
      cases hc

theorem Shown.fill (ht : Shown t) (h : Names name) (n : Nat) : Shown (fill (tag name n) t) where
  normal := by
    refine (h.normalForm_tag n).fill (tag_ne_nil name n) (fun slash => ?_) ht.normal
    exact (h.tags_tag n _ slash).2.2.1 rfl
  begun := fun empty => ht.begun (Text.replacePair_eq_nil (tag_ne_nil name n) empty)
  unmarked := by
    intro hash
    rcases Text.head?_replacePair (tag_ne_nil name n) hash with ⟨hash, -⟩ | hash
    · exact h.head?_tag n hash
    · exact ht.unmarked hash
  calls := by
    refine Text.isChain_replacePair (tag_ne_nil name n) ?_ ?_ ?_ ht.calls
    · exact callsLast_of_not_mem fun mark => (h.tags_tag n _ mark).2.2.2 rfl
    · intro c mark d _
      exact mark
    · rintro d - c hc rfl
      rw [getLast?_tag] at hc
      cases hc

/-- A body line as a use of its macro shows it is one that can be shown. -/
theorem Shown.instantiate (ht : Shown t) (h : Names name) (n : Nat) :
    Shown (instantiate (tag name n) t) := by
  rw [Expansion.instantiate]
  split
  · exact (ht.behind_tag h n).fill h n
  · exact ht.fill h n

theorem Shown.of_word {word : Text} (ht : Shown t) (h : word ∈ t.words)
    (unmarked : word.head? ≠ some '#') : Shown word := by
  obtain ⟨begun, solid, part⟩ := Text.of_mem_fields h
  refine ⟨⟨?_, ?_, ?_, ?_, ?_⟩, begun, unmarked, List.IsChain.infix ht.calls part⟩
  · exact fun c hc => ht.normal.small c (part.mem hc)
  · exact List.IsChain.infix ht.normal.uncommented part
  · exact fun c hc => solid c (List.mem_of_head? hc)
  · exact fun c hc => solid c (List.mem_of_getLast? hc)
  · exact fun feed => ht.normal.unbroken (part.mem feed)

/-! ### Sources -/

/-- The macros known, and the one being read, have names and bodies that can be shown. -/
structure Sound (s : State) : Prop where
  macros : ∀ m ∈ s.macros, Names m.name ∧ ∀ t ∈ m.body, Shown t
  inside : ∀ d, s.inside = some d → Names d.name ∧ ∀ t ∈ d.body, Shown t

theorem headerName?_mem_words (h : headerName? t = some name) : name ∈ t.words := by
  simp only [headerName?] at h
  split at h
  · rename_i word name' words
    split at h
    · cases h
      rw [words]
      exact List.mem_cons_of_mem _ List.mem_cons_self
    · cases h
  · cases h

theorem label_mem_words {label : Text} (h : invocation? t = some (some label, name)) :
    label ∈ t.words := by
  simp only [invocation?] at h
  split at h
  · obtain ⟨_, -, h⟩ := Option.map_eq_some_iff.mp h
    cases h
  · rename_i word call words
    split at h
    · obtain ⟨_, -, h⟩ := Option.map_eq_some_iff.mp h
      cases h
      rw [words]
      exact List.mem_cons_self
    · cases h
  · cases h

theorem Reserves.names_of_header (h : Reserves source) (hl : line ∈ SourceLine.ofSource source)
    (header : headerName? line.text = some name) : Names name := by
  obtain ⟨begun, solid, part⟩ := Text.of_mem_fields (headerName?_mem_words header)
  have other {mark : Char} (alien : mark.isAlphanum = false ∧ mark ≠ '_') : mark ∉ name := by
    intro hc
    rcases h.names line hl name header mark hc with word | same
    · rw [alien.1] at word
      cases word
    · exact alien.2 same
  refine ⟨begun, fun c hc => ⟨?_, solid c hc, ?_, ?_⟩, other (by decide)⟩
  · exact (SourceLine.normalForm_of_mem hl).small c (part.mem hc)
  · rintro rfl
    exact other (by decide) hc
  · rintro rfl
    exact other (by decide) hc

theorem Reserves.unmarked (h : Reserves source) (hl : line ∈ SourceLine.ofSource source)
    (closed : line.text ≠ enddefineWord) (noDirective : startsDefinition line.text = false) :
    '#' ∉ line.text := by
  intro hash
  rcases h.hashes line hl hash with directive | directive
  · exact closed directive
  · rw [noDirective] at directive
    cases directive

theorem Reserves.shown (h : Reserves source) (hl : line ∈ SourceLine.ofSource source)
    (begun : line.text ≠ []) (closed : line.text ≠ enddefineWord)
    (noDirective : startsDefinition line.text = false) : Shown line.text := by
  refine ⟨SourceLine.normalForm_of_mem hl, begun, ?_, callsLast_iff.mpr ?_⟩
  · exact fun hash => h.unmarked hl closed noDirective (List.mem_of_head? hash)
  · by_cases mark : '!' ∈ line.text
    · exact (h.calls line hl mark).2
    · exact fun inner => mark (List.dropLast_subset _ inner)

theorem noDirective_of_bodyFlaw? (h : bodyFlaw? name t = none) : startsDefinition t = false := by
  simp only [bodyFlaw?] at h
  split at h
  · cases h
  · rename_i other
    simpa using other

theorem Sound.feeds (h : Reserves source) (hl : line ∈ SourceLine.ofSource source) (hs : Sound s)
    (feeds : Feeds s line s' texts) : Sound s' ∧ ∀ text ∈ texts, Shown text := by
  cases feeds with
  | closes d inside closing =>
    refine ⟨⟨?_, fun d' hd => by cases hd⟩, by simp⟩
    refine List.forall_mem_append.mpr ⟨hs.macros, List.forall_mem_singleton.mpr ?_⟩
    exact hs.inside d inside
  | passes d inside blank => exact ⟨hs, by simp⟩
  | collects d inside begun unclosed sound =>
    refine ⟨⟨hs.macros, ?_⟩, by simp⟩
    rintro d' hd
    cases hd
    obtain ⟨names, body⟩ := hs.inside d inside
    refine ⟨names, List.forall_mem_append.mpr ⟨body, List.forall_mem_singleton.mpr ?_⟩⟩
    exact h.shown hl begun unclosed (noDirective_of_bodyFlaw? sound)
  | blank outside blank => exact ⟨hs, by simp⟩
  | opens name outside starts header fresh =>
    refine ⟨⟨hs.macros, ?_⟩, by simp⟩
    rintro d hd
    cases hd
    exact ⟨h.names_of_header hl header, by simp⟩
  | shows outside begun closed noDirective plain =>
    exact ⟨hs, List.forall_mem_singleton.mpr (h.shown hl begun closed noDirective)⟩
  | invokes label name m outside begun closed noDirective calls known =>
    have shown := h.shown hl begun closed noDirective
    obtain ⟨names, body⟩ := hs.macros m (List.mem_of_find?_eq_some known)
    refine ⟨⟨?_, hs.inside⟩, List.forall_mem_append.mpr ⟨?_, ?_⟩⟩
    · intro used hm
      obtain ⟨m, known, rfl⟩ := List.mem_map.mp hm
      split
      · exact hs.macros m known
      · exact hs.macros m known
    · intro word hw
      cases Option.mem_toList.mp hw
      have part := label_mem_words calls
      refine shown.of_word part fun hash => h.unmarked hl closed noDirective ?_
      exact (Text.of_mem_fields part).2.2.mem (List.mem_of_head? hash)
    · intro text ht
      obtain ⟨t, inBody, rfl⟩ := List.mem_map.mp ht
      exact (body t inBody).instantiate names m.uses

/-- **All that is shown can be shown again.** -/
theorem Reserves.shown_of_expand {lines : List SourceLine} (h : Reserves source)
    (expands : expand source = .ok lines) : ∀ line ∈ lines, Shown line.text := by
  simp only [expand, bind_succeeds_iff, pure_succeeds_iff] at expands
  obtain ⟨⟨s, shown⟩, fed, -, -, rfl⟩ := expands
  have start : Sound {} := ⟨by simp, by simp⟩
  exact (feedAll_induction (fun _ _ _ _ hl hs feeds => hs.feeds h hl feeds) start fed).2

end Expansion

end Stepwise

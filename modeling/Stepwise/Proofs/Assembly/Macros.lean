/-
  Stepwise/Proofs/Assembly/Macros.lean
  ====================================
  **The macros that a source defines.**

  The names that the expander knows are those of the macros defined so far and of the
  definition that is open, and they only become more (`names_of_feeds`); when a source has
  been read to its end, no definition is open, and they are the names of its macros
  (`macros`).  No name is defined twice (`distinct_of_feedAll`).

  Macros of other names are passed over: a state with some more of them in front expands the
  same lines to the same texts, whatever the numbers of the lines are (`feedAll_behind`).
-/
import Mathlib.Data.List.Nodup
import Stepwise.Proofs.Assembly.Expanding

namespace Stepwise

/-- The line with its number moved up. -/
def SourceLine.later (k : Nat) (line : SourceLine) : SourceLine :=
  { line with number := k + line.number }

namespace Expansion

variable {s s' : State} {line : SourceLine} {lines shown : List SourceLine} {texts : List Text}
  {name : Text} {m : Macro} {front : List Macro} {source : Text}

/-! ### The macros of a source -/

/-- The macros of a source that is not refused, each with the number of its uses. -/
def macros (source : Text) : List Macro :=
  match State.feedAll {} (SourceLine.ofSource source) with
  | .ok (s, _) => s.macros
  | .error _ => []

/-- A source is expanded exactly if all its lines are read and no definition is left open. -/
theorem expand_succeeds_iff :
    expand source = .ok lines ↔
      State.feedAll {} (SourceLine.ofSource source) = .ok (⟨macros source, none⟩, lines) := by
  simp only [expand, macros, bind_succeeds_iff, pure_succeeds_iff, Prod.exists]
  cases fed : State.feedAll {} (SourceLine.ofSource source) with
  | error e => simp
  | ok answer =>
    obtain ⟨⟨macros, inside⟩, shown⟩ := answer
    cases inside <;> simp [State.close]

/-! ### Names -/

namespace State

/-- The names of the macros defined so far, and of the one that is being defined. -/
def names (s : State) : List Text := s.macros.map (·.name) ++ (s.inside.map (·.name)).toList

theorem mem_names_of_find? (h : s.find? name = some m) : name ∈ s.names := by
  have known : m ∈ s.macros := List.mem_of_find?_eq_some h
  have same : m.name = name := by simpa using List.find?_some h
  exact List.mem_append_left _ (same ▸ List.mem_map_of_mem known)

theorem find?_eq_none_iff : s.find? name = none ↔ name ∉ s.macros.map (·.name) := by
  simp [find?]

theorem names_countUse (s : State) (name : Text) : (s.countUse name).names = s.names := by
  have same (m : Macro) : (if m.name = name then { m with uses := m.uses + 1 } else m).name =
      m.name := by
    split <;> rfl
  simp [names, countUse, Function.comp_def, same]

end State

/-- Names are added at the end, and none is taken away. -/
theorem names_of_feeds (h : Feeds s line s' texts) : s.names <+: s'.names := by
  cases h with
  | closes d inside closing =>
    simp [State.names, inside]
  | passes | blank | shows => exact List.prefix_rfl
  | collects d inside begun open_ sound => simp [State.names, inside]
  | opens name outside starts header fresh => simp [State.names, outside]
  | invokes label name m outside begun closed noDirective calls known =>
    exact (State.names_countUse s name).symm ▸ List.prefix_rfl

theorem names_of_feedAll (h : s.feedAll lines = .ok (s', shown)) : s.names <+: s'.names := by
  have kept := feedAll_induction (P := fun r => s.names <+: r.names) (Q := fun _ => True)
    (fun _ _ _ _ _ within feeds => ⟨within.trans (names_of_feeds feeds), by simp⟩)
    List.prefix_rfl h
  exact kept.1

theorem distinct_of_feeds (h : Feeds s line s' texts) (distinct : s.names.Nodup) :
    s'.names.Nodup := by
  cases h with
  | closes d inside closing => simpa [State.names, inside] using distinct
  | passes | blank | shows => exact distinct
  | collects d inside begun open_ sound => simpa [State.names, inside] using distinct
  | opens name outside starts header fresh =>
    have new := State.find?_eq_none_iff.mp fresh
    rw [State.names, outside, Option.map_none, Option.toList_none, List.append_nil] at distinct
    refine List.nodup_append.mpr ⟨distinct, List.nodup_singleton name, ?_⟩
    rintro known hk other ho rfl
    obtain rfl : known = name := List.mem_singleton.mp ho
    exact new hk
  | invokes label name m outside begun closed noDirective calls known =>
    rwa [State.names_countUse]

/-- **No macro is defined twice.** -/
theorem distinct_of_feedAll (h : s.feedAll lines = .ok (s', shown)) (distinct : s.names.Nodup) :
    s'.names.Nodup := by
  have kept := feedAll_induction (P := fun r => r.names.Nodup) (Q := fun _ => True)
    (fun _ _ _ _ _ distinct feeds => ⟨distinct_of_feeds feeds distinct, by simp⟩) distinct h
  exact kept.1

/-! ### Other macros -/

namespace State

/-- The state of an expander that has read other definitions before, and some lines more. -/
def behind (front : List Macro) (k : Nat) (s : State) : State where
  macros := front ++ s.macros
  inside := s.inside.map fun d => { d with opened := k + d.opened }

theorem find?_behind (apart : name ∉ front.map (·.name)) (k : Nat) :
    (s.behind front k).find? name = s.find? name := by
  have none : front.find? (fun m => m.name == name) = none := by
    rw [List.find?_eq_none]
    intro m hm same
    exact apart (beq_iff_eq.mp same ▸ List.mem_map_of_mem hm)
  simp [find?, behind, none]

theorem countUse_behind (apart : name ∉ front.map (·.name)) (k : Nat) :
    (s.behind front k).countUse name = (s.countUse name).behind front k := by
  have same : front.map (fun m => if m.name = name then { m with uses := m.uses + 1 } else m) =
      front := by
    refine (List.map_congr_left fun m hm => if_neg ?_).trans (List.map_id front)
    rintro rfl
    exact apart (List.mem_map_of_mem hm)
  simp [countUse, behind, same]

end State

/-- Macros whose names do not come up make no difference. -/
theorem Feeds.behind (h : Feeds s line s' texts)
    (apart : ∀ name ∈ s'.names, name ∉ front.map (·.name)) (k : Nat) :
    Feeds (s.behind front k) (line.later k) (s'.behind front k) texts := by
  have grown := (names_of_feeds h).subset
  cases h with
  | closes d inside closing =>
    have answer : Feeds (s.behind front k) (line.later k) _ [] :=
      .closes { d with opened := k + d.opened } (by rw [State.behind, inside]; rfl) closing
    simpa [State.behind] using answer
  | passes d inside blank =>
    exact .passes _ (by rw [State.behind, inside]; rfl) blank
  | collects d inside begun open_ sound =>
    exact .collects { d with opened := k + d.opened } (by rw [State.behind, inside]; rfl) begun
      open_ sound
  | blank outside blank => exact .blank (by rw [State.behind, outside]; rfl) blank
  | opens name outside starts header fresh =>
    have new : name ∉ front.map (·.name) := apart name (by simp [State.names])
    refine .opens name (by rw [State.behind, outside]; rfl) starts header ?_
    rw [State.find?_behind new, fresh]
  | shows outside begun closed noDirective plain =>
    exact .shows (by rw [State.behind, outside]; rfl) begun closed noDirective plain
  | invokes label name m outside begun closed noDirective calls known =>
    have other : name ∉ front.map (·.name) := apart name (grown (State.mem_names_of_find? known))
    rw [← State.countUse_behind other]
    have quiet : (s.behind front k).inside = none := by rw [State.behind, outside]; rfl
    refine .invokes label name m quiet begun closed noDirective calls ?_
    rw [State.find?_behind other, known]

/-- **Lines are expanded alike behind other definitions**, as long as these have other names
    than those that the lines define. -/
theorem feedAll_behind (h : s.feedAll lines = .ok (s', shown))
    (apart : ∀ name ∈ s'.names, name ∉ front.map (·.name)) (k : Nat) :
    (s.behind front k).feedAll (lines.map (·.later k)) =
      .ok (s'.behind front k, shown.map (·.later k)) := by
  induction lines generalizing s shown with
  | nil =>
    cases h
    rfl
  | cons line lines ih =>
    obtain ⟨s₁, first, more, fed, rest, rfl⟩ := feedAll_cons_succeeds_iff.mp h
    obtain ⟨texts, feeds, rfl⟩ := feeds_of_feed fed
    have passed : ∀ name ∈ s₁.names, name ∉ front.map (·.name) :=
      fun name hn => apart name ((names_of_feedAll rest).subset hn)
    have here := (feeds.behind passed k).feed
    refine feedAll_cons_succeeds_iff.mpr ⟨_, _, _, here, ih rest, ?_⟩
    rw [List.map_append, List.map_map]
    rfl

/-- Lines one behind the other are read one behind the other. -/
theorem feedAll_append_succeeds_iff {back : List SourceLine} :
    s.feedAll (lines ++ back) = .ok (s', shown) ↔
      ∃ s₁ first more, s.feedAll lines = .ok (s₁, first) ∧ s₁.feedAll back = .ok (s', more) ∧
        shown = first ++ more := by
  induction lines generalizing s shown with
  | nil => simp [State.feedAll]
  | cons line lines ih =>
    simp only [List.cons_append, feedAll_cons_succeeds_iff, ih]
    constructor
    · rintro ⟨s₁, first, -, fed, ⟨s₂, second, more, front, rest, rfl⟩, rfl⟩
      exact ⟨s₂, first ++ second, more, ⟨s₁, first, second, fed, front, rfl⟩, rest, by simp⟩
    · rintro ⟨s₂, -, more, ⟨s₁, first, second, fed, front, rfl⟩, rest, rfl⟩
      exact ⟨s₁, first, second ++ more, fed, ⟨s₂, second, more, front, rest, rfl⟩, by simp⟩

end Expansion

end Stepwise

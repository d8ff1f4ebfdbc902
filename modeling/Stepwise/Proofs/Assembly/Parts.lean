/-
  Stepwise/Proofs/Assembly/Parts.lean
  ===================================
  **The parts of an expanded source: own lines, and uses of macros.**

  What expansion leaves of a source is put together from lines of the source itself and
  from uses of macros (`parts`, `flatMap_parts_of_expand`).  The uses of one macro are
  numbered from zero in their order (`numbered_of_expand`), and each shows the body of a macro
  that the source defines (`exists_macro_of_use`).  That body consists of the lines between the
  header and the first line behind it that closes the definition, blank ones left out
  (`definedIn_of_expand`).
-/
import Mathlib.Data.List.Range
import Stepwise.Proofs.Assembly.Layout
import Stepwise.Proofs.Assembly.Macros

namespace Stepwise

namespace Expansion

/-! ### Parts -/

/-- The nth use of a macro, counted from zero, and the number of the line that invokes it. -/
structure Use where
  number : Nat
  name : Text
  nth : Nat
  body : List Text
deriving DecidableEq, Repr

namespace Use

def tag (u : Use) : Text := Expansion.tag u.name u.nth

/-- A body line as the use shows it. -/
def line (u : Use) (t : Text) : SourceLine := ⟨u.number, instantiate u.tag t⟩

def lines (u : Use) : List SourceLine := u.body.map u.line

end Use

/-- Something that lines which are left by expansion come from. -/
inductive Part where
  | own (line : SourceLine)
  | use (u : Use)
deriving DecidableEq, Repr

namespace Part

def lines : Part → List SourceLine
  | own line => [line]
  | use u => u.lines

/-- The number of a use of the macro of a given name. -/
def nth? (name : Text) : Part → Option Nat
  | own _ => none
  | use u => if u.name = name then some u.nth else none

/-- The names that the lines of the part declare. -/
def labels (p : Part) : List Text := p.lines.filterMap SourceLine.declared?

end Part

/-- What a line stands for that is read outside every definition.  The label in front of an
    invocation is a line of its own. -/
def State.partsOf (s : State) (line : SourceLine) : List Part :=
  if s.inside.isSome || line.text.isEmpty || startsDefinition line.text then []
  else
    match invocation? line.text with
    | none => [.own line]
    | some (label, name) =>
      (label.toList.map fun text => .own { line with text })
        ++ (s.find? name).toList.map fun m => .use ⟨line.number, name, m.uses, m.body⟩

/-- What lines stand for that are read one after the other. -/
def State.parts (s : State) : List SourceLine → List Part
  | [] => []
  | line :: rest =>
    match s.feed line with
    | .error _ => []
    | .ok (s', _) => s.partsOf line ++ s'.parts rest

/-- The parts of a source. -/
def parts (source : Text) : List Part := State.parts {} (SourceLine.ofSource source)

variable {s s' : State} {line : SourceLine} {lines past shown : List SourceLine} {texts : List Text}
  {name : Text} {m : Macro} {source : Text}

/-! ### Definitions -/

/-- The lines between a header and the line that closes its definition: none of them closes it,
    none is at fault, and the body is what is not blank of them. -/
structure Encloses (name : Text) (header : SourceLine) (inner : List SourceLine)
    (body : List Text) : Prop where
  header : headerName? header.text = some name
  unclosed : ∀ line ∈ inner, line.text ≠ enddefineWord
  kept : body = (inner.map (·.text)).filter (!·.isEmpty)
  sound : ∀ t ∈ body, bodyFlaw? name t = none

/-- The lines hold a definition of a macro, from its header to the line that closes it. -/
def DefinedIn (lines : List SourceLine) (name : Text) (body : List Text) : Prop :=
  ∃ front header inner closing back, lines = front ++ header :: inner ++ closing :: back ∧
    Encloses name header inner body ∧ closing.text = enddefineWord

theorem DefinedIn.append {body : List Text} (h : DefinedIn lines name body)
    (more : List SourceLine) : DefinedIn (lines ++ more) name body := by
  obtain ⟨front, header, inner, closing, back, rfl, encloses, closes⟩ := h
  exact ⟨front, header, inner, closing, back ++ more, by simp, encloses, closes⟩

/-- The state is that behind the given lines as far as definitions go: all that is defined is
    defined in them, and what is open has been opened in them. -/
structure Tracks (past : List SourceLine) (s : State) : Prop where
  macros : ∀ m ∈ s.macros, DefinedIn past m.name m.body
  inside : ∀ d, s.inside = some d →
    ∃ front header inner, past = front ++ header :: inner ∧ Encloses d.name header inner d.body

theorem Tracks.feeds (tracks : Tracks past s) (h : Feeds s line s' texts) :
    Tracks (past ++ [line]) s' := by
  have kept : ∀ m ∈ s.macros, DefinedIn (past ++ [line]) m.name m.body :=
    fun m hm => (tracks.macros m hm).append [line]
  have outer (outside : s.inside = none) (d : Definition) (inside : s.inside = some d) :
      ∃ front header inner, past ++ [line] = front ++ header :: inner ∧
        Encloses d.name header inner d.body := by
    rw [outside] at inside
    cases inside
  cases h with
  | closes d inside closing =>
    obtain ⟨front, header, inner, rfl, encloses⟩ := tracks.inside d inside
    refine ⟨List.forall_mem_append.mpr ⟨kept, List.forall_mem_singleton.mpr ?_⟩, ?_⟩
    swap
    · intro _ hd
      cases hd
    exact ⟨front, header, inner, line, [], rfl, encloses, closing⟩
  | passes d inside blank =>
    refine ⟨kept, fun d' hd => ?_⟩
    obtain ⟨front, header, inner, rfl, encloses⟩ := tracks.inside d' hd
    refine ⟨front, header, inner ++ [line], by simp, encloses.header, ?_, ?_, encloses.sound⟩
    · refine List.forall_mem_append.mpr ⟨encloses.unclosed, List.forall_mem_singleton.mpr ?_⟩
      rw [blank]
      decide
    · simp [encloses.kept, blank]
  | collects d inside begun unclosed sound =>
    refine ⟨kept, fun d' hd => ?_⟩
    obtain ⟨front, header, inner, rfl, encloses⟩ := tracks.inside d inside
    cases hd
    refine ⟨front, header, inner ++ [line], by simp, encloses.header, ?_, ?_, ?_⟩
    · exact List.forall_mem_append.mpr ⟨encloses.unclosed, List.forall_mem_singleton.mpr unclosed⟩
    · simp [encloses.kept, begun]
    · exact List.forall_mem_append.mpr ⟨encloses.sound, List.forall_mem_singleton.mpr sound⟩
  | blank outside | shows outside => exact ⟨kept, outer outside⟩
  | opens name outside starts header fresh =>
    refine ⟨kept, fun d hd => ?_⟩
    cases hd
    exact ⟨past, line, [], rfl, header, by simp, rfl, by simp⟩
  | invokes label name m outside begun closed noDirective calls known =>
    refine ⟨fun used hm => ?_, outer outside⟩
    obtain ⟨m, known, rfl⟩ := List.mem_map.mp hm
    split
    · exact kept m known
    · exact kept m known

theorem Tracks.feedAll (tracks : Tracks past s) (h : s.feedAll lines = .ok (s', shown)) :
    Tracks (past ++ lines) s' := by
  induction lines generalizing past s shown with
  | nil =>
    cases h
    rwa [List.append_nil]
  | cons line lines ih =>
    obtain ⟨s₁, first, more, fed, rest, -⟩ := feedAll_cons_succeeds_iff.mp h
    obtain ⟨texts, feeds, -⟩ := feeds_of_feed fed
    rw [← List.singleton_append, ← List.append_assoc]
    exact ih (tracks.feeds feeds) rest

/-- **The macros of a source are those that it defines.** -/
theorem definedIn_of_expand (expands : expand source = .ok lines) (hm : m ∈ macros source) :
    DefinedIn (SourceLine.ofSource source) m.name m.body := by
  have start : Tracks [] {} := ⟨by simp, by simp⟩
  exact (start.feedAll (expand_succeeds_iff.mp expands)).macros m hm

/-! ### What is left -/

theorem parts_cons {first : List SourceLine} (fed : s.feed line = .ok (s', first))
    (rest : List SourceLine) : s.parts (line :: rest) = s.partsOf line ++ s'.parts rest := by
  simp only [State.parts, fed]

theorem find?_name (known : s.find? name = some m) : m.name = name := by
  simpa using List.find?_some known

theorem partsOf_invocation {label : Option Text} (outside : s.inside = none)
    (begun : line.text ≠ []) (noDirective : startsDefinition line.text = false)
    (calls : invocation? line.text = some (label, name)) (known : s.find? name = some m) :
    s.partsOf line =
      label.toList.map (fun text => .own { line with text })
        ++ [.use ⟨line.number, name, m.uses, m.body⟩] := by
  simp [State.partsOf, outside, begun, noDirective, calls, known]

theorem partsOf_of_feeds (h : Feeds s line s' texts) :
    (s.partsOf line).flatMap Part.lines = texts.map fun text => ⟨line.number, text⟩ := by
  cases h with
  | closes d inside | passes d inside | collects d inside => simp [State.partsOf, inside]
  | blank outside blank => simp [State.partsOf, blank]
  | opens name outside starts => simp [State.partsOf, starts]
  | shows outside begun closed noDirective plain =>
    simp [State.partsOf, outside, begun, noDirective, plain, Part.lines]
  | invokes label name m outside begun closed noDirective calls known =>
    rw [partsOf_invocation outside begun noDirective calls known, List.map_append, Macro.expand,
      find?_name known, List.map_map]
    cases label <;> simp [Part.lines, Use.lines, Use.line, Use.tag]

theorem flatMap_parts_of_feedAll (h : s.feedAll lines = .ok (s', shown)) :
    (s.parts lines).flatMap Part.lines = shown := by
  induction lines generalizing s shown with
  | nil =>
    cases h
    rfl
  | cons line lines ih =>
    obtain ⟨s₁, first, more, fed, rest, rfl⟩ := feedAll_cons_succeeds_iff.mp h
    obtain ⟨texts, feeds, rfl⟩ := feeds_of_feed fed
    rw [parts_cons fed, List.flatMap_append, ih rest, partsOf_of_feeds feeds]

/-- **What is left of a source are the lines of its parts.** -/
theorem flatMap_parts_of_expand (expands : expand source = .ok lines) :
    (parts source).flatMap Part.lines = lines :=
  flatMap_parts_of_feedAll (expand_succeeds_iff.mp expands)

/-! ### Macros that are used -/

theorem find?_countUse (name name' : Text) :
    (s.countUse name).find? name' =
      (s.find? name').map fun m => if m.name = name then { m with uses := m.uses + 1 } else m := by
  -- counting a use leaves the names as they are
  have same : ((fun m : Macro => m.name == name') ∘
      fun m => if m.name = name then { m with uses := m.uses + 1 } else m) =
        fun m => m.name == name' := by
    funext m
    rw [Function.comp_apply]
    split <;> rfl
  rw [State.find?, State.countUse, List.find?_map, same]
  rfl

/-- No macro is forgotten, and none is given another body. -/
theorem macro_of_feeds (h : Feeds s line s' texts) (hm : m ∈ s.macros) :
    ∃ m' ∈ s'.macros, m'.name = m.name ∧ m'.body = m.body := by
  cases h with
  | closes => exact ⟨m, List.mem_append_left _ hm, rfl, rfl⟩
  | passes | collects | blank | opens | shows => exact ⟨m, hm, rfl, rfl⟩
  | invokes =>
    refine ⟨_, List.mem_map_of_mem hm, ?_⟩
    split <;> exact ⟨rfl, rfl⟩

theorem macro_of_feedAll (h : s.feedAll lines = .ok (s', shown)) (hm : m ∈ s.macros) :
    ∃ m' ∈ s'.macros, m'.name = m.name ∧ m'.body = m.body := by
  have kept := feedAll_induction (Q := fun _ => True)
    (P := fun r => ∃ m' ∈ r.macros, m'.name = m.name ∧ m'.body = m.body)
    (fun _ _ _ _ _ known feeds => by
      obtain ⟨m₁, hm₁, name, body⟩ := known
      obtain ⟨m₂, hm₂, name', body'⟩ := macro_of_feeds feeds hm₁
      exact ⟨⟨m₂, hm₂, name'.trans name, body'.trans body⟩, by simp⟩)
    ⟨m, hm, rfl, rfl⟩ h
  exact kept.1

theorem mem_macros_of_mem_partsOf {u : Use} (hu : .use u ∈ s.partsOf line) :
    ∃ m ∈ s.macros, m.name = u.name ∧ m.body = u.body := by
  simp only [State.partsOf] at hu
  split at hu
  · cases hu
  · split at hu
    · simp at hu
    · rename_i label name calls
      simp only [List.mem_append, List.mem_map, reduceCtorEq, and_false, exists_false, false_or,
        Option.mem_toList] at hu
      obtain ⟨m, known, same⟩ := hu
      cases same
      exact ⟨m, List.mem_of_find?_eq_some known, find?_name known, rfl⟩

theorem exists_macro_of_feedAll {u : Use} (h : s.feedAll lines = .ok (s', shown))
    (hu : .use u ∈ s.parts lines) : ∃ m ∈ s'.macros, m.name = u.name ∧ m.body = u.body := by
  induction lines generalizing s shown with
  | nil => cases hu
  | cons line lines ih =>
    obtain ⟨s₁, first, more, fed, rest, -⟩ := feedAll_cons_succeeds_iff.mp h
    rw [parts_cons fed] at hu
    rcases List.mem_append.mp hu with here | later
    · obtain ⟨m, hm, name, body⟩ := mem_macros_of_mem_partsOf here
      obtain ⟨m', hm', name', body'⟩ := macro_of_feedAll h hm
      exact ⟨m', hm', name'.trans name, body'.trans body⟩
    · exact ih rest later

/-- **Each use shows the body of a macro of the source.** -/
theorem exists_macro_of_use {u : Use} (expands : expand source = .ok lines)
    (hu : .use u ∈ parts source) : ∃ m ∈ macros source, m.name = u.name ∧ m.body = u.body :=
  exists_macro_of_feedAll (expand_succeeds_iff.mp expands) hu

/-! ### Numbers of uses -/

/-- How often the macro of a given name has been used. -/
def State.usesOf (s : State) (name : Text) : Nat := ((s.find? name).map (·.uses)).getD 0

theorem usesOf_of_feeds (h : Feeds s line s' texts) (name : Text) :
    ∃ count, (s.partsOf line).filterMap (Part.nth? name) = List.range' (s.usesOf name) count ∧
      s'.usesOf name = s.usesOf name + count := by
  cases h with
  | closes d inside closing =>
    refine ⟨0, by simp [State.partsOf, inside], ?_⟩
    simp only [State.usesOf, State.find?, List.find?_append, Nat.add_zero]
    cases s.macros.find? (fun m => m.name == name) with
    | some m => rfl
    | none =>
      -- the new macro has not been used yet
      simp only [Option.none_or, List.find?_cons]
      split <;> rfl
  | passes d inside | collects d inside =>
    exact ⟨0, by simp [State.partsOf, inside], rfl⟩
  | blank outside blank => exact ⟨0, by simp [State.partsOf, blank], rfl⟩
  | opens name' outside starts => exact ⟨0, by simp [State.partsOf, starts], rfl⟩
  | shows outside begun closed noDirective plain =>
    exact ⟨0, by simp [State.partsOf, outside, begun, noDirective, plain, Part.nth?], rfl⟩
  | invokes label name' m outside begun closed noDirective calls known =>
    have named := find?_name known
    have parts : (s.partsOf line).filterMap (Part.nth? name) =
        if name' = name then [m.uses] else [] := by
      rw [partsOf_invocation outside begun noDirective calls known]
      cases label <;> by_cases same : name' = name <;>
        simp [List.filterMap_cons, Part.nth?, same]
    rw [parts, State.usesOf, State.usesOf, find?_countUse]
    by_cases same : name' = name
    · subst same
      exact ⟨1, by simp [known], by simp [known, named]⟩
    · refine ⟨0, by simp [same], ?_⟩
      cases other : s.find? name with
      | none => rfl
      | some m' =>
        have alien : m'.name ≠ name' := fun own => same (own ▸ find?_name other)
        simp [alien]

theorem numbered_of_feedAll (h : s.feedAll lines = .ok (s', shown)) (name : Text) :
    ∃ count, (s.parts lines).filterMap (Part.nth? name) = List.range' (s.usesOf name) count := by
  induction lines generalizing s shown with
  | nil => exact ⟨0, rfl⟩
  | cons line lines ih =>
    obtain ⟨s₁, first, more, fed, rest, -⟩ := feedAll_cons_succeeds_iff.mp h
    obtain ⟨texts, feeds, -⟩ := feeds_of_feed fed
    obtain ⟨here, front, next⟩ := usesOf_of_feeds feeds name
    obtain ⟨later, back⟩ := ih rest
    refine ⟨here + later, ?_⟩
    rw [parts_cons fed, List.filterMap_append, front, back, next, List.range'_append_1]

/-- **The uses of a macro are numbered from zero**, in their order. -/
theorem numbered_of_expand (expands : expand source = .ok lines) (name : Text) :
    ∃ count, (parts source).filterMap (Part.nth? name) = List.range count := by
  obtain ⟨count, numbered⟩ := numbered_of_feedAll (expand_succeeds_iff.mp expands) name
  exact ⟨count, numbered.trans List.range_eq_range'.symm⟩

end Expansion

end Stepwise

/-
  Stepwise/Proofs/Machine/Play.lean
  =================================
  **The run of a program, when all there is to a run is what its reads are given.**

  A play is a run without a clock, a client or a queue.  It pushes the seed if there is
  one, steps, and answers each read with the next of its input texts.  What it does next
  is a function (`next`), so the deltas it gives are a sequence fixed by the program, the
  limits, the seed and the texts (`Plays.unique`), and texts that no read has asked for
  yet cannot change it (`Plays.more`).
-/
import Stepwise.Protocol.Inbound
import Stepwise.Proofs.Machine.Record

namespace Stepwise

namespace Machine

/-- Where a play stands; without arguments, at its start, with nothing to give to reads. -/
structure Play where
  state : State := {}
  /-- The value that is pushed before anything else, if it has not been yet. -/
  seed : Option Int := none
  /-- The texts for the reads to come, the next one first. -/
  inputs : List Text := []
deriving DecidableEq, Repr

/-- What a play does next. -/
inductive Next where
  | delta (d : Delta) (q : Play)
  | finished
  /-- Nothing; a read waits and there is no text for it. -/
  | starved
  /-- Nothing; the machine fails, or the next text is no value. -/
  | fault (f : Fault)
deriving DecidableEq, Repr

/-- What comes of a call of the machine, with the texts left for later reads. -/
def Next.ofCall (result : Except Fault Transition) (inputs : List Text) : Next :=
  match result with
  | .error f => .fault f
  | .ok t => .delta t.delta { state := t.state, inputs }

def answer (m : Machine) (s : State) (text : Text) : Except Fault Transition := do
  let v ← inputValue text
  m.resume s v

/-- What a play does next: the seed first, then steps, and answers where a read waits. -/
def next (m : Machine) (p : Play) : Next :=
  match p.seed with
  | some v => .ofCall (m.seed p.state v) p.inputs
  | none =>
    if p.state.isHalted then .finished
    else if p.state.awaiting then
      match p.inputs with
      | [] => .starved
      | text :: rest => .ofCall (m.answer p.state text) rest
    else .ofCall (m.step p.state) p.inputs

/-- The play `p` gives the deltas `ds`, in this order, and then stands at `q`. -/
inductive Plays (m : Machine) : Play → List Delta → Play → Prop where
  | refl (p : Play) : Plays m p [] p
  | cons {p q r : Play} {d : Delta} {ds : List Delta} (first : m.next p = .delta d q)
      (rest : Plays m q ds r) : Plays m p (d :: ds) r

def Stops (m : Machine) (p : Play) : Prop := ∀ d q, m.next p ≠ .delta d q

variable {m : Machine} {p q q' r : Play} {d : Delta} {ds ds' : List Delta} {s : State}
  {t : Transition} {v : Int}

theorem Plays.snoc (h : m.Plays p ds q) (last : m.next q = .delta d r) :
    m.Plays p (ds ++ [d]) r := by
  induction h with
  | refl p => exact .cons last (.refl r)
  | cons first _ ih => exact .cons first (ih last)

/-- **A play is determined by where it starts.** -/
theorem Plays.unique (h : m.Plays p ds q) (hq : m.Stops q) (h' : m.Plays p ds' q')
    (hq' : m.Stops q') : ds = ds' ∧ q = q' := by
  induction h generalizing ds' with
  | refl p =>
    cases h' with
    | refl => exact ⟨rfl, rfl⟩
    | cons first _ => exact absurd first (hq _ _)
  | cons first _ ih =>
    cases h' with
    | refl => exact absurd first (hq' _ _)
    | cons first' rest' =>
      cases first.symm.trans first'
      obtain ⟨rfl, rfl⟩ := ih hq rest'
      exact ⟨rfl, rfl⟩

/-! ### Texts that no read has asked for -/

def Play.more (p : Play) (texts : List Text) : Play := { p with inputs := p.inputs ++ texts }

/-- What comes next is the same with further texts, unless the play has none and waits. -/
theorem next_more (texts : List Text) (h : m.next p ≠ .starved) :
    m.next (p.more texts) =
      match m.next p with
      | .delta d q => .delta d (q.more texts)
      | other => other := by
  obtain ⟨state, seed, inputs⟩ := p
  have ofCall : ∀ result rest, Next.ofCall result (rest ++ texts) =
      match Next.ofCall result rest with
      | .delta d q => .delta d (q.more texts)
      | other => other := by
    intro result rest
    cases result <;> rfl
  cases seed with
  | some v => exact ofCall _ _
  | none =>
    simp only [next, Play.more] at h ⊢
    by_cases hh : state.isHalted = true
    · simp only [hh, if_true]
    · by_cases hw : state.awaiting = true
      · cases inputs with
        | nil => simp [hh, hw] at h
        | cons text rest =>
          simp only [hh, hw, if_true, if_false, Bool.false_eq_true, List.cons_append]
          exact ofCall _ _
      · simp only [hh, hw, if_false, Bool.false_eq_true]
        exact ofCall _ _

theorem Plays.more (h : m.Plays p ds q) (texts : List Text) :
    m.Plays (p.more texts) ds (q.more texts) := by
  induction h with
  | refl p => exact .refl _
  | cons first _ ih =>
    refine .cons ?_ ih
    rw [next_more texts (by simp [first]), first]

/-! ### Calls of the machine as parts of a play -/

theorem next_of_seed (v : Int) (inputs : List Text) :
    m.next { state := s, seed := some v, inputs } = .ofCall (m.seed s v) inputs := rfl

theorem next_of_step (hh : s.isHalted = false) (hw : s.awaiting = false) :
    m.next { state := s } = .ofCall (m.step s) [] := by
  simp [next, hh, hw]

theorem next_of_answer (hh : s.isHalted = false) (hw : s.awaiting = true) (text : Text) :
    m.next { state := s, inputs := [text] } = .ofCall (m.answer s text) [] := by
  simp [next, hh, hw]

theorem next_of_wait (hh : s.isHalted = false) (hw : s.awaiting = true) :
    m.next { state := s } = .starved := by
  simp [next, hh, hw]

theorem next_of_halted (hh : s.isHalted = true) : m.next { state := s } = .finished := by
  simp [next, hh]

theorem answer_cases {text : Text} (h : m.answer s text = .ok t) :
    ∃ v, inputValue text = .ok v ∧ m.resume s v = .ok t := by
  simpa only [answer, bind_succeeds_iff] using h

end Machine

end Stepwise

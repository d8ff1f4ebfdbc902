/-
  Stepwise/Proofs/Protocol/Lines.lean
  ===================================
  **The lines of a run tell all of it.**

  A client has nothing but lines.  It can read each of them back (`Event.ofLine?`), and the
  events of a delta set the parts of it one by one (`Delta.hear`), so no two deltas have the
  same lines.  Lines of several deltas in a row can be told apart, because every step and
  every answered read has exactly one thing to say about what comes next: where the pointer
  goes, what is asked for, or that the run is over (`Delta.endings`).  That is said last,
  and nothing like it is said before.

  So one reader (`Delta.readAll`) gets back the deltas of every run of every program, and with
  them the bank, the stack and the pointer after each.
-/
import Stepwise.Proofs.Assembly.RoundTrip
import Stepwise.Proofs.Machine.Mirror
import Stepwise.Protocol.Event

namespace Stepwise

open Machine

namespace Text

variable {v : Int}

/-! ### Values between bars -/

theorem ofInt_ne_nil (v : Int) : ofInt v ≠ [] := by
  cases v with
  | ofNat n => exact ofNat_ne_nil n
  | negSucc n => exact List.cons_ne_nil _ _

/-- The integers in a text with bars between them. -/
def barred? (t : Text) : Option (List Int) := (fields (· == '|') t).mapM toNegatableInt?

theorem barred?_bars (values : List Int) : barred? (Event.bars values) = some values := by
  have parts : fields (· == '|') (Event.bars values) = values.map ofInt := by
    refine fields_join (List.cons_ne_nil _ _) (by decide) ?_
    intro t ht
    obtain ⟨v, -, rfl⟩ := List.mem_map.mp ht
    refine ⟨ofInt_ne_nil v, fun c hc => ?_⟩
    rcases mem_ofInt hc with rfl | digit
    · rfl
    · rw [beq_eq_false_iff_ne]
      rintro rfl
      cases digit
  rw [barred?, parts]
  clear parts
  induction values with
  | nil => rfl
  | cons v values ih =>
    rw [List.map_cons, List.mapM_cons, ih, toNegatableInt?_ofInt]
    rfl

end Text

/-! ### Lines are read back -/

namespace InputTarget

/-- The target with a name. -/
def named? (t : Text) : Option InputTarget :=
  if t = "stack".toList then some stack else (Register.parse? t).map reg

theorem named?_text (target : InputTarget) : named? target.text = some target := by
  cases target with
  | stack => rfl
  | reg r =>
    have other : r.text ≠ "stack".toList := by
      intro same
      have parsed := Register.parse?_text r
      rw [same] at parsed
      cases parsed
    change (if r.text = "stack".toList then some stack else (Register.parse? r.text).map reg) = _
    rw [if_neg other, Register.parse?_text]
    rfl

end InputTarget

namespace Event

/-- The event says what a delta has changed. -/
def isChange : Event → Bool
  | registers _ | stack _ | output _ | consumed _ => true
  | _ => false

/-- The event says what comes next: where the run goes on, what it waits for, or that it is
    over. -/
def isEnding : Event → Bool
  | pointer _ | requested _ | finished => true
  | _ => false

/-- The event of a delta that a line tells; none for any other line, the last one of a run
    that has failed among them. -/
def ofLine? : Text → Option Event
  | '@' :: 'p' :: ' ' :: t => (Text.toNat? t).map pointer
  | '@' :: 'r' :: ' ' :: t => (Text.barred? t).map registers
  | '@' :: 's' :: ' ' :: t => (Text.barred? t).map fun values => stack values.reverse
  | '@' :: 'o' :: ' ' :: t => (Text.toNegatableInt? t).map output
  | '@' :: 'i' :: ' ' :: '?' :: t => (InputTarget.named? t).map requested
  | '@' :: 'i' :: ' ' :: t => (Text.toNegatableInt? t).map consumed
  | ['@', 'f'] => some finished
  | _ => none

theorem ofLine?_consumed (v : Int) : ofLine? (consumed v).line = some (consumed v) := by
  obtain ⟨c, rest, eq⟩ := List.exists_cons_of_ne_nil (Text.ofInt_ne_nil v)
  have other : c ≠ '?' := by
    rintro rfl
    have first : '?' ∈ Text.ofInt v := by rw [eq]; exact List.mem_cons_self
    rcases Text.mem_ofInt first with sign | digit
    · cases sign
    · cases digit
  have number : ofLine? ('@' :: 'i' :: ' ' :: c :: rest) =
      (Text.toNegatableInt? (c :: rest)).map consumed := by
    unfold ofLine?
    split <;> simp_all
  change ofLine? ('@' :: 'i' :: ' ' :: Text.ofInt v) = _
  rw [eq, number, ← eq, Text.toNegatableInt?_ofInt]
  rfl

/-- **Lines are read back as the events that they tell.** -/
theorem ofLine?_line {e : Event} (part : e.isChange = true ∨ e.isEnding = true) :
    ofLine? e.line = some e := by
  cases e with
  | pointer i =>
    change (Text.toNat? (Text.ofNat i)).map pointer = _
    rw [Text.toNat?_ofNat]
    rfl
  | registers values =>
    change (Text.barred? (bars values)).map registers = _
    rw [Text.barred?_bars]
    rfl
  | stack values =>
    change (Text.barred? (bars values.reverse)).map (fun values => stack values.reverse) = _
    rw [Text.barred?_bars, Option.map_some, List.reverse_reverse]
  | output v =>
    change (Text.toNegatableInt? (Text.ofInt v)).map output = _
    rw [Text.toNegatableInt?_ofInt]
    rfl
  | requested target =>
    change (InputTarget.named? target.text).map requested = _
    rw [InputTarget.named?_text]
    rfl
  | consumed v => exact ofLine?_consumed v
  | finished => rfl
  | refused e | failed f => rcases part with part | part <;> cases part

end Event

/-! ### Deltas are read back -/

namespace Machine

namespace Delta

variable {d : Delta} {e : Event} {events : List Event} {ds : List Delta}

/-- The events that say what the delta has changed. -/
def changes (d : Delta) : List Event :=
  (match d.input with
    | some (.consumed v) => [.consumed v]
    | _ => [])
  ++ (d.registers.map .registers).toList
  ++ (d.stack.map .stack).toList
  ++ (d.output.map .output).toList

/-- The pointer move, the request and the end of the run that the delta carries. -/
def endings (d : Delta) : List Event :=
  (d.pointer.map .pointer).toList
  ++ (match d.input with
    | some (.requested target) => [.requested target]
    | _ => [])
  ++ (if d.halted then [.finished] else [])

theorem ofDelta_eq_append (d : Delta) : Event.ofDelta d = d.changes ++ d.endings := by
  cases input : d.input with
  | none => simp [Event.ofDelta, changes, endings, input]
  | some io => cases io <;> simp [Event.ofDelta, changes, endings, input]

theorem isChange_of_mem (he : e ∈ d.changes) : e.isChange = true := by
  simp only [changes, List.mem_append, Option.mem_toList, Option.map_eq_some_iff] at he
  rcases he with ((he | ⟨values, -, rfl⟩) | ⟨values, -, rfl⟩) | ⟨v, -, rfl⟩
  · split at he
    · rcases List.mem_singleton.mp he with rfl
      rfl
    · cases he
  all_goals rfl

theorem isEnding_of_mem (he : e ∈ d.endings) : e.isEnding = true := by
  simp only [endings, List.mem_append, Option.mem_toList, Option.map_eq_some_iff] at he
  rcases he with (⟨i, -, rfl⟩ | he) | he
  · rfl
  · split at he
    · rcases List.mem_singleton.mp he with rfl
      rfl
    · cases he
  · split at he
    · rcases List.mem_singleton.mp he with rfl
      rfl
    · cases he

theorem isPart_of_mem (he : e ∈ Event.ofDelta d) : e.isChange = true ∨ e.isEnding = true := by
  rw [ofDelta_eq_append, List.mem_append] at he
  exact he.imp isChange_of_mem isEnding_of_mem

/-- The lines that tell a delta. -/
def lines (d : Delta) : List Text := (Event.ofDelta d).map Event.line

/-- What is known of a delta when one more event of it has been told. -/
def hear (d : Delta) : Event → Delta
  | .pointer i => { d with pointer := some i }
  | .registers values => { d with registers := some values }
  | .stack values => { d with stack := some values }
  | .output v => { d with output := some v }
  | .requested target => { d with input := some (.requested target) }
  | .consumed v => { d with input := some (.consumed v) }
  | .finished => { d with halted := true }
  | .refused _ | .failed _ => d

theorem foldl_hear_ofDelta (d : Delta) : (Event.ofDelta d).foldl hear {} = d := by
  obtain ⟨pointer, registers, stack, output, input, halted⟩ := d
  cases pointer <;> cases registers <;> cases stack <;> cases output <;> cases halted <;>
    rcases input with _ | ⟨target | v⟩ <;> rfl

/-- The delta that lines tell, if all of them do tell part of one. -/
def ofLines? (lines : List Text) : Option Delta :=
  (lines.mapM Event.ofLine?).map fun events => events.foldl hear {}

theorem mapM_ofLine?_line (parts : ∀ e ∈ events, e.isChange = true ∨ e.isEnding = true) :
    (events.map Event.line).mapM Event.ofLine? = some events := by
  induction events with
  | nil => rfl
  | cons e events ih =>
    obtain ⟨first, rest⟩ := List.forall_mem_cons.mp parts
    rw [List.map_cons, List.mapM_cons, Event.ofLine?_line first, ih rest]
    rfl

theorem ofLines?_lines (d : Delta) : ofLines? d.lines = some d := by
  rw [ofLines?, lines, mapM_ofLine?_line fun e he => isPart_of_mem he, Option.map_some,
    foldl_hear_ofDelta]

/-- **No two deltas have the same lines.** -/
theorem lines_injective {d d' : Delta} (same : d.lines = d'.lines) : d = d' := by
  have read := ofLines?_lines d
  rw [same, ofLines?_lines] at read
  exact (Option.some.inj read).symm

/-! ### Lines of several deltas -/

/-- Read lines, with the delta in hand that the last of them have begun.  A line that tells
    no part of a delta is passed over. -/
def readFrom (d : Delta) : List Text → List Delta
  | [] => []
  | line :: rest =>
    match Event.ofLine? line with
    | none => readFrom d rest
    | some e => if e.isEnding then d.hear e :: readFrom {} rest else readFrom (d.hear e) rest

/-- The deltas that lines tell, if each ends with what comes next. -/
def readAll (lines : List Text) : List Delta := readFrom {} lines

theorem readFrom_changes (changes : ∀ e ∈ events, e.isChange = true) (d : Delta)
    (rest : List Text) :
    readFrom d (events.map Event.line ++ rest) = readFrom (events.foldl hear d) rest := by
  induction events generalizing d with
  | nil => rfl
  | cons e events ih =>
    obtain ⟨first, others⟩ := List.forall_mem_cons.mp changes
    have goesOn : e.isEnding = false := by
      cases e with
      | pointer | requested | finished | refused | failed => cases first
      | _ => rfl
    rw [List.map_cons, List.cons_append, readFrom, Event.ofLine?_line (.inl first)]
    simp only [goesOn, Bool.false_eq_true, if_false]
    exact ih others (d.hear e)

theorem readAll_lines_append (one : d.endings = [e]) (rest : List Text) :
    readAll (d.lines ++ rest) = d :: readAll rest := by
  have ends : e.isEnding = true := isEnding_of_mem (one ▸ List.mem_singleton_self e)
  have whole : (Event.ofDelta d).foldl hear {} = d := foldl_hear_ofDelta d
  rw [ofDelta_eq_append, one, List.foldl_append] at whole
  rw [lines, ofDelta_eq_append, one, List.map_append, List.append_assoc, readAll,
    readFrom_changes fun e he => isChange_of_mem he]
  simp only [List.map_cons, List.map_nil, List.singleton_append, readFrom,
    Event.ofLine?_line (.inr ends), ends, if_true]
  exact congrArg (· :: readAll rest) whole

/-- **Lines are read back as deltas**, if each of these says exactly one thing about what
    comes next. -/
theorem readAll_flatMap_lines (ended : ∀ d ∈ ds, ∃ e, d.endings = [e]) :
    readAll (ds.flatMap lines) = ds := by
  induction ds with
  | nil => rfl
  | cons d ds ih =>
    obtain ⟨⟨e, one⟩, others⟩ := List.forall_mem_cons.mp ended
    rw [List.flatMap_cons, readAll_lines_append one, ih others]

theorem getLast?_lines (one : d.endings = [e]) : d.lines.getLast? = some e.line := by
  simp [lines, ofDelta_eq_append, one]

end Delta

/-! ### What comes next -/

variable {m : Machine} {s : State} {t : Transition} {v : Int} {calls : List Call}
  {ts : List Transition}

/-- Until an instruction asks for a value, there is no request in its delta. -/
theorem Transition.Open.unasked (h : t.Open s) (running : s.awaiting = false)
    (target : InputTarget) : t.delta.input ≠ some (.requested target) := by
  intro asked
  have flag := h.awaiting
  simp [State.apply, asked, State.awaitingAfter, h.quiet, running] at flag

theorem endings_goTo (running : t.delta.halted = false)
    (unasked : ∀ target, t.delta.input ≠ some (.requested target)) (i : Nat) :
    (t.goTo i).delta.endings = [.pointer i] := by
  rcases input : t.delta.input with _ | ⟨target | v⟩
  · simp [Delta.endings, input, running]
  · exact absurd input (unasked target)
  · simp [Delta.endings, input, running]

theorem endings_of_step (h : m.step s = .ok t) : ∃ e, t.delta.endings = [e] := by
  rcases step_cases h with
    ⟨-, rfl⟩ | ⟨i, -, ⟨-, rfl⟩ | ⟨instruction, -, ⟨-, rfl⟩ | ⟨running, -, he⟩⟩⟩
  · exact ⟨_, rfl⟩
  · exact ⟨_, rfl⟩
  · exact ⟨_, rfl⟩
  · rcases execute_cases (Transition.open_counted s) he with
      ⟨u, j, hu, rfl⟩ | ⟨-, rfl⟩ | ⟨target, -, rfl⟩
    · exact ⟨_, endings_goTo hu.running (hu.unasked running) j⟩
    · exact ⟨_, rfl⟩
    · exact ⟨_, rfl⟩

theorem endings_of_resume (h : m.resume s v = .ok t) : ∃ e, t.delta.endings = [e] := by
  obtain ⟨i, target, u, -, -, -, hu, rfl⟩ := resume_cases h
  refine ⟨_, endings_goTo (t := u.consume v) hu.running ?_ (i + 1)⟩
  intro target asked
  cases asked

/-- The call is a step, or an answer to a read. -/
def Call.isOfRun : Call → Bool
  | .step | .resume _ => true
  | .seed _ => false

theorem endings_of_call {c : Call} (ofRun : c.isOfRun = true) (h : m.call s c = .ok t) :
    ∃ e, t.delta.endings = [e] := by
  cases c with
  | step => exact endings_of_step h
  | resume v => exact endings_of_resume h
  | seed v => cases ofRun

theorem endings_of_callAll (ofRun : ∀ c ∈ calls, c.isOfRun = true)
    (h : m.callAll s calls = .ok ts) : ∀ d ∈ ts.map (·.delta), ∃ e, d.endings = [e] := by
  induction calls generalizing s ts with
  | nil =>
    cases h
    intro d hd
    cases hd
  | cons c calls ih =>
    obtain ⟨t, rest, ht, hrest, rfl⟩ := callAll_cons h
    obtain ⟨first, others⟩ := List.forall_mem_cons.mp ofRun
    rw [List.map_cons]
    exact List.forall_mem_cons.mpr ⟨endings_of_call first ht, ih others hrest⟩

/-- The lines of transitions, one after the other. -/
def linesOf (ts : List Transition) : List Text := (ts.map (·.delta)).flatMap Delta.lines

theorem readAll_linesOf (ofRun : ∀ c ∈ calls, c.isOfRun = true)
    (h : m.callAll s calls = .ok ts) : Delta.readAll (linesOf ts) = ts.map (·.delta) :=
  Delta.readAll_flatMap_lines (endings_of_callAll ofRun h)

theorem mirrored_eq_foldl (s : State) (ts : List Transition) :
    s.mirrored ts = (ts.map (·.delta)).foldl State.apply s := by
  rw [State.mirrored, List.foldl_map]

/-- **The line protocol loses nothing.**  No two deltas have the same lines; a step and an
    answered read say exactly one thing about what comes next, in their last line; and so the
    lines of a run tell where each of its deltas ends, what it is, and with that the bank, the
    stack and the pointer after it. -/
theorem lines_lose_nothing :
    (∀ d d' : Delta, d.lines = d'.lines → d = d') ∧
    (∀ (m : Machine) (s : State) (c : Call) (t : Transition), c.isOfRun = true →
      m.call s c = .ok t →
        ∃ e, t.delta.endings = [e] ∧ t.delta.lines.getLast? = some e.line) ∧
    (∀ (m : Machine) (calls : List Call) (ts : List Transition),
      (∀ c ∈ calls, c.isOfRun = true) → m.callAll {} calls = .ok ts →
        Delta.readAll (linesOf ts) = ts.map (·.delta) ∧
        ∀ n, Agrees (((Delta.readAll (linesOf ts)).take n).foldl State.apply {})
          (State.after {} (ts.take n))) ∧
    ∀ (m m' : Machine) (calls calls' : List Call) (ts ts' : List Transition),
      (∀ c ∈ calls, c.isOfRun = true) → (∀ c ∈ calls', c.isOfRun = true) →
      m.callAll {} calls = .ok ts → m'.callAll {} calls' = .ok ts' →
      linesOf ts = linesOf ts' → ts.map (·.delta) = ts'.map (·.delta) := by
  refine ⟨fun _ _ => Delta.lines_injective, ?_, ?_, ?_⟩
  · intro m s c t ofRun h
    obtain ⟨e, one⟩ := endings_of_call ofRun h
    exact ⟨e, one, Delta.getLast?_lines one⟩
  · intro m calls ts ofRun h
    have read := readAll_linesOf ofRun h
    refine ⟨read, fun n => ?_⟩
    rw [read, ← List.map_take, ← mirrored_eq_foldl]
    exact agrees_of_callAll (waitsAtRead_start m) (Agrees.refl _) h n
  · intro m m' calls calls' ts ts' ofRun ofRun' h h' same
    rw [← readAll_linesOf ofRun h, same, readAll_linesOf ofRun' h']

/-- One program runs over its end and the other halts there: the same lines, and the same deltas. -/
theorem lines_lose_nothing_two_programs :
    let m : Machine := { program := { instructions := [.read .stack, .write] } }
    let m' : Machine := { program := { instructions := [.read .stack, .write, .halt] } }
    let calls : List Call := [.step, .resume (-7), .step, .step]
    ∃ ts ts', m.callAll {} calls = .ok ts ∧ m'.callAll {} calls = .ok ts' ∧
      linesOf ts = ["@i ?stack", "@i -7", "@s -7", "@p 1", "@s ", "@o -7", "@p 2", "@f"].map
        String.toList ∧
      ts.map (·.delta) = ts'.map (·.delta) ∧
      Agrees (((Delta.readAll (linesOf ts)).take 2).foldl State.apply {})
        (State.after {} (ts.take 2)) ∧
      (State.after {} (ts.take 2)).stack = [-7] := by
  intro m m' calls
  obtain ⟨-, -, read, same⟩ := lines_lose_nothing
  have ofRun : ∀ c ∈ calls, c.isOfRun = true := by decide
  refine ⟨_, _, rfl, rfl, by decide, ?_, ?_, rfl⟩
  · exact same m m' calls calls _ _ ofRun ofRun rfl rfl (by decide)
  · exact (read m calls _ ofRun rfl).2 2

end Machine

end Stepwise

/-
  Stepwise/Proofs/Session/Refinement.lean
  =======================================
  **A session tells what the machine does, and nothing else.**

  Under every schedule the client is told the deltas of a play of the program: the seed
  first if there is one, then steps, and answers to reads with the inputs that reads have
  consumed.  Timers, directives, the queue and the client's leaving decide how far it
  goes, but never what comes next.  Behind the deltas there is at most one event that
  tells a fault, or the first events of a delta that the client did not stay for
  (`session_refines_machine`).

  The invariant ties the phase of the session to the place that the play has reached
  (`Stands`).  Every response that delivers a call of the machine is one move of the play,
  and all others leave it where it is.
-/
import Stepwise.Proofs.Session.History

namespace Stepwise

open Machine

/-! ### What is told -/

def Event.ofDeltas (ds : List Delta) : List Event := ds.flatMap Event.ofDelta

@[simp] theorem Event.ofDeltas_snoc (ds : List Delta) (d : Delta) :
    Event.ofDeltas (ds ++ [d]) = Event.ofDeltas ds ++ Event.ofDelta d := by
  simp [Event.ofDeltas]

namespace Session

/-- The play of a session's program from its start, with the inputs that reads consume. -/
def opening (config : Config) (seed : Int) (inputs : List Text) : Play where
  seed := if config.seedInput then some seed else none
  inputs := inputs

/-- The machine that runs a session's program. -/
def machineFor (config : Config) (program : Program) : Machine where
  program := program
  limits := config.limits

/-- Number of deltas of a run that are no step and no answered read. -/
def unnumbered (config : Config) : Nat := if config.seedInput then 1 else 0

/-- The fault that a session ends with when a play stands at `p`. -/
inductive Blames (m : Machine) (config : Config) (p : Play) : Fault → Prop where
  /-- The machine fails there, or the next input is no value. -/
  | play (f : Fault) (fails : m.next p = .fault f) : Blames m config p f
  /-- A read has waited there for too long. -/
  | inputTimeout (starved : m.next p = .starved) :
      Blames m config p (.exceeded (.inputTimeout config.inputTimeout))
  | runTimeout : Blames m config p (.exceeded (.runTime config.maxRunTime))

/-- How a session ends when it has told the deltas `ds` of a play that stands at `p`, and
    what it tells after them. -/
inductive Closes (m : Machine) (config : Config) (gone : Bool) (ds : List Delta) (p : Play) :
    Outcome → List Event → Prop where
  | halted (d : Delta) (finished : m.next p = .finished) (last : ds.getLast? = some d)
      (halts : d.halted = true) : Closes m config gone ds p .halted []
  | errored (f : Fault) (blames : Blames m config p f) :
      Closes m config gone ds p .errored [.failed f]
  /-- The client has left between two deltas. -/
  | left (left : gone = true) : Closes m config gone ds p .disconnected []
  /-- The client has left within a delta. -/
  | cut (d : Delta) (q : Play) (n : Nat) (left : gone = true) (next : m.next p = .delta d q)
      (short : n < (Event.ofDelta d).length) :
      Closes m config gone ds p .disconnected ((Event.ofDelta d).take n)

end Session

namespace Conversation

open Session

namespace History

/-! ### Where a session stands in the play of its program -/

variable {config : Config} {seed : Int} {h h' : History} {cue : Cue} {run : Run} {source : Text}
  {program : Program} {ds : List Delta} {told : List Event} {p : Play}

/-- The program is being run, and its play has given the deltas `ds`. -/
structure Runs (config : Config) (seed : Int) (h : History) (source : Text) (program : Program)
    (run : Run) (ds : List Delta) : Prop where
  first : (Inbound.texts h.taken).head? = some source
  decodes : decode source = .ok program
  phase : h.talk.session.phase.run? = some run
  machine : run.machine = machineFor config program
  plays : (machineFor config program).Plays (opening config seed h.consumed) ds
    { state := run.state }
  told : h.told = Event.ofDeltas ds
  steps : h.talk.session.steps + unnumbered config = ds.length
  reads : run.machine.WaitsAtRead run.state
  goesOn : run.state.isHalted = false
  waits : run.state.awaiting = h.talk.session.phase.waits

/-- The run of the program is over, or the client did not stay for its end. -/
structure Ended (config : Config) (seed : Int) (h : History) (source : Text) (program : Program)
    (outcome : Outcome) (ds : List Delta) (p : Play) (tail : List Event) : Prop where
  first : (Inbound.texts h.taken).head? = some source
  decodes : decode source = .ok program
  phase : h.talk.session.phase = .ended outcome
  plays : (machineFor config program).Plays (opening config seed h.consumed) ds p
  told : h.told = Event.ofDeltas ds ++ tail
  steps : h.talk.session.steps = ds.length - unnumbered config
  closes : Closes (machineFor config program) config h.talk.gone ds p outcome tail

structure Refused (h : History) (source : Text) (e : DecodeError) : Prop where
  first : (Inbound.texts h.taken).head? = some source
  refuses : decode source = .error e
  steps : h.talk.session.steps = 0
  verdict : (h.talk.session.phase = .ended .errored ∧ h.told = [.refused e]) ∨
    (h.talk.session.phase = .ended .disconnected ∧ h.told = [] ∧ h.talk.gone = true)

structure Silent (h : History) : Prop where
  texts : Inbound.texts h.taken = []
  consumed : h.consumed = []
  told : h.told = []
  steps : h.talk.session.steps = 0

inductive Stands (config : Config) (seed : Int) (h : History) : Prop where
  | idle (phase : h.talk.session.phase = .idle) (silent : h.Silent)
  | unheard (phase : h.talk.session.phase = .ended .disconnected) (silent : h.Silent)
  | refused (source : Text) (e : DecodeError) (refused : h.Refused source e)
  | running (source : Text) (program : Program) (run : Run) (ds : List Delta)
      (runs : h.Runs config seed source program run ds)
  | ended (source : Text) (program : Program) (outcome : Outcome) (ds : List Delta) (p : Play)
      (tail : List Event) (ended : h.Ended config seed source program outcome ds p tail)

theorem Stands.of_idle (hs : h.Stands config seed) (phase : h.talk.session.phase = .idle) :
    h.Silent := by
  cases hs with
  | idle _ silent => exact silent
  | unheard ended silent => exact silent
  | refused source e r =>
    rcases r.verdict with ⟨ended, -⟩ | ⟨ended, -⟩ <;> simp [phase] at ended
  | running source program run ds runs => exact absurd runs.phase (by simp [phase])
  | ended source program outcome ds p tail e => exact absurd e.phase (by simp [phase])

theorem Stands.of_run (hs : h.Stands config seed) (phase : h.talk.session.phase.run? = some run) :
    ∃ source program ds, h.Runs config seed source program run ds := by
  cases hs with
  | idle idle silent => simp [idle] at phase
  | unheard ended silent => simp [ended] at phase
  | refused source e r =>
    rcases r.verdict with ⟨ended, -⟩ | ⟨ended, -⟩ <;> simp [ended] at phase
  | running source program run' ds runs =>
    cases runs.phase.symm.trans phase
    exact ⟨source, program, ds, runs⟩
  | ended source program outcome ds p tail e => simp [e.phase] at phase

/-! ### Responses as moves of the play -/

theorem Silent.frame (f : Frame h h') (silent : h.Silent) : h'.Silent where
  texts := by rw [taken_of_frame f, silent.texts]
  consumed := by rw [consumed_of_frame f, silent.consumed]
  told := by rw [told_of_frame f, silent.told]
  steps := by rw [f.session.steps, silent.steps]

theorem Runs.frame (f : Frame h h') (r : h.Runs config seed source program run ds) :
    h'.Runs config seed source program run ds where
  first := by rw [taken_of_frame f, r.first]
  decodes := r.decodes
  phase := by rw [f.session.run, r.phase]
  machine := r.machine
  plays := by rw [consumed_of_frame f]; exact r.plays
  told := by rw [told_of_frame f, r.told]
  steps := by rw [f.session.steps, r.steps]
  reads := r.reads
  goesOn := r.goesOn
  waits := by rw [f.session.waits, r.waits]

/-- What the client and the clock do leaves the session where it is. -/
theorem Stands.frame (f : Frame h h') (hs : h.Stands config seed) : h'.Stands config seed := by
  cases hs with
  | idle phase silent => exact .idle (f.session.idle.mpr phase) (silent.frame f)
  | unheard phase silent => exact .unheard (f.session.ended phase) (silent.frame f)
  | refused source e r =>
    refine .refused source e ⟨?_, r.refuses, by rw [f.session.steps, r.steps], ?_⟩
    · rw [taken_of_frame f, r.first]
    · rw [told_of_frame f]
      rcases r.verdict with ⟨phase, told⟩ | ⟨phase, told, left⟩
      · exact .inl ⟨f.session.ended phase, told⟩
      · exact .inr ⟨f.session.ended phase, told, f.gone left⟩
  | running source program run ds r => exact .running source program run ds (r.frame f)
  | ended source program outcome ds p tail e =>
    refine .ended source program outcome ds p tail ⟨?_, e.decodes, f.session.ended e.phase, ?_,
      ?_, by rw [f.session.steps, e.steps], ?_⟩
    · rw [taken_of_frame f, e.first]
    · rw [consumed_of_frame f]
      exact e.plays
    · rw [told_of_frame f, e.told]
    · cases e.closes with
      | halted d finished last halts => exact .halted d finished last halts
      | errored fault blames => exact .errored fault blames
      | left left => exact .left (f.gone left)
      | cut d q n left next short => exact .cut d q n (f.gone left) next short

theorem gone_after {takes : Takes} (left : takes.gone = true) (n : Nat) :
    (takes.after n).gone = true := by
  have : takes = some 0 := by simpa [Takes.gone] using left
  simp [this, Takes.after, Takes.gone]

theorem stands_of_concludes {s : Session} {takes : Takes} {f : Fault}
    (first : (Inbound.texts h.taken).head? = some source) (decodes : decode source = .ok program)
    (plays : (machineFor config program).Plays (opening config seed h.consumed) ds p)
    (steps : s.steps = ds.length - unnumbered config)
    (concludes : Concludes s takes (.failed f) h.talk.session told)
    (htold : h.told = Event.ofDeltas ds ++ told) (left : h.talk.takes = takes.after told.length)
    (blames : Blames (machineFor config program) config p f) : h.Stands config seed := by
  generalize hs : h.talk.session = s' at concludes
  cases concludes with
  | said stays =>
    refine .ended source program .errored ds p _ ⟨first, decodes, ?_, plays, htold, ?_, ?_⟩
    · rw [hs]; rfl
    · rw [hs]; exact steps
    · exact .errored f blames
  | lost gone =>
    refine .ended source program .disconnected ds p _ ⟨first, decodes, ?_, plays, htold, ?_, ?_⟩
    · rw [hs]; rfl
    · rw [hs]; exact steps
    · refine .left ?_
      rw [Conversation.gone, left]
      exact gone_after gone _

/-- A call of the machine that is delivered is the next move of the play, if the play is
    where that call is made; what follows when all of it has been told is left open. -/
theorem stands_of_delivers {s : Session} {takes : Takes} {result : Except Fault Transition}
    {next : State → Session} (first : (Inbound.texts h.taken).head? = some source)
    (decodes : decode source = .ok program)
    (plays : (machineFor config program).Plays (opening config seed h.consumed) ds p)
    (move : (machineFor config program).next p = .ofCall result [])
    (steps : s.steps = ds.length - unnumbered config)
    (delivers : Delivers s takes result next h.talk.session told)
    (htold : h.told = Event.ofDeltas ds ++ told) (left : h.talk.takes = takes.after told.length)
    (goesOn : ∀ t, result = .ok t → h.talk.session = next t.state →
      (machineFor config program).Plays (opening config seed h.consumed) (ds ++ [t.delta])
        { state := t.state } →
      h.told = Event.ofDeltas (ds ++ [t.delta]) → h.Stands config seed) :
    h.Stands config seed := by
  generalize hs : h.talk.session = s' at delivers
  cases delivers with
  | told t ok =>
    rw [ok] at move
    refine goesOn t ok hs (plays.snoc move) ?_
    rw [htold, Event.ofDeltas_snoc]
  | cut t n ok takesN short =>
    rw [ok] at move
    refine .ended source program .disconnected ds p _ ⟨first, decodes, ?_, plays, htold, ?_, ?_⟩
    · rw [hs]; rfl
    · rw [hs]; exact steps
    · -- all that the client takes is this part of the delta
      refine .cut t.delta _ n ?_ move short
      have enough : min n (Event.ofDelta t.delta).length = n := Nat.min_eq_left (Nat.le_of_lt short)
      rw [Conversation.gone, left, takesN, List.length_take, enough]
      simp [Takes.after, Takes.gone]
  | failed f error concludes =>
    rw [error] at move
    subst hs
    exact stands_of_concludes first decodes plays steps concludes htold left (.play f move)

/-- When a step or an answered read has been told, the run goes on or is over. -/
theorem stands_of_settled {s : Session} {now : Instant} {t : Transition}
    (first : (Inbound.texts h.taken).head? = some source) (decodes : decode source = .ok program)
    (machine : run.machine = machineFor config program)
    (plays : (machineFor config program).Plays (opening config seed h.consumed) (ds ++ [t.delta])
      { state := t.state })
    (told : h.told = Event.ofDeltas (ds ++ [t.delta]))
    (steps : s.steps + unnumbered config = ds.length) (reads : run.machine.WaitsAtRead t.state)
    (halts : t.state.isHalted = true → t.delta.halted = true)
    (settled : h.talk.session = s.settled now run t.state) : h.Stands config seed := by
  have counted : h.talk.session.steps + unnumbered config = (ds ++ [t.delta]).length := by
    rw [settled, List.length_append, ← steps]
    simp only [Session.settled, List.length_singleton]
    omega
  have phase : h.talk.session.phase = ({ run with state := t.state } : Run).phaseAfter now := by
    rw [settled]; rfl
  by_cases waits : t.state.awaiting = true
  · have phase : h.talk.session.phase = .awaiting { run with state := t.state } now := by
      simpa [Run.phaseAfter, waits] using phase
    exact .running source program { run with state := t.state } _
      ⟨first, decodes, by simp [phase], machine, plays, told, counted, reads,
        not_halted_of_awaiting reads waits, by simp [phase, waits]⟩
  · by_cases finished : t.state.isHalted = true
    · have phase : h.talk.session.phase = .ended .halted := by
        simpa [Run.phaseAfter, waits, finished] using phase
      refine .ended source program .halted _ _ [] ⟨first, decodes, phase, plays,
        by simpa using told, by omega, ?_⟩
      exact .halted t.delta (next_of_halted finished) (by simp) (halts finished)
    · have phase : h.talk.session.phase = .pacing { run with state := t.state } now := by
        simpa [Run.phaseAfter, waits, finished] using phase
      exact .running source program { run with state := t.state } _
        ⟨first, decodes, by simp [phase], machine, plays, told, counted, reads,
          by simpa using finished, by simpa [phase] using waits⟩

theorem first_respondTo (first : (Inbound.texts h.taken).head? = some source) :
    (Inbound.texts (h.respondTo cue).taken).head? = some source := by
  rw [texts_respondTo, List.head?_append, first]
  rfl

theorem consumed_same (hn : Turn.consumed? ⟨h.talk, cue⟩ = none) :
    (h.respondTo cue).consumed = h.consumed := by
  rw [consumed_respondTo, hn]
  exact List.append_nil _

theorem consumed_snoc {m : Text} (hm : Turn.consumed? ⟨h.talk, cue⟩ = some m) :
    (h.respondTo cue).consumed = h.consumed ++ [m] := by
  rw [consumed_respondTo, hm]
  rfl

/-- A response that tells nothing and consumes nothing leaves the play where it is. -/
theorem Runs.quiet (r : h.Runs config seed source program run ds)
    (phase : (h.respondTo cue).talk.session.phase.run? = some run)
    (waits : (h.respondTo cue).talk.session.phase.waits = h.talk.session.phase.waits)
    (steps : (h.respondTo cue).talk.session.steps = h.talk.session.steps)
    (consumed : Turn.consumed? ⟨h.talk, cue⟩ = none) (told : (h.respondTo cue).told = h.told) :
    (h.respondTo cue).Runs config seed source program run ds where
  first := first_respondTo r.first
  decodes := r.decodes
  phase := phase
  machine := r.machine
  plays := by rw [consumed_same consumed]; exact r.plays
  told := told.trans r.told
  steps := by rw [steps]; exact r.steps
  reads := r.reads
  goesOn := r.goesOn
  waits := r.waits.trans waits.symm

/-- A consumed input is one more text for the play, and the read that waits is where it
    goes. -/
theorem Runs.plays_answer (r : h.Runs config seed source program run ds) {m : Text}
    (consumed : Turn.consumed? ⟨h.talk, cue⟩ = some m) :
    (machineFor config program).Plays (opening config seed (h.respondTo cue).consumed) ds
      { state := run.state, inputs := [m] } := by
  rw [consumed_snoc consumed]
  exact r.plays.more [m]

/-! ### The invariant -/

theorem Runs.abandoned (r : h.Runs config seed source program run ds)
    (finished : (h.respondTo cue).talk.session = h.talk.session.closed .disconnected)
    (consumed : Turn.consumed? ⟨h.talk, cue⟩ = none) (told : (h.respondTo cue).told = h.told)
    (left : (h.respondTo cue).talk.gone = true) : (h.respondTo cue).Stands config seed := by
  have steps := r.steps
  refine .ended source program .disconnected ds { state := run.state } []
    ⟨first_respondTo r.first, r.decodes, by rw [finished]; rfl, ?_, ?_, ?_, .left left⟩
  · rw [consumed_same consumed]
    exact r.plays
  · rw [told, r.told, List.append_nil]
  · rw [finished, ← steps]
    simp

theorem Runs.exhausted (r : h.Runs config seed source program run ds) {f : Fault}
    (concludes : Concludes h.talk.session h.talk.takes (.failed f) (h.respondTo cue).talk.session
      told)
    (htold : (h.respondTo cue).told = h.told ++ told)
    (left : (h.respondTo cue).talk.takes = h.talk.takes.after told.length)
    (consumed : Turn.consumed? ⟨h.talk, cue⟩ = none)
    (blames : Blames (machineFor config program) config { state := run.state } f) :
    (h.respondTo cue).Stands config seed := by
  have steps : h.talk.session.steps = ds.length - unnumbered config := by
    have := r.steps
    omega
  refine stands_of_concludes (first_respondTo r.first) r.decodes ?_ steps concludes
    (by rw [htold, r.told]) left blames
  rw [consumed_same consumed]
  exact r.plays

/-- A read is answered with an input that it consumes. -/
theorem Runs.answered (r : h.Runs config seed source program run ds) {m : Text} {s : Session}
    {now : Instant} (waits : h.talk.session.phase.waits = true)
    (consumed : Turn.consumed? ⟨h.talk, cue⟩ = some m)
    (steps : s.steps = h.talk.session.steps)
    (delivers : Delivers s h.talk.takes (run.machine.answer run.state m) (s.settled now run)
      (h.respondTo cue).talk.session told)
    (htold : (h.respondTo cue).told = h.told ++ told)
    (left : (h.respondTo cue).talk.takes = h.talk.takes.after told.length) :
    (h.respondTo cue).Stands config seed := by
  have first : (Inbound.texts (h.respondTo cue).taken).head? = some source :=
    first_respondTo r.first
  have count : s.steps + unnumbered config = ds.length := steps ▸ r.steps
  refine stands_of_delivers first r.decodes (r.plays_answer consumed) ?_ (by omega) delivers
    (by rw [htold, r.told]) left ?_
  · rw [next_of_answer r.goesOn (r.waits.trans waits), r.machine]
  · intro t ok settled plays told
    obtain ⟨v, -, resumed⟩ := answer_cases ok
    exact stands_of_settled first r.decodes r.machine plays told count
      (waitsAtRead_of_resume resumed)
      (fun finished => absurd finished (by simp [not_halted_of_resume resumed])) settled

theorem idle_or_run {s : Session} (listens : s.Listens) :
    s.phase = .idle ∨ ∃ run, s.phase.run? = some run := by
  cases listens with
  | idle idle => exact .inl idle
  | pacing run since pacing => exact .inr ⟨run, by simp [pacing]⟩
  | awaiting run since awaiting empty => exact .inr ⟨run, by simp [awaiting]⟩

/-- Nothing of a source is heard in a response that takes no text. -/
theorem Silent.quiet (silent : h.Silent)
    (message : Inbound.texts (Turn.message? ⟨h.talk, cue⟩).toList = [])
    (consumed : Turn.consumed? ⟨h.talk, cue⟩ = none) (told : (h.respondTo cue).told = h.told)
    (steps : (h.respondTo cue).talk.session.steps = h.talk.session.steps) :
    (h.respondTo cue).Silent where
  texts := by rw [texts_respondTo, silent.texts, message]; rfl
  consumed := by rw [consumed_same consumed, silent.consumed]
  told := told.trans silent.told
  steps := steps.trans silent.steps

theorem Silent.first (silent : h.Silent) {m : Text} (text : Inbound.isDirective m = false) :
    (Inbound.texts (h.respondTo (.message m)).taken).head? = some m := by
  rw [texts_respondTo, silent.texts]
  simp [Turn.message?, Inbound.texts, text]

theorem Silent.consumed_source (silent : h.Silent) (idle : h.talk.session.phase = .idle)
    (m : Text) : (h.respondTo (.message m)).consumed = [] := by
  rw [consumed_same (by simp [Turn.consumed?, idle]), silent.consumed]

theorem Silent.refuse (silent : h.Silent) {m : Text} {e : DecodeError}
    (text : Inbound.isDirective m = false) (refuses : decode m = .error e)
    (concludes : Concludes h.talk.session h.talk.takes (.refused e)
      (h.respondTo (.message m)).talk.session told)
    (htold : (h.respondTo (.message m)).told = h.told ++ told)
    (left : (h.respondTo (.message m)).talk.takes = h.talk.takes.after told.length) :
    (h.respondTo (.message m)).Stands config seed := by
  generalize hs' : (h.respondTo (.message m)).talk.session = s' at concludes
  rw [silent.told, List.nil_append] at htold
  cases concludes with
  | said stays =>
    refine .refused m e ⟨silent.first text, refuses, by rw [hs']; exact silent.steps, .inl ?_⟩
    exact ⟨by rw [hs']; rfl, htold⟩
  | lost gone =>
    refine .refused m e ⟨silent.first text, refuses, by rw [hs']; exact silent.steps, .inr ?_⟩
    refine ⟨by rw [hs']; rfl, htold, ?_⟩
    rw [Conversation.gone, left]
    exact gone_after gone _

theorem Silent.start (silent : h.Silent) (idle : h.talk.session.phase = .idle) {m : Text}
    {now : Instant} (text : Inbound.isDirective m = false) (decodes : decode m = .ok program)
    (unseeded : config.seedInput = false) (config_eq : h.talk.session.config = config)
    (started : (h.respondTo (.message m)).talk.session =
      { h.talk.session with phase := .ready (h.talk.session.runOf now program) })
    (same : (h.respondTo (.message m)).told = h.told) :
    (h.respondTo (.message m)).Stands config seed := by
  refine .running m program (h.talk.session.runOf now program) []
    ⟨silent.first text, decodes, by rw [started]; rfl, ?_, ?_, same.trans silent.told, ?_,
      waitsAtRead_start _, rfl, by rw [started]; rfl⟩
  · simp [runOf, machineFor, config_eq]
  · have start : opening config seed [] = {} := by simp [opening, unseeded]
    rw [silent.consumed_source idle, start]
    exact .refl _
  · rw [started]
    simp [unnumbered, unseeded, silent.steps]

theorem Silent.startSeeded (silent : h.Silent) (idle : h.talk.session.phase = .idle) {m : Text}
    {now : Instant} (text : Inbound.isDirective m = false) (decodes : decode m = .ok program)
    (seeded : config.seedInput = true) (config_eq : h.talk.session.config = config)
    (seed_eq : h.talk.session.seed = seed)
    (delivers : Delivers h.talk.session h.talk.takes
      ((h.talk.session.runOf now program).machine.seed {} h.talk.session.seed)
      (fun state =>
        { h.talk.session with phase := .ready { h.talk.session.runOf now program with state } })
      (h.respondTo (.message m)).talk.session told)
    (htold : (h.respondTo (.message m)).told = h.told ++ told)
    (left : (h.respondTo (.message m)).talk.takes = h.talk.takes.after told.length) :
    (h.respondTo (.message m)).Stands config seed := by
  have machine : (h.talk.session.runOf now program).machine = machineFor config program := by
    simp [runOf, machineFor, config_eq]
  have start : opening config seed (h.respondTo (.message m)).consumed =
      { seed := some seed } := by
    simp [opening, seeded, silent.consumed_source idle]
  have plays : (machineFor config program).Plays
      (opening config seed (h.respondTo (.message m)).consumed) [] { seed := some seed } := by
    rw [start]
    exact .refl _
  have steps : h.talk.session.steps = ([] : List Delta).length - unnumbered config := by
    simp [silent.steps]
  rw [machine, seed_eq] at delivers
  rw [silent.told] at htold
  refine stands_of_delivers (silent.first text) decodes plays (next_of_seed seed []) steps delivers
    htold left ?_
  intro t ok settled plays told
  have reads := waitsAtRead_of_seed (waitsAtRead_start _) ok
  obtain ⟨u, hu, pointer, rfl⟩ := seed_cases ok
  refine .running m program { h.talk.session.runOf now program with state := u.state } _
    ⟨silent.first text, decodes, by rw [settled]; rfl, machine, plays, told, ?_,
      machine ▸ reads, ?_, ?_⟩
  · rw [settled]
    simp [unnumbered, seeded, silent.steps]
  · simp [State.isHalted, pointer]
  · rw [settled]
    simpa using hu.quiet

/-- **Every response that is due keeps the session where the play of its program is.** -/
theorem Stands.respond (hc : h.talk.cue? = some cue) (config_eq : h.talk.session.config = config)
    (seed_eq : h.talk.session.seed = seed) (hs : h.Stands config seed) :
    (h.respondTo cue).Stands config seed := by
  obtain ⟨told, hr, htold, left⟩ := respondTo_reacts hc
  generalize hs' : (h.respondTo cue).talk.session = s' at hr
  cases hr with
  | directive m d listens directive =>
    have consumed : Turn.consumed? ⟨h.talk, .message m⟩ = none :=
      Turn.consumed?_of_directive directive
    have same : (h.respondTo (.message m)).told = h.told := htold.trans (List.append_nil _)
    rcases idle_or_run listens with idle | ⟨run, hp⟩
    · refine .idle (by rw [hs']; exact idle)
        ((hs.of_idle idle).quiet ?_ consumed same (by rw [hs']))
      exact Inbound.texts_of_directive directive
    · obtain ⟨source, program, ds, r⟩ := hs.of_run hp
      exact .running source program run ds
        (r.quiet (by rw [hs']; exact hp) (by rw [hs']) (by rw [hs']) consumed same)
  | hangup listens gone =>
    have consumed : Turn.consumed? ⟨h.talk, .hangup⟩ = none :=
      Turn.consumed?_eq_none (by simp) (by simp)
    have same : (h.respondTo .hangup).told = h.told := htold.trans (List.append_nil _)
    rcases idle_or_run listens with idle | ⟨run, hp⟩
    · exact .unheard (by rw [hs']; rfl)
        ((hs.of_idle idle).quiet rfl consumed same (by rw [hs']; rfl))
    · obtain ⟨source, program, ds, r⟩ := hs.of_run hp
      refine r.abandoned hs' consumed same ?_
      rw [Conversation.gone, left]
      exact gone_after gone _
  | refused m e idle text refuses concludes =>
    exact (hs.of_idle idle).refuse text refuses (hs' ▸ concludes) htold left
  | started m program idle text decodes unseeded =>
    exact (hs.of_idle idle).start idle text decodes (config_eq ▸ unseeded) config_eq hs'
      (htold.trans (List.append_nil _))
  | seeded m program idle text decodes seeded delivers =>
    exact (hs.of_idle idle).startSeeded idle text decodes (config_eq ▸ seeded) config_eq seed_eq
      (hs' ▸ delivers) htold left
  | step run ready delivers =>
    have running : h.talk.session.phase.run? = some run := by simp [ready]
    obtain ⟨source, program, ds, r⟩ := hs.of_run running
    have waits : run.state.awaiting = false := by simpa [ready] using r.waits
    have steps := r.steps
    have plays : (machineFor config program).Plays
        (opening config seed (h.respondTo .step).consumed) ds { state := run.state } := by
      rw [consumed_same (Turn.consumed?_eq_none (by simp) (by simp))]
      exact r.plays
    have move : (machineFor config program).next { state := run.state } =
        .ofCall (run.machine.step run.state) [] := by
      rw [next_of_step r.goesOn waits, r.machine]
    refine stands_of_delivers (first_respondTo r.first) r.decodes plays move (by omega)
      (hs' ▸ delivers) (by rw [htold, r.told]) left ?_
    intro t ok settled plays told
    exact stands_of_settled (first_respondTo r.first) r.decodes r.machine plays
      told steps (waitsAtRead_of_step r.reads ok) (halted_of_step r.goesOn ok) settled
  | wake run since pacing =>
    have running : h.talk.session.phase.run? = some run := by simp [pacing]
    obtain ⟨source, program, ds, r⟩ := hs.of_run running
    exact .running source program run ds
      (r.quiet (by rw [hs']; rfl) (by rw [hs', pacing]; rfl) (by rw [hs'])
        (Turn.consumed?_eq_none (by simp) (by simp)) (htold.trans (List.append_nil _)))
  | kept m run since pacing text room =>
    have running : h.talk.session.phase.run? = some run := by simp [pacing]
    obtain ⟨source, program, ds, r⟩ := hs.of_run running
    exact .running source program run ds
      (r.quiet (by rw [hs']; exact r.phase) (by rw [hs']) (by rw [hs'])
        (by simp [Turn.consumed?, pacing]) (htold.trans (List.append_nil _)))
  | dropped m run since pacing text full =>
    have running : h.talk.session.phase.run? = some run := by simp [pacing]
    obtain ⟨source, program, ds, r⟩ := hs.of_run running
    exact .running source program run ds
      (r.quiet (by rw [hs']; exact r.phase) (by rw [hs']) (by rw [hs'])
        (by simp [Turn.consumed?, pacing]) (htold.trans (List.append_nil _)))
  | queued m rest run since awaiting inputs delivers =>
    have running : h.talk.session.phase.run? = some run := by simp [awaiting]
    obtain ⟨source, program, ds, r⟩ := hs.of_run running
    -- the input leaves the queue even if its read fails
    exact r.answered (m := m) (s := { h.talk.session with inputs := rest })
      (by rw [awaiting]; rfl) (by simp [Turn.consumed?, awaiting, inputs]) rfl (hs' ▸ delivers)
      htold left
  | answered m run since awaiting empty text delivers =>
    have running : h.talk.session.phase.run? = some run := by simp [awaiting]
    obtain ⟨source, program, ds, r⟩ := hs.of_run running
    exact r.answered (by rw [awaiting]; rfl) (by simp [Turn.consumed?, awaiting, text]) rfl
      (hs' ▸ delivers) htold left
  | inputTimeout run since awaiting empty late concludes =>
    have running : h.talk.session.phase.run? = some run := by simp [awaiting]
    obtain ⟨source, program, ds, r⟩ := hs.of_run running
    refine r.exhausted (hs' ▸ concludes) htold left
      (Turn.consumed?_eq_none (by simp) (by simp)) ?_
    rw [config_eq]
    exact .inputTimeout (next_of_wait r.goesOn (r.waits.trans (by rw [awaiting]; rfl)))
  | runTimeout run running late concludes =>
    obtain ⟨source, program, ds, r⟩ := hs.of_run running
    refine r.exhausted (hs' ▸ concludes) htold left
      (Turn.consumed?_eq_none (by simp) (by simp)) ?_
    rw [config_eq]
    exact .runTimeout

/-! ### Whole sessions -/

/-- **Every session stands where the play of its program is**, at every moment of every
    schedule. -/
theorem stands_of (peer : Text) (config : Config) (seed : Int) (schedule : List Move) :
    (History.of peer config seed schedule).Stands config seed := by
  -- The settings are carried along: a response goes by those of the session.
  suffices both : (Session.start peer config seed).SameSettings
      (History.of peer config seed schedule).talk.session ∧
        (History.of peer config seed schedule).Stands config seed from both.2
  have start : ({ talk := .opened peer config seed } : History).Stands config seed :=
    .idle rfl ⟨rfl, rfl, rfl, rfl⟩
  refine run_induction (P := fun h => (Session.start peer config seed).SameSettings
    h.talk.session ∧ h.Stands config seed) ?_ ?_ ⟨⟨rfl, rfl⟩, start⟩ schedule
  · intro h h' f ⟨settings, hs⟩
    refine ⟨⟨?_, ?_⟩, hs.frame f⟩
    · rw [f.session.config, settings.config]
    · rw [f.session.seed, settings.seed]
  · intro h cue hc ⟨settings, hs⟩
    obtain ⟨told, hr, -, -⟩ := respondTo_reacts hc
    refine ⟨⟨?_, ?_⟩, hs.respond hc settings.config settings.seed⟩
    · rw [hr.settings.config, settings.config]
    · rw [hr.settings.seed, settings.seed]

/-- **A session refines the machine.**  Whatever the schedule, the client of a session
    whose source decodes is told the deltas `ds` of a play of the program, which then
    stands at `p`.  Behind them there is nothing; or one fault, and the play shows which
    faults it can be; or, if the client has left, a part of the next delta.  If the program
    has halted, the play is over, and its last delta says so. -/
theorem session_refines_machine (peer : Text) (config : Config) (seed : Int)
    (schedule : List Move) (source : Text) (program : Program)
    (first : (Inbound.texts (History.of peer config seed schedule).taken).head? = some source)
    (decodes : decode source = .ok program) :
    let h := History.of peer config seed schedule
    let m := machineFor config program
    ∃ ds p tail,
      m.Plays (opening config seed h.consumed) ds p ∧
      h.told = Event.ofDeltas ds ++ tail ∧
      (tail = [] ∨
        (∃ f, tail = [.failed f] ∧ Blames m config p f) ∨
        (h.talk.gone = true ∧ ∃ d q, m.next p = .delta d q ∧
          tail <+: Event.ofDelta d ∧ tail ≠ Event.ofDelta d)) ∧
      (h.talk.session.outcome? = some .halted →
        tail = [] ∧ m.next p = .finished ∧ ∃ d, ds.getLast? = some d ∧ d.halted = true) := by
  intro h m
  cases stands_of peer config seed schedule with
  | idle phase silent => simp [silent.texts] at first
  | unheard phase silent => simp [silent.texts] at first
  | refused source' e r =>
    cases r.first.symm.trans first
    cases decodes.symm.trans r.refuses
  | running source' program' run ds r =>
    cases r.first.symm.trans first
    cases decodes.symm.trans r.decodes
    refine ⟨ds, { state := run.state }, [], r.plays, ?_, .inl rfl, ?_⟩
    · rw [r.told, List.append_nil]
    · intro halted
      have ended := r.phase
      rw [phase_of_outcome halted] at ended
      cases ended
  | ended source' program' outcome ds p tail e =>
    cases e.first.symm.trans first
    cases decodes.symm.trans e.decodes
    refine ⟨ds, p, tail, e.plays, e.told, ?_, ?_⟩
    · cases e.closes with
      | halted d finished last halts => exact .inl rfl
      | errored f blames => exact .inr (.inl ⟨f, rfl, blames⟩)
      | left left => exact .inl rfl
      | cut d q n left next short =>
        refine .inr (.inr ⟨left, d, q, next, List.take_prefix _ _, fun whole => ?_⟩)
        have := congrArg List.length whole
        rw [List.length_take] at this
        omega
    · intro halted
      cases e.phase.symm.trans (phase_of_outcome halted)
      cases e.closes with
      | halted d finished last halts => exact ⟨rfl, finished, d, last, halts⟩

/-- An input that comes early waits in the queue of a seeded session, whose client is told
    the whole play. -/
theorem session_refines_machine_early_input :
    let config : Config := { delay := .ofMillis 1, seedInput := true }
    let source := "push 2\nread\nadd\nwrite".toList
    let schedule : List Move :=
      [.post source, .post "5".toList, .respond, .respond, .respond, .pass 1, .respond, .respond,
        .respond, .pass 1, .respond, .respond, .pass 1, .respond, .respond, .pass 1, .respond,
        .respond]
    let h := History.of [] config 8 schedule
    ∃ program ds p,
      decode source = .ok program ∧
        (machineFor config program).Plays { seed := some 8, inputs := ["5".toList] } ds p ∧
        (machineFor config program).next p = .finished ∧
        h.told = Event.ofDeltas ds ∧ .output 7 ∈ h.told := by
  intro config source schedule h
  have consumed : opening config 8 h.consumed = { seed := some 8, inputs := ["5".toList] } := by
    decide +kernel
  obtain ⟨program, decodes⟩ : ∃ program, decode source = .ok program := ⟨_, rfl⟩
  obtain ⟨ds, p, tail, plays, told, -, ends⟩ :=
    session_refines_machine [] config 8 schedule source program (by decide +kernel) decodes
  obtain ⟨rfl, finished, -⟩ := ends (by decide +kernel)
  rw [List.append_nil] at told
  rw [consumed] at plays
  exact ⟨program, ds, p, decodes, plays, finished, told, by decide +kernel⟩
end History

end Conversation

end Stepwise

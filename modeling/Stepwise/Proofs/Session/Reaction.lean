/-
  Stepwise/Proofs/Session/Reaction.lean
  =====================================
  **Everything that a session can make of a cue that is due.**

  `Reacts` lists it, one constructor for each: what the phase must be for it, what the
  session is afterwards, and what the client has been told.  All that is proved of whole
  sessions goes through this list (`reacts_of_cue`), so the order of cues and the bodies
  of responses are looked into here and nowhere else.

  Two patterns return.  A session ends with one last event, or without it if the client
  has left (`Concludes`).  And a call of the machine is delivered: its delta is told and the
  session goes on, or the client leaves before the end of it, or the fault is said
  (`Delivers`).
-/
import Stepwise.Proofs.Machine.Play
import Stepwise.Session.Conversation

namespace Stepwise

namespace Inbound

@[simp] theorem parse_of_text {m : Text} (h : isDirective m = false) : parse m = .ok (.text m) := by
  simp [parse, h]

theorem parse_of_directive {m : Text} (h : isDirective m = true) :
    (∃ d, parse m = .ok (.delay d)) ∨ ∃ e, parse m = .error e := by
  simp only [parse, h, if_true]
  split
  · exact .inr ⟨_, rfl⟩
  · simp only [parseDirective]
    split
    · exact .inr ⟨_, rfl⟩
    · split
      · exact .inr ⟨_, rfl⟩
      · split
        · exact .inl ⟨_, rfl⟩
        · exact .inr ⟨_, rfl⟩

end Inbound

namespace Session

variable {s s' : Session} {now : Instant} {takes : Takes} {cue : Cue} {inbox : List Text}
  {told : List Event} {run : Run}

/-! ### Phases -/

def Phase.run? : Phase → Option Run
  | .ready run | .pacing run _ | .awaiting run _ => some run
  | .idle | .ended _ => none

def Phase.waits : Phase → Bool
  | .awaiting _ _ => true
  | _ => false

namespace Phase

variable (run : Run) (since : Instant) (outcome : Outcome)

@[simp] theorem run?_idle : Phase.idle.run? = none := rfl

@[simp] theorem run?_ready : (Phase.ready run).run? = some run := rfl

@[simp] theorem run?_pacing : (Phase.pacing run since).run? = some run := rfl

@[simp] theorem run?_awaiting : (Phase.awaiting run since).run? = some run := rfl

@[simp] theorem run?_ended : (Phase.ended outcome).run? = none := rfl

@[simp] theorem waits_ready : (Phase.ready run).waits = false := rfl

@[simp] theorem waits_pacing : (Phase.pacing run since).waits = false := rfl

@[simp] theorem waits_awaiting : (Phase.awaiting run since).waits = true := rfl

@[simp] theorem waits_ended : (Phase.ended outcome).waits = false := rfl

end Phase

theorem exists_awaiting (h : s.phase.waits = true) :
    ∃ run since, s.phase = .awaiting run since := by
  cases phase : s.phase with
  | awaiting run since => exact ⟨run, since, rfl⟩
  | idle | ready run | pacing run since | ended outcome =>
    rw [phase] at h
    cases h

theorem phase_of_outcome {outcome : Outcome} (h : s.outcome? = some outcome) :
    s.phase = .ended outcome := by
  cases phase : s.phase with
  | ended o => simpa [outcome?, phase] using h
  | _ => simp [outcome?, phase] at h

theorem isOver_of_ended {outcome : Outcome} (h : s.phase = .ended outcome) : s.isOver = true := by
  simp [isOver, outcome?, h]

/-- Two sessions differ in nothing but the moment at which a pause or a wait began. -/
structure SameButWhen (s r : Session) : Prop where
  config : r.config = s.config
  seed : r.seed = s.seed
  inputs : r.inputs = s.inputs
  steps : r.steps = s.steps
  run : r.phase.run? = s.phase.run?
  waits : r.phase.waits = s.phase.waits
  outcome : r.outcome? = s.outcome?
  idle : r.phase = .idle ↔ s.phase = .idle

theorem SameButWhen.refl (s : Session) : s.SameButWhen s :=
  ⟨rfl, rfl, rfl, rfl, rfl, rfl, rfl, .rfl⟩

theorem SameButWhen.ended {r : Session} {outcome : Outcome} (h : s.SameButWhen r)
    (ended : s.phase = .ended outcome) : r.phase = .ended outcome :=
  phase_of_outcome (h.outcome.trans (by simp [outcome?, ended]))

/-- A client that lets go of a session changes only when its pause or its wait begins. -/
theorem sameButWhen_restarted (s : Session) (now : Instant) :
    s.SameButWhen (s.restarted now) := by
  cases phase : s.phase with
  | pacing run since =>
    constructor <;> simp [restarted, phase, outcome?]
  | awaiting run since =>
    constructor <;> simp [restarted, phase, outcome?]
  | _ => simpa [restarted, phase] using SameButWhen.refl s

/-- The session attends to its client: it takes messages, and notices that the client has
    left. -/
inductive Listens (s : Session) : Prop where
  | idle (h : s.phase = .idle)
  | pacing (run : Run) (since : Instant) (h : s.phase = .pacing run since)
  | awaiting (run : Run) (since : Instant) (h : s.phase = .awaiting run since)
      (empty : s.inputs = [])

@[simps] def closed (s : Session) (outcome : Outcome) : Session :=
  { s with phase := .ended outcome }

/-- What a session is at when a step or an answered read has been told. -/
def Run.phaseAfter (run : Run) (now : Instant) : Phase :=
  if run.state.awaiting then .awaiting run now
  else if run.state.isHalted then .ended .halted
  else .pacing run now

/-- The session when a step or an answered read has been told. -/
@[simps] def settled (s : Session) (now : Instant) (run : Run) (state : Machine.State) : Session :=
  { s with
    steps := s.steps + 1
    phase := ({ run with state } : Run).phaseAfter now }

/-- The run of a program that starts at a moment. -/
def runOf (s : Session) (now : Instant) (program : Program) : Run where
  machine := { program, limits := s.config.limits }
  deadline := now + s.config.maxRunTime

/-! ### Ending and delivering -/

/-- The session ends with one last event, or without it if the client has left. -/
inductive Concludes (s : Session) (takes : Takes) (last : Event) : Session → List Event → Prop where
  | said (stays : takes.gone = false) : Concludes s takes last (s.closed .errored) [last]
  | lost (left : takes.gone = true) : Concludes s takes last (s.closed .disconnected) []

/-- The outcome of a call of the machine is delivered. -/
inductive Delivers (s : Session) (takes : Takes) (result : Except Fault Machine.Transition)
    (next : Machine.State → Session) : Session → List Event → Prop where
  | told (t : Machine.Transition) (ok : result = .ok t) :
      Delivers s takes result next (next t.state) (Event.ofDelta t.delta)
  /-- The client has left with only the first events of the delta. -/
  | cut (t : Machine.Transition) (n : Nat) (ok : result = .ok t) (left : takes = some n)
      (short : n < (Event.ofDelta t.delta).length) :
      Delivers s takes result next (s.closed .disconnected) ((Event.ofDelta t.delta).take n)
  | failed (f : Fault) {s' : Session} {told : List Event} (error : result = .error f)
      (concludes : Concludes s takes (.failed f) s' told) : Delivers s takes result next s' told

/-- What a session makes of a cue that is due. -/
inductive Reacts (s : Session) (now : Instant) (takes : Takes) :
    Cue → Session → List Event → Prop where
  | directive (m : Text) (d : Duration) (listens : s.Listens)
      (directive : Inbound.isDirective m = true) :
      Reacts s now takes (.message m) { s with delay := d } []
  | hangup (listens : s.Listens) (left : takes.gone = true) :
      Reacts s now takes .hangup (s.closed .disconnected) []
  | refused (m : Text) (e : DecodeError) {s' : Session} {told : List Event}
      (idle : s.phase = .idle) (text : Inbound.isDirective m = false)
      (refuses : decode m = .error e) (concludes : Concludes s takes (.refused e) s' told) :
      Reacts s now takes (.message m) s' told
  | started (m : Text) (program : Program) (idle : s.phase = .idle)
      (text : Inbound.isDirective m = false) (decodes : decode m = .ok program)
      (unseeded : s.config.seedInput = false) :
      Reacts s now takes (.message m) { s with phase := .ready (s.runOf now program) } []
  | seeded (m : Text) (program : Program) {s' : Session} {told : List Event}
      (idle : s.phase = .idle) (text : Inbound.isDirective m = false)
      (decodes : decode m = .ok program) (seeded : s.config.seedInput = true)
      (delivers : Delivers s takes ((s.runOf now program).machine.seed {} s.seed)
        (fun state => { s with phase := .ready { s.runOf now program with state } }) s' told) :
      Reacts s now takes (.message m) s' told
  | step (run : Run) {s' : Session} {told : List Event} (ready : s.phase = .ready run)
      (delivers : Delivers s takes (run.machine.step run.state) (s.settled now run) s' told) :
      Reacts s now takes .step s' told
  | wake (run : Run) (since : Instant) (pacing : s.phase = .pacing run since) :
      Reacts s now takes .wake { s with phase := .ready run } []
  | kept (m : Text) (run : Run) (since : Instant) (pacing : s.phase = .pacing run since)
      (text : Inbound.isDirective m = false) (room : s.inputs.length < s.config.inputQueue) :
      Reacts s now takes (.message m) { s with inputs := s.inputs ++ [m] } []
  | dropped (m : Text) (run : Run) (since : Instant) (pacing : s.phase = .pacing run since)
      (text : Inbound.isDirective m = false) (full : s.config.inputQueue ≤ s.inputs.length) :
      Reacts s now takes (.message m) s []
  | queued (m : Text) (rest : List Text) (run : Run) (since : Instant) {s' : Session}
      {told : List Event} (awaiting : s.phase = .awaiting run since) (inputs : s.inputs = m :: rest)
      (delivers : Delivers { s with inputs := rest } takes (run.machine.answer run.state m)
        (settled { s with inputs := rest } now run) s' told) :
      Reacts s now takes .queued s' told
  | answered (m : Text) (run : Run) (since : Instant) {s' : Session} {told : List Event}
      (awaiting : s.phase = .awaiting run since) (empty : s.inputs = [])
      (text : Inbound.isDirective m = false)
      (delivers : Delivers s takes (run.machine.answer run.state m) (s.settled now run) s' told) :
      Reacts s now takes (.message m) s' told
  | inputTimeout (run : Run) (since : Instant) {s' : Session} {told : List Event}
      (awaiting : s.phase = .awaiting run since) (empty : s.inputs = [])
      (late : since + s.config.inputTimeout ≤ now)
      (concludes : Concludes s takes (.failed (.exceeded (.inputTimeout s.config.inputTimeout)))
        s' told) :
      Reacts s now takes .inputTimeout s' told
  | runTimeout (run : Run) {s' : Session} {told : List Event} (running : s.phase.run? = some run)
      (late : run.deadline ≤ now)
      (concludes : Concludes s takes (.failed (.exceeded (.runTime s.config.maxRunTime))) s' told) :
      Reacts s now takes .runTimeout s' told

/-! ### What the list says at a glance -/

/-- What holds of the session however it ends holds after it has had its last word. -/
theorem Concludes.session {P : Session → Prop} {last : Event} (h : Concludes s takes last s' told)
    (ends : ∀ outcome, P (s.closed outcome)) : P s' := by
  cases h with
  | said stays => exact ends _
  | lost left => exact ends _

/-- What holds of the session that goes on, and however it ends, holds after a delivery. -/
theorem Delivers.session {P : Session → Prop} {result : Except Fault Machine.Transition}
    {next : Machine.State → Session} (h : Delivers s takes result next s' told)
    (goesOn : ∀ state, P (next state)) (ends : ∀ outcome, P (s.closed outcome)) : P s' := by
  cases h with
  | told t ok => exact goesOn t.state
  | cut t n ok left short => exact ends _
  | failed f error concludes => exact concludes.session ends

theorem phaseAfter_ne_idle (run : Run) (now : Instant) : run.phaseAfter now ≠ .idle := by
  simp only [Run.phaseAfter]
  split
  · simp
  · split <;> simp

theorem closed_ne_idle (s : Session) (outcome : Outcome) : (s.closed outcome).phase ≠ .idle := by
  simp

structure SameSettings (s r : Session) : Prop where
  config : r.config = s.config
  seed : r.seed = s.seed

theorem Reacts.settings (h : Reacts s now takes cue s' told) : s.SameSettings s' := by
  cases h with
  | refused m e idle text refuses concludes =>
    exact concludes.session (P := s.SameSettings) fun _ => ⟨rfl, rfl⟩
  | inputTimeout run since awaiting empty late concludes =>
    exact concludes.session (P := s.SameSettings) fun _ => ⟨rfl, rfl⟩
  | runTimeout run running late concludes =>
    exact concludes.session (P := s.SameSettings) fun _ => ⟨rfl, rfl⟩
  | seeded m program idle text decodes seeded delivers =>
    exact delivers.session (P := s.SameSettings) (fun _ => ⟨rfl, rfl⟩) fun _ => ⟨rfl, rfl⟩
  | step run ready delivers =>
    exact delivers.session (P := s.SameSettings) (fun _ => ⟨rfl, rfl⟩) fun _ => ⟨rfl, rfl⟩
  | queued m rest run since awaiting inputs delivers =>
    exact delivers.session (P := s.SameSettings) (fun _ => ⟨rfl, rfl⟩) fun _ => ⟨rfl, rfl⟩
  | answered m run since awaiting empty text delivers =>
    exact delivers.session (P := s.SameSettings) (fun _ => ⟨rfl, rfl⟩) fun _ => ⟨rfl, rfl⟩
  | _ => exact ⟨rfl, rfl⟩

/-! ### Responses, one by one -/

theorem concludes_of_endWith (s : Session) (takes : Takes) (last : Event) (reason : Text) :
    Concludes s takes last (s.endWith takes last reason).session
      (s.endWith takes last reason).told := by
  simp only [endWith]
  split
  · rename_i left
    exact .lost left
  · rename_i stays
    exact .said (by simpa using stays)

theorem delivers_of_tell {result : Except Fault Machine.Transition} {t : Machine.Transition}
    {next : Machine.State → Session} {after : Session → Response} (ok : result = .ok t)
    (hsession : (after s).session = next t.state) (htold : (after s).told = []) :
    Delivers s takes result next (s.tell takes t.delta after).session
      (s.tell takes t.delta after).told := by
  simp only [tell]
  split
  · rename_i n hn
    obtain ⟨left, short⟩ := Option.filter_eq_some_iff.mp hn
    exact .cut t n ok left (by simpa using short)
  · simp only [hsession, htold, List.append_nil]
    exact .told t ok

@[simp] theorem settleStep_told (s : Session) (now : Instant) (run : Run) :
    (s.settleStep now run).told = [] := by
  simp only [settleStep]
  split <;> rfl

theorem settleStep_session (s : Session) (now : Instant) (run : Run) (state : Machine.State)
    (goesOn : state.awaiting = false) :
    (s.counted.settleStep now { run with state }).session = s.settled now run state := by
  by_cases hh : state.isHalted = true
  · simp [settleStep, settled, Run.phaseAfter, goesOn, hh, finish, counted]
  · simp [settleStep, settled, Run.phaseAfter, goesOn, hh, counted]

theorem takeStep_delivers (s : Session) (now : Instant) (takes : Takes) (run : Run) :
    Delivers s takes (run.machine.step run.state) (s.settled now run)
      (s.takeStep now takes run).session (s.takeStep now takes run).told := by
  simp only [takeStep]
  split
  · rename_i f hf
    exact .failed f hf (concludes_of_endWith ..)
  · rename_i t ht
    refine delivers_of_tell ht ?_ ?_
    · split
      · rename_i waits
        simp [settled, Run.phaseAfter, waits, counted]
      · rename_i goesOn
        exact settleStep_session s now run t.state (by simpa using goesOn)
    · split
      · rfl
      · exact settleStep_told ..

theorem answer_delivers (s : Session) (now : Instant) (takes : Takes) (run : Run) (m : Text) :
    Delivers s takes (run.machine.answer run.state m) (s.settled now run)
      (s.answer now takes run m).session (s.answer now takes run m).told := by
  simp only [answer]
  split
  · rename_i f hf
    exact .failed f (by simp [Machine.answer, hf, bind, Except.bind]) (concludes_of_endWith ..)
  · rename_i v hv
    have answer_eq : run.machine.answer run.state m = run.machine.resume run.state v := by
      simp [Machine.answer, hv, bind, Except.bind]
    rw [answer_eq]
    split
    · rename_i f hf
      exact .failed f hf (concludes_of_endWith ..)
    · rename_i t ht
      refine delivers_of_tell ht ?_ (settleStep_told ..)
      exact settleStep_session s now run t.state (Machine.not_awaiting_of_resume ht)

theorem takeSource_reacts (now : Instant) (takes : Takes) (m : Text) (idle : s.phase = .idle)
    (text : Inbound.isDirective m = false) :
    Reacts s now takes (.message m) (s.takeSource now takes m).session
      (s.takeSource now takes m).told := by
  simp only [takeSource]
  split
  · rename_i e he
    exact .refused m e idle text he (concludes_of_endWith ..)
  · rename_i program hp
    simp only [startRun]
    split
    · rename_i hseed
      refine .seeded m program idle text hp hseed ?_
      split
      · rename_i f hf
        exact .failed f hf (concludes_of_endWith ..)
      · rename_i t ht
        exact delivers_of_tell ht rfl rfl
    · rename_i hseed
      exact .started m program idle text hp (by simpa using hseed)

theorem enqueue_reacts (now : Instant) (takes : Takes) (m : Text) {since : Instant}
    (pacing : s.phase = .pacing run since) (text : Inbound.isDirective m = false) :
    Reacts s now takes (.message m) (s.enqueue m).session (s.enqueue m).told := by
  simp only [enqueue]
  split
  · rename_i full
    exact .dropped m run since pacing text full
  · rename_i room
    exact .kept m run since pacing text (by simpa using room)

theorem takeMessage_reacts (now : Instant) (takes : Takes) (m : Text) (listens : s.Listens) :
    Reacts s now takes (.message m) (s.takeMessage now takes m).session
      (s.takeMessage now takes m).told := by
  by_cases directive : Inbound.isDirective m = true
  · rcases Inbound.parse_of_directive directive with ⟨d, hd⟩ | ⟨e, he⟩
    · simp only [takeMessage, hd, setDelay]
      exact .directive m _ listens directive
    · simp only [takeMessage, he, ignore]
      exact .directive m s.delay listens directive
  · have text : Inbound.isDirective m = false := by simpa using directive
    simp only [takeMessage, Inbound.parse_of_text text, takeText]
    cases listens with
    | idle h =>
      simp only [h]
      exact takeSource_reacts now takes m h text
    | pacing run since h =>
      simp only [h]
      exact enqueue_reacts now takes m h text
    | awaiting run since h empty =>
      simp only [h]
      exact .answered m run since h empty text (answer_delivers ..)

/-! ### Cues that are due -/

theorem clientCue_cases {gone : Bool} (h : clientCue? inbox gone = some cue) :
    (∃ m rest, inbox = m :: rest ∧ cue = .message m) ∨
      (inbox = [] ∧ gone = true ∧ cue = .hangup) := by
  cases inbox with
  | cons m rest =>
    cases h
    exact .inl ⟨m, rest, rfl, rfl⟩
  | nil =>
    cases gone with
    | true =>
      cases h
      exact .inr ⟨rfl, rfl, rfl⟩
    | false => cases h

theorem client_reacts (now : Instant) (listens : s.Listens)
    (h : clientCue? inbox takes.gone = some cue) :
    Reacts s now takes cue (s.respond now takes cue).session (s.respond now takes cue).told := by
  rcases clientCue_cases h with ⟨m, rest, -, rfl⟩ | ⟨-, left, rfl⟩
  · exact takeMessage_reacts now takes m listens
  · exact .hangup listens left

/-- **The list is complete**: what a session makes of a cue that is due is on it. -/
theorem reacts_of_cue (h : s.cue? now inbox takes.gone = some cue) :
    Reacts s now takes cue (s.respond now takes cue).session (s.respond now takes cue).told := by
  simp only [cue?] at h
  split at h
  · rename_i idle
    exact client_reacts now (.idle idle) h
  · rename_i run ready
    split at h
    · rename_i late
      cases h
      exact .runTimeout run (by simp [ready]) (by simpa [Run.isLate] using late)
        (concludes_of_endWith ..)
    · cases h
      simp only [respond, ready]
      exact .step run ready (takeStep_delivers ..)
  · rename_i run since pacing
    split at h
    · cases h
      simp only [respond, pacing]
      exact .wake run since pacing
    · split at h
      · rename_i late
        cases h
        exact .runTimeout run (by simp [pacing]) (by simpa [Run.isLate] using late)
          (concludes_of_endWith ..)
      · exact client_reacts now (.pacing run since pacing) h
  · rename_i run since awaiting
    cases inputs : s.inputs with
    | cons m rest =>
      simp only [inputs, List.isEmpty_cons, Bool.not_false, if_true, Option.some.injEq] at h
      subst h
      simp only [respond, takeQueued, awaiting, inputs]
      exact .queued m rest run since awaiting inputs (answer_delivers ..)
    | nil =>
      simp only [inputs, List.isEmpty_nil, Bool.not_true, Bool.false_eq_true, if_false,
        Option.or_eq_some_iff] at h
      rcases h with h | ⟨-, h⟩
      · exact client_reacts now (.awaiting run since awaiting inputs) h
      · split at h
        · rename_i late
          cases h
          exact .inputTimeout run since awaiting inputs late (concludes_of_endWith ..)
        · split at h
          · rename_i late
            cases h
            exact .runTimeout run (by simp [awaiting])
              (by simpa [Run.isLate] using late) (concludes_of_endWith ..)
          · cases h
  · cases h

end Session

end Stepwise

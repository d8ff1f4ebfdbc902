/-
  Stepwise/Proofs/Session/Accounting.lean
  =======================================
  **How a session has ended can be told from the last line of it.**

  A session that is over has ended with the program, with an error, or without a word
  because its client had left.  The events tell which: the end of the program and errors
  are told in one last event, nothing is told behind it, and nothing of the kind is told
  before (`Tells`).  A delta that ends a run tells so in its last event, so a client that
  leaves within the delta has not been told of the end, and for the session it has left.

  The session counts the steps and the answered reads that have been told to the last
  event.  What it counts is read off its turns: the call of the machine that a turn makes
  (`Turn.delta?`), and what it tells (`Turn.told`).
-/
import Stepwise.Proofs.Session.Refinement

namespace Stepwise

open Machine

/-! ### Last events -/

/-- The line tells how the session has ended: the program is finished, or an error. -/
def Text.isFinal (line : Text) : Bool := line == "@f".toList || "@e ".toList.isPrefixOf line

namespace Event

def isFinal : Event → Bool
  | finished | refused _ | failed _ => true
  | _ => false

@[simp] theorem isFinal_line (e : Event) : Text.isFinal e.line = e.isFinal := by
  cases e <;> rfl

/-- The second character of the line of an event. -/
def tag : Event → Char
  | pointer _ => 'p'
  | registers _ => 'r'
  | stack _ => 's'
  | output _ => 'o'
  | requested _ | consumed _ => 'i'
  | finished => 'f'
  | refused _ | failed _ => 'e'

theorem getElem?_line (e : Event) : e.line[1]? = some e.tag := by
  cases e <;> rfl

theorem line_eq_finished_iff {e : Event} : e.line = "@f".toList ↔ e = .finished := by
  constructor
  · intro h
    have tag : some e.tag = some 'f' := by
      rw [← getElem?_line, h]
      rfl
    cases e with
    | finished => rfl
    | _ => cases tag
  · rintro rfl
    rfl

theorem error_line_iff {e : Event} :
    "@e ".toList <+: e.line ↔ (∃ d, e = .refused d) ∨ ∃ f, e = .failed f := by
  constructor
  · rintro ⟨rest, h⟩
    have tag : some e.tag = some 'e' := by
      rw [← getElem?_line, ← h]
      rfl
    cases e with
    | refused d => exact .inl ⟨d, rfl⟩
    | failed f => exact .inr ⟨f, rfl⟩
    | _ => cases tag
  · rintro (⟨d, rfl⟩ | ⟨f, rfl⟩)
    · exact ⟨_, (List.append_assoc ..).symm⟩
    · exact ⟨_, (List.append_assoc ..).symm⟩

/-- Only the end of a run is told in a last event, and behind all else in the delta. -/
theorem ofDelta_eq (d : Delta) :
    ∃ front, (∀ e ∈ front, e.isFinal = false) ∧
      ofDelta d = front ++ (if d.halted then [finished] else []) := by
  refine ⟨_, ?_, rfl⟩
  intro e he
  simp only [List.mem_append, or_assoc] at he
  -- the parts of a delta, in the order in which they are told
  rcases he with he | he | he | he | he | he
  · split at he
    · rcases List.mem_singleton.mp he with rfl
      rfl
    · cases he
  · obtain ⟨values, -, rfl⟩ := by simpa using he
    rfl
  · obtain ⟨values, -, rfl⟩ := by simpa using he
    rfl
  · obtain ⟨v, -, rfl⟩ := by simpa using he
    rfl
  · obtain ⟨i, -, rfl⟩ := by simpa using he
    rfl
  · split at he
    · rcases List.mem_singleton.mp he with rfl
      rfl
    · cases he

/-- A client that has not been told all of a delta has not been told of an end. -/
theorem isFinal_of_mem_take {d : Delta} {n : Nat} (short : n < (ofDelta d).length) {e : Event}
    (he : e ∈ (ofDelta d).take n) : e.isFinal = false := by
  obtain ⟨front, quiet, eq⟩ := ofDelta_eq d
  have within : n ≤ front.length := by
    rw [eq, List.length_append] at short
    split at short <;> simp only [List.length_cons, List.length_nil] at short <;> omega
  rw [eq, List.take_append_of_le_length within] at he
  exact quiet e (List.mem_of_mem_take he)

end Event

namespace Session

/-- What is told last in a session that has ended so, or goes on. -/
inductive LastWord : Option Outcome → List Event → Prop where
  | goesOn : LastWord none []
  | halted : LastWord (some .halted) [.finished]
  | refused (e : DecodeError) : LastWord (some .errored) [.refused e]
  | failed (f : Fault) : LastWord (some .errored) [.failed f]
  | disconnected : LastWord (some .disconnected) []

/-- A session that has ended so, or goes on, has told the last word that goes with it, and
    no other. -/
def Tells (outcome : Option Outcome) (told : List Event) : Prop :=
  ∃ front last, told = front ++ last ∧ (∀ e ∈ front, e.isFinal = false) ∧ LastWord outcome last

variable {s s' : Session} {now : Instant} {takes : Takes} {cue : Cue} {told told' : List Event}
  {run : Run} {outcome : Option Outcome}

theorem LastWord.tells {last : List Event} (h : LastWord outcome last) : Tells outcome last :=
  ⟨[], last, rfl, by simp, h⟩

theorem Tells.goesOn (h : outcome = none) : Tells outcome [] := by
  rw [h]
  exact LastWord.goesOn.tells

theorem Tells.quiet (h : ∀ e ∈ told, e.isFinal = false) (word : LastWord outcome []) :
    Tells outcome told :=
  ⟨told, [], (List.append_nil _).symm, h, word⟩

theorem Tells.isFinal (h : Tells outcome told) (word : LastWord outcome []) :
    ∀ e ∈ told, e.isFinal = false := by
  obtain ⟨front, last, rfl, quiet, same⟩ := h
  cases word <;> cases same <;> simpa using quiet

/-- What a session that goes on has told does not count. -/
theorem Tells.append (h : Tells none told) (h' : Tells outcome told') :
    Tells outcome (told ++ told') := by
  obtain ⟨front, last, rfl, quiet, word⟩ := h'
  refine ⟨told ++ front, last, (List.append_assoc ..).symm, ?_, word⟩
  intro e he
  rcases List.mem_append.mp he with he | he
  · exact h.isFinal .goesOn e he
  · exact quiet e he

theorem Tells.dropLast (h : Tells outcome told) : ∀ e ∈ told.dropLast, e.isFinal = false := by
  obtain ⟨front, last, rfl, quiet, word⟩ := h
  intro e he
  cases word with
  | goesOn | disconnected =>
    rw [List.append_nil] at he
    exact quiet e (List.dropLast_subset front he)
  | halted | refused | failed =>
    rw [List.dropLast_concat] at he
    exact quiet e he

/-- The last event is a last word only if it is the one that goes with the outcome. -/
theorem Tells.lastWord (h : Tells outcome told) {e : Event} (last : told.getLast? = some e)
    (final : e.isFinal = true) : LastWord outcome [e] := by
  obtain ⟨front, word, rfl, quiet, tells⟩ := h
  cases tells with
  | goesOn | disconnected =>
    rw [List.append_nil] at last
    have silent := quiet e (List.mem_of_getLast? last)
    rw [final] at silent
    cases silent
  | halted =>
    rw [List.getLast?_concat] at last
    cases last
    exact .halted
  | refused d =>
    rw [List.getLast?_concat] at last
    cases last
    exact .refused d
  | failed f =>
    rw [List.getLast?_concat] at last
    cases last
    exact .failed f

theorem Tells.halted_iff (h : Tells outcome told) :
    outcome = some .halted ↔ told.getLast? = some .finished := by
  constructor
  · rintro rfl
    obtain ⟨front, last, rfl, -, word⟩ := h
    cases word
    exact List.getLast?_concat
  · intro last
    cases h.lastWord last rfl
    rfl

theorem Tells.errored_iff (h : Tells outcome told) :
    outcome = some .errored ↔
      ∃ e, told.getLast? = some e ∧ ((∃ d, e = .refused d) ∨ ∃ f, e = .failed f) := by
  constructor
  · rintro rfl
    obtain ⟨front, last, rfl, -, word⟩ := h
    cases word with
    | refused d => exact ⟨_, List.getLast?_concat, .inl ⟨d, rfl⟩⟩
    | failed f => exact ⟨_, List.getLast?_concat, .inr ⟨f, rfl⟩⟩
  · rintro ⟨e, last, ⟨d, rfl⟩ | ⟨f, rfl⟩⟩
    · cases h.lastWord last rfl
      rfl
    · cases h.lastWord last rfl
      rfl

theorem Tells.disconnected_iff (h : Tells outcome told) :
    outcome = some .disconnected ↔ outcome.isSome = true ∧ ∀ e ∈ told, e.isFinal = false := by
  constructor
  · rintro rfl
    exact ⟨rfl, h.isFinal .disconnected⟩
  · rintro ⟨ended, silent⟩
    obtain ⟨front, last, rfl, -, word⟩ := h
    cases word with
    | goesOn => cases ended
    | disconnected => rfl
    | halted | refused | failed => cases silent _ (List.mem_append_right front List.mem_cons_self)

/-! ### Responses -/

theorem tells_ofDelta (d : Delta) :
    Tells (if d.halted then some .halted else none) (Event.ofDelta d) := by
  obtain ⟨front, quiet, eq⟩ := Event.ofDelta_eq d
  refine ⟨front, _, eq, quiet, ?_⟩
  cases d.halted with
  | true => exact .halted
  | false => exact .goesOn

theorem outcome_settled (reads : run.machine.WaitsAtRead state) :
    (s.settled now run state).outcome? = if state.isHalted then some .halted else none := by
  by_cases waits : state.awaiting = true
  · have goesOn : state.isHalted = false := not_halted_of_awaiting reads waits
    simp [Run.phaseAfter, outcome?, waits, goesOn]
  · by_cases finished : state.isHalted = true <;>
      simp [Run.phaseAfter, outcome?, waits, finished]

theorem Concludes.steps {last : Event} (h : Concludes s takes last s' told) :
    s'.steps = s.steps := by
  cases h with
  | said stays => rfl
  | lost left => rfl

theorem Concludes.tells {last : Event} (h : Concludes s takes last s' told)
    (word : LastWord (some .errored) [last]) : Tells s'.outcome? told := by
  cases h with
  | said stays => exact word.tells
  | lost left => exact LastWord.disconnected.tells

theorem Delivers.tells {result : Except Fault Transition} {next : State → Session}
    (h : Delivers s takes result next s' told)
    (goesOn : ∀ t, result = .ok t →
      (next t.state).outcome? = if t.delta.halted then some .halted else none) :
    Tells s'.outcome? told := by
  cases h with
  | told t ok =>
    rw [goesOn t ok]
    exact tells_ofDelta t.delta
  | cut t n ok left short =>
    exact .quiet (fun e he => Event.isFinal_of_mem_take short he) .disconnected
  | failed f error concludes => exact concludes.tells (.failed f)

theorem outcome_of_cue {inbox : List Text} {gone : Bool} (h : s.cue? now inbox gone = some cue) :
    s.outcome? = none := by
  cases phase : s.phase with
  | ended outcome => simp [cue?, phase] at h
  | _ => simp [outcome?, phase]

/-- A session whose run is not over tells the last word when it ends, and not before. -/
theorem Reacts.tells (h : Reacts s now takes cue s' told) (goesOn : s.outcome? = none)
    (runs : ∀ run, s.phase.run? = some run →
      run.state.isHalted = false ∧ run.machine.WaitsAtRead run.state) :
    Tells s'.outcome? told := by
  have answered : ∀ (r : Session) (run : Run) (m : Text),
      Delivers r takes (run.machine.answer run.state m) (r.settled now run) s' told →
        Tells s'.outcome? told := by
    intro r run m delivers
    refine delivers.tells ?_
    intro t ok
    obtain ⟨v, -, resumed⟩ := answer_cases ok
    rw [outcome_settled (waitsAtRead_of_resume resumed), not_halted_of_resume resumed,
      running_of_resume resumed]
  cases h with
  | directive m d listens directive => exact .goesOn goesOn
  | hangup listens left => exact LastWord.disconnected.tells
  | refused m e idle text refuses concludes => exact concludes.tells (.refused e)
  | started m program idle text decodes unseeded => exact .goesOn rfl
  | seeded m program idle text decodes seeded delivers =>
    -- the seed comes before the first step, and cannot end the run
    refine delivers.tells ?_
    intro t ok
    rw [running_of_seed ok]
    rfl
  | step run ready delivers =>
    obtain ⟨running, reads⟩ := runs run (by simp [ready])
    refine delivers.tells ?_
    intro t ok
    rw [outcome_settled (waitsAtRead_of_step reads ok), delta_halted_of_step reads running ok]
  | wake run since pacing => exact .goesOn rfl
  | kept m run since pacing text room => exact .goesOn goesOn
  | dropped m run since pacing text full => exact .goesOn goesOn
  | queued m rest run since awaiting inputs delivers => exact answered _ run m delivers
  | answered m run since awaiting empty text delivers => exact answered s run m delivers
  | inputTimeout run since awaiting empty late concludes => exact concludes.tells (.failed _)
  | runTimeout run running late concludes => exact concludes.tells (.failed _)

/-! ### Clients that have left -/

/-- A response tells all that it would tell a client that stays, or the session is over
    because the client has left. -/
def CutOff (r whole : Response) : Prop :=
  r.told = whole.told ∨ r.session.outcome? = some .disconnected

theorem endWith_cutOff (s : Session) (takes : Takes) (last : Event) (reason : Text) :
    CutOff (s.endWith takes last reason) (s.endWith none last reason) := by
  have stays : Takes.gone none = false := rfl
  cases left : takes.gone with
  | false => exact .inl (by simp [endWith, left, stays])
  | true => exact .inr (by simp [endWith, left, finish, outcome?])

theorem tell_cutOff (s : Session) (takes : Takes) (d : Delta) (after : Session → Response) :
    CutOff (s.tell takes d after) (s.tell none d after) := by
  have stays : Takes.short? none (Event.ofDelta d).length = none := rfl
  cases short : takes.short? (Event.ofDelta d).length with
  | none => exact .inl (by simp [tell, short, stays])
  | some n => exact .inr (by simp [tell, short, finish, outcome?])

theorem takeStep_cutOff (s : Session) (now : Instant) (takes : Takes) (run : Run) :
    CutOff (s.takeStep now takes run) (s.takeStep now none run) := by
  simp only [takeStep]
  split
  · exact endWith_cutOff ..
  · exact tell_cutOff ..

theorem answer_cutOff (s : Session) (now : Instant) (takes : Takes) (run : Run) (m : Text) :
    CutOff (s.answer now takes run m) (s.answer now none run m) := by
  simp only [answer]
  split
  · exact endWith_cutOff ..
  · split
    · exact endWith_cutOff ..
    · exact tell_cutOff ..

theorem startRun_cutOff (s : Session) (now : Instant) (takes : Takes) (program : Program) :
    CutOff (s.startRun now takes program) (s.startRun now none program) := by
  simp only [startRun]
  split
  · split
    · exact endWith_cutOff ..
    · exact tell_cutOff ..
  · exact .inl rfl

theorem takeMessage_cutOff (s : Session) (now : Instant) (takes : Takes) (m : Text) :
    CutOff (s.takeMessage now takes m) (s.takeMessage now none m) := by
  simp only [takeMessage]
  split
  · exact .inl rfl
  · exact .inl rfl
  · rename_i text
    simp only [takeText]
    split
    · simp only [takeSource]
      split
      · exact endWith_cutOff ..
      · exact startRun_cutOff s now takes _
    · exact answer_cutOff ..
    · exact .inl rfl
    · exact .inl rfl
    · exact .inl rfl

theorem respond_cutOff (s : Session) (now : Instant) (takes : Takes) (cue : Cue) :
    CutOff (s.respond now takes cue) (s.respond now none cue) := by
  cases cue with
  | step =>
    simp only [respond]
    split
    · exact takeStep_cutOff ..
    · exact .inl rfl
  | queued =>
    simp only [respond, takeQueued]
    split
    · exact answer_cutOff ..
    · exact .inl rfl
  | message m => exact takeMessage_cutOff ..
  | wake => exact .inl rfl
  | hangup => exact .inl rfl
  | inputTimeout => exact endWith_cutOff ..
  | runTimeout => exact endWith_cutOff ..

end Session

namespace Conversation

open Session

/-! ### Turns -/

namespace Turn

/-- What the client has been told in a turn. -/
def told (t : Turn) : List Event :=
  (t.before.session.respond t.before.instant t.before.takes t.cue).told

/-- The session notices that the client has left: that is the cue, or the client has not
    been told all that there was to tell. -/
def notices (t : Turn) : Bool :=
  t.cue == .hangup || t.told != (t.before.session.respond t.before.instant none t.cue).told

/-- The delta of the step that a turn takes, or of the read that it answers. -/
def delta? (t : Turn) : Option Delta :=
  match t.before.session.phase.run? with
  | none => none
  | some run =>
    match t.consumed? with
    | some input => (run.machine.answer run.state input).toOption.map (·.delta)
    | none => if t.cue = .step then (run.machine.step run.state).toOption.map (·.delta) else none

/-- The turn takes a step or answers a read, and all of its delta has been told. -/
def delivered (t : Turn) : Bool := t.delta?.map Event.ofDelta == some t.told

variable {c : Conversation} {cue : Cue} {run : Run} {m : Text}

theorem disconnected_of_notices {t : Turn} (h : t.notices = true) :
    t.after.session.outcome? = some .disconnected := by
  obtain ⟨before, cue⟩ := t
  simp only [notices, told, Bool.or_eq_true, beq_iff_eq, bne_iff_ne] at h
  rcases h with rfl | short
  · rfl
  · rcases respond_cutOff before.session before.instant before.takes cue with same | left
    · exact absurd same short
    · exact left

@[simp] theorem delta?_of_idle (idle : c.session.phase = .idle) : delta? ⟨c, cue⟩ = none := by
  simp [delta?, idle]

theorem delta?_of_step (ready : c.session.phase = .ready run) :
    delta? ⟨c, .step⟩ = (run.machine.step run.state).toOption.map (·.delta) := by
  simp [delta?, consumed?, ready]

theorem delta?_of_consumed (running : c.session.phase.run? = some run)
    (consumed : consumed? ⟨c, cue⟩ = some m) :
    delta? ⟨c, cue⟩ = (run.machine.answer run.state m).toOption.map (·.delta) := by
  simp [delta?, running, consumed]

theorem delta?_eq_none (step : cue ≠ .step) (consumed : consumed? ⟨c, cue⟩ = none) :
    delta? ⟨c, cue⟩ = none := by
  cases running : c.session.phase.run? <;> simp [delta?, running, consumed, step]

theorem delta?_of_other (step : cue ≠ .step) (queued : cue ≠ .queued)
    (message : ∀ m, cue ≠ .message m) : delta? ⟨c, cue⟩ = none :=
  delta?_eq_none step (consumed?_eq_none queued message)

end Turn

variable {c : Conversation} {cue : Cue} {s' : Session} {told : List Event}

/-- A call that a turn makes is counted if all of its delta is told. -/
theorem counts_of_delivers {r : Session} {takes : Takes} {result : Except Fault Transition}
    {next : State → Session} (h : Delivers r takes result next s' told)
    (counts : ∀ state, (next state).steps = r.steps + 1) :
    s'.steps = r.steps +
      if (result.toOption.map (·.delta)).map Event.ofDelta = some told then 1 else 0 := by
  cases h with
  | told t ok => simp [ok, Except.toOption, counts]
  | cut t n ok left short =>
    -- what the client has taken is not the whole delta
    have part : Event.ofDelta t.delta ≠ (Event.ofDelta t.delta).take n := by
      intro whole
      have := congrArg List.length whole
      rw [List.length_take] at this
      omega
    simp [ok, Except.toOption, part]
  | failed f error concludes => simp [error, Except.toOption, concludes.steps]

/-- A response counts what it delivers, and nothing else. -/
theorem counts_of_reacts (h : Reacts c.session c.instant c.takes cue s' told) :
    s'.steps = c.session.steps +
      if (Turn.delta? ⟨c, cue⟩).map Event.ofDelta = some told then 1 else 0 := by
  have uncounted (steps : s'.steps = c.session.steps) (delta : Turn.delta? ⟨c, cue⟩ = none) :
      s'.steps = c.session.steps +
        if (Turn.delta? ⟨c, cue⟩).map Event.ofDelta = some told then 1 else 0 := by
    simp [steps, delta]
  cases h with
  | directive m d listens directive =>
    exact uncounted rfl (Turn.delta?_eq_none (by simp) (Turn.consumed?_of_directive directive))
  | hangup listens left =>
    exact uncounted rfl (Turn.delta?_of_other (by simp) (by simp) (by simp))
  | refused m e idle text refuses concludes =>
    exact uncounted concludes.steps (Turn.delta?_of_idle idle)
  | started m program idle text decodes unseeded => exact uncounted rfl (Turn.delta?_of_idle idle)
  | seeded m program idle text decodes seeded delivers =>
    refine uncounted ?_ (Turn.delta?_of_idle idle)
    exact delivers.session (P := fun r => r.steps = c.session.steps) (fun _ => rfl) fun _ => rfl
  | step run ready delivers =>
    rw [Turn.delta?_of_step ready]
    exact counts_of_delivers delivers fun _ => rfl
  | wake run since pacing =>
    exact uncounted rfl (Turn.delta?_of_other (by simp) (by simp) (by simp))
  | kept m run since pacing text room =>
    exact uncounted rfl (Turn.delta?_eq_none (by simp) (by simp [Turn.consumed?, pacing]))
  | dropped m run since pacing text full =>
    exact uncounted rfl (Turn.delta?_eq_none (by simp) (by simp [Turn.consumed?, pacing]))
  | queued m rest run since awaiting inputs delivers =>
    have running : c.session.phase.run? = some run := by simp [awaiting]
    have consumed : Turn.consumed? ⟨c, .queued⟩ = some m := by
      simp [Turn.consumed?, awaiting, inputs]
    rw [Turn.delta?_of_consumed running consumed]
    exact counts_of_delivers (r := { c.session with inputs := rest }) delivers fun _ => rfl
  | answered m run since awaiting empty text delivers =>
    have running : c.session.phase.run? = some run := by simp [awaiting]
    have consumed : Turn.consumed? ⟨c, .message m⟩ = some m := by
      simp [Turn.consumed?, awaiting, text]
    rw [Turn.delta?_of_consumed running consumed]
    exact counts_of_delivers delivers fun _ => rfl
  | inputTimeout run since awaiting empty late concludes =>
    exact uncounted concludes.steps (Turn.delta?_of_other (by simp) (by simp) (by simp))
  | runTimeout run running late concludes =>
    exact uncounted concludes.steps (Turn.delta?_of_other (by simp) (by simp) (by simp))

namespace History

variable {config : Config} {seed : Int} {h h' : History}

/-! ### Accounts -/

/-- What a session has told and counted agrees with its turns, and with how it has ended. -/
structure Accounts (h : History) : Prop where
  told : h.told = h.turns.flatMap Turn.told
  steps : h.talk.session.steps = h.turns.countP Turn.delivered
  tells : Tells h.talk.session.outcome? h.told
  notices : ∀ t ∈ h.turns, t.notices = true →
    h.turns.getLast? = some t ∧ h.talk.session.outcome? = some .disconnected

theorem Accounts.frame (f : Frame h h') (a : h.Accounts) : h'.Accounts where
  told := by rw [told_of_frame f, f.turns, a.told]
  steps := by rw [f.session.steps, f.turns, a.steps]
  tells := by
    rw [f.session.outcome, told_of_frame f]
    exact a.tells
  notices := by
    rw [f.session.outcome, f.turns]
    exact a.notices

theorem told_respondTo (h : History) (cue : Cue) :
    (h.respondTo cue).told = h.told ++ Turn.told ⟨h.talk, cue⟩ := by
  simp [told, Turn.told, Function.comp_def]

theorem Accounts.respond (hc : h.talk.cue? = some cue) (hs : h.Stands config seed)
    (a : h.Accounts) : (h.respondTo cue).Accounts := by
  have reacts : Reacts h.talk.session h.talk.instant h.talk.takes cue
      (h.respondTo cue).talk.session (Turn.told ⟨h.talk, cue⟩) := reacts_of_cue hc
  have goesOn : h.talk.session.outcome? = none := outcome_of_cue hc
  have tells := a.tells
  rw [goesOn] at tells
  refine ⟨?_, ?_, ?_, ?_⟩
  · rw [told_respondTo, a.told]
    simp
  · rw [counts_of_reacts reacts, a.steps]
    simp [List.countP_append, Turn.delivered]
  · rw [told_respondTo]
    refine tells.append (reacts.tells goesOn ?_)
    intro run running
    obtain ⟨source, program, ds, r⟩ := hs.of_run running
    exact ⟨r.goesOn, r.reads⟩
  · intro t ht notices
    rcases List.mem_append.mp ht with earlier | now
    · -- a session that had noticed it before would be over
      obtain ⟨-, left⟩ := a.notices t earlier notices
      rw [goesOn] at left
      cases left
    · cases List.mem_singleton.mp now
      exact ⟨List.getLast?_concat, Turn.disconnected_of_notices notices⟩

theorem Accounts.move (hs : h.Stands config seed) (a : h.Accounts) (mv : Move) :
    (h.move mv).Accounts := by
  by_cases hmv : mv = .respond
  · subst hmv
    rcases respond_cases h with same | ⟨cue, hc, next⟩
    · rw [same]
      exact a
    · rw [next]
      exact a.respond hc hs
  · exact a.frame (frame_of_move hmv)

theorem of_append (peer : Text) (config : Config) (seed : Int) (schedule more : List Move) :
    History.of peer config seed (schedule ++ more) =
      (History.of peer config seed schedule).run more :=
  List.foldl_append

theorem accounts_run {peer : Text} (schedule : List Move)
    (a : (History.of peer config seed schedule).Accounts) (more : List Move) :
    (History.of peer config seed (schedule ++ more)).Accounts := by
  induction more generalizing schedule with
  | nil => simpa using a
  | cons mv more ih =>
    -- what a response may tell depends on where the play stands behind `schedule`
    have next : (History.of peer config seed (schedule ++ [mv])).Accounts := by
      rw [of_append]
      exact a.move (stands_of peer config seed schedule) mv
    rw [List.append_cons]
    exact ih _ next

theorem accounts_of (peer : Text) (config : Config) (seed : Int) (schedule : List Move) :
    (History.of peer config seed schedule).Accounts :=
  accounts_run [] ⟨rfl, rfl, LastWord.goesOn.tells, fun _ ht => by cases ht⟩ schedule

/-- A session that is over tells nothing more and counts nothing more. -/
theorem frozen_of_over {outcome : Outcome} (ended : h.talk.session.outcome? = some outcome)
    (schedule : List Move) :
    (h.run schedule).told = h.told ∧ (h.run schedule).talk.session.outcome? = some outcome ∧
      (h.run schedule).talk.session.steps = h.talk.session.steps := by
  refine run_induction (P := fun h' => h'.told = h.told ∧
    h'.talk.session.outcome? = some outcome ∧ h'.talk.session.steps = h.talk.session.steps)
    ?_ ?_ ⟨rfl, ended, rfl⟩ schedule
  · intro h₁ h₂ f ⟨told, stays, steps⟩
    exact ⟨by rw [told_of_frame f, told], by rw [f.session.outcome, stays],
      by rw [f.session.steps, steps]⟩
  · intro h₁ cue hc ⟨told, stays, steps⟩
    rw [outcome_of_cue hc] at stays
    cases stays

/-- **How a session has ended is what its last line tells, and its counter tells how many
    deltas have been told.**  Under every schedule the lines that the client has received
    are those of the session's turns.  Only the last of them may be final.  It is the line
    of a finished program exactly if the session has halted, and an error line exactly if it
    has ended with an error; there is none exactly if the session is over because its client
    has left.  A turn in which that is noticed is the last one.  The counter is the number of
    steps and answered reads that have been told whole.  Once a session is over, it tells
    and counts nothing more. -/
theorem last_line_tells_outcome (peer : Text) (config : Config) (seed : Int)
    (schedule : List Move) :
    let h := History.of peer config seed schedule
    let s := h.talk.session
    let lines := h.told.map Event.line
    h.told = h.turns.flatMap Turn.told ∧
      (∀ line ∈ lines.dropLast, Text.isFinal line = false) ∧
      (s.outcome? = some .halted ↔ lines.getLast? = some "@f".toList) ∧
      (s.outcome? = some .errored ↔
        ∃ line, lines.getLast? = some line ∧ "@e ".toList <+: line) ∧
      (s.outcome? = some .disconnected ↔
        s.isOver = true ∧ ∀ line ∈ lines, Text.isFinal line = false) ∧
      (∀ t ∈ h.turns, t.notices = true →
        h.turns.getLast? = some t ∧ s.outcome? = some .disconnected) ∧
      s.steps = h.turns.countP Turn.delivered ∧
      (s.isOver = true → ∀ more, let h' := History.of peer config seed (schedule ++ more)
        h'.told = h.told ∧ h'.talk.session.outcome? = s.outcome? ∧
          h'.talk.session.steps = s.steps) := by
  intro h s lines
  have a : h.Accounts := accounts_of peer config seed schedule
  have last : lines.getLast? = h.told.getLast?.map Event.line := List.getLast?_map
  refine ⟨a.told, ?_, ?_, ?_, ?_, a.notices, a.steps, ?_⟩
  · intro line hl
    rw [← List.map_dropLast] at hl
    obtain ⟨e, he, rfl⟩ := List.mem_map.mp hl
    rw [Event.isFinal_line]
    exact a.tells.dropLast e he
  · rw [a.tells.halted_iff, last, Option.map_eq_some_iff]
    constructor
    · intro finished
      exact ⟨_, finished, rfl⟩
    · rintro ⟨e, he, line⟩
      rw [he, Event.line_eq_finished_iff.mp line]
  · rw [a.tells.errored_iff, last]
    constructor
    · rintro ⟨e, he, error⟩
      exact ⟨e.line, by rw [he]; rfl, Event.error_line_iff.mpr error⟩
    · rintro ⟨line, hl, error⟩
      obtain ⟨e, he, rfl⟩ := Option.map_eq_some_iff.mp hl
      exact ⟨e, he, Event.error_line_iff.mp error⟩
  · rw [a.tells.disconnected_iff]
    refine and_congr_right fun _ => ?_
    constructor
    · intro quiet line hl
      obtain ⟨e, he, rfl⟩ := List.mem_map.mp hl
      rw [Event.isFinal_line]
      exact quiet e he
    · intro quiet e he
      rw [← Event.isFinal_line]
      exact quiet _ (List.mem_map_of_mem he)
  · intro isOver more h'
    obtain ⟨outcome, ended⟩ := Option.isSome_iff_exists.mp isOver
    have frozen := frozen_of_over ended more
    rw [← of_append] at frozen
    exact ⟨frozen.1, frozen.2.1.trans ended.symm, frozen.2.2⟩

/-- A client that leaves in front of the event that tells the end of the program: one step
    is counted, and the session has not halted. -/
theorem last_line_tells_outcome_unheard_end :
    let schedule : List Move :=
      [.post "push 1\nhalt".toList, .leave 2, .respond, .respond, .pass 150, .respond, .respond]
    let h := History.of [] {} 0 schedule
    h.told.map Event.line = ["@s 1".toList, "@p 1".toList] ∧
      h.talk.session.outcome? = some .disconnected ∧ h.talk.session.steps = 1 := by
  intro schedule h
  have lines : h.told.map Event.line = ["@s 1".toList, "@p 1".toList] := by decide +kernel
  obtain ⟨-, -, -, -, disconnected, -, steps, -⟩ := last_line_tells_outcome [] {} 0 schedule
  refine ⟨lines, disconnected.mpr ⟨by decide +kernel, ?_⟩, steps.trans (by decide +kernel)⟩
  rw [lines]
  decide +kernel

end History

end Conversation

end Stepwise

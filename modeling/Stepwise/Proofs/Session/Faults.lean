/-
  Stepwise/Proofs/Session/Faults.lean
  ===================================
  **Faults that a session can tell, once its source has decoded.**

  Every call of the machine that a session makes is made where a play of its program
  stands, whatever its client does (`Turn.Calls`, `runs_of_call`).  So it fails only for
  what can arise there: no jump leads out of the program, and the session never offers a
  value that nothing has asked for.  Values out of range do not come near the machine
  either, since the text of an input is read before.  An error line therefore names a fault
  that a decoded program can raise, a budget of the session, or an input that is no value
  (`raises_only_what_arises`).
-/
import Stepwise.Proofs.Machine.Raised
import Stepwise.Proofs.Session.Accounting

namespace Stepwise

open Machine

/-- The kinds of the faults that a machine can raise for a decoded program. -/
def Fault.arisingKinds : List Text :=
  ["StackUnderflow".toList, "DivisionByZero".toList, "InvalidRegister".toList,
    "ValueOverflow".toList, "ResourceLimitExceeded".toList]

theorem Fault.Arises.kind_mem {f : Fault} (arises : f.Arises) : f.kind ∈ arisingKinds := by
  cases f with
  | stackUnderflow index => exact .head _
  | divisionByZero index => exact .tail _ (.head _)
  | invalidRegister register available => exact .tail _ (.tail _ (.head _))
  | valueOverflow index bound => exact .tail _ (.tail _ (.tail _ (.head _)))
  | exceeded budget => exact .tail _ (.tail _ (.tail _ (.tail _ (.head _))))
  | invalidJumpTarget | invalidInput | unexpectedInput => cases arises

theorem kind_of_inputValue {text : Text} {f : Fault} (h : inputValue text = .error f) :
    f.kind = "InvalidInput".toList := by
  simp only [inputValue] at h
  split at h <;> cases h
  rfl

namespace Conversation

open Session

/-- The session makes a call of a machine in a turn. -/
inductive Turn.Calls : Turn → Machine → State → Call → Prop where
  | seed {c : Conversation} {text : Text} {program : Program} (idle : c.session.phase = .idle)
      (source : Inbound.isDirective text = false) (decodes : decode text = .ok program)
      (seeded : c.session.config.seedInput = true) :
      Calls ⟨c, .message text⟩ (machineFor c.session.config program) {} (.seed c.session.seed)
  | step {c : Conversation} {run : Run} (ready : c.session.phase = .ready run) :
      Calls ⟨c, .step⟩ run.machine run.state .step
  | resume {t : Turn} {run : Run} {text : Text} {v : Int}
      (running : t.before.session.phase.run? = some run) (consumes : t.consumed? = some text)
      (value : inputValue text = .ok v) :
      Calls t run.machine run.state (.resume v)

namespace History

variable {peer source : Text} {config : Config} {seed : Int} {schedule : List Move} {h : History}
  {program : Program} {run : Run} {ds : List Delta} {p : Play} {t : Turn} {f : Fault}

/-- Every turn is taken in a conversation that a part of the schedule leads to. -/
theorem exists_of_mem_turns (ht : t ∈ (History.of peer config seed schedule).turns) :
    ∃ front, t.before = (History.of peer config seed front).talk := by
  induction schedule using List.reverseRecOn with
  | nil => cases ht
  | append_singleton front mv ih =>
    -- a move adds the turn of a response, or none
    rw [of_append] at ht
    rcases List.mem_append.mp ht with earlier | now
    · exact ih earlier
    · refine ⟨front, ?_⟩
      cases mv with
      | respond =>
        obtain ⟨cue, -, rfl⟩ := by simpa [responses] using now
        rfl
      | _ => cases now

theorem Runs.bounded (r : h.Runs config seed source program run ds) :
    run.machine.Bounded run.state := by
  rw [r.machine]
  exact r.plays.bounded (bounded_start _)

theorem Runs.jumpsWithin (r : h.Runs config seed source program run ds) :
    run.machine.JumpsWithin := by
  rw [r.machine]
  exact jumpsWithin_of_decode r.decodes

theorem waits_of_consumes {text : Text} (consumes : t.consumed? = some text) :
    t.before.session.phase.waits = true := by
  cases phase : t.before.session.phase with
  | awaiting run since => rfl
  | _ => simp [Turn.consumed?, phase] at consumes

/-- **A call that a session makes fails for what can arise, or not at all.** -/
theorem arises_of_calls {m : Machine} {s : State} {c : Call}
    (ht : t ∈ (History.of peer config seed schedule).turns) (calls : t.Calls m s c)
    (fails : m.call s c = .error f) : f.Arises := by
  obtain ⟨front, before⟩ := exists_of_mem_turns ht
  have stands := stands_of peer config seed front
  cases calls with
  | seed idle source decodes seeded => exact arises_of_seed fails
  | step ready =>
    cases before
    obtain ⟨source, program, ds, r⟩ := stands.of_run (by rw [ready]; rfl)
    exact arises_of_step r.jumpsWithin fails
  | resume running consumes value =>
    rw [before] at running
    obtain ⟨source, program, ds, r⟩ := stands.of_run running
    have waits := waits_of_consumes consumes
    rw [before] at waits
    exact r.bounded.arises_of_resume (r.waits.trans waits) (inRange_of_inputValue value) fails

/-! ### Plays and error lines -/

theorem arises_of_plays {m : Machine} {inputs : List Text} (decodes : decode source = .ok m.program)
    (plays : m.Plays (opening config seed inputs) ds p) (fails : m.next p = .fault f) :
    f.Arises ∨ ∃ text ∈ inputs, inputValue text = .error f := by
  have bounded : m.Bounded p.state := plays.bounded (bounded_start m)
  rcases arises_of_next (jumpsWithin_of_decode decodes) bounded fails with
    arises | ⟨text, next, value⟩
  · exact .inl arises
  · refine .inr ⟨text, ?_, value⟩
    exact plays.inputs_suffix.mem (List.mem_of_head? next)

theorem arises_of_blames {m : Machine} {inputs : List Text}
    (decodes : decode source = .ok m.program)
    (plays : m.Plays (opening config seed inputs) ds p) (blames : Blames m config p f) :
    f.Arises ∨ ∃ text ∈ inputs, inputValue text = .error f := by
  cases blames with
  | play f fails => exact arises_of_plays decodes plays fails
  | inputTimeout starved => exact .inl trivial
  | runTimeout => exact .inl trivial

theorem not_error_of_mem_ofDelta {d : Delta} {e : Event} (he : e ∈ Event.ofDelta d) :
    ¬ "@e ".toList <+: e.line := by
  intro error
  obtain ⟨front, quiet, eq⟩ := Event.ofDelta_eq d
  rw [eq] at he
  -- a delta tells nothing final but the end of the program, which is no error
  rcases Event.error_line_iff.mp error with ⟨e, rfl⟩ | ⟨f, rfl⟩
  all_goals
    rcases List.mem_append.mp he with he | he
    · cases quiet _ he
    · split at he <;> simp at he

theorem not_error_of_mem_ofDeltas {e : Event} (he : e ∈ Event.ofDeltas ds) :
    ¬ "@e ".toList <+: e.line := by
  obtain ⟨d, -, he⟩ := List.mem_flatMap.mp he
  exact not_error_of_mem_ofDelta he

/-- An error that is told blames the place where the play of the program stands. -/
theorem Stands.error_cases (hs : h.Stands config seed)
    (first : (Inbound.texts h.taken).head? = some source) (decodes : decode source = .ok program)
    {e : Event} (he : e ∈ h.told) (error : "@e ".toList <+: e.line) :
    ∃ f, e = .failed f ∧ ∃ ds p,
      (machineFor config program).Plays (opening config seed h.consumed) ds p ∧
        Blames (machineFor config program) config p f := by
  cases hs with
  | idle phase silent | unheard phase silent =>
    rw [silent.told] at he
    cases he
  | refused source e r =>
    cases r.first.symm.trans first
    cases decodes.symm.trans r.refuses
  | running source program run ds r =>
    rw [r.told] at he
    exact absurd error (not_error_of_mem_ofDeltas he)
  | ended source program outcome ds p tail ended =>
    cases ended.first.symm.trans first
    cases decodes.symm.trans ended.decodes
    rw [ended.told] at he
    rcases List.mem_append.mp he with he | he
    · exact absurd error (not_error_of_mem_ofDeltas he)
    · cases ended.closes with
      | errored f blames => exact ⟨f, List.mem_singleton.mp he, ds, p, ended.plays, blames⟩
      | halted | left => cases he
      | cut d q n left next short =>
        exact absurd error (not_error_of_mem_ofDelta (List.mem_of_mem_take he))

/-- **A session whose source has decoded raises only what can arise.**  A play of its
    program, whatever the inputs are, fails for what can arise or for an input that is no
    value, and a call of the machine that the session makes fails for what can arise.  So
    of the kinds of faults only six can be told, and one of them only for an input that a
    read has consumed. -/
theorem raises_only_what_arises (peer : Text) (config : Config) (seed : Int)
    (schedule : List Move) (source : Text) (program : Program)
    (first : (Inbound.texts (History.of peer config seed schedule).taken).head? = some source)
    (decodes : decode source = .ok program) :
    let h := History.of peer config seed schedule
    (∀ inputs ds p f,
      (machineFor config program).Plays (opening config seed inputs) ds p →
        (machineFor config program).next p = .fault f →
          f.Arises ∨ ∃ text ∈ inputs, inputValue text = .error f) ∧
      (∀ t ∈ h.turns, ∀ m s c f, t.Calls m s c → m.call s c = .error f → f.Arises) ∧
      ∀ line ∈ h.told.map Event.line, "@e ".toList <+: line →
        ∃ f, line = Event.errorLine f.kind f.message ∧
          (f.kind ∈ Fault.arisingKinds ∨
            f.kind = "InvalidInput".toList ∧ ∃ text ∈ h.consumed, inputValue text = .error f) := by
  intro h
  refine ⟨?_, ?_, ?_⟩
  · intro inputs ds p f plays fails
    exact arises_of_plays decodes plays fails
  · intro t ht m s c f calls fails
    exact arises_of_calls ht calls fails
  · intro line hl error
    obtain ⟨e, he, rfl⟩ := List.mem_map.mp hl
    obtain ⟨f, rfl, ds, p, plays, blames⟩ :=
      (stands_of peer config seed schedule).error_cases first decodes he error
    refine ⟨f, rfl, ?_⟩
    rcases arises_of_blames decodes plays blames with arises | ⟨text, consumed, value⟩
    · exact .inl arises.kind_mem
    · exact .inr ⟨kind_of_inputValue value, text, consumed, value⟩

/-- A program with a jump to its end, and a read that is given no value: the client is told
    of the input. -/
theorem raises_only_what_arises_no_value :
    let source := "jmp on\non: read a\njmp done\ndone:".toList
    let schedule : List Move :=
      [.post source, .respond, .respond, .pass 150, .respond, .respond, .post "x".toList, .respond]
    let h := History.of [] {} 0 schedule
    let line := "@e InvalidInput: input \"x\" is not an integer within [-2147483648, 2147483648]"
    (Inbound.texts h.taken).head? = some source ∧ (∃ program, decode source = .ok program) ∧
      line.toList ∈ h.told.map Event.line ∧ h.consumed = ["x".toList] ∧
      ∃ f : Fault, line.toList = Event.errorLine f.kind f.message := by
  intro source schedule h line
  obtain ⟨program, decodes⟩ : ∃ program, decode source = .ok program := ⟨_, rfl⟩
  have first : (Inbound.texts h.taken).head? = some source := by decide +kernel
  have told : line.toList ∈ h.told.map Event.line := by decide +kernel
  obtain ⟨-, -, errors⟩ := raises_only_what_arises [] {} 0 schedule source program first decodes
  obtain ⟨f, blamed, -⟩ := errors line.toList told (by decide +kernel)
  exact ⟨first, ⟨program, decodes⟩, told, by decide +kernel, f, blamed⟩

end History

end Conversation

end Stepwise

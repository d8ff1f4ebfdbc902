/-
  Stepwise/Proofs/Session/Timing.lean
  ===================================
  **What a session tells does not depend on when its messages come.**

  Two sessions are given the same source and the same inputs, and no more inputs than the
  queue has room for.  Pauses, directives and the moments at which messages arrive may
  differ, so an input may wait in the queue of one session and find a read waiting in the
  other.  If both are left to their programs until they end, their clients are told the
  same (`told_whenever`).

  Neither session is compared with the other.  Each is compared with the play that has
  all the inputs from the start, and that play has one result (`Result.unique`).
-/
import Stepwise.Proofs.Session.Delivery
import Stepwise.Proofs.Session.Refinement

namespace Stepwise

open Machine

/-- The event tells that a budget of time is used up. -/
def Event.isTimeout : Event → Bool
  | .failed (.exceeded (.inputTimeout _)) => true
  | .failed (.exceeded (.runTime _)) => true
  | _ => false

/-- What is told at the end of a play and how the session ends, if the play ends there. -/
def Machine.Next.verdict? : Next → Option (List Event × Session.Outcome)
  | .finished => some ([], .halted)
  | .fault f => some ([.failed f], .errored)
  | .delta _ _ | .starved => none

namespace Session

/-! ### The result of a source and its inputs -/

/-- What a source and inputs come to when nothing but the program decides: the events,
    the outcome, and the number of steps and answered reads. -/
inductive Result (limits : Limits) (source : Text) (inputs : List Text) :
    List Event → Outcome → Nat → Prop where
  | refused (e : DecodeError) (refuses : decode source = .error e) :
      Result limits source inputs [.refused e] .errored 0
  | ran (program : Program) (ds : List Delta) (p : Play) (tail : List Event) (outcome : Outcome)
      (decodes : decode source = .ok program)
      (plays : Machine.Plays { program, limits } { inputs } ds p)
      (verdict : (Machine.next { program, limits } p).verdict? = some (tail, outcome)) :
      Result limits source inputs (Event.ofDeltas ds ++ tail) outcome ds.length

variable {m : Machine} {p : Play} {limits : Limits} {source : Text} {inputs : List Text}
  {told told' tail : List Event} {outcome outcome' : Outcome} {steps steps' : Nat}

theorem stops_of_verdict (h : (m.next p).verdict? = some (tail, outcome)) : m.Stops p := by
  intro d q next
  rw [next] at h
  cases h

/-- A play that has ended has ended with further texts as well. -/
theorem verdict_more (h : (m.next p).verdict? = some (tail, outcome)) (texts : List Text) :
    (m.next (p.more texts)).verdict? = some (tail, outcome) := by
  have fed : m.next p ≠ .starved := by
    intro starved
    rw [starved] at h
    cases h
  rw [next_more texts fed]
  cases next : m.next p with
  | delta d q => exact absurd next (stops_of_verdict h d q)
  | starved => exact absurd next fed
  | finished => rwa [next] at h
  | fault f => rwa [next] at h

/-- **A source and its inputs have one result.** -/
theorem Result.unique (r : Result limits source inputs told outcome steps)
    (r' : Result limits source inputs told' outcome' steps') :
    told = told' ∧ outcome = outcome' ∧ steps = steps' := by
  cases r with
  | refused e refuses =>
    cases r' with
    | refused e' refuses' =>
      cases refuses.symm.trans refuses'
      exact ⟨rfl, rfl, rfl⟩
    | ran program' ds' p' tail' outcome' decodes' plays' verdict' =>
      cases refuses.symm.trans decodes'
  | ran program ds p tail outcome decodes plays verdict =>
    cases r' with
    | refused e' refuses' => cases decodes.symm.trans refuses'
    | ran program' ds' p' tail' outcome' decodes' plays' verdict' =>
      cases decodes.symm.trans decodes'
      obtain ⟨rfl, rfl⟩ :=
        plays.unique (stops_of_verdict verdict) plays' (stops_of_verdict verdict')
      cases verdict.symm.trans verdict'
      exact ⟨rfl, rfl, rfl⟩

end Session

namespace Conversation

namespace History

open Session

variable {config : Config} {source : Text} {inputs : List Text}

/-! ### Sessions that are left to their programs -/

/-- Of the ways in which a session ends, the client's leaving and the timers are no
    verdict of the play. -/
theorem verdict_of_closes {m : Machine} {gone : Bool} {ds : List Delta} {p : Play}
    {outcome : Outcome} {tail : List Event} (closes : Closes m config gone ds p outcome tail)
    (stayed : outcome ≠ .disconnected) (inTime : ∀ e ∈ tail, e.isTimeout = false) :
    (m.next p).verdict? = some (tail, outcome) := by
  cases closes with
  | halted d finished last halts =>
    rw [finished]
    rfl
  | errored f blames =>
    have last : (Event.failed f).isTimeout = false := inTime _ (List.mem_singleton_self _)
    cases blames with
    | play _ fails =>
      rw [fails]
      rfl
    | inputTimeout starved => cases last
    | runTimeout => cases last
  | left left => exact absurd rfl stayed
  | cut d q n left next short => exact absurd rfl stayed

/-- The session is over, its client has not left, and no time was up. -/
structure Undisturbed (h : History) : Prop where
  finished : h.talk.session.isOver = true
  stayed : h.talk.session.outcome? ≠ some .disconnected
  inTime : ∀ e ∈ h.told, e.isTimeout = false

/-- With no more inputs than there is room for, reads consume them in order. -/
theorem consumed_within_inputs (peer : Text) (config : Config) (seed : Int) (schedule : List Move)
    (few : inputs.length ≤ config.inputQueue)
    (arrived : Inbound.texts (History.of peer config seed schedule).arrived <+: source :: inputs) :
    (History.of peer config seed schedule).consumed <+: inputs := by
  have ho := orderly_of peer config seed schedule
  have dropped := room_lt_of_dropped peer config seed schedule
  have taken := (texts_taken_within_arrived peer config seed schedule).trans arrived
  generalize History.of peer config seed schedule = h at *
  have fates : h.fates.map (·.1) <+: inputs := by
    rw [ho.inputs]
    cases texts : Inbound.texts h.taken with
    | nil => exact List.nil_prefix
    | cons m rest =>
      rw [texts] at taken
      exact (List.cons_prefix_cons.mp taken).2
  have none_dropped : ∀ f ∈ h.fates, decide (f.2 ≠ .dropped) = true := by
    rintro ⟨m, f⟩ hf
    rw [decide_eq_true_eq]
    rintro rfl
    have more := dropped m hf
    have := fates.length_le
    rw [List.length_map] at this
    omega
  have accepted : h.accepted = h.fates.map (·.1) := by
    rw [History.accepted, List.filter_eq_self.mpr none_dropped]
  have consumed : h.consumed <+: h.fates.map (·.1) := by
    rw [← accepted, ← ho.fifo]
    exact List.prefix_append _ _
  exact consumed.trans fates

/-- **A session that is left to its program ends with its result**, and by which way the
    inputs came to the reads makes no difference. -/
theorem result_of_undisturbed (peer : Text) (config : Config) (seed : Int) (schedule : List Move)
    (unseeded : config.seedInput = false) (few : inputs.length ≤ config.inputQueue)
    (arrived : Inbound.texts (History.of peer config seed schedule).arrived <+: source :: inputs)
    (undisturbed : (History.of peer config seed schedule).Undisturbed) :
    ∃ outcome, (History.of peer config seed schedule).talk.session.outcome? = some outcome ∧
      Result config.limits source inputs (History.of peer config seed schedule).told outcome
        (History.of peer config seed schedule).talk.session.steps := by
  have consumed := consumed_within_inputs peer config seed schedule few arrived
  have hs := stands_of peer config seed schedule
  have taken := (texts_taken_within_arrived peer config seed schedule).trans arrived
  generalize History.of peer config seed schedule = h at *
  have same : ∀ {source'}, (Inbound.texts h.taken).head? = some source' → source' = source := by
    intro source' first
    obtain ⟨rest, hrest⟩ := taken
    have head := congrArg List.head? hrest
    rw [List.head?_append, first] at head
    exact Option.some.inj head
  obtain ⟨finished, stayed, inTime⟩ := undisturbed
  cases hs with
  | idle phase silent => simp [Session.isOver, outcome?, phase] at finished
  | unheard phase silent => simp [outcome?, phase] at stayed
  | refused source' e r =>
    cases same r.first
    rcases r.verdict with ⟨phase, told⟩ | ⟨phase, -, -⟩
    · refine ⟨.errored, by simp [outcome?, phase], ?_⟩
      rw [told, r.steps]
      exact .refused e r.refuses
    · simp [outcome?, phase] at stayed
  | running source' program run ds r =>
    obtain ⟨outcome, ended⟩ := Option.isSome_iff_exists.mp finished
    have running := r.phase
    rw [phase_of_outcome ended] at running
    cases running
  | ended source' program outcome ds p tail e =>
    cases same e.first
    refine ⟨outcome, by simp [outcome?, e.phase], ?_⟩
    have verdict : ((machineFor config program).next p).verdict? = some (tail, outcome) := by
      refine verdict_of_closes e.closes ?_ ?_
      · rintro rfl
        simp [outcome?, e.phase] at stayed
      · intro event hevent
        exact inTime event (by simp [e.told, hevent])
    obtain ⟨rest, hrest⟩ := consumed
    have start : (opening config seed h.consumed).more rest = { inputs } := by
      simp [opening, Play.more, unseeded, hrest]
    have steps : h.talk.session.steps = ds.length := by
      simp [e.steps, unnumbered, unseeded]
    -- the inputs that no read has come to are given to the play as well
    have plays := e.plays.more rest
    rw [start] at plays
    rw [e.told, steps]
    exact .ran program ds (p.more rest) tail outcome e.decodes plays (verdict_more verdict rest)

/-! ### Two sessions -/

/-- **Timing makes no difference.**  Two sessions without a seed have the same limits and
    the same room for inputs, and what comes to them is the same source and the same
    inputs, no more than there is room for; only directives, pauses, budgets of time and
    moments differ.  If both are left to their programs until they end, they tell the same
    events, end with the same outcome, and count the same steps. -/
theorem told_whenever (peer peer' : Text) (config config' : Config) (seed seed' : Int)
    (schedule schedule' : List Move) (source : Text) (inputs : List Text)
    (limits : config.limits = config'.limits) (room : config.inputQueue = config'.inputQueue)
    (unseeded : config.seedInput = false) (unseeded' : config'.seedInput = false)
    (few : inputs.length ≤ config.inputQueue)
    (arrived : Inbound.texts (History.of peer config seed schedule).arrived <+: source :: inputs)
    (arrived' :
      Inbound.texts (History.of peer' config' seed' schedule').arrived <+: source :: inputs)
    (undisturbed : (History.of peer config seed schedule).Undisturbed)
    (undisturbed' : (History.of peer' config' seed' schedule').Undisturbed) :
    let h := History.of peer config seed schedule
    let h' := History.of peer' config' seed' schedule'
    h.told = h'.told ∧ h.talk.session.outcome? = h'.talk.session.outcome? ∧
      h.talk.session.steps = h'.talk.session.steps := by
  intro h h'
  obtain ⟨outcome, ended, result⟩ :=
    result_of_undisturbed peer config seed schedule unseeded few arrived undisturbed
  obtain ⟨outcome', ended', result'⟩ :=
    result_of_undisturbed peer' config' seed' schedule' unseeded' (room ▸ few) arrived'
      undisturbed'
  rw [← limits] at result'
  obtain ⟨told, outcomes, steps⟩ := result.unique result'
  exact ⟨told, by rw [ended, ended', outcomes], steps⟩

/-- The input waits in the queue of one session; in the other, which has been asked for
    shorter pauses, the read waits for the input. -/
theorem told_whenever_queued_or_awaited :
    let config : Config := { delay := .ofMillis 2, inputQueue := 1 }
    let config' : Config := { delay := .ofMillis 9, maxDelay := .ofMillis 9, inputQueue := 1 }
    let source := "push 2\nread\nwrite".toList
    let schedule : List Move :=
      [.post source, .respond, .respond, .post "7".toList, .respond, .pass 2, .respond, .respond,
        .respond, .pass 2, .respond, .respond, .pass 2, .respond, .respond]
    let schedule' : List Move :=
      [.post "@d 0.001".toList, .post source, .respond, .respond, .respond, .pass 1, .respond,
        .respond, .pass 5, .post "@nothing".toList, .post "7".toList, .respond, .respond, .pass 1,
        .respond, .respond, .pass 1, .respond, .respond]
    let h := History.of [] config 0 schedule
    let h' := History.of [] config' 1 schedule'
    h.fates = [("7".toList, .queued)] ∧ h'.fates = [("7".toList, .answered)] ∧ h.told = h'.told ∧
      .output 7 ∈ h.told := by
  intro config config' source schedule schedule' h h'
  have few : ["7".toList].length ≤ config.inputQueue := by decide
  have arrived : Inbound.texts h.arrived <+: source :: ["7".toList] := by decide +kernel
  have arrived' : Inbound.texts h'.arrived <+: source :: ["7".toList] := by decide +kernel
  have undisturbed : h.Undisturbed := ⟨by decide +kernel, by decide +kernel, by decide +kernel⟩
  have undisturbed' : h'.Undisturbed := ⟨by decide +kernel, by decide +kernel, by decide +kernel⟩
  have same := told_whenever [] [] config config' 0 1 schedule schedule' source ["7".toList]
    rfl rfl rfl rfl few arrived arrived' undisturbed undisturbed'
  exact ⟨by decide +kernel, by decide +kernel, same.1, by decide +kernel⟩
end History

end Conversation

end Stepwise

/-
  Stepwise/Proofs/Session/Delivery.lean
  =====================================
  **Inputs reach reads in the order in which they arrive, each at most once.**

  An input comes in by one of two ways: a pause puts it into the queue, and a read that
  waits takes it from the link.  The second way is open only while the queue is empty, so
  neither can overtake the other.  The invariant is that what reads have consumed,
  followed by what is queued, is what has come in and was not dropped (`Orderly`); it
  covers any number of fillings of the queue, and a queue without room.
-/
import Stepwise.Proofs.Session.History

namespace Stepwise

namespace Conversation

open Session

/-! ### What becomes of an input -/

/-- A read of the program consumes a text: the oldest of the queue, or the message that has come to
    an empty one.  The machine is called with this text, and what the call gives is delivered. -/
inductive Turn.Consumes (t : Turn) (m : Text) : Prop where
  | answers (run : Run) (since : Instant) (rest : List Text) (told : List Event)
      (awaiting : t.before.session.phase = .awaiting run since)
      (oldest : t.cue = .queued ∧ t.before.session.inputs = m :: rest ∨
        t.cue = .message m ∧ t.before.session.inputs = [] ∧ rest = [])
      (delivers : Delivers { t.before.session with inputs := rest } t.before.takes
        (run.machine.answer run.state m)
        (settled { t.before.session with inputs := rest } t.before.instant run)
        t.after.session told)
      (received : t.after.received.reverse =
        t.before.received.reverse ++ told.map fun e => (t.before.now, e)) :
      Consumes t m

/-- What it means for an input to have a fate.  The queue has room for a number of
    inputs. -/
inductive Turn.Befalls (t : Turn) (room : Nat) (m : Text) : Fate → Prop where
  /-- The session pauses, and the queue is full: nothing changes, and the loss is logged. -/
  | dropped (run : Run) (since : Instant) (pacing : t.before.session.phase = .pacing run since)
      (full : t.before.session.inputs.length = room)
      (unchanged : t.after.session = t.before.session)
      (logged : t.after.log =
        t.before.session.note .warn ("input queue full, dropping ".toList ++ (Text.trim m).quoted)
          :: t.before.log) :
      Befalls t room m .dropped
  /-- The session pauses, and the input goes to the end of the queue. -/
  | queued (run : Run) (since : Instant) (pacing : t.before.session.phase = .pacing run since)
      (vacant : t.before.session.inputs.length < room)
      (kept : t.after.session.inputs = t.before.session.inputs ++ [m]) :
      Befalls t room m .queued
  /-- A read waits, the queue is empty, and the machine is called with the input. -/
  | answered (run : Run) (since : Instant)
      (awaiting : t.before.session.phase = .awaiting run since)
      (empty : t.before.session.inputs = []) (consumes : t.Consumes m) :
      Befalls t room m .answered

/-- What a response means for inputs. -/
inductive Turn.Handles (t : Turn) : Prop where
  /-- Nothing: no text is taken, and no read is answered. -/
  | nothing (message : Inbound.texts t.message?.toList = []) (fate : t.fate? = none)
      (consumed : t.consumed? = none) (inputs : t.after.session.inputs = t.before.session.inputs)
      (idle : t.after.session.phase = .idle → t.before.session.phase = .idle)
      (running : t.after.session.phase.run?.isSome = true →
        t.before.session.phase.run?.isSome = true)
  /-- The first text is the source. -/
  | source (m : Text) (message : Inbound.texts t.message?.toList = [m]) (fate : t.fate? = none)
      (consumed : t.consumed? = none) (inputs : t.after.session.inputs = t.before.session.inputs)
      (idle : t.before.session.phase = .idle) (begun : t.after.session.phase ≠ .idle)
  /-- A pause takes an input. -/
  | paused (m : Text) (f : Fate) (indirect : f ≠ .answered)
      (message : Inbound.texts t.message?.toList = [m])
      (fate : t.fate? = some (m, f)) (consumed : t.consumed? = none)
      (running : t.before.session.phase.run?.isSome = true) (begun : t.after.session.phase ≠ .idle)
      (befalls : t.Befalls t.before.session.config.inputQueue m f)
      (inputs : t.after.session.inputs =
        t.before.session.inputs ++ if f = .dropped then [] else [m])
  /-- A read consumes the oldest input of the queue. -/
  | queued (m : Text) (message : Inbound.texts t.message?.toList = []) (fate : t.fate? = none)
      (consumed : t.consumed? = some m) (running : t.before.session.phase.run?.isSome = true)
      (begun : t.after.session.phase ≠ .idle) (consumes : t.Consumes m)
      (inputs : t.before.session.inputs = m :: t.after.session.inputs)
  /-- A read consumes a message. -/
  | answered (m : Text) (message : Inbound.texts t.message?.toList = [m])
      (fate : t.fate? = some (m, .answered)) (consumed : t.consumed? = some m)
      (running : t.before.session.phase.run?.isSome = true) (begun : t.after.session.phase ≠ .idle)
      (consumes : t.Consumes m)
      (befalls : t.Befalls t.before.session.config.inputQueue m .answered)
      (before : t.before.session.inputs = []) (after : t.after.session.inputs = [])

variable {c : Conversation} {cue : Cue} {m : Text} {run : Run} {since : Instant}

theorem after_dropped (pacing : c.session.phase = .pacing run since)
    (text : Inbound.isDirective m = false)
    (full : c.session.config.inputQueue ≤ c.session.inputs.length) :
    (Turn.after ⟨c, .message m⟩).session = c.session ∧
      (Turn.after ⟨c, .message m⟩).log =
        c.session.note .warn ("input queue full, dropping ".toList ++ (Text.trim m).quoted)
          :: c.log := by
  simp [Turn.after, follow, respond, takeMessage, Inbound.parse_of_text text, takeText, pacing,
    enqueue, full]

/-- **What a response means for inputs**, case by case. -/
theorem handles_of_cue (hc : c.cue? = some cue)
    (bounded : c.session.inputs.length ≤ c.session.config.inputQueue) :
    Turn.Handles ⟨c, cue⟩ := by
  have reacts : ∃ s' told, (Turn.after ⟨c, cue⟩).session = s' ∧
      (Turn.after ⟨c, cue⟩).received.reverse =
        c.received.reverse ++ told.map (fun e => (c.now, e)) ∧
      Reacts c.session c.instant c.takes cue s' told :=
    ⟨_, _, rfl, by simp [Turn.after], reacts_of_cue hc⟩
  obtain ⟨s', told, hafter, received, hr⟩ := reacts
  cases hr with
  | directive m d listens directive =>
    refine .nothing (Inbound.texts_of_directive directive) (Turn.fate?_of_directive directive)
      (Turn.consumed?_of_directive directive) ?_ ?_ ?_
    · rw [hafter]
    · rw [hafter]
      exact id
    · rw [hafter]
      exact id
  | hangup listens left =>
    refine .nothing rfl rfl (Turn.consumed?_eq_none (by simp) (by simp)) ?_ ?_ ?_
    · rw [hafter]; rfl
    · rw [hafter]
      intro h
      cases h
    · rw [hafter]
      intro h
      cases h
  | refused m e idle text refuses concludes =>
    refine .source m (Inbound.texts_of_text text) (by simp [Turn.fate?, idle])
      (by simp [Turn.consumed?, idle]) ?_ idle ?_
    · rw [hafter]
      exact concludes.session (P := fun r => r.inputs = c.session.inputs) fun _ => rfl
    · rw [hafter]
      exact concludes.session (P := fun r => r.phase ≠ .idle) (closed_ne_idle _)
  | started m program idle text decodes unseeded =>
    refine .source m (Inbound.texts_of_text text) (by simp [Turn.fate?, idle])
      (by simp [Turn.consumed?, idle]) ?_ idle ?_
    · rw [hafter]
    · rw [hafter]
      intro h
      cases h
  | seeded m program idle text decodes seeded delivers =>
    refine .source m (Inbound.texts_of_text text) (by simp [Turn.fate?, idle])
      (by simp [Turn.consumed?, idle]) ?_ idle ?_
    · rw [hafter]
      exact delivers.session (P := fun r => r.inputs = c.session.inputs) (fun _ => rfl)
        fun _ => rfl
    · rw [hafter]
      exact delivers.session (P := fun r => r.phase ≠ .idle) (fun _ => by simp)
        (closed_ne_idle _)
  | step run ready delivers =>
    refine .nothing rfl rfl (Turn.consumed?_eq_none (by simp) (by simp)) ?_ ?_ ?_
    · rw [hafter]
      exact delivers.session (P := fun r => r.inputs = c.session.inputs) (fun _ => rfl)
        fun _ => rfl
    · rw [hafter]
      exact delivers.session (P := fun r => r.phase = .idle → c.session.phase = .idle)
        (fun _ h => absurd h (phaseAfter_ne_idle _ _)) fun _ h => absurd h (closed_ne_idle _ _)
    · exact fun _ => by simp [ready]
  | wake run since pacing =>
    refine .nothing rfl rfl (Turn.consumed?_eq_none (by simp) (by simp)) ?_ ?_ ?_
    · rw [hafter]
    · rw [hafter]
      intro h
      cases h
    · exact fun _ => by simp [pacing]
  | kept m run since pacing text room =>
    have inputs : (Turn.after ⟨c, .message m⟩).session.inputs = c.session.inputs ++ [m] := by
      rw [hafter]
    refine .paused m .queued (by simp) (Inbound.texts_of_text text) ?_
      (by simp [Turn.consumed?, pacing]) (by simp [pacing]) ?_
      (.queued run since pacing room inputs) inputs
    · simp [Turn.fate?, pacing, text, inputs]
    · rw [hafter]
      simp [pacing]
  | dropped m run since pacing text full =>
    -- the response asks for at least as many; that there are no more is the invariant
    have exactly : c.session.inputs.length = c.session.config.inputQueue :=
      Nat.le_antisymm bounded full
    obtain ⟨unchanged, logged⟩ := after_dropped pacing text full
    refine .paused m .dropped (by simp) (Inbound.texts_of_text text) ?_
      (by simp [Turn.consumed?, pacing]) (by simp [pacing]) ?_
      (.dropped run since pacing exactly unchanged logged) ?_
    · simp [Turn.fate?, pacing, text, unchanged]
    · rw [unchanged]
      simp [pacing]
    · simp [unchanged]
  | queued m rest run since awaiting inputs delivers =>
    have consumes : Turn.Consumes ⟨c, .queued⟩ m :=
      .answers run since rest told awaiting (.inl ⟨rfl, inputs⟩) (hafter ▸ delivers) received
    refine .queued m rfl (by simp [Turn.fate?])
      (by simp [Turn.consumed?, awaiting, inputs]) (by simp [awaiting]) ?_ consumes ?_
    · rw [hafter]
      exact delivers.session (P := fun r => r.phase ≠ .idle)
        (fun _ => phaseAfter_ne_idle _ _) (closed_ne_idle _)
    · have after : s'.inputs = rest :=
        delivers.session (P := fun r => r.inputs = rest) (fun _ => rfl) fun _ => rfl
      rw [hafter, after]
      exact inputs
  | answered m run since awaiting empty text delivers =>
    have same : ({ c.session with inputs := [] } : Session) = c.session := by rw [← empty]
    have consumes : Turn.Consumes ⟨c, .message m⟩ m := by
      refine .answers run since [] told awaiting (.inr ⟨rfl, empty, rfl⟩) ?_ received
      rw [hafter, same]
      exact delivers
    refine .answered m (Inbound.texts_of_text text) (by simp [Turn.fate?, awaiting, text])
      (by simp [Turn.consumed?, awaiting, text]) (by simp [awaiting]) ?_ consumes
      (.answered run since awaiting empty consumes) empty ?_
    · rw [hafter]
      exact delivers.session (P := fun r => r.phase ≠ .idle)
        (fun _ => phaseAfter_ne_idle _ _) (closed_ne_idle _)
    · rw [hafter]
      exact delivers.session (P := fun r => r.inputs = []) (fun _ => empty) fun _ => empty
  | inputTimeout run since awaiting empty late concludes =>
    refine .nothing rfl rfl (Turn.consumed?_eq_none (by simp) (by simp)) ?_ ?_ ?_
    · rw [hafter]
      exact concludes.session (P := fun r => r.inputs = c.session.inputs) fun _ => rfl
    · rw [hafter]
      exact concludes.session (P := fun r => r.phase = .idle → c.session.phase = .idle)
        fun _ h => absurd h (closed_ne_idle _ _)
    · exact fun _ => by simp [awaiting]
  | runTimeout run running late concludes =>
    refine .nothing rfl rfl (Turn.consumed?_eq_none (by simp) (by simp)) ?_ ?_ ?_
    · rw [hafter]
      exact concludes.session (P := fun r => r.inputs = c.session.inputs) fun _ => rfl
    · rw [hafter]
      exact concludes.session (P := fun r => r.phase = .idle → c.session.phase = .idle)
        fun _ h => absurd h (closed_ne_idle _ _)
    · exact fun _ => by simp [running]

/-! ### The invariant -/

namespace History

variable {h h' : History} {room : Nat}

/-- What reads have consumed, followed by what is queued, is what came in and was not
    dropped. -/
structure Orderly (room : Nat) (h : History) : Prop where
  capacity : h.talk.session.config.inputQueue = room
  bounded : h.talk.session.inputs.length ≤ room
  fifo : h.consumed ++ h.talk.session.inputs = h.accepted
  /-- The texts taken are the source and the inputs. -/
  inputs : h.fates.map (·.1) = (Inbound.texts h.taken).tail
  idle : h.talk.session.phase = .idle → Inbound.texts h.taken = []
  running : h.talk.session.phase.run?.isSome = true → Inbound.texts h.taken ≠ []
  befalls : ∀ t ∈ h.turns, ∀ m f, t.fate? = some (m, f) → t.Befalls room m f
  consumes : ∀ t ∈ h.turns, ∀ m, t.consumed? = some m → t.Consumes m

theorem accepted_respondTo (h : History) (cue : Cue) :
    (h.respondTo cue).accepted =
      h.accepted ++
        ((Turn.fate? ⟨h.talk, cue⟩).toList.filter fun f => f.2 ≠ .dropped).map (·.1) := by
  rw [accepted, fates_respondTo, List.filter_append, List.map_append]
  rfl

theorem Orderly.frame (f : Frame h h') (ho : h.Orderly room) : h'.Orderly room where
  capacity := by rw [f.session.config]; exact ho.capacity
  bounded := by rw [f.session.inputs]; exact ho.bounded
  fifo := by rw [f.session.inputs, consumed_of_frame f, accepted_of_frame f]; exact ho.fifo
  inputs := by rw [fates_of_frame f, taken_of_frame f]; exact ho.inputs
  idle := by rw [f.session.idle, taken_of_frame f]; exact ho.idle
  running := by rw [f.session.run, taken_of_frame f]; exact ho.running
  befalls := by rw [f.turns]; exact ho.befalls
  consumes := by rw [f.turns]; exact ho.consumes

theorem befalls_respondTo (ho : h.Orderly room) {cue : Cue}
    (new : ∀ m f, Turn.fate? ⟨h.talk, cue⟩ = some (m, f) →
      Turn.Befalls ⟨h.talk, cue⟩ h.talk.session.config.inputQueue m f) :
    ∀ t ∈ (h.respondTo cue).turns, ∀ m f, t.fate? = some (m, f) → t.Befalls room m f := by
  apply forall_turns_respondTo ho.befalls
  intro m f hf
  exact ho.capacity ▸ new m f hf

/-- **A response preserves the order.** -/
theorem Orderly.respond {cue : Cue} (hc : h.talk.cue? = some cue) (ho : h.Orderly room) :
    (h.respondTo cue).Orderly room := by
  have capacity : (h.respondTo cue).talk.session.config.inputQueue = room := by
    obtain ⟨told, hr, -, -⟩ := respondTo_reacts hc
    rw [hr.settings.config]
    exact ho.capacity
  have after : (h.respondTo cue).talk.session = (Turn.after ⟨h.talk, cue⟩).session := rfl
  cases handles_of_cue hc (ho.capacity ▸ ho.bounded) with
  | nothing message fate consumed inputs idle running =>
    refine ⟨capacity, ?_, ?_, ?_, ?_, ?_, befalls_respondTo ho ?_,
      forall_turns_respondTo ho.consumes ?_⟩
    · rw [after, inputs]
      exact ho.bounded
    · rw [after, inputs, consumed_respondTo, accepted_respondTo, consumed, fate]
      simpa using ho.fifo
    · rw [fates_respondTo, texts_respondTo, fate, message]
      simpa using ho.inputs
    · rw [after, texts_respondTo, message, List.append_nil]
      exact fun h => ho.idle (idle h)
    · rw [after, texts_respondTo, message, List.append_nil]
      exact fun h => ho.running (running h)
    · simp [fate]
    · simp [consumed]
  | source m message fate consumed inputs idle begun =>
    have first : Inbound.texts h.taken = [] := ho.idle idle
    refine ⟨capacity, ?_, ?_, ?_, ?_, ?_, befalls_respondTo ho ?_,
      forall_turns_respondTo ho.consumes ?_⟩
    · rw [after, inputs]
      exact ho.bounded
    · rw [after, inputs, consumed_respondTo, accepted_respondTo, consumed, fate]
      simpa using ho.fifo
    · rw [fates_respondTo, texts_respondTo, fate, message, first]
      simpa [first] using ho.inputs
    · exact fun h => absurd h begun
    · rw [texts_respondTo, message]
      simp
    · simp [fate]
    · simp [consumed]
  | paused m f indirect message fate consumed running begun befalls inputs =>
    refine ⟨capacity, ?_, ?_, ?_, ?_, ?_, befalls_respondTo ho ?_,
      forall_turns_respondTo ho.consumes ?_⟩
    · rw [after, inputs]
      cases befalls with
      | dropped run since pacing full unchanged logged => simpa using ho.bounded
      | queued run since pacing vacant kept =>
        have : h.talk.session.inputs.length < room := ho.capacity ▸ vacant
        simpa using Nat.succ_le_of_lt this
      | answered run since awaiting empty => exact absurd rfl indirect
    · rw [after, inputs, consumed_respondTo, accepted_respondTo, consumed, fate, ← ho.fifo]
      cases f <;> simp
    · rw [fates_respondTo, texts_respondTo, fate, message,
        List.tail_append_of_ne_nil (ho.running running), ← ho.inputs]
      simp
    · exact fun h => absurd h begun
    · rw [texts_respondTo, message]
      simp
    · rintro m' f' hf
      cases fate.symm.trans hf
      exact befalls
    · simp [consumed]
  | queued m message fate consumed running begun consumes inputs =>
    have before : h.talk.session.inputs = m :: (h.respondTo cue).talk.session.inputs := inputs
    refine ⟨capacity, ?_, ?_, ?_, ?_, ?_, befalls_respondTo ho ?_,
      forall_turns_respondTo ho.consumes ?_⟩
    · have := ho.bounded
      rw [before, List.length_cons] at this
      omega
    · rw [consumed_respondTo, accepted_respondTo, consumed, fate, ← ho.fifo, before]
      simp
    · rw [fates_respondTo, texts_respondTo, fate, message]
      simpa using ho.inputs
    · exact fun h => absurd h begun
    · rw [texts_respondTo, message, List.append_nil]
      exact fun _ => ho.running running
    · simp [fate]
    · rintro m' hm
      cases consumed.symm.trans hm
      exact consumes
  | answered m message fate consumed running begun consumes befalls before after' =>
    have before : h.talk.session.inputs = [] := before
    refine ⟨capacity, ?_, ?_, ?_, ?_, ?_, befalls_respondTo ho ?_,
      forall_turns_respondTo ho.consumes ?_⟩
    · rw [after, after']
      exact Nat.zero_le _
    · rw [after, after', consumed_respondTo, accepted_respondTo, consumed, fate, ← ho.fifo, before]
      simp
    · rw [fates_respondTo, texts_respondTo, fate, message,
        List.tail_append_of_ne_nil (ho.running running), ← ho.inputs]
      simp
    · exact fun h => absurd h begun
    · rw [texts_respondTo, message]
      simp
    · rintro m' f' hf
      cases fate.symm.trans hf
      exact befalls
    · rintro m' hm
      cases consumed.symm.trans hm
      exact consumes

theorem orderly_of (peer : Text) (config : Config) (seed : Int) (schedule : List Move) :
    (History.of peer config seed schedule).Orderly config.inputQueue := by
  refine run_induction (fun _ _ f ho => ho.frame f) (fun _ _ hc ho => ho.respond hc) ?_ schedule
  refine ⟨rfl, Nat.zero_le _, rfl, rfl, fun _ => rfl, ?_, ?_, ?_⟩
  · intro h
    cases h
  · intro t ht
    cases ht
  · intro t ht
    cases ht

/-- An input is dropped only if more have come than there is room for: at that moment the
    queue holds as many, and it holds none of them twice. -/
theorem room_lt_of_dropped (peer : Text) (config : Config) (seed : Int) (schedule : List Move)
    (m : Text) (hm : (m, Fate.dropped) ∈ (History.of peer config seed schedule).fates) :
    config.inputQueue < (History.of peer config seed schedule).fates.length := by
  suffices both : (History.of peer config seed schedule).Orderly config.inputQueue ∧
      ∀ m, (m, Fate.dropped) ∈ (History.of peer config seed schedule).fates →
        config.inputQueue < (History.of peer config seed schedule).fates.length from both.2 m hm
  refine run_induction (P := fun h => h.Orderly config.inputQueue ∧
    ∀ m, (m, Fate.dropped) ∈ h.fates → config.inputQueue < h.fates.length) ?_ ?_
    ⟨orderly_of peer config seed [], fun m hm => absurd hm (List.not_mem_nil)⟩ schedule
  · intro h h' f ⟨ho, crowded⟩
    rw [fates_of_frame f]
    exact ⟨ho.frame f, crowded⟩
  · intro h cue hc ⟨ho, crowded⟩
    have ho' : (h.respondTo cue).Orderly config.inputQueue := ho.respond hc
    refine ⟨ho', fun m hm => ?_⟩
    rw [fates_respondTo] at hm ⊢
    rw [List.length_append]
    rcases List.mem_append.mp hm with old | new
    · have := crowded m old
      omega
    · have fate : Turn.fate? ⟨h.talk, cue⟩ = some (m, .dropped) := by simpa using new
      have last : (⟨h.talk, cue⟩ : Turn) ∈ (h.respondTo cue).turns := by simp
      -- what the fate of this turn means is part of the invariant behind it
      have full : h.talk.session.inputs.length = config.inputQueue := by
        cases ho'.befalls _ last m .dropped fate with
        | dropped run since pacing full unchanged logged => exact full
      have accepted : h.accepted.length ≤ h.fates.length := by
        rw [accepted, List.length_map]
        exact List.length_filter_le _ _
      have queued := congrArg List.length ho.fifo
      rw [List.length_append] at queued
      rw [fate, Option.toList_some, List.length_singleton]
      omega

theorem Orderly.mem_texts (ho : h.Orderly room) {m : Text} (hm : m ∈ h.consumed) :
    m ∈ Inbound.texts h.taken := by
  have accepted : m ∈ h.accepted := by
    rw [← ho.fifo]
    exact List.mem_append_left _ hm
  obtain ⟨f, hf, rfl⟩ := List.mem_map.mp accepted
  have taken : f.1 ∈ h.fates.map (·.1) := List.mem_map_of_mem (List.mem_filter.mp hf).1
  rw [ho.inputs] at taken
  exact List.mem_of_mem_tail taken

/-- **Inputs are delivered first in, first out.**  Messages are taken from the link in the
    order of their arrival.  The texts among them, after the source, are the inputs, and
    each has its fate: it is dropped by a pause that finds the queue full, it is queued by
    a pause, or it answers a read that waits with nothing in the queue.  The queue never
    holds more than it has room for.  What reads have consumed, followed by what is in the
    queue, is what was taken and not dropped, in order and each once.  What a read consumes
    is what the machine is called with, and the client is told what the call gives.  No
    directive is ever consumed. -/
theorem inputs_first_in_first_out (peer : Text) (config : Config) (seed : Int)
    (schedule : List Move) :
    let h := History.of peer config seed schedule
    h.taken ++ h.talk.inbox = h.arrived ∧
      h.fates.map (·.1) = (Inbound.texts h.taken).tail ∧
      (∀ t ∈ h.turns, ∀ m f, t.fate? = some (m, f) → t.Befalls config.inputQueue m f) ∧
      h.talk.session.inputs.length ≤ config.inputQueue ∧
      h.consumed ++ h.talk.session.inputs = h.accepted ∧
      (∀ t ∈ h.turns, ∀ m, t.consumed? = some m → t.Consumes m) ∧
      ∀ m ∈ h.consumed, Inbound.isDirective m = false := by
  intro h
  have ho : h.Orderly config.inputQueue := orderly_of peer config seed schedule
  refine ⟨taken_append_inbox _ rfl schedule, ho.inputs, ho.befalls, ho.bounded, ho.fifo,
    ho.consumes, ?_⟩
  intro m hm
  have text := (List.mem_filter.mp (ho.mem_texts hm)).2
  simpa using text

end History

end Conversation

end Stepwise

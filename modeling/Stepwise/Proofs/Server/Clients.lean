/-
  Stepwise/Proofs/Server/Clients.lean
  ===================================
  **What becomes of one client, whatever it does and however time passes.**

  A client keeps its name for good.  Its link waits, is picked up once, and is cut at last; and a
  session that is over stays over.  Between being picked up and being cut nothing changes but
  that: the client *ages* (`Ages`).  Everything that a server does to a client, picking it up
  apart, makes it age, and this is what the registry of the server rests on.
-/
import Stepwise.Proofs.Session.History
import Stepwise.Server.Basic

namespace Stepwise

namespace Session

variable {s s' : Session} {now : Instant} {takes : Takes} {cue : Cue} {told : List Event}

/-- A response leaves alone what does not depend on the pause, the inputs, the count and the
    phase. -/
theorem Reacts.same {α : Type} {f : Session → α}
    (same : ∀ r delay inputs steps phase, f { r with delay, inputs, steps, phase } = f r)
    (h : Reacts s now takes cue s' told) : f s' = f s := by
  have changed (delay : Duration) (inputs : List Text) (steps : Nat) (phase : Phase) :
      f { s with delay, inputs, steps, phase } = f s := same s delay inputs steps phase
  have ends (outcome : Outcome) : f (s.closed outcome) = f s := changed _ _ _ _
  cases h with
  | directive m d listens directive => exact changed d _ _ _
  | hangup listens left => exact ends _
  | refused m e idle text refuses concludes =>
    exact concludes.session (P := fun r => f r = f s) ends
  | started m program idle text decodes unseeded => exact changed _ _ _ _
  | seeded m program idle text decodes seeded delivers =>
    exact delivers.session (P := fun r => f r = f s) (fun _ => changed _ _ _ _) ends
  | step run ready delivers =>
    exact delivers.session (P := fun r => f r = f s) (fun _ => changed _ _ _ _) ends
  | wake run since pacing => exact changed _ _ _ _
  | kept m run since pacing text room => exact changed _ _ _ _
  | dropped m run since pacing text full => rfl
  | queued m rest run since awaiting inputs delivers =>
    exact delivers.session (P := fun r => f r = f s) (fun _ => changed _ rest _ _)
      fun _ => changed _ rest _ _
  | answered m run since awaiting empty text delivers =>
    exact delivers.session (P := fun r => f r = f s) (fun _ => changed _ _ _ _) ends
  | inputTimeout run since awaiting empty late concludes =>
    exact concludes.session (P := fun r => f r = f s) ends
  | runTimeout run running late concludes =>
    exact concludes.session (P := fun r => f r = f s) ends

theorem peer_restarted (s : Session) (now : Instant) : (s.restarted now).peer = s.peer := by
  cases phase : s.phase <;> simp [restarted, phase]

theorem cue?_of_over {inbox : List Text} {gone : Bool} (ended : s.isOver = true) :
    s.cue? now inbox gone = none := by
  obtain ⟨outcome, same⟩ := Option.isSome_iff_exists.mp ended
  simp only [cue?, phase_of_outcome same]

end Session

namespace Server

namespace Outbox

variable {o : Outbox}

theorem isBlocked_iff : o.isBlocked = true ↔ o.heldBack ≠ [] := by
  simp [isBlocked]

theorem fill_of_free (free : o.isBlocked = false) : o.fill = o := by
  have empty : o.heldBack = [] := by simpa [isBlocked] using free
  obtain ⟨onLink, room, heldBack⟩ := o
  cases empty
  cases room <;> rfl

end Outbox

namespace Client

variable {c c' c'' : Client} {cue : Session.Cue} {fuel ms now id : Nat} {m : Text}

/-! ### Parts of a client -/

/-- The number of the client's session, as long as the link is not cut. -/
def number? (c : Client) : Option Nat :=
  match c.attention with
  | .served id => some id
  | .waiting | .cut => none

def peer (c : Client) : Text := c.talk.session.peer

/-- What the registry of a server has to hold for the client. -/
def registration? (c : Client) : Option (Nat × Text) :=
  if c.isActive then c.number?.map fun id => (id, c.peer) else none

theorem number?_eq_some_iff : c.number? = some id ↔ c.attention = .served id := by
  cases attention : c.attention <;> simp [number?, attention]

theorem isActive_iff : c.isActive = true ↔ (∃ id, c.number? = some id) ∧ c.isDone = false := by
  cases attention : c.attention <;> simp [isActive, number?, attention]

theorem registration?_eq_some_iff {e : Nat × Text} :
    c.registration? = some e ↔ c.isActive = true ∧ c.number? = some e.1 ∧ c.peer = e.2 := by
  obtain ⟨id, peer⟩ := e
  simp only [registration?, Option.ite_none_right_eq_some, Option.map_eq_some_iff, Prod.mk.injEq]
  constructor
  · rintro ⟨active, _, number, rfl, same⟩
    exact ⟨active, number, same⟩
  · rintro ⟨active, number, same⟩
    exact ⟨active, id, number, rfl, same⟩

/-! ### Settling -/

/-- What responses that are due keep holds after settling. -/
theorem settleWithin_induction {P : Client → Prop}
    (follow : ∀ c cue, c.isHeldUp = false → c.talk.cue? = some cue → P c → P (c.follow cue))
    (start : P c) (fuel : Nat) : P (settleWithin fuel c) := by
  induction fuel generalizing c with
  | zero => exact start
  | succ fuel ih =>
    rw [settleWithin]
    by_cases held : c.isHeldUp = true
    · rw [if_pos held]
      exact start
    · rw [if_neg held]
      cases due : c.talk.cue? with
      | none => exact start
      | some cue => exact ih (follow c cue (by simpa using held) due start)

theorem peer_follow (due : c.talk.cue? = some cue) : (c.follow cue).peer = c.peer :=
  (Session.reacts_of_cue due).same (f := Session.peer) fun _ _ _ _ _ => rfl

theorem goOn_cases (c : Client) :
    c.goOn = { c with outbox := c.outbox.fill } ∨
      c.isHeldUp = true ∧ c.outbox.fill.isBlocked = false ∧
        c.goOn = { c with outbox := c.outbox.fill, talk := c.talk.resumed } := by
  simp only [goOn]
  split
  · rename_i free
    rw [Bool.and_eq_true, Bool.not_eq_true'] at free
    exact .inr ⟨free.1, free.2, rfl⟩
  · exact .inl rfl

theorem peer_goOn (c : Client) : c.goOn.peer = c.peer := by
  rcases goOn_cases c with same | ⟨-, -, same⟩
  · rw [same]
    rfl
  · rw [same]
    exact Session.peer_restarted _ _

theorem attention_goOn (c : Client) : c.goOn.attention = c.attention := by
  rcases goOn_cases c with same | ⟨-, -, same⟩ <;> rw [same]

theorem peer_settle (c : Client) : c.settle.peer = c.peer := by
  refine settleWithin_induction (P := fun d => d.peer = c.peer) ?_ (peer_goOn c) _
  intro d cue held due same
  exact (peer_follow due).trans same

theorem attention_settle (c : Client) : c.settle.attention = c.attention := by
  refine settleWithin_induction (P := fun d => d.attention = c.attention) ?_ (attention_goOn c) _
  intro d cue held due same
  exact same

theorem settleWithin_of_done (done : c.isDone = true) (fuel : Nat) : settleWithin fuel c = c := by
  obtain ⟨ended, free⟩ := Bool.and_eq_true_iff.mp done
  cases fuel with
  | zero => rfl
  | succ fuel =>
    have rests : c.talk.cue? = none := Session.cue?_of_over ended
    rw [settleWithin, if_neg (by simpa using free), rests]

theorem goOn_of_free (free : c.isHeldUp = false) : c.goOn = c := by
  rcases goOn_cases c with same | ⟨held, -⟩
  · rw [same, Outbox.fill_of_free free]
  · rw [free] at held
    cases held

/-- A session that is over has nothing more to do. -/
theorem settle_of_done (done : c.isDone = true) : c.settle = c := by
  have free : c.isHeldUp = false := by
    simpa using (Bool.and_eq_true_iff.mp done).2
  rw [settle, goOn_of_free free, settleWithin_of_done done]

/-! ### Ageing -/

/-- The client is the same one, and its link and its session are no younger. -/
structure Ages (c c' : Client) : Prop where
  peer : c'.peer = c.peer
  attention : c'.attention = c.attention ∨ c'.attention = .cut
  active : c'.isActive = true → c.isActive = true

theorem Ages.refl (c : Client) : Ages c c := ⟨rfl, .inl rfl, id⟩

theorem Ages.trans (h : Ages c c') (h' : Ages c' c'') : Ages c c'' where
  peer := h'.peer.trans h.peer
  attention := by
    rcases h'.attention with same | cut
    · rw [same]
      exact h.attention
    · exact .inr cut
  active active := h.active (h'.active active)

theorem ages_of_done (peer : c'.peer = c.peer) (attention : c'.attention = c.attention)
    (done : c.isDone = true → c'.isDone = true) : Ages c c' := by
  refine ⟨peer, .inl attention, fun active => ?_⟩
  simp only [isActive_iff, number?, attention] at active ⊢
  refine ⟨active.1, ?_⟩
  cases earlier : c.isDone with
  | false => rfl
  | true =>
    rw [done earlier] at active
    cases active.2

theorem ages_settle (c : Client) : Ages c c.settle := by
  refine ages_of_done (peer_settle c) (attention_settle c) fun done => ?_
  rw [settle_of_done done]
  exact done

theorem ages_respond (c : Client) : Ages c c.respond := by
  unfold respond
  split
  · exact ages_settle c
  · exact Ages.refl c

theorem ages_cutOff (c : Client) : Ages c c.cutOff :=
  ⟨rfl, .inr rfl, fun active => by cases active⟩

theorem ages_skip (ms : Nat) (c : Client) : Ages c (c.skip ms) := by
  unfold skip
  split
  · exact ages_of_done rfl rfl id
  · exact Ages.refl c

theorem ages_tick (c : Client) : Ages c c.tick := (ages_skip 1 c).trans (ages_respond _)

theorem ages_takeAll (c : Client) : Ages c c.takeAll.2 := ages_of_done rfl rfl id

theorem ages_lastTurn (c : Client) : Ages c c.lastTurn := by
  unfold lastTurn
  split
  · have limited : Ages c { c with outbox := c.outbox.limited turnSize } :=
      ages_of_done rfl rfl id
    exact limited.trans (ages_respond _)
  · exact Ages.refl c

theorem ages_leave (c : Client) : Ages c c.leave := by
  have left : Ages c { c with talk := c.talk.leaveAfter 0 } := ages_of_done rfl rfl id
  simp only [leave]
  split
  · exact left.trans (ages_cutOff _)
  · exact left.trans (ages_respond _)

theorem send_cases (sent : c.send m = .ok c') :
    c.talk.gone = false ∧ c.isClosed = false ∧
      c' = respond { c with talk := (c.talk.post m).1 } := by
  simp only [send] at sent
  split at sent
  · cases sent
  · rename_i open_
    rw [Bool.or_eq_true, not_or, Bool.not_eq_true, Bool.not_eq_true] at open_
    cases sent
    exact ⟨open_.1, open_.2, rfl⟩

theorem post_session (t : Conversation) (m : Text) : (t.post m).1.session = t.session := by
  rcases Conversation.History.post_cases t m with ⟨same, -⟩ | posted
  · rw [same]
  · rw [posted]

theorem ages_send (sent : c.send m = .ok c') : Ages c c' := by
  obtain ⟨-, -, rfl⟩ := send_cases sent
  have session := post_session c.talk m
  have posted : Ages c { c with talk := (c.talk.post m).1 } := by
    refine ages_of_done (congrArg Session.peer session) rfl fun done => ?_
    simpa only [isDone, isHeldUp, Conversation.isOver, session] using done
  exact posted.trans (ages_respond _)

/-! ### Being picked up -/

theorem number?_pickUp (c : Client) (now id : Nat) : (c.pickUp now id).number? = some id :=
  number?_eq_some_iff.mpr (attention_settle _)

theorem peer_pickUp (c : Client) (now id : Nat) : (c.pickUp now id).peer = c.peer :=
  peer_settle _

theorem Ages.number? (h : Ages c c') : c'.number? = c.number? ∨ c'.number? = none := by
  rcases h.attention with same | cut
  · exact .inl (by simp only [Client.number?, same])
  · exact .inr (by simp only [Client.number?, cut])

theorem Ages.registration? {e : Nat × Text} (h : Ages c c')
    (registered : c'.registration? = some e) : c.registration? = some e := by
  obtain ⟨active, number, peer⟩ := registration?_eq_some_iff.mp registered
  refine registration?_eq_some_iff.mpr ⟨h.active active, ?_, h.peer ▸ peer⟩
  rcases h.number? with same | none
  · exact same ▸ number
  · rw [none] at number
    cases number

end Client

end Server

end Stepwise

/-
  Stepwise/Proofs/Server/Numbers.lean
  ===================================
  **Every link gets one session, with a number that is never used again.**

  Numbers are given out one after the other.  Whatever is asked of a server, a link that waits may
  get a number that nobody had before, and a link that has one keeps it until it is cut
  (`Continues`).
-/
import Stepwise.Proofs.Server.Registry

namespace Stepwise

namespace Server

variable {s s' s'' : Server} {clients : List Client} {c c' : Client} {i j id ms : Nat}

/-- What the link of a client is at, connected or not. -/
def attentionAt (s : Server) (i : Nat) : Attention :=
  match s.clients[i]? with
  | some c => c.attention
  | none => .waiting

/-- A link goes from waiting to a session with a new number, and from there to being cut. -/
structure Continues (s s' : Server) : Prop where
  sessions : s.sessions ≤ s'.sessions
  names : ∀ (i : Nat) (c : Client), s.clients[i]? = some c →
    ∃ c' : Client, s'.clients[i]? = some c' ∧ c'.peer = c.peer
  attention : ∀ i, s'.attentionAt i = s.attentionAt i ∨ s'.attentionAt i = .cut ∨
    s.attentionAt i = .waiting ∧ ∃ id, s.sessions ≤ id ∧ s'.attentionAt i = .served id

theorem Continues.refl (s : Server) : s.Continues s :=
  ⟨Nat.le_refl _, fun _ c present => ⟨c, present, rfl⟩, fun _ => .inl rfl⟩

theorem Continues.trans (h : s.Continues s') (h' : s'.Continues s'') : s.Continues s'' where
  sessions := Nat.le_trans h.sessions h'.sessions
  names i c present := by
    obtain ⟨c', present', same⟩ := h.names i c present
    obtain ⟨c'', present'', same'⟩ := h'.names i c' present'
    exact ⟨c'', present'', same'.trans same⟩
  attention i := by
    rcases h'.attention i with same | cut | ⟨waiting, id, new, served⟩
    · rw [same]
      exact h.attention i
    · exact .inr (.inl cut)
    · rcases h.attention i with same | cut | ⟨-, id', -, served'⟩
      · exact .inr (.inr ⟨same ▸ waiting, id, Nat.le_trans h.sessions new, served⟩)
      · rw [cut] at waiting
        cases waiting
      · rw [served'] at waiting
        cases waiting

theorem attentionAt_of_some (present : s.clients[i]? = some c) : s.attentionAt i = c.attention := by
  simp only [attentionAt, present]

theorem attentionAt_of_none (absent : s.clients[i]? = none) : s.attentionAt i = .waiting := by
  simp only [attentionAt, absent]

/-- Who has just connected is as little picked up as who is not there. -/
theorem attentionAt_joined (waiting : c.attention = .waiting)
    (clients : s'.clients = s.clients ++ [c]) (i : Nat) : s'.attentionAt i = s.attentionAt i := by
  rcases Nat.lt_or_ge i s.clients.length with here | beyond
  · simp only [attentionAt, clients, List.getElem?_append_left here]
  · rw [attentionAt_of_none (List.getElem?_eq_none beyond)]
    cases present : s'.clients[i]? with
    | none => exact attentionAt_of_none present
    | some d =>
      rw [attentionAt_of_some present]
      rw [clients, List.getElem?_append_right beyond] at present
      rw [List.mem_singleton.mp (List.mem_of_getElem? present), waiting]

/-- Two servers with the same clients are compared client by client. -/
theorem continues_of_forall₂ {R : Client → Client → Prop}
    (clients : List.Forall₂ R s.clients s'.clients) (sessions : s.sessions ≤ s'.sessions)
    (names : ∀ c c', R c c' → c'.peer = c.peer)
    (attention : ∀ c c', R c c' → c'.attention = c.attention ∨ c'.attention = .cut ∨
      c.attention = .waiting ∧ ∃ id, s.sessions ≤ id ∧ c'.attention = .served id) :
    s.Continues s' := by
  have same (i : Nat) : s.clients[i]? = none ∧ s'.clients[i]? = none ∨
      ∃ c c' : Client, s.clients[i]? = some c ∧ s'.clients[i]? = some c' ∧ R c c' := by
    have related := List.forall₂_iff_get.mp clients
    rcases Nat.lt_or_ge i s.clients.length with here | beyond
    · have here' : i < s'.clients.length := related.1 ▸ here
      exact .inr ⟨_, _, List.getElem?_eq_getElem here, List.getElem?_eq_getElem here',
        related.2 i here here'⟩
    · exact .inl ⟨List.getElem?_eq_none beyond, List.getElem?_eq_none (related.1 ▸ beyond)⟩
  refine ⟨sessions, fun i c present => ?_, fun i => ?_⟩
  · rcases same i with ⟨absent, -⟩ | ⟨d, d', here, here', related⟩
    · rw [absent] at present
      cases present
    · obtain rfl : d = c := Option.some.inj (here.symm.trans present)
      exact ⟨d', here', names d d' related⟩
  · rcases same i with ⟨absent, absent'⟩ | ⟨c, c', here, here', related⟩
    · exact .inl ((attentionAt_of_none absent').trans (attentionAt_of_none absent).symm)
    · rw [attentionAt_of_some here, attentionAt_of_some here']
      exact attention c c' related

theorem continues_of_ages (ages : List.Forall₂ Client.Ages s.clients s'.clients)
    (sessions : s'.sessions = s.sessions) : s.Continues s' := by
  refine continues_of_forall₂ ages (Nat.le_of_eq sessions.symm) (fun _ _ h => h.peer) ?_
  intro c c' h
  rcases h.attention with same | cut
  · exact .inl same
  · exact .inr (.inl cut)

theorem continues_settle (s : Server) : s.Continues s.settle := by
  cases serving : s.isServing with
  | false =>
    rw [settle_of_not_serving serving]
    exact .refl s
  | true =>
    refine continues_of_forall₂ (clients_settle serving) ?_ ?_ ?_
    · rw [settle, if_pos serving]
      exact sessions_le_takeTurns { s with clients := [] } s.clients
    · intro c c' turn
      cases turn with
      | respond picked => exact (Client.ages_respond c).peer
      | pickUp id waiting new given => exact Client.peer_pickUp c s.now id
    · intro c c' turn
      cases turn with
      | respond picked =>
        rcases (Client.ages_respond c).attention with same | cut
        · exact .inl same
        · exact .inr (.inl cut)
      | pickUp id waiting new given =>
        refine .inr (.inr ⟨waiting, id, new, ?_⟩)
        exact Client.number?_eq_some_iff.mp (Client.number?_pickUp c s.now id)

theorem continues_connect (s : Server) (position : Nat) : s.Continues (s.connect position).1 := by
  rcases connect_cases s position with same | ⟨t, channel, -, -, ⟨-, same⟩ | ⟨-, same⟩⟩
  · rw [same]
    exact .refl s
  · rw [same]
    exact continues_of_ages (forall₂_ages_refl _) rfl
  · rw [same]
    refine ⟨Nat.le_refl _, fun i c present => ⟨c, ?_, rfl⟩, fun i => .inl ?_⟩
    · exact (List.getElem?_append_left (List.getElem?_eq_some_iff.mp present).1).trans present
    · exact attentionAt_joined rfl rfl i

theorem continues_perform (s : Server) (r : Request) : s.Continues (s.perform r) := by
  cases r with
  | start =>
    simp only [perform, start]
    split <;> exact continues_of_ages (forall₂_ages_refl _) rfl
  | serve =>
    simp only [perform, serve]
    split
    · exact continues_of_ages (forall₂_ages_refl _) rfl
    · exact .refl s
  | shutdown =>
    refine continues_of_ages (ages_shutdown s) ?_
    rcases shutdown_cases s with ⟨-, same⟩ | ⟨-, same⟩ <;> simp only [perform, same]
  | connect position => exact continues_connect s position
  | send i message =>
    refine continues_of_ages (ages_send s i message) ?_
    rcases send_cases s i message with ⟨e, same⟩ | ⟨c, c', -, -, same⟩ <;>
      simp only [perform, same, prune]
  | leave i => exact continues_of_ages (ages_leave s i) rfl
  | receive i =>
    refine continues_of_ages (ages_receive s i) ?_
    rcases receive_cases s i with same | ⟨c, -, -, same⟩ <;> simp only [perform, same]
  | elapse ms =>
    have later : s.settle.Continues (s.elapse ms) :=
      continues_of_ages (ages_elapseWithin _ ms ms) (sessions_elapseWithin _ ms ms)
    exact (continues_settle s).trans later

theorem continues_performAll (s : Server) (requests : List Request) :
    s.Continues (s.performAll requests) :=
  performAll_induction (P := s.Continues) (fun _ r h => h.trans (continues_perform _ r)) (.refl s)
    requests

theorem exists_of_served (served : s.attentionAt i = .served id) :
    ∃ c, s.clients[i]? = some c ∧ c.number? = some id := by
  cases present : s.clients[i]? with
  | none =>
    rw [attentionAt_of_none present] at served
    cases served
  | some c =>
    rw [attentionAt_of_some present] at served
    exact ⟨c, rfl, Client.number?_eq_some_iff.mpr served⟩

theorem Tracks.below (tracks : s.Tracks) (served : s.attentionAt i = .served id) :
    id < s.sessions := by
  obtain ⟨c, present, number⟩ := exists_of_served served
  exact tracks.given id (mem_numbers.mpr ⟨c, List.mem_of_getElem? present, number⟩)

theorem Tracks.unique (tracks : s.Tracks) (served : s.attentionAt i = .served id)
    (served' : s.attentionAt j = .served id) : i = j := by
  obtain ⟨c, present, number⟩ := exists_of_served served
  obtain ⟨c', present', number'⟩ := exists_of_served served'
  have apart := List.pairwise_iff_getElem.mp (List.pairwise_filterMap.mp tracks.distinct)
  obtain ⟨here, rfl⟩ := List.getElem?_eq_some_iff.mp present
  obtain ⟨here', rfl⟩ := List.getElem?_eq_some_iff.mp present'
  rcases Nat.lt_trichotomy i j with less | same | more
  · exact absurd rfl (apart i j here here' less id number id number')
  · exact same
  · exact absurd rfl (apart j i here' here more id number' id number)

/-- Two sessions, each seen at some moment, have the same number exactly if they are one. -/
theorem served_iff {id' : Nat} (tracks : s.Tracks) (continues : s.Continues s')
    (served : s.attentionAt i = .served id) (served' : s'.attentionAt j = .served id') :
    i = j ↔ id = id' := by
  constructor
  · rintro rfl
    rcases continues.attention i with same | cut | ⟨waiting, -⟩
    · rw [same, served] at served'
      cases served'
      rfl
    · rw [cut] at served'
      cases served'
    · rw [waiting] at served
      cases served
  · rintro rfl
    rcases continues.attention j with same | cut | ⟨-, id', new, given⟩
    · exact tracks.unique served (same ▸ served')
    · rw [cut] at served'
      cases served'
    · rw [given] at served'
      cases served'
      -- a number that is given out later is not below those that have been given out
      exact absurd (tracks.below served) (Nat.not_lt.mpr new)

end Server

end Stepwise

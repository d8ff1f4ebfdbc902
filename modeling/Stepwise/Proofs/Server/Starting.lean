/-
  Stepwise/Proofs/Server/Starting.lean
  ====================================
  **What a failed start leaves behind.**

  A server starts its transports one after the other, and a transport cannot be stopped.  So the
  start fails at the first transport of the roster that has been started before, elsewhere or by
  this very start (`Transport.Breaks`), and the transports in front of it stay started, on a
  channel that nobody holds: nobody can connect to them any more (`transports_of_failed_start`).
  All others are as they were, and one that was started before keeps its channel.  A failed start
  is undone only if it fails at the first transport (`failed_start_is_not_undone`).
-/
import Stepwise.Proofs.Server.Lifetime

namespace Stepwise

namespace Transport

variable {transports : List Transport} {roster : List Nat} {channel : Channel} {e : TransportError}
  {t : Transport} {p q : Nat}

/-- Starting the roster fails at `p`, when the transports in `front` have been started. -/
structure Breaks (channel : Channel) (transports : List Transport) (roster front : List Nat)
    (p : Nat) (back : List Nat) : Prop where
  order : roster = front ++ p :: back
  fresh : ∀ q ∈ front, ∃ t, transports[q]? = some t ∧ t.isStarted = false
  nodup : front.Nodup
  taken : p ∈ front ∨ ∃ t, transports[p]? = some t ∧ t.isStarted = true
  started : ∀ q ∈ front, ∀ t, transports[q]? = some t →
    (startAll channel transports roster).1[q]? = some { t with channel := some channel }
  others : ∀ q, q ∉ front → (startAll channel transports roster).1[q]? = transports[q]?

theorem startAll_of_fresh (channel : Channel) (roster : List Nat)
    (present : transports[q]? = some t) (fresh : t.isStarted = false) :
    startAll channel transports (q :: roster) =
      startAll channel (transports.set q { t with channel := some channel }) roster := by
  simp [startAll, present, start, fresh]

/-- A transport that is started in front of the others. -/
theorem Breaks.cons {front back : List Nat} (present : transports[q]? = some t)
    (fresh : t.isStarted = false)
    (breaks : Breaks channel (transports.set q { t with channel := some channel }) roster front p
      back) : Breaks channel transports (q :: roster) (q :: front) p back := by
  have now := Server.getElem?_set_of_some present { t with channel := some channel }
  have away {q' : Nat} (other : q ≠ q') :
      (transports.set q { t with channel := some channel })[q']? = transports[q']? :=
    List.getElem?_set_ne other
  have once : q ∉ front := by
    intro again
    obtain ⟨t', present', fresh'⟩ := breaks.fresh q again
    cases now.symm.trans present'
    cases fresh'
  have starts := startAll_of_fresh channel roster present fresh
  refine ⟨by rw [breaks.order]; rfl, ?_, List.nodup_cons.mpr ⟨once, breaks.nodup⟩, ?_, ?_, ?_⟩
  · intro q' listed
    by_cases same : q = q'
    · subst same
      exact ⟨t, present, fresh⟩
    · obtain ⟨t', present', fresh'⟩ := breaks.fresh q' (List.mem_of_ne_of_mem (Ne.symm same) listed)
      exact ⟨t', (away same).symm.trans present', fresh'⟩
  · rcases breaks.taken with listed | ⟨t', present', started⟩
    · exact .inl (List.mem_cons_of_mem q listed)
    · by_cases same : q = p
      · exact .inl (same ▸ List.mem_cons_self)
      · exact .inr ⟨t', (away same).symm.trans present', started⟩
  · intro q' listed t' present'
    rw [starts]
    by_cases same : q = q'
    · subst same
      cases present.symm.trans present'
      exact (breaks.others q once).trans now
    · exact breaks.started q' (List.mem_of_ne_of_mem (Ne.symm same) listed) t'
        ((away same).trans present')
  · intro q' unlisted
    have other : q ≠ q' := fun same => unlisted (same ▸ List.mem_cons_self)
    have later : q' ∉ front := fun listed => unlisted (List.mem_cons_of_mem q listed)
    rw [starts, breaks.others q' later]
    exact away other

/-- **Where a start fails.** -/
theorem exists_breaks (valid : ∀ p ∈ roster, p < transports.length)
    (fails : (startAll channel transports roster).2 = some e) :
    e = .alreadyStarted ∧ ∃ front p back, Breaks channel transports roster front p back := by
  induction roster generalizing transports with
  | nil => cases fails
  | cons q rest ih =>
    obtain ⟨here, valid⟩ := List.forall_mem_cons.mp valid
    have present := List.getElem?_eq_getElem here
    rcases start_cases transports[q] channel with ⟨started, refuses⟩ | ⟨fresh, starts⟩
    · have stops : startAll channel transports (q :: rest) = (transports, some .alreadyStarted) :=
        startAll_of_started present started
      rw [stops] at fails
      cases fails
      refine ⟨rfl, [], q, rest, rfl, by simp, .nil, .inr ⟨_, present, started⟩, by simp, ?_⟩
      intro q' _
      rw [stops]
    · have starts := startAll_of_fresh channel rest present fresh
      rw [starts] at fails
      obtain ⟨rfl, front, p, back, breaks⟩ := ih (by simpa using valid) fails
      exact ⟨rfl, q :: front, p, back, breaks.cons present fresh⟩

end Transport

namespace Server

open Transport (startAll)

variable {s : Server} {e : TransportError} {t : Transport} {q : Nat}

theorem connect_of_apart (present : s.transports[q]? = some t)
    (apart : ∀ channel, t.channel = some channel → s.stage.channel? ≠ some channel) :
    (s.connect q).2 = .error .closed := by
  rcases connect_cases s q with same | ⟨t', channel, present', has, ⟨-, same⟩ | ⟨held, -⟩⟩
  · rw [same]
  · rw [same]
  · cases present.symm.trans present'
    exact absurd held (apart channel has)

/-- **A failed start leaves the transports started that it has started.**  It fails at the first
    transport of the roster that has been started already, before the start or by it.  Those in
    front of it, of which none had been started, have the channel of this start, which the server
    does not hold: they cannot be started again, and nobody can connect to them.  All others are
    as they were, also the ones that were started before, with the channels that they had; and
    nothing else about the server has changed, but that one channel more has been opened. -/
theorem transports_of_failed_start (s : Server) (valid : ∀ p ∈ s.roster, p < s.transports.length)
    (own : ∀ channel, s.stage.channel? = some channel → channel < s.channels)
    (fails : s.start.2 = some e) :
    e = .alreadyStarted ∧
      s.start.1 = { s with transports := s.start.1.transports, channels := s.channels + 1 } ∧
      ∃ front p back, s.roster = front ++ p :: back ∧ front.Nodup ∧
        (p ∈ front ∨ ∃ t : Transport, s.transports[p]? = some t ∧ t.isStarted = true) ∧
        (∀ q ∈ front, ∃ t t' : Transport, s.transports[q]? = some t ∧ t.isStarted = false ∧
          s.start.1.transports[q]? = some t' ∧ t' = { t with channel := some s.channels } ∧
          (∀ channel, t'.start channel = .error .alreadyStarted) ∧
          (s.start.1.connect q).2 = .error .closed) ∧
        (∀ q, q ∉ front → s.start.1.transports[q]? = s.transports[q]?) ∧
        ∀ (q : Nat) (t : Transport), s.transports[q]? = some t → t.isStarted = true →
          s.start.1.transports[q]? = some t := by
  rcases start_cases s with ⟨e', error, same⟩ | ⟨-, same⟩
  · rw [same] at fails
    obtain rfl := Option.some.inj fails
    obtain ⟨rfl, front, p, back, breaks⟩ := Transport.exists_breaks valid error
    have transports := transports_start s
    refine ⟨rfl, by rw [same], front, p, back, breaks.order, breaks.nodup, breaks.taken, ?_, ?_, ?_⟩
    · intro q listed
      obtain ⟨t, present, fresh⟩ := breaks.fresh q listed
      have started := breaks.started q listed t present
      rw [← transports] at started
      refine ⟨t, _, present, fresh, started, rfl, fun channel => rfl, connect_of_apart started ?_⟩
      rintro channel ⟨⟩ held
      have stage : s.start.1.stage = s.stage := by rw [same]
      rw [stage] at held
      exact Nat.lt_irrefl _ (own _ held)
    · intro q unlisted
      rw [transports]
      exact breaks.others q unlisted
    · intro q t present started
      have unlisted : q ∉ front := by
        intro listed
        obtain ⟨t', present', fresh⟩ := breaks.fresh q listed
        cases present.symm.trans present'
        cases started.symm.trans fresh
      rw [transports, breaks.others q unlisted, present]
  · rw [same] at fails
    cases fails

/-- Of three transports the second one has been started elsewhere.  The first one is started, and
    nobody can connect to it; the second one keeps its channel. -/
theorem transports_of_failed_start_at_second :
    let b : Transport := { address := "b".toList, channel := some 0, clients := 2 }
    let s : Server :=
      { config := {}, seed := 0, roster := [0, 1, 2], channels := 1
        transports := [{ address := "a".toList }, b, { address := "c".toList }] }
    (∀ p ∈ s.roster, p < s.transports.length) ∧ s.stage = .created ∧
      s.start.2 = some .alreadyStarted ∧ (s.start.1.connect 0).2 = .error .closed ∧
      s.start.1.transports[1]? = some b := by
  intro b s
  have own : ∀ channel, s.stage.channel? = some channel → channel < s.channels := by
    rintro channel ⟨⟩
  obtain ⟨-, -, front, p, back, -, -, -, started, others, before⟩ :=
    transports_of_failed_start s (by decide) own rfl
  have listed : 0 ∈ front := by
    by_contra unlisted
    exact absurd (others 0 unlisted) (by decide)
  obtain ⟨t, t', -, -, -, -, -, closed⟩ := started 0 listed
  exact ⟨by decide, rfl, rfl, closed, before 1 b rfl rfl⟩

/-- **A failed start is not undone.**  A transport that was not started before is started now. -/
theorem failed_start_is_not_undone :
    ¬ ∀ (s : Server) (e : TransportError), (∀ p ∈ s.roster, p < s.transports.length) →
      (∀ channel, s.stage.channel? = some channel → channel < s.channels) → s.start.2 = some e →
        ∀ (q : Nat) (t : Transport), s.transports[q]? = some t → t.isStarted = false →
          ∃ t' : Transport, s.start.1.transports[q]? = some t' ∧ t'.isStarted = false := by
  intro all
  obtain ⟨t', after, fresh⟩ := all
    { config := {}, seed := 0, roster := [0, 1], channels := 1
      transports := [{ address := "a".toList }, { address := "b".toList, channel := some 0 }] }
    .alreadyStarted (by decide) (by rintro channel ⟨⟩) rfl 0 { address := "a".toList } rfl rfl
  cases after
  cases fresh

end Server

end Stepwise

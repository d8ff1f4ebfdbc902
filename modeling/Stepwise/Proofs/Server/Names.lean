/-
  Stepwise/Proofs/Server/Names.lean
  =================================
  **The names that a transport hands out are all different.**

  A transport is started once, and keeps its channel and its address for good (`Grows`).  It counts
  its clients, and the count is part of their names.
-/
import Stepwise.Proofs.Server.Numbers
import Stepwise.Proofs.Text.Numeral

namespace Stepwise

namespace Transport

/-- The transport may have been started and may have handed out clients since. -/
structure Grows (t t' : Transport) : Prop where
  address : t'.address = t.address
  channel : t.isStarted = true → t'.channel = t.channel
  clients : t.clients ≤ t'.clients

variable {t t' t'' : Transport} {transports : List Transport} {roster : List Nat}
  {channel : Channel} {m n p : Nat}

theorem Grows.refl (t : Transport) : Grows t t := ⟨rfl, fun _ => rfl, Nat.le_refl _⟩

theorem Grows.isStarted (h : Grows t t') (started : t.isStarted = true) : t'.isStarted = true := by
  rw [Transport.isStarted, h.channel started]
  exact started

theorem Grows.trans (h : Grows t t') (h' : Grows t' t'') : Grows t t'' where
  address := h'.address.trans h.address
  channel started := (h'.channel (h.isStarted started)).trans (h.channel started)
  clients := Nat.le_trans h.clients h'.clients

theorem peerName_injective (same : t.peerName m = t.peerName n) : m = n := by
  have digits := List.append_cancel_left same
  exact Text.ofNat_injective (List.cons.inj digits).2

/-- A transport never hands out a name again. -/
theorem Grows.peerName_ne (h : Grows t.counted t') :
    t.peerName t.clients ≠ t'.peerName t'.clients := by
  have address : t'.address = t.address := h.address
  intro same
  have again : t.peerName t.clients = t.peerName t'.clients := by
    rw [same, peerName, address]
    rfl
  have fewer : t.clients + 1 ≤ t'.clients := h.clients
  rw [← peerName_injective again] at fewer
  exact Nat.not_succ_le_self _ fewer

theorem start_cases (t : Transport) (channel : Channel) :
    t.isStarted = true ∧ t.start channel = .error .alreadyStarted ∨
      t.isStarted = false ∧ t.start channel = .ok { t with channel := some channel } := by
  cases started : t.isStarted <;> simp [start, started]

/-- What starting a roster leaves of the transport at each position. -/
theorem getElem?_startAll (channel : Channel) (transports : List Transport) (roster : List Nat)
    (p : Nat) :
    (startAll channel transports roster).1[p]? = transports[p]? ∨
      ∃ t, transports[p]? = some t ∧ t.isStarted = false ∧
        (startAll channel transports roster).1[p]? = some { t with channel := some channel } := by
  induction roster generalizing transports with
  | nil => exact .inl rfl
  | cons q rest ih =>
    rw [startAll]
    split
    · exact ih transports
    · rename_i t present
      rcases start_cases t channel with ⟨-, refuses⟩ | ⟨fresh, starts⟩
      · rw [refuses]
        exact .inl rfl
      · rw [starts]
        by_cases here : q = p
        · -- started now, it is passed over from here on
          subst here
          refine .inr ⟨t, present, fresh, ?_⟩
          have now := Server.getElem?_set_of_some present { t with channel := some channel }
          rcases ih (transports.set q { t with channel := some channel }) with same | again
          · exact same.trans now
          · obtain ⟨t', present', fresh', -⟩ := again
            cases now.symm.trans present'
            cases fresh'
        · have away := ih (transports.set q { t with channel := some channel })
          rw [List.getElem?_set_ne here] at away
          exact away

theorem length_startAll (channel : Channel) (transports : List Transport) (roster : List Nat) :
    (startAll channel transports roster).1.length = transports.length := by
  induction roster generalizing transports with
  | nil => rfl
  | cons q rest ih =>
    rw [startAll]
    split
    · exact ih transports
    · split
      · rfl
      · rw [ih, List.length_set]

theorem startAll_of_started (present : transports[p]? = some t) (started : t.isStarted = true) :
    startAll channel transports (p :: roster) = (transports, some .alreadyStarted) := by
  simp only [startAll, present, start, started, if_true]

/-- The first transport of a roster is started then, if it was not before. -/
theorem isStarted_of_startAll
    (present : (startAll channel transports (p :: roster)).1[p]? = some t) :
    t.isStarted = true := by
  rcases getElem?_startAll channel transports (p :: roster) p with same | ⟨t', -, -, started⟩
  · cases started : t.isStarted with
    | true => rfl
    | false =>
      -- it was there before, so it has been started, and that shows
      have before := same.symm.trans present
      have starts : t.start channel = .ok { t with channel := some channel } := by
        simp [start, started]
      have now := Server.getElem?_set_of_some before { t with channel := some channel }
      simp only [startAll, before, starts] at present
      rcases getElem?_startAll channel (transports.set p { t with channel := some channel })
        roster p with same' | ⟨t', -, -, started'⟩
      · have itself : { t with channel := some channel } = t :=
          Option.some.inj ((same'.trans now).symm.trans present)
        rw [← itself] at started
        cases started
      · cases present.symm.trans started'
        cases started
  · cases present.symm.trans started
    rfl

end Transport

namespace Server

open Transport (startAll)

variable {s s' s'' : Server} {t : Transport} {p i : Nat}

/-- The transports of a server are the same ones, with what has become of them since. -/
def Kept (s s' : Server) : Prop :=
  ∀ (p : Nat) (t : Transport), s.transports[p]? = some t →
    ∃ t' : Transport, s'.transports[p]? = some t' ∧ t.Grows t'

theorem Kept.refl (s : Server) : s.Kept s := fun _ t present => ⟨t, present, .refl t⟩

theorem Kept.trans (h : s.Kept s') (h' : s'.Kept s'') : s.Kept s'' := by
  intro p t present
  obtain ⟨t', present', grows⟩ := h p t present
  obtain ⟨t'', present'', grows'⟩ := h' p t' present'
  exact ⟨t'', present'', grows.trans grows'⟩

theorem kept_of_transports (same : s'.transports = s.transports) : s.Kept s' :=
  fun _ t present => ⟨t, same ▸ present, .refl t⟩

theorem start_cases (s : Server) :
    (∃ e, (startAll s.channels s.transports s.roster).2 = some e ∧ s.start =
      ({ s with
          transports := (startAll s.channels s.transports s.roster).1
          channels := s.channels + 1 }, some e)) ∨
      (startAll s.channels s.transports s.roster).2 = none ∧ s.start =
        ({ s with
            transports := (startAll s.channels s.transports s.roster).1
            channels := s.channels + 1
            stage := .started s.channels }, none) := by
  cases error : (startAll s.channels s.transports s.roster).2 <;> simp [start, error]

theorem transports_start (s : Server) :
    s.start.1.transports = (startAll s.channels s.transports s.roster).1 := by
  rcases start_cases s with ⟨e, -, same⟩ | ⟨-, same⟩ <;> rw [same]

theorem kept_start (s : Server) : s.Kept s.start.1 := by
  intro q t present
  rw [transports_start]
  rcases Transport.getElem?_startAll s.channels s.transports s.roster q with
    same | ⟨t', present', fresh, started⟩
  · exact ⟨t, same.trans present, .refl t⟩
  · cases present'.symm.trans present
    refine ⟨_, started, rfl, fun started => ?_, Nat.le_refl _⟩
    rw [fresh] at started
    cases started

theorem kept_count (present : s.transports[p]? = some t)
    (counted : s'.transports = s.transports.set p t.counted) : s.Kept s' := by
  intro q t' present'
  rw [counted]
  by_cases here : p = q
  · subst here
    cases present.symm.trans present'
    exact ⟨t.counted, getElem?_set_of_some present _, rfl, fun _ => rfl, Nat.le_succ _⟩
  · exact ⟨t', (List.getElem?_set_ne here).trans present', .refl t'⟩

theorem kept_perform (s : Server) (r : Request) : s.Kept (s.perform r) := by
  cases r with
  | start => exact kept_start s
  | serve =>
    simp only [perform, serve]
    split <;> exact kept_of_transports rfl
  | shutdown =>
    rcases shutdown_cases s with ⟨-, same⟩ | ⟨-, same⟩ <;> simp only [perform, same] <;>
      exact kept_of_transports rfl
  | connect p =>
    rcases connect_cases s p with same | ⟨t, channel, present, -, ⟨-, same⟩ | ⟨-, same⟩⟩ <;>
      simp only [perform, same]
    · exact .refl s
    · exact kept_count present rfl
    · exact kept_count present rfl
  | send i message => exact kept_of_transports (sameHouse_send s i message).transports
  | leave i => exact kept_of_transports (sameHouse_leave s i).transports
  | receive i => exact kept_of_transports (sameHouse_receive s i).transports
  | elapse ms => exact kept_of_transports (sameHouse_elapse s ms).transports

theorem kept_performAll (s : Server) (requests : List Request) : s.Kept (s.performAll requests) :=
  performAll_induction (P := s.Kept) (fun _ r h => h.trans (kept_perform _ r)) (.refl s) requests

theorem connect_ok (connects : (s.connect p).2 = .ok i) :
    ∃ t, s.transports[p]? = some t ∧ t.isStarted = true ∧
      (s.connect p).1.transports[p]? = some t.counted ∧
        ∃ c, (s.connect p).1.clients[i]? = some c ∧ c.peer = t.peerName t.clients := by
  rcases connect_cases s p with same | ⟨t, channel, present, started, ⟨-, same⟩ | ⟨-, same⟩⟩
  · rw [same] at connects
    cases connects
  · rw [same] at connects
    cases connects
  · rw [same] at connects ⊢
    cases connects
    refine ⟨t, present, ?_, ?_, { talk := .opened (t.peerName t.clients) s.config s.seed }, ?_, rfl⟩
    · rw [Transport.isStarted, started]
      rfl
    · exact getElem?_set_of_some present _
    · exact List.getElem?_concat_length

/-- Two clients of one transport have different names. -/
theorem peers_differ {j : Nat} {requests : List Request} (connects : (s.connect p).2 = .ok i)
    (connects' : (((s.connect p).1.performAll requests).connect p).2 = .ok j) :
    ∃ c c' : Client,
      (((s.connect p).1.performAll requests).connect p).1.clients[i]? = some c ∧
      (((s.connect p).1.performAll requests).connect p).1.clients[j]? = some c' ∧
        c.peer ≠ c'.peer := by
  obtain ⟨t, -, -, counted, c, present, name⟩ := connect_ok connects
  obtain ⟨t', present', -, -, c', last, name'⟩ := connect_ok connects'
  obtain ⟨t'', later, grows⟩ := kept_performAll (s.connect p).1 requests p t.counted counted
  obtain rfl : t'' = t' := Option.some.inj (later.symm.trans present')
  have continues : (s.connect p).1.Continues (((s.connect p).1.performAll requests).connect p).1 :=
    (continues_performAll _ requests).trans (continues_perform _ (.connect p))
  obtain ⟨d, there, same⟩ := continues.names i c present
  refine ⟨d, c', there, last, ?_⟩
  rw [same, name, name']
  exact grows.peerName_ne

end Server

end Stepwise

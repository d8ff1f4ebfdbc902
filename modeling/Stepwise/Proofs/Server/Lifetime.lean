/-
  Stepwise/Proofs/Server/Lifetime.lean
  ====================================
  **From the first start of a server to the end of serving, and what is left then.**

  Nobody is served except while a server serves, and nobody is left when it has stopped (`Housed`).
  A server whose transports are started cannot be started again: after it has given up its channel
  nobody can ever connect (`IsClosed`).
-/
import Stepwise.Proofs.Server.Names

namespace Stepwise

namespace Server

open Transport (startAll)

variable {s s' : Server} {t : Transport} {channel : Channel} {p i ms : Nat}

/-! ### Stages -/

/-- What is true of a server at every stage. -/
structure Housed (s : Server) : Prop where
  roster : ∀ p ∈ s.roster, p < s.transports.length
  /-- A transport that is started has a channel that was opened, as has the server. -/
  opened : ∀ t ∈ s.transports, ∀ channel, t.channel = some channel → channel < s.channels
  own : ∀ channel, s.stage.channel? = some channel → channel < s.channels
  /-- The first transport of the roster has been started, if the server has. -/
  started : s.stage ≠ .created → ∀ p rest, s.roster = p :: rest →
    ∀ t, s.transports[p]? = some t → t.isStarted = true
  /-- To a server without transports nobody can connect. -/
  deserted : s.roster = [] → s.clients = [] ∧
    ∀ t ∈ s.transports, ∀ channel, t.channel = some channel → s.stage.channel? ≠ some channel
  idle : s.isServing = false → ∀ c ∈ s.clients, c.number? = none
  closed : s.stage = .stopped → ∀ c ∈ s.clients, c.attention = .cut

theorem Housed.ages (h : s.Housed) (house : SameHouse s s')
    (ages : List.Forall₂ Client.Ages s.clients s'.clients) : s'.Housed where
  roster := house.roster ▸ house.transports ▸ h.roster
  opened := house.transports ▸ house.channels ▸ h.opened
  own := house.stage ▸ house.channels ▸ h.own
  started := house.stage ▸ house.roster ▸ house.transports ▸ h.started
  deserted empty := by
    obtain ⟨nobody, apart⟩ := h.deserted (house.roster ▸ empty)
    refine ⟨?_, house.transports ▸ house.stage ▸ apart⟩
    exact List.forall₂_nil_left_iff.mp (nobody ▸ ages)
  idle resting c' present := by
    obtain ⟨c, earlier, older⟩ := exists_of_mem_of_forall₂ ages present
    have none := h.idle (house.isServing ▸ resting) c earlier
    rcases older.number? with same | none'
    · exact same.trans none
    · exact none'
  closed stopped c' present := by
    obtain ⟨c, earlier, older⟩ := exists_of_mem_of_forall₂ ages present
    have cut := h.closed (house.stage ▸ stopped) c earlier
    rcases older.attention with same | cut'
    · exact same.trans cut
    · exact cut'

/-- A server that is started again had no transports. -/
theorem Housed.roster_of_start (h : s.Housed) (stage : s.stage ≠ .created)
    (succeeds : (startAll s.channels s.transports s.roster).2 = none) : s.roster = [] := by
  cases roster : s.roster with
  | nil => rfl
  | cons p rest =>
    have here : p < s.transports.length := h.roster p (roster ▸ List.mem_cons_self)
    have present := List.getElem?_eq_getElem here
    have started := h.started stage p rest roster _ present
    rw [roster, Transport.startAll_of_started present started] at succeeds
    cases succeeds

theorem channel_lt_of_startAll (h : s.Housed) (mem : t ∈ s.start.1.transports)
    (has : t.channel = some channel) : channel < s.channels + 1 := by
  obtain ⟨q, present⟩ := List.getElem?_of_mem mem
  rw [transports_start] at present
  rcases Transport.getElem?_startAll s.channels s.transports s.roster q with
    same | ⟨t', -, -, started⟩
  · have before := List.mem_of_getElem? (same.symm.trans present)
    exact Nat.lt_succ_of_lt (h.opened t before channel has)
  · obtain rfl := Option.some.inj (started.symm.trans present)
    cases has
    exact Nat.lt_succ_self _

theorem housed_start (h : s.Housed) : s.start.1.Housed := by
  have opened := @channel_lt_of_startAll s
  have started : ∀ p rest, s.roster = p :: rest → ∀ t, s.start.1.transports[p]? = some t →
      t.isStarted = true := by
    intro p rest roster t present
    rw [transports_start, roster] at present
    exact Transport.isStarted_of_startAll present
  have length : s.start.1.transports.length = s.transports.length := by
    rw [transports_start, Transport.length_startAll]
  rcases start_cases s with ⟨e, fails, same⟩ | ⟨succeeds, same⟩
  · rw [same] at opened started length ⊢
    refine ⟨fun p listed => length ▸ h.roster p listed, fun t mem channel has => opened h mem has,
      fun channel own => Nat.lt_succ_of_lt (h.own channel own), fun _ => started, ?_, h.idle,
      h.closed⟩
    intro empty
    have empty : s.roster = [] := empty
    rw [empty] at fails
    cases fails
  · rw [same] at opened started length ⊢
    refine ⟨fun p listed => length ▸ h.roster p listed, fun t mem channel has => opened h mem has,
      ?_, fun _ => started, ?_, ?_, fun stopped => by cases stopped⟩
    · intro channel own
      cases own
      exact Nat.lt_succ_self _
    · intro empty
      have empty : s.roster = [] := empty
      refine ⟨(h.deserted empty).1, fun t mem channel has own => ?_⟩
      have old : t ∈ s.transports := by
        rw [empty] at mem
        exact mem
      cases own
      exact Nat.lt_irrefl _ (h.opened t old _ has)
    · -- whoever starts a server again has given it no transports, and so it has no clients
      intro _ c present
      by_cases stage : s.stage = .created
      · exact h.idle (by simp only [isServing, stage]) c present
      · rw [(h.deserted (h.roster_of_start stage succeeds)).1] at present
        cases present

theorem housed_serve (h : s.Housed) : s.serve.Housed := by
  unfold serve
  split
  · rename_i channel started
    have own : s.stage.channel? = some channel := by
      rw [started]
      rfl
    have created : s.stage ≠ .created := by simp [started]
    by_cases empty : s.roster = []
    · rw [if_pos (by simp [empty])]
      obtain ⟨nobody, -⟩ := h.deserted empty
      refine ⟨h.roster, h.opened, (fun channel own => by cases own), fun _ => h.started created,
        fun _ => ⟨nobody, fun _ _ _ _ own => by cases own⟩, ?_, ?_⟩ <;>
      · intro _ c present
        change c ∈ s.clients at present
        rw [nobody] at present
        cases present
    · rw [if_neg (by simp [empty])]
      refine ⟨h.roster, h.opened, fun channel' own' => ?_, fun _ => h.started created,
        fun none => absurd none empty, (fun idle => by cases idle), fun stopped => by cases stopped⟩
      cases own'
      exact h.own channel own
  · exact h

theorem housed_shutdown (h : s.Housed) : s.shutdown.1.Housed := by
  rcases shutdown_cases s with ⟨-, same⟩ | ⟨serving, same⟩
  · rw [same]
    exact h
  · rw [same]
    have created : s.stage ≠ .created := by
      intro created
      simp [isServing, created] at serving
    have cut (c : Client) (present : c ∈ s.clients.map fun c => c.lastTurn.cutOff) :
        c.attention = .cut := by
      obtain ⟨d, -, rfl⟩ := List.mem_map.mp present
      rfl
    refine ⟨h.roster, h.opened, (fun channel own => by cases own), fun _ => h.started created,
      fun empty => ⟨?_, fun _ _ _ _ own => by cases own⟩, fun _ c present => ?_,
      fun _ c present => cut c present⟩
    · simp only [(h.deserted empty).1, List.map_nil]
    · simp only [Client.number?, cut c present]

theorem mem_transports_of_count (present : s.transports[p]? = some t) {t' : Transport}
    (mem : t' ∈ s.transports.set p t.counted) :
    ∃ t ∈ s.transports, t'.channel = t.channel ∧ t'.isStarted = t.isStarted := by
  rcases List.mem_or_eq_of_mem_set mem with before | rfl
  · exact ⟨t', before, rfl, rfl⟩
  · exact ⟨t, List.mem_of_getElem? present, rfl, rfl⟩

/-- One more client is counted, and nothing else is new about the transport. -/
theorem Housed.counted (h : s.Housed) (present : s.transports[p]? = some t) :
    Housed { s with transports := s.transports.set p t.counted } := by
  refine ⟨fun q listed => ?_, fun t' mem channel has => ?_, h.own,
    fun stage q rest roster t' here => ?_,
    fun empty => ⟨(h.deserted empty).1, fun t' mem channel has => ?_⟩, h.idle, h.closed⟩
  · rw [List.length_set]
    exact h.roster q listed
  · obtain ⟨t, before, same, -⟩ := mem_transports_of_count present mem
    exact h.opened t before channel (same ▸ has)
  · have started := h.started stage q rest roster
    by_cases same : p = q
    · subst same
      rw [getElem?_set_of_some present] at here
      cases here
      exact started t present
    · rw [List.getElem?_set_ne same] at here
      exact started t' here
  · obtain ⟨t, before, same, -⟩ := mem_transports_of_count present mem
    exact (h.deserted empty).2 t before channel (same ▸ has)

theorem housed_connect (h : s.Housed) (p : Nat) : (s.connect p).1.Housed := by
  rcases connect_cases s p with same | ⟨t, channel, present, started, ⟨-, same⟩ | ⟨held, same⟩⟩
  · rw [same]
    exact h
  · rw [same]
    exact h.counted present
  · rw [same]
    have h' := h.counted present
    refine ⟨h'.roster, h'.opened, h'.own, h'.started, fun empty => ?_, fun resting c there => ?_,
      fun stopped => ?_⟩
    · have apart := (h.deserted empty).2 t (List.mem_of_getElem? present) channel started
      exact absurd held apart
    · rcases List.mem_append.mp there with before | new
      · exact h.idle resting c before
      · obtain rfl := List.mem_singleton.mp new
        rfl
    · have stopped : s.stage = .stopped := stopped
      rw [stopped] at held
      cases held

theorem housed_settle (h : s.Housed) : s.settle.Housed := by
  cases serving : s.isServing with
  | false =>
    rw [settle_of_not_serving serving]
    exact h
  | true =>
    have house := sameHouse_settle s
    have turns := clients_settle serving
    have serving' : s.settle.isServing = true := house.isServing.trans serving
    have started : s.settle.stage ≠ .stopped := by
      intro stopped
      simp [isServing, stopped] at serving'
    refine ⟨house.roster ▸ house.transports ▸ h.roster,
      house.transports ▸ house.channels ▸ h.opened, house.stage ▸ house.channels ▸ h.own,
      house.stage ▸ house.roster ▸ house.transports ▸ h.started, fun empty => ?_,
      fun resting => ?_, fun stopped => absurd stopped started⟩
    · obtain ⟨nobody, apart⟩ := h.deserted (house.roster ▸ empty)
      refine ⟨?_, house.transports ▸ house.stage ▸ apart⟩
      exact List.forall₂_nil_left_iff.mp (nobody ▸ turns)
    · rw [serving'] at resting
      cases resting

theorem housed_perform (h : s.Housed) (r : Request) : (s.perform r).Housed := by
  cases r with
  | start => exact housed_start h
  | serve => exact housed_serve h
  | shutdown => exact housed_shutdown h
  | connect p => exact housed_connect h p
  | send i message => exact h.ages (sameHouse_send s i message) (ages_send s i message)
  | leave i => exact h.ages (sameHouse_leave s i) (ages_leave s i)
  | receive i => exact h.ages (sameHouse_receive s i) (ages_receive s i)
  | elapse ms =>
    exact (housed_settle h).ages (sameHouse_elapseWithin _ ms ms) (ages_elapseWithin _ ms ms)

theorem housed_performAll (h : s.Housed) (requests : List Request) :
    (s.performAll requests).Housed :=
  performAll_induction (P := Housed) (fun _ r h => housed_perform h r) h requests

/-! ### After serving -/

/-- Serving is over, and nobody can connect any more. -/
def IsClosed (s : Server) : Prop := s.stage = .stopped ∨ s.roster = []

theorem IsClosed.sameHouse (closed : s.IsClosed) (house : SameHouse s s') : s'.IsClosed :=
  closed.imp house.stage.trans house.roster.trans

theorem Housed.isClosed_perform (h : s.Housed) (closed : s.IsClosed) (r : Request) :
    (s.perform r).IsClosed := by
  cases r with
  | start =>
    rcases start_cases s with ⟨e, -, same⟩ | ⟨succeeds, same⟩ <;> simp only [perform, same]
    · exact closed
    · rcases closed with stopped | empty
      · exact .inr (h.roster_of_start (by simp [stopped]) succeeds)
      · exact .inr empty
  | serve =>
    simp only [perform, serve]
    split
    · rename_i started
      rcases closed with stopped | empty
      · rw [stopped] at started
        cases started
      · exact .inr empty
    · exact closed
  | shutdown =>
    rcases shutdown_cases s with ⟨-, same⟩ | ⟨-, same⟩ <;> simp only [perform, same]
    · exact closed
    · exact .inl rfl
  | connect p =>
    rcases connect_cases s p with same | ⟨t, channel, -, -, ⟨-, same⟩ | ⟨-, same⟩⟩ <;>
      simp only [perform, same] <;> exact closed
  | send i message => exact closed.sameHouse (sameHouse_send s i message)
  | leave i => exact closed.sameHouse (sameHouse_leave s i)
  | receive i => exact closed.sameHouse (sameHouse_receive s i)
  | elapse ms => exact closed.sameHouse (sameHouse_elapse s ms)

theorem Housed.isClosed_performAll (h : s.Housed) (closed : s.IsClosed)
    (requests : List Request) : (s.performAll requests).IsClosed := by
  refine (performAll_induction (P := fun s => s.Housed ∧ s.IsClosed) ?_ ⟨h, closed⟩ requests).2
  rintro s r ⟨h, closed⟩
  exact ⟨housed_perform h r, h.isClosed_perform closed r⟩

theorem Housed.cut_of_isClosed (h : s.Housed) (closed : s.IsClosed) {c : Client}
    (present : c ∈ s.clients) : c.attention = .cut := by
  rcases closed with stopped | empty
  · exact h.closed stopped c present
  · rw [(h.deserted empty).1] at present
    cases present

/-- A link goes over the channel of a transport, and a server that is closed holds none that a
    transport has. -/
theorem Housed.connect_of_isClosed (h : s.Housed) (closed : s.IsClosed) (p : Nat) :
    (s.connect p).2 = .error .closed := by
  rcases connect_cases s p with same | ⟨t, channel, present, started, ⟨-, same⟩ | ⟨held, same⟩⟩
  · rw [same]
  · rw [same]
  · rcases closed with stopped | empty
    · rw [stopped] at held
      cases held
    · have apart := (h.deserted empty).2 t (List.mem_of_getElem? present) channel started
      exact absurd held apart

theorem receive_of_cut (cut : ∀ c ∈ s.clients, c.attention = .cut) (i : Nat) :
    (s.receive i).2.2 = true := by
  rcases receive_cases s i with same | ⟨c, present, -, same⟩
  · rw [same]
  · rw [same]
    have closed : c.takeAll.2.attention = .cut := cut c (List.mem_of_getElem? present)
    simp only [Client.isClosed, closed]

theorem registrations_of_cut (cut : ∀ c ∈ s.clients, c.attention = .cut) :
    registrations s.clients = [] := by
  refine List.filterMap_eq_nil_iff.mpr fun c present => ?_
  simp [Client.registration?, Client.isActive, cut c present]

/-- While a server serves, no link that was there before waits after some time. -/
theorem attention_elapse (serving : s.isServing = true) {c : Client}
    (present : c ∈ (s.elapse ms).clients) : c.attention ≠ .waiting := by
  obtain ⟨c', settled, ages⟩ := exists_of_mem_of_forall₂ (ages_elapseWithin _ ms ms) present
  obtain ⟨c₀, -, turn⟩ := exists_of_mem_of_forall₂ (clients_settle serving) settled
  have picked : c'.attention ≠ .waiting := by
    cases turn with
    | respond picked =>
      rcases (Client.ages_respond c₀).attention with same | cut
      · rwa [same]
      · simp [cut]
    | pickUp id waiting new given =>
      have served := Client.number?_eq_some_iff.mp (Client.number?_pickUp c₀ s.now id)
      simp [served]
  rcases ages.attention with same | cut
  · rwa [same]
  · simp [cut]

/-! ### The registry, whatever is asked of a server -/

/-- Nothing has been asked of the server.  Others may have started its transports. -/
structure IsNew (s : Server) : Prop where
  stage : s.stage = .created
  registry : s.registry = []
  clients : s.clients = []
  roster : ∀ p ∈ s.roster, p < s.transports.length
  opened : ∀ t ∈ s.transports, ∀ channel, t.channel = some channel → channel < s.channels

theorem isNew_ofAddresses (addresses : List Text) (config : Session.Config) (seed : Int) :
    (ofAddresses addresses config seed).IsNew := by
  refine ⟨rfl, rfl, rfl, fun p listed => ?_, fun t mem channel has => ?_⟩
  · simpa [ofAddresses] using listed
  · obtain ⟨address, -, rfl⟩ := List.mem_map.mp mem
    cases has

theorem IsNew.housed (new : s.IsNew) : s.Housed := by
  have channel : s.stage.channel? = none := by
    rw [new.stage]
    rfl
  refine ⟨new.roster, new.opened, fun _ own => ?_, fun created => absurd new.stage created,
    fun _ => ⟨new.clients, fun _ _ _ _ own => ?_⟩, fun _ c present => ?_, fun stopped => ?_⟩
  · rw [channel] at own
    cases own
  · rw [channel] at own
    cases own
  · rw [new.clients] at present
    cases present
  · rw [new.stage] at stopped
    cases stopped

theorem IsNew.inOrder (new : s.IsNew) : s.InOrder := by
  refine ⟨⟨?_, ?_, ?_, ?_, ?_⟩, ?_⟩ <;>
    simp [new.clients, new.registry, numbers, registrations]

/-- **The registry follows the sessions.**  Whatever is asked of a server, and in whatever order:

    - it holds one entry for each session that goes on, with the name of its client, and a client
      keeps its name;
    - every link that is picked up gets one session, with a number that no other session ever has,
      and while the server serves no link waits any longer when time has passed;
    - clients of one transport have different names;
    - once serving is over, and whatever is asked then, the registry is empty, no session goes on,
      every client finds its link closed, and nobody can connect. -/
theorem registry_follows_sessions {s₀ : Server} (new : s₀.IsNew) (requests more : List Request) :
    let s := s₀.performAll requests
    let s' := s.performAll more
    (s.registry.Perm (registrations s.clients) ∧
      s.activeSessions = s.clients.countP Client.isActive ∧
      ∀ (i : Nat) (c : Client), s.clients[i]? = some c →
        ∃ c' : Client, s'.clients[i]? = some c' ∧ c'.peer = c.peer) ∧
    ((∀ i j id id', s.attentionAt i = .served id → s'.attentionAt j = .served id' →
        (i = j ↔ id = id')) ∧
      ∀ ms, s.isServing = true → ∀ c ∈ (s.elapse ms).clients, c.attention ≠ .waiting) ∧
    (∀ p i j, (s.connect p).2 = .ok i →
      let last := ((s.connect p).1.performAll more).connect p
      last.2 = .ok j → ∃ c c' : Client,
        last.1.clients[i]? = some c ∧ last.1.clients[j]? = some c' ∧ c.peer ≠ c'.peer) ∧
    (s.stage = .stopped →
      s'.registry = [] ∧ (∀ c ∈ s'.clients, c.isActive = false) ∧
        (∀ i, (s'.receive i).2.2 = true) ∧ ∀ p, (s'.connect p).2 = .error .closed) := by
  intro s s'
  have order : s.InOrder := inOrder_performAll new.inOrder requests
  have order' : s'.InOrder := inOrder_performAll order more
  have housed : s.Housed := housed_performAll new.housed requests
  have housed' : s'.Housed := housed_performAll housed more
  have continues : s.Continues s' := continues_performAll s more
  refine ⟨⟨order.exact, order.activeSessions, continues.names⟩, ⟨?_, ?_⟩, ?_, ?_⟩
  · intro i j id id' served served'
    exact served_iff order.tracks continues served served'
  · intro ms serving c present
    exact attention_elapse serving present
  · intro p i j connects last connects'
    exact peers_differ connects connects'
  · intro stopped
    have closed : s'.IsClosed := housed.isClosed_performAll (.inl stopped) more
    have cut : ∀ c ∈ s'.clients, c.attention = .cut := fun _ => housed'.cut_of_isClosed closed
    refine ⟨?_, fun c present => ?_, receive_of_cut cut, housed'.connect_of_isClosed closed⟩
    · exact List.perm_nil.mp (registrations_of_cut cut ▸ order'.exact)
    · simp only [Client.isActive, cut c present]

/-- Two clients connect, and the program of the first one ends; then the server is shut down. -/
theorem registry_follows_sessions_one_ends :
    let requests : List Request :=
      [.start, .serve, .connect 0, .connect 0, .elapse 1, .send 0 "halt".toList, .elapse 1]
    let s₀ := ofAddresses ["local".toList] {} 0
    let s := s₀.performAll requests
    let last := ((s.connect 0).1.performAll [.elapse 1]).connect 0
    let s' := s₀.performAll (requests ++ [.shutdown])
    s₀.IsNew ∧ s.registry.Perm [(1, "local#1".toList)] ∧ s.activeSessions = 1 ∧
      s.attentionAt 0 = .served 0 ∧ s.attentionAt 1 = .served 1 ∧
      (∃ c c' : Client, last.1.clients[2]? = some c ∧ last.1.clients[3]? = some c' ∧
        c.peer ≠ c'.peer) ∧
      s'.stage = .stopped ∧ (s'.performAll [.start, .elapse 1]).registry = [] ∧
      ((s'.performAll [.start, .elapse 1]).connect 0).2 = .error .closed := by
  intro requests s₀
  have new : s₀.IsNew := isNew_ofAddresses _ _ _
  have stopped : (s₀.performAll (requests ++ [.shutdown])).stage = .stopped := by decide +kernel
  have whileServing := registry_follows_sessions new requests [.elapse 1]
  have afterwards := registry_follows_sessions new (requests ++ [.shutdown]) [.start, .elapse 1]
  obtain ⟨⟨exact, active, -⟩, -, names, -⟩ := whileServing
  obtain ⟨empty, -, -, closed⟩ := afterwards.2.2.2 stopped
  have registrations :
      registrations (s₀.performAll requests).clients = [(1, "local#1".toList)] := by decide +kernel
  have one : (s₀.performAll requests).clients.countP Client.isActive = 1 := by decide +kernel
  have differ := names 0 2 3 (by decide +kernel) (by decide +kernel)
  exact ⟨new, exact.trans (.of_eq registrations), active.trans one, by decide +kernel,
    by decide +kernel, differ, stopped, empty, closed 0⟩

end Server

end Stepwise

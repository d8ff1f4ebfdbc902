/-
  Stepwise/Proofs/Server/Registry.lean
  ====================================
  **The registry holds one entry for each session that goes on, and no other.**

  An entry is made when a link is picked up and struck when the session is over, so between the two
  the registry may lag behind: it holds every session that goes on, and perhaps some that do not
  (`Tracks`).  Whenever entries are struck it is exact again (`InOrder`), and after every request
  it is.
-/
import Mathlib.Data.List.Nodup
import Stepwise.Proofs.Server.Requests

namespace Stepwise

namespace Server

def numbers (clients : List Client) : List Nat := clients.filterMap Client.number?

/-- The entries for the sessions that go on. -/
def registrations (clients : List Client) : List (Nat × Text) :=
  clients.filterMap Client.registration?

variable {s s' s'' : Server} {front behind clients clients' : List Client} {c c' : Client}
  {e : Nat × Text} {i j id ms : Nat}

theorem mem_numbers : id ∈ numbers clients ↔ ∃ c ∈ clients, c.number? = some id :=
  List.mem_filterMap

theorem mem_registrations : e ∈ registrations clients ↔ ∃ c ∈ clients, c.registration? = some e :=
  List.mem_filterMap

theorem numbers_sublist_of_ages (ages : List.Forall₂ Client.Ages clients clients') :
    (numbers clients').Sublist (numbers clients) := by
  induction ages with
  | nil => exact .refl []
  | @cons c c' clients clients' first _ ih =>
    simp only [numbers, List.filterMap_cons] at ih ⊢
    rcases first.number? with same | none
    · rw [same]
      cases c.number? with
      | none => exact ih
      | some id => exact ih.cons_cons id
    · rw [none]
      cases c.number? with
      | none => exact ih
      | some id => exact ih.cons id

theorem exists_of_mem_of_forall₂ {R : Client → Client → Prop} (h : List.Forall₂ R clients clients')
    (mem : c' ∈ clients') : ∃ c ∈ clients, R c c' := by
  induction h with
  | nil => cases mem
  | cons first _ ih =>
    rcases List.mem_cons.mp mem with rfl | mem
    · exact ⟨_, List.mem_cons_self, first⟩
    · obtain ⟨c, earlier, h⟩ := ih mem
      exact ⟨c, List.mem_cons_of_mem _ earlier, h⟩

/-! ### Keeping track -/

/-- The numbers of sessions are different, and every session that goes on has its one entry. -/
structure Tracks (s : Server) : Prop where
  distinct : (numbers s.clients).Nodup
  given : ∀ id ∈ numbers s.clients, id < s.sessions
  keys : (s.registry.map (·.1)).Nodup
  entered : ∀ e ∈ s.registry,
    e.1 < s.sessions ∧ ∀ c ∈ s.clients, c.number? = some e.1 → c.peer = e.2
  registered : ∀ c ∈ s.clients, ∀ e, c.registration? = some e → e ∈ s.registry

/-- Entries may be struck of sessions that are over. -/
theorem Tracks.ages (h : s.Tracks) (ages : List.Forall₂ Client.Ages s.clients s'.clients)
    (sessions : s'.sessions = s.sessions) (struck : s'.registry.Sublist s.registry)
    (kept : ∀ c ∈ s'.clients, ∀ e ∈ s.registry, c.registration? = some e → e ∈ s'.registry) :
    s'.Tracks where
  distinct := h.distinct.sublist (numbers_sublist_of_ages ages)
  given id given := sessions ▸ h.given id ((numbers_sublist_of_ages ages).subset given)
  keys := h.keys.sublist (struck.map _)
  entered e entry := by
    obtain ⟨below, named⟩ := h.entered e (struck.subset entry)
    refine ⟨sessions ▸ below, fun c' present number => ?_⟩
    obtain ⟨c, earlier, older⟩ := exists_of_mem_of_forall₂ ages present
    rcases older.number? with same | none
    · exact older.peer.trans (named c earlier (same ▸ number))
    · rw [none] at number
      cases number
  registered c' present e registration := by
    obtain ⟨c, earlier, older⟩ := exists_of_mem_of_forall₂ ages present
    have before := h.registered c earlier e (older.registration? registration)
    exact kept c' present e before registration

theorem Tracks.ages_of_same (h : s.Tracks) (ages : List.Forall₂ Client.Ages s.clients s'.clients)
    (sessions : s'.sessions = s.sessions) (registry : s'.registry = s.registry) : s'.Tracks :=
  h.ages ages sessions (registry ▸ .refl _) fun _ _ _ entry _ => registry ▸ entry

/-- Every client but the one that is picked up was there before. -/
theorem mem_pickedUp (clients : s.clients = front ++ c :: behind)
    (present : c' ∈ (s.pickedUp front c behind).clients) :
    c' ∈ s.clients ∨ c' = c.pickUp s.now s.sessions := by
  rcases List.mem_append.mp present with here | there
  · exact .inl (clients ▸ List.mem_append_left _ here)
  · rcases List.mem_cons.mp there with same | there
    · exact .inr same
    · exact .inl (clients ▸ List.mem_append_right _ (List.mem_cons_of_mem _ there))

theorem numbers_pickedUp (clients : s.clients = front ++ c :: behind)
    (waiting : c.attention = .waiting) :
    (numbers (s.pickedUp front c behind).clients).Perm (s.sessions :: numbers s.clients) := by
  have none : c.number? = none := by simp only [Client.number?, waiting]
  have others : numbers s.clients = numbers front ++ numbers behind := by
    simp [numbers, clients, none]
  have now : numbers (s.pickedUp front c behind).clients =
      numbers front ++ s.sessions :: numbers behind := by
    simp [numbers, Server.pickedUp, Client.number?_pickUp]
  rw [now, others]
  exact List.perm_middle

theorem Tracks.pickedUp (h : s.Tracks) (clients : s.clients = front ++ c :: behind)
    (waiting : c.attention = .waiting) : (s.pickedUp front c behind).Tracks := by
  have picked := Client.number?_pickUp c s.now s.sessions
  have now := numbers_pickedUp clients waiting
  have new : s.sessions ∉ numbers s.clients := fun given => Nat.lt_irrefl _ (h.given _ given)
  refine ⟨?_, ?_, ?_, ?_, ?_⟩
  · exact now.nodup_iff.mpr (List.nodup_cons.mpr ⟨new, h.distinct⟩)
  · intro id given
    rcases List.mem_cons.mp (now.mem_iff.mp given) with rfl | given
    · exact Nat.lt_succ_self _
    · exact Nat.lt_succ_of_lt (h.given id given)
  · rw [Server.pickedUp, List.map_append]
    refine List.nodup_append.mpr ⟨h.keys, List.nodup_singleton _, ?_⟩
    rintro key old _ fresh rfl
    obtain ⟨e, entry, rfl⟩ := List.mem_map.mp old
    have below := (h.entered e entry).1
    have same : e.1 = s.sessions := by simpa using fresh
    exact Nat.lt_irrefl _ (same ▸ below)
  · intro e entry
    rcases List.mem_append.mp entry with old | fresh
    · obtain ⟨below, named⟩ := h.entered e old
      refine ⟨Nat.lt_succ_of_lt below, fun d present number => ?_⟩
      rcases mem_pickedUp clients present with before | rfl
      · exact named d before number
      · rw [picked] at number
        have same : s.sessions = e.1 := Option.some.inj number
        exact absurd below (Nat.not_lt.mpr (Nat.le_of_eq same))
    · obtain rfl := List.mem_singleton.mp fresh
      refine ⟨Nat.lt_succ_self _, fun d present number => ?_⟩
      rcases mem_pickedUp clients present with before | rfl
      · exact absurd (mem_numbers.mpr ⟨d, before, number⟩) new
      · exact Client.peer_pickUp c s.now s.sessions
  · intro d present e registration
    rcases mem_pickedUp clients present with before | rfl
    · exact List.mem_append_left _ (h.registered d before e registration)
    · obtain ⟨-, number, peer⟩ := Client.registration?_eq_some_iff.mp registration
      rw [picked] at number
      rw [Client.peer_pickUp] at peer
      refine List.mem_append_right _ (List.mem_singleton.mpr ?_)
      exact Prod.ext (Option.some.inj number).symm peer.symm

/-- Somebody connects and has to wait. -/
theorem Tracks.joined (h : s.Tracks) (waiting : c.attention = .waiting)
    (clients : s'.clients = s.clients ++ [c]) (sessions : s'.sessions = s.sessions)
    (registry : s'.registry = s.registry) : s'.Tracks := by
  have none : c.number? = none := by simp only [Client.number?, waiting]
  have same : numbers s'.clients = numbers s.clients := by
    simp [numbers, clients, none]
  have earlier {d : Client} {id : Nat} (present : d ∈ s'.clients) (number : d.number? = some id) :
      d ∈ s.clients := by
    rw [clients, List.mem_append, List.mem_singleton] at present
    rcases present with before | rfl
    · exact before
    · rw [none] at number
      cases number
  refine ⟨same ▸ h.distinct, same ▸ sessions ▸ h.given, registry ▸ h.keys, ?_, ?_⟩
  · intro e entry
    obtain ⟨below, named⟩ := h.entered e (registry ▸ entry)
    exact ⟨sessions ▸ below, fun d present number => named d (earlier present number) number⟩
  · intro d present e registration
    have number := (Client.registration?_eq_some_iff.mp registration).2.1
    exact registry ▸ h.registered d (earlier present number) e registration

/-! ### Striking entries -/

/-- The registry holds one entry for each session that goes on. -/
structure InOrder (s : Server) : Prop where
  tracks : s.Tracks
  exact : s.registry.Perm (registrations s.clients)

theorem isLive_iff : s.isLive id = true ↔ ∃ c ∈ s.clients, c.number? = some id ∧ c.isActive := by
  simp only [isLive, List.any_eq_true, Bool.and_eq_true, beq_iff_eq, Client.number?_eq_some_iff]

theorem Tracks.nodup_registry (h : s.Tracks) : s.registry.Nodup := h.keys.of_map

theorem Tracks.nodup_registrations (h : s.Tracks) : (registrations s.clients).Nodup := by
  refine List.Nodup.of_map (·.1) (h.distinct.sublist ?_)
  rw [registrations, List.map_filterMap]
  clear h
  induction s.clients with
  | nil => exact .refl []
  | cons c rest ih =>
    simp only [numbers, List.filterMap_cons] at ih ⊢
    cases registration : c.registration? with
    | none =>
      cases c.number? with
      | none => exact ih
      | some id => exact ih.cons id
    | some e =>
      rw [(Client.registration?_eq_some_iff.mp registration).2.1]
      exact ih.cons_cons e.1

/-- Striking the sessions that are over leaves the ones that are not. -/
theorem inOrder_prune (h : s.Tracks) : s.prune.InOrder := by
  have live {e : Nat × Text} (entry : e ∈ s.registry) :
      s.isLive e.1 = true ↔ e ∈ registrations s.clients := by
    rw [isLive_iff, mem_registrations]
    constructor
    · rintro ⟨c, present, number, active⟩
      have peer := (h.entered e entry).2 c present number
      exact ⟨c, present, Client.registration?_eq_some_iff.mpr ⟨active, number, peer⟩⟩
    · rintro ⟨c, present, registration⟩
      obtain ⟨active, number, -⟩ := Client.registration?_eq_some_iff.mp registration
      exact ⟨c, present, number, active⟩
  have mem (e : Nat × Text) : e ∈ s.prune.registry ↔ e ∈ registrations s.clients := by
    rw [prune, List.mem_filter]
    constructor
    · rintro ⟨entry, goesOn⟩
      exact (live entry).mp goesOn
    · intro registration
      obtain ⟨c, present, same⟩ := mem_registrations.mp registration
      have entry := h.registered c present e same
      exact ⟨entry, (live entry).mpr registration⟩
  have tracks : s.prune.Tracks := by
    refine h.ages (forall₂_ages_refl _) rfl List.filter_sublist fun c present e _ registration => ?_
    exact (mem e).mpr (mem_registrations.mpr ⟨c, present, registration⟩)
  exact ⟨tracks, (List.perm_ext_iff_of_nodup tracks.nodup_registry h.nodup_registrations).mpr mem⟩

/-! ### After every request -/

theorem inOrder_settle (h : s.InOrder) : s.settle.InOrder := by
  unfold settle
  split
  · -- while turns are taken the registry lags behind, so only `Tracks` is kept by each of them
    refine inOrder_prune (takeTurns_induction (P := Tracks) ?_ ?_ h.tracks)
    · intro s front c behind clients waiting tracks
      exact tracks.pickedUp clients waiting
    · intro s front c behind clients tracks
      refine tracks.ages_of_same ?_ rfl rfl
      rw [clients]
      exact List.rel_append (forall₂_ages_refl front)
        (.cons (Client.ages_respond c) (forall₂_ages_refl behind))
  · exact h

theorem registration?_skip (c : Client) (ms : Nat) :
    (c.skip ms).registration? = c.registration? := by
  unfold Client.skip
  split <;> rfl

theorem inOrder_skip (h : s.InOrder) (ms : Nat) : (s.skip ms).InOrder := by
  refine ⟨h.tracks.ages_of_same (forall₂_map_right (Client.ages_skip ms) _) rfl rfl, ?_⟩
  have same : registrations (s.skip ms).clients = registrations s.clients := by
    rw [registrations, skip, List.filterMap_map]
    exact List.filterMap_congr fun c _ => registration?_skip c ms
  rw [same]
  exact h.exact

theorem inOrder_tick (h : s.InOrder) : s.tick.InOrder :=
  inOrder_prune (h.tracks.ages_of_same (forall₂_map_right Client.ages_tick _) rfl rfl)

theorem inOrder_elapse (h : s.InOrder) (ms : Nat) : (s.elapse ms).InOrder :=
  elapseWithin_induction (P := InOrder) (fun _ ms h => inOrder_skip h ms) (fun _ => inOrder_tick)
    (inOrder_settle h) ms ms

theorem inOrder_connect (h : s.InOrder) (position : Nat) : (s.connect position).1.InOrder := by
  rcases connect_cases s position with same | ⟨t, channel, -, -, ⟨-, same⟩ | ⟨-, same⟩⟩
  · rw [same]
    exact h
  · rw [same]
    exact ⟨h.tracks.ages_of_same (forall₂_ages_refl _) rfl rfl, h.exact⟩
  · rw [same]
    refine ⟨h.tracks.joined rfl rfl rfl rfl, ?_⟩
    simpa [registrations, Client.registration?, Client.isActive] using h.exact

theorem registrations_set (present : clients[i]? = some c)
    (same : c'.registration? = c.registration?) :
    registrations (clients.set i c') = registrations clients := by
  induction clients generalizing i with
  | nil => rfl
  | cons first rest ih =>
    simp only [registrations] at ih ⊢
    cases i with
    | zero =>
      cases present
      rw [List.set_cons_zero, List.filterMap_cons, List.filterMap_cons, same]
    | succ i => rw [List.set_cons_succ, List.filterMap_cons, List.filterMap_cons, ih present]

theorem inOrder_receive (h : s.InOrder) (i : Nat) : (s.receive i).1.InOrder := by
  rcases receive_cases s i with same | ⟨c, present, -, same⟩
  · rw [same]
    exact h
  · rw [same]
    refine ⟨h.tracks.ages_of_same (forall₂_ages_set present (Client.ages_takeAll c)) rfl rfl, ?_⟩
    have same : registrations (s.clients.set i c.takeAll.2) = registrations s.clients :=
      registrations_set present rfl
    exact h.exact.trans (.of_eq same.symm)

theorem inOrder_shutdown (h : s.InOrder) : s.shutdown.1.InOrder := by
  have ages := ages_shutdown s
  rcases shutdown_cases s with ⟨-, same⟩ | ⟨-, same⟩
  · rw [same]
    exact h
  · rw [same] at ages ⊢
    have cut (c : Client) : c.lastTurn.cutOff.registration? = none := rfl
    refine ⟨h.tracks.ages ages rfl (List.nil_sublist _) ?_, ?_⟩
    · intro c' present e _ registration
      obtain ⟨c, -, rfl⟩ := List.mem_map.mp present
      rw [cut] at registration
      cases registration
    · simp [registrations, List.filterMap_map, cut]

theorem inOrder_perform (h : s.InOrder) (r : Request) : (s.perform r).InOrder := by
  cases r with
  | start =>
    simp only [perform, start]
    split <;> exact ⟨h.tracks.ages_of_same (forall₂_ages_refl _) rfl rfl, h.exact⟩
  | serve =>
    simp only [perform, serve]
    split
    · exact ⟨h.tracks.ages_of_same (forall₂_ages_refl _) rfl rfl, h.exact⟩
    · exact h
  | shutdown => exact inOrder_shutdown h
  | connect position => exact inOrder_connect h position
  | send i message =>
    rcases send_cases s i message with ⟨e, same⟩ | ⟨c, c', present, sent, same⟩
    · simpa only [perform, same] using h
    · simp only [perform, same]
      have ages := forall₂_ages_set present (Client.ages_send sent)
      exact inOrder_prune (h.tracks.ages_of_same ages rfl rfl)
  | leave i =>
    rcases leave_cases s i with ⟨-, same⟩ | ⟨c, present, same⟩
    · simp only [perform, same]
      exact inOrder_prune h.tracks
    · simp only [perform, same]
      have ages := forall₂_ages_set present (Client.ages_leave c)
      exact inOrder_prune (h.tracks.ages_of_same ages rfl rfl)
  | receive i => exact inOrder_receive h i
  | elapse ms => exact inOrder_elapse h ms

theorem inOrder_performAll (h : s.InOrder) (requests : List Request) :
    (s.performAll requests).InOrder :=
  performAll_induction (P := InOrder) (fun _ r h => inOrder_perform h r) h requests

/-- As many sessions are counted as go on. -/
theorem InOrder.activeSessions (h : s.InOrder) :
    s.activeSessions = s.clients.countP Client.isActive := by
  rw [Server.activeSessions, h.exact.length_eq, registrations, List.length_filterMap_eq_countP]
  refine List.countP_congr fun c _ => ?_
  rw [Option.isSome_iff_exists]
  constructor
  · rintro ⟨e, registration⟩
    exact (Client.registration?_eq_some_iff.mp registration).1
  · intro active
    obtain ⟨⟨id, number⟩, -⟩ := Client.isActive_iff.mp active
    exact ⟨(id, c.peer), Client.registration?_eq_some_iff.mpr ⟨active, number, rfl⟩⟩

end Server

end Stepwise

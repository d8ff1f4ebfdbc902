/-
  Stepwise/Proofs/Server/Requests.lean
  ====================================
  **Everything that can be asked of a server, in any order.**

  A request comes from whoever runs the server, from a client, or from the clock.  Two of the things
  that a server does go over all of its clients: it gives each its turn, and it lets time pass.
  What holds of a server and is kept by one turn holds after all of them (`takeTurns_induction`),
  and what is kept while nothing happens and by one millisecond is kept by any number of them
  (`elapseWithin_induction`).  Neither touches the house that the clients are in (`SameHouse`).
-/
import Mathlib.Data.List.Forall2
import Stepwise.Proofs.Server.Clients

namespace Stepwise

namespace Server

inductive Request where
  | start
  | serve
  | shutdown
  | connect (position : Nat)
  | send (client : Nat) (message : Text)
  | leave (client : Nat)
  | receive (client : Nat)
  /-- Milliseconds pass. -/
  | elapse (ms : Nat)
deriving DecidableEq, Repr

def perform (s : Server) : Request → Server
  | .start => s.start.1
  | .serve => s.serve
  | .shutdown => s.shutdown.1
  | .connect position => (s.connect position).1
  | .send client message => (s.send client message).1
  | .leave client => s.leave client
  | .receive client => (s.receive client).1
  | .elapse ms => s.elapse ms

def performAll (s : Server) (requests : List Request) : Server := requests.foldl perform s

theorem performAll_append (s : Server) (requests more : List Request) :
    s.performAll (requests ++ more) = (s.performAll requests).performAll more :=
  List.foldl_append

/-- What every request keeps holds after any number of them. -/
theorem performAll_induction {P : Server → Prop} {s : Server}
    (perform : ∀ s r, P s → P (perform s r)) (start : P s) (requests : List Request) :
    P (s.performAll requests) := by
  induction requests generalizing s with
  | nil => exact start
  | cons r requests ih => exact ih (perform s r start)

variable {s s' : Server} {ms turns : Nat}

/-! ### Turns -/

/-- The link of a client is picked up, with some clients in front of it and some behind. -/
def pickedUp (s : Server) (front : List Client) (c : Client) (behind : List Client) : Server :=
  { s with
    sessions := s.sessions + 1
    registry := s.registry ++ [(s.sessions, c.peer)]
    clients := front ++ c.pickUp s.now s.sessions :: behind }

theorem takeTurns_waiting {s : Server} {c : Client} (waiting : c.attention = .waiting)
    (rest : List Client) :
    takeTurns s (c :: rest) = takeTurns (s.pickedUp s.clients c []) rest := by
  rw [takeTurns, waiting]
  rfl

theorem takeTurns_picked {s : Server} {c : Client} (picked : c.attention ≠ .waiting)
    (rest : List Client) :
    takeTurns s (c :: rest) = takeTurns { s with clients := s.clients ++ [c.respond] } rest := by
  rw [takeTurns]
  split
  · contradiction
  · rfl

/-- What is kept by picking up a link, and by a session that goes on, is kept by giving every
    client its turn. -/
theorem takeTurns_induction {P : Server → Prop}
    (pickUp : ∀ (s : Server) (front : List Client) (c : Client) (behind : List Client),
      s.clients = front ++ c :: behind → c.attention = .waiting → P s →
        P (s.pickedUp front c behind))
    (respond : ∀ (s : Server) (front : List Client) (c : Client) (behind : List Client),
      s.clients = front ++ c :: behind → P s →
        P { s with clients := front ++ c.respond :: behind })
    (start : P s) : P (takeTurns { s with clients := [] } s.clients) := by
  -- on the clients that wait for their turn, the ones that had theirs in front of them
  suffices turns : ∀ (rest : List Client) (s : Server), P { s with clients := s.clients ++ rest } →
      P (takeTurns s rest) from turns s.clients { s with clients := [] } start
  intro rest
  induction rest with
  | nil =>
    intro s start
    simpa [takeTurns] using start
  | cons c rest ih =>
    intro s start
    by_cases waiting : c.attention = .waiting
    · rw [takeTurns_waiting waiting]
      refine ih _ ?_
      simpa [pickedUp] using pickUp _ s.clients c rest rfl waiting start
    · rw [takeTurns_picked waiting]
      refine ih _ ?_
      simpa using respond _ s.clients c rest rfl start

/-- What a turn makes of a client, if sessions get numbers from one on and below another. -/
inductive TakesTurn (now first behind : Nat) (c : Client) : Client → Prop where
  | respond (picked : c.attention ≠ .waiting) : TakesTurn now first behind c c.respond
  | pickUp (id : Nat) (waiting : c.attention = .waiting) (new : first ≤ id) (given : id < behind) :
      TakesTurn now first behind c (c.pickUp now id)

theorem TakesTurn.mono {now first behind first' behind' : Nat} {c c' : Client}
    (h : TakesTurn now first behind c c') (le : first' ≤ first) (le' : behind ≤ behind') :
    TakesTurn now first' behind' c c' := by
  cases h with
  | respond picked => exact .respond picked
  | pickUp id waiting new given =>
    exact .pickUp id waiting (Nat.le_trans le new) (Nat.lt_of_lt_of_le given le')

theorem sessions_le_takeTurns (s : Server) (rest : List Client) :
    s.sessions ≤ (takeTurns s rest).sessions := by
  induction rest generalizing s with
  | nil => exact Nat.le_refl _
  | cons c rest ih =>
    by_cases waiting : c.attention = .waiting
    · rw [takeTurns_waiting waiting]
      exact Nat.le_trans (Nat.le_succ _) (ih (s.pickedUp s.clients c []))
    · rw [takeTurns_picked waiting]
      exact ih { s with clients := s.clients ++ [c.respond] }

theorem clients_takeTurns (s : Server) (rest : List Client) :
    ∃ turned, (takeTurns s rest).clients = s.clients ++ turned ∧
      List.Forall₂ (TakesTurn s.now s.sessions (takeTurns s rest).sessions) rest turned := by
  induction rest generalizing s with
  | nil => exact ⟨[], by simp [takeTurns], .nil⟩
  | cons c rest ih =>
    by_cases waiting : c.attention = .waiting
    · rw [takeTurns_waiting waiting]
      obtain ⟨turned, clients, turns⟩ := ih (s.pickedUp s.clients c [])
      have later := sessions_le_takeTurns (s.pickedUp s.clients c []) rest
      refine ⟨c.pickUp s.now s.sessions :: turned, by simpa [pickedUp] using clients, .cons ?_ ?_⟩
      · exact .pickUp _ waiting (Nat.le_refl _) later
      · exact turns.imp fun _ _ h => h.mono (Nat.le_succ _) (Nat.le_refl _)
    · rw [takeTurns_picked waiting]
      obtain ⟨turned, clients, turns⟩ := ih { s with clients := s.clients ++ [c.respond] }
      exact ⟨c.respond :: turned, by simpa using clients, .cons (.respond waiting) turns⟩

/-- Every client of a serving server has its turn when what is due is done. -/
theorem clients_settle (serving : s.isServing = true) :
    List.Forall₂ (TakesTurn s.now s.sessions s.settle.sessions) s.clients s.settle.clients := by
  obtain ⟨turned, clients, turns⟩ := clients_takeTurns { s with clients := [] } s.clients
  have same : s.settle.clients = turned := by
    rw [settle, if_pos serving]
    exact clients
  rw [same, settle, if_pos serving]
  exact turns

theorem settle_of_not_serving (idle : s.isServing = false) : s.settle = s := by
  rw [settle, if_neg (by simp [idle])]

/-! ### Time -/

theorem elapseWithin_induction {P : Server → Prop} (skip : ∀ s ms, P s → P (skip s ms))
    (tick : ∀ s, P s → P (tick s)) (start : P s) (turns ms : Nat) :
    P (elapseWithin turns ms s) := by
  induction turns generalizing s ms with
  | zero => exact start
  | succ turns ih =>
    cases ms with
    | zero => exact start
    | succ ms => exact ih (tick _ (skip s _ start)) _

theorem forall₂_map_right {R : Client → Client → Prop} {f : Client → Client} (h : ∀ c, R c (f c))
    (clients : List Client) : List.Forall₂ R clients (clients.map f) := by
  rw [List.forall₂_map_right_iff]
  exact List.forall₂_same.mpr fun c _ => h c

theorem forall₂_ages_trans {l₁ l₂ l₃ : List Client} (h : List.Forall₂ Client.Ages l₁ l₂)
    (h' : List.Forall₂ Client.Ages l₂ l₃) : List.Forall₂ Client.Ages l₁ l₃ := by
  induction h generalizing l₃ with
  | nil => exact h'
  | cons first _ ih =>
    cases h' with
    | cons first' rest' => exact .cons (first.trans first') (ih rest')

theorem forall₂_ages_refl (clients : List Client) : List.Forall₂ Client.Ages clients clients :=
  List.forall₂_same.mpr fun c _ => .refl c

/-- Time makes all clients older. -/
theorem ages_elapseWithin (s : Server) (turns ms : Nat) :
    List.Forall₂ Client.Ages s.clients (elapseWithin turns ms s).clients := by
  refine elapseWithin_induction (P := fun r => List.Forall₂ Client.Ages s.clients r.clients)
    ?_ ?_ (forall₂_ages_refl _) turns ms
  · intro r ms ages
    exact forall₂_ages_trans ages (forall₂_map_right (Client.ages_skip ms) _)
  · intro r ages
    exact forall₂_ages_trans ages (forall₂_map_right Client.ages_tick _)

theorem sessions_elapseWithin (s : Server) (turns ms : Nat) :
    (elapseWithin turns ms s).sessions = s.sessions :=
  elapseWithin_induction (P := fun r => r.sessions = s.sessions) (fun _ _ same => same)
    (fun _ same => same) rfl turns ms

/-! ### What one client does -/

theorem getElem?_set_of_some {α : Type} {l : List α} {i : Nat} {a : α} (present : l[i]? = some a)
    (b : α) : (l.set i b)[i]? = some b :=
  List.getElem?_set_self (List.getElem?_eq_some_iff.mp present).1

theorem forall₂_ages_set {clients : List Client} {c c' : Client} {i : Nat}
    (present : clients[i]? = some c) (ages : Client.Ages c c') :
    List.Forall₂ Client.Ages clients (clients.set i c') := by
  induction clients generalizing i with
  | nil => cases present
  | cons first rest ih =>
    cases i with
    | zero =>
      cases present
      exact .cons ages (forall₂_ages_refl rest)
    | succ i => exact .cons (.refl first) (ih present)

theorem send_cases (s : Server) (i : Nat) (message : Text) :
    (∃ e, s.send i message = (s, some e)) ∨
      ∃ c c', s.clients[i]? = some c ∧ c.send message = .ok c' ∧
        s.send i message = (prune { s with clients := s.clients.set i c' }, none) := by
  simp only [send]
  split
  · exact .inl ⟨_, rfl⟩
  · rename_i c present
    split
    · exact .inl ⟨_, rfl⟩
    · rename_i c' sent
      exact .inr ⟨c, c', present, sent, rfl⟩

theorem leave_cases (s : Server) (i : Nat) :
    s.clients[i]? = none ∧ s.leave i = s.prune ∨
      ∃ c, s.clients[i]? = some c ∧
        s.leave i = prune { s with clients := s.clients.set i c.leave } := by
  cases present : s.clients[i]? with
  | none =>
    refine .inl ⟨rfl, ?_⟩
    rw [leave, List.modify_eq_set_getElem?, present]
    rfl
  | some c =>
    refine .inr ⟨c, rfl, ?_⟩
    rw [leave, List.modify_eq_set_getElem?, present]
    rfl

theorem receive_cases (s : Server) (i : Nat) :
    s.receive i = (s, [], true) ∨
      ∃ c, s.clients[i]? = some c ∧ c.talk.gone = false ∧
        s.receive i =
          ({ s with clients := s.clients.set i c.takeAll.2 }, c.takeAll.1,
            c.takeAll.2.isClosed) := by
  simp only [receive]
  split
  · exact .inl rfl
  · rename_i c present
    split
    · exact .inl rfl
    · rename_i stays
      exact .inr ⟨c, present, by simpa using stays, rfl⟩

theorem ages_send (s : Server) (i : Nat) (message : Text) :
    List.Forall₂ Client.Ages s.clients (s.send i message).1.clients := by
  rcases send_cases s i message with ⟨e, same⟩ | ⟨c, c', present, sent, same⟩
  · rw [same]
    exact forall₂_ages_refl _
  · rw [same]
    exact forall₂_ages_set present (Client.ages_send sent)

theorem ages_leave (s : Server) (i : Nat) :
    List.Forall₂ Client.Ages s.clients (s.leave i).clients := by
  rcases leave_cases s i with ⟨-, same⟩ | ⟨c, present, same⟩
  · rw [same]
    exact forall₂_ages_refl _
  · rw [same]
    exact forall₂_ages_set present (Client.ages_leave c)

theorem ages_receive (s : Server) (i : Nat) :
    List.Forall₂ Client.Ages s.clients (s.receive i).1.clients := by
  rcases receive_cases s i with same | ⟨c, present, -, same⟩
  · rw [same]
    exact forall₂_ages_refl _
  · rw [same]
    exact forall₂_ages_set present (Client.ages_takeAll c)

theorem shutdown_cases (s : Server) :
    s.isServing = false ∧ s.shutdown = (s, false) ∨
      s.isServing = true ∧ s.shutdown =
        ({ s with
            stage := .stopped
            registry := []
            clients := s.clients.map fun c => c.lastTurn.cutOff }, true) := by
  cases serving : s.isServing <;> simp [shutdown, serving]

theorem ages_shutdown (s : Server) :
    List.Forall₂ Client.Ages s.clients s.shutdown.1.clients := by
  rcases shutdown_cases s with ⟨-, same⟩ | ⟨-, same⟩
  · rw [same]
    exact forall₂_ages_refl _
  · rw [same]
    exact forall₂_map_right (fun c => (Client.ages_lastTurn c).trans (Client.ages_cutOff _)) _

theorem connect_cases (s : Server) (position : Nat) :
    s.connect position = (s, .error .closed) ∨
      ∃ t channel, s.transports[position]? = some t ∧ t.channel = some channel ∧
        ((s.stage.channel? ≠ some channel ∧ s.connect position =
          ({ s with transports := s.transports.set position t.counted }, .error .closed)) ∨
        (s.stage.channel? = some channel ∧ s.connect position =
          ({ s with
              transports := s.transports.set position t.counted
              clients :=
                s.clients ++ [{ talk := .opened (t.peerName t.clients) s.config s.seed }] },
            .ok s.clients.length))) := by
  simp only [connect]
  split
  · exact .inl rfl
  · rename_i t present
    split
    · exact .inl rfl
    · rename_i channel started
      refine .inr ⟨t, channel, present, started, ?_⟩
      by_cases held : s.stage.channel? = some channel
      · rw [if_pos held]
        exact .inr ⟨held, rfl⟩
      · rw [if_neg held]
        exact .inl ⟨held, rfl⟩

/-! ### The house -/

/-- Two servers differ in nothing but their clients, their sessions and the time. -/
structure SameHouse (s s' : Server) : Prop where
  config : s'.config = s.config
  seed : s'.seed = s.seed
  roster : s'.roster = s.roster
  transports : s'.transports = s.transports
  stage : s'.stage = s.stage
  channels : s'.channels = s.channels

theorem SameHouse.refl (s : Server) : SameHouse s s := ⟨rfl, rfl, rfl, rfl, rfl, rfl⟩

theorem SameHouse.isServing (h : SameHouse s s') : s'.isServing = s.isServing := by
  simp only [Server.isServing, h.stage]

theorem sameHouse_settle (s : Server) : SameHouse s s.settle := by
  unfold settle
  split
  · have turns : SameHouse s (takeTurns { s with clients := [] } s.clients) := by
      refine takeTurns_induction (P := SameHouse s) ?_ ?_ (.refl s)
      · intro r front c rest _ _ h
        exact ⟨h.config, h.seed, h.roster, h.transports, h.stage, h.channels⟩
      · intro r front c rest _ h
        exact ⟨h.config, h.seed, h.roster, h.transports, h.stage, h.channels⟩
    exact ⟨turns.config, turns.seed, turns.roster, turns.transports, turns.stage, turns.channels⟩
  · exact .refl s

theorem sameHouse_elapseWithin (s : Server) (turns ms : Nat) :
    SameHouse s (elapseWithin turns ms s) := by
  refine elapseWithin_induction (P := SameHouse s) ?_ ?_ (.refl s) turns ms
  · intro r ms h
    exact ⟨h.config, h.seed, h.roster, h.transports, h.stage, h.channels⟩
  · intro r h
    exact ⟨h.config, h.seed, h.roster, h.transports, h.stage, h.channels⟩

theorem SameHouse.trans {s'' : Server} (h : SameHouse s s') (h' : SameHouse s' s'') :
    SameHouse s s'' :=
  ⟨h'.config.trans h.config, h'.seed.trans h.seed, h'.roster.trans h.roster,
    h'.transports.trans h.transports, h'.stage.trans h.stage, h'.channels.trans h.channels⟩

theorem sameHouse_elapse (s : Server) (ms : Nat) : SameHouse s (s.elapse ms) :=
  (sameHouse_settle s).trans (sameHouse_elapseWithin _ ms ms)

theorem sameHouse_send (s : Server) (i : Nat) (message : Text) :
    SameHouse s (s.send i message).1 := by
  rcases send_cases s i message with ⟨e, same⟩ | ⟨c, c', -, -, same⟩ <;> rw [same] <;>
    exact ⟨rfl, rfl, rfl, rfl, rfl, rfl⟩

theorem sameHouse_leave (s : Server) (i : Nat) : SameHouse s (s.leave i) :=
  ⟨rfl, rfl, rfl, rfl, rfl, rfl⟩

theorem sameHouse_receive (s : Server) (i : Nat) : SameHouse s (s.receive i).1 := by
  rcases receive_cases s i with same | ⟨c, -, -, same⟩ <;> rw [same] <;>
    exact ⟨rfl, rfl, rfl, rfl, rfl, rfl⟩

end Server

end Stepwise

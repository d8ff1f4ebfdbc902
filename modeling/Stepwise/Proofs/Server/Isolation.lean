/-
  Stepwise/Proofs/Server/Isolation.lean
  =====================================
  **A client of a server is as well off as if it were the only one.**

  What is asked of a server is asked by whoever runs it, by the clock, or by one of its clients.
  Leave out all that the others ask, from the start: the server goes through the same stages at the
  same times (`Parallel`), and to the client that is left the same happens (`Mirrors`).  For nothing
  that the clients share comes back to them: the registry is not read, numbers and names are given
  out and forgotten, and time passes over a session in the same way whoever else is there.
-/
import Stepwise.Proofs.Server.Alike
import Stepwise.Proofs.Server.Lifetime

namespace Stepwise

namespace Transport

/-- The transport, whatever the number of its clients. -/
def uncounted (t : Transport) : Transport := { t with clients := 0 }

theorem start_uncounted (t : Transport) (channel : Channel) :
    t.uncounted.start channel = (t.start channel).map uncounted := by
  cases started : t.isStarted with
  | true =>
    have started' : t.uncounted.isStarted = true := started
    simp only [start, started, started', if_true]
    rfl
  | false =>
    have started' : t.uncounted.isStarted = false := started
    simp only [start, started, started']
    rfl

theorem startAll_uncounted (channel : Channel) (transports : List Transport) (roster : List Nat) :
    startAll channel (transports.map uncounted) roster =
      ((startAll channel transports roster).1.map uncounted,
        (startAll channel transports roster).2) := by
  induction roster generalizing transports with
  | nil => rfl
  | cons p rest ih =>
    simp only [startAll, List.getElem?_map]
    cases transports[p]? with
    | none => exact ih transports
    | some t =>
      simp only [Option.map_some, start_uncounted]
      cases t.start channel with
      | error e => rfl
      | ok t' =>
        simp only [Except.map, ← List.map_set]
        exact ih _

end Transport

namespace Server

open Transport (uncounted startAll)

namespace Request

/-- No client asks for it. -/
def isShared : Request → Bool
  | .start | .serve | .shutdown | .elapse _ => true
  | .connect _ | .send _ _ | .leave _ | .receive _ => false

/-- What is left of a request if there is nobody but one client, and that is the first one. -/
def own? (i : Nat) : Request → Option Request
  | .send j m => if j = i then some (.send 0 m) else none
  | .leave j => if j = i then some (.leave 0) else none
  | .receive j => if j = i then some (.receive 0) else none
  | .connect _ => none
  | .start => some .start
  | .serve => some .serve
  | .shutdown => some .shutdown
  | .elapse ms => some (.elapse ms)

end Request

/-- What a client finds when it takes what is on its link. -/
structure Receipt where
  now : Nat
  lines : List Text
  /-- Nothing more can come. -/
  closed : Bool
deriving DecidableEq, Repr

def receipt? (s : Server) (i : Nat) : Request → Option Receipt
  | .receive j =>
    if j = i then some ⟨s.now, (s.receive j).2.1.map Event.line, (s.receive j).2.2⟩ else none
  | _ => none

/-- What a client finds, each time that it takes what is on its link. -/
def heard (s : Server) (i : Nat) : List Request → List Receipt
  | [] => []
  | q :: rest => (s.receipt? i q).toList ++ (s.perform q).heard i rest

variable {s r s' r' : Server} {c d c' d' : Client} {q q' : Request} {i j p ms : Nat} {m : Text}

/-! ### The same stages at the same times -/

/-- Two servers differ in nothing but their clients and sessions. -/
structure Parallel (s r : Server) : Prop where
  now : r.now = s.now
  config : r.config = s.config
  seed : r.seed = s.seed
  roster : r.roster = s.roster
  stage : r.stage = s.stage
  channels : r.channels = s.channels
  transports : r.transports.map uncounted = s.transports.map uncounted

theorem Parallel.refl (s : Server) : Parallel s s := ⟨rfl, rfl, rfl, rfl, rfl, rfl, rfl⟩

theorem Parallel.isServing (h : Parallel s r) : r.isServing = s.isServing := by
  simp only [Server.isServing, h.stage]

theorem map_uncounted_set {transports : List Transport} {t : Transport}
    (present : transports[p]? = some t) :
    (transports.set p t.counted).map uncounted = transports.map uncounted := by
  induction transports generalizing p with
  | nil => rfl
  | cons first rest ih =>
    cases p with
    | zero =>
      cases present
      rfl
    | succ p => exact congrArg (first.uncounted :: ·) (ih present)

/-- What the clients do changes nothing for the server. -/
theorem parallel_perform (own : q.isShared = false) (s : Server) : Parallel s (s.perform q) := by
  cases q with
  | start | serve | shutdown | elapse ms => cases own
  | connect p =>
    rcases connect_cases s p with same | ⟨t, channel, present, -, ⟨-, same⟩ | ⟨-, same⟩⟩ <;>
      simp only [perform, same]
    · exact .refl s
    · exact ⟨rfl, rfl, rfl, rfl, rfl, rfl, map_uncounted_set present⟩
    · exact ⟨rfl, rfl, rfl, rfl, rfl, rfl, map_uncounted_set present⟩
  | send j m =>
    rcases send_cases s j m with ⟨e, same⟩ | ⟨c, c', -, -, same⟩ <;> simp only [perform, same] <;>
      exact ⟨rfl, rfl, rfl, rfl, rfl, rfl, rfl⟩
  | leave j => exact ⟨rfl, rfl, rfl, rfl, rfl, rfl, rfl⟩
  | receive j =>
    rcases receive_cases s j with same | ⟨c, -, -, same⟩ <;> simp only [perform, same] <;>
      exact ⟨rfl, rfl, rfl, rfl, rfl, rfl, rfl⟩

theorem Parallel.symm (h : Parallel s r) : Parallel r s :=
  ⟨h.now.symm, h.config.symm, h.seed.symm, h.roster.symm, h.stage.symm, h.channels.symm,
    h.transports.symm⟩

theorem Parallel.trans {u : Server} (h : Parallel s r) (h' : Parallel r u) : Parallel s u :=
  ⟨h'.now.trans h.now, h'.config.trans h.config, h'.seed.trans h.seed, h'.roster.trans h.roster,
    h'.stage.trans h.stage, h'.channels.trans h.channels, h'.transports.trans h.transports⟩

/-- Servers stay parallel whatever their clients do, each for itself. -/
theorem Parallel.performOwn (h : Parallel s r) (own : q.isShared = false)
    (own' : q'.isShared = false) : Parallel (s.perform q) (r.perform q') :=
  ((parallel_perform own s).symm.trans h).trans (parallel_perform own' r)

theorem Parallel.transport (h : Parallel s r) {t : Transport}
    (present : s.transports[p]? = some t) :
    ∃ t', r.transports[p]? = some t' ∧ t'.address = t.address ∧ t'.channel = t.channel := by
  have same := congrArg (·[p]?) h.transports
  simp only [List.getElem?_map, present, Option.map_some] at same
  obtain ⟨t', present', alike⟩ := Option.map_eq_some_iff.mp same
  exact ⟨t', present', (congrArg Transport.address alike :), (congrArg Transport.channel alike :)⟩

theorem Parallel.start (h : Parallel s r) : Parallel s.start.1 r.start.1 := by
  have starts : ((startAll r.channels r.transports r.roster).1.map uncounted,
        (startAll r.channels r.transports r.roster).2) =
      ((startAll s.channels s.transports s.roster).1.map uncounted,
        (startAll s.channels s.transports s.roster).2) := by
    rw [← Transport.startAll_uncounted, ← Transport.startAll_uncounted, h.transports, h.channels,
      h.roster]
  obtain ⟨transports, error⟩ := Prod.mk.inj starts
  have channels : r.channels + 1 = s.channels + 1 := congrArg (· + 1) h.channels
  rcases start_cases s with ⟨e, fails, same⟩ | ⟨succeeds, same⟩ <;>
    rcases start_cases r with ⟨e', fails', same'⟩ | ⟨succeeds', same'⟩
  · rw [same, same']
    exact ⟨h.now, h.config, h.seed, h.roster, h.stage, channels, transports⟩
  · rw [fails, succeeds'] at error
    cases error
  · rw [succeeds, fails'] at error
    cases error
  · rw [same, same']
    exact ⟨h.now, h.config, h.seed, h.roster, congrArg Stage.started h.channels, channels,
      transports⟩

theorem Parallel.serve (h : Parallel s r) : Parallel s.serve r.serve := by
  have stage := h.stage
  cases stage' : s.stage with
  | started channel =>
    rw [stage'] at stage
    simp only [Server.serve, stage, stage']
    refine ⟨h.now, h.config, h.seed, h.roster, ?_, h.channels, h.transports⟩
    simp only [h.roster]
  | created | serving channel | stopped =>
    rw [stage'] at stage
    simp only [Server.serve, stage, stage']
    exact h

theorem Parallel.shutdown (h : Parallel s r) : Parallel s.shutdown.1 r.shutdown.1 := by
  have serving := h.isServing
  rcases shutdown_cases s with ⟨idle, same⟩ | ⟨busy, same⟩ <;>
    rcases shutdown_cases r with ⟨idle', same'⟩ | ⟨busy', same'⟩
  · rw [same, same']
    exact h
  · rw [idle, busy'] at serving
    cases serving
  · rw [busy, idle'] at serving
    cases serving
  · rw [same, same']
    exact ⟨h.now, h.config, h.seed, h.roster, rfl, h.channels, h.transports⟩

theorem now_settle (s : Server) : s.settle.now = s.now := by
  unfold settle
  split
  · exact takeTurns_induction (P := fun r => r.now = s.now) (fun _ _ _ _ _ _ h => h)
      (fun _ _ _ _ _ h => h) rfl
  · rfl

theorem now_elapse (s : Server) (ms : Nat) : (s.elapse ms).now = s.now + ms := by
  rw [elapse, now_elapseWithin (Nat.le_refl ms), now_settle]

theorem Parallel.elapse (h : Parallel s r) (ms : Nat) : Parallel (s.elapse ms) (r.elapse ms) := by
  have house := sameHouse_elapse s ms
  have house' := sameHouse_elapse r ms
  refine ⟨?_, ?_, ?_, ?_, ?_, ?_, ?_⟩
  · rw [now_elapse, now_elapse, h.now]
  · rw [house.config, house'.config, h.config]
  · rw [house.seed, house'.seed, h.seed]
  · rw [house.roster, house'.roster, h.roster]
  · rw [house.stage, house'.stage, h.stage]
  · rw [house.channels, house'.channels, h.channels]
  · rw [house.transports, house'.transports, h.transports]

theorem Parallel.perform (h : Parallel s r) (shared : q.isShared = true) :
    Parallel (s.perform q) (r.perform q) := by
  cases q with
  | start => exact h.start
  | serve => exact h.serve
  | shutdown => exact h.shutdown
  | elapse ms => exact h.elapse ms
  | connect p | send j m | leave j | receive j => cases shared

/-! ### What becomes of one client -/

/-- What is due is done for a client. -/
inductive Settles (s : Server) (c : Client) : Client → Prop where
  | idle (resting : s.isServing = false) : Settles s c c
  | turn {c' : Client} (serving : s.isServing = true)
      (turn : TakesTurn s.now s.sessions s.settle.sessions c c') : Settles s c c'

theorem Settles.sound (h : s.Settles c c') (sound : c.Sound) : c'.Sound := by
  cases h with
  | idle resting => exact sound
  | turn serving turn =>
    cases turn with
    | respond picked => exact Client.sound_respond sound
    | pickUp id waiting new given => exact Client.sound_pickUp sound waiting s.now id

theorem Settles.rests (h : s.Settles c c') (housed : s.Housed) (present : c ∈ s.clients)
    (sound : c.Sound) : c'.Rests := by
  cases h with
  | idle resting => exact .apart (housed.idle resting c present)
  | turn serving turn =>
    cases turn with
    | respond picked => exact Client.rests_respond sound
    | pickUp id waiting new given => exact Client.rests_pickUp sound waiting s.now id

theorem Settles.alike (h : s.Settles c c') (h' : r.Settles d d') (parallel : Parallel s r)
    (alike : c.Alike d) : c'.Alike d' := by
  have same := parallel.isServing
  cases h with
  | idle resting =>
    cases h' with
    | idle _ => exact alike
    | turn serving _ =>
      rw [resting, serving] at same
      cases same
  | turn serving turn =>
    cases h' with
    | idle resting =>
      rw [resting, serving] at same
      cases same
    | turn _ turn' =>
      cases turn with
      | respond picked =>
        cases turn' with
        | respond _ => exact alike.respond
        | pickUp id waiting new given => exact absurd (alike.waiting_iff.mp waiting) picked
      | pickUp id waiting new given =>
        cases turn' with
        | respond picked => exact absurd (alike.waiting_iff.mpr waiting) picked
        | pickUp id' _ _ _ =>
          rw [parallel.now]
          exact alike.pickUp s.now id id'

theorem exists_settles (present : s.clients[i]? = some c) :
    ∃ c', s.settle.clients[i]? = some c' ∧ s.Settles c c' := by
  cases serving : s.isServing with
  | false =>
    rw [settle_of_not_serving serving]
    exact ⟨c, present, .idle serving⟩
  | true =>
    obtain ⟨length, turns⟩ := List.forall₂_iff_get.mp (clients_settle serving)
    obtain ⟨here, rfl⟩ := List.getElem?_eq_some_iff.mp present
    have here' : i < s.settle.clients.length := length ▸ here
    exact ⟨_, List.getElem?_eq_getElem here', .turn serving (turns i here here')⟩

theorem getElem?_elapse (housed : s.Housed) (present : s.clients[i]? = some c) (sound : c.Sound)
    (ms : Nat) : ∃ c', s.Settles c c' ∧
      (s.elapse ms).clients[i]? = some (Client.tick^[ms] c') := by
  obtain ⟨c', settled, settles⟩ := exists_settles present
  have rests := settles.rests housed (List.mem_of_getElem? present) sound
  exact ⟨c', settles, getElem?_elapseWithin settled (settles.sound sound) rests (Nat.le_refl ms)⟩

theorem getElem?_shutdown (present : s.clients[i]? = some c) :
    s.shutdown.1.clients[i]? = some (if s.isServing then c.lastTurn.cutOff else c) := by
  rcases shutdown_cases s with ⟨idle, same⟩ | ⟨serving, same⟩
  · rw [same, idle]
    exact present
  · rw [same, serving]
    simp [present]

/-- What the others ask leaves a client alone. -/
theorem getElem?_perform (other : q.own? i = none) (present : s.clients[i]? = some c) :
    (s.perform q).clients[i]? = some c := by
  cases q with
  | start | serve | shutdown | elapse ms => cases other
  | connect p =>
    rcases connect_cases s p with same | ⟨t, channel, -, -, ⟨-, same⟩ | ⟨-, same⟩⟩ <;>
      simp only [perform, same]
    · exact present
    · exact present
    · exact (List.getElem?_append_left (List.getElem?_eq_some_iff.mp present).1).trans present
  | send j m =>
    have apart : j ≠ i := by simpa [Request.own?] using other
    rcases send_cases s j m with ⟨e, same⟩ | ⟨d, d', -, -, same⟩ <;> simp only [perform, same]
    · exact present
    · exact (List.getElem?_set_ne apart).trans present
  | leave j =>
    have apart : j ≠ i := by simpa [Request.own?] using other
    rcases leave_cases s j with ⟨-, same⟩ | ⟨d, -, same⟩ <;> simp only [perform, same]
    · exact present
    · exact (List.getElem?_set_ne apart).trans present
  | receive j =>
    have apart : j ≠ i := by simpa [Request.own?] using other
    rcases receive_cases s j with same | ⟨d, -, -, same⟩ <;> simp only [perform, same]
    · exact present
    · exact (List.getElem?_set_ne apart).trans present

theorem getElem?_leave (present : s.clients[i]? = some c) :
    (s.leave i).clients[i]? = some c.leave := by
  rcases leave_cases s i with ⟨absent, -⟩ | ⟨d, present', same⟩
  · rw [absent] at present
    cases present
  · cases present'.symm.trans present
    rw [same]
    exact getElem?_set_of_some present _

/-! ### Alone -/

/-- To a client of one server happens the same as to the only client of another. -/
structure Mirrors (i : Nat) (s r : Server) : Prop where
  parallel : Parallel s r
  housed : s.Housed
  housed' : r.Housed
  alone : r.clients.length = 1
  client : ∃ c d, s.clients[i]? = some c ∧ r.clients[0]? = some d ∧ c.Alike d ∧ c.Sound ∧ d.Sound

/-- What is asked of both servers comes to the same for the two clients. -/
theorem Mirrors.both (h : Mirrors i s r) (q q' : Request)
    (parallel : Parallel (s.perform q) (r.perform q'))
    (alone : (r.perform q').clients.length = r.clients.length)
    (client : ∃ c d, (s.perform q).clients[i]? = some c ∧ (r.perform q').clients[0]? = some d ∧
      c.Alike d ∧ c.Sound ∧ d.Sound) : Mirrors i (s.perform q) (r.perform q') :=
  ⟨parallel, housed_perform h.housed q, housed_perform h.housed' q', alone.trans h.alone, client⟩

theorem mirrors_start (h : Mirrors i s r) : Mirrors i s.start.1 r.start.1 := by
  have clients (s : Server) : s.start.1.clients = s.clients := by
    rcases start_cases s with ⟨e, -, same⟩ | ⟨-, same⟩ <;> rw [same]
  refine h.both .start .start h.parallel.start ?_ ?_
  · exact congrArg List.length (clients r)
  · simpa only [perform, clients] using h.client

theorem mirrors_serve (h : Mirrors i s r) : Mirrors i s.serve r.serve := by
  have clients (s : Server) : s.serve.clients = s.clients := by
    simp only [serve]
    split <;> rfl
  refine h.both .serve .serve h.parallel.serve ?_ ?_
  · exact congrArg List.length (clients r)
  · simpa only [perform, clients] using h.client

theorem mirrors_shutdown (h : Mirrors i s r) : Mirrors i s.shutdown.1 r.shutdown.1 := by
  refine h.both .shutdown .shutdown h.parallel.shutdown
    (ages_shutdown r).length_eq.symm ?_
  obtain ⟨c, d, present, present', alike, sound, sound'⟩ := h.client
  refine ⟨_, _, getElem?_shutdown present, getElem?_shutdown present', ?_⟩
  rw [h.parallel.isServing]
  split
  · exact ⟨alike.lastTurn.cutOff, Client.sound_cutOff (Client.sound_lastTurn sound),
      Client.sound_cutOff (Client.sound_lastTurn sound')⟩
  · exact ⟨alike, sound, sound'⟩

theorem length_elapse (s : Server) (ms : Nat) :
    (s.elapse ms).clients.length = s.clients.length := by
  have passed := (ages_elapseWithin s.settle ms ms).length_eq
  rw [elapse, ← passed]
  cases serving : s.isServing with
  | false => rw [settle_of_not_serving serving]
  | true => exact (clients_settle serving).length_eq.symm

theorem mirrors_elapse (h : Mirrors i s r) (ms : Nat) : Mirrors i (s.elapse ms) (r.elapse ms) := by
  refine h.both (.elapse ms) (.elapse ms) (h.parallel.elapse ms) (length_elapse r ms) ?_
  obtain ⟨c, d, present, present', alike, sound, sound'⟩ := h.client
  obtain ⟨c', settles, passes⟩ := getElem?_elapse h.housed present sound ms
  obtain ⟨d', settles', passes'⟩ := getElem?_elapse h.housed' present' sound' ms
  refine ⟨_, _, passes, passes', (settles.alike settles' h.parallel alike).tick_iterate ms, ?_, ?_⟩
  · exact Client.sound_tick_iterate (settles.sound sound) ms
  · exact Client.sound_tick_iterate (settles'.sound sound') ms

theorem mirrors_send (h : Mirrors i s r) (m : Text) :
    Mirrors i (s.send i m).1 (r.send 0 m).1 := by
  refine h.both (.send i m) (.send 0 m) (h.parallel.performOwn rfl rfl)
    (ages_send r 0 m).length_eq.symm ?_
  obtain ⟨c, d, present, present', alike, sound, sound'⟩ := h.client
  rcases alike.send m with ⟨e, fails, fails'⟩ | ⟨c', d', sent, sent', alike'⟩
  · simp only [perform, send, present, present', fails, fails']
    exact ⟨c, d, rfl, rfl, alike, sound, sound'⟩
  · simp only [perform, send, present, present', sent, sent']
    exact ⟨c', d', getElem?_set_of_some present c', getElem?_set_of_some present' d', alike',
      Client.sound_send sound sent, Client.sound_send sound' sent'⟩

theorem mirrors_leave (h : Mirrors i s r) : Mirrors i (s.leave i) (r.leave 0) := by
  refine h.both (.leave i) (.leave 0) (h.parallel.performOwn rfl rfl)
    (ages_leave r 0).length_eq.symm ?_
  obtain ⟨c, d, present, present', alike, sound, sound'⟩ := h.client
  exact ⟨c.leave, d.leave, getElem?_leave present, getElem?_leave present', alike.leave,
    Client.sound_leave sound, Client.sound_leave sound'⟩

/-- Both clients find the same on their links. -/
theorem mirrors_receive (h : Mirrors i s r) :
    Mirrors i (s.receive i).1 (r.receive 0).1 ∧ (r.receive 0).2 = (s.receive i).2 := by
  obtain ⟨c, d, present, present', alike, sound, sound'⟩ := h.client
  have gone : d.talk.gone = c.talk.gone := (congrArg Conversation.gone alike.talk :)
  obtain ⟨same, taken⟩ := alike.takeAll
  have parallel : Parallel (s.perform (.receive i)) (r.perform (.receive 0)) :=
    h.parallel.performOwn rfl rfl
  have length := (ages_receive r 0).length_eq.symm
  refine ⟨h.both (.receive i) (.receive 0) parallel length ?_, ?_⟩
  · cases left : c.talk.gone with
    | true =>
      simp only [perform, receive, present, present', gone, left, if_true]
      exact ⟨c, d, rfl, rfl, alike, sound, sound'⟩
    | false =>
      simp only [perform, receive, present, present', gone, left]
      exact ⟨_, _, getElem?_set_of_some present _, getElem?_set_of_some present' _, taken,
        Client.sound_takeAll sound, Client.sound_takeAll sound'⟩
  · cases left : c.talk.gone with
    | true => simp only [receive, present, present', gone, left, if_true]
    | false =>
      simp only [receive, present, present', gone, left]
      exact Prod.ext same taken.isClosed

theorem mirrors_other (h : Mirrors i s r) (other : q.own? i = none) :
    Mirrors i (s.perform q) r := by
  have own : q.isShared = false := by
    cases q with
    | start | serve | shutdown | elapse ms => cases other
    | connect p | send j m | leave j | receive j => rfl
  obtain ⟨c, d, present, present', same⟩ := h.client
  exact ⟨(parallel_perform own s).symm.trans h.parallel, housed_perform h.housed q, h.housed',
    h.alone, c, d, getElem?_perform other present, present', same⟩

/-- **One request**: what is left of it, if anything is, comes to the same for the client alone, and
    the client finds the same. -/
theorem Mirrors.perform (h : Mirrors i s r) (q : Request) :
    q.own? i = none ∧ s.receipt? i q = none ∧ Mirrors i (s.perform q) r ∨
      ∃ q', q.own? i = some q' ∧ s.receipt? i q = r.receipt? 0 q' ∧
        Mirrors i (s.perform q) (r.perform q') := by
  cases q with
  | start => exact .inr ⟨.start, rfl, rfl, mirrors_start h⟩
  | serve => exact .inr ⟨.serve, rfl, rfl, mirrors_serve h⟩
  | shutdown => exact .inr ⟨.shutdown, rfl, rfl, mirrors_shutdown h⟩
  | elapse ms => exact .inr ⟨.elapse ms, rfl, rfl, mirrors_elapse h ms⟩
  | connect p => exact .inl ⟨rfl, rfl, mirrors_other h rfl⟩
  | send j m =>
    by_cases own : j = i
    · subst own
      exact .inr ⟨.send 0 m, if_pos rfl, rfl, mirrors_send h m⟩
    · exact .inl ⟨if_neg own, rfl, mirrors_other h (if_neg own)⟩
  | leave j =>
    by_cases own : j = i
    · subst own
      exact .inr ⟨.leave 0, if_pos rfl, rfl, mirrors_leave h⟩
    · exact .inl ⟨if_neg own, rfl, mirrors_other h (if_neg own)⟩
  | receive j =>
    by_cases own : j = i
    · subst own
      obtain ⟨after, same⟩ := mirrors_receive h
      refine .inr ⟨.receive 0, if_pos rfl, ?_, after⟩
      simp only [receipt?, if_true, same, h.parallel.now]
    · exact .inl ⟨if_neg own, if_neg own, mirrors_other h (if_neg own)⟩

/-- What is left of some requests if there is nobody but one client. -/
def ownRequests (i : Nat) (requests : List Request) : List Request :=
  requests.filterMap (Request.own? i)

theorem Mirrors.performAll (h : Mirrors i s r) (requests : List Request) :
    s.heard i requests = r.heard 0 (ownRequests i requests) ∧
      Mirrors i (s.performAll requests) (r.performAll (ownRequests i requests)) := by
  induction requests generalizing s r with
  | nil => exact ⟨rfl, h⟩
  | cons q rest ih =>
    simp only [ownRequests, List.filterMap_cons]
    rcases h.perform q with ⟨other, nothing, next⟩ | ⟨q', own, same, next⟩
    · obtain ⟨heard, last⟩ := ih next
      rw [other]
      refine ⟨?_, last⟩
      rw [Server.heard, nothing]
      exact heard
    · obtain ⟨heard, last⟩ := ih next
      rw [own]
      refine ⟨?_, last⟩
      rw [Server.heard, Server.heard, same, heard]
      rfl

/-! ### Connecting -/

theorem length_perform_of_shared (shared : q.isShared = true) (s : Server) :
    (s.perform q).clients.length = s.clients.length := by
  cases q with
  | connect p | send j m | leave j | receive j => cases shared
  | start =>
    rcases start_cases s with ⟨e, -, same⟩ | ⟨-, same⟩ <;> simp only [perform, same]
  | serve =>
    simp only [perform, serve]
    split <;> rfl
  | shutdown => exact (ages_shutdown s).length_eq.symm
  | elapse ms => exact length_elapse s ms

/-- The server goes its way if nobody connects. -/
theorem Parallel.performAll (h : Parallel s r) (requests : List Request) :
    Parallel (s.performAll requests) (r.performAll (requests.filter Request.isShared)) ∧
      (r.performAll (requests.filter Request.isShared)).clients.length = r.clients.length := by
  induction requests generalizing s r with
  | nil => exact ⟨h, rfl⟩
  | cons q rest ih =>
    cases shared : q.isShared with
    | true =>
      rw [List.filter_cons_of_pos shared]
      obtain ⟨parallel, length⟩ := ih (h.perform shared)
      exact ⟨parallel, length.trans (length_perform_of_shared shared r)⟩
    | false =>
      rw [List.filter_cons_of_neg (by simp [shared])]
      exact ih ((parallel_perform shared s).symm.trans h)

theorem alike_opened (peer peer' : Text) (config : Session.Config) (seed : Int) :
    Client.Alike { talk := .opened peer config seed } { talk := .opened peer' config seed } :=
  ⟨rfl, rfl, rfl, rfl⟩

/-- Who connects to the one server can connect to the other, and is the first one there. -/
theorem mirrors_connect (h : Parallel s r) (housed : s.Housed) (housed' : r.Housed)
    (nobody : r.clients = []) (connects : (s.connect p).2 = .ok i) :
    Mirrors i (s.connect p).1 (r.connect p).1 ∧
      ∃ c d : Client, (s.connect p).1.clients[i]? = some c ∧
        (r.connect p).1.clients[0]? = some d ∧
          ∃ (t : Transport) (m n : Nat), c.peer = t.peerName m ∧ d.peer = t.peerName n := by
  have parallel : Parallel (s.perform (.connect p)) (r.perform (.connect p)) :=
    h.performOwn rfl rfl
  have after := housed_perform housed (.connect p)
  have after' := housed_perform housed' (.connect p)
  rcases connect_cases s p with same | ⟨t, channel, present, started, ⟨-, same⟩ | ⟨held, same⟩⟩
  · rw [same] at connects
    cases connects
  · rw [same] at connects
    cases connects
  · obtain ⟨t', present', address, same'⟩ := h.transport present
    have started' : t'.channel = some channel := same'.trans started
    have held' : r.stage.channel? = some channel := h.stage ▸ held
    have same' : r.connect p =
        ({ r with
            transports := r.transports.set p t'.counted
            clients := [{ talk := .opened (t'.peerName t'.clients) r.config r.seed }] },
          .ok 0) := by
      simp [connect, present', started', held', nobody]
    have first : (s.connect p).1.clients[i]? =
        some { talk := .opened (t.peerName t.clients) s.config s.seed } := by
      rw [same] at connects ⊢
      cases connects
      exact List.getElem?_concat_length
    simp only [perform, same'] at parallel after' ⊢
    refine ⟨⟨parallel, after, after', rfl, _, _, first, rfl, ?_, Client.sound_opened _ _ _,
      Client.sound_opened _ _ _⟩, _, _, first, rfl, t, t.clients, t'.clients, rfl, ?_⟩
    · rw [h.config, h.seed]
      exact alike_opened _ _ _ _
    · change t'.peerName t'.clients = t.peerName t'.clients
      simp only [Transport.peerName, address]

/-- **Sessions are isolated.**  A client connects to a server at some moment.  Whatever has been
    asked of the server before, and whatever is asked afterwards, by the client and by others, the
    client finds the same lines on its link at the same times, and finds it closed at the same
    times, as on the server that nobody else ever connects to.  In the end, which may be any
    moment, all is the same about the two but their names and the numbers of their sessions. -/
theorem sessions_are_isolated {s : Server} (new : s.IsNew) (before after : List Request)
    {p i : Nat} (connects : ((s.performAll before).connect p).2 = .ok i) :
    let connected := s.performAll (before ++ [.connect p])
    let alone := s.performAll (before.filter Request.isShared ++ [.connect p])
    connected.heard i after = alone.heard 0 (ownRequests i after) ∧
      (alone.performAll (ownRequests i after)).now = (connected.performAll after).now ∧
      ∃ c d : Client, (connected.performAll after).clients[i]? = some c ∧
        (alone.performAll (ownRequests i after)).clients = [d] ∧ c.Alike d ∧
          ∃ (t : Transport) (m n : Nat), c.peer = t.peerName m ∧ d.peer = t.peerName n := by
  intro connected alone
  have connected_eq : connected = ((s.performAll before).connect p).1 :=
    performAll_append s before [.connect p]
  have alone_eq : alone = ((s.performAll (before.filter Request.isShared)).connect p).1 :=
    performAll_append s (before.filter Request.isShared) [.connect p]
  obtain ⟨parallel, length⟩ := (Parallel.refl s).performAll before
  have nobody : (s.performAll (before.filter Request.isShared)).clients = [] := by
    rw [new.clients] at length
    exact List.length_eq_zero_iff.mp length
  obtain ⟨mirrors, c₀, d₀, present, present', t, m, n, name, name'⟩ :=
    mirrors_connect parallel (housed_performAll new.housed _) (housed_performAll new.housed _)
      nobody connects
  rw [← connected_eq, ← alone_eq] at mirrors
  rw [← connected_eq] at present
  rw [← alone_eq] at present'
  obtain ⟨heard, last⟩ := mirrors.performAll after
  obtain ⟨c, d, there, there', alike, -, -⟩ := last.client
  refine ⟨heard, last.parallel.now, c, d, there, ?_, alike, t, m, n, ?_, ?_⟩
  · obtain ⟨d', only⟩ := List.length_eq_one_iff.mp last.alone
    rw [only] at there' ⊢
    cases there'
    rfl
  · obtain ⟨c', there'', same⟩ := (continues_performAll connected after).names i c₀ present
    cases there''.symm.trans there
    exact same.trans name
  · obtain ⟨d', there'', same⟩ :=
      (continues_performAll alone (ownRequests i after)).names 0 d₀ present'
    cases there''.symm.trans there'
    exact same.trans name'

/-- The client waits for a value while another client, which was there before, leaves, and a third
    one connects. -/
theorem sessions_are_isolated_between_two_others :
    let config : Session.Config := { delay := .ofMillis 2, maxDelay := .ofMillis 9 }
    let s := ofAddresses ["local".toList] config 0
    let before : List Request :=
      [.start, .serve, .connect 0, .send 0 "top:\npush 1\njmp top".toList, .elapse 1]
    let after : List Request :=
      [.send 1 "push 2\nread\nwrite".toList, .elapse 3, .receive 1, .send 0 "5".toList, .leave 0,
        .connect 0, .send 1 "7".toList, .elapse 9, .receive 2, .receive 1]
    s.IsNew ∧ ((s.performAll before).connect 0).2 = .ok 1 ∧
      (s.performAll (before ++ [.connect 0])).heard 1 after =
        [⟨4, ["@s 2".toList, "@p 1".toList, "@i ?stack".toList], false⟩,
          ⟨13, ["@i 7".toList, "@s 2|7".toList, "@p 2".toList, "@s 2".toList, "@o 7".toList,
            "@p 3".toList, "@f".toList], true⟩] := by
  intro config s before after
  have new : s.IsNew := isNew_ofAddresses _ _ _
  have connects : ((s.performAll before).connect 0).2 = .ok 1 := by decide +kernel
  have same := (sessions_are_isolated new before after connects).1
  exact ⟨new, connects, same.trans (by decide +kernel)⟩

end Server

end Stepwise

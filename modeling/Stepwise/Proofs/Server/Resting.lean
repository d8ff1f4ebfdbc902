/-
  Stepwise/Proofs/Server/Resting.lean
  ===================================
  **A session that has had its turn rests until a timer of its own.**

  At one moment a session settles: nothing is due any more, or it is held up.  Where the limit of
  steps is a number, that is so because what lies before the session can be counted
  (`Conversation.pending`).  Where it is none, it is so because the link has only so much room:
  every step and every answered read tells something (`Reacts.rank_lt`), and a session that has
  filled its link is held up.

  What rests goes on resting while its timers are silent.  Hence it makes no difference to a client
  whether milliseconds pass one by one or many at once, and a server may pass over those in which
  nothing happens to any of its clients (`getElem?_elapseWithin`).
-/
import Mathlib.Logic.Function.Iterate
import Stepwise.Proofs.Server.Clients
import Stepwise.Proofs.Session.Naming
import Stepwise.Proofs.Session.Telling

namespace Stepwise

namespace Server

namespace Outbox

/-- What is put onto a link finds room, or fills it. -/
theorem put_cases (onLink : List Event) (room : Nat) (events : List Event) :
    (put onLink room events).heldBack = [] ∧
        (put onLink room events).room + events.length = room ∨
      (put onLink room events).heldBack ≠ [] ∧ (put onLink room events).room = 0 := by
  induction events generalizing onLink room with
  | nil => exact .inl ⟨by cases room <;> rfl, by cases room <;> rfl⟩
  | cons event rest ih =>
    cases room with
    | zero => exact .inr ⟨by simp [put], rfl⟩
    | succ room =>
      rw [put, List.length_cons]
      rcases ih (event :: onLink) room with ⟨empty, fits⟩ | full
      · exact .inl ⟨empty, by omega⟩
      · exact .inr full

theorem room_put_le (onLink : List Event) (room : Nat) (events : List Event) :
    (put onLink room events).room ≤ room := by
  rcases put_cases onLink room events with ⟨-, fits⟩ | ⟨-, full⟩ <;> omega

theorem room_of_isBlocked_put {onLink : List Event} {room : Nat} {events : List Event}
    (blocked : (put onLink room events).isBlocked = true) : (put onLink room events).room = 0 := by
  rcases put_cases onLink room events with ⟨empty, -⟩ | ⟨-, full⟩
  · rw [isBlocked, empty] at blocked
    cases blocked
  · exact full

theorem fill_of_full {o : Outbox} (blocked : o.isBlocked = true) (full : o.room = 0) :
    o.fill = o := by
  obtain ⟨onLink, room, heldBack⟩ := o
  obtain rfl : room = 0 := full
  cases heldBack with
  | nil => cases blocked
  | cons event rest => simp [fill, tell, put]

end Outbox

namespace Client

open Conversation (linkCapacity)

variable {c c' : Client} {cue : Session.Cue} {fuel limit ms n now id : Nat} {m : Text}

/-! ### Sound clients -/

/-- What is true of a client whatever has happened. -/
structure Sound (c : Client) : Prop where
  room : c.outbox.room ≤ Outbox.capacity
  inbox : c.talk.inbox.length ≤ linkCapacity
  steady : ∀ limit, c.talk.session.config.limits.maxSteps = some limit → c.talk.Steady limit
  /-- Its conversation begins when the link is picked up. -/
  begins : c.attention = .waiting → c.talk.now = 0

/-- What is done to the conversation is a move, whatever becomes of the name and of what has been
    received and logged. -/
theorem Sound.move (h : c.Sound) (mv : Conversation.Move)
    (talk : c'.talk.nameless = (c.talk.move mv).nameless)
    (settings : c'.talk.session.config = c.talk.session.config)
    (room : c'.outbox.room ≤ Outbox.capacity) (inbox : c'.talk.inbox.length ≤ linkCapacity)
    (begins : c'.attention = .waiting → c'.talk.now = 0) : c'.Sound where
  room := room
  inbox := inbox
  steady limit bound := by
    have steady := (h.steady limit (settings ▸ bound)).reaches (.move c.talk mv)
    exact steady.of_nameless talk
  begins := begins

theorem Sound.sameTalk (h : c.Sound) (talk : c'.talk = c.talk)
    (room : c'.outbox.room ≤ Outbox.capacity)
    (begins : c'.attention = .waiting → c.attention = .waiting) : c'.Sound where
  room := room
  inbox := talk ▸ h.inbox
  steady := talk ▸ h.steady
  begins waiting := talk ▸ h.begins (begins waiting)

theorem sound_opened (peer : Text) (config : Session.Config) (seed : Int) :
    Sound { talk := .opened peer config seed } where
  room := Nat.le_refl _
  inbox := Nat.zero_le _
  steady _ bound := Conversation.steady_opened peer config seed bound
  begins _ := rfl

theorem config_goOn (c : Client) : c.goOn.talk.session.config = c.talk.session.config := by
  rcases goOn_cases c with same | ⟨-, -, same⟩
  · rw [same]
  · rw [same]
    exact (Session.sameButWhen_restarted c.talk.session c.talk.instant).config

theorem sound_goOn (h : c.Sound) : c.goOn.Sound := by
  have settings := config_goOn c
  have room : c.outbox.fill.room ≤ Outbox.capacity :=
    Nat.le_trans (Outbox.room_put_le _ _ _) h.room
  rcases goOn_cases c with same | ⟨-, -, same⟩
  · rw [same]
    exact h.sameTalk rfl room id
  · rw [same] at settings ⊢
    exact h.move .resume rfl settings room h.inbox h.begins

theorem sound_follow (h : c.Sound) (due : c.talk.cue? = some cue) : (c.follow cue).Sound := by
  have move : c.talk.move .respond = c.talk.follow cue := Conversation.move_respond due
  have inbox := Conversation.length_inbox_follow_le c.talk cue
  refine h.move .respond (move ▸ rfl) (Session.reacts_of_cue due).settings.config ?_
    (Nat.le_trans inbox h.inbox) h.begins
  exact Nat.le_trans (Outbox.room_put_le _ _ _) h.room

theorem sound_settle (h : c.Sound) : c.settle.Sound :=
  settleWithin_induction (fun _ _ _ due h => sound_follow h due) (sound_goOn h) _

theorem sound_respond (h : c.Sound) : c.respond.Sound := by
  unfold respond
  split
  · exact sound_settle h
  · exact h

/-- A link is picked up as if the conversation had begun with the clock. -/
theorem sound_served (h : c.Sound) (waiting : c.attention = .waiting) (now id : Nat) :
    Sound { c with attention := .served id, talk := { c.talk with now } } := by
  have begun : c.talk.skip now = { c.talk with now } := by
    rw [Conversation.skip, h.begins waiting, Nat.zero_add]
  refine h.move (.pass now) ?_ rfl h.room h.inbox (fun waiting => by cases waiting)
  exact congrArg Conversation.nameless begun.symm

theorem sound_pickUp (h : c.Sound) (waiting : c.attention = .waiting) (now id : Nat) :
    (c.pickUp now id).Sound := sound_settle (sound_served h waiting now id)

theorem sound_cutOff (h : c.Sound) : c.cutOff.Sound :=
  h.sameTalk rfl h.room fun waiting => by cases waiting

theorem sound_lastTurn (h : c.Sound) : c.lastTurn.Sound := by
  unfold lastTurn
  split
  · exact sound_respond (h.sameTalk rfl (Nat.le_trans (Nat.min_le_left _ _) h.room) id)
  · exact h

theorem sound_skip (h : c.Sound) (ms : Nat) : (c.skip ms).Sound := by
  unfold skip
  split
  · rename_i active
    refine h.move (.pass ms) rfl rfl h.room h.inbox fun waiting => ?_
    have waiting : c.attention = .waiting := waiting
    simp [isActive, waiting] at active
  · exact h

theorem sound_tick (h : c.Sound) : c.tick.Sound := sound_respond (sound_skip h 1)

theorem sound_tick_iterate (h : c.Sound) (n : Nat) : (tick^[n] c).Sound := by
  induction n with
  | zero => exact h
  | succ n ih =>
    rw [Function.iterate_succ_apply']
    exact sound_tick ih

theorem sound_takeAll (h : c.Sound) : c.takeAll.2.Sound := h.sameTalk rfl (Nat.le_refl _) id

theorem sound_leave (h : c.Sound) : c.leave.Sound := by
  have left : Sound { c with talk := c.talk.leaveAfter 0 } :=
    h.move (.leave 0) rfl rfl h.room h.inbox h.begins
  simp only [leave]
  split
  · exact sound_cutOff left
  · exact sound_respond left

theorem sound_send (h : c.Sound) (sent : c.send m = .ok c') : c'.Sound := by
  obtain ⟨-, -, rfl⟩ := send_cases sent
  have session := post_session c.talk m
  have now : (c.talk.post m).1.now = c.talk.now := by
    rcases Conversation.History.post_cases c.talk m with ⟨same, -⟩ | posted
    · rw [same]
    · rw [posted]
  refine sound_respond (h.move (.post m) rfl (congrArg Session.config session) h.room ?_ ?_)
  · exact Conversation.length_inbox_post_le c.talk m h.inbox
  · exact fun waiting => now.trans (h.begins waiting)

/-! ### Settling -/

theorem settleWithin_of_held (held : c.isHeldUp = true) (fuel : Nat) : settleWithin fuel c = c := by
  cases fuel with
  | zero => rfl
  | succ fuel => rw [settleWithin, if_pos held]

theorem steady_follow (steady : c.talk.Steady limit) (due : c.talk.cue? = some cue) :
    (c.follow cue).talk.Steady limit := by
  have next : (c.talk.follow cue).Steady limit := steady.reaches (.follow due)
  exact next.of_nameless rfl

/-- Settling ends if every response that does not get the session held up counts. -/
theorem settled_settleWithin {P : Client → Prop} {f : Client → Nat}
    (follow : ∀ c cue, P c → c.isHeldUp = false → c.talk.cue? = some cue →
      P (c.follow cue) ∧ ((c.follow cue).isHeldUp = true ∨ f (c.follow cue) < f c))
    (start : P c) (enough : f c < fuel) :
    (settleWithin fuel c).isHeldUp = true ∨ (settleWithin fuel c).talk.cue? = none := by
  induction fuel generalizing c with
  | zero => cases enough
  | succ fuel ih =>
    rw [settleWithin]
    by_cases held : c.isHeldUp = true
    · rw [if_pos held]
      exact .inl held
    · rw [if_neg held]
      cases due : c.talk.cue? with
      | none => exact .inr due
      | some cue =>
        obtain ⟨next, held' | less⟩ := follow c cue start (by simpa using held) due
        · change (settleWithin fuel (c.follow cue)).isHeldUp = true ∨ _
          rw [settleWithin_of_held held']
          exact .inl held'
        · exact ih next (Nat.lt_of_lt_of_le less (Nat.le_of_lt_succ enough))

/-- A number of responses that a session comes to before its link is full or nothing is due. -/
def weight (c : Client) : Nat :=
  3 * c.outbox.room + c.talk.session.phase.rank + c.talk.inbox.length

theorem weight_follow (free : c.isHeldUp = false) (due : c.talk.cue? = some cue) :
    (c.follow cue).isHeldUp = true ∨ (c.follow cue).weight < c.weight := by
  have empty : c.outbox.heldBack = [] := by simpa [isHeldUp, Outbox.isBlocked] using free
  let told := (c.talk.session.respond c.talk.instant c.talk.takes cue).told
  let events := (c.talk.follow cue).received.reverse.map (·.2)
  have handed : told.length ≤ events.length := by
    simp [told, events]
  have outbox : (c.follow cue).outbox = Outbox.put c.outbox.onLink c.outbox.room events := by
    change Outbox.put c.outbox.onLink c.outbox.room (c.outbox.heldBack ++ events) = _
    rw [empty, List.nil_append]
  rcases Outbox.put_cases c.outbox.onLink c.outbox.room events with ⟨-, fits⟩ | ⟨full, -⟩
  · right
    rw [← outbox] at fits
    have rank := (Session.reacts_of_cue due).rank_lt
    simp only [weight]
    rcases rank with less | ⟨⟨m, rfl⟩, le⟩
    · change (c.follow cue).talk.session.phase.rank < _ + 3 * told.length at less
      have kept : (c.follow cue).talk.inbox.length ≤ c.talk.inbox.length :=
        Conversation.length_inbox_follow_le c.talk cue
      omega
    · change (c.follow (.message m)).talk.session.phase.rank ≤ _ + 3 * told.length at le
      have taken : (c.follow (.message m)).talk.inbox.length < c.talk.inbox.length :=
        Conversation.length_inbox_follow_lt due
      omega
  · left
    rw [isHeldUp, outbox]
    exact Outbox.isBlocked_iff.mpr full

theorem rank_restarted (s : Session) (now : Nat) : (s.restarted now).phase.rank = s.phase.rank := by
  cases phase : s.phase <;> simp [Session.restarted, phase, Session.Phase.rank]

theorem pending_goOn (c : Client) : c.goOn.talk.pending limit = c.talk.pending limit := by
  rcases goOn_cases c with same | ⟨-, -, same⟩
  · rw [same]
  · rw [same]
    exact congrArg (· + c.talk.inbox.length) (Session.duties_restarted _ _)

theorem weight_goOn_le (c : Client) : c.goOn.weight ≤ c.weight := by
  have room : c.outbox.fill.room ≤ c.outbox.room := Outbox.room_put_le _ _ _
  rcases goOn_cases c with same | ⟨-, -, same⟩
  · rw [same]
    simp only [weight]
    omega
  · have rank := rank_restarted c.talk.session c.talk.instant
    rw [same]
    simp only [weight, Conversation.resumed]
    omega

/-- **Settling ends**: afterwards the session is held up, or nothing is due. -/
theorem settled_settle (h : c.Sound) :
    c.settle.isHeldUp = true ∨ c.settle.talk.cue? = none := by
  -- only with a limit can the steps of a run be counted; without one the room on the link is
  cases bound : c.talk.session.config.limits.maxSteps with
  | some limit =>
    have patience : c.talk.patience = 3 * (limit + 2) + c.talk.inbox.length + 2 := by
      simp only [Conversation.patience, bound]
    have steady : c.goOn.talk.Steady limit :=
      (sound_goOn h).steady limit ((config_goOn c).symm ▸ bound)
    refine settled_settleWithin (P := fun d => d.talk.Steady limit)
      (f := fun d => d.talk.pending limit) ?_ steady ?_
    · intro d cue steady free due
      exact ⟨steady_follow steady due,
        .inr (Conversation.pending_follow (fun _ => steady.regular) due)⟩
    · have duties := Conversation.duties_le limit c.talk.session.phase
      rw [pending_goOn, Conversation.pending, patience]
      omega
  | none =>
    have patience : c.talk.patience = Conversation.unlimitedPatience := by
      simp only [Conversation.patience, bound]
    refine settled_settleWithin (P := fun _ => True) (f := weight)
      (fun d cue _ free due => ⟨trivial, weight_follow free due⟩) trivial ?_
    have weight := weight_goOn_le c
    have rank := Session.rank_le_two c.talk.session.phase
    have room : c.outbox.room ≤ 1024 := h.room
    have inbox : c.talk.inbox.length ≤ 64 := h.inbox
    have light : c.weight ≤ 3 * 1024 + 2 + 64 := by
      simp only [Client.weight]
      omega
    rw [patience]
    exact Nat.lt_of_le_of_lt (Nat.le_trans weight light) (by decide)

theorem room_of_held (held : c.settle.isHeldUp = true) : c.settle.outbox.room = 0 := by
  refine settleWithin_induction (P := fun d => d.isHeldUp = true → d.outbox.room = 0) ?_ ?_ _ held
  · intro d cue free due _ held
    exact Outbox.room_of_isBlocked_put held
  · rcases goOn_cases c with same | ⟨-, -, same⟩
    · rw [same]
      exact Outbox.room_of_isBlocked_put
    · rw [same]
      exact Outbox.room_of_isBlocked_put

/-! ### Rest -/

/-- Nothing happens to the client by itself, except when a timer fires. -/
inductive Rests (c : Client) : Prop where
  /-- It has no session. -/
  | apart (none : c.number? = none)
  | heldUp (held : c.isHeldUp = true) (full : c.outbox.room = 0)
  | quiet (free : c.isHeldUp = false) (rests : c.talk.cue? = none)

theorem rests_settle (h : c.Sound) : c.settle.Rests := by
  cases held : c.settle.isHeldUp with
  | true => exact .heldUp held (room_of_held held)
  | false =>
    rcases settled_settle h with held' | rests
    · rw [held] at held'
      cases held'
    · exact .quiet held rests

theorem respond_cases (c : Client) :
    c.number? = none ∧ c.respond = c ∨ (∃ id, c.number? = some id) ∧ c.respond = c.settle := by
  cases attention : c.attention <;> simp [number?, respond, attention]

theorem rests_respond (h : c.Sound) : c.respond.Rests := by
  rcases respond_cases c with ⟨none, same⟩ | ⟨-, same⟩
  · rw [same]
    exact .apart none
  · rw [same]
    exact rests_settle h

theorem rests_pickUp (h : c.Sound) (waiting : c.attention = .waiting) (now id : Nat) :
    (c.pickUp now id).Rests := rests_settle (sound_served h waiting now id)

theorem rests_tick (h : c.Sound) : c.tick.Rests := rests_respond (sound_skip h 1)

/-- A client that rests does not respond. -/
theorem respond_of_rests (rests : c.Rests) : c.respond = c := by
  rcases respond_cases c with ⟨-, same⟩ | ⟨⟨id, number⟩, same⟩
  · exact same
  · rw [same]
    cases rests with
    | apart none =>
      rw [none] at number
      cases number
    | heldUp held full =>
      have goOn : c.goOn = c := by
        simp only [goOn, Outbox.fill_of_full held full]
        rw [if_neg (by simp [isHeldUp])]
      rw [settle, goOn, settleWithin_of_held held]
    | quiet free none =>
      rw [settle, goOn_of_free free]
      cases c.talk.patience with
      | zero => rfl
      | succ fuel => rw [settleWithin, if_neg (by simp [free]), none]

theorem rests_skip (rests : c.Rests) (quiet : n ≤ c.quiet ms) : (c.skip n).Rests := by
  unfold skip
  split
  · rename_i active
    cases rests with
    | apart none => exact .apart none
    | heldUp held full => exact .heldUp held full
    | quiet free none =>
      rw [Client.quiet, if_pos (by simp [active, free])] at quiet
      exact .quiet free (Conversation.cue?_skip none quiet)
  · exact rests

theorem skip_skip (c : Client) (m n : Nat) : (c.skip m).skip n = c.skip (m + n) := by
  cases active : c.isActive with
  | false => simp [skip, active]
  | true =>
    have still : ({ c with talk := c.talk.skip m } : Client).isActive = true := active
    have first : c.skip m = { c with talk := c.talk.skip m } := if_pos active
    have both : c.skip (m + n) = { c with talk := c.talk.skip (m + n) } := if_pos active
    rw [first, both, skip, if_pos still]
    simp only [Conversation.skip, Nat.add_assoc]

/-- While nothing happens by itself, it makes no difference whether milliseconds pass one by one. -/
theorem tick_iterate_of_rests (rests : c.Rests) (quiet : n ≤ c.quiet ms) :
    tick^[n] c = c.skip n := by
  induction n with
  | zero =>
    rw [Function.iterate_zero, id_eq, skip]
    split <;> rfl
  | succ n ih =>
    have still := rests_skip rests quiet
    rw [Function.iterate_succ_apply', ih (Nat.le_of_succ_le quiet), tick, skip_skip]
    exact respond_of_rests still

end Client

/-! ### Time -/

variable {s : Server} {c : Client} {i ms turns : Nat}

theorem quiet_le (s : Server) (ms : Nat) :
    s.quiet ms ≤ ms ∧ ∀ c ∈ s.clients, s.quiet ms ≤ c.quiet ms := by
  suffices least : ∀ (clients : List Client) (n : Nat),
      clients.foldl (fun n c => min n (c.quiet ms)) n ≤ n ∧
        ∀ c ∈ clients, clients.foldl (fun n c => min n (c.quiet ms)) n ≤ c.quiet ms from
    least s.clients ms
  intro clients
  induction clients with
  | nil => exact fun n => ⟨Nat.le_refl _, fun _ none => by cases none⟩
  | cons first rest ih =>
    intro n
    obtain ⟨le, all⟩ := ih (min n (first.quiet ms))
    refine ⟨Nat.le_trans le (Nat.min_le_left _ _), fun c present => ?_⟩
    rcases List.mem_cons.mp present with rfl | present
    · exact Nat.le_trans le (Nat.min_le_right _ _)
    · exact all c present

theorem now_elapseWithin (enough : ms ≤ turns) :
    (elapseWithin turns ms s).now = s.now + ms := by
  induction turns generalizing ms s with
  | zero =>
    obtain rfl := Nat.le_zero.mp enough
    rfl
  | succ turns ih =>
    cases ms with
    | zero => rfl
    | succ ms =>
      have within := (quiet_le s ms).1
      have fewer : ms - s.quiet ms ≤ turns :=
        Nat.le_trans (Nat.sub_le _ _) (Nat.le_of_succ_le_succ enough)
      rw [elapseWithin, ih fewer]
      change s.now + s.quiet ms + 1 + (ms - s.quiet ms) = s.now + (ms + 1)
      omega

/-- **The others make no difference to how time passes for a client.** -/
theorem getElem?_elapseWithin (present : s.clients[i]? = some c) (sound : c.Sound)
    (rests : c.Rests) (enough : ms ≤ turns) :
    (elapseWithin turns ms s).clients[i]? = some (Client.tick^[ms] c) := by
  induction turns generalizing ms s c with
  | zero =>
    obtain rfl := Nat.le_zero.mp enough
    exact present
  | succ turns ih =>
    cases ms with
    | zero => exact present
    | succ ms =>
      obtain ⟨within, all⟩ := quiet_le s ms
      have quiet := all c (List.mem_of_getElem? present)
      rw [elapseWithin]
      generalize s.quiet ms = q at within quiet ⊢
      -- nothing happens in the milliseconds that are passed over, so they are ticks like any other
      have passed : (c.skip q).tick = Client.tick^[q + 1] c := by
        rw [Function.iterate_succ_apply', Client.tick_iterate_of_rests rests quiet]
      have turn : (s.skip q).tick.clients[i]? = some (c.skip q).tick := by
        simp [tick, skip, prune, present]
      have sound' := Client.sound_skip sound q
      have fewer : ms - q ≤ turns := Nat.le_trans (Nat.sub_le _ _) (Nat.le_of_succ_le_succ enough)
      rw [ih turn (Client.sound_tick sound') (Client.rests_tick sound') fewer, passed,
        ← Function.iterate_add_apply]
      congr 2
      omega

end Server

end Stepwise

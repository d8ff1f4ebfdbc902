/-
  Stepwise/Proofs/Machine/Mirror.lean
  ===================================
  **Whoever applies every delta in turn knows the state of the machine.**

  A mirror starts from the first state, as the machine does, and is told nothing but
  deltas.  Whatever the machine is asked to do, in any order, the mirror has its bank, its
  stack and its pointer after every call that succeeds (`mirror_follows`).  It has the
  waiting flag too, and so all but the counter, as long as nobody seeds a machine that
  waits: a seed is told like an answered read, and the mirror takes it for one.
-/
import Stepwise.Proofs.Machine.Record

namespace Stepwise

namespace Machine

/-! ### Calls in a row -/

/-- What a machine can be asked to do. -/
inductive Call where
  | step
  | resume (v : Int)
  | seed (v : Int)
deriving DecidableEq, Repr

def call (m : Machine) (s : State) : Call → Except Fault Transition
  | .step => m.step s
  | .resume v => m.resume s v
  | .seed v => m.seed s v

/-- Calls made one after the other, with the transition of each, if all of them succeed. -/
def callAll (m : Machine) : State → List Call → Except Fault (List Transition)
  | _, [] => .ok []
  | s, c :: rest => do
    let t ← m.call s c
    let ts ← m.callAll t.state rest
    return t :: ts

def State.after (s : State) (ts : List Transition) : State := ts.foldl (fun _ t => t.state) s

/-- The state as one knows it who applies the deltas of transitions. -/
def State.mirrored (s : State) (ts : List Transition) : State :=
  ts.foldl (fun mirror t => mirror.apply t.delta) s

variable {m : Machine} {s mirror : State} {t : Transition} {c : Call} {calls : List Call}
  {ts : List Transition}

theorem callAll_cons (h : m.callAll s (c :: calls) = .ok ts) :
    ∃ t rest, m.call s c = .ok t ∧ m.callAll t.state calls = .ok rest ∧ ts = t :: rest := by
  simp only [callAll, bind_succeeds_iff, pure_succeeds_iff] at h
  obtain ⟨t, ht, rest, hrest, rfl⟩ := h
  exact ⟨t, rest, ht, hrest, rfl⟩

theorem waitsAtRead_of_call (hs : m.WaitsAtRead s) (h : m.call s c = .ok t) :
    m.WaitsAtRead t.state := by
  cases c with
  | step => exact waitsAtRead_of_step hs h
  | resume v => exact waitsAtRead_of_resume h
  | seed v => exact waitsAtRead_of_seed hs h

/-! ### What the mirror has in common with the machine -/

structure Agrees (mirror s : State) : Prop where
  bank : mirror.bank = s.bank
  stack : mirror.stack = s.stack
  pointer : mirror.pointer = s.pointer

theorem Agrees.refl (s : State) : Agrees s s := ⟨rfl, rfl, rfl⟩

theorem Agrees.trans {s' : State} (h : Agrees mirror s) (h' : Agrees s s') : Agrees mirror s' :=
  ⟨h.bank.trans h'.bank, h.stack.trans h'.stack, h.pointer.trans h'.pointer⟩

theorem Agrees.apply (h : Agrees mirror s) (d : Delta) :
    Agrees (mirror.apply d) (s.apply d) where
  bank := by simp only [State.apply, h.bank]
  stack := by simp only [State.apply, h.stack]
  pointer := by simp only [State.apply, h.pointer]

/-- The delta of a call leads from the state before it to one that agrees with the state
    behind it. -/
theorem agrees_of_call (hs : m.WaitsAtRead s) (h : m.call s c = .ok t) :
    Agrees (s.apply t.delta) t.state := by
  cases c with
  | step =>
    have hr := records_of_step hs h
    exact ⟨hr.bank, hr.stack, hr.pointer⟩
  | resume v =>
    have hr := records_of_resume h
    exact ⟨hr.bank, hr.stack, hr.pointer⟩
  | seed v =>
    obtain ⟨hb, hk, hp, -⟩ := records_of_seed h
    exact ⟨hb, hk, hp⟩

/-- The waiting flag is told, unless a machine that waits is seeded. -/
theorem awaiting_of_call (hs : m.WaitsAtRead s) (h : m.call s c = .ok t)
    (hc : ∀ v, c = .seed v → s.awaiting = false) :
    (s.apply t.delta).awaiting = t.state.awaiting := by
  cases c with
  | step => exact (records_of_step hs h).awaiting
  | resume v => exact (records_of_resume h).awaiting
  | seed v =>
    obtain ⟨-, -, -, hr⟩ := records_of_seed h
    exact (hr (hc v rfl)).awaiting

/-! ### Runs -/

theorem agrees_of_callAll (hs : m.WaitsAtRead s) (ha : Agrees mirror s)
    (h : m.callAll s calls = .ok ts) (n : Nat) :
    Agrees (mirror.mirrored (ts.take n)) (s.after (ts.take n)) := by
  induction calls generalizing s mirror ts n with
  | nil =>
    cases h
    simpa [State.mirrored, State.after] using ha
  | cons c calls ih =>
    obtain ⟨t, rest, ht, hrest, rfl⟩ := callAll_cons h
    cases n with
    | zero => exact ha
    | succ n =>
      have ha' : Agrees (mirror.apply t.delta) t.state :=
        (ha.apply t.delta).trans (agrees_of_call hs ht)
      exact ih (waitsAtRead_of_call hs ht) ha' hrest n

theorem awaiting_of_callAll (hs : m.WaitsAtRead s) (hw : mirror.awaiting = s.awaiting)
    (h : m.callAll s calls = .ok ts) (n : Nat)
    (hseed : ∀ k < n, ∀ v, calls[k]? = some (.seed v) →
      (s.after (ts.take k)).awaiting = false) :
    (mirror.mirrored (ts.take n)).awaiting = (s.after (ts.take n)).awaiting := by
  induction calls generalizing s mirror ts n with
  | nil =>
    cases h
    simpa [State.mirrored, State.after] using hw
  | cons c calls ih =>
    obtain ⟨t, rest, ht, hrest, rfl⟩ := callAll_cons h
    cases n with
    | zero => exact hw
    | succ n =>
      have hc : ∀ v, c = .seed v → s.awaiting = false := by
        rintro v rfl
        exact hseed 0 (Nat.succ_pos n) v rfl
      have hw' : (mirror.apply t.delta).awaiting = t.state.awaiting := by
        rw [← awaiting_of_call hs ht hc]
        simp only [State.apply, hw]
      refine ih (waitsAtRead_of_call hs ht) hw' hrest n ?_
      intro k hk v hv
      exact hseed (k + 1) (Nat.succ_lt_succ hk) v hv

theorem steps_mirrored (s : State) (ts : List Transition) : (s.mirrored ts).steps = s.steps := by
  induction ts generalizing s with
  | nil => rfl
  | cons t ts ih => exact ih (s.apply t.delta)

/-- **Deltas tell the whole state but for the counter.**  After every number of calls that
    succeed, the mirror has the bank, the stack and the pointer of the machine; and as long
    as no machine that waits has been seeded, it is the state of the machine with the
    counter at zero. -/
theorem mirror_follows (m : Machine) (calls : List Call) (ts : List Transition)
    (h : m.callAll {} calls = .ok ts) (n : Nat) :
    let state := State.after {} (ts.take n)
    let mirror := State.mirrored {} (ts.take n)
    (mirror.bank = state.bank ∧ mirror.stack = state.stack ∧ mirror.pointer = state.pointer) ∧
      ((∀ k < n, ∀ v, calls[k]? = some (.seed v) →
          (State.after {} (ts.take k)).awaiting = false) →
        mirror = { state with steps := 0 }) := by
  intro state mirror
  have ha : Agrees mirror state := agrees_of_callAll (waitsAtRead_start m) (Agrees.refl _) h n
  refine ⟨⟨ha.bank, ha.stack, ha.pointer⟩, fun hseed => ?_⟩
  have hw : mirror.awaiting = state.awaiting :=
    awaiting_of_callAll (waitsAtRead_start m) rfl h n hseed
  have hsteps : mirror.steps = 0 := steps_mirrored {} (ts.take n)
  calc mirror = ⟨mirror.bank, mirror.stack, mirror.pointer, mirror.steps, mirror.awaiting⟩ := rfl
    _ = { state with steps := 0 } := by rw [ha.bank, ha.stack, ha.pointer, hw, hsteps]

/-- A run that is seeded, reads a value into the bank and puts a sum out. -/
theorem mirror_follows_seeded_read :
    let m : Machine :=
      { program :=
          { instructions :=
              [.read (.reg ⟨0⟩), .popInto ⟨1⟩, .arithReg .add ⟨0⟩ (.reg ⟨1⟩),
                .writeValue (.reg ⟨0⟩)] } }
    let calls : List Call := [.seed 7, .step, .resume 35, .step, .step, .step, .step]
    ∃ ts, m.callAll {} calls = .ok ts ∧
      State.mirrored {} (ts.take 7) = { State.after {} (ts.take 7) with steps := 0 } ∧
      State.mirrored {} (ts.take 7) = { bank := { a := 42, b := 7 }, pointer := .halted } := by
  intro m calls
  refine ⟨_, rfl, (mirror_follows m calls _ rfl 7).2 ?_, rfl⟩
  intro k hk v hv
  -- the only seed comes first
  rcases k with _ | _ | _ | _ | _ | _ | _ | k
  · rfl
  all_goals cases hv

/-- Seeded while it waits, the machine waits on, but the mirror does not. -/
example :
    let m : Machine := { program := { instructions := [.read .stack] } }
    (m.callAll {} [.step, .seed 7]).toOption.map
        (fun ts => ((State.after {} ts).awaiting, (State.mirrored {} ts).awaiting)) =
      some (true, false) := rfl

end Machine

end Stepwise

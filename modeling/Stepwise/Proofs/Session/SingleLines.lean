/-
  Stepwise/Proofs/Session/SingleLines.lean
  ========================================
  **A session tells each event in a line of its own.**

  Whatever a client sends, no line that its session tells holds a line feed: only the
  message about a refused source repeats what was sent, and that repeats single lines
  (`unbroken_of_reacts`).  So where lines are printed one below the other, as the command
  does that runs a program, none of them can be taken for two (`splitOn_unlines`), and a
  source or an input cannot have a line of its own making shown.
-/
import Stepwise.Cli.Run
import Stepwise.Proofs.Assembly.Echoes
import Stepwise.Proofs.Session.Accounting

namespace Stepwise

/-- Lines that are printed one below the other are read back as they are. -/
theorem Cli.splitOn_unlines {lines : List Text} (h : ∀ line ∈ lines, '\n' ∉ line) :
    (unlines lines).splitOn '\n' = lines ++ [[]] := by
  induction lines with
  | nil => rfl
  | cons line lines ih =>
    obtain ⟨first, rest⟩ := List.forall_mem_cons.mp h
    rw [unlines, List.flatMap_cons, List.append_assoc, List.singleton_append,
      List.splitOn_append_cons_self_of_not_mem first, ← unlines, ih rest, List.cons_append]

/-- Nothing that a delta tells repeats a source. -/
theorem Event.echoes_of_mem_ofDelta {d : Machine.Delta} {e : Event} (he : e ∈ ofDelta d) :
    e.echoes = [] := by
  obtain ⟨front, quiet, eq⟩ := ofDelta_eq d
  rw [eq] at he
  rcases List.mem_append.mp he with he | he
  · have other := quiet e he
    cases e with
    | refused e => cases other
    | _ => rfl
  · split at he
    · rcases List.mem_singleton.mp he with rfl
      rfl
    · cases he

namespace Session

variable {s s' : Session} {now : Instant} {takes : Takes} {cue : Cue} {told : List Event}
  {last : Event} {result : Except Fault Machine.Transition} {next : Machine.State → Session}

theorem unbroken_of_mem_ofDelta {d : Machine.Delta} {e : Event} (he : e ∈ Event.ofDelta d) :
    '\n' ∉ e.line := by
  apply Event.unbroken_line
  rw [Event.echoes_of_mem_ofDelta he]
  simp

theorem unbroken_of_concludes (h : Concludes s takes last s' told) (unbroken : '\n' ∉ last.line) :
    ∀ e ∈ told, '\n' ∉ e.line := by
  cases h with
  | said stays => exact List.forall_mem_singleton.mpr unbroken
  | lost left => simp

theorem unbroken_of_failed (f : Fault) : '\n' ∉ (Event.failed f).line :=
  Event.unbroken_line (by simp [Event.echoes])

theorem unbroken_of_delivers (h : Delivers s takes result next s' told) :
    ∀ e ∈ told, '\n' ∉ e.line := by
  cases h with
  | told t ok => exact fun e he => unbroken_of_mem_ofDelta he
  | cut t n ok left short => exact fun e he => unbroken_of_mem_ofDelta (List.mem_of_mem_take he)
  | failed f error concludes => exact unbroken_of_concludes concludes (unbroken_of_failed f)

/-- **A response tells single lines**, whatever the cue is. -/
theorem unbroken_of_reacts (h : Reacts s now takes cue s' told) : ∀ e ∈ told, '\n' ∉ e.line := by
  cases h with
  | directive | hangup | started | wake | kept | dropped => simp
  | refused m e idle text refuses concludes =>
    exact unbroken_of_concludes concludes (Event.unbroken_line (unbroken_of_decode refuses))
  | inputTimeout run since awaiting empty late concludes =>
    exact unbroken_of_concludes concludes (unbroken_of_failed _)
  | runTimeout run running late concludes =>
    exact unbroken_of_concludes concludes (unbroken_of_failed _)
  | seeded m program idle text decodes seeded delivers => exact unbroken_of_delivers delivers
  | step run ready delivers => exact unbroken_of_delivers delivers
  | queued m rest run since awaiting inputs delivers => exact unbroken_of_delivers delivers
  | answered m run since awaiting empty text delivers => exact unbroken_of_delivers delivers

end Session

namespace Conversation

open Session

/-- All that the client has received are single lines. -/
def Unbroken (c : Conversation) : Prop := ∀ entry ∈ c.received, '\n' ∉ entry.2.line

theorem History.unbroken_told_iff {h : History} :
    (∀ e ∈ h.told, '\n' ∉ e.line) ↔ h.talk.Unbroken := by
  simp only [told, Unbroken, List.mem_map, List.mem_reverse]
  constructor
  · intro known entry he
    exact known entry.2 ⟨entry, he, rfl⟩
  · rintro known e ⟨entry, he, rfl⟩
    exact known entry he

/-- Whatever the client does and however the turns fall, lines stay single. -/
theorem History.unbroken_run {h : History} (start : ∀ e ∈ h.told, '\n' ∉ e.line)
    (schedule : List Move) : ∀ e ∈ (h.run schedule).told, '\n' ∉ e.line := by
  refine run_induction (P := fun h => ∀ e ∈ h.told, '\n' ∉ e.line) ?_ ?_ start schedule
  · intro h h' frame known
    rwa [told_of_frame frame]
  · intro h cue due known
    obtain ⟨told, reacts, eq, -⟩ := respondTo_reacts due
    rw [eq]
    exact List.forall_mem_append.mpr ⟨known, unbroken_of_reacts reacts⟩

theorem Reaches.unbroken {c c' : Conversation} (h : c.Reaches c') (hc : c.Unbroken) :
    c'.Unbroken := by
  obtain ⟨schedule, rfl⟩ := h
  have run := History.unbroken_run (h := { talk := c }) (History.unbroken_told_iff.mpr hc) schedule
  have talk := History.unbroken_told_iff.mp run
  rwa [History.talk_run] at talk

end Conversation

/-! ### The command -/

namespace Cli

open Conversation

namespace Screen

theorem out_log (s : Screen) (minimum : Log.Level) (e : Log.Entry) :
    (s.log minimum e).out = s.out := by
  unfold log
  split <;> rfl

theorem out_logAll (s : Screen) (minimum : Log.Level) (entries : List Log.Entry) :
    (s.logAll minimum entries).out = s.out := by
  induction entries generalizing s with
  | nil => rfl
  | cons e entries ih => exact (ih (s.log minimum e)).trans (out_log s minimum e)

end Screen

namespace Run

variable {minimum : Log.Level} {screen : Screen} {c : Conversation} {exit : Exit}

theorem reaches_waitForRequest (ms : Nat) (c : Conversation) :
    c.Reaches (waitForRequest ms c) := by
  induction ms generalizing c with
  | zero => exact .refl c
  | succ ms ih =>
    simp only [waitForRequest]
    split
    · exact .refl c
    · exact (reaches_tick c).trans (ih _)

/-- While the command attends to a session it prints nothing, and the session tells it single
    lines. -/
structure Attends (screen : Screen) (next : Screen × Conversation) : Prop where
  out : next.1.out = screen.out
  unbroken : next.2.Unbroken

theorem Attends.trans {next last : Screen × Conversation} (h : Attends screen next)
    (h' : Attends next.1 last) : Attends screen last := ⟨h'.out.trans h.out, h'.unbroken⟩

theorem attends_flush (minimum : Log.Level) (screen : Screen) (hc : c.Unbroken) :
    Attends screen (flush minimum screen c) :=
  ⟨Screen.out_logAll screen minimum c.log.reverse, hc⟩

theorem attends_approach (minimum : Log.Level) (screen : Screen) (hc : c.Unbroken) :
    Attends screen (approach minimum screen c) := by
  have waited := (reaches_waitForRequest (runMillis c.session.config) c).unbroken hc
  have flushed := attends_flush minimum screen waited
  unfold approach
  generalize flush minimum screen _ = next at flushed ⊢
  obtain ⟨screen', c'⟩ := next
  simp only
  split
  · exact ⟨flushed.out, flushed.unbroken⟩
  · exact flushed

theorem attends_attend (minimum : Log.Level) (screen : Screen) (input : List Text)
    (hc : c.Unbroken) : Attends screen (attend minimum screen c input) := by
  induction input generalizing screen c with
  | nil =>
    have first := attends_approach minimum screen hc
    unfold attend
    generalize approach minimum screen c = next at first ⊢
    obtain ⟨screen', c'⟩ := next
    simp only
    split
    · exact first.trans (attends_flush _ _ ((reaches_act c' .drop).unbroken first.unbroken))
    · exact first
  | cons line rest ih =>
    have first := attends_approach minimum screen hc
    unfold attend
    generalize approach minimum screen c = next at first ⊢
    obtain ⟨screen', c'⟩ := next
    have answered := (reaches_act c' (.send [line])).unbroken first.unbroken
    simp only
    split
    · exact first
    · split
      · exact first.trans (attends_flush _ _ ((reaches_elapseWithin _ _ _).unbroken answered))
      · exact first.trans ((attends_flush _ _ answered).trans (ih _ answered))

theorem out_of_play {config : Session.Config} {seed : Int} {source : Text} {input : List Text}
    (h : play minimum screen config seed source input = some exit) :
    ∃ told : List Event, exit.screen.out = screen.out ++ told.map Event.line ∧
      ∀ e ∈ told, '\n' ∉ e.line := by
  have opened : (opening config seed source).Unbroken :=
    (reaches_act _ _).unbroken (by simp [Unbroken, Conversation.opened])
  have attended := attends_attend minimum screen input opened
  unfold play at h
  generalize attend minimum screen (opening config seed source) input = next at attended h
  obtain ⟨screen', c⟩ := next
  obtain ⟨outcome, -, rfl⟩ := Option.map_eq_some_iff.mp h
  refine ⟨c.received.reverse.map (·.2), ?_, ?_⟩
  · rw [Screen.out_log, Screen.print, attended.out, List.map_map]
    rfl
  · intro e he
    obtain ⟨entry, received, rfl⟩ := List.mem_map.mp he
    exact attended.unbroken entry (List.mem_reverse.mp received)

theorem out_of_minimumLevel {environment : Option Text}
    (h : minimumLevel environment = .error exit) : exit.screen.out = [] := by
  unfold minimumLevel at h
  split at h
  · cases h
  · split at h
    · cases h
    · cases h
      rfl

theorem out_of_sessionConfig {program : Text} {options : List Text}
    (h : sessionConfig program options = .error exit) : exit.screen.out = [] := by
  unfold sessionConfig at h
  split at h
  · cases h
  · cases h
    split
    · exact Screen.out_log _ _ _
    · exact Screen.out_log _ _ _

/-- A command that is stopped before it runs anything has printed nothing. -/
theorem out_of_settings {program : Text} {arguments : List Text} {environment : Option Text}
    (h : settings program arguments environment = .error exit) : exit.screen.out = [] := by
  cases arguments with
  | nil =>
    cases h
    rfl
  | cons path options =>
    simp only [settings] at h
    split at h
    · cases h
      rfl
    · simp only [bind_fails_iff] at h
      rcases h with level | ⟨_, -, options | ⟨_, -, done⟩⟩
      · exact out_of_minimumLevel level
      · exact out_of_sessionConfig options
      · cases done

theorem out_of_load {asked : Settings} {file : Except Text Text} :
    (∀ exit, load asked file = .error exit → exit.screen.out = []) ∧
      ∀ source screen, load asked file = .ok (source, screen) → screen.out = [] := by
  unfold load
  split
  · refine ⟨fun exit h => ?_, fun _ _ h => by cases h⟩
    cases h
    exact Screen.out_log _ _ _
  · split
    · refine ⟨fun exit h => ?_, fun _ _ h => by cases h⟩
      cases h
      rfl
    · refine ⟨fun _ h => (by cases h), fun source screen h => ?_⟩
      cases h
      exact Screen.out_log _ _ _

/-- **The command prints events and nothing else**, each in a line of its own. -/
theorem out_of_command {program : Text} {arguments : List Text} {s : Surroundings}
    (h : command program arguments s = some exit) :
    ∃ told : List Event, exit.screen.out = told.map Event.line ∧ ∀ e ∈ told, '\n' ∉ e.line := by
  unfold command at h
  split at h
  · rename_i stopped refused
    cases h
    exact ⟨[], out_of_settings refused, by simp⟩
  · rename_i asked _
    split at h
    · rename_i stopped refused
      cases h
      exact ⟨[], out_of_load.1 _ refused, by simp⟩
    · rename_i source screen loaded
      obtain ⟨told, out, unbroken⟩ := out_of_play h
      rw [out_of_load.2 _ _ loaded, List.nil_append] at out
      exact ⟨told, out, unbroken⟩

end Run

end Cli

/-- **Every event is a line of its own.**  In no conversation, whatever its settings and whatever
    the client sends, does the session tell a line with a line feed in it.  So what is printed
    with each line ended by a line feed is read back as the lines that were told, and all that
    the command prints that runs a program are events, one to a line. -/
theorem Conversation.History.events_are_single_lines (peer : Text) (config : Session.Config)
    (seed : Int) (schedule : List Move) :
    let lines := (History.of peer config seed schedule).told.map Event.line
    (∀ line ∈ lines, '\n' ∉ line) ∧ (Cli.unlines lines).splitOn '\n' = lines ++ [[]] ∧
      ∀ program arguments surroundings exit,
        Cli.Run.command program arguments surroundings = some exit →
          ∃ told : List Event, exit.screen.out = told.map Event.line ∧
            (Cli.unlines exit.screen.out).splitOn '\n' = told.map Event.line ++ [[]] := by
  have single {told : List Event} (unbroken : ∀ e ∈ told, '\n' ∉ e.line) :
      ∀ line ∈ told.map Event.line, '\n' ∉ line := by
    intro line hl
    obtain ⟨e, he, rfl⟩ := List.mem_map.mp hl
    exact unbroken e he
  have start : ∀ e ∈ History.told { talk := .opened peer config seed }, '\n' ∉ e.line := by
    simp [History.told, Conversation.opened]
  have lines := single (History.unbroken_run start schedule)
  refine ⟨lines, Cli.splitOn_unlines lines, ?_⟩
  intro program arguments surroundings exit ran
  obtain ⟨told, out, unbroken⟩ := Cli.Run.out_of_command ran
  refine ⟨told, out, ?_⟩
  rw [out]
  exact Cli.splitOn_unlines (single unbroken)

/-- A header that is repeated as a whole, the carriage return in it included, and an input of two
    lines of which the second would end the run. -/
theorem Conversation.History.events_are_single_lines_hostile :
    let header : List Move := [.post "#define a\rb c\nhalt".toList, .respond]
    let forged : List Move :=
      [.post "read\nwrite".toList, .respond, .respond, .post "1\n@f".toList, .respond]
    let lines (schedule : List Move) := (History.of [] {} 0 schedule).told.map Event.line
    let around : Cli.Run.Surroundings :=
      { contents := fun _ => .ok "read\nwrite".toList, input := "x\r@f\n1\n".toList }
    lines header = [("@e InvalidMacro: line 1: invalid macro: bad definition header " ++
        "\x60#define a\rb c\x60").toList] ∧
      lines forged = ["@i ?stack".toList, ("@e InvalidInput: input \"1\\n@f\" " ++
        "is not an integer within [-2147483648, 2147483648]").toList] ∧
      (Cli.unlines (lines forged)).splitOn '\n' = lines forged ++ [[]] ∧
      ∃ exit, Cli.Run.command "run".toList ["p".toList] around = some exit ∧
        exit.screen.out.length = 2 ∧
          ∃ told : List Event,
            (Cli.unlines exit.screen.out).splitOn '\n' = told.map Event.line ++ [[]] := by
  intro header forged lines around
  obtain ⟨-, printed, command⟩ := events_are_single_lines [] {} 0 forged
  refine ⟨by decide +kernel, by decide +kernel, printed, ?_⟩
  have ran : ((Cli.Run.command "run".toList ["p".toList] around).map
      (·.screen.out.length)) = some 2 := by decide +kernel
  obtain ⟨exit, done, two⟩ := Option.map_eq_some_iff.mp ran
  obtain ⟨told, -, split⟩ := command _ _ _ _ done
  exact ⟨exit, done, two, told, split⟩

end Stepwise

/-
  Stepwise/Proofs/Session/Submission.lean
  =======================================
  **Which programs can be handed to a session.**

  A session that waits for a source takes the first message for it that is no directive,
  and what is a directive is decided by the first mark of the message alone.  The decoder
  goes by tokens and knows nothing of directives, so the two can disagree: a source that
  begins with an at sign is passed over, even if it decodes.

  There is only one way in which a source that decodes can begin so, which is a label with
  an at sign in front.  All other programs are taken and run.
-/
import Stepwise.Proofs.Assembly.Opening
import Stepwise.Proofs.Session.Reaction

namespace Stepwise

open Text

theorem Inbound.isDirective_iff (message : Text) :
    isDirective message = true ↔ firstMark? message = some '@' := by
  rw [isDirective, head?_trim, beq_iff_eq]

namespace Session

variable {s : Session} {source : Text} {program : Program} {now : Instant} {takes : Takes}

/-- The source is taken, and the run of its program begins. -/
structure Starts (s : Session) (now : Instant) (takes : Takes) (source : Text)
    (program : Program) : Prop where
  parses : Inbound.parse source = .ok (.text source)
  session : (s.respond now takes (.message source)).session =
    (s.startRun now takes program).session
  told : (s.respond now takes (.message source)).told = (s.startRun now takes program).told

theorem starts_of_text (idle : s.phase = .idle) (decodes : decode source = .ok program)
    (text : Inbound.isDirective source = false) : s.Starts now takes source program := by
  have parses := Inbound.parse_of_text text
  have taken : s.respond now takes (.message source) = s.takeSource now takes source := by
    simp only [respond, takeMessage, parses, takeText, idle]
  refine ⟨parses, ?_, ?_⟩
  · rw [taken]
    simp only [takeSource, decodes]
  · rw [taken]
    simp only [takeSource, decodes]

theorem idle_of_directive (idle : s.phase = .idle)
    (directive : Inbound.isDirective source = true) :
    (s.respond now takes (.message source)).session.phase = .idle ∧
      (s.respond now takes (.message source)).told = [] := by
  rcases Inbound.parse_of_directive directive with ⟨d, parses⟩ | ⟨e, parses⟩
  · simp only [respond, takeMessage, parses, setDelay]
    exact ⟨idle, trivial⟩
  · simp only [respond, takeMessage, parses, ignore]
    exact ⟨idle, trivial⟩

/-- **A program that decodes is run when it is submitted, unless it begins with an at sign.**
    Then it begins with a label, and the session goes on waiting for a source without a
    word to its client. -/
theorem starts_unless_at_sign (s : Session) (now : Instant) (takes : Takes) (source : Text)
    (program : Program) (idle : s.phase = .idle) (decodes : decode source = .ok program) :
    (firstMark? source ≠ some '@' → s.Starts now takes source program) ∧
      (firstMark? source = some '@' →
        (∃ name, program.labels.find? ('@' :: name) = some 0) ∧
          Inbound.parse source ≠ .ok (.text source) ∧
          (s.respond now takes (.message source)).session.phase = .idle ∧
          (s.respond now takes (.message source)).told = []) := by
  constructor
  · intro other
    refine starts_of_text idle decodes ?_
    cases directive : Inbound.isDirective source with
    | false => rfl
    | true => exact absurd ((Inbound.isDirective_iff source).mp directive) other
  · intro at_sign
    have directive := (Inbound.isDirective_iff source).mpr at_sign
    refine ⟨label_of_at_sign decodes at_sign, ?_, idle_of_directive idle directive⟩
    intro text
    rcases Inbound.parse_of_directive directive with ⟨d, parses⟩ | ⟨e, parses⟩
    · rw [parses] at text
      cases text
    · rw [parses] at text
      cases text

theorem starts_unless_at_sign_label_first :
    let source := "@x: halt".toList
    let program : Program :=
      { instructions := [.halt], labels := ⟨[("@x".toList, 0)]⟩, lines := [1] }
    let r := (Session.start [] {} 0).respond 0 none (.message source)
    decode source = .ok program ∧ Inbound.parse source ≠ .ok (.text source) ∧
      r.session.phase = .idle ∧ r.told = [] := by
  intro source program r
  have decodes : decode source = .ok program := by rfl
  obtain ⟨-, passedOver⟩ :=
    starts_unless_at_sign (Session.start [] {} 0) 0 none source program rfl decodes
  obtain ⟨-, noText, waits, silent⟩ := passedOver (by decide)
  exact ⟨decodes, noText, waits, silent⟩

/-- Not every program that decodes can be submitted. -/
theorem decodes_and_not_text :
    ¬ ∀ source program, decode source = .ok program →
      Inbound.parse source = .ok (.text source) := by
  intro all
  have text := all "@x: halt".toList _ rfl
  have directive : Inbound.parse "@x: halt".toList = .error (.unknown "@x:".toList) := by rfl
  rw [directive] at text
  cases text

end Session

end Stepwise

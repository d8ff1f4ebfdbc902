/-
  Stepwise/Proofs/Protocol/SingleLine.lean
  ========================================
  **Which events are told in a single line.**

  Values, indices and budgets are told in digits, and an input that is refused is quoted, so
  nothing of what a client sends gets into such a line as it is.  The one way in is a source
  that is refused: its message repeats texts of the source (`DecodeCause.echoes`).  An event
  is therefore told in a single line as soon as those texts are (`Event.unbroken_line`).
-/
import Stepwise.Proofs.Text.Numeral
import Stepwise.Protocol.Event

namespace Stepwise

/-! ### Texts -/

namespace Text

variable {t between : Text} {ts : List Text} {c : Char}

theorem unbroken_of_digits (digits : ∀ c ∈ t, c.isDigit = true) : '\n' ∉ t := by
  intro feed
  have digit := digits _ feed
  cases digit

theorem unbroken_ofNat (n : Nat) : '\n' ∉ ofNat n :=
  unbroken_of_digits fun _ hc => isDigit_of_mem_ofNat hc

theorem unbroken_ofInt (v : Int) : '\n' ∉ ofInt v := by
  intro feed
  rcases mem_ofInt feed with sign | digit
  · cases sign
  · cases digit

theorem unbroken_ofNatPadded (width n : Nat) : '\n' ∉ ofNatPadded width n := by
  refine List.not_mem_append ?_ (unbroken_ofNat n)
  intro feed
  cases List.eq_of_mem_replicate feed

theorem unbroken_ofNatHex (n : Nat) : '\n' ∉ ofNatHex n := by
  have digit : ∀ d < 16, Nat.digitChar d ≠ '\n' := by decide
  rw [ofNatHex]
  induction n using Nat.strongRecOn with
  | _ n ih =>
    rw [Nat.toDigits_eq_if (by decide)]
    split
    · rename_i small
      exact fun feed => digit n small (List.mem_singleton.mp feed).symm
    · rename_i large
      refine List.not_mem_append (ih (n / 16) (by omega)) fun feed => ?_
      exact digit (n % 16) (Nat.mod_lt n (by decide)) (List.mem_singleton.mp feed).symm

theorem unbroken_between {front back : Text} (hf : '\n' ∉ front) (ht : '\n' ∉ t)
    (hb : '\n' ∉ back) : '\n' ∉ front ++ t ++ back :=
  List.not_mem_append (List.not_mem_append hf ht) hb

theorem unbroken_join (apart : '\n' ∉ between) (h : ∀ t ∈ ts, '\n' ∉ t) :
    '\n' ∉ join between ts := by
  induction ts with
  | nil => exact List.not_mem_nil
  | cons t ts ih =>
    obtain ⟨first, rest⟩ := List.forall_mem_cons.mp h
    cases ts with
    | nil => exact first
    | cons t' ts => exact List.not_mem_append (List.not_mem_append first apart) (ih rest)

theorem unbroken_escapeChar (c : Char) : '\n' ∉ escapeChar c := by
  unfold escapeChar
  split
  · decide
  split
  · decide
  split
  · decide
  · rename_i other
    split
    · decide
    split
    · decide
    split
    · decide
    split
    · exact List.not_mem_append (List.not_mem_append (by decide) (unbroken_ofNatHex _)) (by decide)
    · exact fun feed => other (List.mem_singleton.mp feed).symm

/-- **A quoted text is a single line**, whatever it quotes. -/
theorem unbroken_quoted (t : Text) : '\n' ∉ t.quoted := by
  refine List.not_mem_append ?_ (by decide)
  rw [List.mem_cons, not_or, List.mem_flatMap]
  refine ⟨by decide, ?_⟩
  rintro ⟨c, -, feed⟩
  exact unbroken_escapeChar c feed

end Text

open Text

theorem Binary64.unbroken_text (x : Binary64) : '\n' ∉ x.text := by
  rw [Binary64.text]
  generalize x.shortest = found
  obtain ⟨count, exponent⟩ := found
  simp only [positional]
  split
  · exact unbroken_ofNat _
  · refine List.not_mem_append (unbroken_ofNat _) ?_
    rw [List.mem_cons, not_or]
    exact ⟨by decide, unbroken_ofNatPadded _ _⟩

theorem InputTarget.unbroken_text (target : InputTarget) : '\n' ∉ target.text := by
  cases target with
  | stack => decide
  | reg r =>
    have letters : ∀ c ∈ Register.letters, c ≠ '\n' := by decide
    rw [text, Register.text]
    split
    · rename_i letter known
      exact fun feed => letters letter (List.mem_of_getElem? known)
        (List.mem_singleton.mp feed).symm
    · rw [List.mem_cons, not_or]
      exact ⟨by decide, unbroken_ofNat _⟩

/-! ### Refused sources -/

/-- The texts of a source that the message of a cause repeats. -/
def DecodeCause.echoes : DecodeCause → List Text
  | unterminatedDefine t | undefinedMacro t | macroRedefinition t | unknownOpcode t
  | immediateOutOfRange t | invalidLabel t | duplicateLabel t | undefinedLabel t => [t]
  | invalidMacro (.badHeader t) | invalidMacro (.invokesItself t) => [t]
  | invalidMacro .nested | invalidMacro .tooManyPlaceholders => []
  | arityMismatch mnemonic _ _ => [mnemonic]
  | invalidOperand mnemonic token _ => [mnemonic, token]
  | strayEnddefine | codeTooBig _ => []

namespace DecodeCause

variable {cause : DecodeCause}

theorem unbroken_kind (cause : DecodeCause) : '\n' ∉ cause.kind := by
  have absent : cause.kind.contains '\n' = false := by cases cause <;> rfl
  simpa using absent

theorem unbroken_message (h : ∀ t ∈ cause.echoes, '\n' ∉ t) : '\n' ∉ cause.message := by
  -- a message is put together of fixed words, numbers, and texts that it repeats
  cases cause with
  | strayEnddefine => decide
  | unterminatedDefine t | undefinedMacro t | macroRedefinition t | duplicateLabel t
  | undefinedLabel t => exact unbroken_between (by decide) (h t (.head _)) (by decide)
  | unknownOpcode t | invalidLabel t => exact List.not_mem_append (by decide) (h t (.head _))
  | immediateOutOfRange t =>
    exact List.not_mem_append (unbroken_between (by decide) (h t (.head _)) (by decide)) (by decide)
  | invalidMacro flaw =>
    refine List.not_mem_append (by decide) ?_
    cases flaw with
    | badHeader t | invokesItself t =>
      exact unbroken_between (by decide) (h t (.head _)) (by decide)
    | nested | tooManyPlaceholders => decide
  | arityMismatch mnemonic expected actual =>
    have counts : '\n' ∉ Text.join " or ".toList (expected.map Text.ofNat) := by
      refine unbroken_join (by decide) fun t ht => ?_
      obtain ⟨n, -, rfl⟩ := List.mem_map.mp ht
      exact unbroken_ofNat n
    exact List.not_mem_append (List.not_mem_append
      (unbroken_between (h mnemonic (.head _)) (by decide) counts) (by decide)) (unbroken_ofNat _)
  | invalidOperand mnemonic token expected =>
    have kind : '\n' ∉ expected.description := by cases expected <;> decide
    exact List.not_mem_append (List.not_mem_append (List.not_mem_append
      (unbroken_between (by decide) (h token (.tail _ (.head _))) (by decide))
      (h mnemonic (.head _)))
      (by decide)) kind
  | codeTooBig actual =>
    exact List.not_mem_append (unbroken_between (by decide) (unbroken_ofNat _) (by decide))
      (unbroken_ofNat _)

end DecodeCause

/-! ### Failed runs -/

namespace Fault

theorem unbroken_kind (f : Fault) : '\n' ∉ f.kind := by
  have absent : f.kind.contains '\n' = false := by cases f <;> rfl
  simpa using absent

theorem unbroken_message (f : Fault) : '\n' ∉ f.message := by
  have place (index : Nat) : '\n' ∉ place index :=
    unbroken_between (by decide) (unbroken_ofNat _) (by decide)
  cases f with
  | unexpectedInput => decide
  | stackUnderflow index | divisionByZero index =>
    exact List.not_mem_append (by decide) (place index)
  | invalidRegister register available =>
    exact unbroken_between (unbroken_between (by decide) (unbroken_ofNat _) (by decide))
      (unbroken_ofNat _) (by decide)
  | invalidJumpTarget target size =>
    exact unbroken_between (unbroken_between (by decide) (unbroken_ofNat _) (by decide))
      (unbroken_ofNat _) (by decide)
  | valueOverflow index bound => exact unbroken_between (by decide) (unbroken_ofInt _) (place index)
  | invalidInput input bound =>
    refine unbroken_between (unbroken_between ?_ (unbroken_ofInt _) (by decide)) (unbroken_ofInt _)
      (by decide)
    exact unbroken_between (by decide) (unbroken_quoted input) (by decide)
  | exceeded budget =>
    cases budget with
    | stackDepth limit | stepCount limit => exact List.not_mem_append (by decide) (unbroken_ofNat _)
    | inputTimeout limit | runTime limit =>
      exact unbroken_between (by decide) (Binary64.unbroken_text _) (by decide)

end Fault

/-! ### Events -/

namespace Event

/-- The texts of a source that the line of an event repeats. -/
def echoes : Event → List Text
  | refused e => e.cause.echoes
  | _ => []

theorem unbroken_bars (values : List Int) : '\n' ∉ bars values := by
  refine unbroken_join (by decide) fun t ht => ?_
  obtain ⟨v, -, rfl⟩ := List.mem_map.mp ht
  exact unbroken_ofInt v

theorem unbroken_errorLine {kind message : Text} (hk : '\n' ∉ kind) (hm : '\n' ∉ message) :
    '\n' ∉ errorLine kind message :=
  List.not_mem_append (List.not_mem_append (List.not_mem_append (by decide) hk) (by decide)) hm

/-- **An event is told in a single line**, if what it repeats of a source is. -/
theorem unbroken_line {e : Event} (h : ∀ t ∈ e.echoes, '\n' ∉ t) : '\n' ∉ e.line := by
  cases e with
  | pointer i => exact List.not_mem_append (by decide) (unbroken_ofNat i)
  | registers values => exact List.not_mem_append (by decide) (unbroken_bars values)
  | stack values => exact List.not_mem_append (by decide) (unbroken_bars values.reverse)
  | output v | consumed v => exact List.not_mem_append (by decide) (unbroken_ofInt v)
  | requested target => exact List.not_mem_append (by decide) target.unbroken_text
  | finished => decide
  | failed f => exact unbroken_errorLine f.unbroken_kind f.unbroken_message
  | refused e =>
    refine unbroken_errorLine e.cause.unbroken_kind ?_
    have place : '\n' ∉ "line ".toList ++ Text.ofNat e.line :=
      List.not_mem_append (by decide) (unbroken_ofNat e.line)
    exact List.not_mem_append (List.not_mem_append place (by decide))
      (DecodeCause.unbroken_message h)

end Event

end Stepwise

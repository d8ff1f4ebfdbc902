/-
  Stepwise/Proofs/Assembly/Grammar.lean
  =====================================
  **The table of forms is the grammar of a line of code.**

  What a token is at an operand's place is said here without saying how it is read: a
  register is a letter or `r` and an index, an immediate is an integer within bounds, and a
  label is the name of a place, bare or in quotes (`Argument.Fits`).  A line of code is an
  instruction exactly if the table has a form for it, and then there is one such form only;
  any other line is refused for the first thing in it that does not fit
  (`Instruction.parse_follows_table`).

  The forms are read one by one, each by its own clause.  That all of them read their
  operands by their kinds, and in order, is one equation between two readers
  (`Form.map_arguments_readOperands`); everything else is said about the second reader, which
  knows no forms.
-/
import Stepwise.Proofs.Assembly.RoundTrip

namespace Stepwise

variable {labels : LabelTable} {mnemonic token digits : Text} {tokens : List Text}
  {instruction : Instruction} {form : Form} {kind : OperandKind} {kinds : List OperandKind}
  {cause : DecodeCause} {r : Register} {v : Int} {n : Nat}

/-! ### Numerals -/

namespace Text

/-- The text is a decimal numeral of the number, with any number of leading zeros. -/
structure Denotes (t : Text) (n : Nat) : Prop where
  begun : t ≠ []
  digits : ∀ c ∈ t, c.isDigit = true
  value : Nat.ofDigitChars 10 t 0 = n

/-- The text is a decimal numeral of the integer, with a minus sign in front of it or none. -/
inductive DenotesInt : Text → Int → Prop where
  | plain {t : Text} {n : Nat} (numeral : Denotes t n) : DenotesInt t n
  | negative {t : Text} {n : Nat} (numeral : Denotes t n) : DenotesInt ('-' :: t) (-n)

theorem isNumeral_iff {t : Text} : isNumeral t = true ↔ t ≠ [] ∧ ∀ c ∈ t, c.isDigit = true := by
  simp only [isNumeral, Bool.and_eq_true, Bool.not_eq_true', List.isEmpty_eq_false_iff,
    List.all_eq_true]

theorem toNat?_eq_some_iff {t : Text} : toNat? t = some n ↔ Denotes t n := by
  simp only [toNat?]
  split
  · rename_i numeral
    obtain ⟨begun, digits⟩ := isNumeral_iff.mp numeral
    constructor
    · intro value
      exact ⟨begun, digits, Option.some.inj value⟩
    · intro h
      exact congrArg some h.value
  · rename_i other
    constructor
    · intro none
      cases none
    · intro h
      exact absurd (isNumeral_iff.mpr ⟨h.begun, h.digits⟩) other

theorem toNegatableInt?_eq_some_iff {t : Text} : toNegatableInt? t = some v ↔ DenotesInt t v := by
  unfold toNegatableInt?
  split
  · rename_i digits
    constructor
    · intro h
      cases numeral : toNat? digits with
      | none =>
        rw [numeral] at h
        cases h
      | some n =>
        rw [numeral] at h
        cases h
        exact .negative (toNat?_eq_some_iff.mp numeral)
    · intro h
      cases h with
      | negative numeral =>
        rw [toNat?_eq_some_iff.mpr numeral]
        rfl
      | plain numeral =>
        -- a sign is no digit
        have sign := numeral.digits '-' List.mem_cons_self
        cases sign
  · rename_i unsigned
    constructor
    · intro h
      cases numeral : toNat? t with
      | none =>
        rw [numeral] at h
        cases h
      | some n =>
        rw [numeral] at h
        cases h
        exact .plain (toNat?_eq_some_iff.mp numeral)
    · intro h
      cases h with
      | plain numeral =>
        rw [toNat?_eq_some_iff.mpr numeral]
        rfl
      | negative numeral => exact absurd rfl (unsigned _)

end Text

/-! ### Registers -/

namespace Register

/-- The token names the register: by its letter, or by `r` and a numeral of its index. -/
inductive Names : Text → Register → Prop where
  | letter {c : Char} {r : Register} (own : letters[r.index.val]? = some c) : Names [c] r
  | indexed {digits : Text} {r : Register} (numeral : Text.Denotes digits r.index.val) :
      Names ('r' :: digits) r

theorem ofNat?_eq_some_iff : ofNat? n = some r ↔ r.index.val = n := by
  obtain ⟨index, small⟩ := r
  simp only [ofNat?]
  split
  · simp only [Option.some.injEq, Register.mk.injEq, Fin.mk.injEq, eq_comm]
  · rename_i large
    constructor
    · intro none
      cases none
    · rintro rfl
      exact absurd small large

theorem letter?_eq_some_iff {c : Char} :
    (letters.idxOf? c).bind ofNat? = some r ↔ letters[r.index.val]? = some c := by
  have places : ∀ i : Fin letters.length, letters.idxOf? letters[i] = some i.val := by decide
  rw [Option.bind_eq_some_iff]
  constructor
  · rintro ⟨i, found, known⟩
    rw [ofNat?_eq_some_iff] at known
    rw [List.idxOf?_eq_some_iff] at found
    obtain ⟨short, same, -⟩ := found
    rw [known, List.getElem?_eq_getElem short, same]
  · intro own
    obtain ⟨short, rfl⟩ := List.getElem?_eq_some_iff.mp own
    exact ⟨_, places ⟨_, short⟩, ofNat?_eq_some_iff.mpr rfl⟩

theorem parse?_eq_some_iff : parse? token = some r ↔ Names token r := by
  unfold parse?
  split
  · rename_i c
    rw [letter?_eq_some_iff]
    constructor
    · intro own
      exact .letter own
    · intro h
      cases h with
      | letter own => exact own
      | indexed numeral => exact absurd rfl numeral.begun
  · rename_i digits long
    rw [Option.bind_eq_some_iff]
    constructor
    · rintro ⟨n, numeral, known⟩
      rw [ofNat?_eq_some_iff] at known
      exact .indexed (known ▸ Text.toNat?_eq_some_iff.mp numeral)
    · intro h
      cases h with
      | letter own => exact absurd rfl long
      | indexed numeral =>
        exact ⟨_, Text.toNat?_eq_some_iff.mpr numeral, ofNat?_eq_some_iff.mpr rfl⟩
  · rename_i long other
    constructor
    · intro none
      cases none
    · intro h
      cases h with
      | letter own => exact absurd rfl (long _)
      | indexed numeral => exact absurd rfl (other _)

theorem parse?_eq_none_iff : parse? token = none ↔ ∀ r, ¬ Names token r := by
  simp only [Option.eq_none_iff_forall_ne_some, ne_eq, parse?_eq_some_iff]

end Register

/-! ### Operands -/

/-- What an operand of an instruction is. -/
inductive Argument where
  | register (r : Register)
  | value (v : Operand)
  | target (index : Nat)
deriving DecidableEq, Repr

namespace Instruction

/-- The operands of an instruction, in the order in which they are written. -/
def arguments : Instruction → List Argument
  | push v | writeValue v => [.value v]
  | pop | arith _ | halt | read .stack | write => []
  | popInto d | read (.reg d) => [.register d]
  | arithReg _ d v | mov d v => [.register d, .value v]
  | jmp t | branch _ t => [.target t]
  | branchReg _ s t => [.register s, .target t]

end Instruction

namespace Argument

/-- The token is an operand of the kind: a register; a register or an immediate within bounds;
    or the name of a place that is known, bare or in quotes. -/
inductive Fits (labels : LabelTable) : OperandKind → Text → Argument → Prop where
  | register {token : Text} {r : Register} (names : Register.Names token r) :
      Fits labels .register token (.register r)
  | held {token : Text} {r : Register} (names : Register.Names token r) :
      Fits labels .value token (.value (.reg r))
  | immediate {token : Text} {v : Int} (integer : Text.DenotesInt token v)
      (within : inRange v = true) : Fits labels .value token (.value (.imm v))
  | label {token name : Text} {i : Nat} (refers : Token.RefersTo token name)
      (bound : labels.find? name = some i) : Fits labels .label token (.target i)

/-- Each token is an operand of the kind at its place. -/
inductive FitAll (labels : LabelTable) : List OperandKind → List Text → List Argument → Prop where
  | nil : FitAll labels [] [] []
  | cons {kind : OperandKind} {token : Text} {a : Argument} {kinds : List OperandKind}
      {tokens : List Text} {args : List Argument} (first : Fits labels kind token a)
      (rest : FitAll labels kinds tokens args) :
      FitAll labels (kind :: kinds) (token :: tokens) (a :: args)

/-- What is wrong with a token that is no operand of the kind. -/
inductive Misfit (labels : LabelTable) (mnemonic : Text) :
    OperandKind → Text → DecodeCause → Prop where
  | register {token : Text} (unnamed : ∀ r, ¬ Register.Names token r) :
      Misfit labels mnemonic .register token (.invalidOperand mnemonic token .register)
  | value {token : Text} (unnamed : ∀ r, ¬ Register.Names token r)
      (shapeless : ∀ v, ¬ Text.DenotesInt token v) :
      Misfit labels mnemonic .value token (.invalidOperand mnemonic token .value)
  | range {token : Text} {v : Int} (integer : Text.DenotesInt token v)
      (outside : inRange v = false) :
      Misfit labels mnemonic .value token (.immediateOutOfRange token)
  | label {token : Text} (nameless : ∀ name, ¬ Token.RefersTo token name) :
      Misfit labels mnemonic .label token (.invalidOperand mnemonic token .label)
  | unbound {token name : Text} (refers : Token.RefersTo token name)
      (unknown : labels.find? name = none) :
      Misfit labels mnemonic .label token (.undefinedLabel name)

variable {a : Argument} {args : List Argument}

theorem FitAll.length_eq (h : FitAll labels kinds tokens args) : tokens.length = kinds.length := by
  induction h with
  | nil => rfl
  | cons first rest ih => rw [List.length_cons, List.length_cons, ih]

/-- No integer begins with a letter of a register. -/
theorem not_mem_letters_of_denotesInt {c : Char} {rest : Text} (h : Text.DenotesInt (c :: rest) v) :
    c ∉ 'r' :: Register.letters := by
  have numbers : ∀ c ∈ 'r' :: Register.letters, c ≠ '-' ∧ c.isDigit = false := by decide
  intro letter
  obtain ⟨unsigned, digit⟩ := numbers c letter
  cases h with
  | plain numeral =>
    rw [numeral.digits c List.mem_cons_self] at digit
    cases digit
  | negative numeral => exact unsigned rfl

/-- Registers and integers do not look alike. -/
theorem not_names_of_denotesInt (h : Text.DenotesInt token v) (r : Register) :
    ¬ Register.Names token r := by
  intro names
  cases names with
  | letter own =>
    exact not_mem_letters_of_denotesInt h (List.mem_cons_of_mem _ (List.mem_of_getElem? own))
  | indexed numeral => exact not_mem_letters_of_denotesInt h List.mem_cons_self

end Argument

/-! ### Reading by kind -/

namespace OperandKind

/-- Read a token as an operand of the kind. -/
def read (labels : LabelTable) (mnemonic : Text) : OperandKind → Text → Except DecodeCause Argument
  | register, token => (Token.register mnemonic token).map .register
  | value, token => (Token.value mnemonic token).map .value
  | label, token => (Token.label labels mnemonic token).map .target

/-- Read tokens as operands of as many kinds, leftmost first. -/
def readAll (labels : LabelTable) (mnemonic : Text) :
    List OperandKind → List Text → Except DecodeCause (List Argument)
  | kind :: kinds, token :: tokens => do
    let first ← kind.read labels mnemonic token
    let rest ← readAll labels mnemonic kinds tokens
    return first :: rest
  | _, _ => .ok []

end OperandKind

namespace Token

theorem register_succeeds_iff : register mnemonic token = .ok r ↔ Register.Names token r := by
  rw [register, ← Register.parse?_eq_some_iff]
  cases Register.parse? token <;> simp

theorem register_fails_iff :
    register mnemonic token = .error cause ↔
      (∀ r, ¬ Register.Names token r) ∧ .invalidOperand mnemonic token .register = cause := by
  rw [register, ← Register.parse?_eq_none_iff]
  cases Register.parse? token <;> simp

theorem value_of_names (names : Register.Names token r) : value mnemonic token = .ok (.reg r) := by
  rw [value, Register.parse?_eq_some_iff.mpr names]

theorem value_of_denotesInt (integer : Text.DenotesInt token v) :
    value mnemonic token =
      if inRange v then .ok (.imm v) else .error (.immediateOutOfRange token) := by
  have unnamed := Register.parse?_eq_none_iff.mpr (Argument.not_names_of_denotesInt integer)
  rw [value, unnamed, Text.toNegatableInt?_eq_some_iff.mpr integer]

theorem value_of_shapeless (unnamed : ∀ r, ¬ Register.Names token r)
    (shapeless : ∀ v, ¬ Text.DenotesInt token v) :
    value mnemonic token = .error (.invalidOperand mnemonic token .value) := by
  have none : Text.toNegatableInt? token = none := by
    simp only [Option.eq_none_iff_forall_ne_some, ne_eq, Text.toNegatableInt?_eq_some_iff]
    exact shapeless
  rw [value, Register.parse?_eq_none_iff.mpr unnamed, none]

/-- A token is a register, an integer, or neither of them. -/
theorem value_cases (token : Text) :
    (∃ r, Register.Names token r) ∨ (∃ v, Text.DenotesInt token v) ∨
      (∀ r, ¬ Register.Names token r) ∧ ∀ v, ¬ Text.DenotesInt token v := by
  by_cases names : ∃ r, Register.Names token r
  · exact .inl names
  · by_cases integer : ∃ v, Text.DenotesInt token v
    · exact .inr (.inl integer)
    · exact .inr (.inr ⟨not_exists.mp names, not_exists.mp integer⟩)

theorem label_of_nameless (nameless : ∀ name, ¬ RefersTo token name) :
    label labels mnemonic token = .error (.invalidOperand mnemonic token .label) := by
  have bad : (referredName token).isEmpty || (referredName token).contains '"' := by
    by_contra good
    simp only [Bool.or_eq_true, List.isEmpty_iff, List.contains_iff_mem, not_or] at good
    exact nameless _ (refersTo_referredName good.1 good.2)
  exact if_pos bad

theorem label_of_refersTo {name : Text} (refers : RefersTo token name) :
    label labels mnemonic token =
      match labels.find? name with
      | some i => .ok i
      | none => .error (.undefinedLabel name) := by
  have good : ¬ (name.isEmpty || name.contains '"') := by
    simp only [Bool.or_eq_true, List.isEmpty_iff, List.contains_iff_mem, not_or]
    cases refers with
    | bare named plain | quoted named plain => exact ⟨named, plain⟩
  rw [label, referredName_eq refers]
  exact if_neg good

end Token

namespace OperandKind

open Argument

variable {a : Argument} {args : List Argument}

theorem read_succeeds_iff :
    kind.read labels mnemonic token = .ok a ↔ Fits labels kind token a := by
  cases kind with
  | register =>
    simp only [read, map_succeeds_iff, Token.register_succeeds_iff]
    constructor
    · rintro ⟨r, names, rfl⟩
      exact .register names
    · intro h
      cases h with
      | register names => exact ⟨_, names, rfl⟩
  | label =>
    simp only [read, map_succeeds_iff, Token.label_succeeds_iff]
    constructor
    · rintro ⟨i, ⟨name, refers, bound⟩, rfl⟩
      exact .label refers bound
    · intro h
      cases h with
      | label refers bound => exact ⟨_, ⟨_, refers, bound⟩, rfl⟩
  | value =>
    simp only [read, map_succeeds_iff]
    constructor
    · rintro ⟨value, reads, rfl⟩
      rcases Token.value_cases token with ⟨r, names⟩ | ⟨v, integer⟩ | ⟨unnamed, shapeless⟩
      · rw [Token.value_of_names names] at reads
        cases reads
        exact .held names
      · rw [Token.value_of_denotesInt integer] at reads
        split at reads
        · rename_i within
          cases reads
          exact .immediate integer within
        · cases reads
      · rw [Token.value_of_shapeless unnamed shapeless] at reads
        cases reads
    · intro h
      cases h with
      | held names => exact ⟨_, Token.value_of_names names, rfl⟩
      | immediate integer within =>
        refine ⟨_, ?_, rfl⟩
        rw [Token.value_of_denotesInt integer, if_pos within]

theorem read_fails_iff :
    kind.read labels mnemonic token = .error cause ↔ Misfit labels mnemonic kind token cause := by
  cases kind with
  | register =>
    simp only [read, map_fails_iff, Token.register_fails_iff]
    constructor
    · rintro ⟨unnamed, rfl⟩
      exact .register unnamed
    · intro h
      cases h with
      | register unnamed => exact ⟨unnamed, rfl⟩
  | label =>
    simp only [read, map_fails_iff]
    constructor
    · intro fails
      by_cases named : ∃ name, Token.RefersTo token name
      · obtain ⟨name, refers⟩ := named
        rw [Token.label_of_refersTo refers] at fails
        split at fails
        · cases fails
        · rename_i unknown
          cases fails
          exact .unbound refers unknown
      · have nameless := not_exists.mp named
        rw [Token.label_of_nameless nameless] at fails
        cases fails
        exact .label nameless
    · intro h
      cases h with
      | label nameless => exact Token.label_of_nameless nameless
      | unbound refers unknown => rw [Token.label_of_refersTo refers, unknown]
  | value =>
    simp only [read, map_fails_iff]
    constructor
    · intro fails
      rcases Token.value_cases token with ⟨r, names⟩ | ⟨v, integer⟩ | ⟨unnamed, shapeless⟩
      · rw [Token.value_of_names names] at fails
        cases fails
      · rw [Token.value_of_denotesInt integer] at fails
        split at fails
        · cases fails
        · rename_i outside
          cases fails
          exact .range integer (by simpa using outside)
      · rw [Token.value_of_shapeless unnamed shapeless] at fails
        cases fails
        exact .value unnamed shapeless
    · intro h
      cases h with
      | value unnamed shapeless => exact Token.value_of_shapeless unnamed shapeless
      | range integer outside =>
        rw [Token.value_of_denotesInt integer, if_neg]
        simp [outside]

/-- What is wrong with a token is said of those alone that do not fit. -/
theorem not_fits_of_misfit (h : Misfit labels mnemonic kind token cause) (a : Argument) :
    ¬ Fits labels kind token a := by
  intro fits
  have fails := read_fails_iff.mpr h
  rw [read_succeeds_iff.mpr fits] at fails
  cases fails

theorem readAll_succeeds_iff (enough : tokens.length = kinds.length) :
    readAll labels mnemonic kinds tokens = .ok args ↔ FitAll labels kinds tokens args := by
  induction kinds generalizing tokens args with
  | nil =>
    obtain rfl := List.length_eq_zero_iff.mp enough
    constructor
    · intro h
      cases h
      exact .nil
    · intro h
      cases h
      rfl
  | cons kind kinds ih =>
    obtain ⟨token, tokens, rfl⟩ := List.exists_cons_of_length_eq_add_one enough
    have enough : tokens.length = kinds.length := Nat.succ.inj enough
    simp only [readAll, bind_succeeds_iff, pure_succeeds_iff, read_succeeds_iff, ih enough]
    constructor
    · rintro ⟨a, first, args, rest, rfl⟩
      exact .cons first rest
    · intro h
      cases h with
      | cons first rest => exact ⟨_, first, _, rest, rfl⟩

/-- Operands are refused for the leftmost one that does not fit. -/
theorem readAll_fails_iff (enough : tokens.length = kinds.length) :
    readAll labels mnemonic kinds tokens = .error cause ↔
      ∃ front kind back before token after args, kinds = front ++ kind :: back ∧
        tokens = before ++ token :: after ∧ FitAll labels front before args ∧
        Misfit labels mnemonic kind token cause := by
  induction kinds generalizing tokens with
  | nil =>
    obtain rfl := List.length_eq_zero_iff.mp enough
    constructor
    · intro h
      cases h
    · rintro ⟨front, kind, back, before, token, after, args, split, -⟩
      simp at split
  | cons kind kinds ih =>
    obtain ⟨token, tokens, rfl⟩ := List.exists_cons_of_length_eq_add_one enough
    have enough : tokens.length = kinds.length := Nat.succ.inj enough
    simp only [readAll, bind_fails_iff, read_fails_iff, read_succeeds_iff, ih enough, pure,
      Except.pure, reduceCtorEq, and_false, exists_false, or_false]
    constructor
    · rintro
        (here | ⟨a, first, front, kind', back, before, token', after, args, rfl, rfl, fit, wrong⟩)
      · exact ⟨[], kind, kinds, [], token, tokens, [], rfl, rfl, .nil, here⟩
      · exact ⟨kind :: front, kind', back, token :: before, token', after, a :: args, rfl, rfl,
          .cons first fit, wrong⟩
    · rintro ⟨front, kind', back, before, token', after, args, split, split', fit, wrong⟩
      cases fit with
      | nil =>
        cases split
        cases split'
        exact .inl wrong
      | cons first rest =>
        cases split
        cases split'
        exact .inr ⟨_, first, _, _, _, _, _, _, _, rfl, rfl, rest, wrong⟩

end OperandKind

/-! ### Forms -/

namespace Form

/-- **Every form reads its operands by their kinds**, as far as their number is right. -/
theorem map_arguments_readOperands (enough : tokens.length = form.arity) :
    (form.readOperands labels tokens).map Instruction.arguments =
      OperandKind.readAll labels form.mnemonic form.operands tokens := by
  cases form with
  | pop | arith | halt | read | write =>
    obtain rfl := List.length_eq_zero_iff.mp enough
    rfl
  | push | writeValue =>
    obtain ⟨v, rfl⟩ := List.length_eq_one_iff.mp enough
    simp only [readOperands, operands, OperandKind.readAll, OperandKind.read]
    cases Token.value _ v <;> rfl
  | popInto | readInto =>
    obtain ⟨d, rfl⟩ := List.length_eq_one_iff.mp enough
    simp only [readOperands, operands, OperandKind.readAll, OperandKind.read]
    cases Token.register _ d <;> rfl
  | jmp | branch =>
    obtain ⟨t, rfl⟩ := List.length_eq_one_iff.mp enough
    simp only [readOperands, operands, OperandKind.readAll, OperandKind.read]
    cases Token.label labels _ t <;> rfl
  | arithReg | mov =>
    obtain ⟨d, v, rfl⟩ := List.length_eq_two.mp enough
    simp only [readOperands, operands, OperandKind.readAll, OperandKind.read]
    cases Token.register _ d <;> cases Token.value _ v <;> rfl
  | branchReg =>
    obtain ⟨s, t, rfl⟩ := List.length_eq_two.mp enough
    simp only [readOperands, operands, OperandKind.readAll, OperandKind.read]
    cases Token.register _ s <;> cases Token.label labels _ t <;> rfl

theorem form_of_readOperands (h : form.readOperands labels tokens = .ok instruction) :
    instruction.form = form :=
  (reads_of_readOperands h).form

/-- A mnemonic and a number of operands are those of one form. -/
theorem select?_eq_some_iff :
    select? mnemonic n = some form ↔ form.mnemonic = mnemonic ∧ form.arity = n := by
  constructor
  · exact mnemonic_of_select
  · rintro ⟨rfl, rfl⟩
    exact Listing.select?_form form

theorem select?_eq_none_iff :
    select? mnemonic n = none ↔ ∀ form ∈ all, form.mnemonic = mnemonic → form.arity ≠ n := by
  simp [select?]

end Form

theorem isMnemonic_iff :
    isMnemonic mnemonic = true ↔ ∃ form ∈ Form.all, form.mnemonic = mnemonic := by
  simp [isMnemonic]

namespace Instruction

/-- The form and the operands are all that there is to an instruction. -/
theorem eq_of_arguments {i j : Instruction} (forms : i.form = j.form)
    (arguments : i.arguments = j.arguments) : i = j := by
  cases i with
  | read into =>
    cases into <;> cases j with
    | read into' => cases into' <;> simp_all [form, Instruction.arguments]
    | _ => simp [form] at forms
  | _ =>
    cases j with
    | read into' => cases into' <;> simp [form] at forms
    | _ => simp_all [form, Instruction.arguments]

/-- Why tokens behind a word are no operands of an instruction with that mnemonic. -/
inductive Misspelled (labels : LabelTable) (mnemonic : Text) (tokens : List Text) :
    DecodeCause → Prop where
  | unknown (alien : ∀ form ∈ Form.all, form.mnemonic ≠ mnemonic) :
      Misspelled labels mnemonic tokens (.unknownOpcode mnemonic)
  | arity (known : ∃ form ∈ Form.all, form.mnemonic = mnemonic)
      (others : ∀ form ∈ Form.all, form.mnemonic = mnemonic → form.arity ≠ tokens.length) :
      Misspelled labels mnemonic tokens
        (.arityMismatch mnemonic
          ((Form.all.filter fun form => form.mnemonic == mnemonic).map Form.arity) tokens.length)
  | operand {form : Form} {front back : List OperandKind} {kind : OperandKind}
      {before after : List Text} {token : Text} {args : List Argument} {cause : DecodeCause}
      (listed : form ∈ Form.all) (own : form.mnemonic = mnemonic)
      (enough : form.arity = tokens.length) (kinds : form.operands = front ++ kind :: back)
      (split : tokens = before ++ token :: after) (fit : Argument.FitAll labels front before args)
      (unfit : ∀ a, ¬ Argument.Fits labels kind token a)
      (wrong : Argument.Misfit labels mnemonic kind token cause) :
      Misspelled labels mnemonic tokens cause

theorem parse_succeeds_iff :
    parse labels mnemonic tokens = .ok instruction ↔
      Form.select? mnemonic tokens.length = some instruction.form ∧
        Argument.FitAll labels instruction.form.operands tokens instruction.arguments := by
  have reads (form : Form) (enough : tokens.length = form.arity) :
      (form.readOperands labels tokens).map arguments = .ok instruction.arguments ↔
        Argument.FitAll labels form.operands tokens instruction.arguments := by
    rw [Form.map_arguments_readOperands enough, OperandKind.readAll_succeeds_iff enough]
  constructor
  · intro h
    obtain ⟨form, selected, read⟩ := parse_cases h
    obtain ⟨-, enough⟩ := Form.select?_eq_some_iff.mp selected
    obtain rfl := Form.form_of_readOperands read
    refine ⟨selected, (reads _ enough.symm).mp ?_⟩
    rw [read]
    rfl
  · rintro ⟨selected, fit⟩
    obtain ⟨other, read, same⟩ := map_succeeds_iff.mp ((reads _ fit.length_eq).mpr fit)
    obtain rfl := eq_of_arguments (Form.form_of_readOperands read) same
    rw [parse, selected]
    exact read

theorem parse_of_select (selected : Form.select? mnemonic tokens.length = some form) :
    parse labels mnemonic tokens = form.readOperands labels tokens := by
  rw [parse, selected]

theorem parse_of_unselected (unselected : Form.select? mnemonic tokens.length = none) :
    parse labels mnemonic tokens =
      if isMnemonic mnemonic then
        .error (.arityMismatch mnemonic (Form.arities mnemonic) tokens.length)
      else .error (.unknownOpcode mnemonic) := by
  rw [parse, unselected]

theorem readOperands_fails_iff (enough : tokens.length = form.arity) :
    form.readOperands labels tokens = .error cause ↔
      ∃ front kind back before token after args, form.operands = front ++ kind :: back ∧
        tokens = before ++ token :: after ∧ Argument.FitAll labels front before args ∧
        Argument.Misfit labels form.mnemonic kind token cause := by
  rw [← OperandKind.readAll_fails_iff enough, ← Form.map_arguments_readOperands enough,
    map_fails_iff]

theorem parse_fails_iff :
    parse labels mnemonic tokens = .error cause ↔ Misspelled labels mnemonic tokens cause := by
  constructor
  · intro h
    cases selected : Form.select? mnemonic tokens.length with
    | some form =>
      obtain ⟨own, enough⟩ := Form.select?_eq_some_iff.mp selected
      subst own
      rw [parse_of_select selected, readOperands_fails_iff enough.symm] at h
      obtain ⟨front, kind, back, before, token, after, args, kinds, split, fit, wrong⟩ := h
      exact .operand (Form.mem_all form) rfl enough kinds split fit
        (OperandKind.not_fits_of_misfit wrong) wrong
    | none =>
      rw [parse_of_unselected selected] at h
      split at h
      · rename_i known
        cases h
        exact .arity (isMnemonic_iff.mp known) (Form.select?_eq_none_iff.mp selected)
      · rename_i alien
        cases h
        refine .unknown fun form listed own => alien ?_
        exact isMnemonic_iff.mpr ⟨form, listed, own⟩
  · intro h
    cases h with
    | unknown alien =>
      have unselected : Form.select? mnemonic tokens.length = none :=
        Form.select?_eq_none_iff.mpr fun form listed own => absurd own (alien form listed)
      have other : ¬ isMnemonic mnemonic = true := by
        rw [isMnemonic_iff]
        rintro ⟨form, listed, own⟩
        exact alien form listed own
      rw [parse_of_unselected unselected, if_neg other]
    | arity known others =>
      rw [parse_of_unselected (Form.select?_eq_none_iff.mpr others),
        if_pos (isMnemonic_iff.mpr known)]
      rfl
    | operand listed own enough kinds split fit unfit wrong =>
      subst own
      rw [parse_of_select (Form.select?_eq_some_iff.mpr ⟨rfl, enough⟩),
        readOperands_fails_iff enough.symm]
      exact ⟨_, _, _, _, _, _, _, kinds, split, fit, wrong⟩

/-- **Lines of code are what the table of forms says, and nothing else.**  Tokens are an
    instruction exactly if a form of the table has the first one for its mnemonic and as many
    operands as there are further tokens, each of them an operand of the kind at its place.  The
    instruction is that form with those operands, and no other form of the table has this mnemonic
    and this number of operands.  All other tokens are refused: for the mnemonic, if no form has
    it; for the number of operands, with the numbers that its forms take, if none takes that many;
    and else for the leftmost operand that does not fit. -/
theorem parse_follows_table (labels : LabelTable) (mnemonic : Text) (tokens : List Text) :
    (∀ instruction, parse labels mnemonic tokens = .ok instruction ↔
      ∃ form ∈ Form.all, form.mnemonic = mnemonic ∧
        ∃ args, Argument.FitAll labels form.operands tokens args ∧
          instruction.form = form ∧ instruction.arguments = args) ∧
    ((∃ instruction, parse labels mnemonic tokens = .ok instruction) ↔
      ∃ form ∈ Form.all, form.mnemonic = mnemonic ∧
        ∃ args, Argument.FitAll labels form.operands tokens args) ∧
    (∀ form ∈ Form.all, ∀ form' ∈ Form.all, form.mnemonic = mnemonic →
      form'.mnemonic = mnemonic → form.arity = tokens.length → form'.arity = tokens.length →
        form = form') ∧
    ∀ cause, parse labels mnemonic tokens = .error cause ↔
      Misspelled labels mnemonic tokens cause := by
  refine ⟨?_, ?_, ?_, fun cause => parse_fails_iff⟩
  · intro instruction
    rw [parse_succeeds_iff]
    constructor
    · rintro ⟨selected, fit⟩
      obtain ⟨own, -⟩ := Form.select?_eq_some_iff.mp selected
      exact ⟨_, Form.mem_all _, own, _, fit, rfl, rfl⟩
    · rintro ⟨form, -, own, args, fit, rfl, rfl⟩
      exact ⟨Form.select?_eq_some_iff.mpr ⟨own, fit.length_eq.symm⟩, fit⟩
  · constructor
    · rintro ⟨instruction, h⟩
      obtain ⟨selected, fit⟩ := parse_succeeds_iff.mp h
      obtain ⟨own, -⟩ := Form.select?_eq_some_iff.mp selected
      exact ⟨_, Form.mem_all _, own, _, fit⟩
    · rintro ⟨form, -, own, args, fit⟩
      have enough := fit.length_eq
      have read : (form.readOperands labels tokens).map arguments = .ok args := by
        rw [Form.map_arguments_readOperands enough]
        exact (OperandKind.readAll_succeeds_iff enough).mpr fit
      obtain ⟨instruction, read, -⟩ := map_succeeds_iff.mp read
      refine ⟨instruction, ?_⟩
      rw [parse_of_select (Form.select?_eq_some_iff.mpr ⟨own, enough.symm⟩)]
      exact read
  · intro form _ form' _ own own' enough enough'
    have selected := Form.select?_eq_some_iff.mpr ⟨own, enough⟩
    rw [Form.select?_eq_some_iff.mpr ⟨own', enough'⟩] at selected
    exact (Option.some.inj selected).symm

/-- A jump with leading zeros in the index of its register and quotes around its label, and two
    operands of which the left one is at fault. -/
theorem parse_follows_table_jump :
    let labels : LabelTable := ⟨[("loop".toList, 2)]⟩
    let tokens : List Text := ["r007".toList, "\"loop\"".toList]
    let jump : Instruction := .branchReg .positive ⟨7⟩ 2
    parse labels "jg".toList tokens = .ok jump ∧
      (∃ form ∈ Form.all, form.mnemonic = "jg".toList ∧
        ∃ args, Argument.FitAll labels form.operands tokens args ∧
          jump.form = form ∧ jump.arguments = args) ∧
      (∀ form ∈ Form.all, form.mnemonic = "jg".toList → form.arity = 2 →
        form = .branchReg .positive) ∧
      Misspelled labels "jg".toList ["x".toList, "4".toList]
        (.invalidOperand "jg".toList "x".toList .register) := by
  intro labels tokens jump
  obtain ⟨reads, -, unique, -⟩ := parse_follows_table labels "jg".toList tokens
  obtain ⟨-, -, -, fails⟩ := parse_follows_table labels "jg".toList ["x".toList, "4".toList]
  have read : parse labels "jg".toList tokens = .ok jump := by rfl
  refine ⟨read, (reads jump).mp read, ?_, (fails _).mp (by rfl)⟩
  intro form listed own enough
  exact unique form listed (.branchReg .positive) (Form.mem_all _) own (by decide) enough
    (by decide)

end Instruction

end Stepwise

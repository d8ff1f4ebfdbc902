/-
  Stepwise/Proofs/Assembly/Operands.lean
  ======================================
  **What a token denotes where a value stands is told by its shape alone.**

  A token names a register by a letter, or by `r` and digits (`Token.IsRegister`); it is an integer
  if it is digits with a minus sign in front or none (`Token.IsInteger`).  What digits come to is
  said by their places and not by any way of reading them, and no token has both shapes.  A token
  is refused as out of range exactly if it is an integer outside the bounds of values, however
  many digits it has, and as no operand exactly if it has neither shape, an index beyond a byte
  being none (`Token.operands_are_told_by_shape`).

  The indices fit in eight bits and the values in sixty-four, so reading them in numbers of these
  widths, where digits may overflow, gives the same operands and the same refusals
  (`Token.valueInWidth_eq`).
-/
import Stepwise.Proofs.Assembly.Grammar
import Stepwise.Proofs.Number.Width

namespace Stepwise

open Decimal

variable {mnemonic token digits : Text} {r : Register} {v : Int} {n : Nat}

/-! ### Shapes -/

namespace Token

/-- The token is written as the register with the index: as one of four letters, or as `r` and
    digits that come to the index by their places. -/
inductive IsRegister : Text → Nat → Prop where
  | letter {c : Char} {n : Nat} (own : ['a', 'b', 'c', 'd'][n]? = some c) : IsRegister [c] n
  | indexed {digits : Text} (begun : digits ≠ []) (all : IsDigits digits) :
      IsRegister ('r' :: digits) (Text.placeValue digits)

/-- The token is written as the integer: as digits that come to it by their places, or as a minus
    sign and digits that come to its opposite. -/
inductive IsInteger : Text → Int → Prop where
  | plain {digits : Text} (begun : digits ≠ []) (all : IsDigits digits) :
      IsInteger digits (Text.placeValue digits)
  | negative {digits : Text} (begun : digits ≠ []) (all : IsDigits digits) :
      IsInteger ('-' :: digits) (-Text.placeValue digits)

end Token

theorem Text.denotes_iff {t : Text} : Denotes t n ↔ t ≠ [] ∧ IsDigits t ∧ placeValue t = n := by
  rw [← count_eq_placeValue]
  constructor
  · intro h
    exact ⟨h.begun, h.digits, h.value⟩
  · rintro ⟨begun, all, value⟩
    exact ⟨begun, all, value⟩

theorem Token.isInteger_iff : IsInteger token v ↔ Text.DenotesInt token v := by
  constructor
  · intro h
    cases h with
    | plain begun all => exact .plain (Text.denotes_iff.mpr ⟨begun, all, rfl⟩)
    | negative begun all => exact .negative (Text.denotes_iff.mpr ⟨begun, all, rfl⟩)
  · intro h
    cases h with
    | plain numeral =>
      obtain ⟨begun, all, rfl⟩ := Text.denotes_iff.mp numeral
      exact .plain begun all
    | negative numeral =>
      obtain ⟨begun, all, rfl⟩ := Text.denotes_iff.mp numeral
      exact .negative begun all

theorem Token.isRegister_iff : IsRegister token r.index.val ↔ Register.Names token r := by
  constructor
  · generalize named : r.index.val = n
    intro h
    cases h with
    | letter own => exact .letter (named ▸ own)
    | indexed begun all => exact .indexed (Text.denotes_iff.mpr ⟨begun, all, named.symm⟩)
  · intro h
    cases h with
    | letter own => exact .letter own
    | indexed numeral =>
      obtain ⟨begun, all, value⟩ := Text.denotes_iff.mp numeral
      exact value ▸ .indexed begun all

/-- A register that is named has an index that fits in a byte. -/
theorem Token.exists_names_iff :
    (∃ r : Register, r.index.val = n ∧ Register.Names token r) ↔ IsRegister token n ∧ n ≤ 255 := by
  constructor
  · rintro ⟨r, rfl, names⟩
    exact ⟨isRegister_iff.mpr names, Nat.le_of_lt_succ r.index.isLt⟩
  · rintro ⟨named, small⟩
    exact ⟨⟨⟨n, Nat.lt_succ_of_le small⟩⟩, rfl, isRegister_iff.mp named⟩

/-- Registers and integers do not look alike, also where the index is beyond a byte. -/
theorem Token.not_isInteger_of_isRegister (named : IsRegister token n) (v : Int) :
    ¬ IsInteger token v := by
  rw [isInteger_iff]
  intro integer
  cases named with
  | letter own =>
    have letter := List.mem_cons_of_mem 'r' (List.mem_of_getElem? own)
    exact Argument.not_mem_letters_of_denotesInt integer letter
  | indexed begun all => exact Argument.not_mem_letters_of_denotesInt integer List.mem_cons_self

theorem inRange_eq_true_iff : inRange v = true ↔ -2 ^ 31 ≤ v ∧ v ≤ 2 ^ 31 := by
  rw [inRange, Bool.and_eq_true, decide_eq_true_eq, decide_eq_true_eq]
  rfl

/-! ### Reading in fixed width -/

/-- The register that a token names, its index read in eight bits. -/
def Register.parseInByte? (token : Text) : Option Register :=
  match (letters.map fun c => [c]).idxOf? token with
  | some index => ofNat? index
  | none =>
    match token with
    | 'r' :: digits =>
      if Text.isNumeral digits then (Width.byte.parse? digits).bind fun v => ofNat? v.toNat
      else none
    | _ => none

namespace Token

/-- The text behind a minus sign, or all of it if it has none. -/
def unsigned : Text → Text
  | '-' :: digits => digits
  | token => token

/-- The value that a token denotes, read in numbers of fixed width: a register with its index in
    eight bits, or else an integer in sixty-four, which is out of range if it overflows. -/
def valueInWidth (mnemonic token : Text) : Except DecodeCause Operand :=
  match Register.parseInByte? token with
  | some r => .ok (.reg r)
  | none =>
    if Text.isNumeral (unsigned token) then
      match (Width.signed64.parse? token).filter inRange with
      | some v => .ok (.imm v)
      | none => .error (.immediateOutOfRange token)
    else .error (.invalidOperand mnemonic token .value)

end Token

/-- What overflows in eight bits is no index. -/
theorem Register.bind_parse?_byte (numeral : Text.isNumeral digits = true) :
    ((Width.byte.parse? digits).bind fun v => ofNat? v.toNat) =
      ofNat? (Text.placeValue digits) := by
  rw [Width.byte.parse?_of_numeral numeral, Width.checked]
  by_cases fits : Width.byte.Holds (Text.placeValue digits)
  · rw [if_pos fits]
    rfl
  · have large : ¬ Text.placeValue digits < 256 := by
      intro small
      apply fits
      exact ⟨Int.natCast_nonneg _, by simp only [Width.byte]; omega⟩
    rw [if_neg fits, ofNat?, dif_neg large]
    rfl

theorem Register.parse?_indexed (digits : Text) :
    parse? ('r' :: digits) = (Text.toNat? digits).bind ofNat? := by
  cases digits with
  | nil => rfl
  | cons c rest => rfl

theorem Register.parseInByte?_eq (token : Text) : parseInByte? token = parse? token := by
  by_cases lettered : token ∈ letters.map fun c => [c]
  · have all : ∀ token ∈ letters.map fun c => [c], parseInByte? token = parse? token := by decide
    exact all token lettered
  · have unlettered : (letters.map fun c => [c]).idxOf? token = none :=
      List.idxOf?_eq_none_iff.mpr lettered
    simp only [parseInByte?, unlettered]
    split
    · rename_i digits
      rw [parse?_indexed]
      by_cases numeral : Text.isNumeral digits = true
      · rw [if_pos numeral, bind_parse?_byte numeral, Text.toNat?_eq_placeValue numeral,
          Option.bind_some]
      · rw [if_neg numeral, Text.toNat?, if_neg numeral, Option.bind_none]
    · rename_i other
      unfold parse?
      split
      · rename_i c
        have alien : c ∉ letters := by
          intro own
          exact lettered (List.mem_map.mpr ⟨c, own, rfl⟩)
        rw [List.idxOf?_eq_none_iff.mpr alien, Option.bind_none]
      · exact absurd rfl (other _)
      · rfl

/-- What overflows in sixty-four bits is no value. -/
theorem filter_inRange_parse? (t : Text) :
    (Width.signed64.parse? t).filter inRange = (Text.toInt? t).filter inRange := by
  refine Width.filter_parse? (by decide) ?_ t
  intro v inside
  obtain ⟨below, above⟩ := inRange_eq_true_iff.mp inside
  constructor <;> simp only [Width.signed64] <;> omega

namespace Token

theorem isNumeral_unsigned_iff :
    Text.isNumeral (unsigned token) = true ↔ ∃ v, Text.DenotesInt token v := by
  unfold unsigned
  constructor
  · intro numeral
    split at numeral
    · obtain ⟨begun, all⟩ := Text.isNumeral_iff.mp numeral
      exact ⟨_, .negative ⟨begun, all, rfl⟩⟩
    · obtain ⟨begun, all⟩ := Text.isNumeral_iff.mp numeral
      exact ⟨_, .plain ⟨begun, all, rfl⟩⟩
  · rintro ⟨v, integer⟩
    cases integer with
    | negative numeral => exact Text.isNumeral_iff.mpr ⟨numeral.begun, numeral.digits⟩
    | plain numeral =>
      split
      · -- a sign is no digit
        have sign := numeral.digits '-' List.mem_cons_self
        cases sign
      · exact Text.isNumeral_iff.mpr ⟨numeral.begun, numeral.digits⟩

/-- A token with the shape of an integer has no plus sign. -/
theorem toInt?_of_denotesInt (integer : Text.DenotesInt token v) : Text.toInt? token = some v := by
  unfold Text.toInt?
  split
  · cases integer with
    | plain numeral =>
      have sign := numeral.digits '+' List.mem_cons_self
      cases sign
  · exact Text.toNegatableInt?_eq_some_iff.mpr integer

/-- **Overflow makes no difference**: values read in numbers of fixed width are the values, and what
    is refused there is refused for the same cause. -/
theorem valueInWidth_eq (mnemonic token : Text) :
    valueInWidth mnemonic token = value mnemonic token := by
  rcases value_cases token with ⟨r, names⟩ | ⟨v, integer⟩ | ⟨unnamed, shapeless⟩
  · rw [value_of_names names, valueInWidth, Register.parseInByte?_eq,
      Register.parse?_eq_some_iff.mpr names]
  · have unnamed := Register.parse?_eq_none_iff.mpr (Argument.not_names_of_denotesInt integer)
    have read : (Width.signed64.parse? token).filter inRange =
        if inRange v = true then some v else none := by
      rw [filter_inRange_parse?, toInt?_of_denotesInt integer]
      rfl
    rw [value_of_denotesInt integer, valueInWidth, Register.parseInByte?_eq, unnamed]
    simp only [isNumeral_unsigned_iff.mpr ⟨v, integer⟩, if_true, read]
    cases inRange v with
    | true => rfl
    | false => rfl
  · have shape : ¬ Text.isNumeral (unsigned token) = true := by
      intro numeral
      obtain ⟨v, integer⟩ := isNumeral_unsigned_iff.mp numeral
      exact shapeless v integer
    rw [value_of_shapeless unnamed shapeless, valueInWidth, Register.parseInByte?_eq,
      Register.parse?_eq_none_iff.mpr unnamed]
    exact if_neg shape

/-! ### Shapes and operands -/

-- a value is read without the labels, so any table of them will do
theorem value_eq_ok_iff {operand : Operand} :
    value mnemonic token = .ok operand ↔ Argument.Fits ⟨[]⟩ .value token (.value operand) := by
  rw [← OperandKind.read_succeeds_iff, OperandKind.read, map_succeeds_iff]
  constructor
  · intro h
    exact ⟨operand, h, rfl⟩
  · rintro ⟨_, h, ⟨⟩⟩
    exact h

theorem value_eq_error_iff {cause : DecodeCause} :
    value mnemonic token = .error cause ↔ Argument.Misfit ⟨[]⟩ mnemonic .value token cause := by
  rw [← OperandKind.read_fails_iff, OperandKind.read, map_fails_iff]

theorem value_eq_reg_iff : value mnemonic token = .ok (.reg r) ↔ Register.Names token r := by
  rw [value_eq_ok_iff]
  constructor
  · intro h
    cases h with
    | held names => exact names
  · intro names
    exact .held names

theorem value_eq_imm_iff :
    value mnemonic token = .ok (.imm v) ↔ IsInteger token v ∧ -2 ^ 31 ≤ v ∧ v ≤ 2 ^ 31 := by
  rw [value_eq_ok_iff, isInteger_iff, ← inRange_eq_true_iff]
  constructor
  · intro h
    cases h with
    | immediate integer within => exact ⟨integer, within⟩
  · rintro ⟨integer, within⟩
    exact .immediate integer within

theorem value_eq_outOfRange_iff :
    value mnemonic token = .error (.immediateOutOfRange token) ↔
      ∃ v, IsInteger token v ∧ (v < -2 ^ 31 ∨ 2 ^ 31 < v) := by
  have outside (v : Int) : (v < -2 ^ 31 ∨ 2 ^ 31 < v) ↔ inRange v = false := by
    rw [← Bool.not_eq_true, inRange_eq_true_iff, not_and_or, not_le, not_le]
  simp only [value_eq_error_iff, isInteger_iff, outside]
  constructor
  · intro h
    cases h with
    | range integer outside => exact ⟨_, integer, outside⟩
  · rintro ⟨v, integer, outside⟩
    exact .range integer outside

theorem value_eq_invalid_iff :
    value mnemonic token = .error (.invalidOperand mnemonic token .value) ↔
      (∀ n ≤ 255, ¬ IsRegister token n) ∧ ∀ v, ¬ IsInteger token v := by
  have unnamed : (∀ n ≤ 255, ¬ IsRegister token n) ↔ ∀ r, ¬ Register.Names token r := by
    constructor
    · intro other r names
      exact other r.index.val (Nat.le_of_lt_succ r.index.isLt) (isRegister_iff.mpr names)
    · intro other n small named
      obtain ⟨r, -, names⟩ := exists_names_iff.mpr ⟨named, small⟩
      exact other r names
  rw [value_eq_error_iff, unnamed]
  simp only [isInteger_iff]
  constructor
  · intro h
    cases h with
    | value other shapeless => exact ⟨other, shapeless⟩
  · rintro ⟨other, shapeless⟩
    exact .value other shapeless

/-- **What a token denotes where a value stands is told by its shape alone.**  It denotes a
    register exactly if it is the letter of one, or `r` and digits that come to an index up to 255.
    It denotes an immediate exactly if it is digits, with a minus sign in front or none, that come
    to a value within bounds.  It is refused as out of range exactly if it is such digits and what
    they come to is outside, and as no operand exactly if it has neither shape; there is no other
    refusal.  What an operand with a value within bounds is written as denotes that operand.  No
    token has both shapes, and numbers of fixed width do for all of this. -/
theorem operands_are_told_by_shape (mnemonic token : Text) :
    (∀ n, (∃ r : Register, r.index.val = n ∧ value mnemonic token = .ok (.reg r)) ↔
      IsRegister token n ∧ n ≤ 255) ∧
    (∀ v, value mnemonic token = .ok (.imm v) ↔
      IsInteger token v ∧ -2 ^ 31 ≤ v ∧ v ≤ 2 ^ 31) ∧
    (value mnemonic token = .error (.immediateOutOfRange token) ↔
      ∃ v, IsInteger token v ∧ (v < -2 ^ 31 ∨ 2 ^ 31 < v)) ∧
    (value mnemonic token = .error (.invalidOperand mnemonic token .value) ↔
      (∀ n ≤ 255, ¬ IsRegister token n) ∧ ∀ v, ¬ IsInteger token v) ∧
    (∀ cause, value mnemonic token = .error cause →
      cause = .immediateOutOfRange token ∨ cause = .invalidOperand mnemonic token .value) ∧
    (∀ operand : Operand, (∀ v, operand = .imm v → -2 ^ 31 ≤ v ∧ v ≤ 2 ^ 31) →
      value mnemonic operand.text = .ok operand) ∧
    (∀ n, IsRegister token n → ∀ v, ¬ IsInteger token v) ∧
    valueInWidth mnemonic token = value mnemonic token := by
  refine ⟨?_, fun v => value_eq_imm_iff, value_eq_outOfRange_iff, value_eq_invalid_iff, ?_, ?_, ?_,
    valueInWidth_eq mnemonic token⟩
  · intro n
    simp only [value_eq_reg_iff]
    exact exists_names_iff
  · intro cause fails
    cases value_eq_error_iff.mp fails with
    | range => exact .inl rfl
    | value => exact .inr rfl
  · intro operand within
    apply value_text
    intro v immediate
    exact inRange_eq_true_iff.mpr (within v immediate)
  · intro n named
    exact not_isInteger_of_isRegister named

/-- Leading zeros and a negative zero, an integer that does not fit in sixty-four bits, an index
    that does not fit in eight, a plus sign, and the least value as it is written. -/
theorem operands_are_told_by_shape_beyond_width :
    let push : Text := "push".toList
    (IsRegister "r0255".toList 255 ∧ 255 ≤ 255) ∧
    (IsInteger "-00".toList 0 ∧ (-2 ^ 31 : Int) ≤ 0 ∧ (0 : Int) ≤ 2 ^ 31) ∧
    (∃ v, IsInteger "-9223372036854775809".toList v ∧ (v < -2 ^ 31 ∨ 2 ^ 31 < v)) ∧
    ((∀ n ≤ 255, ¬ IsRegister "r256".toList n) ∧ ∀ v, ¬ IsInteger "r256".toList v) ∧
    ((∀ n ≤ 255, ¬ IsRegister "+5".toList n) ∧ ∀ v, ¬ IsInteger "+5".toList v) ∧
    (∀ v, Operand.imm (-2147483648) = .imm v → -2 ^ 31 ≤ v ∧ v ≤ 2 ^ 31) ∧
    value push (Operand.imm (-2147483648)).text = .ok (.imm (-2147483648)) := by
  intro push
  have index := (operands_are_told_by_shape push "r0255".toList).1 255
  have zero := (operands_are_told_by_shape push "-00".toList).2.1 0
  have long := (operands_are_told_by_shape push "-9223372036854775809".toList).2.2.1
  have large := (operands_are_told_by_shape push "r256".toList).2.2.2.1
  have plus := (operands_are_told_by_shape push "+5".toList).2.2.2.1
  have written := (operands_are_told_by_shape push []).2.2.2.2.2.1 (.imm (-2147483648))
  have within : ∀ v, Operand.imm (-2147483648) = .imm v → -2 ^ 31 ≤ v ∧ v ≤ 2 ^ 31 := by
    rintro _ ⟨⟩
    decide
  exact ⟨index.mp ⟨⟨255⟩, rfl, rfl⟩, zero.mp rfl, long.mp rfl, large.mp rfl, plus.mp rfl, within,
    written within⟩

end Token

end Stepwise

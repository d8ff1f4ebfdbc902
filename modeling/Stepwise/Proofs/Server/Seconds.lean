/-
  Stepwise/Proofs/Server/Seconds.lean
  ===================================
  **Decimal seconds are exact to the nanosecond, wherever they are read.**

  A client asks for a pause in a directive, and the command line sets four times.  All of them read
  the same texts, and with the same result (`parse_iff`, `set_timeOption`).  A text of at most nine
  places below 2^22 seconds is read as what it spells, to the nanosecond, and no two texts change
  their order on the way (`decimal_seconds_are_exact`).
-/
import Stepwise.Protocol.Inbound
import Stepwise.Server.Options
import Stepwise.Proofs.Assembly.Opening
import Stepwise.Proofs.Number.Nearest

namespace Stepwise

/-! ### Words -/

namespace Text

/-- The first word begins with the first character that is not blank. -/
theorem head?_words (t : Text) : t.words.head?.bind List.head? = firstMark? t := by
  have plain {t : Text} (marks : ∀ c ∈ t, isBlank c = false) :
      (fields isBlank t).head?.bind List.head? = firstMark? t := by
    cases t with
    | nil => rfl
    | cons c t =>
      rw [fields_of_plain (List.cons_ne_nil c t) marks,
        firstMark?_cons_of_mark (marks c List.mem_cons_self)]
      rfl
  unfold words
  induction t using fields_induction isBlank with
  | plain t marks => exact plain marks
  | separated front c back marks blank ih =>
    rw [fields_append_separator blank, firstMark?_append, firstMark?_cons_of_blank blank, ← ih]
    cases front with
    | nil => rfl
    | cons d front =>
      rw [← plain marks, fields_of_plain (List.cons_ne_nil d front) marks]
      rfl

end Text

namespace Inbound

variable {m name argument t : Text} {d : Duration}

/-- The message asks for the pause that a text names. -/
def AsksFor (m t : Text) : Prop := ∃ name ∈ delayNames, m.words = [name, t]

theorem isDirective_of_words {rest : List Text} (named : name ∈ delayNames)
    (words : m.words = name :: rest) : isDirective m = true := by
  have first := Text.head?_words m
  rw [words] at first
  have at_sign : name.head? = some '@' := by
    have all : ∀ name ∈ delayNames, name.head? = some '@' := by decide
    exact all name named
  rw [isDirective, Text.head?_trim, ← first]
  simp [at_sign]

/-- **What a client asks for** is what the one argument of the directive is read as. -/
theorem parse_iff : parse m = .ok (.delay d) ↔ ∃ t, AsksFor m t ∧ Duration.parse? t = some d := by
  constructor
  · intro h
    simp only [parse] at h
    split at h
    · split at h
      · cases h
      · rename_i name arguments words
        simp only [parseDirective] at h
        split at h
        · cases h
        · rename_i known
          have named : name ∈ delayNames := by simpa using known
          split at h
          · cases h
          · rename_i few
            split at h
            · rename_i d' read
              cases h
              match arguments with
              | [] => cases read
              | [t] => exact ⟨t, ⟨name, named, words⟩, read⟩
              | t :: u :: more => exact absurd rfl (few t u more)
            · cases h
    · cases h
  · rintro ⟨t, ⟨name, named, words⟩, read⟩
    have known : delayNames.contains name = true := List.contains_iff_mem.mpr named
    simp only [parse, isDirective_of_words named words, if_true, words, parseDirective, known,
      Bool.not_true, Bool.false_eq_true, if_false, List.head?_cons, Option.getD_some, read]

/-- A text without blanks is the argument of the directive that it is put behind. -/
theorem asksFor_append (begun : t ≠ []) (plain : ∀ c ∈ t, Text.isBlank c = false) :
    AsksFor ("@d ".toList ++ t) t := by
  have words : Text.words ("@d".toList ++ ' ' :: t) = Text.words "@d".toList ++ Text.words t :=
    Text.fields_append_separator (by decide) _ _
  refine ⟨"@d".toList, List.mem_cons_self, words.trans ?_⟩
  rw [Text.words, Text.words, Text.fields_of_plain begun plain]
  rfl

end Inbound

namespace Server

namespace Options

open Session (Config)

variable {o : Options} {t : Text} {d : Duration} {places : Int} {v : ℚ}

/-- The options that take seconds, with what they set. -/
def timeOptions : List (Text × (Config → Duration → Config)) :=
  [("--delay".toList, fun c d => { c with delay := d }),
   ("--max-delay".toList, fun c d => { c with maxDelay := d }),
   ("--input-timeout".toList, fun c d => { c with inputTimeout := d }),
   ("--run-timeout".toList, fun c d => { c with maxRunTime := d })]

theorem set_timeOption {option : Text × (Config → Duration → Config)} (h : option ∈ timeOptions)
    (o : Options) (t : Text) :
    o.set option.1 t =
      (seconds option.1 t).map fun d => { o with session := option.2 o.session d } := by
  simp only [timeOptions, List.mem_cons, List.not_mem_nil, or_false] at h
  rcases h with rfl | rfl | rfl | rfl <;> rfl

theorem timeOption_injective {option : Text × (Config → Duration → Config)}
    (h : option ∈ timeOptions) {c : Config} {d d' : Duration}
    (same : option.2 c d = option.2 c d') : d = d' := by
  simp only [timeOptions, List.mem_cons, List.not_mem_nil, or_false] at h
  rcases h with rfl | rfl | rfl | rfl <;> simpa using same

/-- Somewhere the text is accepted, as a duration: in the directive of a client, or as the value of
    an option. -/
inductive Accepts : Text → Duration → Prop where
  | directive {m t : Text} {d : Duration} (asks : Inbound.AsksFor m t)
      (parses : Inbound.parse m = .ok (.delay d)) : Accepts t d
  | option {o : Options} {option : Text × (Config → Duration → Config)} {t : Text} {d : Duration}
      (takes : option ∈ timeOptions)
      (sets : o.set option.1 t = .ok { o with session := option.2 o.session d }) : Accepts t d

theorem read_of_accepts (h : Accepts t d) : Duration.parse? t = some d := by
  cases h with
  | directive asks parses =>
    obtain ⟨name, -, words⟩ := asks
    obtain ⟨t', ⟨name', -, words'⟩, read⟩ := Inbound.parse_iff.mp parses
    cases words.symm.trans words'
    exact read
  | @option o option _ _ takes sets =>
    rw [set_timeOption takes, seconds] at sets
    cases read : Duration.parse? t with
    | none =>
      rw [read] at sets
      cases sets
    | some d' =>
      rw [read] at sets
      have same : option.2 o.session d' = option.2 o.session d :=
        congrArg Options.session (Except.ok.inj sets)
      rw [timeOption_injective takes same]

/-- At most nine places make a whole number of nanoseconds. -/
theorem exists_nanos {decimal : Decimal} (places : -decimal.exponent ≤ 9)
    (nonneg : 0 ≤ decimal.value) : ∃ n : Nat, (n : ℚ) = decimal.value * 10 ^ 9 := by
  refine ⟨decimal.coefficient * 10 ^ (decimal.exponent + 9).toNat, ?_⟩
  rw [← abs_of_nonneg nonneg, Decimal.abs_value, mul_assoc, Nat.cast_mul, Nat.cast_pow,
    ← zpow_natCast, Int.toNat_of_nonneg (by omega), Nat.cast_ofNat,
    zpow_add₀ (by norm_num : (10 : ℚ) ≠ 0)]
  norm_num

/-- **Decimal seconds are exact to the nanosecond.**  A text that spells a number of seconds from 0
    up to 2^22, in at most nine places, is read as that number, in a directive and as the value of
    every option that takes seconds.  Every text that is accepted anywhere spells a number, and of
    two such texts the one with the smaller number never makes the longer duration. -/
theorem decimal_seconds_are_exact :
    (∀ (t : Text) (places : Int) (v : ℚ), Decimal.Spells t places v → places ≤ 9 → 0 ≤ v →
      v < 2 ^ 22 → ∃ n : Nat, (n : ℚ) = v * 10 ^ 9 ∧
        Inbound.parse ("@d ".toList ++ t) = .ok (.delay n) ∧
        ∀ option ∈ timeOptions, ∀ o : Options,
          o.set option.1 t = .ok { o with session := option.2 o.session n }) ∧
    (∀ (t : Text) (d : Duration), Accepts t d → ∃ places v, Decimal.Spells t places v) ∧
    ∀ (t t' : Text) (d d' : Duration) (places places' : Int) (v v' : ℚ), Accepts t d →
      Accepts t' d' → Decimal.Spells t places v → Decimal.Spells t' places' v' → v ≤ v' →
        d ≤ d' := by
  refine ⟨?_, ?_, ?_⟩
  · intro t places v spelled few nonneg lt
    obtain ⟨decimal, read, rfl, rfl⟩ := Decimal.spells_iff.mp spelled
    obtain ⟨n, nanos⟩ := exists_nanos few nonneg
    have duration : Duration.parse? t = some n := by
      rw [Duration.parse?, read, Option.bind_some]
      exact Duration.ofDecimal?_exact (nanos.trans (by norm_num [Duration.perSecond])).symm lt
    obtain ⟨begun, plain⟩ := spelled.word
    refine ⟨n, nanos, Inbound.parse_iff.mpr ⟨t, Inbound.asksFor_append begun plain, duration⟩, ?_⟩
    intro option takes o
    rw [set_timeOption takes, seconds, duration]
    rfl
  · intro t d accepted
    obtain ⟨decimal, read, -⟩ := Option.bind_eq_some_iff.mp (read_of_accepts accepted)
    exact ⟨_, _, Decimal.spells_of_parse? read⟩
  · intro t t' d d' places places' v v' accepted accepted' spelled spelled' le
    obtain ⟨decimal, read, -, rfl⟩ := Decimal.spells_iff.mp spelled
    obtain ⟨decimal', read', -, rfl⟩ := Decimal.spells_iff.mp spelled'
    have duration := read_of_accepts accepted
    have duration' := read_of_accepts accepted'
    rw [Duration.parse?, read, Option.bind_some] at duration
    rw [Duration.parse?, read', Option.bind_some] at duration'
    exact Duration.ofDecimal?_mono duration duration' le

/-- The last nanosecond below 2^22 seconds is read exactly, and a text that spells a little less is
    not read as more. -/
theorem decimal_seconds_are_exact_below_limit :
    Inbound.parse "@d 4194303.999999999".toList = .ok (.delay 4194303999999999) ∧
      (∀ option ∈ timeOptions, ∀ o : Options, o.set option.1 "4194303.999999999".toList =
        .ok { o with session := option.2 o.session 4194303999999999 }) ∧
      ∀ d, Accepts "4194303.9999999989".toList d → d ≤ 4194303999999999 := by
  have digits (t : Text) (all : t.all Char.isDigit = true) : Decimal.IsDigits t :=
    List.all_eq_true.mp all
  have limit := Decimal.spells_of_digits (digits "4194303".toList rfl)
    (digits "999999999".toList rfl) (by decide)
  have less := Decimal.spells_of_digits (digits "4194303".toList rfl)
    (digits "9999999989".toList rfl) (by decide)
  have whole : Decimal.count "4194303".toList = 4194303 := by decide
  have nines : Decimal.count "999999999".toList = 999999999 := by decide
  have fewer : Decimal.count "9999999989".toList = 9999999989 := by decide
  have nine : "999999999".toList.length = 9 := by decide
  have ten : "9999999989".toList.length = 10 := by decide
  rw [whole, nines, nine] at limit
  rw [whole, fewer, ten] at less
  obtain ⟨reads, -, ordered⟩ := decimal_seconds_are_exact
  obtain ⟨n, nanos, parses, sets⟩ := reads _ _ _ limit (by decide) (by norm_num) (by norm_num)
  have value : n = 4194303999999999 := by
    have shown : (n : ℚ) = 4194303999999999 := by
      rw [nanos]
      norm_num
    exact_mod_cast shown
  subst value
  refine ⟨parses, sets, fun d accepted => ?_⟩
  have accepted' : Accepts "4194303.999999999".toList 4194303999999999 :=
    .option (o := {}) List.mem_cons_self (sets _ List.mem_cons_self _)
  exact ordered _ _ _ _ _ _ _ _ accepted accepted' less limit (by norm_num)

end Options

end Server

end Stepwise

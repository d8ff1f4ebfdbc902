/-
  Stepwise/Proofs/Server/CommandLine.lean
  =======================================
  **The order of options on a command line does not matter.**

  An option that is accepted makes one setting (`Setting`), whatever was set before it, and a
  setting changes its own place in the options and no other (`slot_apply`).  So what stands in a
  place after all options is what the last option for it has set (`slot_setAll`), and the options
  are what stands in their places.  What is computed from two places, the pause held against the
  longest pause, is computed when all options have been read.

  A command line is taken as the sequence of its options (`options`), after the address.  Accepted
  command lines with the same last occurrence of every flag give the same settings, and the options
  of one can stand in any other order, if no flag is given twice (`order_does_not_matter`).
-/
import Stepwise.Server.Options
import Stepwise.Proofs.Succeeds
import Mathlib.Data.List.Nodup
import Mathlib.Data.List.Perm.Basic

namespace Stepwise

namespace Server

namespace Options

open Session (Config)

/-! ### Settings -/

/-- What an option is for. -/
inductive Kind where
  | delay
  | maxDelay
  | inputTimeout
  | maxRunTime
  | maxStack
  | maxSteps
  | maxFrame
  | logLevel
  | seedInput
deriving DecidableEq

/-- The flag of an option. -/
def Kind.flag : Kind → Text
  | delay => "--delay".toList
  | maxDelay => "--max-delay".toList
  | inputTimeout => "--input-timeout".toList
  | maxRunTime => "--run-timeout".toList
  | maxStack => "--max-stack".toList
  | maxSteps => "--max-steps".toList
  | maxFrame => "--max-frame".toList
  | logLevel => "--log-level".toList
  | seedInput => seedFlag

/-- What an option sets. -/
inductive Setting where
  | delay (d : Duration)
  | maxDelay (d : Duration)
  | inputTimeout (d : Duration)
  | maxRunTime (d : Duration)
  | maxStack (n : Nat)
  | maxSteps (limit : Option Nat)
  | maxFrame (n : Nat)
  | logLevel (l : Log.Level)
  | seedInput (asked : Bool)

namespace Setting

/-- What the option is for that sets this. -/
def kind : Setting → Kind
  | delay _ => .delay
  | maxDelay _ => .maxDelay
  | inputTimeout _ => .inputTimeout
  | maxRunTime _ => .maxRunTime
  | maxStack _ => .maxStack
  | maxSteps _ => .maxSteps
  | maxFrame _ => .maxFrame
  | logLevel _ => .logLevel
  | seedInput _ => .seedInput

/-- The options with this set. -/
def apply (o : Options) : Setting → Options
  | delay d => { o with session := { o.session with delay := d } }
  | maxDelay d => { o with session := { o.session with maxDelay := d } }
  | inputTimeout d => { o with session := { o.session with inputTimeout := d } }
  | maxRunTime d => { o with session := { o.session with maxRunTime := d } }
  | maxStack n => o.withLimits fun l => { l with maxStack := n }
  | maxSteps limit => o.withLimits fun l => { l with maxSteps := limit }
  | maxFrame n => { o with maxFrame := n }
  | logLevel l => { o with logLevel := l }
  | seedInput asked => { o with session := { o.session with seedInput := asked } }

end Setting

/-- What an option of a kind sets with a value.  The one without a value takes none. -/
def Kind.read (k : Kind) (value : Text) : Except OptionsError Setting :=
  match k with
  | .delay => (seconds k.flag value).map .delay
  | .maxDelay => (seconds k.flag value).map .maxDelay
  | .inputTimeout => (seconds k.flag value).map .inputTimeout
  | .maxRunTime => (seconds k.flag value).map .maxRunTime
  | .maxStack => (number k.flag value).map .maxStack
  | .maxSteps => (number k.flag value).map fun n => .maxSteps (if n = 0 then none else some n)
  | .maxFrame => (number k.flag value).map .maxFrame
  | .logLevel => (level value).map .logLevel
  | .seedInput => .error (.unexpectedArgument k.flag)

/-- What stands in the place that is set by options of a kind. -/
def slot (o : Options) : Kind → Setting
  | .delay => .delay o.session.delay
  | .maxDelay => .maxDelay o.session.maxDelay
  | .inputTimeout => .inputTimeout o.session.inputTimeout
  | .maxRunTime => .maxRunTime o.session.maxRunTime
  | .maxStack => .maxStack o.session.limits.maxStack
  | .maxSteps => .maxSteps o.session.limits.maxSteps
  | .maxFrame => .maxFrame o.maxFrame
  | .logLevel => .logLevel o.logLevel
  | .seedInput => .seedInput o.session.seedInput

/-- The options with settings made one after the other. -/
def setAll (o : Options) (settings : List Setting) : Options :=
  settings.foldl (fun o s => s.apply o) o

/-! ### The sequence of options -/

/-- An option as it stands on a command line. -/
inductive Choice where
  /-- The flag that takes no value. -/
  | seed
  | given (flag value : Text) (valued : flag ≠ seedFlag)

namespace Choice

/-- The flag that is given. -/
def flag : Choice → Text
  | seed => seedFlag
  | given flag _ _ => flag

/-- The value that is given, if the flag takes one. -/
def value? : Choice → Option Text
  | seed => none
  | given _ value _ => some value

/-- The arguments that the option takes up. -/
def words : Choice → List Text
  | seed => [seedFlag]
  | given flag value _ => [flag, value]

/-- The option is accepted, and makes a setting. -/
inductive Makes : Choice → Setting → Prop where
  | seed : Makes seed (.seedInput true)
  | given {flag value : Text} {valued : flag ≠ seedFlag} {s : Setting} (k : Kind)
      (named : k.flag = flag) (reads : k.read value = .ok s) : Makes (given flag value valued) s

end Choice

/-- Arguments as a sequence of options.  A last flag without the value that it takes is none. -/
def choices : List Text → List Choice
  | [] => []
  | flag :: rest =>
    if valued : flag ≠ seedFlag then
      match rest with
      | [] => []
      | value :: rest => .given flag value valued :: choices rest
    else .seed :: choices rest

/-- The address in front of the options, if there is one. -/
def listenWord? : List Text → Option Text
  | [] => none
  | first :: _ => if first.head? = some '-' then none else some first

/-- The arguments behind the address. -/
def optionWords : List Text → List Text
  | [] => []
  | first :: rest => if first.head? = some '-' then first :: rest else rest

/-- The options of a command line, in order. -/
def options (arguments : List Text) : List Choice := choices (optionWords arguments)

/-- The last occurrence of a flag. -/
def last? (flag : Text) (cs : List Choice) : Option Choice :=
  cs.reverse.find? fun c => c.flag = flag

/-- The last value of a flag is a duration, or the flag is not given and the default counts. -/
def Asks (cs : List Choice) (flag : Text) (default d : Duration) : Prop :=
  match last? flag cs with
  | none => d = default
  | some c => c.value?.bind Duration.parse? = some d

open Choice (Makes)

variable {o o' : Options} {s : Setting} {settings : List Setting} {k : Kind} {flag value : Text}
  {c : Choice} {cs cs' : List Choice} {words : List Text}

/-! ### Single options -/

theorem Kind.flag_injective {k k' : Kind} (same : k.flag = k'.flag) : k = k' := by
  let kinds : List Kind := [.delay, .maxDelay, .inputTimeout, .maxRunTime, .maxStack, .maxSteps,
    .maxFrame, .logLevel, .seedInput]
  have found (k : Kind) : kinds.find? (fun k' => k'.flag = k.flag) = some k := by
    cases k <;> decide +kernel
  exact Option.some.inj ((found k).symm.trans (same ▸ found k'))

/-- **What an option sets does not depend on what was set before.** -/
theorem set_flag (o : Options) (k : Kind) (value : Text) :
    o.set k.flag value = (k.read value).map fun s => s.apply o := by
  cases k <;> simp only [Kind.read, map_map] <;> rfl

theorem set_of_unknown (o : Options) (value : Text) (unknown : ∀ k : Kind, k.flag ≠ flag) :
    o.set flag value = .error (.unexpectedArgument flag) := by
  have other (k : Kind) : ¬ flag = k.flag := fun same => unknown k same.symm
  calc o.set flag value = _ := if_neg (other .delay)
    _ = _ := if_neg (other .maxDelay)
    _ = _ := if_neg (other .inputTimeout)
    _ = _ := if_neg (other .maxRunTime)
    _ = _ := if_neg (other .maxStack)
    _ = _ := if_neg (other .maxSteps)
    _ = _ := if_neg (other .maxFrame)
    _ = _ := if_neg (other .logLevel)

theorem kind_of_read (h : k.read value = .ok s) : s.kind = k := by
  cases k with
  | seedInput => cases h
  | _ =>
    obtain ⟨_, -, rfl⟩ := map_succeeds_iff.mp h
    rfl

/-! ### Places -/

/-- **A setting changes its own place and no other.** -/
theorem slot_apply (s : Setting) (o : Options) (k : Kind) :
    (s.apply o).slot k = if s.kind = k then s else o.slot k := by
  cases s <;> cases k <;> rfl

/-- The options are what stands in their places; two things are set by no option. -/
theorem eq_of_slots (slots : ∀ k, o.slot k = o'.slot k) (listen : o.listen = o'.listen)
    (queue : o.session.inputQueue = o'.session.inputQueue) : o = o' := by
  have delay := Setting.delay.inj (slots .delay)
  have maxDelay := Setting.maxDelay.inj (slots .maxDelay)
  have inputTimeout := Setting.inputTimeout.inj (slots .inputTimeout)
  have maxRunTime := Setting.maxRunTime.inj (slots .maxRunTime)
  have maxStack := Setting.maxStack.inj (slots .maxStack)
  have maxSteps := Setting.maxSteps.inj (slots .maxSteps)
  have maxFrame := Setting.maxFrame.inj (slots .maxFrame)
  have logLevel := Setting.logLevel.inj (slots .logLevel)
  have seedInput := Setting.seedInput.inj (slots .seedInput)
  obtain ⟨_, _, _, _, _, _, _, ⟨_, _⟩, _, _⟩ := o
  obtain ⟨_, _, _, _, _, _, _, ⟨_, _⟩, _, _⟩ := o'
  simp only at *
  subst_vars
  rfl

/-- **The last setting of a kind stands.** -/
theorem slot_setAll (o : Options) (settings : List Setting) (k : Kind) :
    (o.setAll settings).slot k =
      (settings.reverse.find? fun s => s.kind = k).getD (o.slot k) := by
  induction settings generalizing o with
  | nil => rfl
  | cons s settings ih =>
    have rest : (o.setAll (s :: settings)) = (s.apply o).setAll settings := rfl
    rw [rest, ih, List.reverse_cons, List.find?_append, slot_apply]
    cases settings.reverse.find? fun s => s.kind = k with
    | some later => rfl
    | none =>
      by_cases same : s.kind = k <;> simp [same]

theorem setAll_frame (o : Options) (settings : List Setting) :
    (o.setAll settings).listen = o.listen ∧
      (o.setAll settings).session.inputQueue = o.session.inputQueue := by
  induction settings generalizing o with
  | nil => exact ⟨rfl, rfl⟩
  | cons s settings ih =>
    obtain ⟨listen, queue⟩ := ih (s.apply o)
    refine ⟨listen.trans ?_, queue.trans ?_⟩ <;> cases s <;> rfl

/-! ### Sequences of options -/

theorem flag_of_makes (makes : Makes c s) : c.flag = s.kind.flag := by
  cases makes with
  | seed => rfl
  | given k named reads => rw [kind_of_read reads, named, Choice.flag]

theorem makes_unique {s' : Setting} (makes : Makes c s) (makes' : Makes c s') : s = s' := by
  cases makes with
  | seed =>
    cases makes'
    rfl
  | given k named reads =>
    cases makes' with
    | given k' named' reads' =>
      obtain rfl := Kind.flag_injective (named.trans named'.symm)
      exact Except.ok.inj (reads.symm.trans reads')

theorem choices_seed (words : List Text) :
    choices (seedFlag :: words) = .seed :: choices words := by
  rw [choices, dif_neg (by simp)]

theorem choices_given (valued : flag ≠ seedFlag) (value : Text) (words : List Text) :
    choices (flag :: value :: words) = .given flag value valued :: choices words := by
  rw [choices, dif_pos valued]

theorem choices_words (cs : List Choice) : choices (cs.flatMap Choice.words) = cs := by
  induction cs with
  | nil => rfl
  | cons c cs ih =>
    cases c with
    | seed => exact (choices_seed _).trans (congrArg _ ih)
    | given flag value valued => exact (choices_given valued value _).trans (congrArg _ ih)

theorem makes_of_set (valued : flag ≠ seedFlag) (h : o.set flag value = .ok o') :
    ∃ s, Makes (.given flag value valued) s ∧ o' = s.apply o := by
  by_cases known : ∃ k : Kind, k.flag = flag
  · obtain ⟨k, rfl⟩ := known
    rw [set_flag] at h
    obtain ⟨s, reads, rfl⟩ := map_succeeds_iff.mp h
    exact ⟨s, .given k rfl reads, rfl⟩
  · rw [set_of_unknown o value fun k named => known ⟨k, named⟩] at h
    cases h

/-- **What reading options does**: every one of them is accepted, and makes its setting. -/
theorem makes_of_readAll (h : o.readAll words = .ok o') :
    words = (choices words).flatMap Choice.words ∧
      ∃ settings, List.Forall₂ Makes (choices words) settings ∧ o' = o.setAll settings := by
  fun_induction readAll o words with
  | case1 o =>
    cases h
    exact ⟨rfl, [], .nil, rfl⟩
  | case2 o rest ih =>
    obtain ⟨same, settings, makes, rfl⟩ := ih h
    rw [choices_seed]
    exact ⟨congrArg _ same, _, .cons .seed makes, rfl⟩
  | case3 => cases h
  | case4 => cases h
  | case5 o flag valued value rest o₁ sets ih =>
    obtain ⟨s, made, rfl⟩ := makes_of_set valued sets
    obtain ⟨same, settings, makes, rfl⟩ := ih h
    rw [choices_given valued]
    exact ⟨congrArg _ (congrArg _ same), _, .cons made makes, rfl⟩

theorem readAll_of_makes (makes : List.Forall₂ Makes cs settings) (o : Options) :
    o.readAll (cs.flatMap Choice.words) = .ok (o.setAll settings) := by
  induction makes generalizing o with
  | nil => rfl
  | @cons c s cs settings made makes ih =>
    cases made with
    | seed =>
      rw [List.flatMap_cons, Choice.words, List.singleton_append]
      unfold readAll
      simp only [if_true]
      exact ih _
    | @given flag value valued _ k named reads =>
      have sets : o.set flag value = .ok (s.apply o) := by
        rw [← named, set_flag, reads]
        rfl
      rw [List.flatMap_cons, Choice.words, List.cons_append, List.singleton_append]
      unfold readAll
      simp only [if_neg valued, sets]
      exact ih _

/-- The last setting of a kind is the one of the last option of that kind. -/
theorem last_setting (makes : List.Forall₂ Makes cs settings) (k : Kind) :
    Option.Rel Makes (last? k.flag cs) (settings.reverse.find? fun s => s.kind = k) := by
  induction makes with
  | nil => exact .none
  | @cons c s cs settings made makes ih =>
    have named : c.flag = k.flag ↔ s.kind = k := by
      rw [flag_of_makes made]
      exact ⟨Kind.flag_injective, fun same => same ▸ rfl⟩
    have last : last? k.flag (c :: cs) =
        (last? k.flag cs).or ([c].find? fun c => c.flag = k.flag) := by
      rw [last?, List.reverse_cons, List.find?_append, last?]
    rw [last, List.reverse_cons, List.find?_append]
    generalize last? k.flag cs = later at ih
    generalize settings.reverse.find? (fun s => s.kind = k) = later' at ih
    cases ih with
    | some made => exact .some made
    | none =>
      by_cases same : s.kind = k
      · simpa [named, same] using made
      · simp [named, same]

/-- **What stands in a place** is what the last option for it has set, if there is one. -/
theorem stands_of_makes (makes : List.Forall₂ Makes cs settings) (o : Options) (k : Kind) :
    (last? k.flag cs = none ∧ (o.setAll settings).slot k = o.slot k) ∨
      ∃ c, last? k.flag cs = some c ∧ Makes c ((o.setAll settings).slot k) := by
  have made := last_setting makes k
  rw [slot_setAll]
  generalize settings.reverse.find? (fun s => s.kind = k) = found at made
  generalize last? k.flag cs = last at made
  cases made with
  | none => exact .inl ⟨rfl, rfl⟩
  | some made => exact .inr ⟨_, rfl, made⟩

/-- **The last occurrence of every flag decides.** -/
theorem setAll_congr {settings' : List Setting} (makes : List.Forall₂ Makes cs settings)
    (makes' : List.Forall₂ Makes cs' settings') (last : ∀ flag, last? flag cs' = last? flag cs)
    (o : Options) : o.setAll settings' = o.setAll settings := by
  obtain ⟨listen, queue⟩ := setAll_frame o settings
  obtain ⟨listen', queue'⟩ := setAll_frame o settings'
  refine eq_of_slots (fun k => ?_) (listen'.trans listen.symm) (queue'.trans queue.symm)
  have stands' := stands_of_makes makes' o k
  rw [last] at stands'
  rcases stands_of_makes makes o k with ⟨none, stands⟩ | ⟨c, some, made⟩
  · rcases stands' with ⟨-, stands'⟩ | ⟨c', some', -⟩
    · rw [stands, stands']
    · cases none.symm.trans some'
  · rcases stands' with ⟨none', -⟩ | ⟨c', some', made'⟩
    · cases some.symm.trans none'
    · cases some.symm.trans some'
      exact makes_unique made' made

theorem last?_eq_some_iff (distinct : (cs.map Choice.flag).Nodup) :
    last? flag cs = some c ↔ c ∈ cs ∧ c.flag = flag := by
  constructor
  · intro found
    exact ⟨List.mem_reverse.mp (List.mem_of_find?_eq_some found),
      by simpa using List.find?_some found⟩
  · rintro ⟨listed, named⟩
    cases found : last? flag cs with
    | none =>
      have none := List.find?_eq_none.mp found c (List.mem_reverse.mpr listed)
      simp [named] at none
    | some c' =>
      have listed' := List.mem_reverse.mp (List.mem_of_find?_eq_some found)
      have named' : c'.flag = flag := by simpa using List.find?_some found
      exact congrArg some
        (List.inj_on_of_nodup_map distinct listed' listed (named'.trans named.symm))

/-- No order of distinct flags changes what occurs last. -/
theorem last?_perm (distinct : (cs.map Choice.flag).Nodup) (perm : cs'.Perm cs) (flag : Text) :
    last? flag cs' = last? flag cs := by
  have distinct' : (cs'.map Choice.flag).Nodup := (perm.map _).nodup_iff.mpr distinct
  refine Option.ext fun c => ?_
  rw [last?_eq_some_iff distinct', last?_eq_some_iff distinct, perm.mem_iff]

/-! ### Whole command lines -/

variable {arguments : List Text} {environment : Option Text}

/-- The settings with the address that a word names. -/
def listening (o : Options) : Option Text → Except OptionsError Options
  | none => .ok o
  | some word =>
    match Address.parse? word with
    | some a => .ok { o with listen := a }
    | none => .error (.invalidAddress word)

/-- The settings before any option has been read. -/
def start (environment word? : Option Text) : Except OptionsError Options :=
  withEnvironment {} environment >>= fun o => o.listening word?

theorem readAddress_eq (o : Options) (arguments : List Text) :
    o.readAddress arguments =
      (o.listening (listenWord? arguments)).map fun o => (o, optionWords arguments) := by
  cases arguments with
  | nil => rfl
  | cons first rest =>
    by_cases dash : first.head? = some '-'
    · simp only [readAddress, listenWord?, optionWords, if_pos dash]
      rfl
    · simp only [readAddress, listenWord?, optionWords, if_neg dash, listening]
      cases Address.parse? first <;> rfl

theorem ofArguments_eq (arguments : List Text) (environment : Option Text) :
    ofArguments arguments environment =
      start environment (listenWord? arguments) >>= fun o =>
        (o.readAll (optionWords arguments)).map clamped := by
  simp only [ofArguments, start, readAddress_eq]
  cases withEnvironment {} environment with
  | error e => rfl
  | ok o =>
    simp only [bind, Except.bind]
    cases o.listening (listenWord? arguments) <;> rfl

theorem words_eq (arguments : List Text) :
    arguments = (listenWord? arguments).toList ++ optionWords arguments := by
  cases arguments with
  | nil => rfl
  | cons first rest =>
    simp only [listenWord?, optionWords]
    split <;> rfl

/-- **What accepting a command line comes to.** -/
theorem made_of_accepted (accepted : ofArguments arguments environment = .ok o) :
    ∃ base settings, start environment (listenWord? arguments) = .ok base ∧
      optionWords arguments = (options arguments).flatMap Choice.words ∧
      List.Forall₂ Makes (options arguments) settings ∧ o = (base.setAll settings).clamped := by
  rw [ofArguments_eq] at accepted
  obtain ⟨base, starts, accepted⟩ := bind_succeeds_iff.mp accepted
  obtain ⟨o₁, reads, rfl⟩ := map_succeeds_iff.mp accepted
  obtain ⟨same, settings, makes, rfl⟩ := makes_of_readAll reads
  exact ⟨base, settings, starts, same, makes, rfl⟩

theorem Kind.head?_flag (k : Kind) : k.flag.head? = some '-' := by cases k <;> rfl

/-- Options begin with a dash, and are not taken for an address. -/
theorem parts_of_makes {word? : Option Text} (makes : List.Forall₂ Makes cs settings)
    (plain : ∀ word ∈ word?, word.head? ≠ some '-') :
    listenWord? (word?.toList ++ cs.flatMap Choice.words) = word? ∧
      optionWords (word?.toList ++ cs.flatMap Choice.words) = cs.flatMap Choice.words := by
  cases word? with
  | some word =>
    have plain := plain word rfl
    exact ⟨if_neg plain, if_neg plain⟩
  | none =>
    cases makes with
    | nil => exact ⟨rfl, rfl⟩
    | @cons c s cs settings made makes =>
      have dash : c.flag.head? = some '-' := by rw [flag_of_makes made, Kind.head?_flag]
      have first : ∃ rest, (c :: cs).flatMap Choice.words = c.flag :: rest := by
        cases c <;> exact ⟨_, rfl⟩
      obtain ⟨rest, words⟩ := first
      rw [words]
      exact ⟨if_pos dash, if_pos dash⟩

theorem accepted_of_makes {word? : Option Text} {base : Options}
    (starts : start environment word? = .ok base) (makes : List.Forall₂ Makes cs settings)
    (plain : ∀ word ∈ word?, word.head? ≠ some '-') :
    ofArguments (word?.toList ++ cs.flatMap Choice.words) environment =
      .ok (base.setAll settings).clamped := by
  obtain ⟨address, words⟩ := parts_of_makes makes plain
  rw [ofArguments_eq, address, words]
  exact bind_succeeds_iff.mpr ⟨base, starts,
    map_succeeds_iff.mpr ⟨_, readAll_of_makes makes base, rfl⟩⟩

theorem not_dash_of_listenWord? {word : Text} (h : word ∈ listenWord? arguments) :
    word.head? ≠ some '-' := by
  cases arguments with
  | nil => cases h
  | cons first rest =>
    simp only [listenWord?] at h
    split at h
    · cases h
    · rename_i plain
      cases h
      exact plain

/-- Neither the environment nor the address sets anything about sessions. -/
theorem session_of_start {word? : Option Text} (starts : start environment word? = .ok o) :
    o.session = {} := by
  obtain ⟨o₁, named, listens⟩ := bind_succeeds_iff.mp starts
  have first : o₁.session = {} := by
    cases environment with
    | none =>
      cases named
      rfl
    | some value =>
      obtain ⟨l, -, rfl⟩ := map_succeeds_iff.mp named
      rfl
  rw [← first]
  cases word? with
  | none =>
    cases listens
    rfl
  | some word =>
    simp only [listening] at listens
    split at listens
    · cases listens
      rfl
    · cases listens

/-- What an option that takes seconds leaves in its place. -/
theorem asks_of_makes {mk : Duration → Setting} {d d' : Duration}
    (makes : List.Forall₂ Makes cs settings) (injective : ∀ d d', mk d = mk d' → d = d')
    (reads : ∀ value, k.read value = (seconds k.flag value).map mk) (before : o.slot k = mk d)
    (after : (o.setAll settings).slot k = mk d') : Asks cs k.flag d d' := by
  unfold Asks
  rcases stands_of_makes makes o k with ⟨none, stands⟩ | ⟨c, last, made⟩
  · rw [none]
    exact injective _ _ (after.symm.trans (stands.trans before))
  · have named : c.flag = k.flag := by simpa using List.find?_some last
    rw [last]
    rw [after] at made
    generalize set : mk d' = s at made
    cases made with
    | seed =>
      -- the flag that takes no value would have to be read as seconds
      obtain rfl : k = .seedInput := Kind.flag_injective named.symm
      have refused := reads []
      rw [seconds] at refused
      split at refused <;> cases refused
    | @given flag value _ _ k' named' read =>
      obtain rfl := Kind.flag_injective (named'.trans named)
      rw [reads] at read
      obtain ⟨d'', parsed, same⟩ := map_succeeds_iff.mp read
      obtain rfl := injective _ _ (set.trans same.symm)
      rw [seconds] at parsed
      split at parsed
      · cases parsed
        assumption
      · cases parsed

/-- The longest pause is the one that was last asked for. -/
theorem asks_maxDelay (accepted : ofArguments arguments environment = .ok o) :
    Asks (options arguments) "--max-delay".toList ({} : Config).maxDelay o.session.maxDelay := by
  obtain ⟨base, settings, starts, -, makes, rfl⟩ := made_of_accepted accepted
  have default : base.slot .maxDelay = .maxDelay ({} : Config).maxDelay := by
    rw [slot, session_of_start starts]
  exact asks_of_makes makes (fun _ _ => Setting.maxDelay.inj) (fun _ => rfl) default rfl

/-- A limit of steps that a command line sets leaves room for a step. -/
theorem maxSteps_of_accepted (accepted : ofArguments arguments environment = .ok o) :
    o.session.limits.maxSteps ≠ some 0 := by
  obtain ⟨base, settings, starts, -, makes, rfl⟩ := made_of_accepted accepted
  intro spent
  have spent : (base.setAll settings).slot .maxSteps = .maxSteps (some 0) := congrArg _ spent
  rcases stands_of_makes makes base .maxSteps with ⟨-, stands⟩ | ⟨c, -, made⟩
  · rw [spent, slot, session_of_start starts] at stands
    cases stands
  · rw [spent] at made
    cases made with
    | given k named reads =>
      obtain rfl := kind_of_read reads
      obtain ⟨n, -, limit⟩ := map_succeeds_iff.mp reads
      obtain ⟨positive, zero⟩ := Option.ite_none_left_eq_some.mp (Setting.maxSteps.inj limit)
      exact positive (Option.some.inj zero)

/-- **The order of options does not matter.**  An accepted command line is an address, if there is
    one, with options behind it.  Every accepted command line with the same address and with the
    same last occurrence of each flag gives the same settings, in the same environment.  If no flag
    is given twice, the options are accepted in every other order too, and give the same settings.
    The pause of a session is what was last asked for, held against the longest pause that was last
    asked for, whichever stands first. -/
theorem order_does_not_matter (accepted : ofArguments arguments environment = .ok o) :
    arguments = (listenWord? arguments).toList ++ (options arguments).flatMap Choice.words ∧
    (∀ arguments' o', ofArguments arguments' environment = .ok o' →
      listenWord? arguments' = listenWord? arguments →
      (∀ flag, last? flag (options arguments') = last? flag (options arguments)) → o' = o) ∧
    (((options arguments).map Choice.flag).Nodup → ∀ cs : List Choice, cs.Perm (options arguments) →
      ofArguments ((listenWord? arguments).toList ++ cs.flatMap Choice.words) environment = .ok o) ∧
    o.session.delay ≤ o.session.maxDelay ∧
    ∃ delay : Duration,
      Asks (options arguments) "--delay".toList ({} : Config).delay delay ∧
      Asks (options arguments) "--max-delay".toList ({} : Config).maxDelay o.session.maxDelay ∧
      o.session.delay = min delay o.session.maxDelay := by
  obtain ⟨base, settings, starts, words, makes, rfl⟩ := made_of_accepted accepted
  refine ⟨?_, ?_, ?_, Nat.min_le_right _ _, (base.setAll settings).session.delay, ?_, ?_, rfl⟩
  · rw [← words]
    exact words_eq arguments
  · intro arguments' o' accepted' address last
    obtain ⟨base', settings', starts', -, makes', rfl⟩ := made_of_accepted accepted'
    rw [address, starts] at starts'
    cases starts'
    rw [setAll_congr makes makes' last]
  · intro distinct cs perm
    obtain ⟨settings', makes', -⟩ := List.perm_comp_forall₂ perm makes
    rw [← setAll_congr makes makes' (last?_perm distinct perm)]
    exact accepted_of_makes starts makes' fun word => not_dash_of_listenWord?
  · have default : base.slot .delay = .delay ({} : Config).delay := by
      rw [slot, session_of_start starts]
    exact asks_of_makes makes (fun _ _ => Setting.delay.inj) (fun _ => rfl) default rfl
  · exact asks_maxDelay accepted

/-- A pause of 20 seconds is held against 5 seconds, which are asked for behind it or before it. -/
theorem order_does_not_matter_clamped :
    let o : Options :=
      { session := { delay := .ofSeconds 5, maxDelay := .ofSeconds 5, seedInput := true } }
    ofArguments ["--delay".toList, "20".toList, "--seed-input".toList, "--max-delay".toList,
        "5".toList] none = .ok o ∧
      ofArguments ["--max-delay".toList, "5".toList, "--seed-input".toList, "--delay".toList,
        "20".toList] none = .ok o ∧
      o.session.delay ≤ o.session.maxDelay := by
  intro o
  have accepted : ofArguments ["--delay".toList, "20".toList, "--seed-input".toList,
      "--max-delay".toList, "5".toList] none = .ok o := by decide +kernel
  have delay : "--delay".toList ≠ seedFlag := by decide
  have maxDelay : "--max-delay".toList ≠ seedFlag := by decide
  let cs : List Choice :=
    [.given "--delay".toList "20".toList delay, .seed,
      .given "--max-delay".toList "5".toList maxDelay]
  have read : options (cs.flatMap Choice.words) = cs := choices_words cs
  obtain ⟨-, -, perm, le, -⟩ := order_does_not_matter accepted
  have distinct : ["--delay".toList, seedFlag, "--max-delay".toList].Nodup := by decide +kernel
  exact ⟨accepted, perm (read ▸ distinct) cs.reverse (read ▸ cs.reverse_perm), le⟩

end Options

end Server

end Stepwise

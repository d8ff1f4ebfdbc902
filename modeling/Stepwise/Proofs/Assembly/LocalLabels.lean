/-
  Stepwise/Proofs/Assembly/LocalLabels.lean
  =========================================
  **Local labels of macros: what a body line becomes when its macro is used.**

  A body line declares a local label in one of two ways, with a placeholder in front of the
  name or without one, and a use of the macro shows both in the same way, with its tag in
  front of the name (`instantiate_of_label`).  A line that declares nothing declares nothing
  when it is shown either (`declared?_instantiate`).  The tokens of a line are filled one by
  one, so the operands of the line that is shown are the filled operands of the body line
  (`code_instantiate`).

  Names of macros and labels are words here, of letters, digits and underscores.  A tag ends
  with the first hash, and the dash in it is the first one, so all that the tag was made of
  can be read off a label that begins with it (`tag_append_inj`).
-/
import Stepwise.Proofs.Assembly.Parts
import Stepwise.Proofs.Assembly.Shape
import Stepwise.Proofs.Assembly.Shown
import Stepwise.Proofs.Text.Placeholders

namespace Stepwise

namespace Expansion

open SourceLine

variable {name name' x x' y t rest word mnemonic : Text} {n n' number : Nat} {c : Char}

/-! ### Words -/

/-- The text consists of ASCII letters, digits and underscores. -/
def Word (t : Text) : Prop := ∀ c ∈ t, c.isAlphanum = true ∨ c = '_'

instance (t : Text) : Decidable (Word t) := inferInstanceAs (Decidable (∀ c ∈ t, _))

theorem Word.not_mem {mark : Char} (h : Word t) (alien : mark.isAlphanum = false ∧ mark ≠ '_') :
    mark ∉ t := by
  intro hc
  rcases h mark hc with letter | same
  · rw [alien.1] at letter
    cases letter
  · exact alien.2 same

/-- No letter or digit separates tokens. -/
theorem plain_of_isAlphanum (letter : c.isAlphanum = true) : Token.isSeparator c = false := by
  have all : ∀ n < 0x80, (Char.ofNat n).isAlphanum = true →
      Token.isSeparator (Char.ofNat n) = false := by
    decide +kernel
  have ascii : c.toNat < 0x80 := by
    change (decide (65 ≤ c.val ∧ c.val ≤ 90) || decide (97 ≤ c.val) && decide (c.val ≤ 122) ||
      decide (48 ≤ c.val) && decide (c.val ≤ 57)) = true at letter
    simp only [Bool.or_eq_true, Bool.and_eq_true, decide_eq_true_eq,
      UInt32.le_iff_toNat_le] at letter
    have ranges : (0x41 ≤ c.toNat ∧ c.toNat ≤ 0x5A ∨ 0x61 ≤ c.toNat ∧ c.toNat ≤ 0x7A) ∨
        0x30 ≤ c.toNat ∧ c.toNat ≤ 0x39 := letter
    omega
  have plain := all c.toNat ascii
  rw [Char.ofNat_toNat] at plain
  exact plain letter

theorem Word.plain (h : Word t) : ∀ c ∈ t, Token.isSeparator c = false := by
  intro c hc
  rcases h c hc with letter | rfl
  · exact plain_of_isAlphanum letter
  · decide

/-! ### Tags -/

@[simp] theorem mem_tag (name : Text) (n : Nat) : '#' ∈ tag name n := by simp [tag]

theorem plain_tag (h : Word name) (n : Nat) : ∀ c ∈ tag name n, Token.isSeparator c = false := by
  have digits : ∀ c ∈ Text.ofNat n, Token.isSeparator c = false := by
    intro c hc
    refine plain_of_isAlphanum ?_
    rw [Char.isAlphanum, Text.isDigit_of_mem_ofNat hc, Bool.or_true]
  simp only [tag, List.append_assoc, List.cons_append, List.forall_mem_append, List.forall_mem_cons]
  exact ⟨h.plain, by decide, digits, by decide, by simp⟩

theorem not_mem_tag {mark : Char} (h : Word name) (n : Nat)
    (alien : mark.isAlphanum = false ∧ mark ≠ '_') (other : mark ≠ '-' ∧ mark ≠ '#') :
    mark ∉ tag name n := by
  have digits : mark ∉ Text.ofNat n := by
    intro hc
    have letter := alien.1
    rw [Char.isAlphanum, Text.isDigit_of_mem_ofNat hc, Bool.or_true] at letter
    cases letter
  simp [tag, h.not_mem alien, digits, other]

/-- What stands in front of the first mark can be read off a text. -/
theorem append_mark_inj {mark : Char} {a b r s : Text} (ha : mark ∉ a) (hb : mark ∉ b)
    (h : a ++ mark :: r = b ++ mark :: s) : a = b ∧ r = s := by
  rcases List.append_eq_append_iff.mp h with ⟨more, rfl, eq⟩ | ⟨more, rfl, eq⟩
  · cases more with
    | nil => simpa using eq
    | cons c more =>
      cases eq
      simp at hb
  · cases more with
    | nil => simpa [eq_comm] using eq
    | cons c more =>
      cases eq
      simp at ha

/-- **A label that begins with a tag tells all that the tag was made of.** -/
theorem tag_append_inj (h : Word name) (h' : Word name')
    (same : tag name n ++ x = tag name' n' ++ x') : name = name' ∧ n = n' ∧ x = x' := by
  have digits (n : Nat) : '#' ∉ Text.ofNat n := fun hash => by
    cases Text.isDigit_of_mem_ofNat hash
  have dash {t : Text} (h : Word t) : '-' ∉ t := h.not_mem (by decide)
  simp only [tag, List.append_assoc, List.cons_append, List.nil_append] at same
  obtain ⟨names, numbers⟩ := append_mark_inj (dash h) (dash h') same
  obtain ⟨same, labels⟩ := append_mark_inj (digits n) (digits n') numbers
  exact ⟨names, Text.ofNat_injective same, labels⟩

theorem Word.ne_tag_append (h : Word x) : x ≠ tag name n ++ x' := by
  rintro rfl
  exact h.not_mem (by decide) (List.mem_append_left x' (mem_tag name n))

/-! ### First tokens -/

/-- What is behind a token, if anything, begins with a separator. -/
def Follows (rest : Text) : Prop := ∀ c, rest.head? = some c → Token.isSeparator c = true

theorem split_append (begun : word ≠ []) (plain : ∀ c ∈ word, Token.isSeparator c = false)
    (follows : Follows rest) : Token.split (word ++ rest) = word :: Token.split rest := by
  cases rest with
  | nil =>
    rw [List.append_nil, Token.split, Text.fields_of_plain begun plain]
    rfl
  | cons c rest =>
    have separates : Token.isSeparator c = true := follows c rfl
    rw [Token.split, Text.fields_append_separator separates, Text.fields_of_plain begun plain,
      Token.split, Text.fields_cons_separator separates]
    rfl

theorem exists_first_token (t : Text) :
    ∃ word rest, t = word ++ rest ∧ (∀ c ∈ word, Token.isSeparator c = false) ∧ Follows rest := by
  rcases Text.plain_or_separated Token.isSeparator t with all | ⟨front, c, back, rfl, plain, hc⟩
  · exact ⟨t, [], (List.append_nil t).symm, all, fun c hc => by cases hc⟩
  · refine ⟨front, c :: back, rfl, plain, ?_⟩
    rintro d hd
    cases hd
    exact hc

/-- A text that does not begin with a blank begins with its first word. -/
theorem exists_eq_append_of_words (first : ∀ c, t.head? = some c → Text.isBlank c = false)
    (h : t.words.head? = some word) : ∃ rest, t = word ++ rest ∧ Follows rest := by
  rcases Text.plain_or_separated Text.isBlank t with all | ⟨front, c, back, rfl, plain, hc⟩
  · cases t with
    | nil => cases h
    | cons c t =>
      rw [Text.words, Text.fields_of_plain (List.cons_ne_nil c t) all] at h
      cases h
      exact ⟨[], (List.append_nil _).symm, fun c hc => by cases hc⟩
  · cases front with
    | nil =>
      rw [first c rfl] at hc
      cases hc
    | cons d front =>
      rw [Text.words, Text.fields_append_separator hc,
        Text.fields_of_plain (List.cons_ne_nil d front) plain] at h
      cases h
      refine ⟨c :: back, rfl, ?_⟩
      rintro e he
      cases he
      rw [Token.isSeparator, hc, Bool.true_or]

/-! ### Lines with a label in front -/

section Label

variable (plain : ∀ c ∈ x, Token.isSeparator c = false) (follows : Follows rest)

include plain follows

theorem split_label : Token.split (x ++ ':' :: rest) = (x ++ [':']) :: Token.split rest := by
  rw [← List.singleton_append, ← List.append_assoc]
  refine split_append (by simp) ?_ follows
  exact List.forall_mem_append.mpr ⟨plain, by decide⟩

theorem declared?_label : declared? ⟨number, x ++ ':' :: rest⟩ = some x := by
  simp [declared?, split_label plain follows, Token.isDeclaration, Text.endsWith]

theorem code_label : code ⟨number, x ++ ':' :: rest⟩ = Token.split rest := by
  simp [code, split_label plain follows, Token.isDeclaration, Text.endsWith]

end Label

/-- The name of a label without the placeholder that may stand in front of it. -/
def localName : Text → Text
  | '{' :: '}' :: x => x
  | x => x

theorem localName_cases (y : Text) : y = '{' :: '}' :: localName y ∨ y = localName y := by
  unfold localName
  split
  · exact .inl rfl
  · exact .inr rfl

/-- The local label that a body line declares. -/
def localLabel? (t : Text) : Option Text := (declared? ⟨0, t⟩).map localName

theorem fill_of_word (h : Word x) (tag : Text) : fill tag x = x :=
  Text.replacePair_of_not_mem (h.not_mem (by decide))

theorem fill_append_of_not_mem {tag : Text} (unbraced : '{' ∉ t) (u : Text) :
    fill tag (t ++ u) = t ++ fill tag u :=
  Text.replacePair_append_of_not_mem unbraced u

theorem fill_append_placeholder (tag t u : Text) :
    fill tag (t ++ '{' :: '}' :: u) = fill tag t ++ tag ++ fill tag u :=
  Text.replacePair_append_pair (by decide) t u

theorem declaresPlainLabel_eq (h : t.words.head? = some word) :
    declaresPlainLabel t = (word.endsWith ':' && placeholders word == 0) := by
  cases words : t.words with
  | nil =>
    rw [words] at h
    cases h
  | cons first more =>
    rw [words] at h
    cases h
    simp only [declaresPlainLabel, words]

/-- **A use shows both ways of declaring a local label alike.** -/
theorem instantiate_of_label (h : Word name) (n : Nat) (local_ : Word (localName y))
    (first : (y ++ ':' :: rest).words.head? = some (y ++ [':'])) :
    instantiate (tag name n) (y ++ ':' :: rest) =
      tag name n ++ localName y ++ ':' :: fill (tag name n) rest := by
  have colon (t : Text) : fill (tag name n) (t ++ ':' :: rest) =
      fill (tag name n) t ++ ':' :: fill (tag name n) rest :=
    Text.replacePair_append_cons (by decide) (by decide) t rest
  rw [instantiate, declaresPlainLabel_eq first]
  rcases localName_cases y with braced | bare
  · have placeholder : placeholders (y ++ [':']) ≠ 0 := by
      rw [braced, placeholders]
      have count := Text.countPair_append_pair (by decide : '{' ≠ '}') [] (localName y ++ [':'])
      rw [List.nil_append] at count
      rw [List.cons_append, List.cons_append, count]
      omega
    have pair : fill (tag name n) y = tag name n ++ localName y := by
      have filled := fill_append_placeholder (tag name n) [] (localName y)
      rwa [List.nil_append, ← braced, fill_of_word local_] at filled
    simp only [beq_eq_false_iff_ne.mpr placeholder, Bool.and_false, Bool.false_eq_true, if_false]
    rw [colon, pair]
  · have word : Word y := bare ▸ local_
    have none : placeholders (y ++ [':']) = 0 := by
      refine Text.countPair_of_not_mem ?_
      rw [List.mem_append, not_or]
      exact ⟨word.not_mem (by decide), by decide⟩
    have unbraced : '{' ∉ tag name n := not_mem_tag h n (by decide) (by decide)
    have ends : (y ++ [':']).endsWith ':' = true := by simp [Text.endsWith]
    simp only [none, ends, beq_self_eq_true, Bool.and_self, if_true]
    rw [fill_append_of_not_mem unbraced, colon, ← bare, fill_of_word word, List.append_assoc]

/-! ### Lines without a label in front -/

theorem declared?_eq_none_iff {line : SourceLine} :
    line.declared? = none ↔
      ∀ first, (Token.split line.text).head? = some first → first.getLast? ≠ some ':' := by
  simp only [declared?]
  split
  · rename_i tokens
    simp [tokens]
  · rename_i first more tokens
    simp [tokens, Token.isDeclaration, Text.endsWith]

theorem code_of_undeclared {line : SourceLine} (silent : line.declared? = none) :
    line.code = Token.split line.text := by
  simp only [declared?] at silent
  simp only [code]
  split
  · rename_i tokens
    exact tokens.symm
  · rename_i first more tokens
    rw [tokens] at silent
    split
    · rename_i declares
      simp [declares] at silent
    · exact tokens.symm

theorem split_fill (h : Word name) (n : Nat) (t : Text) :
    Token.split (fill (tag name n) t) = (Token.split t).map (fill (tag name n)) :=
  Text.fields_replacePair (tag_ne_nil name n) (plain_tag h n) (by decide) (by decide) t

theorem getLast?_fill_ne (last : t.getLast? ≠ some ':') :
    (fill (tag name n) t).getLast? ≠ some ':' := by
  intro colon
  rcases Text.getLast?_replacePair (tag_ne_nil name n) colon with mark | same
  · rw [getLast?_tag] at mark
    cases mark
  · exact last same

theorem declared?_fill (h : Word name) (silent : declared? ⟨number, t⟩ = none) :
    declared? ⟨number, fill (tag name n) t⟩ = none := by
  rw [declared?_eq_none_iff] at silent ⊢
  intro first filled
  rw [split_fill h, List.head?_map, Option.map_eq_some_iff] at filled
  obtain ⟨token, here, rfl⟩ := filled
  exact getLast?_fill_ne (silent token here)

/-- A tag in front of a line becomes a part of its first token, or a token by itself. -/
theorem split_tag_append (h : Word name) (n : Nat) (t : Text) :
    ∃ more rest, Token.split (tag name n ++ t) = (tag name n ++ more) :: rest ∧
      (more = [] ∨ (Token.split t).head? = some more) := by
  obtain ⟨more, rest, rfl, plain, follows⟩ := exists_first_token t
  refine ⟨more, Token.split rest, ?_, ?_⟩
  · rw [← List.append_assoc]
    refine split_append (by simp [tag]) ?_ follows
    exact List.forall_mem_append.mpr ⟨plain_tag h n, plain⟩
  · by_cases begun : more = []
    · exact .inl begun
    · rw [split_append begun plain follows]
      exact .inr rfl

theorem declared?_tag_append (h : Word name) (silent : declared? ⟨number, t⟩ = none) :
    declared? ⟨number, tag name n ++ t⟩ = none := by
  obtain ⟨more, rest, tokens, part⟩ := split_tag_append h n t
  rw [declared?_eq_none_iff] at silent ⊢
  intro first here
  rw [tokens] at here
  cases here
  rw [List.getLast?_append, getLast?_tag]
  rcases part with rfl | head
  · simp
  · have last := silent more head
    cases ends : more.getLast? with
    | none => simp
    | some c =>
      rw [ends] at last
      exact last

/-- **What declares nothing declares nothing when it is shown.** -/
theorem declared?_instantiate (h : Word name) (silent : declared? ⟨number, t⟩ = none) :
    declared? ⟨number, instantiate (tag name n) t⟩ = none := by
  rw [instantiate]
  split
  · exact declared?_fill h (declared?_tag_append h silent)
  · exact declared?_fill h silent

/-! ### Body lines -/

/-- If the line declares a label, its first word does, and the name is that of a local label. -/
def LabelsFirst (t : Text) : Prop :=
  ∀ y ∈ declared? ⟨0, t⟩, Word (localName y) ∧ t.words.head? = some (y ++ [':'])

instance (t : Text) : Decidable (LabelsFirst t) :=
  inferInstanceAs (Decidable (∀ y ∈ declared? ⟨0, t⟩, _))

theorem Follows.fill {tag : Text} (follows : Follows rest) : Follows (fill tag rest) := by
  cases rest with
  | nil => exact follows
  | cons c rest =>
    have separates : Token.isSeparator c = true := follows c rfl
    have other : c ≠ '{' := by
      rintro rfl
      cases separates
    rw [Expansion.fill, Text.replacePair_cons other]
    rintro d hd
    cases hd
    exact separates

theorem not_isMnemonic_of_hash (hash : '#' ∈ word) : isMnemonic word = false := by
  have others : ∀ f ∈ Form.all, '#' ∉ f.mnemonic := by decide
  rw [isMnemonic, List.any_eq_false]
  intro f hf same
  exact others f hf (beq_iff_eq.mp same ▸ hash)

section Body

variable (h : Word name) (first : ∀ c, t.head? = some c → Text.isBlank c = false)
  (labels : LabelsFirst t)

include h first labels

theorem exists_label (n : Nat) (declares : declared? ⟨0, t⟩ = some y) :
    ∃ rest, Follows rest ∧ t = y ++ ':' :: rest ∧ Word (localName y) ∧
      instantiate (tag name n) t = tag name n ++ localName y ++ ':' :: fill (tag name n) rest := by
  obtain ⟨local_, word⟩ := labels y declares
  obtain ⟨rest, rfl, follows⟩ := exists_eq_append_of_words first word
  rw [List.append_assoc, List.singleton_append] at word ⊢
  exact ⟨rest, follows, rfl, local_, instantiate_of_label h n local_ word⟩

/-- **A use declares the local labels of the body behind its tag**, and no others. -/
theorem declared?_shown (n number : Nat) :
    declared? ⟨number, instantiate (tag name n) t⟩ = (localLabel? t).map (tag name n ++ ·) := by
  rw [localLabel?]
  cases declares : declared? ⟨0, t⟩ with
  | none => exact declared?_instantiate h declares
  | some y =>
    obtain ⟨rest, follows, -, local_, shown⟩ := exists_label h first labels n declares
    have plain : ∀ c ∈ tag name n ++ localName y, Token.isSeparator c = false :=
      List.forall_mem_append.mpr ⟨plain_tag h n, local_.plain⟩
    rw [shown, declared?_label plain follows.fill]
    rfl

/-- **A use fills the code of the body**, if what comes out is code at all. -/
theorem code_shown (n number : Nat)
    (known : ∀ mnemonic operands,
      code ⟨number, instantiate (tag name n) t⟩ = mnemonic :: operands →
        isMnemonic mnemonic = true) :
    code ⟨number, instantiate (tag name n) t⟩ = (code ⟨0, t⟩).map (fill (tag name n)) := by
  cases declares : declared? ⟨0, t⟩ with
  | none =>
    have silent : declared? ⟨number, instantiate (tag name n) t⟩ = none :=
      declared?_instantiate h declares
    have split := code_of_undeclared silent
    rw [code_of_undeclared declares, split]
    rw [instantiate] at split ⊢
    by_cases plain : declaresPlainLabel t = true
    · -- the tag would be a part of the mnemonic
      obtain ⟨more, rest, tokens, -⟩ := split_tag_append h n t
      simp only [plain, if_true, split_fill h, tokens, List.map_cons] at split
      have unknown : isMnemonic (fill (tag name n) (tag name n ++ more)) = false := by
        have unbraced : '{' ∉ tag name n := not_mem_tag h n (by decide) (by decide)
        rw [fill_append_of_not_mem unbraced]
        exact not_isMnemonic_of_hash (List.mem_append_left _ (mem_tag name n))
      rw [instantiate, if_pos plain] at known
      rw [known _ _ split] at unknown
      cases unknown
    · simp only [plain, Bool.false_eq_true, if_false, split_fill h]
  | some y =>
    obtain ⟨rest, follows, same, local_, shown⟩ := exists_label h first labels n declares
    have plain : ∀ c ∈ tag name n ++ localName y, Token.isSeparator c = false :=
      List.forall_mem_append.mpr ⟨plain_tag h n, local_.plain⟩
    have bare : ∀ c ∈ y, Token.isSeparator c = false := by
      rcases localName_cases y with braced | bare
      · rw [braced]
        refine List.forall_mem_cons.mpr ⟨by decide, ?_⟩
        exact List.forall_mem_cons.mpr ⟨by decide, local_.plain⟩
      · rw [bare]
        exact local_.plain
    rw [shown, code_label plain follows.fill, split_fill h, same, code_label bare follows]

end Body

end Expansion

end Stepwise

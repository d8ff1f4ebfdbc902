/-
  Stepwise/Proofs/Assembly/Echoes.lean
  ====================================
  **What messages about a source repeat of it.**

  Messages repeat names, tokens and whole lines.  All of these are taken from single lines:
  from a line of the source in its normal form, or from a line that expansion has put
  together of such lines and tags (`unbroken_of_feeds`).  So none of them holds a line feed,
  whatever the source is (`unbroken_of_decode`).
-/
import Stepwise.Proofs.Assembly.NormalForm
import Stepwise.Proofs.Assembly.Refusal
import Stepwise.Proofs.Protocol.SingleLine

namespace Stepwise

/-! ### Parts of lines -/

theorem Text.subset_of_mem_words {t word : Text} (h : word ∈ t.words) : word ⊆ t :=
  (of_mem_fields h).2.2.subset

theorem Token.subset_of_mem_split {line token : Text} (h : token ∈ split line) : token ⊆ line :=
  (Text.of_mem_fields h).2.2.subset

theorem Text.subset_of_dropEnd? {t rest : Text} {c : Char} (h : t.dropEnd? c = some rest) :
    rest ⊆ t := by
  simp only [dropEnd?] at h
  split at h
  · cases h
    exact List.dropLast_subset t
  · cases h

theorem Token.referredName_subset (token : Text) : referredName token ⊆ token := by
  unfold referredName
  split
  · rename_i rest
    cases closed : Text.dropEnd? '"' rest with
    | none => exact List.nil_subset _
    | some name => exact List.subset_cons_of_subset _ (Text.subset_of_dropEnd? closed)
  · exact List.Subset.refl _

namespace SourceLine

variable {line : SourceLine} {name : Text}

theorem declared?_subset (h : line.declared? = some name) : name ⊆ line.text := by
  simp only [declared?] at h
  split at h
  · cases h
  · rename_i first rest tokens
    split at h
    · cases h
      have here : first ∈ Token.split line.text := tokens ▸ List.mem_cons_self
      exact List.Subset.trans (List.dropLast_subset first) (Token.subset_of_mem_split here)
    · cases h

theorem code_subset (line : SourceLine) : line.code ⊆ Token.split line.text := by
  simp only [code]
  split
  · exact List.nil_subset _
  · rename_i first rest tokens
    rw [tokens]
    split
    · exact List.subset_cons_self _ _
    · exact List.Subset.refl _

end SourceLine

/-! ### The expander -/

namespace Expansion

variable {s s' : State} {line : SourceLine} {lines shown : List SourceLine} {texts : List Text}
  {name t : Text} {label : Option Text} {cause : DecodeCause}

theorem headerName?_subset (h : headerName? t = some name) : name ⊆ t := by
  simp only [headerName?] at h
  split at h
  · rename_i word own words
    split at h
    · cases h
      exact Text.subset_of_mem_words (words ▸ .tail _ (.head _))
    · cases h
  · cases h

theorem invokedName?_subset (h : invokedName? t = some name) : name ⊆ t := by
  rw [invokedName?, Option.filter_eq_some_iff] at h
  exact Text.subset_of_dropEnd? h.1

theorem invocation?_subset (h : invocation? t = some (label, name)) :
    (∀ l ∈ label, l ⊆ t) ∧ name ⊆ t := by
  simp only [invocation?] at h
  split at h
  · rename_i call words
    obtain ⟨own, called, same⟩ := Option.map_eq_some_iff.mp h
    cases same
    refine ⟨(fun l hl => by cases hl), ?_⟩
    exact List.Subset.trans (invokedName?_subset called)
      (Text.subset_of_mem_words (words ▸ .head _))
  · rename_i front call words
    split at h
    · obtain ⟨own, called, same⟩ := Option.map_eq_some_iff.mp h
      cases same
      refine ⟨?_, ?_⟩
      · rintro l hl
        cases hl
        exact Text.subset_of_mem_words (words ▸ .head _)
      · refine List.Subset.trans (invokedName?_subset called) ?_
        exact Text.subset_of_mem_words (words ▸ .tail _ (.head _))
    · cases h
  · cases h

/-- Names and body lines of macros are single lines. -/
structure State.Unbroken (s : State) : Prop where
  macros : ∀ m ∈ s.macros, '\n' ∉ m.name ∧ ∀ t ∈ m.body, '\n' ∉ t
  inside : ∀ d ∈ s.inside, '\n' ∉ d.name ∧ ∀ t ∈ d.body, '\n' ∉ t

theorem unbroken_instantiate (named : '\n' ∉ name) (n : Nat) (h : '\n' ∉ t) :
    '\n' ∉ instantiate (tag name n) t := by
  have tagged : '\n' ∉ tag name n := by
    refine List.not_mem_append (List.not_mem_append named ?_) (by decide)
    rw [List.mem_cons, not_or]
    exact ⟨by decide, Text.unbroken_ofNat n⟩
  intro feed
  rcases Text.mem_replacePair feed with feed | feed
  · exact tagged feed
  · split at feed
    · exact List.not_mem_append tagged h feed
    · exact h feed

/-- A line that is read leaves single lines behind, and single lines stand for it. -/
theorem unbroken_of_feeds (h : Feeds s line s' texts) (unbroken : '\n' ∉ line.text)
    (hs : s.Unbroken) : s'.Unbroken ∧ ∀ t ∈ texts, '\n' ∉ t := by
  cases h with
  | passes | blank => exact ⟨hs, by simp⟩
  | closes d inside closing =>
    refine ⟨⟨List.forall_mem_append.mpr ⟨hs.macros, ?_⟩, by simp⟩, by simp⟩
    exact List.forall_mem_singleton.mpr (hs.inside d inside)
  | collects d inside begun open_ sound =>
    obtain ⟨named, body⟩ := hs.inside d inside
    refine ⟨⟨hs.macros, ?_⟩, by simp⟩
    rintro d' hd
    cases hd
    exact ⟨named, List.forall_mem_append.mpr ⟨body, List.forall_mem_singleton.mpr unbroken⟩⟩
  | opens name outside starts header fresh =>
    refine ⟨⟨hs.macros, ?_⟩, by simp⟩
    rintro d hd
    cases hd
    exact ⟨fun feed => unbroken (headerName?_subset header feed), by simp⟩
  | shows => exact ⟨hs, List.forall_mem_singleton.mpr unbroken⟩
  | invokes label name m outside begun closed noDirective calls known =>
    have kept : (s.countUse name).Unbroken := by
      refine ⟨fun used hm => ?_, hs.inside⟩
      obtain ⟨m, known, rfl⟩ := List.mem_map.mp hm
      split
      · exact hs.macros m known
      · exact hs.macros m known
    obtain ⟨named, body⟩ := hs.macros m (List.mem_of_find?_eq_some known)
    refine ⟨kept, List.forall_mem_append.mpr ⟨?_, ?_⟩⟩
    · intro l hl feed
      exact unbroken ((invocation?_subset calls).1 l (Option.mem_toList.mp hl) feed)
    · intro shown hs
      obtain ⟨t, ht, rfl⟩ := List.mem_map.mp hs
      exact unbroken_instantiate named m.uses (body t ht)

theorem unbroken_of_feedAll (unbroken : ∀ line ∈ lines, '\n' ∉ line.text)
    (h : State.feedAll {} lines = .ok (s, shown)) :
    s.Unbroken ∧ ∀ line ∈ shown, '\n' ∉ line.text := by
  have start : State.Unbroken {} := ⟨by simp, by simp⟩
  exact feedAll_induction
    (fun s line s' texts hl hs feeds => unbroken_of_feeds feeds (unbroken line hl) hs) start h

theorem echoes_of_refuses (h : Refuses s line cause) (unbroken : '\n' ∉ line.text)
    (hs : s.Unbroken) : ∀ t ∈ cause.echoes, '\n' ∉ t := by
  have part {t : Text} (sub : t ⊆ line.text) : '\n' ∉ t := fun feed => unbroken (sub feed)
  cases h with
  | stray => simp [DecodeCause.echoes]
  | header => exact List.forall_mem_singleton.mpr unbroken
  | again name m outside starts header known =>
    exact List.forall_mem_singleton.mpr (part (headerName?_subset header))
  | unknown label name outside begun calls unknown =>
    exact List.forall_mem_singleton.mpr (part (invocation?_subset calls).2)
  | body d flaw inside begun open_ wrong =>
    have named := (hs.inside d inside).1
    simp only [bodyFlaw?] at wrong
    split at wrong
    · cases wrong
      simp [DecodeCause.echoes]
    split at wrong
    · cases wrong
      exact List.forall_mem_singleton.mpr named
    split at wrong
    · cases wrong
      simp [DecodeCause.echoes]
    · cases wrong

end Expansion

/-! ### The layout and the operands -/

variable {layout : Layout} {line : SourceLine} {lines : List SourceLine} {cause : DecodeCause}
  {mnemonic : Text} {tokens : List Text} {source : Text} {e : DecodeError}

theorem Layout.echoes_of_refuses (h : Layout.Refuses layout line cause)
    (unbroken : '\n' ∉ line.text) : ∀ t ∈ cause.echoes, '\n' ∉ t := by
  have part {t : Text} (sub : t ⊆ line.text) : '\n' ∉ t := fun feed => unbroken (sub feed)
  cases h with
  | full => simp [DecodeCause.echoes]
  | unnamable token first declares wrong =>
    have here : token ∈ Token.split line.text := List.mem_of_head? first
    exact List.forall_mem_singleton.mpr (part (Token.subset_of_mem_split here))
  | again name declares bound =>
    exact List.forall_mem_singleton.mpr (part (SourceLine.declared?_subset declares))
  | unknown mnemonic operands code unknown =>
    have here : mnemonic ∈ line.code := code ▸ List.mem_cons_self
    have sub := Token.subset_of_mem_split (SourceLine.code_subset line here)
    exact List.forall_mem_singleton.mpr (part sub)

theorem Instruction.echoes_of_refuses (h : Refuses mnemonic tokens cause)
    (head : '\n' ∉ mnemonic) (rest : ∀ t ∈ tokens, '\n' ∉ t) : ∀ t ∈ cause.echoes, '\n' ∉ t := by
  cases h with
  | mnemonic | arity => exact List.forall_mem_singleton.mpr head
  | operand token cause here wrong =>
    have unbroken := rest token here
    cases wrong with
    | kind expected =>
      exact List.forall_mem_cons.mpr ⟨head, List.forall_mem_singleton.mpr unbroken⟩
    | range => exact List.forall_mem_singleton.mpr unbroken
    | label =>
      refine List.forall_mem_singleton.mpr fun feed => unbroken ?_
      exact Token.referredName_subset token feed

theorem echoes_of_assemble (unbroken : ∀ line ∈ lines, '\n' ∉ line.text)
    (h : assemble lines = .error e) : ∀ t ∈ e.cause.echoes, '\n' ∉ t := by
  rcases assemble_fails h with
    ⟨front, line, back, rfl, -, -, refuses⟩ | ⟨-, line, hl, code, -, refuses⟩
  · exact Layout.echoes_of_refuses refuses (unbroken line (by simp))
  · have token {t : Text} (ht : t ∈ line.code) : '\n' ∉ t := by
      intro feed
      exact unbroken line hl (Token.subset_of_mem_split (line.code_subset ht) feed)
    cases written : line.code with
    | nil => simp [SourceLine.hasCode, written] at code
    | cons mnemonic operands =>
      rw [written] at token
      rw [SourceLine.mnemonic, SourceLine.operands, written] at refuses
      refine Instruction.echoes_of_refuses refuses (token List.mem_cons_self) ?_
      exact fun t ht => token (List.mem_cons_of_mem _ ht)

/-- **What a refusal repeats of a source is a single line**, each text of it. -/
theorem unbroken_of_decode (h : decode source = .error e) : ∀ t ∈ e.cause.echoes, '\n' ∉ t := by
  have unbroken : ∀ line ∈ SourceLine.ofSource source, '\n' ∉ line.text :=
    fun line hl => (SourceLine.normalForm_of_mem hl).unbroken
  rw [decode, bind_fails_iff] at h
  rcases h with expanding | ⟨lines, expands, assembling⟩
  · rcases Expansion.expand_fails expanding with
      ⟨front, line, back, s, shown, split, read, -, refuses⟩ | ⟨s, shown, d, read, inside, rfl⟩
    · rw [split] at unbroken
      obtain ⟨before, here⟩ := List.forall_mem_append.mp unbroken
      have hs := (Expansion.unbroken_of_feedAll before read).1
      exact Expansion.echoes_of_refuses refuses (here line List.mem_cons_self) hs
    · have hs := (Expansion.unbroken_of_feedAll unbroken read).1
      exact List.forall_mem_singleton.mpr (hs.inside d inside).1
  · simp only [expand, bind_succeeds_iff, Prod.exists] at expands
    obtain ⟨s, shown, read, -, -, same⟩ := expands
    cases same
    exact echoes_of_assemble (Expansion.unbroken_of_feedAll unbroken read).2 assembling

end Stepwise

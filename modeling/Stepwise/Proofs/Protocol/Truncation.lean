/-
  Stepwise/Proofs/Protocol/Truncation.lean
  ========================================
  **What is read off a stream that breaks off.**

  Wherever a stream of frames breaks off, some of its frames are whole, and of the next one
  the first bytes are left, or none (`BreaksOff`, `breaksOff_of_cut`).  The whole frames are
  read as their messages, and nothing else is.  What the last read makes of the rest depends
  on how much is left: behind a length the stream is broken, and otherwise it has ended
  (`read_of_part`).

  So the end of a stream is no proof that it is all there.  If it breaks off inside a length,
  the last read cannot be told from the one at the end of a whole stream
  (`ended_inside_length`).
-/
import Stepwise.Proofs.Protocol.Framing

namespace Stepwise

namespace Frame

/-- The stream breaks off in the frame of a message: what is in front of the frame is there, and
    of the frame itself only a part is. -/
inductive BreaksOff (messages before : List String) (part : List UInt8) : List UInt8 → Prop where
  | inside {m : String} {after : List String} {whole missing : List UInt8}
      (split : messages = before ++ m :: after) (written : encodeAll? before = some whole)
      (cut : encode? m = some (part ++ missing)) (lacks : missing ≠ []) :
      BreaksOff messages before part (whole ++ part)

variable {limit : Nat} {m : String} {messages before : List String}
  {bytes front part missing rest : List UInt8}

/-! ### Where a stream breaks off -/

/-- A stream that breaks off does so in the frame of one of its messages. -/
theorem breaksOff_of_cut (written : encodeAll? messages = some (front ++ missing))
    (lacks : missing ≠ []) : ∃ before part, BreaksOff messages before part front := by
  induction messages generalizing front with
  | nil =>
    have nothing : front ++ missing = [] := (Option.some.inj written).symm
    exact absurd (List.append_eq_nil_iff.mp nothing).2 lacks
  | cons m messages ih =>
    obtain ⟨frame, rest, encoded, others, same⟩ := encodeAll?_cons_eq_some_iff.mp written
    by_cases inside : front.length < frame.length
    · -- the first frame is not whole
      obtain ⟨more, rfl⟩ : ∃ more, frame = front ++ more := by
        have prefixes : front <+: frame := by
          apply List.prefix_of_prefix_length_le (List.prefix_append front missing)
          · rw [same]
            exact List.prefix_append frame rest
          · omega
        obtain ⟨more, eq⟩ := prefixes
        exact ⟨more, eq.symm⟩
      have lacksMore : more ≠ [] := by
        rintro rfl
        simp at inside
      have breaks : BreaksOff (m :: messages) [] front ([] ++ front) :=
        .inside rfl rfl encoded lacksMore
      exact ⟨[], front, breaks⟩
    · obtain ⟨back, rfl⟩ : ∃ back, front = frame ++ back := by
        have prefixes : frame <+: front := by
          apply List.prefix_of_prefix_length_le (List.prefix_append frame rest)
          · rw [← same]
            exact List.prefix_append front missing
          · omega
        obtain ⟨back, eq⟩ := prefixes
        exact ⟨back, eq.symm⟩
      rw [List.append_assoc, List.append_cancel_left_eq] at same
      obtain ⟨before, part, breaks⟩ := ih (same ▸ others)
      cases breaks with
      | inside split writtenBefore cut lacks =>
        rename_i next after whole missing
        refine ⟨m :: before, part, ?_⟩
        rw [← List.append_assoc]
        have longer : m :: messages = (m :: before) ++ next :: after := by
          rw [split, List.cons_append]
        refine .inside longer ?_ cut lacks
        exact encodeAll?_cons_eq_some_iff.mpr ⟨frame, whole, encoded, writtenBefore, rfl⟩

/-! ### The last read -/

/-- What is left of a frame reads as the end of the stream if it does not even hold the length. -/
theorem read_of_part (fits : (messageBytes m).length ≤ limit)
    (cut : encode? m = some (part ++ missing)) (lacks : missing ≠ []) :
    read limit part = (if part.length < lengthSize then .ended else .error .broken, []) := by
  obtain ⟨short, eq⟩ := encode?_eq_some_iff.mp cut
  have header := length_encodeLength lengthSize (messageBytes m).length
  by_cases inside : part.length < lengthSize
  · have few : (part.take lengthSize).length < lengthSize := by
      rw [List.length_take]
      omega
    rw [read, if_pos few, if_pos inside]
  · -- the length is there, and says how much of the message is missing
    have length : part.take lengthSize = encodeLength lengthSize (messageBytes m).length := by
      have taken := congrArg (List.take lengthSize) eq
      rwa [List.take_append_of_le_length (by omega), List.take_left' header] at taken
    have size : decodeLength (part.take lengthSize) = (messageBytes m).length := by
      rw [length]
      exact decodeLength_encodeLength short
    have whole : ¬ (part.take lengthSize).length < lengthSize := by
      rw [length, header]
      exact Nat.lt_irrefl _
    have incomplete : ((part.drop lengthSize).take (messageBytes m).length).length <
        (messageBytes m).length := by
      have lengths := congrArg List.length eq
      rw [List.length_append, List.length_append, header] at lengths
      have some := List.length_pos_iff.mpr lacks
      rw [List.length_take, List.length_drop]
      omega
    simp only [read, whole, if_false, size, Nat.not_lt.mpr fits, incomplete, if_true, inside]

/-! ### All reads -/

/-- All that is read, by what the first read has found. -/
def readOn (limit : Nat) : ReadResult × List UInt8 → Reading
  | (.message m, rest) => { readAll limit rest with messages := m :: (readAll limit rest).messages }
  | (.ended, rest) => ⟨[], none, rest⟩
  | (.error e, rest) => ⟨[], some e, rest⟩

theorem readAll_eq (limit : Nat) (bytes : List UInt8) :
    readAll limit bytes = readOn limit (read limit bytes) := by
  rw [readAll]
  split
  · rename_i m rest first
    exact (congrArg (readOn limit) first).symm
  · rename_i rest first
    exact (congrArg (readOn limit) first).symm
  · rename_i e rest first
    exact (congrArg (readOn limit) first).symm

theorem readAll_append (fits : ∀ m ∈ messages, (messageBytes m).length ≤ limit)
    (written : encodeAll? messages = some bytes) (rest : List UInt8) :
    readAll limit (bytes ++ rest) =
      ⟨messages ++ (readAll limit rest).messages, (readAll limit rest).error,
        (readAll limit rest).left⟩ := by
  induction messages generalizing bytes with
  | nil =>
    obtain rfl : [] = bytes := Option.some.inj written
    rfl
  | cons m messages ih =>
    obtain ⟨frame, others, encoded, encodedAll, rfl⟩ := encodeAll?_cons_eq_some_iff.mp written
    obtain ⟨first, fits⟩ := List.forall_mem_cons.mp fits
    have reads : read limit (frame ++ others ++ rest) = (.message m, others ++ rest) := by
      rw [List.append_assoc]
      exact read_frame first encoded (others ++ rest)
    rw [readAll_eq, reads, readOn, ih fits encodedAll]
    rfl

theorem BreaksOff.readAll (breaks : BreaksOff messages before part front)
    (fits : ∀ m ∈ messages, (messageBytes m).length ≤ limit) :
    readAll limit front =
      ⟨before, if part.length < lengthSize then none else some .broken, []⟩ := by
  obtain @⟨m, after, whole, missing, split, written, cut, lacks⟩ := breaks
  have fitsBefore : ∀ m ∈ before, (messageBytes m).length ≤ limit := by
    intro m hm
    exact fits m (split ▸ List.mem_append_left _ hm)
  have fitsNext : (messageBytes m).length ≤ limit :=
    fits m (split ▸ List.mem_append_right _ List.mem_cons_self)
  have last := read_of_part fitsNext cut lacks
  rw [readAll_append fitsBefore written]
  by_cases inside : part.length < lengthSize
  · rw [if_pos inside] at last
    rw [readAll_eq, last, readOn, if_pos inside, List.append_nil]
  · rw [if_neg inside] at last
    rw [readAll_eq, last, readOn, if_neg inside, List.append_nil]

/-- **Reading a stream that breaks off.**  A stream that is not all there breaks off in one of its
    frames.  What is read of it are the messages of the frames in front of that one; then it is
    taken for ended if it breaks off in front of the frame or inside its length, and for broken
    if it breaks off inside the message. -/
theorem cut_stream_read (limit : Nat) (messages : List String) (bytes : List UInt8)
    (fits : ∀ m ∈ messages, (messageBytes m).length ≤ limit)
    (written : encodeAll? messages = some bytes) :
    (∀ front, front <+: bytes → front ≠ bytes →
        ∃ before part, BreaksOff messages before part front) ∧
      ∀ before part front, BreaksOff messages before part front →
        readAll limit front =
          ⟨before, if part.length < lengthSize then none else some .broken, []⟩ := by
  constructor
  · rintro front ⟨missing, rfl⟩ proper
    apply breaksOff_of_cut written
    rintro rfl
    exact proper (List.append_nil front).symm
  · intro before part front breaks
    exact breaks.readAll fits

/-- Two frames, of which the second breaks off inside its message. -/
theorem cut_stream_read_inside_message :
    let messages := ["@f", "write"]
    let front : List UInt8 := [2, 0, 0, 0, 64, 102, 5, 0, 0, 0, 119, 114]
    encodeAll? messages = some (front ++ [105, 116, 101]) ∧
      readAll 5 front = ⟨["@f"], some .broken, []⟩ := by
  intro messages front
  have written : encodeAll? messages = some (front ++ [105, 116, 101]) := by decide +kernel
  have whole : encodeAll? ["@f"] = some [2, 0, 0, 0, 64, 102] := by decide +kernel
  have cut : encode? "write" = some ([5, 0, 0, 0, 119, 114] ++ [105, 116, 101]) := by
    decide +kernel
  refine ⟨written, ?_⟩
  have reads := (cut_stream_read 5 messages _ (by decide +kernel) written).2
  exact reads ["@f"] [5, 0, 0, 0, 119, 114] front (.inside rfl whole cut (by decide))

/-- The second of two frames breaks off inside its length, where no frame ends, and the stream is
    taken for ended. -/
theorem ended_inside_length :
    let messages := ["@f", "x"]
    let front : List UInt8 := [2, 0, 0, 0, 64, 102, 1, 0]
    encodeAll? messages = some (front ++ [0, 0, 120]) ∧
      (∀ n, encodeAll? (messages.take n) ≠ some front) ∧
      readAll 16 front = ⟨["@f"], none, []⟩ := by
  intro messages front
  have whole : encodeAll? ["@f"] = some [2, 0, 0, 0, 64, 102] := by decide +kernel
  have cut : encode? "x" = some ([1, 0] ++ [0, 0, 120]) := by decide +kernel
  have breaks : BreaksOff messages ["@f"] [1, 0] front := .inside rfl whole cut (by decide)
  refine ⟨by decide +kernel, ?_, breaks.readAll (by decide +kernel)⟩
  intro n
  rcases n with _ | _ | n
  · decide +kernel
  · decide +kernel
  · have all : messages.take (n + 2) = messages := List.take_of_length_le (by simp [messages])
    rw [all]
    decide +kernel

end Frame

end Stepwise

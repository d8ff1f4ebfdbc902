/-
  Stepwise/Proofs/Protocol/Framing.lean
  =====================================
  **Messages are read back from their frames, and from nothing else.**

  A read gives a message exactly if the stream begins with the frame of that message and the
  message is no longer than is allowed (`read_eq_message_iff`).  This one equivalence has both
  directions in it: what was written is read back, and what is read was written so, byte for
  byte.  A number of reads in a row follows by induction on the messages.

  It rests on two pairs of inverses.  Four bytes hold every length below `lengthLimit`, and
  every four bytes are those of a length; a message has one form in UTF-8, and bytes that are
  UTF-8 are those of a message.
-/
import Mathlib.Algebra.Order.Ring.Nat
import Mathlib.Data.List.Basic
import Stepwise.Protocol.Frame

namespace Stepwise

namespace Frame

variable {limit n size : Nat} {stream bytes frame rest more : List UInt8} {m : String}
  {messages : List String}

/-! ### Lengths -/

theorem length_encodeLength (size n : Nat) : (encodeLength size n).length = size := by
  induction size generalizing n with
  | zero => rfl
  | succ size ih => rw [encodeLength, List.length_cons, ih]

theorem decodeLength_encodeLength (fits : n < 256 ^ size) :
    decodeLength (encodeLength size n) = n := by
  induction size generalizing n with
  | zero =>
    have zero : n = 0 := Nat.lt_one_iff.mp fits
    rw [zero]
    rfl
  | succ size ih =>
    have shorter : n / 256 < 256 ^ size := by
      rw [Nat.div_lt_iff_lt_mul (by decide), ← Nat.pow_succ]
      exact fits
    have low : (UInt8.ofNat (n % 256)).toNat = n % 256 :=
      UInt8.toNat_ofNat_of_lt (Nat.mod_lt _ (by decide))
    rw [encodeLength, decodeLength, ih shorter, low]
    exact Nat.mod_add_div n 256

theorem encodeLength_decodeLength (bytes : List UInt8) :
    encodeLength bytes.length (decodeLength bytes) = bytes := by
  induction bytes with
  | nil => rfl
  | cons byte rest ih =>
    have small : byte.toNat < 256 := byte.toNat_lt
    have low : (byte.toNat + 256 * decodeLength rest) % 256 = byte.toNat := by omega
    have high : (byte.toNat + 256 * decodeLength rest) / 256 = decodeLength rest := by omega
    rw [List.length_cons, decodeLength, encodeLength, low, high, ih, UInt8.ofNat_toNat]

theorem decodeLength_lt (bytes : List UInt8) : decodeLength bytes < 256 ^ bytes.length := by
  induction bytes with
  | nil => exact Nat.one_pos
  | cons byte rest ih =>
    have small : byte.toNat < 256 := byte.toNat_lt
    rw [decodeLength, List.length_cons, Nat.pow_succ]
    omega

/-! ### Messages as bytes -/

theorem toList_loop_eq (bytes : ByteArray) (i : Nat) (done : List UInt8) :
    ByteArray.toList.loop bytes i done = done.reverse ++ bytes.data.toList.drop i := by
  fun_induction ByteArray.toList.loop bytes i done with
  | case1 i done inside ih =>
    have within : i < bytes.data.toList.length := inside
    have byte : bytes.get! i = bytes.data.toList[i] := by
      simp [ByteArray.get!, getElem!_pos bytes.data i inside]
    rw [ih, List.drop_eq_getElem_cons within, byte]
    simp
  | case2 i done outside =>
    have past : bytes.data.toList.length ≤ i := Nat.not_lt.mp outside
    rw [List.drop_eq_nil_of_le past, List.append_nil]

theorem messageBytes_eq (m : String) : messageBytes m = m.toByteArray.data.toList := by
  rw [messageBytes, String.toUTF8_eq_toByteArray, ByteArray.toList, toList_loop_eq]
  rfl

/-- Bytes make up a message exactly if they are its bytes. -/
theorem messageOfBytes?_eq_some_iff : messageOfBytes? bytes = some m ↔ bytes = messageBytes m := by
  rw [messageBytes_eq, messageOfBytes?, String.fromUTF8?]
  constructor
  · intro h
    split at h
    · rename_i valid
      cases h
      rfl
    · cases h
  · rintro rfl
    have same : ByteArray.mk m.toByteArray.data.toList.toArray = m.toByteArray := by
      rw [Array.toArray_toList]
    simp only [same, m.isValidUTF8, dif_pos]
    rfl

/-! ### Frames -/

theorem encode?_eq_some_iff :
    encode? m = some frame ↔ (messageBytes m).length < lengthLimit ∧
      frame = encodeLength lengthSize (messageBytes m).length ++ messageBytes m := by
  simp only [encode?]
  split
  · rename_i short
    simp [short, eq_comm]
  · rename_i long
    simp [long]

theorem encodeAll?_cons_eq_some_iff :
    encodeAll? (m :: messages) = some bytes ↔
      ∃ frame rest, encode? m = some frame ∧ encodeAll? messages = some rest ∧
        bytes = frame ++ rest := by
  rw [encodeAll?, List.mapM_cons]
  cases encode? m with
  | none => simp
  | some frame =>
    rw [encodeAll?]
    cases messages.mapM encode? with
    | none => simp
    | some frames => simp [eq_comm]

/-- What is written for a message is read back. -/
theorem read_frame (fits : (messageBytes m).length ≤ limit) (encoded : encode? m = some frame)
    (rest : List UInt8) : read limit (frame ++ rest) = (.message m, rest) := by
  obtain ⟨short, rfl⟩ := encode?_eq_some_iff.mp encoded
  have header := length_encodeLength lengthSize (messageBytes m).length
  have size : decodeLength (encodeLength lengthSize (messageBytes m).length) =
      (messageBytes m).length := decodeLength_encodeLength short
  have decoded : messageOfBytes? (messageBytes m) = some m := messageOfBytes?_eq_some_iff.mpr rfl
  rw [read, List.append_assoc, List.take_left' header, List.drop_left' header, header, size]
  simp only [Nat.lt_irrefl, if_false, Nat.not_lt.mpr fits, List.take_left, List.drop_left,
    decoded]

/-- What is read as a message was written for it. -/
theorem exists_frame_of_read (h : read limit stream = (.message m, rest)) :
    (messageBytes m).length ≤ limit ∧
      ∃ frame, encode? m = some frame ∧ stream = frame ++ rest := by
  simp only [read] at h
  split at h
  · cases h
  · rename_i whole
    have header : (stream.take lengthSize).length = lengthSize :=
      Nat.le_antisymm (List.length_take_le _ _) (Nat.not_lt.mp whole)
    have bounded := decodeLength_lt (stream.take lengthSize)
    have written := encodeLength_decodeLength (stream.take lengthSize)
    rw [header] at bounded written
    generalize decodeLength (stream.take lengthSize) = size at h bounded written
    split at h
    · cases h
    · rename_i allowed
      split at h
      · cases h
      · rename_i complete
        split at h
        · rename_i hm
          cases h
          have body := messageOfBytes?_eq_some_iff.mp hm
          have long : (messageBytes m).length = size := by
            rw [← body]
            exact Nat.le_antisymm (List.length_take_le _ _) (Nat.not_lt.mp complete)
          refine ⟨long ▸ Nat.not_lt.mp allowed, _,
            encode?_eq_some_iff.mpr ⟨long ▸ bounded, rfl⟩, ?_⟩
          rw [long, written, ← body, List.append_assoc, List.take_append_drop,
            List.take_append_drop]
        · cases h

/-- **A read gives a message exactly if the stream begins with its frame.** -/
theorem read_eq_message_iff :
    read limit stream = (.message m, rest) ↔
      (messageBytes m).length ≤ limit ∧
        ∃ frame, encode? m = some frame ∧ stream = frame ++ rest := by
  constructor
  · exact exists_frame_of_read
  · rintro ⟨fits, frame, encoded, rfl⟩
    exact read_frame fits encoded rest

/-! ### Several frames -/

/-- Read a number of times; with what each read gives comes what is left of the stream. -/
def readMany (limit : Nat) : Nat → List UInt8 → List ReadResult × List UInt8
  | 0, stream => ([], stream)
  | n + 1, stream =>
    let (result, rest) := read limit stream
    let (results, left) := readMany limit n rest
    (result :: results, left)

theorem readMany_eq_messages_iff {left : List UInt8} :
    readMany limit messages.length stream = (messages.map .message, left) ↔
      (∀ m ∈ messages, (messageBytes m).length ≤ limit) ∧
        ∃ bytes, encodeAll? messages = some bytes ∧ stream = bytes ++ left := by
  induction messages generalizing stream with
  | nil => simp [readMany, encodeAll?]
  | cons m messages ih =>
    have first : readMany limit (m :: messages).length stream =
          ((m :: messages).map .message, left) ↔
        ∃ rest, read limit stream = (.message m, rest) ∧
          readMany limit messages.length rest = (messages.map .message, left) := by
      simp only [List.length_cons, readMany, List.map_cons, Prod.mk.injEq, List.cons.injEq]
      constructor
      · rintro ⟨⟨result, results⟩, rfl⟩
        exact ⟨_, Prod.ext result rfl, Prod.ext results rfl⟩
      · rintro ⟨rest, result, results⟩
        rw [result, results]
        exact ⟨⟨rfl, rfl⟩, rfl⟩
    rw [first]
    simp only [read_eq_message_iff, ih, encodeAll?_cons_eq_some_iff, List.forall_mem_cons]
    constructor
    · rintro ⟨rest, ⟨fits, frame, encoded, rfl⟩, others, bytes, encodedAll, rfl⟩
      exact ⟨⟨fits, others⟩, _, ⟨frame, bytes, encoded, encodedAll, rfl⟩,
        (List.append_assoc ..).symm⟩
    · rintro ⟨⟨fits, others⟩, _, ⟨frame, bytes, encoded, encodedAll, rfl⟩, rfl⟩
      exact ⟨_, ⟨fits, frame, encoded, List.append_assoc ..⟩, others, bytes, encodedAll, rfl⟩

theorem exists_encodeAll? (short : ∀ m ∈ messages, (messageBytes m).length < lengthLimit) :
    ∃ bytes, encodeAll? messages = some bytes := by
  induction messages with
  | nil => exact ⟨[], rfl⟩
  | cons m messages ih =>
    obtain ⟨first, others⟩ := List.forall_mem_cons.mp short
    obtain ⟨rest, encodedAll⟩ := ih others
    exact ⟨_, encodeAll?_cons_eq_some_iff.mpr
      ⟨_, rest, encode?_eq_some_iff.mpr ⟨first, rfl⟩, encodedAll, rfl⟩⟩

/-- **Frames are read back as the messages that they were written for**, up to whatever follows
    them; and a stream that is read as messages up to its end is what is written for them. -/
theorem frames_round_trip (limit : Nat) (messages : List String) :
    ((∀ m ∈ messages, (messageBytes m).length ≤ limit ∧ (messageBytes m).length < lengthLimit) →
      ∃ bytes, encodeAll? messages = some bytes ∧
        ∀ more, readMany limit messages.length (bytes ++ more) = (messages.map .message, more)) ∧
    ∀ stream, readMany limit messages.length stream = (messages.map .message, []) →
      encodeAll? messages = some stream := by
  constructor
  · intro fits
    obtain ⟨bytes, encoded⟩ := exists_encodeAll? fun m hm => (fits m hm).2
    refine ⟨bytes, encoded, fun more => readMany_eq_messages_iff.mpr ?_⟩
    exact ⟨fun m hm => (fits m hm).1, bytes, encoded, rfl⟩
  · intro stream whole
    obtain ⟨-, bytes, encoded, rfl⟩ := readMany_eq_messages_iff.mp whole
    rw [encoded, List.append_nil]

/-- A message in three scripts, an empty one, and one that is as long as is allowed, in front of
    half a frame. -/
theorem frames_round_trip_longest_allowed :
    let messages := ["aé☃", "", "write\n"]
    ∃ bytes, encodeAll? messages = some bytes ∧ bytes.length = 24 ∧
      readMany 6 3 (bytes ++ [9, 0]) = (messages.map .message, [9, 0]) ∧
      readMany 6 3 bytes = (messages.map .message, []) := by
  intro messages
  obtain ⟨reads, written⟩ := frames_round_trip 6 messages
  obtain ⟨bytes, encoded, read⟩ := reads (by decide +kernel)
  have whole : readMany 6 3 bytes = (messages.map .message, []) := by
    have nothing := read []
    rwa [List.append_nil] at nothing
  refine ⟨bytes, written bytes whole, ?_, read [9, 0], whole⟩
  have size : (encodeAll? messages).map List.length = some 24 := by decide +kernel
  rw [encoded] at size
  exact Option.some.inj size

end Frame

end Stepwise

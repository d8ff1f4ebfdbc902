/-
  Stepwise/Protocol/Frame.lean
  ============================
  **Messages in a stream of bytes.**

  A frame is the length of a message in bytes, as four bytes with the lowest first,
  followed by the message in UTF-8.  Reading takes one frame off the front of a stream.
  A stream that ends before a length is complete has ended; one that ends inside a
  message is broken.
-/
import Stepwise.Text.Numeral

namespace Stepwise

namespace Frame

def lengthSize : Nat := 4

/-- Lengths from here on do not fit in four bytes. -/
def lengthLimit : Nat := 4294967296

/-- A number in a given number of bytes, the lowest first. -/
def encodeLength : Nat → Nat → List UInt8
  | 0, _ => []
  | size + 1, n => UInt8.ofNat (n % 256) :: encodeLength size (n / 256)

/-- The number that bytes make up, the lowest first. -/
def decodeLength : List UInt8 → Nat
  | [] => 0
  | byte :: rest => byte.toNat + 256 * decodeLength rest

/-! ### Writing -/

def messageBytes (message : String) : List UInt8 := message.toUTF8.toList

/-- The frame of a message; nothing for one whose length does not fit. -/
def encode? (message : String) : Option (List UInt8) :=
  let bytes := messageBytes message
  if bytes.length < lengthLimit then some (encodeLength lengthSize bytes.length ++ bytes)
  else none

def encodeAll? (messages : List String) : Option (List UInt8) :=
  (messages.mapM encode?).map List.flatten

/-! ### Reading -/

def messageOfBytes? (bytes : List UInt8) : Option String :=
  String.fromUTF8? (ByteArray.mk bytes.toArray)

inductive ReadError where
  | frameTooLarge (size limit : Nat)
  | invalidText
  | broken
deriving DecidableEq, Repr

namespace ReadError

def message : ReadError → Text
  | frameTooLarge size limit =>
    "frame of ".toList ++ Text.ofNat size ++ " bytes exceeds the ".toList ++ Text.ofNat limit
      ++ " byte limit".toList
  | invalidText => "frame is not valid UTF-8".toList
  | broken => "UnexpectedEof".toList

end ReadError

inductive ReadResult where
  | message (m : String)
  | ended
  | error (e : ReadError)
deriving DecidableEq, Repr

/-- Read one frame of at most a given size; with the result comes what is left of the
    stream. -/
def read (limit : Nat) (stream : List UInt8) : ReadResult × List UInt8 :=
  let header := stream.take lengthSize
  if header.length < lengthSize then (.ended, [])
  else
    let size := decodeLength header
    let rest := stream.drop lengthSize
    if limit < size then (.error (.frameTooLarge size limit), rest)
    else
      let body := rest.take size
      if body.length < size then (.error .broken, [])
      else
        match messageOfBytes? body with
        | some m => (.message m, rest.drop size)
        | none => (.error .invalidText, rest.drop size)

/-- What repeated reading gives: messages, why it stopped, and what is left. -/
structure Reading where
  messages : List String
  error : Option ReadError
  left : List UInt8
deriving DecidableEq, Repr

/-- Every read but the last takes a frame off the stream. -/
theorem read_lt {limit : Nat} {stream rest : List UInt8} {m : String}
    (h : read limit stream = (.message m, rest)) : rest.length < stream.length := by
  simp only [read] at h
  split at h
  · simp at h
  · next long =>
    split at h
    · simp at h
    · split at h
      · simp at h
      · split at h
        · simp only [Prod.mk.injEq] at h
          have := congrArg List.length h.2
          simp only [List.length_drop, List.length_take, lengthSize] at this long
          omega
        · simp at h

def readAll (limit : Nat) (stream : List UInt8) : Reading :=
  match h : read limit stream with
  | (.message m, rest) =>
    have := read_lt h
    let reading := readAll limit rest
    { reading with messages := m :: reading.messages }
  | (.ended, rest) => ⟨[], none, rest⟩
  | (.error e, rest) => ⟨[], some e, rest⟩
termination_by stream.length

end Frame

end Stepwise

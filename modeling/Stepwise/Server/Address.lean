/-
  Stepwise/Server/Address.lean
  ============================
  **Socket addresses: their text, and the one form in which they are shown.**

  An address is a host and a port.  A host of 32 bits is written as four decimal octets
  without leading zeros.  A host of 128 bits stands in brackets, with an optional scope
  behind a percent sign; it is eight groups of up to four hexadecimal digits, of which a
  run of zero groups may be left out at a double colon, and the last two may be written
  as a host of 32 bits.

  What is shown is canonical: lower-case digits without leading zeros, the first of the
  longest runs of at least two zero groups left out, a host that embeds one of 32 bits
  shown with its octets, and the scope only if it is not zero.
-/
import Stepwise.Text.Numeral

namespace Stepwise

inductive Address where
  | v4 (octets : List Nat) (port : Nat)
  /-- Eight groups of 16 bits, a port and a scope. -/
  | v6 (groups : List Nat) (port scope : Nat)
deriving DecidableEq, Repr

namespace Address

/-! ### Reading

    A reader takes what it can read off the front of a text and gives the rest. -/

def hexValue? (c : Char) : Option Nat :=
  if c.isDigit then some (c.toNat - '0'.toNat)
  else if 'a' ≤ c ∧ c ≤ 'f' then some (c.toNat - 'a'.toNat + 10)
  else if 'A' ≤ c ∧ c ≤ 'F' then some (c.toNat - 'A'.toNat + 10)
  else none

def readChar (c : Char) : Text → Option Text
  | [] => none
  | d :: rest => if d = c then some rest else none

/-- Read a decimal number of at most a given size: all digits there are, at least one. -/
def readNumber (limit : Nat) (t : Text) : Option (Nat × Text) :=
  let digits := t.takeWhile Char.isDigit
  match (Text.toNat? digits).filter (· ≤ limit) with
  | some n => some (n, t.drop digits.length)
  | none => none

/-- Read an octet: up to three digits, without a leading zero unless it is zero.  A
    fourth digit makes it no octet. -/
def readOctet (t : Text) : Option (Nat × Text) :=
  let digits := t.takeWhile Char.isDigit
  if 3 < digits.length ∨ (1 < digits.length ∧ digits.head? = some '0') then none
  else readNumber 255 t

def readOctets : Nat → Text → Option (List Nat × Text)
  | 0, t => some ([], t)
  | n + 1, t => do
    let (octet, t) ← readOctet (← readChar '.' t)
    let (octets, t) ← readOctets n t
    return (octet :: octets, t)

def readHost4 (t : Text) : Option (List Nat × Text) := do
  let (first, t) ← readOctet t
  let (others, t) ← readOctets 3 t
  return (first :: others, t)

/-- Read a group: one to four hexadecimal digits.  A fifth one makes it no group. -/
def readGroup (t : Text) : Option (Nat × Text) :=
  let digits := t.takeWhile fun c => (hexValue? c).isSome
  if digits.isEmpty ∨ 4 < digits.length then none
  else
    some (digits.foldl (fun n c => 16 * n + (hexValue? c).getD 0) 0, t.drop digits.length)

def readGroupSeparator (isFirst : Bool) (t : Text) : Option Text :=
  if isFirst then some t else readChar ':' t

def groupsOfOctets (octets : List Nat) : List Nat :=
  [256 * octets.getD 0 0 + octets.getD 1 0, 256 * octets.getD 2 0 + octets.getD 3 0]

/-- Read as many groups as can be read, up to a given number; `isFirst` says that no
    group stands before them.  Four octets count as two groups, and nothing may follow
    them. -/
def readGroups (isFirst : Bool) : Nat → Text → List Nat × Bool × Text
  | 0, t => ([], false, t)
  | n + 1, t =>
    let embedded :=
      if n = 0 then none else (readGroupSeparator isFirst t).bind readHost4
    match embedded with
    | some (octets, rest) => (groupsOfOctets octets, true, rest)
    | none =>
      match (readGroupSeparator isFirst t).bind readGroup with
      | none => ([], false, t)
      | some (group, rest) =>
        let (groups, octets, rest) := readGroups false n rest
        (group :: groups, octets, rest)

/-- Read a host of 128 bits: eight groups, or fewer with a double colon in place of at
    least one. -/
def readHost6 (t : Text) : Option (List Nat × Text) :=
  let (head, octets, rest) := readGroups true 8 t
  if head.length = 8 then some (head, rest)
  else if octets then none
  else do
    let rest ← readChar ':' (← readChar ':' rest)
    let (tail, _, rest) := readGroups true (8 - (head.length + 1)) rest
    return (head ++ List.replicate (8 - head.length - tail.length) 0 ++ tail, rest)

def maxScope : Nat := 4294967295

def maxPort : Nat := 65535

def readScope : Text → Option (Nat × Text)
  | '%' :: rest => readNumber maxScope rest
  | t => some (0, t)

def readPort (t : Text) : Option (Nat × Text) := (readChar ':' t).bind (readNumber maxPort)

def read4 (t : Text) : Option (Address × Text) := do
  let (octets, t) ← readHost4 t
  let (port, t) ← readPort t
  return (.v4 octets port, t)

def read6 (t : Text) : Option (Address × Text) := do
  let (groups, t) ← readHost6 (← readChar '[' t)
  let (scope, t) ← readScope t
  let (port, t) ← readPort (← readChar ']' t)
  return (.v6 groups port scope, t)

def whole? : Option (Address × Text) → Option Address
  | some (a, []) => some a
  | _ => none

def parse? (t : Text) : Option Address := (whole? (read4 t)).or (whole? (read6 t))

/-! ### Showing -/

def octetsText (octets : List Nat) : Text := Text.join ['.'] (octets.map Text.ofNat)

def groupsText (groups : List Nat) : Text := Text.join [':'] (groups.map Text.ofNatHex)

def leadingZeros (groups : List Nat) : Nat := (groups.takeWhile (· == 0)).length

/-- Position and length of the first of the longest runs of zeros, given the position of
    the first group. -/
def longestZeros (position : Nat) : List Nat → Nat × Nat
  | [] => (position, 0)
  | group :: rest =>
    let here := leadingZeros (group :: rest)
    let (later, length) := longestZeros (position + 1) rest
    if length ≤ here then (position, here) else (later, length)

/-- The octets of the host of 32 bits that a host embeds behind eighty zeros and sixteen
    ones. -/
def embeddedOctets? : List Nat → Option (List Nat)
  | [0, 0, 0, 0, 0, 0xFFFF, high, low] => some [high / 256, high % 256, low / 256, low % 256]
  | _ => none

def host6Text (groups : List Nat) : Text :=
  match embeddedOctets? groups with
  | some octets => "::ffff:".toList ++ octetsText octets
  | none =>
    let (position, length) := longestZeros 0 groups
    if 1 < length then
      groupsText (groups.take position) ++ "::".toList
        ++ groupsText (groups.drop (position + length))
    else groupsText groups

def text : Address → Text
  | v4 octets port => octetsText octets ++ ':' :: Text.ofNat port
  | v6 groups port scope =>
    '[' :: host6Text groups
      ++ (if scope = 0 then [] else '%' :: Text.ofNat scope)
      ++ "]:".toList ++ Text.ofNat port

end Address

end Stepwise

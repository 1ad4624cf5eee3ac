/-
Addresses that the relay listens on.

An address is a host and a port.  It is read from text (`SocketAddress.ofText?`)
and written in one canonical form (`SocketAddress.text`):

* a host of four decimal bytes is written with dots;
* a host of eight groups is written in brackets, in lower-case hexadecimal,
  with the first of its longest runs of two or more zero groups shortened to
  a double colon;
* a host whose groups embed four bytes (`::ffff:a.b.c.d`) keeps the dots, and a
  scope other than zero follows the host after a percent sign.
-/
import VideoRelay.Bytes

namespace VideoRelay

/-- A host and a port. -/
inductive SocketAddress
  | v4 (a b c d : UInt8) (port : UInt16)
  | v6 (groups : List UInt16) (scope : UInt32) (port : UInt16)
  deriving DecidableEq, Repr

namespace SocketAddress

/-! ### Reading -/

/-- The value of a digit up to `f`. -/
def digit? (c : Char) : Option Nat :=
  if '0' ≤ c ∧ c ≤ '9' then some (c.toNat - '0'.toNat)
  else if 'a' ≤ c ∧ c ≤ 'f' then some (c.toNat - 'a'.toNat + 10)
  else if 'A' ≤ c ∧ c ≤ 'F' then some (c.toNat - 'A'.toNat + 10)
  else none

/-- Whether `c` is a digit in base `radix`. -/
def isDigit (radix : Nat) (c : Char) : Bool :=
  match digit? c with
  | some d => d < radix
  | none => false

/-- How a number is written: its base, its greatest value, how many digits it
may have, and whether it may begin with a zero that is not all of it. -/
structure Numeral where
  radix : Nat
  greatest : Nat
  digits? : Option Nat
  leadingZero : Bool

/-- The number at the front of the text.  All digits there belong to it, so
that one digit too many makes it no number at all. -/
def readNumber (form : Numeral) (cs : List Char) : Option (Nat × List Char) :=
  let digits := cs.takeWhile (isDigit form.radix)
  let value := digits.foldl (fun n c => n * form.radix + (digit? c).getD 0) 0
  if digits = [] then none
  else if form.digits?.any (· < digits.length) then none
  else if !form.leadingZero && digits.head? = some '0' && 1 < digits.length then none
  else if form.greatest < value then none
  else some (value, cs.dropWhile (isDigit form.radix))

/-- What follows the character `c` at the front of the text. -/
def skip (c : Char) : List Char → Option (List Char)
  | d :: rest => if d = c then some rest else none
  | [] => none

def octet : Numeral := ⟨10, 255, some 3, false⟩
def group : Numeral := ⟨16, 65535, some 4, true⟩
def portNumber : Numeral := ⟨10, 65535, none, true⟩
def scopeNumber : Numeral := ⟨10, 4294967295, none, true⟩

/-- Four decimal bytes with dots between them. -/
def readOctets (cs : List Char) : Option ((UInt8 × UInt8 × UInt8 × UInt8) × List Char) := do
  let (a, cs) ← readNumber octet cs
  let (b, cs) ← readNumber octet (← skip '.' cs)
  let (c, cs) ← readNumber octet (← skip '.' cs)
  let (d, cs) ← readNumber octet (← skip '.' cs)
  return ((.ofNat a, .ofNat b, .ofNat c, .ofNat d), cs)

/-- Two bytes as one group. -/
def pair (a b : UInt8) : UInt16 := .ofNat (a.toNat * 256 + b.toNat)

/-- At most `left` groups with colons between them; where two are left, four
decimal bytes may stand for both, and then no group follows.  The flag says
whether they did. -/
def readGroups : (left : Nat) → (isFirst : Bool) → List Char → List UInt16 × Bool × List Char
  | 0, _, cs => ([], false, cs)
  | left + 1, isFirst, cs =>
    match if isFirst then some cs else skip ':' cs with
    | none => ([], false, cs)
    | some body =>
      match if 0 < left then readOctets body else none with
      | some ((a, b, c, d), rest) => ([pair a b, pair c d], true, rest)
      | none =>
        match readNumber group body with
        | none => ([], false, cs)
        | some (g, rest) =>
          let (gs, embedded, rest) := readGroups left false rest
          (.ofNat g :: gs, embedded, rest)

/-- Eight groups, or fewer around one double colon that stands for the
missing ones, of which there is at least one. -/
def readHost (cs : List Char) : Option (List UInt16 × List Char) := do
  let (front, embedded, cs) := readGroups 8 true cs
  if front.length = 8 then return (front, cs)
  if embedded then none
  let cs ← skip ':' (← skip ':' cs)
  let (back, _, cs) := readGroups (7 - front.length) true cs
  return (front ++ List.replicate (8 - front.length - back.length) 0 ++ back, cs)

def readPort (cs : List Char) : Option (UInt16 × List Char) := do
  let (n, cs) ← readNumber portNumber (← skip ':' cs)
  return (.ofNat n, cs)

def readV4 (cs : List Char) : Option (SocketAddress × List Char) := do
  let ((a, b, c, d), cs) ← readOctets cs
  let (port, cs) ← readPort cs
  return (.v4 a b c d port, cs)

def readScope (cs : List Char) : Option (UInt32 × List Char) :=
  match skip '%' cs with
  | none => some (0, cs)
  | some cs => do
    let (n, cs) ← readNumber scopeNumber cs
    return (.ofNat n, cs)

def readV6 (cs : List Char) : Option (SocketAddress × List Char) := do
  let (groups, cs) ← readHost (← skip '[' cs)
  let (scope, cs) ← readScope cs
  let (port, cs) ← readPort (← skip ']' cs)
  return (.v6 groups scope port, cs)

/-- The address that a text stands for, all of the text read. -/
def ofText? (text : String) : Option SocketAddress :=
  match readV4 text.toList <|> readV6 text.toList with
  | some (address, []) => some address
  | _ => none

/-! ### Writing -/

/-- Groups with colons between them. -/
def groupsText (groups : List UInt16) : String :=
  ":".intercalate (groups.map fun g => hexadecimal g.toNat)

/-- How many groups at the front are zero. -/
def zeroRun (groups : List UInt16) : Nat := (groups.takeWhile (· == 0)).length

/-- Start and length of the first of the longest runs of zero groups; `start`
is the position of the first group. -/
def longestZeroRun (start : Nat) : List UInt16 → Nat × Nat
  | [] => (start, 0)
  | g :: rest =>
    let here := zeroRun (g :: rest)
    let later := longestZeroRun (start + 1) rest
    if later.2 ≤ here then (start, here) else later

def octetsText (a b c d : Nat) : String := s!"{a}.{b}.{c}.{d}"

/-- The canonical form of a host of eight groups. -/
def hostText : List UInt16 → String
  | [0, 0, 0, 0, 0, 65535, x, y] =>
    "::ffff:" ++ octetsText (x.toNat / 256) (x.toNat % 256) (y.toNat / 256) (y.toNat % 256)
  | groups =>
    let (start, length) := longestZeroRun 0 groups
    if 1 < length then
      groupsText (groups.take start) ++ "::" ++ groupsText (groups.drop (start + length))
    else groupsText groups

/-- The canonical text of an address. -/
def text : SocketAddress → String
  | .v4 a b c d port => s!"{octetsText a.toNat b.toNat c.toNat d.toNat}:{port.toNat}"
  | .v6 groups scope port =>
    let scopeText := if scope = 0 then "" else s!"%{scope.toNat}"
    "[" ++ hostText groups ++ scopeText ++ "]:" ++ toString port.toNat

end SocketAddress

end VideoRelay

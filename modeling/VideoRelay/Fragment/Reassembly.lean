/-
Putting NAL units together again.

A reassembler holds at most one open unit.  A first piece opens a unit, and
whatever was open is given up; a further piece of the same type extends it; a
last piece completes it.

* `Reassembler.push` — what one fragment does;
* `Reassembler.discarded?` — what a fragment makes the reassembler give up;
* `Reassembler.feed` — fragments as they arrive, in wire form or not.

Design notes: types are compared as stored, so two types that differ only above
their five bits are different.
-/
import VideoRelay.Fragment.Basic

namespace VideoRelay

/-- A unit of which some pieces have arrived: its bytes so far, start code and
header included. -/
structure OpenUnit where
  unitType : UInt8
  bytes : Bytes
  deriving DecidableEq, Repr

/-- What has been received and not yet completed. -/
structure Reassembler where
  current? : Option OpenUnit
  deriving DecidableEq, Repr

/-- What stands in front of a reassembled unit. -/
def longStartCode : Bytes := [0, 0, 0, 1]

namespace Reassembler

/-- No unit is open. -/
def empty : Reassembler := ⟨none⟩

def inProgress (r : Reassembler) : Bool := r.current?.isSome

/-- The unit that a first piece opens: start code and header, nothing more. -/
def opened (f : Fragment) : OpenUnit where
  unitType := f.header.unitType
  bytes := longStartCode ++
    [NalHeader.toByte ⟨f.indicator.forbidden, f.indicator.nri, f.header.unitType⟩]

/-- The unit that the piece in `f` belongs to. -/
def target (r : Reassembler) (f : Fragment) : Except FormatError OpenUnit :=
  if f.header.isStart then .ok (opened f)
  else
    match r.current? with
    | none => .error .unexpectedContinuation
    | some unit =>
      if unit.unitType = f.header.unitType then .ok unit
      else .error (.typeMismatch unit.unitType f.header.unitType)

/-- Add a piece.  A last piece gives the completed unit; an error leaves no
unit open. -/
def push (r : Reassembler) (f : Fragment) : Reassembler × Except FormatError (Option Bytes) :=
  match r.target f with
  | .error e => (empty, .error e)
  | .ok unit =>
    let bytes := unit.bytes ++ f.payload
    if f.header.isEnd then (empty, .ok (some bytes))
    else (⟨some { unit with bytes }⟩, .ok none)

/-- How many bytes of an open unit are given up when `f` arrives. -/
def discarded? (r : Reassembler) (f : Fragment) : Option Nat :=
  if f.header.isStart then r.current?.map fun unit => unit.bytes.length else none

/-! ### Sequences of arrivals -/

/-- What can happen to a reassembler. -/
inductive Arrival
  | clear
  | fragment (f : Fragment)
  | datagram (data : Bytes)
  deriving DecidableEq, Repr

/-- What came of an arrival. -/
inductive Outcome
  | cleared
  /-- The datagram holds no fragment. -/
  | unparsed (cause : FormatError)
  | pushed (result : Except FormatError (Option Bytes)) (discarded? : Option Nat)

/-- An outcome and whether a unit is open after it. -/
structure Report where
  outcome : Outcome
  inProgress : Bool

def pushed (r : Reassembler) (f : Fragment) : Reassembler × Outcome :=
  let (next, result) := r.push f
  (next, .pushed result (r.discarded? f))

/-- One arrival.  A datagram that holds no fragment changes nothing. -/
def receive (r : Reassembler) : Arrival → Reassembler × Outcome
  | .clear => (empty, .cleared)
  | .fragment f => r.pushed f
  | .datagram data =>
    match Fragment.parse data with
    | .error e => (r, .unparsed e)
    | .ok f => r.pushed f

/-- All arrivals in order. -/
def feed (r : Reassembler) : List Arrival → List Report
  | [] => []
  | arrival :: rest =>
    let (next, outcome) := r.receive arrival
    ⟨outcome, next.inProgress⟩ :: next.feed rest

end Reassembler

/-- The unit that a report says was completed. -/
def Reassembler.Report.unit? (report : Reassembler.Report) : Option Bytes :=
  match report.outcome with
  | .pushed (.ok unit?) _ => unit?
  | _ => none

end VideoRelay

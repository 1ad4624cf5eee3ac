/-
Carrying the fragments of a buffer over a channel that loses, repeats, reorders
and damages datagrams.

* `Disturbance.apply` — what one disturbance does to the datagrams under way;
* `transport` — fragment a buffer, disturb the datagrams, reassemble the rest.
-/
import VideoRelay.Fragment.Reassembly
import VideoRelay.Fragment.Split

namespace VideoRelay

/-- What can happen to datagrams under way, by position.  A position that does
not exist makes it nothing. -/
inductive Disturbance
  | drop (i : Nat)
  | repeated (i : Nat)
  | swap (i j : Nat)
  /-- Only the first `n` bytes of datagram `i` arrive. -/
  | cut (i n : Nat)
  /-- The bits of `mask` are flipped in byte `k` of datagram `i`. -/
  | flip (i k : Nat) (mask : UInt8)
  deriving DecidableEq, Repr

def Disturbance.apply (datagrams : List Bytes) : Disturbance → List Bytes
  | .drop i => datagrams.eraseIdx i
  | .repeated i =>
    match datagrams[i]? with
    | none => datagrams
    | some d => datagrams.insertIdx i d
  | .swap i j =>
    match datagrams[i]?, datagrams[j]? with
    | some a, some b => (datagrams.set i b).set j a
    | _, _ => datagrams
  | .cut i n => datagrams.modify i (·.take n)
  | .flip i k mask => datagrams.modify i (·.modify k (· ^^^ mask))

/-- What a buffer's journey comes to: how many fragments were sent, and what
the receiver reports on each datagram that arrives. -/
structure Journey where
  sent : Nat
  reports : List Reassembler.Report

/-- The units that arrive complete. -/
def Journey.units (j : Journey) : List Bytes := j.reports.filterMap (·.unit?)

/-- Send a buffer in fragments to a new reassembler. -/
def transport (budget : Nat) (data : Bytes) (disturbances : List Disturbance) :
    Except FormatError Journey := do
  let fragments ← fragmentStream budget data
  let arriving := disturbances.foldl Disturbance.apply (fragments.map Fragment.serialize)
  return { sent := fragments.length
           reports := Reassembler.empty.feed (arriving.map .datagram) }

end VideoRelay

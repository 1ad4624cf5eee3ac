/-
Payloads: the fragments of a packet, ready to be sent as datagrams.

* `TapConfig` — how packets are cut, and the type that payloads carry;
* `payloads` — the payloads of one packet, the last one marked.
-/
import VideoRelay.Fragment.Split

namespace VideoRelay

/-- Configuration of a tap.  The fields can hold any number; the setters keep
them in range. -/
structure TapConfig where
  /-- Bytes of a unit that a fragment carries at most. -/
  budget : Nat
  /-- The payload type, of seven bits. -/
  payloadType : UInt8
  deriving DecidableEq, Repr

namespace TapConfig

/-- Fragments fit an Ethernet frame; the type is the first that is free to use. -/
def standard : TapConfig := ⟨1100, 96⟩

def withBudget (c : TapConfig) (n : Nat) : TapConfig := { c with budget := max n 1 }

def withPayloadType (c : TapConfig) (t : UInt8) : TapConfig := { c with payloadType := t &&& 0x7F }

end TapConfig

/-- One fragment in wire form, with what the datagram's header says of it. -/
structure Payload where
  data : Bytes
  /-- The position of the packet among those that the tap has seen. -/
  frameIndex : Nat
  /-- Set on the last fragment of a packet. -/
  marker : Bool
  payloadType : UInt8
  deriving DecidableEq, Repr

/-- The payloads of one packet. -/
def payloads (packet : Bytes) (frameIndex : Nat) (config : TapConfig) :
    Except FormatError (List Payload) := do
  let fragments ← fragmentStream config.budget packet
  let count := fragments.length
  return fragments.mapIdx fun i fragment =>
    { data := fragment.serialize
      frameIndex
      marker := i + 1 = count
      payloadType := config.payloadType }

end VideoRelay

/-
Statistics.

* `HubStats` — what the hub reports when asked;
* `SessionStats` — what one connection has carried;
* `TapStats` — what one tap has made of its packets.
-/

namespace VideoRelay

/-- The hub's counters at one moment. -/
structure HubStats where
  packetsReceived : Nat
  bytesReceived : Nat
  /-- Subscribers registered at that moment. -/
  activeSubscribers : Nat
  /-- Subscribers ever registered. -/
  totalSubscribers : Nat
  packetsDropped : Nat
  /-- Subscribers removed because their queue was full. -/
  subscribersDisconnected : Nat
  deriving DecidableEq, Repr

/-- What one connection has carried, length prefixes not counted. -/
structure SessionStats where
  packets : Nat
  bytes : Nat
  deriving DecidableEq, Repr

namespace SessionStats

def empty : SessionStats := ⟨0, 0⟩

/-- Account for one packet of `length` bytes. -/
def record (s : SessionStats) (length : Nat) : SessionStats :=
  ⟨s.packets + 1, s.bytes + length⟩

/-- Bits per second over a session of so many whole seconds; a session of less
than one has no rate. -/
def bitrate (s : SessionStats) (seconds : Nat) : Nat :=
  if 0 < seconds then s.bytes * 8 / seconds else 0

/-- The statistics after each of a row of packets. -/
def history (s : SessionStats) : List Nat → List SessionStats
  | [] => []
  | length :: rest => s.record length :: (s.record length).history rest

end SessionStats

/-- What one tap has made of its packets. -/
structure TapStats where
  frames : Nat
  fragments : Nat
  skippedFrames : Nat
  deriving DecidableEq, Repr

def TapStats.empty : TapStats := ⟨0, 0, 0⟩

end VideoRelay

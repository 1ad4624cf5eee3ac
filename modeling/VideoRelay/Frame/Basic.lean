/-
Packets on a byte stream.

A packet is any byte string.  On a stream it travels as a frame: its length in
four bytes, least significant first, and then its bytes.  A length over
`Frame.limit` is a violation.

* `Frame.encode` — the frame of a packet;
* `Frame.demand` — what a frame of which some bytes have arrived still lacks;
* `Frame.demand_encode` — a whole frame lacks nothing.
-/
import VideoRelay.Bytes

namespace VideoRelay

/-- What the relay carries: usually one or more NAL units behind start codes,
but nothing depends on it. -/
abbrev Packet := Bytes

namespace Frame

/-- Size of the length in front of a packet. -/
def headSize : Nat := 4

/-- The greatest length of a packet. -/
def limit : Nat := 0xFFFFFF

/-- The length of a packet as far as four bytes can tell it. -/
def tellable (packet : Packet) : Nat := min packet.length 0xFFFFFFFF

/-- The length in front of a packet. -/
def head (packet : Packet) : Bytes := littleEndian headSize packet.length

/-- The frame of a packet. -/
def encode (packet : Packet) : Bytes := head packet ++ packet

/-- What a frame that has arrived in part still lacks. -/
inductive Demand
  /-- The next bytes to come, of which there is at least one. -/
  | more (n : Nat)
  /-- Nothing: the packet is complete. -/
  | complete (packet : Packet)
  | oversize (announced : Nat)
  deriving DecidableEq, Repr

/-- The length that the first bytes of a frame announce. -/
def announced (held : Bytes) : Nat := Bytes.toNatLE (held.take headSize)

/-- What is lacking when `held` are the bytes of the frame that have arrived. -/
def demand (held : Bytes) : Demand :=
  if held.length < headSize then .more (headSize - held.length)
  else if limit < announced held then .oversize (announced held)
  else if held.length < headSize + announced held then
    .more (headSize + announced held - held.length)
  else .complete (held.drop headSize)

@[simp] theorem length_head (packet : Packet) : (head packet).length = headSize := by
  simp [head]

theorem length_encode (packet : Packet) :
    (encode packet).length = headSize + packet.length := by
  simp [encode]

/-- A whole frame lacks nothing. -/
theorem demand_encode {packet : Packet} (h : packet.length ≤ limit) :
    demand (encode packet) = .complete packet := by
  have hlt : packet.length < Nat.pow 256 headSize := Nat.lt_of_le_of_lt h (by decide)
  have hann : announced (encode packet) = packet.length := by
    rw [announced, encode, List.take_left' (length_head packet), head,
      toNatLE_littleEndian hlt]
  have hdrop : (encode packet).drop headSize = packet := by
    rw [encode, List.drop_left' (length_head packet)]
  have h1 : ¬ headSize + packet.length < headSize := by omega
  have h2 : ¬ limit < packet.length := by omega
  simp [demand, hann, hdrop, length_encode, h1, h2]

end Frame

end VideoRelay

/-
A subscriber's session: packets from its queue to one connection.

The session waits for a packet, writes its frame and those of all packets queued
by then, flushes, and waits again.  When the queue has ended it flushes and shuts
the connection down.  When a write or a flush fails it closes its queue first,
which lets a hub go on that waits for room in it, and then has itself removed.

* `SubscriberSession.step?` — a step that the session takes by itself;
* `SubscriberSession.errand?` — what it asks of the connection, if anything;
* `SubscriberSession.respond?` — what the connection's answer means to it;
* `SubscriberSession.answer` — what the end of a call means to it.

Design notes: frames go through a buffer of `capacity` bytes.  A piece that does
not fit sends the buffer on its way first, all of it; then a piece as large as
the buffer goes to the connection directly, as much of it as one write takes,
and a smaller one into the buffer.
-/
import VideoRelay.Error
import VideoRelay.Hub.Step

namespace VideoRelay

/-- What a session asks of its connection. -/
inductive Errand
  | write (data : Bytes)
  | flush
  | shutDown
  deriving DecidableEq, Repr

/-- What the connection answers. -/
inductive Answer
  | accepted (n : Nat)
  /-- It flushed or shut down. -/
  | done
  | failed (cause : IoError)
  deriving DecidableEq, Repr

/-- What a subscriber's session is at. -/
inductive SubscriberSession.Phase
  /-- Waits for a packet; everything before is flushed. -/
  | receiving
  /-- Has pieces of the packet's frame to write. -/
  | writing (packet : Packet) (pieces : List Bytes)
  /-- Has to send the rest of a full buffer before these pieces. -/
  | spilling (rest : Bytes) (packet : Packet) (pieces : List Bytes)
  /-- Looks for another packet without waiting. -/
  | draining
  /-- Sends the rest of the buffer, then flushes. -/
  | flushing (rest : Bytes) (isLast : Bool)
  | closing
  | failing (cause : IoError)
  /-- Waits for its removal to be accepted. -/
  | unregistering (ticket : Nat) (cause : IoError)
  /-- Is over, but holds its handle still. -/
  | leaving (result : Except Error SessionStats)
  | ended (result : Except Error SessionStats)

/-- A session that writes the packets of subscription `id`. -/
structure SubscriberSession where
  id : Nat
  capacity : Nat
  buffer : Bytes
  stats : SessionStats
  phase : SubscriberSession.Phase

namespace SubscriberSession

/-- A session that begins to wait for packets. -/
def start (id capacity : Nat) : SubscriberSession := ⟨id, capacity, [], .empty, .receiving⟩

/-- How the session ended, if it has. -/
def result? (s : SubscriberSession) : Option (Except Error SessionStats) :=
  match s.phase with
  | .ended result => some result
  | _ => none

/-- Why a packet over the limit cannot be written. -/
def oversize (packet : Packet) : IoError where
  kind := .invalidData
  text := (Error.protocol (.packetTooLarge (Frame.tellable packet))).message

/-- Begin to write a packet. -/
def begin (s : SubscriberSession) (packet : Packet) : SubscriberSession :=
  if Frame.limit < packet.length then { s with phase := .failing (oversize packet) }
  else { s with phase := .writing packet [Frame.head packet, packet] }

/-- Send the buffer on its way, and flush. -/
def beginFlush (s : SubscriberSession) (isLast : Bool) : SubscriberSession :=
  { s with buffer := [], phase := .flushing s.buffer isLast }

/-- Whether a piece does not fit behind what the buffer holds. -/
def overflows (s : SubscriberSession) (piece : Bytes) : Bool :=
  piece.hasAtLeast (s.capacity + 1 - s.buffer.length)

/-- Whether a piece is as large as the buffer. -/
def isLarge (s : SubscriberSession) (piece : Bytes) : Bool := piece.hasAtLeast s.capacity

/-- What the session asks of its connection. -/
def errand? (s : SubscriberSession) : Option Errand :=
  match s.phase with
  | .spilling (b :: rest) _ _ => some (.write (b :: rest))
  -- A piece as large as the buffer goes past it, when the buffer is empty.
  | .writing _ ((b :: piece) :: _) =>
    if s.buffer = [] ∧ s.isLarge (b :: piece) then some (.write (b :: piece)) else none
  | .flushing (b :: rest) _ => some (.write (b :: rest))
  | .flushing [] _ => some .flush
  | .closing => some .shutDown
  | _ => none

/-- A step by itself with pieces of a frame to write. -/
def place? (s : SubscriberSession) (packet : Packet) : List Bytes → Option SubscriberSession
  | [] => some { s with stats := s.stats.record packet.length, phase := .draining }
  | [] :: pieces => some { s with phase := .writing packet pieces }
  | (b :: piece) :: pieces =>
    if s.buffer ≠ [] ∧ s.overflows (b :: piece) then
      some { s with buffer := [], phase := .spilling s.buffer packet ((b :: piece) :: pieces) }
    else if s.isLarge (b :: piece) then none
    else some { s with buffer := s.buffer ++ b :: piece, phase := .writing packet pieces }

/-- A step that the session takes by itself. -/
def step? (s : SubscriberSession) (h : Hub) : Option (SubscriberSession × Hub × List Hub.Event) :=
  match s.phase with
  | .receiving =>
    match h.available s.id, h.take? s.id with
    | .packet packet, some (h, events) => some (s.begin packet, h, events)
    | .ended, _ => some (s.beginFlush true, h, [])
    | _, _ => none
  | .draining =>
    -- What has come meanwhile is written before anything is flushed.
    match h.available s.id, h.take? s.id with
    | .packet packet, some (h, events) => some (s.begin packet, h, events)
    | _, _ => some (s.beginFlush false, h, [])
  | .writing packet pieces => (s.place? packet pieces).map fun s => (s, h, [])
  | .spilling [] packet pieces => some ({ s with phase := .writing packet pieces }, h, [])
  | .failing cause =>
    -- Closed first, so that the hub does not wait for room meanwhile.
    let (h, closing) := h.close s.id
    let (next, calling) := h.call (.unregister s.id)
    some ({ s with phase := .unregistering h.nextTicket cause }, next, closing ++ calling)
  | .leaving result => some ({ s with phase := .ended result }, h.dropHandle, [])
  | .spilling (_ :: _) _ _ | .flushing _ _ | .closing | .unregistering _ _ | .ended _ => none

/-- What an answer of the connection means; nothing if it answers something
else than was asked. -/
def respond? (s : SubscriberSession) (answer : Answer) : Option SubscriberSession :=
  match s.errand?, answer with
  | none, _ => none
  | some .shutDown, .failed _ | some .shutDown, .done =>
    some { s with phase := .leaving (.ok s.stats) }
  | some .shutDown, .accepted _ => none
  | some _, .failed cause => some { s with phase := .failing cause }
  | some .flush, .done =>
    match s.phase with
    | .flushing _ true => some { s with phase := .closing }
    | _ => some { s with phase := .receiving }
  | some .flush, .accepted _ => none
  | some (.write _), .done => none
  | some (.write data), .accepted n =>
    if 0 < n ∧ data.hasAtLeast n then
      match s.phase with
      | .spilling rest packet pieces =>
        some { s with phase := .spilling (rest.drop n) packet pieces }
      | .flushing rest isLast => some { s with phase := .flushing (rest.drop n) isLast }
      | .writing packet (piece :: pieces) =>
        some { s with phase := .writing packet (piece.drop n :: pieces) }
      | _ => none
    else none

/-- A call has ended: the session's removal is under way, or the hub has
stopped, which is as good. -/
def answer (s : SubscriberSession) (ticket : Nat) : SubscriberSession :=
  match s.phase with
  | .unregistering own cause =>
    if own = ticket then { s with phase := .leaving (.error (.connection s.id cause)) } else s
  | _ => s

/-- Whether the session waits for this call. -/
def awaits (s : SubscriberSession) (ticket : Nat) : Bool :=
  match s.phase with
  | .unregistering own _ => own = ticket
  | _ => false

end SubscriberSession

end VideoRelay

/-
A producer's session: packets from one connection to the hub.

The session reads one packet at a time and submits it, and reads on when the hub
has accepted it.  It ends with the stream, with the first error, or when the hub
has stopped.

* `ProducerSession.step?` — the session's next step, nothing if it has to wait;
* `ProducerSession.answer` — what the end of a call means to it;
* `ProducerSession.abort` — the session is broken off from outside.
-/
import VideoRelay.Frame.Reader
import VideoRelay.Hub.Step

namespace VideoRelay

/-- What a producer's session is at. -/
inductive ProducerSession.Phase
  | reading
  /-- Waits for the hub to accept a packet. -/
  | submitting (ticket : Nat)
  /-- Is over, but holds its handle still. -/
  | leaving (result : Except Error SessionStats)
  | ended (result : Except Error SessionStats)
  /-- Was broken off from outside. -/
  | aborted

/-- A session that reads packets and submits them. -/
structure ProducerSession where
  reader : Reader
  stats : SessionStats
  phase : ProducerSession.Phase

namespace ProducerSession

/-- A session that begins to read from a source. -/
def start (source : Source) : ProducerSession := ⟨.ofSource source, .empty, .reading⟩

/-- More arrives on the connection. -/
def arrive (s : ProducerSession) (items : List Incoming) : ProducerSession :=
  let source := s.reader.source
  { s with
    reader := { s.reader with source := { source with arrived := source.arrived ++ items } } }

/-- How the session ended, if it has. -/
def result? (s : ProducerSession) : Option (Except Error SessionStats) :=
  match s.phase with
  | .ended result => some result
  | _ => none

/-- The next packet, or what ends the session. -/
def read (s : ProducerSession) (h : Hub) : ProducerSession × Hub × List Hub.Event :=
  let (received, reader) := s.reader.next
  let s := { s with reader }
  match received with
  | .packet packet =>
    let (next, events) := h.call (.packet packet)
    ({ s with stats := s.stats.record packet.length, phase := .submitting h.nextTicket },
      next, events)
  | .ended => ({ s with phase := .leaving (.ok s.stats) }, h, [])
  | .failed cause => ({ s with phase := .leaving (.error cause) }, h, [])
  | .starved => (s, h, [])

/-- The session's next step. -/
def step? (s : ProducerSession) (h : Hub) : Option (ProducerSession × Hub × List Hub.Event) :=
  match s.phase with
  | .reading => if s.reader.source.isExhausted then none else some (s.read h)
  | .submitting _ => none
  | .leaving result => some ({ s with phase := .ended result }, h.dropHandle, [])
  | .ended _ | .aborted => none

/-- Break the session off: its call is given up, and its handle. -/
def abort (s : ProducerSession) (h : Hub) : ProducerSession × Hub × List Hub.Event :=
  let aborted := { s with phase := .aborted }
  match s.phase with
  | .reading | .leaving _ => (aborted, h.dropHandle, [])
  | .submitting ticket =>
    let (h, events) := (h.cancel? ticket).getD (h, [])
    (aborted, h.dropHandle, events)
  | .ended _ | .aborted => (s, h, [])

/-- A call has ended: the session reads on, or is over if the hub has stopped. -/
def answer (s : ProducerSession) (ticket : Nat) (reply : Hub.Reply) : ProducerSession :=
  match s.phase with
  | .submitting own =>
    if own = ticket then
      match reply with
      | .closed => { s with phase := .leaving (.error (.hub .closed)) }
      | _ => { s with phase := .reading }
    else s
  | _ => s

/-- Whether the session waits for this call. -/
def awaits (s : ProducerSession) (ticket : Nat) : Bool :=
  match s.phase with
  | .submitting own => own = ticket
  | _ => false

end ProducerSession

end VideoRelay

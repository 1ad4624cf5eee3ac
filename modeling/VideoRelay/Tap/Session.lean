/-
A tap: a subscriber that cuts packets into fragments for a consumer.

The tap waits for a packet, cuts it, and offers the payloads one by one to its
consumer.  A malformed packet is left out; it takes a frame index all the same.
When the consumer fails to take one the tap closes its queue and has itself removed.

* `TapSession.step?` — a step that the tap takes by itself;
* `TapSession.offer?` — the payload that it holds out, if any;
* `TapSession.respond?` — what the consumer's answer means to it;
* `TapSession.answer` — what the end of a call means to it.
-/
import VideoRelay.Hub.Step
import VideoRelay.Tap.Payload

namespace VideoRelay

/-- What a tap is at. -/
inductive TapSession.Phase
  | receiving
  | sending (rest : List Payload)
  | failing (cause : Error)
  /-- Waits for its removal to be accepted. -/
  | unregistering (ticket : Nat) (cause : Error)
  /-- Is over, but holds its handle still. -/
  | leaving (result : Except Error TapStats)
  | ended (result : Except Error TapStats)

/-- A tap on subscription `id`. -/
structure TapSession where
  id : Nat
  config : TapConfig
  stats : TapStats
  phase : TapSession.Phase

/-- A packet that a tap left out. -/
structure SkippedFrame where
  subscriber : Nat
  frameIndex : Nat
  length : Nat
  cause : FormatError
  deriving DecidableEq, Repr

namespace TapSession

/-- A tap that begins to wait for packets. -/
def start (id : Nat) (config : TapConfig) : TapSession := ⟨id, config, .empty, .receiving⟩

/-- How the tap ended, if it has. -/
def result? (s : TapSession) : Option (Except Error TapStats) :=
  match s.phase with
  | .ended result => some result
  | _ => none

/-- The position of the next packet among all that the tap has taken. -/
def frameIndex (s : TapSession) : Nat := s.stats.frames + s.stats.skippedFrames

/-- Cut a packet; what is left out is told. -/
def cutPacket (s : TapSession) (packet : Packet) : TapSession × Option SkippedFrame :=
  match payloads packet s.frameIndex s.config with
  | .error cause =>
    ({ s with
        stats := { s.stats with skippedFrames := s.stats.skippedFrames + 1 }
        phase := .receiving },
      some ⟨s.id, s.frameIndex, packet.length, cause⟩)
  | .ok rest =>
    ({ s with stats := { s.stats with frames := s.stats.frames + 1 }, phase := .sending rest },
      none)

/-- The payload that the tap holds out to its consumer. -/
def offer? (s : TapSession) : Option Payload :=
  match s.phase with
  | .sending (payload :: _) => some payload
  | _ => none

/-- A step that the tap takes by itself, and the packet that it left out. -/
def step? (s : TapSession) (h : Hub) :
    Option (TapSession × Hub × List Hub.Event × Option SkippedFrame) :=
  match s.phase with
  | .receiving =>
    match h.available s.id, h.take? s.id with
    | .packet packet, some (h, events) =>
      let (s, skipped?) := s.cutPacket packet
      some (s, h, events, skipped?)
    | .ended, _ => some ({ s with phase := .leaving (.ok s.stats) }, h, [], none)
    | _, _ => none
  | .sending [] => some ({ s with phase := .receiving }, h, [], none)
  | .failing cause =>
    -- Closed first, so that the hub does not wait for room meanwhile.
    let (h, closing) := h.close s.id
    let (next, calling) := h.call (.unregister s.id)
    some ({ s with phase := .unregistering h.nextTicket cause }, next, closing ++ calling, none)
  | .leaving result => some ({ s with phase := .ended result }, h.dropHandle, [], none)
  | .sending (_ :: _) | .unregistering _ _ | .ended _ => none

/-- The consumer took the payload held out to it, or failed to. -/
def respond? (s : TapSession) (failure? : Option Error) : Option TapSession :=
  match s.phase, failure? with
  | .sending (_ :: rest), none =>
    some { s with
      stats := { s.stats with fragments := s.stats.fragments + 1 }
      phase := .sending rest }
  | .sending (_ :: _), some cause => some { s with phase := .failing cause }
  | _, _ => none

/-- A call has ended: the tap's removal is under way, or the hub has stopped,
which is as good. -/
def answer (s : TapSession) (ticket : Nat) : TapSession :=
  match s.phase with
  | .unregistering own cause =>
    if own = ticket then { s with phase := .leaving (.error cause) } else s
  | _ => s

/-- Whether the tap waits for this call. -/
def awaits (s : TapSession) (ticket : Nat) : Bool :=
  match s.phase with
  | .unregistering own _ => own = ticket
  | _ => false

end TapSession

end VideoRelay

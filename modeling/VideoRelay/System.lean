/-
A hub with the sessions that work on it.

Producers' sessions, subscribers' sessions and taps run side by side with the
hub and with clients that call it themselves.

* `System` — the hub and all sessions at one moment;
* `System.step?` — one action of anybody, nothing if it is not possible;
* `System.Run` — the histories and states that any order of actions leads to.

Design notes: what lies outside is part of the action.  A connection's answer to
a write and a consumer's answer to a payload may be anything that fits what was
asked, so a run covers every way in which they can behave.  Clients cannot touch
what a session holds: its subscription, its calls, its handle.
-/
import VideoRelay.Session.Producer
import VideoRelay.Session.Subscriber
import VideoRelay.Tap.Session

namespace VideoRelay

/-- A hub and its sessions, each kind in the order of their start. -/
structure System where
  hub : Hub
  clientHandles : Nat
  producers : List ProducerSession
  writers : List SubscriberSession
  taps : List TapSession

namespace System

/-- A new hub with one handle and no sessions. -/
def start (config : HubConfig) : System := ⟨.start config, 1, [], [], []⟩

/-- What happens in a system. -/
inductive Event
  | hub (event : Hub.Event)
  /-- A producer's session asked the hub to hand round this packet. -/
  | submitted (producer : Nat) (packet : Packet)
  /-- The connection of a subscriber's session took these bytes. -/
  | wrote (writer : Nat) (data : Bytes)
  | flushed (writer : Nat)
  /-- A tap held out a payload, and the consumer took it or failed to. -/
  | offered (tap : Nat) (payload : Payload) (failure? : Option Error)
  /-- A tap left out a malformed packet. -/
  | skipped (frame : SkippedFrame)
  deriving DecidableEq, Repr

/-- What can be done in a system. -/
inductive Action
  /-- A client's action, or a step of the hub and its callers. -/
  | hub (action : Hub.Action)
  | startProducer (source : Source)
  | arrive (producer : Nat) (items : List Incoming)
  | produce (producer : Nat)
  | abort (producer : Nat)
  /-- A session for a subscription and a connection with a buffer. -/
  | startWriter (id capacity : Nat)
  | write (writer : Nat)
  | connection (writer : Nat) (answer : Answer)
  | startTap (id : Nat) (config : TapConfig)
  | tap (tap : Nat)
  /-- The consumer takes the payload held out to it, or fails to. -/
  | consumer (tap : Nat) (failure? : Option Error)
  deriving DecidableEq, Repr

/-- Whether a session holds this subscription. -/
def isOwned (s : System) (id : Nat) : Bool :=
  s.writers.any (·.id = id) || s.taps.any (·.id = id)

/-- Whether a session waits for this call. -/
def isAwaited (s : System) (ticket : Nat) : Bool :=
  s.producers.any (·.awaits ticket) || s.writers.any (·.awaits ticket) ||
    s.taps.any (·.awaits ticket)

/-- What clients may do. -/
def permits (s : System) : Hub.Action → Bool
  | .call _ | .cloneHandle | .dropHandle => 0 < s.clientHandles
  | .cancel ticket => !s.isAwaited ticket
  | .take id | .close id | .discard id => !s.isOwned id
  | .advance _ | .enqueue | .work => true

/-- The handles of clients after an action of theirs. -/
def handlesAfter (s : System) : Hub.Action → Nat
  | .cloneHandle => s.clientHandles + 1
  | .dropHandle => s.clientHandles - 1
  | _ => s.clientHandles

/-- Tell every session that a call has ended. -/
def tell (s : System) (ticket : Nat) (reply : Hub.Reply) : System :=
  { s with
    producers := s.producers.map (·.answer ticket reply)
    writers := s.writers.map (·.answer ticket)
    taps := s.taps.map (·.answer ticket) }

/-- Tell the sessions what they have to know of an event. -/
def observe (s : System) : Hub.Event → System
  | .returned ticket reply => s.tell ticket reply
  | _ => s

/-- The system when the hub has become `hub` with these events. -/
def absorb (s : System) (hub : Hub) (events : List Hub.Event) : System × List Event :=
  (events.foldl observe { s with hub }, events.map .hub)

/-- A client's action, or a step of the hub and its callers. -/
def stepHub? (s : System) (action : Hub.Action) : Option (System × List Event) :=
  if s.permits action then
    (s.hub.step? action).map fun (hub, events) =>
      { s with clientHandles := s.handlesAfter action }.absorb hub events
  else none

/-- What is seen of a producer's call. -/
def submission? (producer : Nat) : Hub.Event → Option Event
  | .called ⟨_, .packet packet⟩ => some (.submitted producer packet)
  | _ => none

def produce? (s : System) (i : Nat) : Option (System × List Event) :=
  match s.producers[i]? with
  | none => none
  | some session =>
    (session.step? s.hub).map fun (session, hub, events) =>
      let (s, seen) := { s with producers := s.producers.set i session }.absorb hub events
      (s, events.filterMap (submission? i) ++ seen)

def abort? (s : System) (i : Nat) : Option (System × List Event) :=
  match s.producers[i]? with
  | none => none
  | some session =>
    let (session, hub, events) := session.abort s.hub
    some ({ s with producers := s.producers.set i session }.absorb hub events)

def write? (s : System) (i : Nat) : Option (System × List Event) :=
  match s.writers[i]? with
  | none => none
  | some session =>
    (session.step? s.hub).map fun (session, hub, events) =>
      { s with writers := s.writers.set i session }.absorb hub events

/-- What is seen of a connection's answer. -/
def connectionEvents (writer : Nat) : Option Errand → Answer → List Event
  | some (.write data), .accepted n => [.wrote writer (data.take n)]
  | some .flush, .done => [.flushed writer]
  | _, _ => []

def answerConnection? (s : System) (i : Nat) (answer : Answer) : Option (System × List Event) :=
  match s.writers[i]? with
  | none => none
  | some session =>
    (session.respond? answer).map fun next =>
      ({ s with writers := s.writers.set i next }, connectionEvents i session.errand? answer)

def tap? (s : System) (i : Nat) : Option (System × List Event) :=
  match s.taps[i]? with
  | none => none
  | some session =>
    (session.step? s.hub).map fun (session, hub, events, skipped?) =>
      let (s, events) := { s with taps := s.taps.set i session }.absorb hub events
      (s, events ++ (skipped?.map Event.skipped).toList)

def answerConsumer? (s : System) (i : Nat) (failure? : Option Error) :
    Option (System × List Event) :=
  match s.taps[i]? with
  | none => none
  | some session =>
    match session.offer?, session.respond? failure? with
    | some payload, some next =>
      some ({ s with taps := s.taps.set i next }, [.offered i payload failure?])
    | _, _ => none

/-- Whether a session may begin on subscription `id`. -/
def mayAttach (s : System) (id : Nat) : Bool :=
  0 < s.clientHandles && id < s.hub.nextId && !s.isOwned id

/-- One action; nothing if it is not possible.  A session that begins clones a
client's handle. -/
def step? (s : System) : Action → Option (System × List Event)
  | .hub action => s.stepHub? action
  | .startProducer source =>
    if 0 < s.clientHandles then
      some ({ s with
        hub := s.hub.cloneHandle
        producers := s.producers ++ [ProducerSession.start source] }, [])
    else none
  | .arrive i items => some ({ s with producers := s.producers.modify i (·.arrive items) }, [])
  | .produce i => s.produce? i
  | .abort i => s.abort? i
  | .startWriter id capacity =>
    if s.mayAttach id then
      some ({ s with
        hub := s.hub.cloneHandle
        writers := s.writers ++ [SubscriberSession.start id capacity] }, [])
    else none
  | .write i => s.write? i
  | .connection i answer => s.answerConnection? i answer
  | .startTap id config =>
    if s.mayAttach id then
      some ({ s with
        hub := s.hub.cloneHandle
        taps := s.taps ++ [TapSession.start id config] }, [])
    else none
  | .tap i => s.tap? i
  | .consumer i failure? => s.answerConsumer? i failure?

/-- A system started with `config` can have had the events `history` and be in
the state `s` now. -/
inductive Run (config : HubConfig) : List Event → System → Prop
  | start : Run config [] (System.start config)
  | step {history events : List Event} {s s' : System} {action : Action} :
    Run config history s → s.step? action = some (s', events) →
      Run config (history ++ events) s'

end System

end VideoRelay

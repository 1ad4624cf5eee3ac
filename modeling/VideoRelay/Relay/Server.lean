/-
A relay server: a hub behind two listeners.

Producers are served one after the other, in the order in which they connected;
later ones wait.  Subscribers are registered as they connect, and each gets a
session of its own.  A producer that violates the stream ends itself and nobody
else; the server ends when it is told to, or when it meets a stopped hub.

* `Relay.proceed?` — a step of a part of the server, if it can proceed;
* `Relay.connect`, `Relay.send`, `Relay.finish`, `Relay.subscribe`, `Relay.stop` —
  what comes from outside;
* `Relay.step?` — all of these as actions, nothing if one is not possible;
* `Relay.Run` — the states that any order of actions leads to;
* `Relay.proceedOn?` — a step on a given runtime, where the hub may break down;
* `Relay.settle` — everything runs until nothing can proceed.
-/
import VideoRelay.Relay.Config
import VideoRelay.Simulation.Basic

namespace VideoRelay

/-- Where a producer's connection stands. -/
inductive Peer.State
  /-- Nobody has accepted it yet. -/
  | backlog
  /-- The session of this number reads from it. -/
  | served (session : Nat)
  | closed
  deriving DecidableEq, Repr

/-- A producer's connection. -/
structure Peer where
  /-- What has arrived before anybody read it. -/
  arrived : List Incoming
  state : Peer.State
  deriving DecidableEq, Repr

/-- A relay server at one moment. -/
structure Relay where
  config : ServerConfig
  /-- The hub, its sessions and the subscribers' connections. -/
  inner : Simulation
  /-- Producers' connections, in the order in which they came. -/
  peers : List Peer
  /-- Subscribers' connections that nobody has accepted yet. -/
  arriving : List Link
  /-- The registration under way and the connection it is for. -/
  joining? : Option (Nat × Link)
  outcome? : Option (Except Error Unit)

namespace Relay

def start (config : ServerConfig) : Relay :=
  ⟨config, .start config.hub, [], [], none, none⟩

def isRunning (r : Relay) : Bool := r.outcome?.isNone

/-! ### From outside -/

def connect (r : Relay) : Relay :=
  { r with peers := r.peers ++ [⟨[], if r.isRunning then .backlog else .closed⟩] }

/-- Something arrives on a producer's connection. -/
def deliver (r : Relay) (p : Nat) (item : Incoming) : Relay :=
  match r.peers[p]? with
  | none => r
  | some peer =>
    match peer.state with
    | .backlog => { r with peers := r.peers.set p { peer with arrived := peer.arrived ++ [item] } }
    | .served session => { r with inner := (r.inner.act (.arrive session [item])).1 }
    | .closed => r

def send (r : Relay) (p : Nat) (data : Bytes) : Relay :=
  if data = [] then r else r.deliver p (.chunk data)

def finish (r : Relay) (p : Nat) : Relay := r.deliver p .endOfStream

def subscribe (r : Relay) (link : Link) : Relay :=
  if r.isRunning then { r with arriving := r.arriving ++ [link] } else r

/-- The session that is reading now, with the position of its connection. -/
def current? (r : Relay) : Option (Nat × Nat) :=
  (List.range r.peers.length).findSome? fun p =>
    match (r.peers[p]?).map Peer.state with
    | some (.served session) => some (p, session)
    | _ => none

/-- Break off the session that is reading. -/
def abortCurrent (r : Relay) : Relay :=
  match r.current? with
  | none => r
  | some (_, session) => { r with inner := (r.inner.act (.abort session)).1 }

def abortJoining (r : Relay) : Relay :=
  match r.joining? with
  | none => r
  | some (ticket, _) =>
    { r with inner := (r.inner.act (.hub (.cancel ticket))).1, joining? := none }

/-- The server ends: nobody is accepted or served any more, and the hub is asked
to stop. -/
def stop (r : Relay) (outcome : Except Error Unit) : Relay :=
  if r.isRunning then
    -- What is under way is broken off before the hub is asked to stop.
    let r := r.abortCurrent.abortJoining
    { r with
      outcome? := some outcome
      inner := (r.inner.act (.hub (.call .shutdown))).1
      peers := r.peers.map fun peer => { peer with state := .closed }
      arriving := [] }
  else r

/-! ### The server's own steps -/

/-- The first connection that nobody has accepted yet. -/
def firstInBacklog? (r : Relay) : Option (Nat × Peer) :=
  (List.range r.peers.length).findSome? fun p =>
    match r.peers[p]? with
    | some peer => if peer.state = .backlog then some (p, peer) else none
    | none => none

/-- Serve the next producer, when none is being served. -/
def accept? (r : Relay) : Option Relay :=
  match r.outcome?, r.current?, r.firstInBacklog? with
  | none, none, some (p, peer) =>
    let session := r.inner.system.producers.length
    let source : Source := ⟨r.config.readBuffer, [], peer.arrived⟩
    some { r with
      inner := (r.inner.act (.startProducer source)).1
      peers := r.peers.set p ⟨[], .served session⟩ }
  | _, _, _ => none

/-- Let go of a producer whose session is over.  An error that does not concern
its connection alone ends the server. -/
def release? (r : Relay) : Option Relay :=
  match r.current? with
  | none => none
  | some (p, session) =>
    match r.inner.system.producers[session]?.bind (·.result?) with
    | none => none
    | some result =>
      let r := { r with peers := r.peers.set p ⟨[], .closed⟩ }
      match result with
      | .ok _ => some r
      | .error cause => if cause.isConnectionScoped then some r else some (r.stop (.error cause))

/-- Register the next subscriber, one at a time. -/
def join? (r : Relay) : Option Relay :=
  match r.outcome?, r.joining?, r.arriving with
  | none, none, link :: rest =>
    let ticket := r.inner.system.hub.nextTicket
    let (inner, events) := r.inner.act (.hub (.call .register))
    let r := { r with inner, arriving := rest, joining? := some (ticket, link) }
    -- Only a stopped hub answers at once.
    some (if events.any (· = .hub (.returned ticket .closed)) then
      r.stop (.error (.hub .closed)) else r)
  | _, _, _ => none

/-- What the server makes of an event: a registered subscriber gets its session,
and a registration that fails ends the server. -/
def observe (r : Relay) : System.Event → Relay
  | .hub (.returned ticket reply) =>
    match r.joining? with
    | none => r
    | some (own, link) =>
      if own = ticket then
        match reply with
        | .subscribed id =>
          let inner := { r.inner with links := r.inner.links ++ [link] }
          { r with
            inner := (inner.act (.startWriter id r.config.writeBuffer)).1
            joining? := none }
        | _ => r.stop (.error (.hub .closed))
      else r
  | _ => r

/-- A step of a part of what is inside. -/
def inside? (r : Relay) (part : Simulation.Part) : Option Relay :=
  (r.inner.proceed? part).map fun (inner, events) => events.foldl observe { r with inner }

/-- The parts of a server that run by themselves. -/
inductive Part
  | inner (part : Simulation.Part)
  | accept
  | release
  | join
  deriving DecidableEq, Repr

def proceed? (r : Relay) : Part → Option Relay
  | .inner part => r.inside? part
  | .accept => r.accept?
  | .release => r.release?
  | .join => r.join?

/-- What can be done at a server. -/
inductive Action
  | connect
  | send (producer : Nat) (data : Bytes)
  | finish (producer : Nat)
  | subscribe (link : Link)
  | stop
  | proceed (part : Part)

/-- One action; nothing if it is not possible. -/
def step? (r : Relay) : Action → Option Relay
  | .connect => some r.connect
  | .send p data => some (r.send p data)
  | .finish p => some (r.finish p)
  | .subscribe link => some (r.subscribe link)
  | .stop => some (r.stop (.ok ()))
  | .proceed part => r.proceed? part

/-- A server started with `config` can have seen these actions, in order, and be
in the state `r` now. -/
inductive Run (config : ServerConfig) : List Action → Relay → Prop
  | start : Run config [] (Relay.start config)
  | step {actions : List Action} {action : Action} {r r' : Relay} :
    Run config actions r → r.step? action = some r' → Run config (actions ++ [action]) r'

/-! ### Running until nothing can proceed -/

/-- The first part that can proceed takes a step. -/
def next? (r : Relay) : Option Relay :=
  (.accept :: .release :: .join :: r.inner.parts.map .inner).findSome? r.proceed?

def run (fuel : Nat) (r : Relay) : Relay :=
  match fuel with
  | 0 => r
  | fuel + 1 =>
    match r.next? with
    | none => r
    | some r => r.run fuel

/-- A step of a part on a runtime. -/
def proceedOn? (runtime : Runtime) (r : Relay) : Part → Option Relay
  | .inner part =>
    (r.inner.proceedOn? runtime part).map fun (inner, events) =>
      events.foldl observe { r with inner }
  | part => r.proceed? part

/-- The first part that can proceed on a runtime takes a step. -/
def nextOn? (runtime : Runtime) (r : Relay) : Option Relay :=
  (.accept :: .release :: .join :: r.inner.parts.map .inner).findSome? (r.proceedOn? runtime)

def runOn (runtime : Runtime) (fuel : Nat) (r : Relay) : Relay :=
  match fuel with
  | 0 => r
  | fuel + 1 =>
    match r.nextOn? runtime with
    | none => r
    | some r => r.runOn runtime fuel

/-- How much there is to move in all, inside and still outside. -/
def size (r : Relay) : Nat :=
  r.inner.size + total (r.peers.map fun peer => arrivedSize peer.arrived + 1) +
    2 * r.arriving.length

/-- Everything runs until nothing can proceed. -/
def settle (r : Relay) : Relay := r.runOn .standard (64 * (r.size + 1) * (r.size + 1))

end Relay

end VideoRelay

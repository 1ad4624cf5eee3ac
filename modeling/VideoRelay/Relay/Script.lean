/-
Scripts for a relay server: what comes from outside, step by step.

After each command everything runs until nothing can proceed; at the end the
server is told to stop.

* `Relay.Command`, `Relay.Result` — what a script can say, and the answers;
* `Relay.perform` — a whole script in a given network.

Design notes: a script in which somebody connects cannot be carried out where
nobody can; such a script, or one that names a producer that never connected or
waits for what never happens, has no answer at all; nor has one for a server whose
hub cannot be started.
-/
import VideoRelay.Frame.Reader
import VideoRelay.Relay.Network
import VideoRelay.Relay.Server

namespace VideoRelay

namespace Relay

/-- What a script can say. -/
inductive Command
  | subscribe
  | connect
  | send (producer : Nat) (data : Bytes)
  | finish (producer : Nat)
  /-- Wait until the server has closed a producer's connection. -/
  | wait (producer : Nat)
  | stats
  | shutdownHub
  deriving DecidableEq, Repr

/-- The answer to a command. -/
inductive Result
  | ok
  /-- The hub had stopped when the subscriber came. -/
  | stopped
  | closed
  | report (stats : HubStats)
  | failed (cause : Error)
  deriving DecidableEq, Repr

/-- What a whole script comes to. -/
structure Report where
  results : List Result
  ending : Except Error Unit
  received : List (List Packet)

/-- A connection that takes everything. -/
def openLink : Link := ⟨.fresh (fun _ => none) none, none⟩

/-- A call by the script itself. -/
def call (r : Relay) (command : Hub.Command) : Relay × Option Hub.Reply :=
  let ticket := r.inner.system.hub.nextTicket
  let (inner, called) := r.inner.act (.hub (.call command))
  let (inner, events) := inner.settle
  let reply? := (called ++ events).findSome? fun
    | .hub (.returned t reply) => if t = ticket then some reply else none
    | _ => none
  (({ r with inner }).settle, reply?)

/-- Whether this producer ever connected. -/
def knows (r : Relay) (p : Nat) : Bool := p < r.peers.length

/-- A command; nothing if it cannot be carried out. -/
def play? (network : Network) (r : Relay) : Command → Option (Result × Relay)
  | .subscribe =>
    if network.isReachable then
      if r.inner.system.hub.isStopped then some (.stopped, (r.subscribe openLink).settle)
      else some (.ok, (r.subscribe openLink).settle)
    else none
  | .connect => if network.isReachable then some (.ok, r.connect.settle) else none
  | .send p data => if r.knows p then some (.ok, (r.send p data).settle) else none
  | .finish p => if r.knows p then some (.ok, (r.finish p).settle) else none
  | .wait p => if r.peers[p]?.any (·.state = .closed) then some (.closed, r) else none
  | .stats =>
    match r.call .stats with
    | (r, some (.report stats)) => some (.report stats, r)
    | (r, some _) => some (.failed (.hub .closed), r)
    | (_, none) => none
  | .shutdownHub => some (.ok, (r.call .shutdown).1)

/-- The rest of a script, and the server after it. -/
def playAll? (network : Network) (r : Relay) : List Command → Option (List Result × Relay)
  | [] => some ([], r)
  | command :: rest => do
    let (result, r) ← r.play? network command
    let (results, r) ← r.playAll? network rest
    return (result :: results, r)

/-- The packets in a byte stream. -/
def packetsOf (data : Bytes) : List Packet :=
  (Reader.ofSource (.unbuffered [.chunk data, .endOfStream])).all.filterMap fun
    | .packet packet => some packet
    | _ => none

/-- What the server comes to when it is told to stop. -/
def conclude (results : List Result) (r : Relay) : Report :=
  let r := (r.stop (.ok ())).settle
  { results
    ending := r.outcome?.getD (.ok ())
    received := r.inner.links.map fun link => packetsOf link.connection.written }

/-- Bind both listeners and carry out a script.  A listener that cannot be bound
is the whole answer. -/
def perform (network : Network) (config : ServerConfig) (script : List Command) :
    Option (Except Error Report) :=
  match network.bindFailure? config.ingest, network.bindFailure? config.broadcast with
  | some cause, _ => some (.error (.listener config.ingest cause))
  | none, some cause => some (.error (.listener config.broadcast cause))
  | none, none =>
    if Runtime.standard.canStart config.hub then
      ((start config).playAll? network script).map fun (results, r) => .ok (r.conclude results)
    else none

end Relay

end VideoRelay

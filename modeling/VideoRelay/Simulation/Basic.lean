/-
A system in virtual time, with connections and consumers that behave as told.

* `Link` — a connection that takes as many bytes as it has credit for;
* `Channel` — a consumer's bounded queue of payloads;
* `Simulation` — a system with its links, its channels and its client;
* `Simulation.proceed?` — a step of one of its parts;
* `Simulation.proceedOn?` — the same on a given runtime, where the hub may break down;
* `Simulation.settle` — everything runs until nothing can proceed.

Design notes: the order in which `Simulation.next?` tries the parts is one of
many; the inputs of interest have the same outcome under each.
`Simulation.workload` bounds the steps until nothing can proceed: every step
moves a byte, a packet or a call on by one of finitely many stages, once for each
subscriber that it may reach.
-/
import VideoRelay.Frame.Connection
import VideoRelay.Hub.Runtime
import VideoRelay.System

namespace VideoRelay

/-! ### Connections and consumers -/

/-- A connection behind a limit on what it may take. -/
structure Link where
  connection : Connection
  /-- The bytes that it may still take; without a number, any. -/
  credit? : Option Nat

namespace Link

/-- The answer to one operation that carries no bytes. -/
def answerPlain (l : Link) (operation : Operation) : Answer :=
  match l.connection.failure? operation with
  | some cause => .failed cause
  | none => .done

/-- The answer to what a session asks, if there is one yet: without credit the
connection is not ready, unless it fails anyway. -/
def answer? (l : Link) : Errand → Option (Answer × Link)
  | .flush => some (l.answerPlain .flush, l)
  | .shutDown =>
    match l.answerPlain .shutdown with
    | .done => some (.done, { l with connection := { l.connection with isShutDown := true } })
    | answer => some (answer, l)
  | .write data =>
    if l.connection.writeFailure? = none ∧ l.credit? = some 0 then none
    else
      match l.connection.write (takeUpTo l.credit? data) with
      | (.error cause, connection) => some (.failed cause, { l with connection })
      | (.ok n, connection) =>
        some (.accepted n, { connection, credit? := l.credit?.map (· - n) })

def grant (l : Link) (n : Nat) : Link := { l with credit? := l.credit?.map (· + n) }

end Link

/-- A consumer's queue of payloads. -/
structure Channel where
  capacity : Nat
  /-- Handed over and not yet taken, oldest first. -/
  queue : List Payload
  isOpen : Bool

namespace Channel

def ofCapacity (n : Nat) : Channel := ⟨max n 1, [], true⟩

/-- What becomes of a payload held out: it is taken, or the consumer is gone;
nothing while the queue is full. -/
def answer? (c : Channel) (payload : Payload) : Option (Option Error × Channel) :=
  if !c.isOpen then some (some .sinkClosed, c)
  else if c.queue.length < c.capacity then
    some (none, { c with queue := c.queue ++ [payload] })
  else none

def drop (c : Channel) : Channel := { c with queue := [], isOpen := false }

end Channel

/-! ### Simulations -/

/-- A system, what its sessions work with, and its client. -/
structure Simulation where
  system : System
  links : List Link
  channels : List Channel
  /-- Tickets of the client's calls, in order. -/
  calls : List Nat
  held : List Nat

namespace Simulation

def start (config : HubConfig) : Simulation := ⟨.start config, [], [], [], []⟩

def act? (s : Simulation) (action : System.Action) : Option (Simulation × List System.Event) :=
  (s.system.step? action).map fun (system, events) => ({ s with system }, events)

/-- One action of the system, or nothing at all if it is not possible. -/
def act (s : Simulation) (action : System.Action) : Simulation × List System.Event :=
  (s.act? action).getD (s, [])

/-- The connection of session `i` answers. -/
def serveLink? (s : Simulation) (i : Nat) : Option (Simulation × List System.Event) := do
  let session ← s.system.writers[i]?
  let errand ← session.errand?
  let link ← s.links[i]?
  let (answer, link) ← link.answer? errand
  { s with links := s.links.set i link }.act? (.connection i answer)

/-- The consumer of tap `i` answers. -/
def serveChannel? (s : Simulation) (i : Nat) : Option (Simulation × List System.Event) := do
  let session ← s.system.taps[i]?
  let payload ← session.offer?
  let channel ← s.channels[i]?
  let (failure?, channel) ← channel.answer? payload
  { s with channels := s.channels.set i channel }.act? (.consumer i failure?)

/-- The parts that run by themselves. -/
inductive Part
  | hub
  /-- Callers that wait for room in the queue of commands. -/
  | callers
  | producer (i : Nat)
  | writer (i : Nat)
  | link (i : Nat)
  | tap (i : Nat)
  | channel (i : Nat)
  deriving DecidableEq, Repr

/-- One step of a part, if it can proceed. -/
def proceed? (s : Simulation) : Part → Option (Simulation × List System.Event)
  | .hub => s.act? (.hub .work)
  | .callers => s.act? (.hub .enqueue)
  | .producer i => s.act? (.produce i)
  | .writer i => s.act? (.write i)
  | .link i => s.serveLink? i
  | .tap i => s.act? (.tap i)
  | .channel i => s.serveChannel? i

def parts (s : Simulation) : List Part :=
  .hub :: .callers ::
    ((List.range s.system.producers.length).map .producer ++
      (List.range s.system.writers.length).flatMap (fun i => [.writer i, .link i]) ++
      (List.range s.system.taps.length).flatMap fun i => [.tap i, .channel i])

/-- The first part that can proceed takes a step. -/
def next? (s : Simulation) : Option (Simulation × List System.Event) :=
  s.parts.findSome? s.proceed?

/-- One step of a part on a runtime: only the hub asks anything of it. -/
def proceedOn? (r : Runtime) (s : Simulation) : Part → Option (Simulation × List System.Event)
  | .hub => (s.system.hub.workOn? r).map fun (hub, events) =>
    let (system, events) := s.system.absorb hub events
    ({ s with system }, events)
  | part => s.proceed? part

/-- The first part that can proceed on a runtime takes a step. -/
def nextOn? (r : Runtime) (s : Simulation) : Option (Simulation × List System.Event) :=
  s.parts.findSome? (s.proceedOn? r)

/-! ### Running until nothing can proceed -/

/-- How much a command has to move. -/
def commandSize : Hub.Command → Nat
  | .packet data => data.length + 1
  | _ => 1

/-- How much there is to move in all, in bytes, packets, calls and sessions. -/
def size (s : Simulation) : Nat :=
  let hub := s.system.hub
  let requests := (hub.waiting ++ hub.commands).map fun r => commandSize r.command
  let queues := hub.subscribers.map fun s => total (s.queue.map fun p => p.length + 1) + 1
  let delivering := match hub.phase with
    | .delivering b => b.packet.length + 1
    | _ => 0
  let producers := s.system.producers.map fun p => p.reader.size + 1
  let writers := s.system.writers.map fun w =>
    match w.phase with
    | .writing _ pieces => total (pieces.map List.length) + w.buffer.length + 1
    | .spilling rest _ pieces => rest.length + total (pieces.map List.length) + 1
    | .flushing rest _ => rest.length + 1
    | _ => w.buffer.length + 1
  let taps := s.system.taps.map fun t =>
    match t.phase with
    | .sending rest => rest.length + 1
    | _ => 1
  total requests + total queues + delivering + total producers + total writers + total taps

/-- A bound on the steps until nothing can proceed. -/
def workload (s : Simulation) : Nat := 64 * (s.size + 1) * (s.size + 1)

/-- At most `fuel` steps on a runtime, behind the events so far in reverse. -/
def runOn (r : Runtime) (fuel : Nat) (done : List (List System.Event)) (s : Simulation) :
    Simulation × List System.Event :=
  match fuel with
  | 0 => (s, done.reverse.flatten)
  | fuel + 1 =>
    match s.nextOn? r with
    | none => (s, done.reverse.flatten)
    | some (s, events) => s.runOn r fuel (events :: done)

/-- Everything runs until nothing can proceed. -/
def settle (s : Simulation) : Simulation × List System.Event := s.runOn .standard s.workload []

end Simulation

end VideoRelay

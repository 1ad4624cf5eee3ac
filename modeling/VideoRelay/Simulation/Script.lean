/-
Scripts: commands to a simulation, and what is seen after each.

A script is carried out command by command; after each, everything runs until
nothing can proceed, and only then is it answered.

* `Simulation.Command` — what a script can say;
* `Simulation.Result` — the answer to a command;
* `Simulation.Observation` — the answer, earlier calls that ended, and the log;
* `Simulation.perform` — a whole script.

Design notes: a command may name a session that does not exist.  Such a script
cannot be carried out, and has no answer at all; nor has one for a hub that cannot
be started.
-/
import VideoRelay.Simulation.Basic

namespace VideoRelay

namespace Simulation

/-- What a script can say. -/
inductive Command
  | call (command : Hub.Command)
  /-- Give up the call of this number. -/
  | cancel (call : Nat)
  | isClosed
  | dropHandle
  | advance (milliseconds : Nat)
  /-- Take a packet, if there is one. -/
  | tryTake (id : Nat)
  /-- Take a packet, or say whether one may still come. -/
  | take (id : Nat)
  | drain (id : Nat)
  | close (id : Nat)
  | discard (id : Nat)
  /-- Hand a subscription to a session with this link. -/
  | write (id capacity : Nat) (link : Link)
  | grant (writer n : Nat)
  | writer (writer : Nat)
  /-- Start a producer's session. -/
  | produce (capacity : Nat) (feed : List Incoming)
  | feed (producer : Nat) (items : List Incoming)
  | producer (producer : Nat)
  /-- Register and start a tap. -/
  | tap (config : TapConfig) (capacity : Nat)
  /-- Take up to so many payloads from a tap's consumer. -/
  | tapTake (tap : Nat) (limit? : Option Nat)
  | tapDrop (tap : Nat)
  | tap? (tap : Nat)

/-- The end of a row of things taken. -/
inductive Rest
  | empty
  | disconnected
  deriving DecidableEq, Repr

/-- How an earlier call ended. -/
inductive Completion
  | returned (reply : Hub.Reply)
  | cancelled
  deriving DecidableEq, Repr

/-- What can be said of a subscriber's session. -/
structure WriterState where
  written : Bytes
  isShutDown : Bool
  result? : Option (Except Error SessionStats)

/-- The answer to a command. -/
inductive Result
  | ok
  /-- The call has not ended yet. -/
  | pending
  | noHandle
  /-- There is no such call, or it has ended. -/
  | noCall
  /-- The client does not hold this subscription. -/
  | noSubscription
  /-- The consumer is gone. -/
  | noReceiver
  | returned (reply : Hub.Reply)
  | flag (value : Bool)
  | packet (packet : Packet)
  | rest (rest : Rest)
  | waiting
  | ended
  | drained (packets : List Packet) (rest : Rest)
  | writerStarted (writer id : Nat)
  | writer (state : WriterState)
  | producerStarted (producer : Nat)
  | producer (result? : Option (Except Error SessionStats))
  | tapStarted (tap id : Nat)
  | tapFailed (cause : Error)
  | payloads (payloads : List Payload) (rest? : Option Rest)
  | tap (result? : Option (Except Error TapStats))

/-- One line of the log. -/
inductive Record
  | removed (id : Nat) (reason : Hub.Removal) (queued skipped left : Nat)
  | expired (place : Hub.Expiry)
  | stopped (subscribers packets : Nat)
  | skipped (frame : SkippedFrame)
  deriving DecidableEq, Repr

/-- What is seen after a command. -/
structure Observation where
  result : Result
  /-- Earlier calls of the client that ended meanwhile, by number. -/
  completions : List (Nat × Completion)
  log : List Record

/-- How everything stands at the end. -/
structure Ending where
  hubStopped : Bool
  producers : List (Option (Except Error SessionStats))
  writers : List WriterState
  taps : List (Option (Except Error TapStats))

/-! ### Events as they are shown -/

/-- The reply to the call with this ticket. -/
def reply? (ticket : Nat) (events : List System.Event) : Option Hub.Reply :=
  events.findSome? fun
    | .hub (.returned t reply) => if t = ticket then some reply else none
    | _ => none

/-- How the call with this ticket ended. -/
def completion? (ticket : Nat) (events : List System.Event) : Option Completion :=
  events.findSome? fun
    | .hub (.returned t reply) => if t = ticket then some (.returned reply) else none
    | .hub (.cancelled t) => if t = ticket then some .cancelled else none
    | _ => none

/-- Of the calls in `tickets`, numbered from `n`, those that ended. -/
def completions (n : Nat) (tickets : List Nat) (events : List System.Event) :
    List (Nat × Completion) :=
  match tickets with
  | [] => []
  | ticket :: rest =>
    ((completion? ticket events).map fun c => (n, c)).toList ++ completions (n + 1) rest events

/-- The line of the log for an event of the hub. -/
def hubRecord? : System.Event → Option Record
  | .hub (.removed id reason queued skipped left) =>
    some (.removed id reason queued skipped left)
  | .hub (.expired place) => some (.expired place)
  | .hub (.stopped subscribers packets) => some (.stopped subscribers packets)
  | _ => none

def skippedFrame? : System.Event → Option SkippedFrame
  | .skipped frame => some frame
  | _ => none

/-- The log: the hub's lines in order, then what taps left out, by subscriber. -/
def log (events : List System.Event) : List Record :=
  let skipped := (events.filterMap skippedFrame?).mergeSort fun a b => a.subscriber ≤ b.subscriber
  events.filterMap hubRecord? ++ skipped.map .skipped

/-- The subscriptions that calls with these tickets brought. -/
def subscribed (tickets : List Nat) (events : List System.Event) : List Nat :=
  events.filterMap fun
    | .hub (.returned t (.subscribed id)) => if t ∈ tickets then some id else none
    | _ => none

/-! ### Single commands -/

/-- A command's answer, the simulation after it, and all that happened. -/
abbrev Outcome := Result × Simulation × List System.Event

/-- Do something, let everything run, and answer as decided before. -/
def thenSettle (result : Result) (done : Simulation × List System.Event) : Outcome :=
  let (s, events) := done
  let (s, more) := s.settle
  (result, s, events ++ more)

def unchanged (s : Simulation) (result : Result) : Outcome := thenSettle result (s, [])

def hasHandle (s : Simulation) : Bool := 0 < s.system.clientHandles

/-- A call; it gets the next number. -/
def playCall (s : Simulation) (command : Hub.Command) : Outcome :=
  if s.hasHandle then
    let ticket := s.system.hub.nextTicket
    let (s, called) := s.act (.hub (.call command))
    let (s, events) := { s with calls := s.calls ++ [ticket] }.settle
    let events := called ++ events
    match reply? ticket events with
    | some reply => (.returned reply, s, events)
    | none => (.pending, s, events)
  else s.unchanged .noHandle

def playCancel (s : Simulation) (call : Nat) : Outcome :=
  match s.calls[call]?.bind fun ticket => s.act? (.hub (.cancel ticket)) with
  | some done => thenSettle .ok done
  | none => s.unchanged .noCall

/-- What a subscription in the client's hands has to say, after `f`. -/
def withHeld (s : Simulation) (id : Nat) (f : Unit → Outcome) : Outcome :=
  if id ∈ s.held then f () else s.unchanged .noSubscription

/-- Take a packet, or else answer as told. -/
def playTake (s : Simulation) (id : Nat) (ifWaiting ifEnded : Result) : Outcome :=
  match s.system.hub.available id with
  | .packet packet => thenSettle (.packet packet) (s.act (.hub (.take id)))
  | .waiting => s.unchanged ifWaiting
  | .ended => s.unchanged ifEnded

def takeMany (n : Nat) (id : Nat) (s : Simulation) : Simulation × List System.Event :=
  match n with
  | 0 => (s, [])
  | n + 1 =>
    let (s, first) := s.act (.hub (.take id))
    let (s, others) := takeMany n id s
    (s, first ++ others)

def queueOf (s : Simulation) (id : Nat) : List Packet :=
  match s.system.hub.subscribers[id]? with
  | some subscriber => subscriber.queue
  | none => []

def playDrain (s : Simulation) (id : Nat) : Outcome :=
  let packets := s.queueOf id
  let (s, events) := takeMany packets.length id s
  let rest := if s.system.hub.available id = .waiting then .empty else .disconnected
  thenSettle (.drained packets rest) (s, events)

def playWrite (s : Simulation) (id capacity : Nat) (link : Link) : Outcome :=
  if s.hasHandle then
    let writer := s.system.writers.length
    let s := { s with links := s.links ++ [link], held := s.held.filter (· ≠ id) }
    thenSettle (.writerStarted writer id) (s.act (.startWriter id capacity))
  else s.unchanged .noHandle

/-- Register, and start a tap on the new subscription; a registration that
cannot be completed now is given up. -/
def playTap (s : Simulation) (config : TapConfig) (capacity : Nat) : Outcome :=
  if s.hasHandle then
    let ticket := s.system.hub.nextTicket
    let (s, called) := s.act (.hub (.call .register))
    let (s, events) := s.settle
    let events := called ++ events
    match reply? ticket events with
    | some (.subscribed id) =>
      let tap := s.system.taps.length
      let (s, started) := s.act (.startTap id config)
      let s := { s with channels := s.channels ++ [Channel.ofCapacity capacity] }
      thenSettle (.tapStarted tap id) (s, events ++ started)
    | some _ => (.tapFailed (.hub .closed), s, events)
    | none =>
      let (s, cancelled) := s.act (.hub (.cancel ticket))
      thenSettle .pending (s, events ++ cancelled)
  else s.unchanged .noHandle

def tapEnded (s : Simulation) (i : Nat) : Bool :=
  s.system.taps[i]?.any (·.result?.isSome)

/-- Take up to so many payloads; if fewer are there, tell whether more may come. -/
def playTapTake (s : Simulation) (i : Nat) (channel : Channel) (limit? : Option Nat) : Outcome :=
  if channel.isOpen then
    let count := match limit? with
      | none => channel.queue.length
      | some n => min n channel.queue.length
    let ranOut := match limit? with
      | none => true
      | some n => count < n
    let rest : Rest := if s.tapEnded i then .disconnected else .empty
    let channel' := { channel with queue := channel.queue.drop count }
    thenSettle
      (.payloads (channel.queue.take count) (if ranOut then some rest else none))
      ({ s with channels := s.channels.set i channel' }, [])
  else s.unchanged .noReceiver

/-- How session `i` and its connection stand. -/
def writerState (session : SubscriberSession) (link : Link) : WriterState where
  written := link.connection.written
  isShutDown := link.connection.isShutDown
  result? := session.result?

/-- A command; nothing if it names a session that does not exist. -/
def play? (s : Simulation) : Command → Option Outcome
  | .call command => some (s.playCall command)
  | .cancel call => some (s.playCancel call)
  | .isClosed =>
    some (s.unchanged (if s.hasHandle then .flag s.system.hub.isStopped else .noHandle))
  | .dropHandle => some (thenSettle .ok (s.act (.hub .dropHandle)))
  | .advance milliseconds => some (thenSettle .ok (s.act (.hub (.advance milliseconds))))
  | .tryTake id =>
    some (s.withHeld id fun _ => s.playTake id (.rest .empty) (.rest .disconnected))
  | .take id => some (s.withHeld id fun _ => s.playTake id .waiting .ended)
  | .drain id => some (s.withHeld id fun _ => s.playDrain id)
  | .close id => some (s.withHeld id fun _ => thenSettle .ok (s.act (.hub (.close id))))
  | .discard id => some (s.withHeld id fun _ =>
      thenSettle .ok ({ s with held := s.held.filter (· ≠ id) }.act (.hub (.discard id))))
  | .write id capacity link => some (s.withHeld id fun _ => s.playWrite id capacity link)
  | .grant i n => do
    let link ← s.links[i]?
    return thenSettle .ok ({ s with links := s.links.set i (link.grant n) }, [])
  | .writer i => do
    return s.unchanged (.writer (writerState (← s.system.writers[i]?) (← s.links[i]?)))
  | .produce capacity feed =>
    if s.hasHandle then
      let source : Source := ⟨max capacity 1, [], feed⟩
      some (thenSettle (.producerStarted s.system.producers.length)
        (s.act (.startProducer source)))
    else some (s.unchanged .noHandle)
  | .feed i items => do
    let _ ← s.system.producers[i]?
    return thenSettle .ok (s.act (.arrive i items))
  | .producer i => do return s.unchanged (.producer (← s.system.producers[i]?).result?)
  | .tap config capacity => some (s.playTap config capacity)
  | .tapTake i limit? => do return s.playTapTake i (← s.channels[i]?) limit?
  | .tapDrop i => do
    let channel ← s.channels[i]?
    return thenSettle .ok ({ s with channels := s.channels.set i channel.drop }, [])
  | .tap? i => do return s.unchanged (.tap (← s.system.taps[i]?).result?)

/-! ### Scripts -/

/-- Carry out a command and show what is seen.  Calls that began earlier count
as completed; the one that begins now is the answer itself. -/
def watch? (s : Simulation) (command : Command) : Option (Simulation × Observation) := do
  let (result, next, events) ← s.play? command
  return ({ next with held := next.held ++ subscribed next.calls events },
    { result, completions := completions 0 s.calls events, log := log events })

def ending (s : Simulation) : Ending where
  hubStopped := s.system.hub.isStopped
  producers := s.system.producers.map (·.result?)
  writers := s.system.writers.zipWith writerState s.links
  taps := s.system.taps.map (·.result?)

def watchAll? (s : Simulation) : List Command → Option (List Observation × Ending)
  | [] => some ([], s.ending)
  | command :: rest => do
    let (s, seen) ← s.watch? command
    let (others, ending) ← s.watchAll? rest
    return (seen :: others, ending)

/-- A whole script on a new hub. -/
def perform (config : HubConfig) (script : List Command) :
    Option (List Observation × Ending) :=
  if Runtime.standard.canStart config then (start config).watchAll? script else none

end Simulation

end VideoRelay

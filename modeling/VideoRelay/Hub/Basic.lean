/-
The hub: its state, and what can be observed of it.

A hub owns the register of subscribers and hands every packet to each of them.
Callers reach it through one bounded queue of commands; it takes up one command
at a time, so that the register needs no lock.

* `Hub.Command`, `Hub.Request`, `Hub.Reply` — what callers ask and are told;
* `Hub.Subscriber` — one entry of the register and its queue;
* `Hub` — everything there is at one moment;
* `Hub.Event` — what happens, so that the history of a hub is a list of events.

Design notes: subscribers are numbered in the order of registration, and the
number is the position in `Hub.subscribers`.  An entry stays after its removal,
because what is queued can still be taken; so no number is ever used again.
Each call gets a ticket, by which it is answered or cancelled.
-/
import VideoRelay.Frame.Basic
import VideoRelay.Hub.Config
import VideoRelay.Stats

namespace VideoRelay

namespace Hub

/-! ### Calls -/

/-- What a caller asks of the hub. -/
inductive Command
  /-- Hand a packet to every registered subscriber. -/
  | packet (data : Packet)
  | register
  /-- Remove a subscriber; unknown numbers are ignored. -/
  | unregister (id : Nat)
  | stats
  /-- Stop when this command's turn comes. -/
  | shutdown
  deriving DecidableEq, Repr

/-- Whether the caller waits for more than room in the queue. -/
def Command.wantsAnswer : Command → Bool
  | .register | .stats => true
  | .packet _ | .unregister _ | .shutdown => false

/-- A call under way. -/
structure Request where
  ticket : Nat
  command : Command
  deriving DecidableEq, Repr

/-- How a call ends. -/
inductive Reply
  /-- The command is in the queue, or the hub is stopped as asked. -/
  | accepted
  | subscribed (id : Nat)
  | report (stats : HubStats)
  | closed
  deriving DecidableEq, Repr

/-- How a call ends if the hub stops first: a shutdown has what it wants. -/
def Command.whenStopped : Command → Reply
  | .shutdown => .accepted
  | _ => .closed

/-! ### Subscribers -/

/-- An entry of the register, with its queue. -/
structure Subscriber where
  /-- Delivered and not yet taken, oldest first. -/
  queue : List Packet
  /-- The receiving end still takes deliveries. -/
  isOpen : Bool
  /-- The hub still delivers. -/
  isRegistered : Bool
  queued : Nat
  /-- Packets left out so far because the queue was full. -/
  skipped : Nat
  deriving DecidableEq, Repr

def Subscriber.fresh : Subscriber := ⟨[], true, true, 0, 0⟩

/-! ### Broadcasts -/

/-- A packet being handed round. -/
structure Broadcast where
  packet : Packet
  /-- Subscribers whose turn is still to come, in order. -/
  remaining : List Nat
  /-- Subscribers found closed at their turn. -/
  closed : List Nat
  /-- Subscribers found full at their turn, under the disconnecting policy. -/
  overflowed : List Nat
  deriving DecidableEq, Repr

/-- What is left of a broadcast when the first subscriber has had its turn. -/
def Broadcast.afterTurn (b : Broadcast) : Broadcast := { b with remaining := b.remaining.tail }

/-- What the hub is at. -/
inductive Phase
  | ready
  | delivering (broadcast : Broadcast)
  | stopped
  deriving DecidableEq, Repr

/-- The counters that the hub keeps. -/
structure Tally where
  packetsReceived : Nat
  bytesReceived : Nat
  totalSubscribers : Nat
  packetsDropped : Nat
  disconnected : Nat
  deriving DecidableEq, Repr

def Tally.zero : Tally := ⟨0, 0, 0, 0, 0⟩

/-! ### Events -/

/-- Why a subscriber is removed. -/
inductive Removal
  | unregistered
  | closed
  | overflow
  /-- The caller that registered it went away before it was told. -/
  | abandoned
  deriving DecidableEq, Repr

/-- Where the hub finds that its time is up. -/
inductive Expiry
  /-- Before taking up a command. -/
  | queue
  /-- While waiting for room in a subscriber's queue. -/
  | delivery
  deriving DecidableEq, Repr

/-- What happens at a hub. -/
inductive Event
  | called (request : Request)
  /-- The command entered the queue. -/
  | accepted (request : Request)
  | cancelled (ticket : Nat)
  | returned (ticket : Nat) (reply : Reply)
  /-- The hub took up the command. -/
  | began (request : Request)
  | registered (ticket : Nat) (id : Nat)
  | queued (id : Nat) (packet : Packet)
  | skipped (id : Nat) (packet : Packet)
  /-- The subscriber's queue was found closed at its turn. -/
  | refused (id : Nat) (packet : Packet)
  /-- The subscriber's queue was found full at its turn, for which it will be
  removed. -/
  | overflowed (id : Nat) (packet : Packet)
  | took (id : Nat) (packet : Packet)
  /-- The receiving end takes no more deliveries. -/
  | closed (id : Nat)
  /-- The receiving end is given up, and what is queued with it. -/
  | dropped (id : Nat)
  /-- The subscriber was removed, when so many packets had been queued and so
  many left out for it; `left` others remain. -/
  | removed (id : Nat) (reason : Removal) (queued skipped left : Nat)
  | expired (place : Expiry)
  /-- The hub stopped, with so many subscribers and after so many packets. -/
  | stopped (subscribers packets : Nat)
  deriving DecidableEq, Repr

end Hub

/-! ### The hub -/

/-- A hub at one moment. -/
structure Hub where
  config : HubConfig
  phase : Hub.Phase
  /-- Accepted commands, oldest first. -/
  commands : List Hub.Request
  /-- Callers that wait for room in the queue of commands, first come first. -/
  waiting : List Hub.Request
  /-- Tickets of accepted calls whose callers wait for an answer. -/
  unanswered : List Nat
  nextTicket : Nat
  /-- Handles held apart from those of unfinished calls. -/
  handles : Nat
  subscribers : List Hub.Subscriber
  tally : Hub.Tally
  /-- Milliseconds since the start. -/
  now : Nat
  /-- When a shutdown was first asked for. -/
  requestedAt? : Option Nat
  deriving DecidableEq, Repr

namespace Hub

/-! ### Views -/

/-- A hub and the one handle to it. -/
def start (config : HubConfig) : Hub where
  config
  phase := .ready
  commands := []
  waiting := []
  unanswered := []
  nextTicket := 0
  handles := 1
  subscribers := []
  tally := .zero
  now := 0
  requestedAt? := none

def isStopped (h : Hub) : Bool := h.phase = .stopped

/-- The number that the next subscriber will get. -/
def nextId (h : Hub) : Nat := h.subscribers.length

def isRegistered (h : Hub) (id : Nat) : Bool := h.subscribers[id]?.any (·.isRegistered)

/-- The registered subscribers, in order. -/
def registeredIds (h : Hub) : List Nat := (List.range h.nextId).filter h.isRegistered

def registeredCount (h : Hub) : Nat := h.subscribers.countP (·.isRegistered)

/-- Whether a shutdown was asked for and its grace has run out.  Whether the end of the grace
can be told at all is another question (`isBeyondTime`). -/
def isOverdue (h : Hub) : Bool :=
  match h.requestedAt? with
  | none => false
  | some time => time + h.config.grace ≤ h.now

/-- Nobody holds a handle any more: unfinished calls hold one each. -/
def isUnreachable (h : Hub) : Bool :=
  h.handles = 0 && h.waiting.isEmpty && h.unanswered.isEmpty

/-- The counters as a caller is told them. -/
def report (h : Hub) : HubStats where
  packetsReceived := h.tally.packetsReceived
  bytesReceived := h.tally.bytesReceived
  activeSubscribers := h.registeredCount
  totalSubscribers := h.tally.totalSubscribers
  packetsDropped := h.tally.packetsDropped
  subscribersDisconnected := h.tally.disconnected

/-- What the receiving end of a subscription finds. -/
inductive Availability
  | packet (packet : Packet)
  | waiting
  /-- Nothing, and nothing will come. -/
  | ended
  deriving DecidableEq, Repr

/-- Whether more can be delivered to a subscriber. -/
def isAttached (h : Hub) (s : Subscriber) : Bool :=
  s.isOpen && s.isRegistered && !h.isStopped

/-- What the receiving end of subscription `id` finds. -/
def available (h : Hub) (id : Nat) : Availability :=
  match h.subscribers[id]? with
  | none => .ended
  | some s =>
    match s.queue with
    | p :: _ => .packet p
    | [] => if h.isAttached s then .waiting else .ended

end Hub

end VideoRelay

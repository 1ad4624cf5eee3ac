/-
What a hub, its callers and its subscribers do.

Each function gives the hub afterwards and the events, in order.

* `Hub.call`, `Hub.cancel?` — a call begins, a caller gives up;
* `Hub.enqueue?` — the first waiting caller's command enters the queue;
* `Hub.work?` — the hub's own next step, nothing if it has to wait;
* `Hub.take?`, `Hub.close`, `Hub.discard` — the receiving end of a subscription;
* `Hub.step?` — all of these as actions, nothing if one is not possible;
* `Hub.Run` — the histories and states that any order of actions leads to.

Design notes: the hub's own part is one deterministic step at a time, and a
broadcast is one step for each subscriber, so that callers and subscribers can
act in between.  Before a command the deadline is looked at first, while
delivering the queue comes first.  The steps are those of a hub that always gets the queues
and can tell the moments that it asks for; `Hub.stepOn?` bounds both.
-/
import VideoRelay.Hub.Basic

namespace VideoRelay

namespace Hub

/-! ### Callers -/

/-- Ask for something.  The caller joins the line; a stopped hub answers at
once. -/
def call (h : Hub) (command : Command) : Hub × List Event :=
  let request : Request := ⟨h.nextTicket, command⟩
  let h := { h with nextTicket := h.nextTicket + 1 }
  -- A shutdown is on record before its command is in any queue.
  let h := if command = .shutdown then
      { h with requestedAt? := h.requestedAt? <|> some h.now } else h
  if h.isStopped then
    (h, [.called request, .returned request.ticket command.whenStopped])
  else ({ h with waiting := h.waiting ++ [request] }, [.called request])

/-- Give up a call.  A command that is not in the queue yet will never be; one
that is stays there, and its answer is lost. -/
def cancel? (h : Hub) (ticket : Nat) : Option (Hub × List Event) :=
  if h.waiting.any (·.ticket = ticket) then
    some ({ h with waiting := h.waiting.filter (·.ticket ≠ ticket) }, [.cancelled ticket])
  else if ticket ∈ h.unanswered then
    some ({ h with unanswered := h.unanswered.filter (· ≠ ticket) }, [.cancelled ticket])
  else none

/-- The first waiting caller's command enters the queue, if there is room. -/
def enqueue? (h : Hub) : Option (Hub × List Event) :=
  match h.waiting with
  | [] => none
  | request :: rest =>
    if h.commands.length < h.config.commandRoom then
      let h := { h with waiting := rest, commands := h.commands ++ [request] }
      if request.command.wantsAnswer then
        some ({ h with unanswered := h.unanswered ++ [request.ticket] }, [.accepted request])
      else some (h, [.accepted request, .returned request.ticket .accepted])
    else none

/-- One more handle. -/
def cloneHandle (h : Hub) : Hub := { h with handles := h.handles + 1 }

/-- One handle less. -/
def dropHandle (h : Hub) : Hub := { h with handles := h.handles - 1 }

/-! ### Receiving ends -/

/-- Take the oldest packet of a subscription. -/
def take? (h : Hub) (id : Nat) : Option (Hub × List Event) :=
  match h.subscribers[id]? with
  | none => none
  | some s =>
    match s.queue with
    | [] => none
    | p :: rest =>
      some ({ h with subscribers := h.subscribers.set id { s with queue := rest } },
        [.took id p])

/-- Take no more deliveries; what is queued can still be taken. -/
def close (h : Hub) (id : Nat) : Hub × List Event :=
  match h.subscribers[id]? with
  | none => (h, [])
  | some s =>
    ({ h with subscribers := h.subscribers.set id { s with isOpen := false } }, [.closed id])

/-- Take no more deliveries and throw away what is queued. -/
def discard (h : Hub) (id : Nat) : Hub × List Event :=
  match h.subscribers[id]? with
  | none => (h, [])
  | some s =>
    ({ h with subscribers := h.subscribers.set id { s with isOpen := false, queue := [] } },
      [.closed id, .dropped id])

/-! ### The hub itself -/

/-- Stop: the queue of commands is dropped and every unfinished call ends. -/
def stop (h : Hub) : Hub × List Event :=
  ({ h with phase := .stopped, commands := [], waiting := [], unanswered := [] },
    .stopped h.registeredCount h.tally.packetsReceived ::
      (h.waiting.map fun r => .returned r.ticket r.command.whenStopped) ++
      h.unanswered.map fun ticket => .returned ticket .closed)

/-- Stop because the grace has run out. -/
def expire (h : Hub) (place : Expiry) : Hub × List Event :=
  let (h, events) := h.stop
  (h, .expired place :: events)

/-- Remove a subscriber, if it is registered. -/
def remove (h : Hub) (id : Nat) (reason : Removal) : Hub × List Event :=
  match h.subscribers[id]? with
  | none => (h, [])
  | some s =>
    if s.isRegistered then
      let h := { h with subscribers := h.subscribers.set id { s with isRegistered := false } }
      (h, [.removed id reason s.queued s.skipped h.registeredCount])
    else (h, [])

/-- Remove the subscribers that were found closed. -/
def removeClosed (h : Hub) : List Nat → Hub × List Event
  | [] => (h, [])
  | id :: rest =>
    let (h, first) := h.remove id .closed
    let (h, others) := h.removeClosed rest
    (h, first ++ others)

/-- Remove the subscribers that were found full, and count them. -/
def removeOverflowed (h : Hub) : List Nat → Hub × List Event
  | [] => (h, [])
  | id :: rest =>
    let h := { h with tally := { h.tally with disconnected := h.tally.disconnected + 1 } }
    let (h, first) := h.remove id .overflow
    let (h, others) := h.removeOverflowed rest
    (h, first ++ others)

/-- Everybody has had a turn: remove whom the broadcast found closed, then whom
it found full, and be ready for the next command. -/
def finish (h : Hub) (b : Broadcast) : Hub × List Event :=
  let (h, closed) := h.removeClosed b.closed
  let (h, overflowed) := h.removeOverflowed b.overflowed
  ({ h with phase := .ready }, closed ++ overflowed)

/-- The turn of subscriber `id` in a broadcast; nothing if the hub has to wait for
room. -/
def deliver? (h : Hub) (b : Broadcast) (id : Nat) : Option (Hub × List Event) :=
  let b' := b.afterTurn
  match h.subscribers[id]? with
  | none => some ({ h with phase := .delivering b' }, [])
  | some s =>
    -- That it is closed is noted, whatever room there is in the queue.
    if !s.isOpen then
      some ({ h with phase := .delivering { b' with closed := b.closed ++ [id] } },
        [.refused id b.packet])
    else if s.queue.length < h.config.queueRoom then
      let s := { s with queue := s.queue ++ [b.packet], queued := s.queued + 1 }
      some ({ h with phase := .delivering b', subscribers := h.subscribers.set id s },
        [.queued id b.packet])
    else
      match h.config.policy with
      -- Here alone the hub waits in the middle of a command.
      | .block => if h.isOverdue then some (h.expire .delivery) else none
      | .dropNewest =>
        let s := { s with skipped := s.skipped + 1 }
        let tally := { h.tally with packetsDropped := h.tally.packetsDropped + 1 }
        some ({ h with phase := .delivering b', subscribers := h.subscribers.set id s, tally },
          [.skipped id b.packet])
      | .disconnect =>
        some ({ h with phase := .delivering { b' with overflowed := b.overflowed ++ [id] } },
          [.overflowed id b.packet])

/-- Begin to hand round a packet. -/
def broadcast (h : Hub) (packet : Packet) : Hub :=
  { h with
    phase := .delivering ⟨packet, h.registeredIds, [], []⟩
    tally := { h.tally with
      packetsReceived := h.tally.packetsReceived + 1
      bytesReceived := h.tally.bytesReceived + packet.length } }

/-- Register a subscriber and tell the caller.  If the caller has gone away the
subscriber is removed at once.  Its queue is taken to have been made (`breaksDown`). -/
def register (h : Hub) (ticket : Nat) : Hub × List Event :=
  let id := h.nextId
  let h := { h with
    subscribers := h.subscribers ++ [Subscriber.fresh]
    tally := { h.tally with totalSubscribers := h.tally.totalSubscribers + 1 } }
  if ticket ∈ h.unanswered then
    ({ h with unanswered := h.unanswered.filter (· ≠ ticket) },
      [.registered ticket id, .returned ticket (.subscribed id)])
  else
    -- Nobody knows the number, so nobody could ask for its removal.
    let (h, events) := h.remove id .abandoned
    (h, .registered ticket id :: events)

/-- Tell the caller the counters, if it has not gone away. -/
def answerStats (h : Hub) (ticket : Nat) : Hub × List Event :=
  if ticket ∈ h.unanswered then
    ({ h with unanswered := h.unanswered.filter (· ≠ ticket) },
      [.returned ticket (.report h.report)])
  else (h, [])

/-- Apply a command, or for a packet begin to. -/
def apply (h : Hub) (request : Request) : Hub × List Event :=
  match request.command with
  | .packet data => (h.broadcast data, [])
  | .register => h.register request.ticket
  | .unregister id => h.remove id .unregistered
  | .stats => h.answerStats request.ticket
  | .shutdown => h.stop

/-- The hub's own next step, if it can do anything. -/
def work? (h : Hub) : Option (Hub × List Event) :=
  match h.phase with
  | .stopped => none
  | .delivering b =>
    match b.remaining with
    | [] => some (h.finish b)
    | id :: _ => h.deliver? b id
  | .ready =>
    -- The deadline comes before the next command.
    if h.isOverdue then some (h.expire .queue)
    else
      match h.commands with
      | request :: rest =>
        let (h, events) := ({ h with commands := rest }).apply request
        some (h, .began request :: events)
      | [] => if h.isUnreachable then some h.stop else none

/-! ### All together -/

/-- What can be done at a hub. -/
inductive Action
  | call (command : Command)
  | cancel (ticket : Nat)
  | take (id : Nat)
  | close (id : Nat)
  | discard (id : Nat)
  | cloneHandle
  | dropHandle
  | advance (milliseconds : Nat)
  /-- The first waiting caller's command enters the queue. -/
  | enqueue
  | work
  deriving DecidableEq, Repr

/-- One action; nothing if it is not possible.  Calls and handles need a handle
to begin with. -/
def step? (h : Hub) : Action → Option (Hub × List Event)
  | .call command => if 0 < h.handles then some (h.call command) else none
  | .cancel ticket => h.cancel? ticket
  | .take id => h.take? id
  | .close id => if id < h.nextId then some (h.close id) else none
  | .discard id => if id < h.nextId then some (h.discard id) else none
  | .cloneHandle => if 0 < h.handles then some (h.cloneHandle, []) else none
  | .dropHandle => if 0 < h.handles then some (h.dropHandle, []) else none
  | .advance milliseconds => some ({ h with now := h.now + milliseconds }, [])
  | .enqueue => h.enqueue?
  | .work => h.work?

/-- Whether neither the hub nor a waiting caller can proceed. -/
def isStuck (h : Hub) : Bool := h.work?.isNone && h.enqueue?.isNone

/-- A hub started with `config` can have had the events `history` and be in the
state `h` now. -/
inductive Run (config : HubConfig) : List Event → Hub → Prop
  | start : Run config [] (Hub.start config)
  | step {history events : List Event} {h h' : Hub} {action : Action} :
    Run config history h → h.step? action = some (h', events) →
      Run config (history ++ events) h'

end Hub

end VideoRelay

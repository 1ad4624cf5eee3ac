/-
What a hub asks of the runtime that its task runs on.

A queue can be made for so many entries and no more, and a moment too far away cannot be
told.  A task that asks for more breaks down: all that it holds is lost, as when the hub
stops, but nothing is reported.

* `Runtime` — the two bounds;
* `Hub.breaksDown`, `Hub.breakDown` — whether the hub's next step asks for too much, and
  what it comes to then;
* `Hub.workOn?`, `Hub.stepOn?` — the steps of a hub on a given runtime.

Design notes: `Hub.work?` is the hub's step where the runtime has what it asks for, and
`Hub.Run` the runs on such a runtime; only a capacity or a grace far beyond all use makes
a difference.  Room for a subscriber's packets is made when it is registered.  The end of
the grace is worked out where the deadline is looked at, and not before a shutdown was asked
for.  The queue of commands is older than the task: where it cannot be made there is no hub.
-/
import VideoRelay.Hub.Step

namespace VideoRelay

/-- What a runtime has room and numbers for. -/
structure Runtime where
  /-- Entries for which a queue can be made. -/
  queueLimit : Nat
  /-- The last moment that can be told, in milliseconds from the start of the hub. -/
  lastMoment : Nat
  deriving DecidableEq, Repr

namespace Runtime

/-- Words of 64 bits: three bits of a queue's counter are not for its entries, and moments are
seconds, with their sign, and a part of one.  The clock starts with the hub. -/
def standard : Runtime := ⟨UInt64.size / 8 - 1, UInt64.size / 2 * 1000 - 1⟩

/-- Whether there can be a hub with this configuration at all. -/
def canStart (r : Runtime) (config : HubConfig) : Bool := config.commandRoom ≤ r.queueLimit

end Runtime

namespace Hub

variable (r : Runtime) (h : Hub)

/-- Whether a shutdown was asked for and the end of its grace cannot be told. -/
def isBeyondTime : Bool :=
  match h.requestedAt? with
  | none => false
  | some time => r.lastMoment < time + h.config.grace

/-- Whether the hub's next step asks the runtime for what it has not got. -/
def breaksDown : Bool :=
  match h.phase with
  | .stopped => false
  | .delivering b =>
    match b.remaining with
    | [] => false
    | id :: _ =>
      match h.subscribers[id]? with
      | none => false
      | some s =>
        -- The deadline is looked at only while the hub waits for room.
        s.isOpen && h.config.queueRoom ≤ s.queue.length && h.config.policy = .block &&
          h.isBeyondTime r
  | .ready =>
    h.isBeyondTime r ||
      match h.commands with
      | ⟨_, .register⟩ :: _ => !h.isOverdue && r.queueLimit < h.config.queueRoom
      | _ => false

/-- The hub's task breaks down: commands and calls end as when the hub stops, the one just
taken up among them, and nothing is reported. -/
def breakDown : Hub × List Event :=
  let (h, events) := h.stop
  (h, events.tail)

/-- The hub's own next step on a runtime, if it can do anything. -/
def workOn? : Option (Hub × List Event) :=
  if h.breaksDown r then some h.breakDown else h.work?

/-- One action on a runtime; nothing if it is not possible. -/
def stepOn? : Action → Option (Hub × List Event)
  | .work => h.workOn? r
  | action => h.step? action

/-- Whether neither the hub nor a waiting caller can proceed on a runtime. -/
def isStuckOn : Bool := (h.workOn? r).isNone && h.enqueue?.isNone

end Hub

end VideoRelay

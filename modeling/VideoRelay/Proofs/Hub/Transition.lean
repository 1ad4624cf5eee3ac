/-
What one action can do to a hub.

The functions of `Hub.Step` are taken apart here, once; every invariant of a hub
is then a case analysis over three relations:

* `CallerStep` — calls, handles and the clock, none of which touches a subscriber;
* `ReaderStep` — the receiving end of a subscription;
* `WorkStep` — the hub's own step;
* `Transition.of_step?` — an action of a hub is one of the three.

Design notes: the four outcomes of a turn differ in what they do to the queue, to
the counters and to the lists of those to be removed, so `Hub.served` is one
function of the outcome and a turn is one case.
-/
import VideoRelay.Proofs.Hub.Removal

namespace VideoRelay

namespace Hub

/-! ### Callers -/

/-- When a shutdown was first asked for, if `command` is asked for now. -/
def requestedAfter (h : Hub) (command : Command) : Option Nat :=
  if command = .shutdown then h.requestedAt? <|> some h.now else h.requestedAt?

/-- What callers, handles and the clock do. -/
inductive CallerStep (h : Hub) : Action → List Event → Hub → Prop
  | call (command : Command) (live : h.phase ≠ .stopped) :
    CallerStep h (.call command) [.called ⟨h.nextTicket, command⟩]
      { h with
        nextTicket := h.nextTicket + 1
        requestedAt? := h.requestedAfter command
        waiting := h.waiting ++ [⟨h.nextTicket, command⟩] }
  | refuse (command : Command) (stopped : h.phase = .stopped) :
    CallerStep h (.call command)
      [.called ⟨h.nextTicket, command⟩, .returned h.nextTicket command.whenStopped]
      { h with
        nextTicket := h.nextTicket + 1
        requestedAt? := h.requestedAfter command }
  | cancelWaiting (ticket : Nat) (mem : ticket ∈ h.waiting.map (·.ticket)) :
    CallerStep h (.cancel ticket) [.cancelled ticket]
      { h with waiting := h.waiting.filter fun r => r.ticket ≠ ticket }
  | cancelAnswer (ticket : Nat) (mem : ticket ∈ h.unanswered) :
    CallerStep h (.cancel ticket) [.cancelled ticket]
      { h with unanswered := h.unanswered.filter (· ≠ ticket) }
  | accept (request : Request) (rest : List Request) (front : h.waiting = request :: rest)
      (room : h.commands.length < h.config.commandRoom)
      (wants : request.command.wantsAnswer = true) :
    CallerStep h .enqueue [.accepted request]
      { h with
        waiting := rest
        commands := h.commands ++ [request]
        unanswered := h.unanswered ++ [request.ticket] }
  | acceptAndReturn (request : Request) (rest : List Request)
      (front : h.waiting = request :: rest)
      (room : h.commands.length < h.config.commandRoom)
      (wants : request.command.wantsAnswer = false) :
    CallerStep h .enqueue [.accepted request, .returned request.ticket .accepted]
      { h with
        waiting := rest
        commands := h.commands ++ [request] }
  | cloneHandle : CallerStep h .cloneHandle [] h.cloneHandle
  | dropHandle : CallerStep h .dropHandle [] h.dropHandle
  | advance (milliseconds : Nat) :
    CallerStep h (.advance milliseconds) [] { h with now := h.now + milliseconds }

theorem call_callerStep (h : Hub) (command : Command) :
    CallerStep h (.call command) (h.call command).2 (h.call command).1 := by
  by_cases stopped : h.phase = .stopped
  · have hs : CallerStep h (.call command) _ _ := .refuse command stopped
    by_cases hc : command = .shutdown <;>
      simpa [Hub.call, isStopped, requestedAfter, stopped, hc] using hs
  · have hs : CallerStep h (.call command) _ _ := .call command stopped
    by_cases hc : command = .shutdown <;>
      simpa [Hub.call, isStopped, requestedAfter, stopped, hc] using hs

theorem cancel?_callerStep {h h' : Hub} {ticket : Nat} {events : List Event}
    (hc : h.cancel? ticket = some (h', events)) : CallerStep h (.cancel ticket) events h' := by
  simp only [cancel?] at hc
  split at hc
  · rename_i waits
    cases hc
    exact .cancelWaiting ticket (by simpa using waits)
  · split at hc
    · rename_i mem
      cases hc
      exact .cancelAnswer ticket mem
    · cases hc

theorem enqueue?_callerStep {h h' : Hub} {events : List Event}
    (he : h.enqueue? = some (h', events)) : CallerStep h .enqueue events h' := by
  simp only [enqueue?] at he
  split at he
  · simp at he
  · rename_i request rest front
    split at he
    · rename_i room
      split at he
      · rename_i wants
        obtain ⟨rfl, rfl⟩ := by simpa using he
        exact .accept request rest front room wants
      · rename_i wants
        obtain ⟨rfl, rfl⟩ := by simpa using he
        exact .acceptAndReturn request rest front room (by simpa using wants)
    · simp at he

/-- No subscriber, broadcast or counter changes with a caller's step. -/
theorem CallerStep.frame {h h' : Hub} {action : Action} {events : List Event}
    (s : CallerStep h action events h') :
    h'.config = h.config ∧ h'.phase = h.phase ∧ h'.subscribers = h.subscribers ∧
      h'.tally = h.tally := by
  cases s <;> exact ⟨rfl, rfl, rfl, rfl⟩

theorem CallerStep.quiet {h h' : Hub} {action : Action} {events : List Event}
    (s : CallerStep h action events h') : Quiet events := by
  cases s with
  | refuse command stopped => exact .cons rfl (.cons rfl .nil)
  | acceptAndReturn request rest front room wants => exact .cons rfl (.cons rfl .nil)
  | cloneHandle | dropHandle | advance => exact .nil
  | _ => exact .cons rfl .nil

theorem CallerStep.removed {h h' : Hub} {action : Action} {events : List Event}
    (s : CallerStep h action events h') : removed events = [] := by
  cases s <;> rfl

theorem CallerStep.begun {h h' : Hub} {action : Action} {events : List Event}
    (s : CallerStep h action events h') : begun events = [] := by
  cases s <;> rfl

theorem CallerStep.removals {h h' : Hub} {action : Action} {events : List Event}
    (s : CallerStep h action events h') : removals events = [] := by
  cases s <;> rfl

/-! ### Receiving ends -/

/-- What the receiving end of a subscription does. -/
inductive ReaderStep (h : Hub) : Action → List Event → Hub → Prop
  | take (id : Nat) (s : Subscriber) (packet : Packet) (rest : List Packet)
      (found : h.subscribers[id]? = some s) (front : s.queue = packet :: rest) :
    ReaderStep h (.take id) [.took id packet]
      { h with subscribers := h.subscribers.set id { s with queue := rest } }
  | close (id : Nat) (s : Subscriber) (found : h.subscribers[id]? = some s) :
    ReaderStep h (.close id) [.closed id]
      { h with subscribers := h.subscribers.set id { s with isOpen := false } }
  | discard (id : Nat) (s : Subscriber) (found : h.subscribers[id]? = some s) :
    ReaderStep h (.discard id) [.closed id, .dropped id]
      { h with subscribers := h.subscribers.set id { s with isOpen := false, queue := [] } }

theorem take?_readerStep {h h' : Hub} {id : Nat} {events : List Event}
    (ht : h.take? id = some (h', events)) : ReaderStep h (.take id) events h' := by
  simp only [take?] at ht
  split at ht
  · simp at ht
  · rename_i s found
    split at ht
    · simp at ht
    · rename_i packet rest front
      obtain ⟨rfl, rfl⟩ := by simpa using ht
      exact .take id s packet rest found front

theorem take?_of_available {h : Hub} {id : Nat} {packet : Packet}
    (next : h.available id = .packet packet) :
    ∃ h', h.take? id = some (h', [.took id packet]) := by
  rw [available] at next
  split at next
  · cases next
  · rename_i s found
    split at next
    · rename_i p rest front
      cases next
      exact ⟨_, by simp only [take?, found, front]; rfl⟩
    · split at next <;> cases next

theorem close_readerStep {h : Hub} {id : Nat} (known : id < h.nextId) :
    ReaderStep h (.close id) (h.close id).2 (h.close id).1 := by
  obtain ⟨s, found⟩ : ∃ s, h.subscribers[id]? = some s := ⟨_, List.getElem?_eq_getElem known⟩
  have hs : ReaderStep h (.close id) _ _ := .close id s found
  simpa [Hub.close, found] using hs

theorem discard_readerStep {h : Hub} {id : Nat} (known : id < h.nextId) :
    ReaderStep h (.discard id) (h.discard id).2 (h.discard id).1 := by
  obtain ⟨s, found⟩ : ∃ s, h.subscribers[id]? = some s := ⟨_, List.getElem?_eq_getElem known⟩
  have hs : ReaderStep h (.discard id) _ _ := .discard id s found
  simpa [Hub.discard, found] using hs

/-- Only subscribers change with a reader's step. -/
theorem ReaderStep.frame {h h' : Hub} {action : Action} {events : List Event}
    (s : ReaderStep h action events h') :
    h' = { h with subscribers := h'.subscribers } := by
  cases s <;> rfl

theorem ReaderStep.uncalled {h h' : Hub} {action : Action} {events : List Event}
    (s : ReaderStep h action events h') : Uncalled events := by
  cases s with
  | discard => exact .cons rfl (.cons rfl .nil)
  | _ => exact .cons rfl .nil

/-! ### Turns -/

/-- What is left of a broadcast after the turn of `id`. -/
def Broadcast.afterOutcome (b : Broadcast) (id : Nat) : Outcome → Broadcast
  | .queued | .skipped => b.afterTurn
  | .refused => { b.afterTurn with closed := b.closed ++ [id] }
  | .overflowed => { b.afterTurn with overflowed := b.overflowed ++ [id] }

/-- A subscriber after its turn. -/
def Subscriber.afterOutcome (s : Subscriber) (packet : Packet) : Outcome → Subscriber
  | .queued => { s with queue := s.queue ++ [packet], queued := s.queued + 1 }
  | .skipped => { s with skipped := s.skipped + 1 }
  | .refused | .overflowed => s

/-- The counters after a turn. -/
def Tally.afterOutcome (t : Tally) : Outcome → Tally
  | .skipped => { t with packetsDropped := t.packetsDropped + 1 }
  | .queued | .refused | .overflowed => t

/-- The hub after the turn of subscriber `id`. -/
def served (h : Hub) (b : Broadcast) (id : Nat) (s : Subscriber) (outcome : Outcome) : Hub :=
  { h with
    phase := .delivering (b.afterOutcome id outcome)
    subscribers := h.subscribers.set id (s.afterOutcome b.packet outcome)
    tally := h.tally.afterOutcome outcome }

/-- Whether a turn can end so. -/
def Outcome.Fits (config : HubConfig) (s : Subscriber) : Outcome → Prop
  | .queued => s.isOpen = true ∧ s.queue.length < config.queueRoom
  | .refused => s.isOpen = false
  | .skipped =>
    s.isOpen = true ∧ config.queueRoom ≤ s.queue.length ∧ config.policy = .dropNewest
  | .overflowed =>
    s.isOpen = true ∧ config.queueRoom ≤ s.queue.length ∧ config.policy = .disconnect

/-- Whether the hub waits for room in the queue of `s` when it is its turn. -/
structure WaitsFor (h : Hub) (s : Subscriber) : Prop where
  policy : h.config.policy = .block
  isOpen : s.isOpen = true
  full : h.config.queueRoom ≤ s.queue.length

/-- A turn ends in one of four ways, or the hub waits. -/
theorem deliver?_cases {h : Hub} {id : Nat} {s : Subscriber} (b : Broadcast)
    (found : h.subscribers[id]? = some s) :
    (∃ outcome : Outcome, outcome.Fits h.config s ∧
      h.deliver? b id = some (h.served b id s outcome, [Turn.event ⟨id, b.packet, outcome⟩])) ∨
    (h.WaitsFor s ∧
      h.deliver? b id = if h.isOverdue then some (h.expire .delivery) else none) := by
  obtain ⟨known, hs⟩ := List.getElem?_eq_some_iff.mp found
  have same : h.subscribers.set id s = h.subscribers := by rw [← hs, List.set_getElem_self]
  rw [deliver?, found]
  -- A closed queue is noted before a full one, and the policy decides on a full one only.
  by_cases hopen : s.isOpen = true
  · by_cases room : s.queue.length < h.config.queueRoom
    · refine .inl ⟨.queued, ⟨hopen, room⟩, ?_⟩
      simp [hopen, room, served, Turn.event, Broadcast.afterOutcome, Subscriber.afterOutcome,
        Tally.afterOutcome]
    · have full : h.config.queueRoom ≤ s.queue.length := Nat.not_lt.mp room
      cases policy : h.config.policy with
      | block =>
        refine .inr ⟨⟨policy, hopen, full⟩, ?_⟩
        simp [hopen, room]
      | dropNewest =>
        refine .inl ⟨.skipped, ⟨hopen, full, policy⟩, ?_⟩
        simp [hopen, room, served, Turn.event, Broadcast.afterOutcome,
          Subscriber.afterOutcome, Tally.afterOutcome]
      | disconnect =>
        refine .inl ⟨.overflowed, ⟨hopen, full, policy⟩, ?_⟩
        simp [hopen, room, served, Turn.event, Broadcast.afterOutcome,
          Subscriber.afterOutcome, Tally.afterOutcome, same]
  · have shut : s.isOpen = false := by simpa using hopen
    refine .inl ⟨.refused, shut, ?_⟩
    simp [shut, served, Turn.event, Broadcast.afterOutcome, Subscriber.afterOutcome,
      Tally.afterOutcome, same]

/-! ### The hub's own step -/

/-- Why the hub stops, and what is told of it. -/
inductive StopCause (h : Hub) : List Event → Prop
  | expired (ready : h.phase = .ready) (overdue : h.isOverdue = true) :
    StopCause h [.expired .queue]
  | abandoned (b : Broadcast) (id : Nat) (rest : List Nat) (s : Subscriber)
      (delivering : h.phase = .delivering b) (front : b.remaining = id :: rest)
      (found : h.subscribers[id]? = some s) (waits : h.WaitsFor s)
      (overdue : h.isOverdue = true) :
    StopCause h [.expired .delivery]
  | asked (ticket : Nat) (rest : List Request) (ready : h.phase = .ready)
      (inTime : h.isOverdue = false) (front : h.commands = ⟨ticket, .shutdown⟩ :: rest) :
    StopCause h [.began ⟨ticket, .shutdown⟩]
  | unreachable (ready : h.phase = .ready) (inTime : h.isOverdue = false)
      (empty : h.commands = []) (gone : h.isUnreachable = true) :
    StopCause h []

/-- Stopping is told, and that calls have ended. -/
theorem forall_mem_stop {P : Event → Prop} (hs : ∀ n k, P (.stopped n k))
    (hr : ∀ t r, P (.returned t r)) (h : Hub) : ∀ e ∈ h.stop.2, P e := by
  intro e mem
  rw [stop, List.mem_append, List.mem_cons, List.mem_map, List.mem_map] at mem
  rcases mem with (rfl | ⟨r, -, rfl⟩) | ⟨ticket, -, rfl⟩
  · exact hs _ _
  · exact hr _ _
  · exact hr _ _

theorem filterMap_stop {α : Type} {f : Event → Option α} (hs : ∀ n k, f (.stopped n k) = none)
    (hr : ∀ t r, f (.returned t r) = none) (h : Hub) : h.stop.2.filterMap f = [] :=
  List.filterMap_eq_nil_iff.mpr (forall_mem_stop hs hr h)

theorem begun_stop (h : Hub) : begun h.stop.2 = [] :=
  filterMap_stop (fun _ _ => rfl) (fun _ _ => rfl) h

theorem accepted_stop (h : Hub) : accepted h.stop.2 = [] :=
  filterMap_stop (fun _ _ => rfl) (fun _ _ => rfl) h

theorem openedCalls_stop (h : Hub) : openedCalls h.stop.2 = [] :=
  filterMap_stop (fun _ _ => rfl) (fun _ _ => rfl) h

theorem removals_stop (h : Hub) : removals h.stop.2 = [] :=
  filterMap_stop (fun _ _ => rfl) (fun _ _ => rfl) h

theorem stop_quiet (h : Hub) : Quiet h.stop.2 :=
  forall_mem_stop (fun _ _ => rfl) (fun _ _ => rfl) h

theorem stop_removed (h : Hub) : removed h.stop.2 = [] := by
  rw [Hub.removed, removals_stop]
  rfl

theorem StopCause.removed {h : Hub} {cause : List Event} (why : StopCause h cause) :
    removed cause = [] := by
  cases why <;> rfl

theorem StopCause.removals {h : Hub} {cause : List Event} (why : StopCause h cause) :
    removals (cause ++ h.stop.2) = [] := by
  rw [removals_append, removals_stop]
  cases why <;> rfl

theorem StopCause.quiet {h : Hub} {cause : List Event} (why : StopCause h cause) :
    Quiet cause := by
  cases why with
  | unreachable => exact .nil
  | _ => exact .cons rfl .nil

/-- The hub takes up a command and applies it, or begins to. -/
inductive BeginStep (h : Hub) (rest : List Request) : Request → List Event → Hub → Prop
  | packet (ticket : Nat) (packet : Packet) :
    BeginStep h rest ⟨ticket, .packet packet⟩ [] ({ h with commands := rest }.broadcast packet)
  | register (ticket : Nat) (awaited : ticket ∈ h.unanswered) :
    BeginStep h rest ⟨ticket, .register⟩
      [.registered ticket h.nextId, .returned ticket (.subscribed h.nextId)]
      { h with
        commands := rest
        unanswered := h.unanswered.filter (· ≠ ticket)
        subscribers := h.subscribers ++ [.fresh]
        tally := { h.tally with totalSubscribers := h.tally.totalSubscribers + 1 } }
  | abandon (ticket : Nat) (gone : ticket ∉ h.unanswered) :
    BeginStep h rest ⟨ticket, .register⟩
      [.registered ticket h.nextId, .removed h.nextId .abandoned 0 0 h.registeredCount]
      { h with
        commands := rest
        subscribers := h.subscribers ++ [{ Subscriber.fresh with isRegistered := false }]
        tally := { h.tally with totalSubscribers := h.tally.totalSubscribers + 1 } }
  | unregister (ticket id : Nat) :
    BeginStep h rest ⟨ticket, .unregister id⟩
      ({ h with commands := rest }.remove id .unregistered).2
      { h.without [id] with commands := rest }
  | stats (ticket : Nat) (awaited : ticket ∈ h.unanswered) :
    BeginStep h rest ⟨ticket, .stats⟩ [.returned ticket (.report h.report)]
      { h with
        commands := rest
        unanswered := h.unanswered.filter (· ≠ ticket) }
  | statsUnread (ticket : Nat) (gone : ticket ∉ h.unanswered) :
    BeginStep h rest ⟨ticket, .stats⟩ [] { h with commands := rest }

/-- The hub's own step. -/
inductive WorkStep (h : Hub) : List Event → Hub → Prop
  | turn (b : Broadcast) (id : Nat) (rest : List Nat) (s : Subscriber) (outcome : Outcome)
      (delivering : h.phase = .delivering b) (front : b.remaining = id :: rest)
      (found : h.subscribers[id]? = some s) (fits : outcome.Fits h.config s) :
    WorkStep h [Turn.event ⟨id, b.packet, outcome⟩] (h.served b id s outcome)
  | pass (b : Broadcast) (id : Nat) (rest : List Nat) (delivering : h.phase = .delivering b)
      (front : b.remaining = id :: rest) (unknown : h.subscribers[id]? = none) :
    WorkStep h [] { h with phase := .delivering b.afterTurn }
  | finish (b : Broadcast) (delivering : h.phase = .delivering b) (noneLeft : b.remaining = []) :
    WorkStep h (h.finish b).2 (h.finish b).1
  | begin (request : Request) (rest : List Request) (events : List Event) (h' : Hub)
      (ready : h.phase = .ready) (inTime : h.isOverdue = false)
      (front : h.commands = request :: rest) (s : BeginStep h rest request events h') :
    WorkStep h (.began request :: events) h'
  | stop (cause : List Event) (why : StopCause h cause) :
    WorkStep h (cause ++ h.stop.2) h.stop.1

theorem apply_workStep {h : Hub} {request : Request} {rest : List Request}
    (ready : h.phase = .ready) (inTime : h.isOverdue = false)
    (front : h.commands = request :: rest) :
    WorkStep h (.began request :: ({ h with commands := rest }.apply request).2)
      ({ h with commands := rest }.apply request).1 := by
  obtain ⟨ticket, command⟩ := request
  cases command with
  | packet packet =>
    exact .begin _ rest _ _ ready inTime front (.packet ticket packet)
  | register =>
    by_cases awaited : ticket ∈ h.unanswered
    · have hs := WorkStep.begin _ rest _ _ ready inTime front (.register ticket awaited)
      simpa [apply, Hub.register, awaited, nextId] using hs
    · have hs := WorkStep.begin _ rest _ _ ready inTime front (.abandon ticket awaited)
      -- The entry that is removed at once is the one just added.
      have hset : (h.subscribers ++ [Subscriber.fresh]).set h.subscribers.length
          { Subscriber.fresh with isRegistered := false } =
          h.subscribers ++ [{ Subscriber.fresh with isRegistered := false }] := by
        rw [List.set_append_right _ _ (Nat.le_refl _)]
        simp
      simpa [apply, Hub.register, awaited, nextId, Hub.remove, Subscriber.fresh,
        registeredCount, hset] using hs
  | unregister id =>
    have hs := WorkStep.begin _ rest _ _ ready inTime front (.unregister ticket id)
    have hr := remove_fst { h with commands := rest } id .unregistered
    show WorkStep h _ ({ h with commands := rest }.remove id .unregistered).1
    rw [hr]
    exact hs
  | stats =>
    by_cases awaited : ticket ∈ h.unanswered
    · have hs := WorkStep.begin _ rest _ _ ready inTime front (.stats ticket awaited)
      simpa [apply, answerStats, awaited, report, registeredCount] using hs
    · have hs := WorkStep.begin _ rest _ _ ready inTime front (.statsUnread ticket awaited)
      simpa [apply, answerStats, awaited] using hs
  | shutdown =>
    exact .stop _ (.asked ticket rest ready inTime front)

theorem workStep_of_work? {h h' : Hub} {events : List Event}
    (hw : h.work? = some (h', events)) : WorkStep h events h' := by
  rw [work?] at hw
  cases phase : h.phase with
  | stopped => simp [phase] at hw
  | ready =>
    simp only [phase] at hw
    -- Before a command the deadline is looked at first.
    cases overdue : h.isOverdue with
    | true =>
      simp only [overdue, if_true, Option.some.injEq] at hw
      cases hw
      exact .stop _ (.expired phase overdue)
    | false =>
      simp only [overdue, Bool.false_eq_true, if_false] at hw
      cases front : h.commands with
      | nil =>
        simp only [front] at hw
        split at hw
        · rename_i gone
          cases hw
          exact .stop _ (.unreachable phase overdue front gone)
        · simp at hw
      | cons request rest =>
        simp only [front, Option.some.injEq] at hw
        cases hw
        have hs := apply_workStep phase overdue front
        simp only [phase] at hs
        exact hs
  | delivering b =>
    simp only [phase] at hw
    cases front : b.remaining with
    | nil =>
      simp only [front, Option.some.injEq] at hw
      cases hw
      exact .finish b phase front
    | cons id rest =>
      simp only [front] at hw
      cases found : h.subscribers[id]? with
      | none =>
        simp only [deliver?, found, Option.some.injEq] at hw
        cases hw
        exact .pass b id rest phase front found
      | some s =>
        -- While delivering it counts only if there is no room.
        rcases deliver?_cases b found with ⟨outcome, fits, hd⟩ | ⟨waits, hd⟩
        · rw [hd] at hw
          cases hw
          exact .turn b id rest s outcome phase front found fits
        · rw [hd] at hw
          cases overdue : h.isOverdue with
          | true =>
            simp only [overdue, if_true, Option.some.injEq] at hw
            cases hw
            exact .stop _ (.abandoned b id rest s phase front found waits overdue)
          | false => simp [overdue] at hw

/-- When the hub can do nothing it has stopped, has nothing to do, or waits for
room in a subscriber's queue. -/
theorem work?_eq_none {h : Hub} (hw : h.work? = none) :
    h.phase = .stopped ∨
    (h.phase = .ready ∧ h.isOverdue = false ∧ h.commands = [] ∧ h.isUnreachable = false) ∨
    ∃ b id rest s, h.phase = .delivering b ∧ b.remaining = id :: rest ∧
      h.subscribers[id]? = some s ∧ h.WaitsFor s ∧ h.isOverdue = false := by
  rw [work?] at hw
  cases phase : h.phase with
  | stopped => exact .inl rfl
  | ready =>
    refine .inr (.inl ⟨rfl, ?_⟩)
    simp only [phase] at hw
    cases overdue : h.isOverdue with
    | true => simp [overdue] at hw
    | false =>
      cases front : h.commands with
      | cons request rest => simp [overdue, front] at hw
      | nil =>
        refine ⟨rfl, rfl, ?_⟩
        simpa [overdue, front] using hw
  | delivering b =>
    refine .inr (.inr ?_)
    simp only [phase] at hw
    cases front : b.remaining with
    | nil => simp [front] at hw
    | cons id rest =>
      simp only [front] at hw
      cases found : h.subscribers[id]? with
      | none => simp [deliver?, found] at hw
      | some s =>
        -- Every turn that ends is a step, so the hub waits for this one to end.
        rcases deliver?_cases b found with ⟨outcome, fits, hd⟩ | ⟨waits, hd⟩
        · rw [hd] at hw
          cases hw
        · refine ⟨b, id, rest, s, rfl, front, found, waits, ?_⟩
          cases overdue : h.isOverdue with
          | true => simp [hd, overdue] at hw
          | false => rfl

/-! ### All actions -/

/-- What an action does. -/
inductive Transition (h : Hub) (action : Action) (events : List Event) (h' : Hub) : Prop
  | caller (s : CallerStep h action events h')
  | reader (s : ReaderStep h action events h')
  | work (own : action = .work) (s : WorkStep h events h')

theorem Transition.of_step? {h h' : Hub} {action : Action} {events : List Event}
    (hs : h.step? action = some (h', events)) : Transition h action events h' := by
  cases action with
  | call command =>
    simp only [step?] at hs
    split at hs
    · have hc := call_callerStep h command
      rw [Option.some.inj hs] at hc
      exact .caller hc
    · cases hs
  | cancel ticket => exact .caller (cancel?_callerStep hs)
  | take id => exact .reader (take?_readerStep hs)
  | close id =>
    simp only [step?] at hs
    split at hs
    · rename_i known
      have hc := close_readerStep known
      rw [Option.some.inj hs] at hc
      exact .reader hc
    · cases hs
  | discard id =>
    simp only [step?] at hs
    split at hs
    · rename_i known
      have hc := discard_readerStep known
      rw [Option.some.inj hs] at hc
      exact .reader hc
    · cases hs
  | cloneHandle =>
    simp only [step?] at hs
    split at hs
    · cases hs
      exact .caller .cloneHandle
    · cases hs
  | dropHandle =>
    simp only [step?] at hs
    split at hs
    · cases hs
      exact .caller .dropHandle
    · cases hs
  | advance milliseconds =>
    cases hs
    exact .caller (.advance milliseconds)
  | enqueue => exact .caller (enqueue?_callerStep hs)
  | work => exact .work rfl (workStep_of_work? hs)

end Hub

end VideoRelay

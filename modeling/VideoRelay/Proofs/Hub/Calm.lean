/-
A hub that is left in peace.

As long as nobody asks it to stop, gives up a call or closes a queue, and it waits for
room instead of removing anybody, a hub loses nothing: every command has its turn, and
every subscriber stays.

* `Command.IsPlain`, `Action.IsPlain` — packets and registrations, and nothing that takes
  anything back;
* `Calm` — the state of a hub that has seen nothing else;
* `PlainStep`, `Transition.plain` — all that such a hub does;
* `Calm.step` — it stays calm;
* `Aligned`, `PlainStep.aligned` — the calls are the commands taken up, those in the queue
  and those that wait, one after the other;
* `submitters`, `joiners` — who waits to have a packet accepted, and who to be registered.

Design notes: `PlainStep` is `Transition` without the cases that cannot occur, so that
whoever lives beside a calm hub has ten short cases to look at and no side conditions.
-/
import VideoRelay.Proofs.Hub.Departure

namespace VideoRelay

namespace Hub

/-! ### Plain actions -/

inductive Command.IsPlain : Command → Prop
  | packet (packet : Packet) : IsPlain (.packet packet)
  | register : IsPlain .register

inductive Action.IsPlain : Action → Prop
  | call {command : Command} (plain : command.IsPlain) : IsPlain (.call command)
  | take (id : Nat) : IsPlain (.take id)
  | cloneHandle : IsPlain .cloneHandle
  | dropHandle : IsPlain .dropHandle
  | enqueue : IsPlain .enqueue
  | work : IsPlain .work

/-- The commands that are to be taken up, in order. -/
def upcoming (h : Hub) : List Request := h.commands ++ h.waiting

/-- Nothing has been asked of the hub but to hand round packets and to register, it has
removed nobody, and it waits for room when there is none. -/
structure Calm (h : Hub) : Prop where
  policy : h.config.policy = .block
  live : h.phase ≠ .stopped
  unasked : h.requestedAt? = none
  attached : ∀ s ∈ h.subscribers, s.isOpen = true ∧ s.isRegistered = true
  faultless : ∀ b, h.phase = .delivering b → b.closed = [] ∧ b.overflowed = []
  plain : ∀ r ∈ h.upcoming, r.command.IsPlain
  distinct : (h.upcoming.map (·.ticket)).Nodup
  known : ∀ r ∈ h.upcoming, r.ticket < h.nextTicket
  /-- Whoever wants to be registered still waits for the answer. -/
  awaited : ∀ r ∈ h.commands, r.command = .register → r.ticket ∈ h.unanswered

/-- What a calm hub does, and what is done at it. -/
inductive PlainStep (h : Hub) : List Event → Hub → Prop
  | call (command : Command) (plain : command.IsPlain) :
    PlainStep h [.called ⟨h.nextTicket, command⟩]
      { h with
        nextTicket := h.nextTicket + 1
        waiting := h.waiting ++ [⟨h.nextTicket, command⟩] }
  | acceptRegister (ticket : Nat) (rest : List Request)
      (front : h.waiting = ⟨ticket, .register⟩ :: rest) :
    PlainStep h [.accepted ⟨ticket, .register⟩]
      { h with
        waiting := rest
        commands := h.commands ++ [⟨ticket, .register⟩]
        unanswered := h.unanswered ++ [ticket] }
  | acceptPacket (ticket : Nat) (packet : Packet) (rest : List Request)
      (front : h.waiting = ⟨ticket, .packet packet⟩ :: rest) :
    PlainStep h [.accepted ⟨ticket, .packet packet⟩, .returned ticket .accepted]
      { h with
        waiting := rest
        commands := h.commands ++ [⟨ticket, .packet packet⟩] }
  | handles (n : Nat) : PlainStep h [] { h with handles := n }
  | take (id : Nat) (s : Subscriber) (packet : Packet) (rest : List Packet)
      (found : h.subscribers[id]? = some s) (front : s.queue = packet :: rest) :
    PlainStep h [.took id packet]
      { h with subscribers := h.subscribers.set id { s with queue := rest } }
  | turn (b : Broadcast) (id : Nat) (s : Subscriber) (delivering : h.phase = .delivering b)
      (found : h.subscribers[id]? = some s) :
    PlainStep h [.queued id b.packet] (h.served b id s .queued)
  | pass (b : Broadcast) (delivering : h.phase = .delivering b) :
    PlainStep h [] { h with phase := .delivering b.afterTurn }
  | finish : PlainStep h [] { h with phase := .ready }
  | beginPacket (ticket : Nat) (packet : Packet) (rest : List Request)
      (front : h.commands = ⟨ticket, .packet packet⟩ :: rest) :
    PlainStep h [.began ⟨ticket, .packet packet⟩] ({ h with commands := rest }.broadcast packet)
  | beginRegister (ticket : Nat) (rest : List Request)
      (front : h.commands = ⟨ticket, .register⟩ :: rest) :
    PlainStep h [.began ⟨ticket, .register⟩, .registered ticket h.nextId,
        .returned ticket (.subscribed h.nextId)]
      { h with
        commands := rest
        unanswered := h.unanswered.filter (· ≠ ticket)
        subscribers := h.subscribers ++ [.fresh]
        tally := { h.tally with totalSubscribers := h.tally.totalSubscribers + 1 } }

variable {h h' : Hub} {action : Action} {events : List Event}

theorem call_of_isPlain {command : Command} (plain : command.IsPlain) (live : h.phase ≠ .stopped) :
    h.call command =
      ({ h with
        nextTicket := h.nextTicket + 1
        waiting := h.waiting ++ [⟨h.nextTicket, command⟩] },
        [.called ⟨h.nextTicket, command⟩]) := by
  cases plain <;> simp [Hub.call, isStopped, live]

theorem finish_of_faultless (h : Hub) {b : Broadcast} (closed : b.closed = [])
    (overflowed : b.overflowed = []) : h.finish b = ({ h with phase := .ready }, []) := by
  rw [Hub.finish, closed, overflowed]
  rfl

theorem isOverdue_of_unasked (unasked : h.requestedAt? = none) : h.isOverdue = false := by
  rw [isOverdue, unasked]

/-- Nobody is found closed, and the policy is to wait. -/
theorem Calm.outcome (calm : Calm h) {s : Subscriber} (mem : s ∈ h.subscribers)
    {outcome : Outcome} (fits : outcome.Fits h.config s) : outcome = .queued := by
  cases outcome with
  | queued => rfl
  | refused =>
    have shut : s.isOpen = false := fits
    rw [(calm.attached s mem).1] at shut
    cases shut
  | skipped => cases calm.policy.symm.trans fits.2.2
  | overflowed => cases calm.policy.symm.trans fits.2.2

theorem Transition.plain (tr : Transition h action events h') (calm : Calm h)
    (plain : action.IsPlain) (handle : 0 < h.handles) : PlainStep h events h' := by
  cases tr with
  | caller s =>
    cases s with
    | call command live =>
      cases plain with
      | call plain => cases plain <;> exact .call _ (by constructor)
    | refuse command stopped => exact absurd stopped calm.live
    | cancelWaiting => cases plain
    | cancelAnswer => cases plain
    | accept request rest front room wants =>
      obtain ⟨ticket, command⟩ := request
      have mem : ⟨ticket, command⟩ ∈ h.upcoming :=
        List.mem_append_right _ (front ▸ List.mem_cons_self)
      cases calm.plain _ mem with
      | packet => cases wants
      | register => exact .acceptRegister ticket rest front
    | acceptAndReturn request rest front room wants =>
      obtain ⟨ticket, command⟩ := request
      have mem : ⟨ticket, command⟩ ∈ h.upcoming :=
        List.mem_append_right _ (front ▸ List.mem_cons_self)
      cases calm.plain _ mem with
      | packet packet => exact .acceptPacket ticket packet rest front
      | register => cases wants
    | cloneHandle => exact .handles _
    | dropHandle => exact .handles _
    | advance => cases plain
  | reader s =>
    cases s with
    | take id s packet rest found front => exact .take id s packet rest found front
    | close => cases plain
    | discard => cases plain
  | work own s =>
    cases s with
    | turn b id rest s outcome delivering front found fits =>
      obtain rfl := calm.outcome (List.mem_of_getElem? found) fits
      exact .turn b id s delivering found
    | pass b id rest delivering front unknown => exact .pass b delivering
    | finish b delivering noneLeft =>
      obtain ⟨closed, overflowed⟩ := calm.faultless b delivering
      rw [finish_of_faultless h closed overflowed]
      exact .finish
    | «begin» request rest events h' ready inTime front s =>
      obtain ⟨ticket, command⟩ := request
      have mem : ⟨ticket, command⟩ ∈ h.commands := front ▸ List.mem_cons_self
      have plainCommand := calm.plain _ (List.mem_append_left _ mem)
      cases s with
      | packet ticket packet => exact .beginPacket ticket packet rest front
      | register ticket awaited => exact .beginRegister ticket rest front
      | abandon ticket gone => exact absurd (calm.awaited _ mem rfl) gone
      | unregister | stats | statsUnread => cases plainCommand
    | stop cause why =>
      cases why with
      | expired ready overdue | abandoned _ _ _ _ _ _ _ _ overdue =>
        rw [isOverdue_of_unasked calm.unasked] at overdue
        cases overdue
      | asked ticket rest ready inTime front =>
        have mem : ⟨ticket, .shutdown⟩ ∈ h.upcoming :=
          List.mem_append_left _ (front ▸ List.mem_cons_self)
        cases calm.plain _ mem
      | unreachable ready inTime empty gone =>
        simp only [isUnreachable, Bool.and_eq_true, decide_eq_true_eq] at gone
        omega

/-! ### Calm hubs stay calm -/

namespace PlainStep

/-- What was to be taken up, with what is asked for now, is what is taken up now and what
is still to be taken up. -/
theorem upcoming (s : PlainStep h events h') :
    h.upcoming ++ calls events = begun events ++ h'.upcoming := by
  cases s with
  | call command plain => exact List.append_assoc ..
  | acceptRegister ticket rest front =>
    rw [Hub.upcoming, Hub.upcoming, front]
    simp [calls, Event.called?]
  | acceptPacket ticket packet rest front =>
    rw [Hub.upcoming, Hub.upcoming, front]
    simp [calls, Event.called?]
  | beginPacket ticket packet rest front | beginRegister ticket rest front =>
    rw [Hub.upcoming, Hub.upcoming, front]
    exact List.append_nil _
  | _ => exact List.append_nil _

theorem calls_cases (s : PlainStep h events h') :
    (calls events = [] ∧ h'.nextTicket = h.nextTicket) ∨
      ∃ command : Command, command.IsPlain ∧ calls events = [⟨h.nextTicket, command⟩] ∧
        h'.nextTicket = h.nextTicket + 1 := by
  cases s with
  | call command plain => exact .inr ⟨command, plain, rfl, rfl⟩
  | _ => exact .inl ⟨rfl, rfl⟩

/-- Packets come and go, and nothing else becomes of a subscriber. -/
theorem attached (s : PlainStep h events h')
    (attached : ∀ s ∈ h.subscribers, s.isOpen = true ∧ s.isRegistered = true) :
    ∀ s ∈ h'.subscribers, s.isOpen = true ∧ s.isRegistered = true := by
  -- An entry that is set has been there, but for its queue.
  have set {id : Nat} {s s' : Subscriber} (found : h.subscribers[id]? = some s)
      (same : s'.isOpen = s.isOpen ∧ s'.isRegistered = s.isRegistered) :
      ∀ t ∈ h.subscribers.set id s', t.isOpen = true ∧ t.isRegistered = true := by
    intro t mem
    rcases List.mem_or_eq_of_mem_set mem with mem | rfl
    · exact attached t mem
    · rw [same.1, same.2]
      exact attached s (List.mem_of_getElem? found)
  cases s with
  | take id s packet rest found front => exact set found ⟨rfl, rfl⟩
  | turn b id s delivering found => exact set found ⟨rfl, rfl⟩
  | beginRegister ticket rest front =>
    intro t mem
    rcases List.mem_append.mp mem with mem | mem
    · exact attached t mem
    · rw [List.mem_singleton.mp mem]
      exact ⟨rfl, rfl⟩
  | _ => exact attached

theorem faultless (s : PlainStep h events h')
    (faultless : ∀ b, h.phase = .delivering b → b.closed = [] ∧ b.overflowed = []) :
    ∀ b, h'.phase = .delivering b → b.closed = [] ∧ b.overflowed = [] := by
  cases s with
  | turn b id s delivering found =>
    rintro b' ⟨⟩
    exact faultless b delivering
  | pass b delivering =>
    rintro b' ⟨⟩
    exact faultless b delivering
  | finish => exact fun b delivering => by cases delivering
  | beginPacket ticket packet rest front =>
    rintro b' ⟨⟩
    exact ⟨rfl, rfl⟩
  | _ => exact faultless

theorem live (s : PlainStep h events h') (live : h.phase ≠ .stopped) : h'.phase ≠ .stopped := by
  cases s with
  | turn | pass | finish | beginPacket => exact Phase.noConfusion
  | _ => exact live

theorem awaited (s : PlainStep h events h') (calm : Calm h) :
    ∀ r ∈ h'.commands, r.command = .register → r.ticket ∈ h'.unanswered := by
  -- Whoever stands behind the first has a ticket of its own.
  have behind {r : Request} {rest : List Request} (front : h.commands = r :: rest) :
      ∀ r' ∈ rest, r'.command = .register → r'.ticket ∈ h.unanswered ∧ r'.ticket ≠ r.ticket := by
    intro r' mem wants
    refine ⟨calm.awaited r' (front ▸ List.mem_cons_of_mem _ mem) wants, fun same => ?_⟩
    have distinct := calm.distinct
    rw [Hub.upcoming, front, List.cons_append, List.map_cons, List.nodup_cons] at distinct
    exact distinct.1 (same ▸ List.mem_map_of_mem (List.mem_append_left _ mem))
  cases s with
  | acceptRegister ticket rest front =>
    intro r mem wants
    rcases List.mem_append.mp mem with mem | mem
    · exact List.mem_append_left _ (calm.awaited r mem wants)
    · rw [List.mem_singleton.mp mem]
      exact List.mem_append_right _ (List.mem_singleton.mpr rfl)
  | acceptPacket ticket packet rest front =>
    intro r mem wants
    rcases List.mem_append.mp mem with mem | mem
    · exact calm.awaited r mem wants
    · rw [List.mem_singleton.mp mem] at wants
      cases wants
  | beginPacket ticket packet rest front =>
    exact fun r mem wants => (behind front r mem wants).1
  | beginRegister ticket rest front =>
    intro r mem wants
    obtain ⟨waits, other⟩ := behind front r mem wants
    exact List.mem_filter.mpr ⟨waits, decide_eq_true other⟩
  | _ => exact calm.awaited

end PlainStep

theorem Calm.step (calm : Calm h) (s : PlainStep h events h') : Calm h' := by
  have policy : h'.config = h.config := by cases s <;> rfl
  have unasked : h'.requestedAt? = h.requestedAt? := by cases s <;> rfl
  -- What is to be taken up afterwards was so before, or is asked for now.
  have later : h'.upcoming <:+ h.upcoming ++ calls events := ⟨begun events, s.upcoming.symm⟩
  refine ⟨policy ▸ calm.policy, s.live calm.live, unasked.trans calm.unasked,
    s.attached calm.attached, s.faultless calm.faultless, ?_, ?_, ?_, s.awaited calm⟩
  · intro r mem
    rcases List.mem_append.mp (later.mem mem) with mem | mem
    · exact calm.plain r mem
    · rcases s.calls_cases with ⟨none, -⟩ | ⟨command, plain, one, -⟩
      · rw [none] at mem
        cases mem
      · rw [one] at mem
        rw [List.mem_singleton.mp mem]
        exact plain
  · refine (later.sublist.map _).nodup ?_
    rcases s.calls_cases with ⟨none, -⟩ | ⟨command, plain, one, -⟩
    · rw [none, List.append_nil]
      exact calm.distinct
    · rw [one, List.map_append, List.nodup_append]
      refine ⟨calm.distinct, List.nodup_singleton _, fun t mem t' mem' => ?_⟩
      obtain ⟨r, inLine, rfl⟩ := List.mem_map.mp mem
      rw [List.mem_singleton.mp mem']
      exact Nat.ne_of_lt (calm.known r inLine)
  · intro r mem
    rcases s.calls_cases with ⟨none, same⟩ | ⟨command, plain, one, next⟩
    · rw [none, List.append_nil] at later
      rw [same]
      exact calm.known r (later.mem mem)
    · rw [one] at later
      rw [next]
      rcases List.mem_append.mp (later.mem mem) with mem | mem
      · exact Nat.lt_succ_of_lt (calm.known r mem)
      · rw [List.mem_singleton.mp mem]
        exact Nat.lt_succ_self _

theorem calm_start {config : HubConfig} (policy : config.policy = .block) :
    Calm (start config) where
  policy := policy
  live := Phase.noConfusion
  unasked := rfl
  attached _ mem := by cases mem
  faultless _ delivering := by cases delivering
  plain _ mem := by cases mem
  distinct := List.nodup_nil
  known _ mem := by cases mem
  awaited _ mem := by cases mem

/-! ### Calls in line -/

/-- All calls so far, in order, are the commands taken up and those that are to be. -/
def Aligned (history : List Event) (h : Hub) : Prop :=
  calls history = begun history ++ h.upcoming

theorem PlainStep.aligned {history : List Event} (s : PlainStep h events h')
    (a : Aligned history h) : Aligned (history ++ events) h' := by
  rw [Aligned, calls_append, begun_append, a, List.append_assoc, s.upcoming, List.append_assoc]

/-- The packets of some calls. -/
def packetsOf (requests : List Request) : List Packet :=
  requests.filterMap fun r =>
    match r.command with
    | .packet packet => some packet
    | _ => none

/-- The calls of those who want a packet handed round. -/
def submitters (requests : List Request) : List Nat :=
  requests.filterMap fun r =>
    match r.command with
    | .packet _ => some r.ticket
    | _ => none

/-- The calls of those who want to be registered. -/
def joiners (requests : List Request) : List Nat :=
  requests.filterMap fun r => if r.command = .register then some r.ticket else none

theorem packetsOf_append (requests more : List Request) :
    packetsOf (requests ++ more) = packetsOf requests ++ packetsOf more := List.filterMap_append

theorem submitters_append (requests more : List Request) :
    submitters (requests ++ more) = submitters requests ++ submitters more :=
  List.filterMap_append

theorem joiners_append (requests more : List Request) :
    joiners (requests ++ more) = joiners requests ++ joiners more := List.filterMap_append

theorem packetsOf_begun (history : List Event) :
    packetsOf (begun history) = begunPackets history := by
  rw [packetsOf, begun, List.filterMap_filterMap, begunPackets]
  refine List.filterMap_congr fun e mem => ?_
  cases e with
  | began request =>
    obtain ⟨ticket, command⟩ := request
    cases command <;> rfl
  | _ => rfl

namespace PlainStep

/-- Nobody is told that the hub has stopped. -/
theorem not_closed (s : PlainStep h events h') (ticket : Nat) :
    .returned ticket .closed ∉ events := by
  cases s <;> simp

/-- Whoever waits to have a packet accepted waits on, or is told that it is. -/
theorem submitters (s : PlainStep h events h') :
    ∀ ticket ∈ Hub.submitters h.waiting, ticket ∈ Hub.submitters h'.waiting ∨
      ∃ reply, .returned ticket reply ∈ events := by
  intro ticket mem
  cases s with
  | call command plain =>
    refine .inl ?_
    rw [submitters_append]
    exact List.mem_append_left _ mem
  | acceptRegister own rest front =>
    rw [front] at mem
    exact .inl mem
  | acceptPacket own packet rest front =>
    rw [front] at mem
    rcases List.mem_cons.mp mem with rfl | mem
    · exact .inr ⟨.accepted, by simp⟩
    · exact .inl mem
  | _ => exact .inl mem

/-- Nothing of the line for registration is lost. -/
theorem joiners (s : PlainStep h events h') :
    Hub.joiners h.upcoming ++ Hub.joiners (calls events) =
      Hub.joiners (begun events) ++ Hub.joiners h'.upcoming := by
  rw [← joiners_append, s.upcoming, joiners_append]

/-- Each registration gives one more number. -/
theorem nextId_eq (s : PlainStep h events h') :
    h'.nextId = h.nextId + (registrations events).length := by
  cases s with
  | take | turn => exact List.length_set
  | beginRegister => exact List.length_append
  | _ => rfl

/-- Whoever is in the line for registration is told nothing, or the first is registered. -/
theorem registers_or (s : PlainStep h events h') (calm : Calm h) :
    (registrations events = [] ∧ Hub.joiners (begun events) = [] ∧
        ∀ ticket ∈ Hub.joiners h.upcoming, ∀ reply, .returned ticket reply ∉ events) ∨
      ∃ ticket, events = [.began ⟨ticket, .register⟩, .registered ticket h.nextId,
        .returned ticket (.subscribed h.nextId)] := by
  cases s with
  | beginRegister ticket rest front => exact .inr ⟨ticket, rfl⟩
  | acceptPacket own packet rest front =>
    refine .inl ⟨rfl, rfl, fun ticket inLine reply told => ?_⟩
    obtain rfl : ticket = own := by
      simp only [List.mem_cons, reduceCtorEq, Event.returned.injEq, List.not_mem_nil, or_false,
        false_or] at told
      exact told.1
    -- A call is for a packet or for a registration.
    obtain ⟨r, mem, wants⟩ := List.mem_filterMap.mp inLine
    split at wants
    · rename_i register
      have accepted : ⟨ticket, .packet packet⟩ ∈ h.upcoming :=
        List.mem_append_right _ (front ▸ List.mem_cons_self)
      have same := List.inj_on_of_nodup_map calm.distinct mem accepted (Option.some.inj wants)
      rw [same] at register
      cases register
    · cases wants
  | _ => exact .inl ⟨rfl, rfl, fun _ _ _ => by simp⟩

end PlainStep

/-- Who is registered and open takes packets, as long as the hub has not stopped. -/
theorem Calm.available_ne_ended (calm : Calm h) {id : Nat} (known : id < h.nextId) :
    h.available id ≠ .ended := by
  obtain ⟨s, found⟩ : ∃ s, h.subscribers[id]? = some s := ⟨_, List.getElem?_eq_getElem known⟩
  obtain ⟨isOpen, registered⟩ := calm.attached s (List.mem_of_getElem? found)
  have attached : h.isAttached s = true := by
    simp [isAttached, isOpen, registered, isStopped, calm.live]
  rw [available, found]
  cases queue : s.queue with
  | nil => simp [queue, attached]
  | cons packet rest => simp [queue]

end Hub

end VideoRelay

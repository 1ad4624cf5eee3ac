/-
The register of subscribers, in the state and in the history.

* `Run.config_eq` — a run keeps its configuration;
* `Orderly`, `Run.orderly` — what holds of a hub at every moment: the bounds of the
  queues, and who is still to be served in a broadcast;
* `Account`, `Run.account` — a subscriber's entry says what the history says of it:
  what is queued is what went in and has not come out;
* `Run.registrations_eq`, `Run.members_eq` — numbers are given in order, and the
  registered subscribers are those registered and not removed.

Design notes: `Hub.entry` gives every number an entry, the one it will get if it has
none yet.  So the account of a number that is still to be given holds from the
start, and registration changes no account.
-/
import VideoRelay.Proofs.Hub.Transition

namespace VideoRelay

namespace Hub

/-! ### Entries -/

/-- The entry of `id`, or the one that it would get. -/
def entry (h : Hub) (id : Nat) : Subscriber := h.subscribers[id]?.getD .fresh

theorem entry_eq {h : Hub} {id : Nat} {s : Subscriber} (found : h.subscribers[id]? = some s) :
    h.entry id = s := by
  rw [entry, found]
  rfl

theorem lt_nextId {h : Hub} {id : Nat} {s : Subscriber} (found : h.subscribers[id]? = some s) :
    id < h.nextId := (List.getElem?_eq_some_iff.mp found).1

theorem isRegistered_eq (h : Hub) (id : Nat) :
    h.isRegistered id = (decide (id < h.nextId) && (h.entry id).isRegistered) := by
  rw [isRegistered, entry, nextId]
  by_cases known : id < h.subscribers.length
  · simp [known]
  · simp [known]

/-- The entries after one of them is changed. -/
theorem getD_set {l : List Subscriber} {id : Nat} {s : Subscriber} (found : l[id]? = some s)
    (s' : Subscriber) (i : Nat) :
    (l.set id s')[i]?.getD .fresh = if i = id then s' else l[i]?.getD .fresh := by
  have known : id < l.length := (List.getElem?_eq_some_iff.mp found).1
  rw [List.getElem?_set]
  by_cases heq : i = id
  · subst heq
    simp [known]
  · simp [heq, Ne.symm heq]

theorem entry_without (h : Hub) (ids : List Nat) (i : Nat) :
    (h.without ids).entry i =
      if i ∈ ids ∧ i < h.nextId then { h.entry i with isRegistered := false }
      else h.entry i := by
  rw [entry, getElem?_without, entry, nextId]
  by_cases known : i < h.subscribers.length
  · by_cases mem : i ∈ ids <;> simp [known, mem]
  · simp [known]

/-- A new entry is the one that its number would get. -/
theorem getD_append_fresh (l : List Subscriber) (i : Nat) :
    (l ++ [Subscriber.fresh])[i]?.getD .fresh = l[i]?.getD .fresh := by
  by_cases known : i < l.length
  · simp [List.getElem?_append_left known]
  · rw [List.getElem?_append_right (Nat.not_lt.mp known),
      List.getElem?_eq_none (Nat.not_lt.mp known)]
    cases i - l.length <;> rfl

theorem getD_append_singleton (l : List Subscriber) (s : Subscriber) (i : Nat) :
    (l ++ [s])[i]?.getD .fresh = if i = l.length then s else l[i]?.getD .fresh := by
  by_cases known : i < l.length
  · rw [List.getElem?_append_left known, if_neg (Nat.ne_of_lt known)]
  · rw [List.getElem?_append_right (Nat.not_lt.mp known),
      List.getElem?_eq_none (Nat.not_lt.mp known)]
    by_cases heq : i = l.length
    · simp [heq]
    · have : i - l.length ≠ 0 := by omega
      rw [if_neg heq, List.getElem?_eq_none (by simp; omega)]

/-! ### Steps that leave the register alone -/

theorem any_set {l : List Subscriber} {id : Nat} {s s' : Subscriber} (found : l[id]? = some s)
    (same : s'.isRegistered = s.isRegistered) (i : Nat) :
    (l.set id s')[i]?.any (·.isRegistered) = l[i]?.any (·.isRegistered) := by
  have known : id < l.length := (List.getElem?_eq_some_iff.mp found).1
  rw [List.getElem?_set]
  by_cases heq : id = i
  · subst heq
    rw [if_pos rfl, if_pos known, found]
    exact same
  · rw [if_neg heq]

/-- The two hubs have the same subscribers registered. -/
structure SameRegister (h h' : Hub) : Prop where
  isRegistered : ∀ id, h'.isRegistered id = h.isRegistered id
  nextId : h'.nextId = h.nextId

theorem SameRegister.registeredIds {h h' : Hub} (same : SameRegister h h') :
    h'.registeredIds = h.registeredIds := by
  rw [Hub.registeredIds, Hub.registeredIds, same.nextId, funext same.isRegistered]

theorem CallerStep.sameRegister {h h' : Hub} {action : Action} {events : List Event}
    (s : CallerStep h action events h') : SameRegister h h' := by
  obtain ⟨-, -, hs, -⟩ := s.frame
  exact ⟨fun id => by rw [Hub.isRegistered, hs, Hub.isRegistered],
    by rw [Hub.nextId, hs, Hub.nextId]⟩

theorem ReaderStep.sameRegister {h h' : Hub} {action : Action} {events : List Event}
    (s : ReaderStep h action events h') : SameRegister h h' := by
  cases s with
  | take id s packet rest found front => exact ⟨any_set found rfl, List.length_set⟩
  | close id s found => exact ⟨any_set found rfl, List.length_set⟩
  | discard id s found => exact ⟨any_set found rfl, List.length_set⟩

@[simp] theorem isRegistered_afterOutcome (s : Subscriber) (packet : Packet)
    (outcome : Outcome) : (s.afterOutcome packet outcome).isRegistered = s.isRegistered := by
  cases outcome <;> rfl

theorem served_sameRegister {h : Hub} {id : Nat} {s : Subscriber} (b : Broadcast)
    (outcome : Outcome) (found : h.subscribers[id]? = some s) :
    SameRegister h (h.served b id s outcome) :=
  ⟨any_set found (isRegistered_afterOutcome s b.packet outcome), List.length_set⟩

@[simp] theorem remaining_afterOutcome (b : Broadcast) (id : Nat) (outcome : Outcome) :
    (b.afterOutcome id outcome).remaining = b.remaining.tail := by
  cases outcome <;> rfl

@[simp] theorem packet_afterOutcome (b : Broadcast) (id : Nat) (outcome : Outcome) :
    (b.afterOutcome id outcome).packet = b.packet := by
  cases outcome <;> rfl

theorem nodup_registeredIds (h : Hub) : h.registeredIds.Nodup :=
  List.nodup_range.filter _

theorem mem_registeredIds {h : Hub} {id : Nat} :
    id ∈ h.registeredIds ↔ h.isRegistered id = true := by
  rw [registeredIds, List.mem_filter, List.mem_range, isRegistered_eq]
  simp

theorem registeredIds_without (h : Hub) (ids : List Nat) :
    (h.without ids).registeredIds = h.registeredIds.filter (· ∉ ids) := by
  have number : (h.without ids).nextId = h.nextId := List.length_mapIdx
  rw [registeredIds, registeredIds, number, List.filter_filter]
  refine List.filter_congr fun id _ => ?_
  rw [isRegistered_without, Bool.and_comm]

/-! ### What holds of a hub at every moment -/

/-- A broadcast in the course of which everybody registered has had a turn, or has
it still before him. -/
structure UnderWay (h : Hub) (b : Broadcast) : Prop where
  remaining : b.remaining <:+ h.registeredIds
  nodup : (b.closed ++ b.overflowed ++ b.remaining).Nodup
  registered : ∀ id ∈ b.closed ++ b.overflowed, h.isRegistered id = true

theorem UnderWay.congr {h h' : Hub} {b : Broadcast} (u : UnderWay h b)
    (same : SameRegister h h') : UnderWay h' b where
  remaining := same.registeredIds ▸ u.remaining
  nodup := u.nodup
  registered := fun id mem => (same.isRegistered id).trans (u.registered id mem)

theorem UnderWay.isRegistered {h : Hub} {b : Broadcast} {id : Nat} (u : UnderWay h b)
    (mem : id ∈ b.remaining) : h.isRegistered id = true :=
  mem_registeredIds.mp (u.remaining.subset mem)

/-- Nobody whose turn is to come is unknown, so nobody is passed over. -/
theorem UnderWay.found {h : Hub} {b : Broadcast} {id : Nat} (u : UnderWay h b)
    (mem : id ∈ b.remaining) : ∃ s, h.subscribers[id]? = some s := by
  obtain ⟨s, found, -⟩ := isRegistered_iff.mp (u.isRegistered mem)
  exact ⟨s, found⟩

/-- When everybody has had a turn those are removed with whom something was wrong, each
once. -/
theorem UnderWay.removals_finish {h : Hub} {b : Broadcast} (u : UnderWay h b)
    (noneLeft : b.remaining = []) :
    removals (h.finish b).2 =
      (b.closed.map fun id => (id, .closed)) ++ b.overflowed.map fun id => (id, .overflow) := by
  have nodup := u.nodup
  rw [noneLeft, List.append_nil] at nodup
  exact Hub.removals_finish nodup u.registered

theorem UnderWay.removed_finish {h : Hub} {b : Broadcast} (u : UnderWay h b)
    (noneLeft : b.remaining = []) : removed (h.finish b).2 = b.closed ++ b.overflowed := by
  simp [removed, u.removals_finish noneLeft, Function.comp_def]

/-- A turn brings the broadcast on. -/
theorem UnderWay.afterOutcome {h : Hub} {b : Broadcast} {id : Nat} {rest : List Nat}
    (u : UnderWay h b) (front : b.remaining = id :: rest) (outcome : Outcome) :
    UnderWay h (b.afterOutcome id outcome) := by
  have hid : h.isRegistered id = true := u.isRegistered (front ▸ List.mem_cons_self)
  have hn := u.nodup
  have hr := u.registered
  refine ⟨?_, ?_, ?_⟩
  · rw [remaining_afterOutcome]
    exact (List.tail_suffix _).trans u.remaining
  · rw [remaining_afterOutcome, front, List.tail_cons]
    rw [front] at hn
    cases outcome <;> simp only [Broadcast.afterOutcome, Broadcast.afterTurn] <;> grind
  · cases outcome <;> simp only [Broadcast.afterOutcome, Broadcast.afterTurn] <;> grind

/-- What holds of a hub at every moment. -/
structure Orderly (h : Hub) : Prop where
  underWay : ∀ b, h.phase = .delivering b → UnderWay h b
  queueRoom : ∀ id, (h.entry id).queue.length ≤ h.config.queueRoom
  commandRoom : h.commands.length ≤ h.config.commandRoom
  stopped : h.phase = .stopped → h.commands = [] ∧ h.waiting = [] ∧ h.unanswered = []

theorem CallerStep.orderly {h h' : Hub} {action : Action} {events : List Event}
    (o : Orderly h) (s : CallerStep h action events h') : Orderly h' := by
  obtain ⟨hc, hp, hs, -⟩ := s.frame
  refine ⟨?_, ?_, ?_, ?_⟩
  · intro b delivering
    exact (o.underWay b (hp ▸ delivering)).congr s.sameRegister
  · intro id
    rw [entry, hs, hc]
    exact o.queueRoom id
  -- The queue of commands grows only where there is room.
  · have hroom := o.commandRoom
    cases s with
    | accept request rest front room wants =>
      show (h.commands ++ [request]).length ≤ h.config.commandRoom
      rw [List.length_append, List.length_singleton]
      exact room
    | acceptAndReturn request rest front room wants =>
      show (h.commands ++ [request]).length ≤ h.config.commandRoom
      rw [List.length_append, List.length_singleton]
      exact room
    | _ => exact hroom
  · intro stopped
    obtain ⟨noCommand, noneWaits, noneUnanswered⟩ := o.stopped (hp ▸ stopped)
    cases s with
    | call command live => exact absurd (hp ▸ stopped) live
    | cancelWaiting ticket mem => simp [noneWaits] at mem
    | cancelAnswer ticket mem => simp [noneUnanswered] at mem
    | accept request rest front room wants => simp [noneWaits] at front
    | acceptAndReturn request rest front room wants => simp [noneWaits] at front
    | _ => exact ⟨noCommand, noneWaits, noneUnanswered⟩

theorem ReaderStep.orderly {h h' : Hub} {action : Action} {events : List Event}
    (o : Orderly h) (s : ReaderStep h action events h') : Orderly h' := by
  have same := s.frame
  have hp : h'.phase = h.phase := by rw [same]
  have hc : h'.config = h.config := by rw [same]
  refine ⟨?_, ?_, ?_, ?_⟩
  · intro b delivering
    exact (o.underWay b (hp ▸ delivering)).congr s.sameRegister
  · intro i
    rw [hc]
    have hroom := o.queueRoom i
    cases s with
    | take id s packet rest found front =>
      rw [entry, getD_set found]
      split
      · rename_i heq
        -- One packet less than there was.
        rw [heq, entry_eq found, front, List.length_cons] at hroom
        exact Nat.le_of_succ_le hroom
      · exact hroom
    | close id s found =>
      rw [entry, getD_set found]
      split
      · rename_i heq
        rw [heq, entry_eq found] at hroom
        exact hroom
      · exact hroom
    | discard id s found =>
      rw [entry, getD_set found]
      split
      · exact Nat.zero_le _
      · exact hroom
  · rw [same]
    exact o.commandRoom
  · rw [same]
    exact o.stopped

theorem stop_orderly {h : Hub} (o : Orderly h) : Orderly h.stop.1 where
  underWay := fun b delivering => by cases delivering
  queueRoom := o.queueRoom
  commandRoom := Nat.zero_le _
  stopped := fun _ => ⟨rfl, rfl, rfl⟩

theorem queue_entry_without (h : Hub) (ids : List Nat) (i : Nat) :
    ((h.without ids).entry i).queue = (h.entry i).queue := by
  rw [entry_without]
  split <;> rfl

theorem BeginStep.orderly {h h' : Hub} {request : Request} {rest : List Request}
    {events : List Event} (o : Orderly h) (ready : h.phase = .ready)
    (front : h.commands = request :: rest) (s : BeginStep h rest request events h') :
    Orderly h' := by
  have hroom : rest.length ≤ h.config.commandRoom := by
    have := o.commandRoom
    rw [front, List.length_cons] at this
    exact Nat.le_of_succ_le this
  -- Only a packet takes the hub out of its readiness.
  have notDelivering : ∀ b, h.phase ≠ .delivering b := by simp [ready]
  have live : h.phase ≠ .stopped := by simp [ready]
  cases s with
  | packet ticket packet =>
    refine ⟨?_, o.queueRoom, hroom, fun stopped => by cases stopped⟩
    rintro b ⟨⟩
    -- Whoever is registered now is to be served, and nobody has been yet.
    exact ⟨List.suffix_refl _, nodup_registeredIds h, fun id mem => by cases mem⟩
  | register ticket awaited =>
    refine ⟨?_, ?_, hroom, ?_⟩
    · intro b delivering
      exact absurd delivering (notDelivering b)
    · intro id
      show ((h.subscribers ++ [Subscriber.fresh])[id]?.getD .fresh).queue.length ≤ _
      rw [getD_append_fresh]
      exact o.queueRoom id
    · intro stopped
      exact absurd stopped live
  | abandon ticket gone =>
    refine ⟨?_, ?_, hroom, ?_⟩
    · intro b delivering
      exact absurd delivering (notDelivering b)
    · intro id
      show ((h.subscribers ++ [_])[id]?.getD Subscriber.fresh).queue.length ≤ _
      rw [getD_append_singleton]
      split
      · exact Nat.zero_le _
      · exact o.queueRoom id
    · intro stopped
      exact absurd stopped live
  | unregister ticket id =>
    refine ⟨?_, ?_, hroom, ?_⟩
    · intro b delivering
      exact absurd delivering (notDelivering b)
    · intro i
      show ((h.without [id]).entry i).queue.length ≤ _
      rw [queue_entry_without]
      exact o.queueRoom i
    · intro stopped
      exact absurd stopped live
  | stats | statsUnread =>
    refine ⟨?_, o.queueRoom, hroom, ?_⟩
    · intro b delivering
      exact absurd delivering (notDelivering b)
    · intro stopped
      exact absurd stopped live

theorem WorkStep.orderly {h h' : Hub} {events : List Event} (o : Orderly h)
    (s : WorkStep h events h') : Orderly h' := by
  cases s with
  | turn b id rest s outcome delivering front found fits =>
    refine ⟨?_, ?_, o.commandRoom, fun stopped => by cases stopped⟩
    · rintro b' ⟨⟩
      exact ((o.underWay b delivering).afterOutcome front outcome).congr
        (served_sameRegister b outcome found)
    · intro i
      show ((h.subscribers.set id _)[i]?.getD .fresh).queue.length ≤ h.config.queueRoom
      rw [getD_set found]
      have hroom := o.queueRoom i
      split
      · rename_i heq
        rw [heq, entry_eq found] at hroom
        -- Only a packet that is queued makes the queue longer, and it found room.
        cases outcome with
        | queued =>
          show (s.queue ++ [b.packet]).length ≤ _
          rw [List.length_append, List.length_singleton]
          exact fits.2
        | _ => exact hroom
      · exact hroom
  | pass b id rest delivering front unknown =>
    refine ⟨?_, o.queueRoom, o.commandRoom, fun stopped => by cases stopped⟩
    rintro b' ⟨⟩
    exact ((o.underWay b delivering).afterOutcome front .queued).congr ⟨fun _ => rfl, rfl⟩
  | finish b delivering noneLeft =>
    rw [finish_fst]
    refine ⟨?_, ?_, o.commandRoom, fun stopped => by cases stopped⟩
    · rintro b' ⟨⟩
    intro i
    show ((h.without (b.closed ++ b.overflowed)).entry i).queue.length ≤ _
    rw [queue_entry_without]
    exact o.queueRoom i
  | «begin» request rest events h' ready inTime front s => exact s.orderly o ready front
  | stop cause why => exact stop_orderly o

theorem Transition.orderly {h h' : Hub} {action : Action} {events : List Event}
    (o : Orderly h) (t : Transition h action events h') : Orderly h' := by
  cases t with
  | caller s => exact s.orderly o
  | reader s => exact s.orderly o
  | work own s => exact s.orderly o

theorem Run.orderly {config : HubConfig} {history : List Event} {h : Hub}
    (run : Run config history h) : Orderly h := by
  induction run with
  | start =>
    refine ⟨?_, fun id => Nat.zero_le _, Nat.zero_le _, fun stopped => by cases stopped⟩
    rintro b ⟨⟩
  | step _ hs ih => exact (Transition.of_step? hs).orderly ih

theorem Transition.config_eq {h h' : Hub} {action : Action} {events : List Event}
    (t : Transition h action events h') : h'.config = h.config := by
  cases t with
  | caller s => exact s.frame.1
  | reader s => rw [s.frame]
  | work own s =>
    cases s with
    | finish b delivering noneLeft => rw [finish_fst]; rfl
    | «begin» request rest events h' ready inTime front s => cases s <;> rfl
    | _ => rfl

theorem Run.config_eq {config : HubConfig} {history : List Event} {h : Hub}
    (run : Run config history h) : h.config = config := by
  induction run with
  | start => rfl
  | step _ hs ih => exact (Transition.of_step? hs).config_eq.trans ih

/-! ### The entries in the history -/

/-- The queue of `s` says what the history says of subscriber `id`. -/
structure Contents (id : Nat) (history : List Event) (s : Subscriber) : Prop where
  isOpen : s.isOpen = true ↔ id ∉ closings history
  /-- What was queued was taken, or is queued still. -/
  intact : id ∉ drops history → queuedFor id history = takenBy id history ++ s.queue
  taken : takenBy id history ++ s.queue <+: queuedFor id history
  /-- Nothing is left of what was given up, and nothing more comes. -/
  dropped : id ∈ drops history → s.queue = [] ∧ s.isOpen = false

/-- The entry `s` of subscriber `id` says what the history says of it. -/
structure Account (id : Nat) (history : List Event) (s : Subscriber) : Prop
    extends Contents id history s where
  isRegistered : s.isRegistered = true ↔ id ∉ removed history

/-- Nothing in `events` is about the queue of `id`. -/
structure Untouched (id : Nat) (events : List Event) : Prop where
  notClosed : id ∉ closings events
  notDropped : id ∉ drops events
  noneQueued : queuedFor id events = []
  noneTaken : takenBy id events = []

theorem Quiet.untouched {events : List Event} (q : Quiet events) (id : Nat) :
    Untouched id events where
  notClosed := by simp [q.closings]
  notDropped := by simp [q.drops]
  noneQueued := q.queuedFor id
  noneTaken := q.takenBy id

section Account

variable {id : Nat} {history events : List Event} {s : Subscriber}

/-- What still takes deliveries has not been given up. -/
theorem Contents.not_mem_drops (c : Contents id history s) (isOpen : s.isOpen = true) :
    id ∉ drops history := by
  intro dropped
  rw [(c.dropped dropped).2] at isOpen
  cases isOpen

theorem Contents.append (c : Contents id history s) (u : Untouched id events) :
    Contents id (history ++ events) s := by
  refine ⟨?_, ?_, ?_, ?_⟩
  · rw [closings_append, List.mem_append, or_iff_left u.notClosed]
    exact c.isOpen
  · rw [drops_append, List.mem_append, or_iff_left u.notDropped, queuedFor_append,
      u.noneQueued, takenBy_append, u.noneTaken, List.append_nil, List.append_nil]
    exact c.intact
  · rw [queuedFor_append, u.noneQueued, takenBy_append, u.noneTaken, List.append_nil,
      List.append_nil]
    exact c.taken
  · rw [drops_append, List.mem_append, or_iff_left u.notDropped]
    exact c.dropped

theorem Account.append (a : Account id history s) (u : Untouched id events)
    (notRemoved : id ∉ removed events) : Account id (history ++ events) s := by
  refine ⟨a.toContents.append u, ?_⟩
  rw [removed_append, List.mem_append, or_iff_left notRemoved]
  exact a.isRegistered

theorem Account.quiet (a : Account id history s) (q : Quiet events)
    (notRemoved : id ∉ removed events) : Account id (history ++ events) s :=
  a.append (q.untouched id) notRemoved

/-- Removals, each of which is told of. -/
theorem Account.without {h : Hub} {ids : List Nat} (a : Account id history (h.entry id))
    (u : Untouched id events)
    (told : id ∈ removed events ↔ id ∈ ids ∧ h.isRegistered id = true) :
    Account id (history ++ events) ((h.without ids).entry id) := by
  have hr := isRegistered_eq h id
  rw [entry_without]
  split
  · rename_i both
    obtain ⟨mem, known⟩ := both
    have c := a.toContents.append u
    refine ⟨⟨c.isOpen, c.intact, c.taken, c.dropped⟩, ?_⟩
    show false = true ↔ id ∉ removed (history ++ events)
    rw [removed_append, List.mem_append]
    -- It was registered, and its removal is told, or had been removed before.
    by_cases registered : h.isRegistered id = true
    · simp [told.mpr ⟨mem, registered⟩]
    · have before : (h.entry id).isRegistered ≠ true := by
        intro after
        rw [after, decide_eq_true known] at hr
        exact registered hr
      have : id ∈ removed history := by_contra fun hn => before (a.isRegistered.mpr hn)
      simp [this]
  · rename_i notBoth
    refine a.append u fun mem => ?_
    obtain ⟨mem, registered⟩ := told.mp mem
    rw [registered] at hr
    have known : id < h.nextId := by
      by_contra unknown
      simp [unknown] at hr
    exact notBoth ⟨mem, known⟩

theorem untouched_turn (t : Turn) (other : t.outcome = .queued → t.id ≠ id) :
    Untouched id [t.event] := by
  obtain ⟨i, packet, outcome⟩ := t
  cases outcome with
  | queued => exact ⟨by simp [Turn.event], by simp [Turn.event],
      by simpa [Turn.event] using other rfl, rfl⟩
  | _ => exact ⟨by simp [Turn.event], by simp [Turn.event], rfl, rfl⟩

/-- What was queued is at the end of the queue. -/
theorem Contents.queued (c : Contents id history s) (isOpen : s.isOpen = true)
    (packet : Packet) :
    Contents id (history ++ [.queued id packet])
      { s with queue := s.queue ++ [packet], queued := s.queued + 1 } := by
  have kept : id ∉ drops history := c.not_mem_drops isOpen
  have h' : queuedFor id (history ++ [.queued id packet]) =
      takenBy id (history ++ [.queued id packet]) ++ (s.queue ++ [packet]) := by
    simp [c.intact kept]
  refine ⟨?_, fun _ => h', ?_, ?_⟩
  · simpa using c.isOpen
  · exact ⟨[], by rw [List.append_nil, h']⟩
  · intro dropped
    exact absurd (by simpa using dropped) kept

/-- What was taken was the first of the queue. -/
theorem Contents.took (c : Contents id history s) {packet : Packet} {rest : List Packet}
    (front : s.queue = packet :: rest) :
    Contents id (history ++ [.took id packet]) { s with queue := rest } := by
  refine ⟨?_, ?_, ?_, ?_⟩
  · simpa using c.isOpen
  · intro kept
    have hq := c.intact (by simpa using kept)
    rw [front] at hq
    simpa using hq
  · have hq := c.taken
    rw [front] at hq
    simpa using hq
  · intro dropped
    rw [(c.dropped (by simpa using dropped)).1] at front
    cases front

theorem Contents.close (c : Contents id history s) :
    Contents id (history ++ [.closed id]) { s with isOpen := false } := by
  refine ⟨?_, ?_, ?_, ?_⟩
  · simp
  · simpa using c.intact
  · simpa using c.taken
  · intro dropped
    exact ⟨(c.dropped (by simpa using dropped)).1, rfl⟩

theorem Contents.discard (c : Contents id history s) :
    Contents id (history ++ [.closed id, .dropped id])
      { s with isOpen := false, queue := [] } := by
  refine ⟨?_, ?_, ?_, ?_⟩
  · simp
  · simp
  · have : takenBy id history <+: queuedFor id history := List.IsPrefix.trans ⟨_, rfl⟩ c.taken
    simpa using this
  · intro _
    exact ⟨rfl, rfl⟩

end Account

/-- The account of every subscriber, also of those to come. -/
def Accounts (history : List Event) (h : Hub) : Prop := ∀ id, Account id history (h.entry id)

theorem ReaderStep.accounts {h h' : Hub} {action : Action} {history events : List Event}
    (a : Accounts history h) (s : ReaderStep h action events h') :
    Accounts (history ++ events) h' := by
  intro i
  have ai := a i
  cases s with
  | take id s packet rest found front =>
    rw [entry, getD_set found]
    split
    · rename_i heq
      subst heq
      rw [entry_eq found] at ai
      exact ⟨ai.took front, by simpa [removed] using ai.isRegistered⟩
    · rename_i hne
      exact ai.append ⟨by simp, by simp, rfl, by simp [Ne.symm hne]⟩ (by simp [removed])
  | close id s found =>
    rw [entry, getD_set found]
    split
    · rename_i heq
      subst heq
      rw [entry_eq found] at ai
      exact ⟨ai.close, by simpa [removed] using ai.isRegistered⟩
    · rename_i hne
      exact ai.append ⟨by simp [hne], by simp, rfl, rfl⟩ (by simp [removed])
  | discard id s found =>
    rw [entry, getD_set found]
    split
    · rename_i heq
      subst heq
      rw [entry_eq found] at ai
      exact ⟨ai.discard, by simpa [removed] using ai.isRegistered⟩
    · rename_i hne
      exact ai.append ⟨by simp [hne], by simp [hne], rfl, rfl⟩ (by simp [removed])

theorem BeginStep.accounts {h h' : Hub} {request : Request} {rest : List Request}
    {history events : List Event} (a : Accounts history h)
    (s : BeginStep h rest request events h') :
    Accounts (history ++ .began request :: events) h' := by
  intro i
  have ai := a i
  cases s with
  | packet ticket packet => exact ai.append ⟨by simp, by simp, rfl, rfl⟩ (by simp [removed])
  | register ticket awaited =>
    rw [entry, getD_append_fresh]
    exact ai.append ⟨by simp, by simp, rfl, rfl⟩ (by simp [removed])
  | abandon ticket gone =>
    rw [entry, getD_append_singleton]
    split
    · rename_i heq
      -- Nobody had this number before, so its account is that of a new entry.
      have hfresh : h.entry i = .fresh := by
        rw [entry, List.getElem?_eq_none (Nat.le_of_eq heq.symm)]
        rfl
      rw [hfresh] at ai
      have u : Untouched i [.began ⟨ticket, .register⟩, .registered ticket h.nextId,
          .removed h.nextId .abandoned 0 0 h.registeredCount] := ⟨by simp, by simp, rfl, rfl⟩
      have c := ai.toContents.append u
      exact ⟨⟨c.isOpen, c.intact, c.taken, c.dropped⟩, by simp [removed, heq, nextId]⟩
    · rename_i hne
      exact ai.append ⟨by simp, by simp, rfl, rfl⟩ (by simpa [removed, nextId] using hne)
  | unregister ticket id =>
    -- The removal is told if, and only if, there was somebody to remove.
    have hr := removals_remove { h with commands := rest } id .unregistered
    refine ai.without (Quiet.untouched (.cons rfl (remove_quiet _ _ _)) i) ?_
    rw [removed, removals_cons, hr, show Hub.isRegistered { h with commands := rest } id =
      h.isRegistered id from rfl]
    by_cases registered : h.isRegistered id = true
    · simp only [registered]
      simp
      rintro rfl
      exact registered
    · simp only [registered]
      simp
      rintro rfl
      simpa using registered
  | stats ticket awaited => exact ai.quiet (.cons rfl (.cons rfl .nil)) List.not_mem_nil
  | statsUnread ticket gone => exact ai.quiet (.cons rfl .nil) List.not_mem_nil

theorem WorkStep.accounts {h h' : Hub} {history events : List Event} (o : Orderly h)
    (a : Accounts history h) (s : WorkStep h events h') : Accounts (history ++ events) h' := by
  intro i
  have ai := a i
  cases s with
  | turn b id rest s outcome delivering front found fits =>
    show Account i _ ((h.subscribers.set id _)[i]?.getD .fresh)
    rw [getD_set found]
    split
    · rename_i heq
      subst heq
      rw [entry_eq found] at ai
      cases outcome with
      | queued =>
        exact ⟨ai.queued fits.1 b.packet,
          by simpa [removed, Turn.event] using ai.isRegistered⟩
      | skipped =>
        have c := ai.append (untouched_turn ⟨i, b.packet, .skipped⟩ (by simp))
          (by simp [removed_turn])
        exact ⟨⟨c.isOpen, c.intact, c.taken, c.dropped⟩, c.isRegistered⟩
      | refused => exact ai.append (untouched_turn _ (by simp)) (by simp [removed_turn])
      | overflowed => exact ai.append (untouched_turn _ (by simp)) (by simp [removed_turn])
    · rename_i hne
      exact ai.append (untouched_turn _ fun _ => Ne.symm hne) (by simp [removed_turn])
  | pass b id rest delivering front unknown => exact ai.quiet .nil List.not_mem_nil
  | finish b delivering noneLeft =>
    -- Those to be removed are registered still, so every removal is told.
    have u := o.underWay b delivering
    rw [finish_fst]
    refine ai.without ((finish_quiet h b).untouched i) ?_
    rw [u.removed_finish noneLeft]
    exact ⟨fun mem => ⟨mem, u.registered i mem⟩, And.left⟩
  | «begin» request rest events h' ready inTime front s => exact s.accounts a i
  | stop cause why =>
    exact ai.quiet (why.quiet.append (stop_quiet h)) (by simp [why.removed, stop_removed])

theorem Transition.accounts {h h' : Hub} {action : Action} {history events : List Event}
    (o : Orderly h) (a : Accounts history h) (t : Transition h action events h') :
    Accounts (history ++ events) h' := by
  cases t with
  | caller s =>
    intro i
    rw [entry, s.frame.2.2.1]
    exact (a i).quiet s.quiet (by simp [s.removed])
  | reader s => exact s.accounts a
  | work own s => exact s.accounts o a

/-- The account of `id` at every moment of a run. -/
theorem Run.account {config : HubConfig} {history : List Event} {h : Hub}
    (run : Run config history h) : Accounts history h := by
  induction run with
  | start =>
    intro i
    refine ⟨⟨?_, ?_, ?_, ?_⟩, ?_⟩
    · exact ⟨fun _ => List.not_mem_nil, fun _ => rfl⟩
    · intro _
      exact rfl
    · exact List.prefix_refl _
    · intro mem
      cases mem
    · exact ⟨fun _ => List.not_mem_nil, fun _ => rfl⟩
  | step run hs ih => exact (Transition.of_step? hs).accounts run.orderly ih

theorem Run.account_of_found {config : HubConfig} {history : List Event} {h : Hub} {id : Nat}
    {s : Subscriber} (run : Run config history h) (found : h.subscribers[id]? = some s) :
    Account id history s :=
  entry_eq found ▸ run.account id

/-- A queue that the hub waits for is full and holds no more than it has room for. -/
theorem Run.length_of_waitsFor {config : HubConfig} {history : List Event} {h : Hub} {id : Nat}
    {s : Subscriber} (run : Run config history h) (found : h.subscribers[id]? = some s)
    (waits : h.WaitsFor s) : s.queue.length = config.queueRoom := by
  have atMost := run.orderly.queueRoom id
  rw [entry_eq found] at atMost
  exact run.config_eq ▸ Nat.le_antisymm atMost waits.full

/-! ### Who is registered -/

/-- A step in which nobody is registered. -/
structure RegistersNobody (h : Hub) (events : List Event) (h' : Hub) : Prop where
  none : registrations events = []
  noCommand : ∀ r ∈ begun events, r.command ≠ .register
  nextId : h'.nextId = h.nextId

theorem RegistersNobody.of_begun {h h' : Hub} {events : List Event}
    (none : registrations events = []) (noneBegun : begun events = [])
    (nextId : h'.nextId = h.nextId) : RegistersNobody h events h' := by
  refine ⟨none, ?_, nextId⟩
  rw [noneBegun]
  exact nofun

/-- A command for it registers the next subscriber, and nothing else registers anybody. -/
theorem Transition.registration {h h' : Hub} {action : Action} {events : List Event}
    (t : Transition h action events h') :
    RegistersNobody h events h' ∨
      ∃ ticket more, events = .began ⟨ticket, .register⟩ :: .registered ticket h.nextId :: more ∧
        registrations more = [] ∧ begun more = [] ∧ h'.nextId = h.nextId + 1 := by
  cases t with
  | caller s => exact .inl (.of_begun s.quiet.registrations s.begun s.sameRegister.nextId)
  | reader s =>
    exact .inl (.of_begun (by cases s <;> rfl) s.uncalled.begun s.sameRegister.nextId)
  | work own s =>
    cases s with
    | turn b id rest s outcome delivering front found fits =>
      exact .inl (.of_begun (registrations_turn _) (turn_uncalled _).begun
        (served_sameRegister b outcome found).nextId)
    | pass b id rest delivering front unknown => exact .inl (.of_begun rfl rfl rfl)
    | finish b delivering noneLeft =>
      refine .inl (.of_begun (finish_quiet h b).registrations (finish_uncalled h b).begun ?_)
      rw [finish_fst]
      exact List.length_mapIdx
    | «begin» request rest events h' ready inTime front s =>
      cases s with
      | register ticket awaited =>
        exact .inr ⟨ticket, _, rfl, rfl, rfl, List.length_append⟩
      | abandon ticket gone =>
        exact .inr ⟨ticket, _, rfl, rfl, rfl, List.length_append⟩
      | unregister ticket id =>
        have noneBegun := (remove_uncalled { h with commands := rest } id .unregistered).begun
        refine .inl ⟨(remove_quiet _ _ _).registrations, ?_, List.length_mapIdx⟩
        rw [begun_cons, noneBegun]
        simp
      | packet ticket packet => exact .inl ⟨rfl, by simp, rfl⟩
      | stats ticket awaited => exact .inl ⟨rfl, by simp, rfl⟩
      | statsUnread ticket gone => exact .inl ⟨rfl, by simp, rfl⟩
    | stop cause why =>
      refine .inl ⟨Quiet.registrations (why.quiet.append (stop_quiet h)), ?_, rfl⟩
      rw [begun_append, begun_stop, List.append_nil]
      cases why <;> simp

/-- The next subscriber gets the next number, and nobody else gets one. -/
theorem Transition.numbering {h h' : Hub} {action : Action} {events : List Event}
    (t : Transition h action events h') :
    (registrations events = [] ∧ h'.nextId = h.nextId) ∨
      (registrations events = [h.nextId] ∧ h'.nextId = h.nextId + 1) := by
  rcases t.registration with nobody | ⟨ticket, more, rfl, none, -, nextId⟩
  · exact .inl ⟨nobody.none, nobody.nextId⟩
  · refine .inr ⟨?_, nextId⟩
    rw [registrations_cons, registrations_cons, none]
    rfl

/-- Numbers are given in order. -/
theorem Run.registrations_eq {config : HubConfig} {history : List Event} {h : Hub}
    (run : Run config history h) : registrations history = List.range h.nextId := by
  induction run with
  | start => rfl
  | step run hs ih =>
    rw [registrations_append, ih]
    rcases (Transition.of_step? hs).numbering with ⟨none, same⟩ | ⟨one, next⟩
    · rw [none, same, List.append_nil]
    · rw [one, next, List.range_succ]

/-- Who was registered and not removed is registered. -/
theorem Run.members_eq {config : HubConfig} {history : List Event} {h : Hub}
    (run : Run config history h) : members history = h.registeredIds := by
  rw [members, run.registrations_eq, registeredIds]
  apply List.filter_congr
  intro id mem
  have known : id < h.nextId := List.mem_range.mp mem
  have ha := (run.account id).isRegistered
  rw [isRegistered_eq, decide_eq_true known, Bool.true_and]
  by_cases registered : (h.entry id).isRegistered = true
  · rw [registered, decide_eq_true (ha.mp registered)]
  · rw [decide_eq_false (mt ha.mpr registered), Bool.eq_false_iff.mpr registered]

/-- At no time of a run is the register out of order. -/
theorem Run.pairwise_members {config : HubConfig} {before after : List Event} {h : Hub}
    (run : Run config (before ++ after) h) : (members before).Pairwise (· < ·) := by
  have numbered := run.registrations_eq
  rw [registrations_append] at numbered
  have all : (registrations before ++ registrations after).Pairwise (· < ·) := by
    rw [numbered]
    exact List.pairwise_lt_range
  exact (List.pairwise_append.mp all).1.filter _

end Hub

end VideoRelay

/-
What is left out under the policy that drops the newest packet.

* `Occasion`, `occasions` — the packets since a registration, each with all that had
  happened when the subscriber had its turn with it or, if it had been removed by then,
  when the packet was taken up;
* `Run.occasions_eq` — there is one occasion for each packet, in order;
* `Run.queuedFor_eq_occasions` — what was queued are the packets of those occasions at
  which the queue was not full and nobody had gone;
* `Run.skippedFor_eq_occasions`, `Counted`, `Run.counted` — what was left out for a full
  queue, and that the entry counts it;
* `LosesOnlyNewest`, `Run.losesOnlyNewest` — so nothing is left out but for these reasons,
  and what is queued stays.

Design notes: what a queue was like is told of an occasion by its past alone, so that
the packets left out can be computed from a history; `Run.at_occasion` says what this
means for the subscriber's entry at that moment.
-/
import VideoRelay.Proofs.Hub.Lineup
import VideoRelay.Proofs.Hub.Statistics

namespace VideoRelay

namespace Hub

/-! ### Occasions -/

/-- A packet that a subscriber was to get, and what had happened by then. -/
structure Occasion where
  packet : Packet
  past : List Event

/-- What an event after `past` is to `id`: its turn with a packet or, if it is removed, a
packet without a turn for it. -/
def occasion? (id : Nat) (past : List Event) (e : Event) : Option Occasion :=
  match e.turn? with
  | some t => if t.id = id then some ⟨t.packet, past⟩ else none
  | none => if id ∈ removed past then e.begunPacket?.map (⟨·, past⟩) else none

def occasions (id : Nat) (history : List Event) : List Occasion :=
  viewFrom (occasion? id) [] history

namespace Occasion

/-- The queue of `id` was closed, or `id` was removed. -/
def isGone (id : Nat) (o : Occasion) : Bool := id ∈ closings o.past || id ∈ removed o.past

/-- The queue of `id` was in use and held `room` packets. -/
def isFull (room id : Nat) (o : Occasion) : Bool :=
  !o.isGone id && (queuedFor id o.past).length = (takenBy id o.past).length + room

def isMissed (room id : Nat) (o : Occasion) : Bool := o.isGone id || o.isFull room id

end Occasion

theorem occasions_append (id : Nat) (history events : List Event) :
    occasions id (history ++ events) =
      occasions id history ++ viewFrom (occasion? id) history events :=
  viewFrom_append [] history events

/-- Without a turn and without a packet there is no occasion. -/
theorem occasions_append_eq {id : Nat} {events : List Event} (noTurn : turns events = [])
    (noPacket : begunPackets events = []) (history : List Event) :
    occasions id (history ++ events) = occasions id history := by
  rw [turns, List.filterMap_eq_nil_iff] at noTurn
  rw [begunPackets, List.filterMap_eq_nil_iff] at noPacket
  have none : viewFrom (occasion? id) history events = [] := by
    refine viewFrom_eq_nil (fun e mem past => ?_) history
    rw [occasion?, noTurn e mem, noPacket e mem]
    exact ite_self none
  rw [occasions_append, none, List.append_nil]

theorem occasions_turn (id : Nat) (history : List Event) (t : Turn) :
    occasions id (history ++ [t.event]) =
      occasions id history ++ if t.id = id then [⟨t.packet, history⟩] else [] := by
  rw [occasions_append, viewFrom, viewFrom, occasion?, turn?_event, List.append_nil]
  by_cases own : t.id = id <;> simp [own]

theorem occasions_packet (id : Nat) (history : List Event) (ticket : Nat) (packet : Packet) :
    occasions id (history ++ [.began ⟨ticket, .packet packet⟩]) =
      occasions id history ++ if id ∈ removed history then [⟨packet, history⟩] else [] := by
  rw [occasions_append, viewFrom, viewFrom, List.append_nil]
  by_cases gone : id ∈ removed history <;> simp [occasion?, gone]

/-! ### One occasion for each packet -/

/-- Events without packets leave the packets as they are, whoever is registered by them. -/
theorem packetsSince_append_of_noPacket {events : List Event}
    (noPacket : begunPackets events = []) (id : Nat) (history : List Event) :
    packetsSince id (history ++ events) = packetsSince id history := by
  by_cases known : id ∈ registrations history
  · rw [packetsSince_append known, noPacket, List.append_nil]
  · rw [packetsSince_append_of_not_mem known, packetsSince_of_not_mem known,
      packetsSince_eq_nil noPacket]

/-- A packet is one more for whoever has been registered. -/
theorem packetsSince_packet (id : Nat) (history : List Event) (ticket : Nat) (packet : Packet) :
    packetsSince id (history ++ [.began ⟨ticket, .packet packet⟩]) =
      packetsSince id history ++ if id ∈ registrations history then [packet] else [] := by
  by_cases known : id ∈ registrations history
  · rw [packetsSince_append known, if_pos known]
    rfl
  · rw [packetsSince_append_of_not_mem known, packetsSince_of_not_mem known, if_neg known]
    rfl

variable {config : HubConfig} {history : List Event} {h : Hub}

/-- A step without turns and without packets, before and after which nothing is due. -/
theorem occasions_eq_of_idle {id : Nat} {events : List Event} {h' : Hub}
    (known : (occasions id history).map (·.packet) ++ h.due id = packetsSince id history)
    (noTurn : turns events = []) (noPacket : begunPackets events = [])
    (due : h'.due id = h.due id) :
    (occasions id (history ++ events)).map (·.packet) ++ h'.due id =
      packetsSince id (history ++ events) := by
  rw [occasions_append_eq noTurn noPacket, packetsSince_append_of_noPacket noPacket, due]
  exact known

/-- A packet is taken up: it is due to whoever is registered. -/
theorem Run.occasions_packet (run : Run config history h) {id : Nat}
    (known : (occasions id history).map (·.packet) = packetsSince id history) {h' : Hub}
    {ticket : Nat} {packet : Packet}
    (delivering : h'.phase = .delivering ⟨packet, h.registeredIds, [], []⟩) :
    (occasions id (history ++ [.began ⟨ticket, .packet packet⟩])).map (·.packet) ++ h'.due id =
      packetsSince id (history ++ [.began ⟨ticket, .packet packet⟩]) := by
  have registered : id ∈ h.registeredIds ↔ id ∈ registrations history ∧ id ∉ removed history := by
    rw [← run.members_eq, members, List.mem_filter, decide_eq_true_eq]
  rw [Hub.occasions_packet, packetsSince_packet, due_of_delivering delivering, List.map_append,
    known, List.append_assoc]
  by_cases gone : id ∈ removed history
  · simp [registered, gone, run.removed_subset gone]
  · simp [registered, gone]

/-- The occasions so far and the turn to come are the packets since the registration. -/
theorem Run.occasions_eq (run : Run config history h) (policy : config.policy ≠ .block)
    (id : Nat) : (occasions id history).map (·.packet) ++ h.due id = packetsSince id history := by
  induction run with
  | start => rfl
  | @step history events h h' action run hs ih =>
    have o := run.orderly
    cases Transition.of_step? hs with
    | caller s =>
      exact occasions_eq_of_idle ih s.quiet.turns s.quiet.begunPackets
        (by rw [due, due, s.frame.2.1])
    | reader s =>
      exact occasions_eq_of_idle ih (by cases s <;> rfl) (by cases s <;> rfl)
        (by rw [due, due, s.frame])
    | work own s =>
      cases s with
      | turn b i rest s outcome delivering front found fits =>
        have nodup := (o.underWay b delivering).nodup
        rw [front] at nodup
        have notRest : i ∉ rest := by
          intro mem
          exact (List.nodup_cons.mp (List.nodup_append.mp nodup).2.1).1 mem
        rw [due_of_delivering delivering, front] at ih
        rw [occasions_turn, due_of_delivering (b := b.afterOutcome i outcome) rfl,
          remaining_afterOutcome, packet_afterOutcome, front, List.tail_cons,
          packetsSince_append_of_noPacket (begunPackets_turn _), ← ih]
        by_cases own : i = id
        · subst own
          simp [notRest]
        · simp [own, Ne.symm own]
      | pass b i rest delivering front unknown =>
        obtain ⟨s, found⟩ := (o.underWay b delivering).found (front ▸ List.mem_cons_self)
        rw [unknown] at found
        cases found
      | finish b delivering noneLeft =>
        have q := finish_quiet h b
        refine occasions_eq_of_idle ih q.turns q.begunPackets ?_
        rw [due_of_ready (by rw [finish_fst]), due_of_delivering delivering, noneLeft,
          if_neg List.not_mem_nil]
      | «begin» request rest events h' ready inTime front s =>
        have idle := due_of_ready ready id
        cases s with
        | packet ticket packet =>
          rw [idle, List.append_nil] at ih
          exact run.occasions_packet ih rfl
        | unregister ticket i =>
          have q : Quiet (Event.began ⟨ticket, .unregister i⟩ ::
              ({ h with commands := rest }.remove i .unregistered).2) :=
            .cons rfl (remove_quiet _ _ _)
          exact occasions_eq_of_idle ih q.turns q.begunPackets
            ((due_of_ready (by exact ready) id).trans idle.symm)
        | register | abandon | stats | statsUnread =>
          exact occasions_eq_of_idle ih rfl rfl ((due_of_ready (by exact ready) id).trans idle.symm)
      | stop cause why =>
        have q : Quiet (cause ++ h.stop.2) := why.quiet.append (stop_quiet h)
        -- No broadcast is under way, since the hub never waits for a subscriber.
        have noneDue : h.due id = [] := by
          cases why with
          | abandoned b i rest s delivering front found waits overdue =>
            exact absurd waits.policy (run.config_eq ▸ policy)
          | expired ready | asked _ _ ready | unreachable ready => exact due_of_ready ready id
        exact occasions_eq_of_idle ih q.turns q.begunPackets noneDue.symm

/-! ### What an occasion comes to -/

section Account

variable {id : Nat} {o : Occasion} {s : Subscriber}

theorem Account.isGone_iff (a : Account id o.past s) :
    o.isGone id = true ↔ s.isOpen = false ∨ s.isRegistered = false := by
  have isOpen := a.isOpen
  have isRegistered := a.isRegistered
  rw [Occasion.isGone, Bool.or_eq_true, decide_eq_true_eq, decide_eq_true_eq,
    ← Bool.not_eq_true, ← Bool.not_eq_true, isOpen, isRegistered, not_not, not_not]

theorem Account.isFull_iff (a : Account id o.past s) (room : Nat) :
    o.isFull room id = true ↔
      s.isOpen = true ∧ s.isRegistered = true ∧ s.queue.length = room := by
  have present : o.isGone id = false ↔ s.isOpen = true ∧ s.isRegistered = true := by
    rw [← Bool.not_eq_true, a.isGone_iff, not_or, Bool.not_eq_false, Bool.not_eq_false]
  rw [Occasion.isFull, Bool.and_eq_true, Bool.not_eq_true', decide_eq_true_eq, present,
    and_assoc]
  refine and_congr_right fun isOpen => and_congr_right fun _ => ?_
  -- What still takes deliveries has lost nothing of what was queued.
  rw [a.intact (a.not_mem_drops isOpen), List.length_append]
  omega

end Account

/-- The entry of the subscriber at an occasion, and how it is told. -/
theorem Run.at_occasion (run : Run config history h) {id : Nat} {o : Occasion}
    (mem : o ∈ occasions id history) :
    o.past <+: history ∧ ∃ h₀ s, Run config o.past h₀ ∧ h₀.subscribers[id]? = some s ∧
      (o.isGone id = true ↔ s.isOpen = false ∨ s.isRegistered = false) ∧
      (o.isFull config.queueRoom id = true ↔ s.isOpen = true ∧ s.isRegistered = true ∧
        s.queue.length = config.queueRoom) := by
  obtain ⟨past, e, rest, rfl, told⟩ := mem_viewFrom.mp mem
  rw [List.nil_append] at told
  obtain ⟨h₀, s, pasts, before, found⟩ : ∃ h₀ s, o.past = past ∧ Run config past h₀ ∧
      h₀.subscribers[id]? = some s := by
    rw [occasion?] at told
    cases turn : e.turn? with
    | some t =>
      obtain rfl := turn?_eq_some.mp turn
      rw [turn] at told
      obtain ⟨own, rfl⟩ : t.id = id ∧ ⟨t.packet, past⟩ = o := by simpa using told
      obtain ⟨h₀, before, here⟩ := run.before_turn
      obtain ⟨s, found, -⟩ := here.fits
      exact ⟨h₀, s, rfl, before, own ▸ found⟩
    | none =>
      rw [turn] at told
      obtain ⟨gone, packet, begun, rfl⟩ : id ∈ removed past ∧ ∃ packet,
          e.begunPacket? = some packet ∧ ⟨packet, past⟩ = o := by simpa using told
      obtain ⟨request, rfl⟩ : ∃ request, e = .began request := by
        cases e with
        | began request => exact ⟨request, rfl⟩
        | _ => cases begun
      obtain ⟨h₀, before, -, -⟩ := run.before_begin
      -- Only who was registered can have been removed.
      have known := before.removed_subset gone
      rw [before.registrations_eq, List.mem_range] at known
      exact ⟨h₀, _, rfl, before, List.getElem?_eq_getElem known⟩
  rw [pasts]
  have a := before.account_of_found found
  rw [← pasts] at a
  exact ⟨List.prefix_append _ _, h₀, s, before, found, a.isGone_iff, a.isFull_iff _⟩

theorem skippedFor_append (id : Nat) (history events : List Event) :
    skippedFor id (history ++ events) = skippedFor id history ++ skippedFor id events := by
  rw [skippedFor, turnsOf_append, List.filter_append, List.map_append]
  rfl

/-- How a turn under this policy ends. -/
theorem Run.outcome_eq {past rest : List Event} {t : Turn}
    (run : Run config (past ++ t.event :: rest) h) (policy : config.policy = .dropNewest) :
    t.outcome = if Occasion.isGone t.id ⟨t.packet, past⟩ then .refused
      else if Occasion.isFull config.queueRoom t.id ⟨t.packet, past⟩ then .skipped
      else .queued := by
  obtain ⟨h₀, before, here⟩ := run.before_turn
  obtain ⟨b, later, delivering, front, -⟩ := here.inRound
  obtain ⟨s, found, fits⟩ := here.fits
  rw [before.config_eq] at fits
  have a := before.account_of_found found
  have gone := a.isGone_iff (o := ⟨t.packet, past⟩)
  have full := a.isFull_iff (o := ⟨t.packet, past⟩) config.queueRoom
  -- Nobody is removed while a round is under way.
  have registered : s.isRegistered = true := by
    have u := before.orderly.underWay b delivering
    obtain ⟨s', found', registered⟩ := isRegistered_iff.mp
      (u.isRegistered (front ▸ List.mem_cons_self))
    rw [found] at found'
    exact Option.some.inj found' ▸ registered
  have atMost := before.orderly.queueRoom t.id
  rw [entry_eq found, before.config_eq] at atMost
  rw [registered] at gone full
  cases outcome : t.outcome with
  | queued =>
    rw [outcome] at fits
    obtain ⟨isOpen, room⟩ := fits
    rw [if_neg (by simp [gone, isOpen]), if_neg (by simp [full]; omega)]
  | skipped =>
    rw [outcome] at fits
    obtain ⟨isOpen, noRoom, -⟩ := fits
    rw [if_neg (by simp [gone, isOpen]),
      if_pos (full.mpr ⟨isOpen, rfl, Nat.le_antisymm atMost noRoom⟩)]
  | refused =>
    rw [outcome] at fits
    rw [if_pos (gone.mpr (.inl fits))]
  | overflowed =>
    rw [outcome] at fits
    exact absurd (fits.2.2.symm.trans policy) nofun

/-- What an event of a run does for `id`, and what the occasion says. -/
theorem Run.at_event {past rest : List Event} {e : Event}
    (run : Run config (past ++ e :: rest) h) (policy : config.policy = .dropNewest) (id : Nat) :
    queuedFor id [e] = (((occasion? id past e).toList).filter
        fun o => !o.isMissed config.queueRoom id).map (·.packet) ∧
      skippedFor id [e] = (((occasion? id past e).toList).filter
        fun o => o.isFull config.queueRoom id).map (·.packet) := by
  cases turn : e.turn? with
  | none =>
    have noTurn : turns [e] = [] := by
      rw [turns_cons, turn]
      rfl
    rw [Hub.queuedFor_eq, skippedFor, turnsOf_eq_nil noTurn, occasion?, turn]
    by_cases gone : id ∈ removed past
    · cases e.begunPacket? <;> simp [gone, Occasion.isMissed, Occasion.isFull, Occasion.isGone]
    · simp [gone]
  | some t =>
    obtain rfl := turn?_eq_some.mp turn
    rw [Hub.queuedFor_eq, skippedFor, turnsOf_turn, occasion?, turn]
    by_cases own : t.id = id
    · subst own
      have outcome := run.outcome_eq policy
      cases gone : Occasion.isGone t.id ⟨t.packet, past⟩ <;>
        cases full : Occasion.isFull config.queueRoom t.id ⟨t.packet, past⟩ <;>
        simp_all [Occasion.isMissed, Occasion.isFull]
    · simp [own]

/-- A view of some events, one by one. -/
theorem eq_occasions (id : Nat) {view : List Event → List Packet} (nil : view [] = [])
    (append : ∀ first rest, view (first ++ rest) = view first ++ view rest)
    {kept : Occasion → Bool}
    (each : ∀ {past e rest}, history = past ++ e :: rest →
      view [e] = (((occasion? id past e).toList).filter kept).map (·.packet)) :
    view history = ((occasions id history).filter kept).map (·.packet) := by
  suffices ∀ past events, history = past ++ events →
      view events = ((viewFrom (occasion? id) past events).filter kept).map (·.packet) from
    this [] history rfl
  intro past events split
  induction events generalizing past with
  | nil => exact nil
  | cons e events ih =>
    have rest := ih (past ++ [e]) (by rw [split, List.append_cons])
    rw [viewFrom, List.filter_append, List.map_append, ← each split, ← rest]
    exact append [e] events

/-- What was queued for `id` are the packets that were not missed. -/
theorem Run.queuedFor_eq_occasions (run : Run config history h)
    (policy : config.policy = .dropNewest) (id : Nat) :
    queuedFor id history = ((occasions id history).filter
      fun o => !o.isMissed config.queueRoom id).map (·.packet) :=
  eq_occasions id rfl (fun first rest => queuedFor_append first rest id)
    fun split => ((split ▸ run).at_event policy id).1

/-- What was left out for `id` are the packets that found its queue full. -/
theorem Run.skippedFor_eq_occasions (run : Run config history h)
    (policy : config.policy = .dropNewest) (id : Nat) :
    skippedFor id history = ((occasions id history).filter
      fun o => o.isFull config.queueRoom id).map (·.packet) :=
  eq_occasions id rfl (skippedFor_append id) fun split => ((split ▸ run).at_event policy id).2

/-! ### The counts of an entry -/

/-- The entry counts what was queued for `id` and what was left out. -/
structure Counted (id : Nat) (history : List Event) (s : Subscriber) : Prop where
  queued : s.queued = (queuedFor id history).length
  skipped : s.skipped = (skippedFor id history).length

/-- Two entries have counted the same. -/
structure SameCounts (s s' : Subscriber) : Prop where
  queued : s'.queued = s.queued
  skipped : s'.skipped = s.skipped

section Counted

variable {id : Nat} {events : List Event} {s s' : Subscriber}

theorem Counted.idle (c : Counted id history s) (same : SameCounts s s')
    (noTurn : turns events = []) : Counted id (history ++ events) s' := by
  have none := turnsOf_eq_nil noTurn id
  constructor
  · rw [same.queued, c.queued, queuedFor_append, queuedFor_eq id events, none]
    simp
  · rw [same.skipped, c.skipped, skippedFor_append]
    simp [skippedFor, none]

theorem Counted.turn (c : Counted id history s) (t : Turn) :
    Counted id (history ++ [t.event])
      (if id = t.id then s.afterOutcome t.packet t.outcome else s) := by
  obtain ⟨i, packet, outcome⟩ := t
  have queued := queuedFor_append history [Turn.event ⟨i, packet, outcome⟩] id
  have skipped := skippedFor_append id history [Turn.event ⟨i, packet, outcome⟩]
  rw [queuedFor_eq id [Turn.event _], turnsOf_turn] at queued
  rw [skippedFor.eq_def id [Turn.event _], turnsOf_turn] at skipped
  by_cases own : i = id
  · subst own
    rw [if_pos rfl] at queued skipped
    constructor
    · rw [queued, if_pos rfl]
      cases outcome <;> simp [Subscriber.afterOutcome, c.queued]
    · rw [skipped, if_pos rfl]
      cases outcome <;> simp [Subscriber.afterOutcome, c.skipped]
  · rw [if_neg own] at queued skipped
    constructor
    · rw [queued, if_neg (Ne.symm own), c.queued]
      simp
    · rw [skipped, if_neg (Ne.symm own), c.skipped]
      simp

theorem sameCounts_set {l : List Subscriber} {i : Nat} (found : l[i]? = some s)
    (same : SameCounts s s') : SameCounts (l[id]?.getD .fresh) ((l.set i s')[id]?.getD .fresh) := by
  rw [getD_set found]
  split
  · rename_i own
    rw [own, found]
    exact same
  · exact ⟨rfl, rfl⟩

theorem sameCounts_append (l : List Subscriber) (same : SameCounts .fresh s) (id : Nat) :
    SameCounts (l[id]?.getD .fresh) ((l ++ [s])[id]?.getD .fresh) := by
  rw [getD_append_singleton]
  split
  · rename_i new
    rw [List.getElem?_eq_none (Nat.le_of_eq new.symm)]
    exact same
  · exact ⟨rfl, rfl⟩

theorem sameCounts_without (h : Hub) (ids : List Nat) (id : Nat) :
    SameCounts (h.entry id) ((h.without ids).entry id) := by
  rw [entry_without]
  split <;> exact ⟨rfl, rfl⟩

end Counted

theorem Run.counted (run : Run config history h) (id : Nat) : Counted id history (h.entry id) := by
  induction run with
  | start => exact ⟨rfl, rfl⟩
  | @step history events h h' action run hs ih =>
    cases Transition.of_step? hs with
    | caller s =>
      have same : h'.entry id = h.entry id := by rw [entry, s.frame.2.2.1, entry]
      exact ih.idle (same ▸ ⟨rfl, rfl⟩) s.quiet.turns
    | reader s =>
      refine ih.idle ?_ (by cases s <;> rfl)
      cases s with
      | take i s packet rest found front => exact sameCounts_set found ⟨rfl, rfl⟩
      | close i s found => exact sameCounts_set found ⟨rfl, rfl⟩
      | discard i s found => exact sameCounts_set found ⟨rfl, rfl⟩
    | work own s =>
      cases s with
      | turn b i rest s outcome delivering front found fits =>
        have c := ih.turn ⟨i, b.packet, outcome⟩
        have entry' : (h.served b i s outcome).entry id =
            if id = i then s.afterOutcome b.packet outcome else h.entry id := getD_set found _ _
        rw [entry']
        split at c
        · rename_i own
          rw [if_pos own]
          rwa [own, entry_eq found, ← own] at c
        · rename_i other
          rwa [if_neg other]
      | pass b i rest delivering front unknown => exact ih.idle ⟨rfl, rfl⟩ rfl
      | finish b delivering noneLeft =>
        refine ih.idle ?_ (finish_quiet h b).turns
        rw [finish_fst]
        exact sameCounts_without h _ id
      | «begin» request rest events h' ready inTime front s =>
        cases s with
        | register ticket awaited => exact ih.idle (sameCounts_append _ ⟨rfl, rfl⟩ id) rfl
        | abandon ticket gone =>
          have same : SameCounts .fresh { Subscriber.fresh with isRegistered := false } :=
            ⟨rfl, rfl⟩
          exact ih.idle (sameCounts_append h.subscribers same id) rfl
        | unregister ticket i =>
          exact ih.idle (sameCounts_without h [i] id)
            (Quiet.turns (.cons rfl (remove_quiet _ _ _)))
        | packet | stats | statsUnread => exact ih.idle ⟨rfl, rfl⟩ rfl
      | stop cause why => exact ih.idle ⟨rfl, rfl⟩ (Quiet.turns (why.quiet.append (stop_quiet h)))

/-- Between commands each packet since the registration of a subscriber was queued for it
or left out for a full queue. -/
theorem Run.length_packetsSince (run : Run config history h) {id : Nat} {s : Subscriber}
    (found : h.subscribers[id]? = some s) (ready : h.phase = .ready)
    (member : id ∉ removed history) :
    s.queued + s.skipped = (packetsSince id history).length := by
  have counted := run.counted id
  rw [entry_eq found] at counted
  have registered : h.isRegistered id = true :=
    isRegistered_iff.mpr ⟨s, found, (run.account_of_found found).isRegistered.mpr member⟩
  have live : h.phase ≠ .stopped := by simp [ready]
  have v := run.served id
  have all := v.complete registered live
  rw [due_of_ready ready, List.append_nil] at all
  have kept := v.faultless registered live (isFaultless_of_ready ready id)
  rw [counted.queued, counted.skipped, ← all, Hub.queuedFor_eq, skippedFor, List.length_map,
    List.length_map, List.length_map]
  clear all v
  generalize turnsOf id history = turns at kept
  induction turns with
  | nil => rfl
  | cons t ts ih =>
    have rest := ih fun t mem => kept t (List.mem_cons_of_mem _ mem)
    have first := kept t List.mem_cons_self
    cases outcome : t.outcome with
    | queued | skipped =>
      simp [outcome]
      omega
    | refused | overflowed =>
      rw [outcome] at first
      cases first

/-- What was queued is what was taken, what is queued still, and what was thrown away with
the receiving end. -/
theorem Run.exists_lost (run : Run config history h) {id : Nat} {s : Subscriber}
    (found : h.subscribers[id]? = some s) :
    ∃ lost, takenBy id history ++ s.queue ++ lost = queuedFor id history ∧
      (id ∉ drops history → lost = []) := by
  have a := run.account_of_found found
  by_cases dropped : id ∈ drops history
  · obtain ⟨lost, all⟩ := a.taken
    exact ⟨lost, all, fun kept => absurd dropped kept⟩
  · exact ⟨[], by rw [List.append_nil, a.intact dropped], fun _ => rfl⟩

/-- What became of the packets since the registration of `id`, whose entry is `s`. -/
structure LosesOnlyNewest (config : HubConfig) (id : Nat) (history : List Event) (h : Hub)
    (s : Subscriber) : Prop where
  /-- What was taken and what is queued are the packets that did not find the queue full
  and came neither after its closing nor after the removal. -/
  kept : ∃ lost, takenBy id history ++ s.queue ++ lost =
      ((occasions id history).filter
        fun o => !(o.isGone id || o.isFull (max config.queueCapacity 1) id)).map (·.packet) ∧
    (id ∉ drops history → lost = [])
  /-- What is told of an occasion is how the entry was at that moment. -/
  told : ∀ o ∈ occasions id history, o.past <+: history ∧ ∃ h₀ s₀, Run config o.past h₀ ∧
    h₀.subscribers[id]? = some s₀ ∧
    (o.isGone id = true ↔ s₀.isOpen = false ∨ s₀.isRegistered = false) ∧
    (o.isFull (max config.queueCapacity 1) id = true ↔ s₀.isOpen = true ∧
      s₀.isRegistered = true ∧ s₀.queue.length = max config.queueCapacity 1)
  each : h.phase = .ready ∨ h.phase = .stopped →
    (occasions id history).map (·.packet) = packetsSince id history
  /-- Whatever is done later, nothing that was queued is displaced. -/
  stays : ∀ actions h' events, h.perform? actions = some (h', events) →
    ∃ s' lost, h'.subscribers[id]? = some s' ∧
      takenBy id history ++ s.queue <+: takenBy id (history ++ events) ++ s'.queue ++ lost ∧
      (id ∉ drops (history ++ events) → lost = [])
  queued : s.queued = (queuedFor id history).length
  skipped : s.skipped = ((occasions id history).filter
    fun o => o.isFull (max config.queueCapacity 1) id).length
  balance : h.phase = .ready → id ∉ removed history →
    s.queued + s.skipped = (packetsSince id history).length

theorem Run.stays (run : Run config history h) {id : Nat} {s : Subscriber}
    (found : h.subscribers[id]? = some s) {actions : List Action} {h' : Hub}
    {events : List Event} (hp : h.perform? actions = some (h', events)) :
    ∃ s' lost, h'.subscribers[id]? = some s' ∧
      takenBy id history ++ s.queue <+: takenBy id (history ++ events) ++ s'.queue ++ lost ∧
      (id ∉ drops (history ++ events) → lost = []) := by
  have run' := run.perform? hp
  have known : id < h'.nextId := by
    rw [← List.mem_range, ← run'.registrations_eq, registrations_append, run.registrations_eq]
    exact List.mem_append_left _ (List.mem_range.mpr (lt_nextId found))
  obtain ⟨s', found'⟩ : ∃ s', h'.subscribers[id]? = some s' := ⟨_, List.getElem?_eq_getElem known⟩
  obtain ⟨lost, all, intact⟩ := run'.exists_lost found'
  refine ⟨s', lost, found', ?_, intact⟩
  rw [all, queuedFor_append]
  exact (run.account_of_found found).taken.trans (List.prefix_append _ _)

/-- Under the policy that drops the newest packet nothing is left out but for a queue that
is full at the turn, closed, or of a subscriber that was removed, and what was left out for
a full queue is counted. -/
theorem Run.losesOnlyNewest (run : Run config history h) (policy : config.policy = .dropNewest)
    {id : Nat} (known : id ∈ registrations history) :
    ∃ s, h.subscribers[id]? = some s ∧ LosesOnlyNewest config id history h s := by
  have notBlocking : config.policy ≠ .block := by simp [policy]
  rw [run.registrations_eq, List.mem_range] at known
  obtain ⟨s, found⟩ : ∃ s, h.subscribers[id]? = some s := ⟨_, List.getElem?_eq_getElem known⟩
  have counted := run.counted id
  rw [entry_eq found] at counted
  obtain ⟨lost, all, intact⟩ := run.exists_lost found
  refine ⟨s, found, ⟨lost, all.trans (run.queuedFor_eq_occasions policy id), intact⟩,
    fun o mem => run.at_occasion mem, fun idle => ?_, fun _ _ _ hp => run.stays found hp,
    counted.queued, ?_, run.length_packetsSince found⟩
  · have noneDue : h.due id = [] := by
      rcases idle with ready | stopped
      · exact due_of_ready ready id
      · rw [due, stopped]
    rw [← run.occasions_eq notBlocking id, noneDue, List.append_nil]
  · rw [counted.skipped, run.skippedFor_eq_occasions policy, List.length_map]
    rfl

/-- A queue with room for one packet: of three packets the second finds it full, and the
first is taken before the third comes. -/
theorem second_of_three_skipped :
    ∃ history h s, Run ⟨0, 1, .dropNewest, 1000⟩ history h ∧ h.subscribers[0]? = some s ∧
      packetsSince 0 history = [[1], [2], [3]] ∧ takenBy 0 history ++ s.queue = [[1], [3]] ∧
      s.queued + s.skipped = 3 ∧ s.skipped = 1 := by
  obtain ⟨h, history, hp, hs, hq, hm, hd, hr⟩ : ∃ h history,
      (start ⟨0, 1, .dropNewest, 1000⟩).perform?
        [.call .register, .enqueue, .work, .call (.packet [1]), .enqueue, .work, .work, .work,
          .call (.packet [2]), .enqueue, .work, .work, .work, .take 0,
          .call (.packet [3]), .enqueue, .work, .work, .work] = some (h, history) ∧
      packetsSince 0 history = [[1], [2], [3]] ∧
      ((occasions 0 history).filter
        fun o => !(o.isGone 0 || o.isFull 1 0)).map (·.packet) = [[1], [3]] ∧
      (((occasions 0 history).filter fun o => o.isFull 1 0).length = 1 ∧
        h.phase = .ready) ∧ 0 ∉ drops history ∧ 0 ∉ removed history ∧ 0 ∈ registrations history :=
    ⟨_, _, rfl, rfl, rfl, ⟨rfl, rfl⟩, by decide, by decide, by decide⟩
  have run := run_iff_perform?.mpr ⟨_, hp⟩
  obtain ⟨s, found, loses⟩ := run.losesOnlyNewest rfl hr.2
  obtain ⟨lost, all, intact⟩ := loses.kept
  rw [intact hd, List.append_nil] at all
  refine ⟨history, h, s, run, found, hs, all.trans hq, ?_, loses.skipped.trans hm.1⟩
  rw [loses.balance hm.2 hr.1, hs]
  rfl

end Hub

end VideoRelay

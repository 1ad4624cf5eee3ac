/-
Subscribers do not interfere.

Under the policies that do not wait, what becomes of a subscriber is a function of the
commands applied and of what it does itself.

* `Beat`, `follow?` — a course of actions as one subscriber sees it: the commands applied
  and its own actions, in order;
* `Share`, `Share.after` — what a subscriber has, and what one beat makes of it, with no
  other subscriber in sight;
* `share`, `Transition.share` — every step of the hub keeps to that, when a round under
  way is looked at as if it were over;
* `isolated` — so two courses with the same beats leave the subscriber with the same.

Design notes: actions are tried, so that looking at an empty queue is a beat too.  What
others do shows in the hub's phase and in its register, and neither is part of a share.
-/
import VideoRelay.Proofs.Hub.Registry
import VideoRelay.Proofs.Hub.Turns

namespace VideoRelay

namespace Hub

/-! ### Beats -/

/-- Something that a subscriber takes part in. -/
inductive Beat
  | applied (command : Command)
  /-- Its caller went away before it was told. -/
  | abandoned
  | take
  | close
  | discard
  deriving DecidableEq, Repr

/-- What an action is to `id`, if it is its own. -/
def Action.beat? (id : Nat) : Action → Option Beat
  | .take i => if i = id then some .take else none
  | .close i => if i = id then some .close else none
  | .discard i => if i = id then some .discard else none
  | _ => none

/-- What an action with the events that it brings is to `id`. -/
def beats (id : Nat) (action : Action) (events : List Event) : List Beat :=
  (action.beat? id).toList ++ (begun events).map (fun r => .applied r.command) ++
    if (id, .abandoned) ∈ removals events then [.abandoned] else []

/-- Try an action: nothing happens if it is not possible. -/
def attempt (h : Hub) (action : Action) : Hub × List Event := (h.step? action).getD (h, [])

/-- Try actions one after the other, of which `id` has no part in a round that it still
has its turn in.  Gives the beats of `id`, the events and the hub afterwards. -/
def follow? (id : Nat) (h : Hub) : List Action → Option (List Beat × List Event × Hub)
  | [] => some ([], [], h)
  | action :: rest =>
    if action.beat? id ≠ none ∧ h.due id ≠ [] then none
    else do
      let (h, first) := h.attempt action
      let (later, events, h) ← follow? id h rest
      return (beats id action first ++ later, first ++ events, h)

/-! ### Shares -/

/-- How the turn of a subscriber ends when nobody waits. -/
def Subscriber.outcome (config : HubConfig) (s : Subscriber) : Outcome :=
  if s.isOpen then
    if s.queue.length < config.queueRoom then .queued
    else if config.policy = .dropNewest then .skipped else .overflowed
  else .refused

/-- An entry whose subscription has ended. -/
def Subscriber.dismissed (s : Subscriber) : Subscriber := { s with isRegistered := false }

/-- A registered subscriber when the round of a packet is over. -/
def Subscriber.afterRound (config : HubConfig) (s : Subscriber) (packet : Packet) : Subscriber :=
  if (s.outcome config).isKept then s.afterOutcome packet (s.outcome config)
  else (s.afterOutcome packet (s.outcome config)).dismissed

/-- What a subscriber has: its entry, or the one it would get, and what it has taken. -/
structure Share where
  /-- The number that the next subscriber will get. -/
  nextId : Nat
  seat : Subscriber
  taken : List Packet
  deriving DecidableEq, Repr

/-- What one beat makes of the share of `id`. -/
def Share.after (config : HubConfig) (id : Nat) (s : Share) : Beat → Share
  | .applied (.packet packet) =>
    if id < s.nextId ∧ s.seat.isRegistered = true then
      { s with seat := s.seat.afterRound config packet }
    else s
  | .applied .register => { s with nextId := s.nextId + 1 }
  | .applied (.unregister i) =>
    if i = id ∧ id < s.nextId then { s with seat := s.seat.dismissed } else s
  | .applied .stats | .applied .shutdown => s
  | .abandoned => { s with seat := s.seat.dismissed }
  | .take =>
    match s.seat.queue with
    | [] => s
    | packet :: rest =>
      { s with seat := { s.seat with queue := rest }, taken := s.taken ++ [packet] }
  | .close => if id < s.nextId then { s with seat := { s.seat with isOpen := false } } else s
  | .discard =>
    if id < s.nextId then { s with seat := { s.seat with isOpen := false, queue := [] } } else s

/-- What the round under way will have made of an entry, if it is that of `id`. -/
def fate (h : Hub) (id : Nat) : Subscriber → Subscriber :=
  match h.phase with
  | .delivering b =>
    if id ∈ b.remaining then fun s => s.afterRound h.config b.packet
    else if id ∈ b.closed ++ b.overflowed then Subscriber.dismissed
    else fun s => s
  | .ready | .stopped => fun s => s

/-- The share of `id` when the round under way is over, if `taken` is what it has taken. -/
def share (id : Nat) (taken : List Packet) (h : Hub) : Share :=
  ⟨h.nextId, h.fate id (h.entry id), taken⟩

section Steps

variable {h h' : Hub} {id : Nat} {events : List Event} {taken : List Packet}

theorem fate_of_not_delivering (idle : ∀ b, h.phase ≠ .delivering b) :
    h.fate id = fun s => s := by
  rw [fate]
  cases phase : h.phase with
  | delivering b => exact absurd phase (idle b)
  | ready | stopped => rfl

theorem fate_of_delivering {b : Broadcast} (delivering : h.phase = .delivering b) :
    h.fate id =
      if id ∈ b.remaining then fun s => s.afterRound h.config b.packet
      else if id ∈ b.closed ++ b.overflowed then Subscriber.dismissed
      else fun s => s := by
  rw [fate, delivering]

/-- Whoever has its turn behind it is removed at the end of the round, or is not. -/
theorem fate_of_not_due (notDue : h.due id = []) :
    (h.fate id = fun s => s) ∨ h.fate id = Subscriber.dismissed := by
  cases phase : h.phase with
  | ready | stopped => exact .inl (fate_of_not_delivering (by simp [phase]))
  | delivering b =>
    rw [due_of_delivering phase] at notDue
    have notRemaining : id ∉ b.remaining := by
      intro mem
      rw [if_pos mem] at notDue
      cases notDue
    rw [fate_of_delivering phase, if_neg notRemaining]
    split
    · exact .inr rfl
    · exact .inl rfl

/-- Only a turn changes a queue. -/
theorem queue_share (notDue : h.due id = []) :
    (share id taken h).seat.queue = (h.entry id).queue := by
  rw [share]
  rcases fate_of_not_due notDue with fate | fate
  · rw [fate]
  · rw [fate]
    rfl

theorem share_congr (taken : List Packet) (phase : h'.phase = h.phase)
    (config : h'.config = h.config) (entry : h'.entry id = h.entry id)
    (nextId : h'.nextId = h.nextId) : share id taken h' = share id taken h := by
  rw [share, share, nextId, entry, fate, fate, phase, config]

@[simp] theorem beat?_take : (Action.take id).beat? id = some .take := if_pos rfl

@[simp] theorem beat?_close : (Action.close id).beat? id = some .close := if_pos rfl

@[simp] theorem beat?_discard : (Action.discard id).beat? id = some .discard := if_pos rfl

/-- The actions that are its own. -/
theorem eq_of_beat?_ne_none {action : Action} (own : action.beat? id ≠ none) :
    action = .take id ∨ action = .close id ∨ action = .discard id := by
  cases action with
  | take i | close i | discard i =>
    obtain rfl : i = id := by simpa [Action.beat?] using own
    simp
  | _ => exact absurd rfl own

/-- Events that are nothing to `id`. -/
theorem beats_eq_nil {action : Action} (other : action.beat? id = none)
    (noneBegun : begun events = []) (notAbandoned : (id, .abandoned) ∉ removals events) :
    beats id action events = [] := by
  rw [beats, other, noneBegun, if_neg notAbandoned]
  rfl

theorem CallerStep.share {action : Action} (s : CallerStep h action events h') :
    Hub.share id (taken ++ takenBy id events) h' =
      (beats id action events).foldl (Share.after h.config id) (Hub.share id taken h) := by
  obtain ⟨config, phase, subscribers, -⟩ := s.frame
  have other : action.beat? id = none := by cases s <;> rfl
  rw [beats_eq_nil other s.begun (by rw [s.removals]; exact List.not_mem_nil), s.quiet.takenBy,
    List.append_nil]
  exact share_congr taken phase config (by rw [entry, entry, subscribers]) s.sameRegister.nextId

/-- What `id` does to its own entry, when it has its turn behind it. -/
theorem share_set_own {s : Subscriber} (found : h.subscribers[id]? = some s)
    (notDue : h.due id = []) {f : Subscriber → Subscriber}
    (apart : ∀ s : Subscriber, (f s).dismissed = f s.dismissed) (taken : List Packet) :
    share id taken { h with subscribers := h.subscribers.set id (f s) } =
      { share id taken h with seat := f (share id taken h).seat } := by
  have new : entry { h with subscribers := h.subscribers.set id (f s) } id = f (h.entry id) := by
    rw [entry, getD_set found, if_pos rfl, entry_eq found]
  have same : fate { h with subscribers := h.subscribers.set id (f s) } id = h.fate id := rfl
  have seat : h.fate id (f (h.entry id)) = f (h.fate id (h.entry id)) := by
    rcases fate_of_not_due notDue with fate | fate
    · rw [fate]
    · rw [fate, apart]
  rw [share, share, new, same, seat, nextId, List.length_set]
  rfl

/-- What others do to their entries. -/
theorem ReaderStep.share_other {action : Action} (s : ReaderStep h action events h')
    (other : action.beat? id = none) (taken : List Packet) :
    takenBy id events = [] ∧ share id taken h' = share id taken h := by
  have elsewhere : ∀ {i : Nat} {s s' : Subscriber}, h.subscribers[i]? = some s → i ≠ id →
      share id taken { h with subscribers := h.subscribers.set i s' } = share id taken h := by
    intro i s s' found hne
    refine share_congr taken rfl rfl ?_ List.length_set
    rw [entry, getD_set found, if_neg (Ne.symm hne)]
    rfl
  cases s with
  | take i s packet rest found front =>
    have hne : i ≠ id := by simpa [Action.beat?] using other
    exact ⟨by simp [hne], elsewhere found hne⟩
  | close i s found =>
    have hne : i ≠ id := by simpa [Action.beat?] using other
    exact ⟨rfl, elsewhere found hne⟩
  | discard i s found =>
    have hne : i ≠ id := by simpa [Action.beat?] using other
    exact ⟨rfl, elsewhere found hne⟩

theorem ReaderStep.beats {action : Action} (s : ReaderStep h action events h') :
    Hub.beats id action events = (action.beat? id).toList := by
  have noneRemoved : removals events = [] := by cases s <;> rfl
  rw [Hub.beats, s.uncalled.begun, noneRemoved]
  simp

theorem ReaderStep.share {action : Action} (s : ReaderStep h action events h')
    (notDue : action.beat? id ≠ none → h.due id = []) :
    Hub.share id (taken ++ takenBy id events) h' =
      (Hub.beats id action events).foldl (Share.after h.config id) (Hub.share id taken h) := by
  rw [s.beats]
  by_cases other : action.beat? id = none
  · obtain ⟨noneTaken, same⟩ := s.share_other other taken
    rw [other, noneTaken, List.append_nil, same]
    rfl
  · have due := notDue other
    rcases eq_of_beat?_ne_none other with rfl | rfl | rfl
    · cases s with
      | take _ s packet rest found front =>
        have queue : (Hub.share id taken h).seat.queue = packet :: rest := by
          rw [queue_share due, entry_eq found, front]
        have now := share_set_own found due (f := fun s => { s with queue := rest })
          (fun _ => rfl) (taken ++ [packet])
        have one : takenBy id [.took id packet] = [packet] := by simp
        rw [beat?_take, one, now]
        show _ = (Hub.share id taken h).after h.config id .take
        rw [Share.after, queue]
        rfl
    · cases s with
      | close _ s found =>
        have now := share_set_own found due (f := fun s => { s with isOpen := false })
          (fun _ => rfl) taken
        have noneTaken : takenBy id [.closed id] = [] := rfl
        rw [beat?_close, noneTaken, List.append_nil, now]
        exact (if_pos (lt_nextId found)).symm
    · cases s with
      | discard _ s found =>
        have now := share_set_own found due
          (f := fun s => { s with isOpen := false, queue := [] }) (fun _ => rfl) taken
        have noneTaken : takenBy id [.closed id, .dropped id] = [] := rfl
        rw [beat?_discard, noneTaken, List.append_nil, now]
        exact (if_pos (lt_nextId found)).symm

/-! ### The hub's own steps -/

/-- Where nobody waits, the queue decides how a turn ends. -/
theorem Outcome.Fits.eq_outcome {config : HubConfig} {s : Subscriber} {outcome : Outcome}
    (fits : outcome.Fits config s) : outcome = s.outcome config := by
  rw [Subscriber.outcome]
  cases outcome with
  | queued => rw [if_pos fits.1, if_pos fits.2]
  | refused =>
    have shut : s.isOpen = false := fits
    rw [shut]
    rfl
  | skipped => rw [if_pos fits.1, if_neg (Nat.not_lt.mpr fits.2.1), if_pos fits.2.2]
  | overflowed =>
    have policy : config.policy ≠ .dropNewest := by simp [fits.2.2]
    rw [if_pos fits.1, if_neg (Nat.not_lt.mpr fits.2.1), if_neg policy]

/-- The turn of `id` comes to what is expected of the round. -/
theorem share_turn {b : Broadcast} {rest : List Nat} {s : Subscriber} {outcome : Outcome}
    (u : UnderWay h b) (delivering : h.phase = .delivering b) (front : b.remaining = id :: rest)
    (found : h.subscribers[id]? = some s) (fits : outcome.Fits h.config s) :
    share id taken (h.served b id s outcome) = share id taken h := by
  have nodup := u.nodup
  rw [front, List.nodup_append] at nodup
  have notRest : id ∉ rest := (List.nodup_cons.mp nodup.2.1).1
  have fine : id ∉ b.closed ++ b.overflowed := fun mem =>
    nodup.2.2 id mem id List.mem_cons_self rfl
  have new : (h.served b id s outcome).entry id = s.afterOutcome b.packet outcome := by
    show ((h.subscribers.set id _)[id]?.getD .fresh) = _
    rw [getD_set found, if_pos rfl]
  have number : (h.served b id s outcome).nextId = h.nextId := List.length_set
  have delivering' : (h.served b id s outcome).phase =
      .delivering (b.afterOutcome id outcome) := rfl
  rw [share, share, new, number, fate_of_delivering delivering', fate_of_delivering delivering,
    remaining_afterOutcome, front, List.tail_cons, if_neg notRest, if_pos List.mem_cons_self,
    entry_eq found, fits.eq_outcome]
  -- It is on one of the lists if, and only if, its turn went wrong.
  rw [Subscriber.afterRound]
  by_cases kept : (s.outcome h.config).isKept = true
  · rw [if_pos kept, if_neg]
    rw [mem_afterOutcome]
    simp [fine, kept]
  · rw [if_neg kept, if_pos]
    rw [mem_afterOutcome]
    exact .inr ⟨rfl, by simpa using kept⟩

/-- The turn of another is nothing to `id`. -/
theorem share_otherTurn {b : Broadcast} {i : Nat} {rest : List Nat} {s : Subscriber}
    {outcome : Outcome} (delivering : h.phase = .delivering b) (front : b.remaining = i :: rest)
    (found : h.subscribers[i]? = some s) (hne : i ≠ id) :
    share id taken (h.served b i s outcome) = share id taken h := by
  have same : (h.served b i s outcome).entry id = h.entry id := by
    show ((h.subscribers.set i _)[id]?.getD .fresh) = _
    rw [getD_set found, if_neg (Ne.symm hne)]
    rfl
  have number : (h.served b i s outcome).nextId = h.nextId := List.length_set
  have delivering' : (h.served b i s outcome).phase = .delivering (b.afterOutcome i outcome) := rfl
  have remaining : id ∈ i :: rest ↔ id ∈ rest := by simp [Ne.symm hne]
  have lists : id ∈ (b.afterOutcome i outcome).closed ++ (b.afterOutcome i outcome).overflowed ↔
      id ∈ b.closed ++ b.overflowed := by
    rw [mem_afterOutcome]
    simp [Ne.symm hne]
  rw [share, share, same, number, fate_of_delivering delivering', fate_of_delivering delivering,
    remaining_afterOutcome, packet_afterOutcome, front, List.tail_cons]
  simp only [remaining, lists]
  rfl

/-- The end of a round does what is expected of it. -/
theorem share_finish {b : Broadcast} (u : UnderWay h b) (delivering : h.phase = .delivering b)
    (noneLeft : b.remaining = []) : share id taken (h.finish b).1 = share id taken h := by
  have idle : ∀ b', (h.finish b).1.phase ≠ .delivering b' := by simp [finish_fst]
  have number : (h.finish b).1.nextId = h.nextId := by
    rw [finish_fst]
    exact List.length_mapIdx
  have new : (h.finish b).1.entry id = (h.without (b.closed ++ b.overflowed)).entry id := by
    rw [finish_fst]
    rfl
  rw [share, share, number, fate_of_not_delivering idle, new, entry_without,
    fate_of_delivering delivering, noneLeft, if_neg List.not_mem_nil]
  by_cases mem : id ∈ b.closed ++ b.overflowed
  · have known := u.registered id mem
    rw [isRegistered_eq, Bool.and_eq_true, decide_eq_true_eq] at known
    rw [if_pos ⟨mem, known.1⟩, if_pos mem]
    rfl
  · rw [if_neg fun both => mem both.1, if_neg mem]

/-- The beats of the hub's own step. -/
theorem beats_work (events : List Event) :
    beats id .work events = (begun events).map (fun r => .applied r.command) ++
      if (id, .abandoned) ∈ removals events then [.abandoned] else [] := rfl

theorem share_eq {n : Nat} {s : Subscriber} (idle : ∀ b, h.phase ≠ .delivering b)
    (number : h.nextId = n) (new : h.entry id = s) : share id taken h = ⟨n, s, taken⟩ := by
  rw [share, fate_of_not_delivering idle, number, new]

/-- Commands have on a subscriber the effect that they are said to have. -/
theorem BeginStep.share {request : Request} {rest : List Request} (ready : h.phase = .ready)
    (s : BeginStep h rest request events h') :
    Hub.share id (taken ++ takenBy id (.began request :: events)) h' =
      (beats id .work (.began request :: events)).foldl (Share.after h.config id)
        (Hub.share id taken h) := by
  have idle : ∀ b, h.phase ≠ .delivering b := by simp [ready]
  rw [share_eq (h := h) idle rfl rfl, beats_work]
  cases s with
  | packet ticket packet =>
    show Hub.share id (taken ++ []) _ = Share.after h.config id _ (.applied (.packet packet))
    have registered : id ∈ h.registeredIds ↔ id < h.nextId ∧ (h.entry id).isRegistered = true := by
      rw [mem_registeredIds, isRegistered_eq, Bool.and_eq_true, decide_eq_true_eq]
    have fate : ({ h with commands := rest }.broadcast packet).fate id =
        if id ∈ h.registeredIds then fun s => s.afterRound h.config packet else fun s => s := by
      rw [fate_of_delivering rfl, if_neg (c := id ∈ [] ++ []) List.not_mem_nil]
      rfl
    rw [List.append_nil, Hub.share, fate, Share.after]
    -- Whoever is registered is to have a turn.
    by_cases member : id ∈ h.registeredIds
    · rw [if_pos member, if_pos (registered.mp member)]
      rfl
    · rw [if_neg member, if_neg (mt registered.mpr member)]
      rfl
  | register ticket awaited =>
    show Hub.share id (taken ++ []) _ = ⟨h.nextId + 1, h.entry id, taken⟩
    rw [List.append_nil]
    refine share_eq idle List.length_append ?_
    exact getD_append_fresh h.subscribers id
  | abandon ticket gone =>
    have new := getD_append_singleton h.subscribers
      { Subscriber.fresh with isRegistered := false } id
    have told : (id, Removal.abandoned) ∈ removals [.began ⟨ticket, .register⟩,
        .registered ticket h.nextId, .removed h.nextId .abandoned 0 0 h.registeredCount] ↔
        id = h.subscribers.length := by simp [nextId]
    rw [if_congr told rfl rfl]
    show Hub.share id (taken ++ []) _ = _
    rw [List.append_nil]
    by_cases own : id = h.subscribers.length
    · -- Nobody had this number, so its entry is the one that it would have got.
      have fresh : h.entry id = .fresh := by
        rw [entry, List.getElem?_eq_none (Nat.le_of_eq own.symm)]
        rfl
      rw [if_pos own] at new ⊢
      rw [fresh]
      exact share_eq idle List.length_append new
    · rw [if_neg own] at new ⊢
      exact share_eq idle List.length_append new
  | unregister ticket i =>
    have q : Quiet (Event.began ⟨ticket, .unregister i⟩ ::
        ({ h with commands := rest }.remove i .unregistered).2) := .cons rfl (remove_quiet _ _ _)
    have kept : (id, Removal.abandoned) ∉ removals (.began ⟨ticket, .unregister i⟩ ::
        ({ h with commands := rest }.remove i .unregistered).2) := by
      rw [removals_cons, removals_remove]
      split <;> simp
    have noneBegun := (remove_uncalled { h with commands := rest } i .unregistered).begun
    rw [if_neg kept, q.takenBy, begun_cons, noneBegun, List.append_nil]
    show _ = Share.after h.config id _ (.applied (.unregister i))
    have same : id ∈ [i] ∧ id < h.nextId ↔ i = id ∧ id < h.nextId := by simp [eq_comm]
    have new := entry_without h [i] id
    rw [if_congr same rfl rfl] at new
    rw [Share.after]
    by_cases own : i = id ∧ id < h.nextId
    · rw [if_pos own] at new ⊢
      exact share_eq idle List.length_mapIdx new
    · rw [if_neg own] at new ⊢
      exact share_eq idle List.length_mapIdx new
  | stats ticket awaited =>
    show Hub.share id (taken ++ []) _ = ⟨h.nextId, h.entry id, taken⟩
    rw [List.append_nil]
    exact share_eq idle rfl rfl
  | statsUnread ticket gone =>
    show Hub.share id (taken ++ []) _ = ⟨h.nextId, h.entry id, taken⟩
    rw [List.append_nil]
    exact share_eq idle rfl rfl

theorem WorkStep.share (o : Orderly h) (policy : h.config.policy ≠ .block)
    (s : WorkStep h events h') :
    Hub.share id (taken ++ takenBy id events) h' =
      (beats id .work events).foldl (Share.after h.config id) (Hub.share id taken h) := by
  cases s with
  | turn b i rest s outcome delivering front found fits =>
    have u := turn_uncalled ⟨i, b.packet, outcome⟩
    have noneTaken : takenBy id [Turn.event ⟨i, b.packet, outcome⟩] = [] := by
      cases outcome <;> rfl
    rw [beats_eq_nil rfl u.begun (by rw [removals_turn]; exact List.not_mem_nil), noneTaken,
      List.append_nil]
    by_cases own : i = id
    · subst own
      exact share_turn (o.underWay b delivering) delivering front found fits
    · exact share_otherTurn delivering front found own
  | pass b i rest delivering front unknown =>
    obtain ⟨s, found⟩ := (o.underWay b delivering).found (front ▸ List.mem_cons_self)
    rw [unknown] at found
    cases found
  | finish b delivering noneLeft =>
    have u := o.underWay b delivering
    have kept : (id, Removal.abandoned) ∉ removals (h.finish b).2 := by
      rw [u.removals_finish noneLeft]
      simp
    rw [beats_eq_nil rfl (finish_uncalled h b).begun kept, (finish_quiet h b).takenBy,
      List.append_nil]
    exact share_finish u delivering noneLeft
  | «begin» request rest events h' ready inTime front s => exact s.share ready
  | stop cause why =>
    have q : Quiet (cause ++ h.stop.2) := why.quiet.append (stop_quiet h)
    have idle : ∀ b, h.stop.1.phase ≠ .delivering b := nofun
    rw [q.takenBy, List.append_nil, share_eq (h := h.stop.1) idle rfl rfl, beats_work,
      why.removals, if_neg List.not_mem_nil, begun_append, begun_stop, List.append_nil,
      List.append_nil]
    -- It stops between commands, because it does not wait in the middle of one.
    cases why with
    | expired ready | unreachable ready =>
      exact (share_eq (h := h) (by simp [ready]) rfl rfl).symm
    | asked ticket rest ready =>
      exact (share_eq (h := h) (by simp [ready]) rfl rfl).symm
    | abandoned b i rest s delivering front found waits =>
      exact absurd waits.policy policy

/-- Every step makes of a share what its beats make of it. -/
theorem Transition.share {action : Action} (o : Orderly h) (policy : h.config.policy ≠ .block)
    (notDue : action.beat? id ≠ none → h.due id = []) (t : Transition h action events h')
    (taken : List Packet) :
    Hub.share id (taken ++ takenBy id events) h' =
      (beats id action events).foldl (Share.after h.config id) (Hub.share id taken h) := by
  cases t with
  | caller s => exact s.share
  | reader s => exact s.share notDue
  | work own s =>
    subst own
    exact s.share o policy

/-- What is not possible is nothing to a share either. -/
theorem share_of_refused {action : Action} (refused : h.step? action = none)
    (notDue : action.beat? id ≠ none → h.due id = []) (taken : List Packet) :
    (beats id action []).foldl (Share.after h.config id) (share id taken h) = share id taken h := by
  have only : beats id action [] = (action.beat? id).toList := by simp [beats]
  rw [only]
  by_cases other : action.beat? id = none
  · rw [other]
    rfl
  have due := notDue other
  rcases eq_of_beat?_ne_none other with rfl | rfl | rfl
  · have empty : (h.entry id).queue = [] := by
      rw [entry]
      simp only [step?, take?] at refused
      cases found : h.subscribers[id]? with
      | none => rfl
      | some s =>
        rw [found] at refused
        cases queue : s.queue with
        | nil => exact queue
        | cons packet rest => simp [queue] at refused
    rw [beat?_take]
    show (share id taken h).after h.config id .take = _
    rw [Share.after, queue_share due, empty]
  · have unknown : ¬id < h.nextId := by simpa [step?] using refused
    rw [beat?_close]
    exact if_neg unknown
  · have unknown : ¬id < h.nextId := by simpa [step?] using refused
    rw [beat?_discard]
    exact if_neg unknown

end Steps

/-! ### Courses -/

section Courses

variable {config : HubConfig} {history events : List Event} {h h' : Hub} {id : Nat}
  {actions : List Action} {pace : List Beat}

theorem attempt_share (run : Run config history h) (policy : config.policy ≠ .block)
    {action : Action} (notDue : action.beat? id ≠ none → h.due id = []) :
    Run config (history ++ (h.attempt action).2) (h.attempt action).1 ∧
      share id (takenBy id (history ++ (h.attempt action).2)) (h.attempt action).1 =
        (beats id action (h.attempt action).2).foldl (Share.after config id)
          (share id (takenBy id history) h) := by
  have same := run.config_eq
  rw [attempt]
  cases hs : h.step? action with
  | none =>
    have nothing := share_of_refused hs notDue (takenBy id history)
    rw [same] at nothing
    rw [Option.getD_none, List.append_nil]
    exact ⟨run, nothing.symm⟩
  | some result =>
    obtain ⟨mid, first⟩ := result
    have does := Transition.share run.orderly (same ▸ policy) notDue (.of_step? hs)
      (takenBy id history)
    rw [same] at does
    rw [Option.getD_some, takenBy_append]
    exact ⟨.step run hs, does⟩

/-- A course is a run, and makes of a share what its beats make of it. -/
theorem follow?_share (run : Run config history h) (policy : config.policy ≠ .block)
    (course : follow? id h actions = some (pace, events, h')) :
    Run config (history ++ events) h' ∧
      share id (takenBy id (history ++ events)) h' =
        pace.foldl (Share.after config id) (share id (takenBy id history) h) := by
  induction actions generalizing h history pace events with
  | nil =>
    obtain ⟨rfl, rfl, rfl⟩ := by simpa [follow?] using course
    rw [List.append_nil]
    exact ⟨run, rfl⟩
  | cons action actions ih =>
    rw [follow?] at course
    split at course
    · cases course
    · rename_i between
      have notDue : action.beat? id ≠ none → h.due id = [] := by
        intro own
        by_contra due
        exact between ⟨own, due⟩
      obtain ⟨run', first⟩ := attempt_share run policy notDue
      obtain ⟨later, rest, last, followed, rfl, rfl, rfl⟩ : ∃ later rest last,
          follow? id (h.attempt action).1 actions = some (later, rest, last) ∧
          pace = beats id action (h.attempt action).2 ++ later ∧
          events = (h.attempt action).2 ++ rest ∧ h' = last := by
        simp only [Option.pure_def, Option.bind_eq_bind, Option.bind_eq_some_iff] at course
        obtain ⟨⟨later, rest, last⟩, followed, result⟩ := course
        cases result
        exact ⟨later, rest, last, followed, rfl, rfl, rfl⟩
      obtain ⟨run'', others⟩ := ih run' followed
      rw [← List.append_assoc, List.foldl_append, ← first]
      exact ⟨run'', others⟩

/-- What two histories have in common as far as subscriber `id` is concerned. -/
structure SameFor (id : Nat) (history history' : List Event) (h h' : Hub) : Prop where
  /-- Subscribers have got the same numbers. -/
  numbers : registrations history = registrations history'
  /-- Its entry is the same: its queue, whether it takes deliveries and gets them, and
  how many packets it got and missed. -/
  entry : h.subscribers[id]? = h'.subscribers[id]?
  removed : id ∈ removed history ↔ id ∈ removed history'
  taken : takenBy id history = takenBy id history'

theorem sameFor_of_share {history' : List Event} (run : Run config history h)
    (run' : Run config history' h') (idle : ∀ b, h.phase ≠ .delivering b)
    (idle' : ∀ b, h'.phase ≠ .delivering b)
    (same : share id (takenBy id history) h = share id (takenBy id history') h') :
    SameFor id history history' h h' := by
  rw [share_eq idle rfl rfl, share_eq idle' rfl rfl, Share.mk.injEq] at same
  obtain ⟨number, entries, taken⟩ := same
  refine ⟨?_, ?_, ?_, taken⟩
  · rw [run.registrations_eq, run'.registrations_eq, number]
  · by_cases known : id < h.nextId
    · have known' : id < h'.nextId := number ▸ known
      have found : h.subscribers[id]? = some (h.entry id) := by
        rw [Hub.entry, List.getElem?_eq_getElem known]
        rfl
      have found' : h'.subscribers[id]? = some (h'.entry id) := by
        rw [Hub.entry, List.getElem?_eq_getElem known']
        rfl
      rw [found, found', entries]
    · have unknown' : ¬id < h'.nextId := number ▸ known
      rw [List.getElem?_eq_none (Nat.not_lt.mp known),
        List.getElem?_eq_none (Nat.not_lt.mp unknown')]
  · rw [← not_iff_not, ← (run.account id).isRegistered, ← (run'.account id).isRegistered, entries]

/-- Under a policy that does not wait, a hub that can do nothing has nothing to do. -/
theorem Run.idle_of_work?_eq_none (run : Run config history h) (policy : config.policy ≠ .block)
    (nothing : h.work? = none) : h.phase = .stopped ∨ h.phase = .ready ∧ h.commands = [] := by
  rcases work?_eq_none nothing with
    stopped | ⟨ready, -, empty, -⟩ | ⟨b, i, rest, s, -, -, -, waits, -⟩
  · exact .inl stopped
  · exact .inr ⟨ready, empty⟩
  · exact absurd waits.policy (run.config_eq ▸ policy)

/-- Under a policy that does not wait, the hub never waits for a subscriber, and what
others do is nothing to a subscriber: after any two courses with the same beats for it,
between commands, it has the same. -/
theorem isolated (policy : config.policy ≠ .block) :
    (∀ history h, Run config history h → h.work? = none →
      h.phase = .stopped ∨ h.phase = .ready ∧ h.commands = []) ∧
    ∀ id actions actions' pace history history' h h',
      follow? id (start config) actions = some (pace, history, h) →
      follow? id (start config) actions' = some (pace, history', h') →
      (∀ b, h.phase ≠ .delivering b) → (∀ b, h'.phase ≠ .delivering b) →
      Run config history h ∧ Run config history' h' ∧ SameFor id history history' h h' := by
  refine ⟨fun _ _ run nothing => run.idle_of_work?_eq_none policy nothing, ?_⟩
  intro id actions actions' pace history history' h h' course course' idle idle'
  obtain ⟨run, share⟩ := follow?_share .start policy course
  obtain ⟨run', share'⟩ := follow?_share .start policy course'
  exact ⟨run, run', sameFor_of_share run run' idle idle' (share.trans share'.symm)⟩

/-- Subscriber 0 takes what it gets, or stalls and is removed for it, while a third caller
gives up: subscriber 1, which also looks once too often, is none the wiser. -/
theorem isolated_from_overflow :
    ∃ actions actions' pace history history' h h',
      follow? 1 (start ⟨1, 1, .disconnect, 1000⟩) actions = some (pace, history, h) ∧
      follow? 1 (start ⟨1, 1, .disconnect, 1000⟩) actions' = some (pace, history', h') ∧
      removed history = [] ∧ removed history' = [2, 0] ∧ takenBy 1 history = [[1]] ∧
      SameFor 1 history history' h h' := by
  obtain ⟨actions, actions', pace, history, history', h, h', course, course', kept, gone, taken,
      idle, idle'⟩ :
      ∃ actions actions' pace history history' h h',
      follow? 1 (start ⟨1, 1, .disconnect, 1000⟩) actions = some (pace, history, h) ∧
      follow? 1 (start ⟨1, 1, .disconnect, 1000⟩) actions' = some (pace, history', h') ∧
      removed history = [] ∧ removed history' = [2, 0] ∧ takenBy 1 history = [[1]] ∧
      h.phase = .ready ∧ h'.phase = .ready :=
    ⟨[.call .register, .enqueue, .work, .call .register, .enqueue, .work,
        .call (.packet [1]), .enqueue, .work, .work, .take 0, .work, .take 1, .work, .take 1,
        .call .register, .enqueue, .work, .call (.packet [2]), .enqueue, .work, .work, .work,
        .work, .work],
      [.call .register, .enqueue, .work, .call .register, .enqueue, .work,
        .call (.packet [1]), .enqueue, .work, .work, .work, .work, .take 1, .take 1,
        .call .register, .enqueue, .cancel 3, .work, .call (.packet [2]), .enqueue, .work,
        .work, .work, .work],
      _, _, _, _, _, rfl, rfl, rfl, rfl, rfl, rfl, rfl⟩
  obtain ⟨-, -, same⟩ := (@isolated ⟨1, 1, .disconnect, 1000⟩ (by decide)).2 1 _ _ pace _ _ _ _
    course course' (by simp [idle]) (by simp [idle'])
  exact ⟨actions, actions', pace, history, history', h, h', course, course', kept, gone, taken,
    same⟩

end Courses

end Hub

end VideoRelay

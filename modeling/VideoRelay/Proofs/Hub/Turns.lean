/-
The turns of one subscriber.

* `Hub.due` — the packet whose turn is still to come for a subscriber;
* `Served`, `Run.served` — every subscriber had its turn with the packets since its
  registration, one after the other, and is short at most of the one that is due;
* `Run.before_turn` — the state in which a turn comes;
* `Run.turn_at`, `Run.refused_iff`, `Run.turn_fits` — what a turn says of the queue
  and of the policy.

Design notes: that a turn goes wrong for a subscriber (refused or overflowed) is
known to the broadcast at once and to the register only at its end.  The invariant
`Served.faultless` therefore speaks of those whom the broadcast has no complaint
against, and `Served.kept` of all turns but the last.
-/
import VideoRelay.Proofs.Hub.Registry
import VideoRelay.Proofs.Hub.Runs

namespace VideoRelay

namespace Hub

/-- What the broadcast under way has still to hand to `id`. -/
def due (h : Hub) (id : Nat) : List Packet :=
  match h.phase with
  | .delivering b => if id ∈ b.remaining then [b.packet] else []
  | .ready | .stopped => []

/-- The broadcast under way has found no fault with `id`. -/
def IsFaultless (h : Hub) (id : Nat) : Prop :=
  ∀ b, h.phase = .delivering b → id ∉ b.closed ++ b.overflowed

theorem due_of_delivering {h : Hub} {b : Broadcast} (delivering : h.phase = .delivering b)
    (id : Nat) : h.due id = if id ∈ b.remaining then [b.packet] else [] := by
  rw [due, delivering]

theorem due_of_ready {h : Hub} (ready : h.phase = .ready) (id : Nat) : h.due id = [] := by
  rw [due, ready]

theorem isFaultless_of_ready {h : Hub} (ready : h.phase = .ready) (id : Nat) :
    h.IsFaultless id := by
  intro b delivering
  rw [ready] at delivering
  cases delivering

/-- The turns that `id` had so far. -/
structure Served (id : Nat) (history : List Event) (h : Hub) : Prop where
  inOrder : (turnsOf id history).map (·.packet) <+: packetsSince id history
  complete : h.isRegistered id = true → h.phase ≠ .stopped →
    (turnsOf id history).map (·.packet) ++ h.due id = packetsSince id history
  kept : ∀ t ∈ (turnsOf id history).dropLast, t.outcome.isKept = true
  faultless : h.isRegistered id = true → h.phase ≠ .stopped → h.IsFaultless id →
    ∀ t ∈ turnsOf id history, t.outcome.isKept = true

section Steps

variable {id : Nat} {history events : List Event} {h h' : Hub}

/-- A step without turns, after which nothing more is expected of the hub. -/
theorem Served.silent (v : Served id history h) (noTurn : turns events = [])
    (complete : h'.isRegistered id = true → h'.phase ≠ .stopped →
      h.isRegistered id = true ∧ h.phase ≠ .stopped ∧
        packetsSince id (history ++ events) = packetsSince id history ++ h'.due id ∧
        h.due id = [])
    (faultless : h'.isRegistered id = true → h'.phase ≠ .stopped → h'.IsFaultless id →
      h.isRegistered id = true ∧ h.phase ≠ .stopped ∧ h.IsFaultless id) :
    Served id (history ++ events) h' := by
  have same : turnsOf id (history ++ events) = turnsOf id history := by
    rw [turnsOf_append, turnsOf_eq_nil noTurn, List.append_nil]
  refine ⟨?_, ?_, ?_, ?_⟩
  · rw [same]
    exact v.inOrder.trans (packetsSince_isPrefix id history events)
  · intro registered live
    obtain ⟨was, lived, hp, hd⟩ := complete registered live
    rw [same, hp, ← v.complete was lived, hd, List.append_nil]
  · rw [same]
    exact v.kept
  · intro registered live fine
    obtain ⟨was, lived, wasFine⟩ := faultless registered live fine
    rw [same]
    exact v.faultless was lived wasFine

/-- A step that is no business of any broadcast. -/
theorem Served.congr (v : Served id history h) (same : SameRegister h h')
    (phase : h'.phase = h.phase) (noTurn : turns events = [])
    (noneRegistered : registrations events = []) (noPacket : begunPackets events = []) :
    Served id (history ++ events) h' := by
  have hr := same.isRegistered id
  have hp := packetsSince_append_eq id (by simp [noneRegistered]) noPacket history
  have hd : h'.due id = h.due id := by rw [due, due, phase]
  have ht : turnsOf id (history ++ events) = turnsOf id history := by
    rw [turnsOf_append, turnsOf_eq_nil noTurn, List.append_nil]
  refine ⟨?_, ?_, ?_, ?_⟩
  · rw [ht, hp]
    exact v.inOrder
  · rw [hr, phase, ht, hp, hd]
    exact v.complete
  · rw [ht]
    exact v.kept
  · rw [hr, phase, ht, IsFaultless, phase]
    exact v.faultless

theorem mem_afterOutcome {b : Broadcast} {i : Nat} {outcome : Outcome} :
    id ∈ (b.afterOutcome i outcome).closed ++ (b.afterOutcome i outcome).overflowed ↔
      id ∈ b.closed ++ b.overflowed ∨ (id = i ∧ outcome.isKept = false) := by
  cases outcome <;>
    simp [Broadcast.afterOutcome, Broadcast.afterTurn, Outcome.isKept, or_comm, or_left_comm]

/-- The turn of `id`. -/
theorem Served.turn (v : Served id history h) {b : Broadcast} {rest : List Nat}
    {s : Subscriber} {outcome : Outcome} (u : UnderWay h b) (delivering : h.phase = .delivering b)
    (front : b.remaining = id :: rest) :
    Served id (history ++ [Turn.event ⟨id, b.packet, outcome⟩]) (h.served b id s outcome) := by
  have live : h.phase ≠ .stopped := by simp [delivering]
  have registered : h.isRegistered id = true := u.isRegistered (front ▸ List.mem_cons_self)
  have nodup := u.nodup
  rw [front] at nodup
  -- It has not had this turn yet, so nothing was wrong with it until now.
  have notRest : id ∉ rest := by
    intro mem
    exact (List.nodup_cons.mp (List.nodup_append.mp nodup).2.1).1 mem
  have fine : h.IsFaultless id := by
    intro b' delivering' mem
    rw [delivering] at delivering'
    cases delivering'
    exact (List.nodup_append.mp nodup).2.2 id mem id List.mem_cons_self rfl
  have kept := v.faultless registered live fine
  have ht : turnsOf id (history ++ [Turn.event ⟨id, b.packet, outcome⟩]) =
      turnsOf id history ++ [⟨id, b.packet, outcome⟩] := by
    rw [turnsOf_append, turnsOf_turn, if_pos rfl]
  have hp := packetsSince_append_eq id
    (by rw [registrations_turn]; exact List.not_mem_nil) (begunPackets_turn ⟨id, b.packet, outcome⟩)
    history
  have all : (turnsOf id history).map (·.packet) ++ [b.packet] = packetsSince id history := by
    rw [← v.complete registered live, due_of_delivering delivering, front,
      if_pos List.mem_cons_self]
  have hd : (h.served b id s outcome).due id = [] := by
    rw [due_of_delivering (b := b.afterOutcome id outcome) rfl, remaining_afterOutcome, front,
      List.tail_cons, if_neg notRest]
  refine ⟨?_, fun _ _ => ?_, ?_, ?_⟩
  · rw [ht, hp, List.map_append, ← all]
    exact List.prefix_refl _
  · rw [ht, hp, List.map_append, hd, ← all, List.append_nil]
    rfl
  · rw [ht, List.dropLast_concat]
    exact kept
  · intro _ _ faultless t mem
    rw [ht, List.mem_append, List.mem_singleton] at mem
    rcases mem with mem | rfl
    · exact kept t mem
    · have := faultless _ rfl
      rw [mem_afterOutcome] at this
      by_contra lost
      exact this (.inr ⟨rfl, by simpa using lost⟩)

/-- The turn of another. -/
theorem Served.otherTurn (v : Served id history h) {b : Broadcast} {i : Nat} {rest : List Nat}
    {s : Subscriber} {outcome : Outcome} (delivering : h.phase = .delivering b)
    (front : b.remaining = i :: rest) (found : h.subscribers[i]? = some s) (hne : i ≠ id) :
    Served id (history ++ [Turn.event ⟨i, b.packet, outcome⟩]) (h.served b i s outcome) := by
  have live : h.phase ≠ .stopped := by simp [delivering]
  have hr := (served_sameRegister b outcome found).isRegistered id
  have ht : turnsOf id (history ++ [Turn.event ⟨i, b.packet, outcome⟩]) =
      turnsOf id history := by
    rw [turnsOf_append, turnsOf_turn, if_neg hne, List.append_nil]
  have hp := packetsSince_append_eq id
    (by rw [registrations_turn]; exact List.not_mem_nil) (begunPackets_turn ⟨i, b.packet, outcome⟩)
    history
  have hd : (h.served b i s outcome).due id = h.due id := by
    rw [due_of_delivering (b := b.afterOutcome i outcome) rfl, due_of_delivering delivering,
      remaining_afterOutcome, packet_afterOutcome, front, List.tail_cons]
    simp [Ne.symm hne]
  refine ⟨?_, ?_, ?_, ?_⟩
  · rw [ht, hp]
    exact v.inOrder
  · intro registered _
    rw [ht, hp, hd]
    exact v.complete (hr ▸ registered) live
  · rw [ht]
    exact v.kept
  · intro registered _ faultless
    rw [ht]
    -- The broadcast forgets no fault, so it had found none before this turn.
    refine v.faultless (hr ▸ registered) live ?_
    intro b' delivering' mem
    rw [delivering] at delivering'
    cases delivering'
    exact faultless _ rfl (mem_afterOutcome.mpr (.inl mem))

/-- A new subscriber has had no turn and has missed no packet. -/
theorem Served.new (v : Served id history h) (new : id ∉ registrations history)
    (noTurn : turns events = []) (noPacket : packetsSince id events = [])
    (ready : h'.phase = .ready) : Served id (history ++ events) h' := by
  -- Every turn so far was one with a packet since the registration.
  have none : turnsOf id history = [] := by
    have := v.inOrder
    rw [packetsSince_of_not_mem new] at this
    exact List.map_eq_nil_iff.mp (List.prefix_nil.mp this)
  have ht : turnsOf id (history ++ events) = [] := by
    rw [turnsOf_append, none, turnsOf_eq_nil noTurn]
    rfl
  have hp : packetsSince id (history ++ events) = [] := by
    rw [packetsSince_append_of_not_mem new, noPacket]
  refine ⟨?_, fun _ _ => ?_, ?_, ?_⟩
  · rw [ht]
    exact List.nil_prefix
  · rw [ht, hp, due_of_ready ready]
    rfl
  · rw [ht]
    intro t mem
    cases mem
  · rw [ht]
    intro _ _ _ t mem
    cases mem

/-- A step between broadcasts, in which `id` is not registered. -/
theorem Served.between (v : Served id history h) (ready : h.phase = .ready)
    (ready' : h'.phase = .ready)
    (registered : h'.isRegistered id = true → h.isRegistered id = true)
    (noTurn : turns events = []) (notRegistered : id ∉ registrations events)
    (noPacket : begunPackets events = []) : Served id (history ++ events) h' := by
  have live : h.phase ≠ .stopped := by simp [ready]
  refine v.silent noTurn ?_ ?_
  · intro is _
    refine ⟨registered is, live, ?_, due_of_ready ready id⟩
    rw [packetsSince_append_eq id notRegistered noPacket, due_of_ready ready', List.append_nil]
  · intro is _ _
    exact ⟨registered is, live, isFaultless_of_ready ready id⟩

theorem isRegistered_append {h : Hub} {s : Subscriber} (hne : id ≠ h.nextId) :
    (h.subscribers ++ [s])[id]?.any (·.isRegistered) = h.isRegistered id := by
  rw [isRegistered]
  by_cases known : id < h.subscribers.length
  · rw [List.getElem?_append_left known]
  · have beyond : h.subscribers.length < id := by
      have : id ≠ h.subscribers.length := hne
      omega
    rw [List.getElem?_eq_none (by simp; omega), List.getElem?_eq_none (by omega)]

/-- A registration, after which the hub is ready again. -/
theorem Served.registration (v : Served id history h)
    (numbered : registrations history = List.range h.nextId) (ready : h.phase = .ready)
    (ready' : h'.phase = .ready) {s : Subscriber}
    (subscribers : h'.subscribers = h.subscribers ++ [s]) (noTurn : turns events = [])
    (registered : registrations events = [h.nextId]) (noPacket : begunPackets events = []) :
    Served id (history ++ events) h' := by
  by_cases heq : id = h.nextId
  · -- The number has not been given before.
    have new : id ∉ registrations history := by
      rw [numbered, List.mem_range, heq]
      exact Nat.lt_irrefl _
    exact v.new new noTurn (packetsSince_eq_nil noPacket id) ready'
  · refine v.between ready ready' ?_ noTurn (by simpa [registered] using heq) noPacket
    intro is
    rw [isRegistered, subscribers, isRegistered_append heq] at is
    exact is

theorem BeginStep.served {request : Request} {rest : List Request}
    (numbered : registrations history = List.range h.nextId)
    (v : Served id history h) (ready : h.phase = .ready)
    (s : BeginStep h rest request events h') :
    Served id (history ++ .began request :: events) h' := by
  have live : h.phase ≠ .stopped := by simp [ready]
  have fine := isFaultless_of_ready ready id
  cases s with
  | packet ticket packet =>
    refine v.silent rfl ?_ fun registered _ _ => ⟨registered, live, fine⟩
    intro registered _
    refine ⟨registered, live, ?_, due_of_ready ready id⟩
    -- Whoever is registered is due to get it.
    have known : id ∈ registrations history := by
      obtain ⟨s, found, -⟩ := isRegistered_iff.mp registered
      rw [numbered]
      exact List.mem_range.mpr (lt_nextId found)
    have hd : ({ h with commands := rest }.broadcast packet).due id = [packet] :=
      if_pos (mem_registeredIds.mpr registered)
    rw [packetsSince_append known, hd]
    rfl
  | register ticket awaited => exact v.registration numbered ready ready rfl rfl rfl rfl
  | abandon ticket gone => exact v.registration numbered ready ready rfl rfl rfl rfl
  | unregister ticket i =>
    have q : Quiet (Event.began ⟨ticket, .unregister i⟩ ::
        ({ h with commands := rest }.remove i .unregistered).2) :=
      .cons rfl (remove_quiet _ _ _)
    refine v.between ready ready ?_ q.turns (by simp [q.registrations]) q.begunPackets
    intro registered
    have : (h.without [i]).isRegistered id = true := registered
    rw [isRegistered_without, Bool.and_eq_true] at this
    exact this.1
  | stats ticket awaited => exact v.congr ⟨fun _ => rfl, rfl⟩ rfl rfl rfl rfl
  | statsUnread ticket gone => exact v.congr ⟨fun _ => rfl, rfl⟩ rfl rfl rfl rfl

theorem WorkStep.served (o : Orderly h)
    (numbered : registrations history = List.range h.nextId) (v : Served id history h)
    (s : WorkStep h events h') : Served id (history ++ events) h' := by
  cases s with
  | turn b i rest s outcome delivering front found fits =>
    by_cases heq : i = id
    · subst heq
      exact v.turn (o.underWay b delivering) delivering front
    · exact v.otherTurn delivering front found heq
  | pass b i rest delivering front unknown =>
    obtain ⟨s, found⟩ := (o.underWay b delivering).found (front ▸ List.mem_cons_self)
    rw [unknown] at found
    cases found
  | finish b delivering noneLeft =>
    have q := finish_quiet h b
    have live : h.phase ≠ .stopped := by simp [delivering]
    -- Whoever is registered afterwards was so, and no fault was found with him.
    have was : (h.finish b).1.isRegistered id = true →
        h.isRegistered id = true ∧ id ∉ b.closed ++ b.overflowed := by
      intro registered
      rw [finish_fst] at registered
      have : (h.without (b.closed ++ b.overflowed)).isRegistered id = true := registered
      rw [isRegistered_without, Bool.and_eq_true] at this
      exact ⟨this.1, of_decide_eq_true this.2⟩
    refine v.silent q.turns ?_ ?_
    · intro registered _
      refine ⟨(was registered).1, live, ?_, ?_⟩
      · rw [packetsSince_append_eq id (by simp [q.registrations]) q.begunPackets,
          due_of_ready (by rw [finish_fst]), List.append_nil]
      · rw [due_of_delivering delivering, noneLeft, if_neg List.not_mem_nil]
    · intro registered _ _
      refine ⟨(was registered).1, live, ?_⟩
      intro b' delivering'
      rw [delivering] at delivering'
      cases delivering'
      exact (was registered).2
  | «begin» request rest events h' ready inTime front s => exact s.served numbered v ready
  | stop cause why =>
    have q : Quiet (cause ++ h.stop.2) := why.quiet.append (stop_quiet h)
    exact v.silent q.turns (fun _ live => absurd rfl live) (fun _ live => absurd rfl live)

theorem Transition.served {action : Action} (o : Orderly h)
    (numbered : registrations history = List.range h.nextId) (v : Served id history h)
    (t : Transition h action events h') : Served id (history ++ events) h' := by
  cases t with
  | caller s =>
    have q := s.quiet
    exact v.congr s.sameRegister s.frame.2.1 q.turns q.registrations q.begunPackets
  | reader s =>
    have phase : h'.phase = h.phase := by rw [s.frame]
    exact v.congr s.sameRegister phase (by cases s <;> rfl) (by cases s <;> rfl)
      (by cases s <;> rfl)
  | work own s => exact s.served o numbered v

end Steps

/-- Every subscriber had its turns in the order of the packets. -/
theorem Run.served {config : HubConfig} {history : List Event} {h : Hub}
    (run : Run config history h) (id : Nat) : Served id history h := by
  induction run with
  | start =>
    refine ⟨List.prefix_refl _, ?_, ?_, ?_⟩
    · intro registered _
      cases registered
    · intro t mem
      cases mem
    · intro _ _ _ t mem
      cases mem
  | step run hs ih => exact (Transition.of_step? hs).served run.orderly run.registrations_eq ih

/-! ### Turns in their place -/

/-- What the hub is at when it comes to a turn. -/
structure AtTurn (h : Hub) (t : Turn) : Prop where
  inRound : ∃ b later, h.phase = .delivering b ∧ b.remaining = t.id :: later ∧
    b.packet = t.packet
  fits : ∃ s, h.subscribers[t.id]? = some s ∧ t.outcome.Fits h.config s

/-- Nothing else happens with a turn. -/
theorem WorkStep.of_turn {h h' : Hub} {events : List Event} (s : WorkStep h events h') {t : Turn}
    (mem : t ∈ turns events) : events = [t.event] ∧ AtTurn h t := by
  cases s with
  | turn b id rest s outcome delivering front found fits =>
    rw [turns_cons, turn?_event] at mem
    obtain rfl : t = ⟨id, b.packet, outcome⟩ := by simpa using mem
    exact ⟨rfl, ⟨b, rest, delivering, front, rfl⟩, s, found, fits⟩
  | pass b id rest delivering front unknown => cases mem
  | finish b delivering noneLeft =>
    rw [(finish_quiet h b).turns] at mem
    cases mem
  | «begin» request rest events h' ready inTime front s =>
    have none : turns (.began request :: events) = [] := by
      cases s with
      | unregister ticket id => exact Quiet.turns (.cons rfl (remove_quiet _ _ _))
      | _ => rfl
    rw [none] at mem
    cases mem
  | stop cause why =>
    rw [Quiet.turns (why.quiet.append (stop_quiet h))] at mem
    cases mem

theorem Transition.of_turn {h h' : Hub} {action : Action} {events : List Event}
    (tr : Transition h action events h') {t : Turn} (mem : t ∈ turns events) :
    events = [t.event] ∧ AtTurn h t := by
  cases tr with
  | caller s =>
    rw [s.quiet.turns] at mem
    cases mem
  | reader s => cases s <;> cases mem
  | work own s => exact s.of_turn mem

variable {config : HubConfig} {history : List Event} {h : Hub}

/-- The state in which a turn comes. -/
theorem Run.before_turn {past rest : List Event} {t : Turn}
    (run : Run config (past ++ t.event :: rest) h) : ∃ h₀, Run config past h₀ ∧ AtTurn h₀ t := by
  obtain ⟨h₀, action, h₁, earlier, pre, post, before, hs, hpast⟩ := run.split
  have mem : t ∈ turns (pre ++ t.event :: post) := by
    rw [turns_turn]
    exact List.mem_append_right _ List.mem_cons_self
  obtain ⟨alone, here⟩ := (Transition.of_step? hs).of_turn mem
  -- A turn is all that happens in its step.
  have first : pre = [] := by
    cases pre with
    | nil => rfl
    | cons e pre => simp at alone
  rw [first, List.append_nil] at hpast
  exact ⟨h₀, hpast ▸ before, here⟩

/-- What the subscriber's queue was like at a turn, and what the history told of it. -/
theorem Run.turn_at {past rest : List Event} {t : Turn}
    (run : Run config (past ++ t.event :: rest) h) :
    ∃ s, Account t.id past s ∧ t.outcome.Fits config s := by
  obtain ⟨h₀, before, here⟩ := run.before_turn
  obtain ⟨s, found, fits⟩ := here.fits
  exact ⟨s, before.account_of_found found, before.config_eq ▸ fits⟩

/-- A turn is refused if, and only if, the queue had been closed. -/
theorem Run.refused_iff {past rest : List Event} {t : Turn}
    (run : Run config (past ++ t.event :: rest) h) :
    t.outcome = .refused ↔ t.id ∈ closings past := by
  obtain ⟨s, a, fits⟩ := run.turn_at
  have hopen := a.isOpen
  cases outcome : t.outcome with
  | refused =>
    rw [outcome] at fits
    have shut : s.isOpen = false := fits
    rw [shut] at hopen
    simpa using hopen
  | queued | skipped | overflowed =>
    rw [outcome] at fits
    simpa using hopen.mp fits.1

/-- How a turn ends is a matter of the policy. -/
theorem Run.turn_fits (run : Run config history h) {t : Turn} (mem : t ∈ turns history) :
    ∃ s : Subscriber, t.outcome.Fits config s := by
  obtain ⟨e, inHistory, heq⟩ := List.mem_filterMap.mp mem
  obtain rfl := turn?_eq_some.mp heq
  obtain ⟨past, rest, rfl⟩ := List.append_of_mem inHistory
  obtain ⟨s, -, fits⟩ := run.turn_at
  exact ⟨s, fits⟩

end Hub

end VideoRelay

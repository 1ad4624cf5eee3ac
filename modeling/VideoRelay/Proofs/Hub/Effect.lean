/-
What a broadcast does, and what it leaves alone.

* `Midway`, `Over`, `perform?_course` — how far a broadcast has come, whatever register it found,
  and that it is over;
* `TurnEffect`, `Over.turnEffect` — what a turn makes of a subscriber;
* `HoldsUp`, `Midway.work?_eq_none` — whom the hub waits for, if it waits;
* `IsEffect`, `broadcast_isEffect` — a broadcast that comes to its end has had one turn for
  everybody who was registered, and has done nothing else.

Design notes: receiving ends go on while a packet is handed round, so there is no one moment to
compare with.  An entry at the end is the entry at the beginning with what its own receiving end
has done, and with the effect of its turn in its place among that.
-/
import Mathlib.Data.List.Nodup
import VideoRelay.Proofs.Hub.Ending
import VideoRelay.Proofs.Hub.Rounds

namespace VideoRelay

namespace Hub

/-! ### The course of a broadcast -/

/-- A history that tells of those who are registered at `h`, and of nothing else. -/
def roll (h : Hub) : List Event := h.registeredIds.map (.registered 0)

theorem members_roll (h : Hub) : members h.roll = h.registeredIds := by
  have numbers : registrations h.roll = h.registeredIds := by
    simp [registrations, roll, List.filterMap_map, Function.comp_def]
  have kept : removed h.roll = [] := by
    simp [removed, removals, roll, List.filterMap_map, Function.comp_def]
  simp [members, numbers, kept]

/-- The counters after a broadcast of `packet` in which `skipped` subscribers had no room for
it and `overflowed` were removed for that. -/
def Tally.afterBroadcast (t : Tally) (packet : Packet) (skipped overflowed : Nat) : Tally :=
  { t with
    packetsReceived := t.packetsReceived + 1
    bytesReceived := t.bytesReceived + packet.length
    packetsDropped := t.packetsDropped + skipped
    disconnected := t.disconnected + overflowed }

/-- The broadcast of `packet` that began at `h₀` has come as far as `b`, as `during` tells. -/
structure Midway (h₀ : Hub) (packet : Packet) (during : List Event) (h : Hub) (b : Broadcast) :
    Prop where
  delivering : h.phase = .delivering b
  samePacket : b.packet = packet
  round : Round h₀.roll during b
  underWay : UnderWay h b
  register : SameRegister h₀ h
  config : h.config = h₀.config
  tally : h.tally = h₀.tally.afterBroadcast packet (endedWith .skipped during).length 0

/-- The broadcast of `packet` that began at `h₀` is over, as `during` tells. -/
structure Over (h₀ : Hub) (packet : Packet) (during : List Event) (h : Hub) : Prop where
  ready : h.phase = .ready
  complete : Complete h₀.roll during ⟨0, .packet packet⟩
  registeredIds : h.registeredIds = h₀.registeredIds.filter (· ∉ removed during)
  nextId : h.nextId = h₀.nextId
  config : h.config = h₀.config
  tally : h.tally = h₀.tally.afterBroadcast packet (endedWith .skipped during).length
    (endedWith .overflowed during).length

/-- How far a broadcast has come. -/
inductive Course (h₀ : Hub) (packet : Packet) (during : List Event) (h : Hub) : Prop
  | midway (b : Broadcast) (m : Midway h₀ packet during h b)
  | settled (o : Over h₀ packet during h)
  | stopped (s : h.phase = .stopped)

section Course

variable {h₀ h h' : Hub} {packet : Packet} {during events : List Event} {b : Broadcast}

theorem SameRegister.trans {h'' : Hub} (first : SameRegister h h') (then' : SameRegister h' h'') :
    SameRegister h h'' where
  isRegistered := fun id => (then'.isRegistered id).trans (first.isRegistered id)
  nextId := then'.nextId.trans first.nextId

/-- Where it begins. -/
theorem midway_broadcast (h₀ : Hub) (packet : Packet) :
    Midway h₀ packet [] (h₀.broadcast packet) ⟨packet, h₀.registeredIds, [], []⟩ where
  delivering := rfl
  samePacket := rfl
  round := ⟨rfl, rfl, rfl, (members_roll h₀).symm, nofun, rfl, rfl⟩
  underWay := ⟨List.suffix_refl _, nodup_registeredIds h₀, nofun⟩
  register := ⟨fun _ => rfl, rfl⟩
  config := rfl
  tally := rfl

/-- A step that the broadcast has no part in. -/
theorem Midway.congr (m : Midway h₀ packet during h b) (phase : h'.phase = h.phase)
    (config : h'.config = h.config) (tally : h'.tally = h.tally) (same : SameRegister h h')
    (noTurn : turns events = []) (noneBegun : begun events = [])
    (noneRegistered : registrations events = []) (noneRemoved : removals events = []) :
    Midway h₀ packet (during ++ events) h' b where
  delivering := phase.trans m.delivering
  samePacket := m.samePacket
  round := m.round.append noTurn noneBegun noneRegistered noneRemoved
  underWay := m.underWay.congr same
  register := m.register.trans same
  config := config.trans m.config
  tally := by
    rw [tally, m.tally, endedWith_append, endedWith_eq_nil noTurn, List.append_nil]

theorem Over.congr (o : Over h₀ packet during h) (phase : h'.phase = h.phase)
    (config : h'.config = h.config) (tally : h'.tally = h.tally) (same : SameRegister h h')
    (noTurn : turns events = []) (noneRemoved : removals events = []) :
    Over h₀ packet (during ++ events) h' := by
  have ended : ∀ outcome, endedWith outcome (during ++ events) = endedWith outcome during := by
    intro outcome
    rw [endedWith_append, endedWith_eq_nil noTurn, List.append_nil]
  have allTurns : turns (during ++ events) = turns during := by
    rw [turns_append, noTurn, List.append_nil]
  have allRemovals : removals (during ++ events) = removals during := by
    rw [removals_append, noneRemoved, List.append_nil]
  refine ⟨phase.trans o.ready, ?_, ?_, same.nextId.trans o.nextId, config.trans o.config, ?_⟩
  · rw [Complete, ended, ended, allTurns, allRemovals]
    exact o.complete
  · rw [same.registeredIds, removed, allRemovals]
    exact o.registeredIds
  · rw [tally, ended, ended]
    exact o.tally

/-- The turn of the next subscriber. -/
theorem Midway.turn (m : Midway h₀ packet during h b) {i : Nat} {rest : List Nat}
    {s : Subscriber} (front : b.remaining = i :: rest) (found : h.subscribers[i]? = some s)
    (outcome : Outcome) :
    Midway h₀ packet (during ++ [Turn.event ⟨i, b.packet, outcome⟩]) (h.served b i s outcome)
      (b.afterOutcome i outcome) where
  delivering := rfl
  samePacket := (packet_afterOutcome b i outcome).trans m.samePacket
  round := m.round.turn front outcome
  underWay := (m.underWay.afterOutcome front outcome).congr (served_sameRegister b outcome found)
  register := m.register.trans (served_sameRegister b outcome found)
  config := m.config
  tally := by
    show h.tally.afterOutcome outcome = _
    rw [m.tally, endedWith_append, endedWith_turn]
    cases outcome <;>
      simp [Tally.afterOutcome, Tally.afterBroadcast, Nat.add_assoc]

/-- The end, when everybody has had a turn. -/
theorem Midway.finish (m : Midway h₀ packet during h b) (noneLeft : b.remaining = []) :
    Over h₀ packet (during ++ (h.finish b).2) (h.finish b).1 := by
  have q := finish_quiet h b
  have gone : removed (during ++ (h.finish b).2) = b.closed ++ b.overflowed := by
    rw [removed_append, m.underWay.removed_finish noneLeft, removed, m.round.noneRemoved]
    rfl
  have ended : ∀ outcome,
      endedWith outcome (during ++ (h.finish b).2) = endedWith outcome during := by
    intro outcome
    rw [endedWith_append, endedWith_eq_nil q.turns, List.append_nil]
  refine ⟨by rw [finish_fst], m.samePacket ▸ m.round.complete m.underWay noneLeft 0, ?_, ?_, ?_, ?_⟩
  · rw [gone, finish_fst, ← m.register.registeredIds]
    exact registeredIds_without h _
  · rw [finish_fst, ← m.register.nextId]
    exact List.length_mapIdx
  · rw [finish_fst]
    exact m.config
  · rw [ended, ended, ← m.round.overflowed, finish_fst]
    show { h.tally with disconnected := h.tally.disconnected + b.overflowed.length } = _
    rw [m.tally]
    rfl

theorem Midway.transition {action : Action} (m : Midway h₀ packet during h b)
    (t : Transition h action events h') : Course h₀ packet (during ++ events) h' := by
  cases t with
  | caller s =>
    obtain ⟨config, phase, -, tally⟩ := s.frame
    exact .midway b (m.congr phase config tally s.sameRegister s.quiet.turns s.begun
      s.quiet.registrations s.removals)
  | reader s =>
    have frame := s.frame
    exact .midway b (m.congr (by rw [frame]) (by rw [frame]) (by rw [frame]) s.sameRegister
      (by cases s <;> rfl) s.uncalled.begun (by cases s <;> rfl) (by cases s <;> rfl))
  | work own s =>
    -- No other broadcast and no command can be under way.
    have only : ∀ b', h.phase = .delivering b' → b' = b := by
      intro b' delivering
      rw [m.delivering] at delivering
      exact (Phase.delivering.inj delivering).symm
    cases s with
    | turn b' i rest s outcome delivering front found fits =>
      obtain rfl := only b' delivering
      exact .midway _ (m.turn front found outcome)
    | pass b' i rest delivering front unknown =>
      obtain rfl := only b' delivering
      obtain ⟨s, found⟩ := m.underWay.found (front ▸ List.mem_cons_self)
      rw [unknown] at found
      cases found
    | finish b' delivering noneLeft =>
      obtain rfl := only b' delivering
      exact .settled (m.finish noneLeft)
    | «begin» request rest events h' ready inTime front s =>
      rw [m.delivering] at ready
      cases ready
    | stop cause why => exact .stopped rfl

theorem Over.transition {action : Action} (o : Over h₀ packet during h)
    (t : Transition h action events h') (noneBegun : begun events = []) :
    Course h₀ packet (during ++ events) h' := by
  cases t with
  | caller s =>
    obtain ⟨config, phase, -, tally⟩ := s.frame
    exact .settled (o.congr phase config tally s.sameRegister s.quiet.turns s.removals)
  | reader s =>
    have frame := s.frame
    exact .settled (o.congr (by rw [frame]) (by rw [frame]) (by rw [frame]) s.sameRegister
      (by cases s <;> rfl) (by cases s <;> rfl))
  | work own s =>
    cases s with
    | turn b i rest s outcome delivering | pass b i rest delivering
    | finish b delivering =>
      rw [o.ready] at delivering
      cases delivering
    | «begin» request rest events h' ready inTime front s =>
      rw [begun_cons] at noneBegun
      cases noneBegun
    | stop cause why => exact .stopped rfl

/-- As long as no command is taken up, it is a matter of this one broadcast. -/
theorem perform?_course {actions : List Action} (c : Course h₀ packet during h)
    (hp : h.perform? actions = some (h', events)) (noneBegun : begun events = []) :
    Course h₀ packet (during ++ events) h' := by
  induction actions generalizing h during events with
  | nil =>
    obtain ⟨rfl, rfl⟩ := by simpa [Hub.perform?] using hp
    rwa [List.append_nil]
  | cons action actions ih =>
    obtain ⟨mid, first, others, hs, hr, rfl⟩ := perform?_cons.mp hp
    rw [begun_append, List.append_eq_nil_iff] at noneBegun
    have t := Transition.of_step? hs
    rw [← List.append_assoc]
    refine ih ?_ hr noneBegun.2
    cases c with
    | midway b m => exact m.transition t
    | settled o => exact o.transition t noneBegun.1
    | stopped s => exact .stopped (t.stays_stopped s)

end Course

/-! ### What a broadcast comes to -/

/-- What its turn in a broadcast of `packet` makes of a subscriber. -/
inductive TurnEffect (config : HubConfig) (packet : Packet) (s : Subscriber) :
    Outcome → Subscriber → Prop
  | queued (isOpen : s.isOpen = true) (room : s.queue.length < max config.queueCapacity 1) :
    TurnEffect config packet s .queued
      { s with queue := s.queue ++ [packet], queued := s.queued + 1 }
  | skipped (isOpen : s.isOpen = true) (full : max config.queueCapacity 1 ≤ s.queue.length)
      (policy : config.policy = .dropNewest) :
    TurnEffect config packet s .skipped { s with skipped := s.skipped + 1 }
  | overflowed (isOpen : s.isOpen = true) (full : max config.queueCapacity 1 ≤ s.queue.length)
      (policy : config.policy = .disconnect) :
    TurnEffect config packet s .overflowed { s with isRegistered := false }
  /-- Whether there was room or not. -/
  | refused (closed : s.isOpen = false) :
    TurnEffect config packet s .refused { s with isRegistered := false }

theorem Outcome.Fits.turnEffect {config : HubConfig} {s : Subscriber} {outcome : Outcome}
    (fits : outcome.Fits config s) (packet : Packet) :
    TurnEffect config packet s outcome
      (if outcome.isKept then s.afterOutcome packet outcome else s.dismissed) := by
  cases outcome with
  | queued => exact .queued fits.1 fits.2
  | skipped => exact .skipped fits.1 fits.2.1 fits.2.2
  | overflowed => exact .overflowed fits.1 fits.2.1 fits.2.2
  | refused => exact .refused fits

/-- `id` is the next to have its turn in the broadcast that began at `h₀`, its queue is in use,
and there is no room in it. -/
structure HoldsUp (h₀ : Hub) (past : List Event) (id : Nat) : Prop where
  next : ∃ rest, h₀.registeredIds = (turns past).map (·.id) ++ id :: rest
  isOpen : ((h₀.entry id).handled id past).isOpen = true
  full : max h₀.config.queueCapacity 1 ≤ ((h₀.entry id).handled id past).queue.length

/-- What a broadcast of `packet` that began at `h₀` comes to, when `events` is all that
happened until it was over and `h` is what it left. -/
structure IsEffect (h₀ : Hub) (packet : Packet) (events : List Event) (h : Hub) : Prop where
  /-- Everybody who was registered has had one turn, in the order of registration. -/
  turns : (turns events).map (·.id) = h₀.registeredIds
  samePacket : ∀ t ∈ Hub.turns events, t.packet = packet
  /-- Their entries have what the turn makes of them, and what their own receiving ends make of
  them before and after it. -/
  served : ∀ id ∈ h₀.registeredIds, ∃ before outcome after s,
    events = before ++ Turn.event ⟨id, packet, outcome⟩ :: after ∧
      TurnEffect h₀.config packet ((h₀.entry id).handled id before) outcome s ∧
      h.entry id = s.handled id after
  others : ∀ id ∉ h₀.registeredIds, h.entry id = (h₀.entry id).handled id events
  removals : removals events = (endedWith .refused events).map (·, .closed) ++
    (endedWith .overflowed events).map (·, .overflow)
  /-- Those who are left are registered in the order in which they were. -/
  registeredIds : h.registeredIds = h₀.registeredIds.filter (· ∉ removed events)
  /-- Nobody is left who had closed before its turn. -/
  closedFirst : ∀ before t after, events = before ++ Turn.event t :: after →
    ((h₀.entry t.id).handled t.id before).isOpen = false → t.id ∉ h.registeredIds
  nextId : h.nextId = h₀.nextId
  config : h.config = h₀.config
  tally : h.tally = { h₀.tally with
    packetsReceived := h₀.tally.packetsReceived + 1
    bytesReceived := h₀.tally.bytesReceived + packet.length
    packetsDropped := h₀.tally.packetsDropped + (endedWith .skipped events).length
    disconnected := h₀.tally.disconnected + (endedWith .overflowed events).length }

section Effect

variable {h₀ h h' : Hub} {packet : Packet} {actions : List Action} {during events : List Event}
  {b : Broadcast} {id : Nat}

/-- In a round in which nobody has two turns, the turn of a subscriber says how it ended. -/
theorem mem_endedWith (nodup : ((turns events).map (·.id)).Nodup) {t : Turn}
    (mem : t ∈ turns events) {outcome : Outcome} :
    t.id ∈ endedWith outcome events ↔ t.outcome = outcome := by
  rw [endedWith, List.mem_map]
  constructor
  · rintro ⟨t', mem', same⟩
    obtain ⟨mem', ended⟩ := List.mem_filter.mp mem'
    rw [List.inj_on_of_nodup_map nodup mem mem' same.symm]
    exact of_decide_eq_true ended
  · rintro rfl
    exact ⟨t, by simpa using mem, rfl⟩

/-- Before and after its turn a subscriber has none. -/
theorem turnsOf_of_nodup {before after : List Event} {t : Turn}
    (nodup : ((turns (before ++ t.event :: after)).map (·.id)).Nodup) :
    turnsOf t.id before = [] ∧ turnsOf t.id after = [] := by
  rw [turns_turn, List.map_append, List.map_cons, List.nodup_append, List.nodup_cons] at nodup
  obtain ⟨-, ⟨notAfter, -⟩, apart⟩ := nodup
  have none : ∀ events, t.id ∉ (turns events).map (·.id) → turnsOf t.id events = [] := by
    intro events notMem
    refine List.filter_eq_nil_iff.mpr fun t' mem same => notMem ?_
    exact of_decide_eq_true same ▸ List.mem_map_of_mem mem
  exact ⟨none _ fun mem => apart _ mem _ List.mem_cons_self rfl, none _ notAfter⟩

/-- The state in which a turn comes. -/
theorem perform?_before_turn {before after : List Event} {t : Turn}
    (hp : h.perform? actions = some (h', before ++ t.event :: after)) :
    ∃ earlier mid, h.perform? earlier = some (mid, before) ∧ AtTurn mid t := by
  obtain ⟨earlier, action, -, mid, h₁, past, pre, post, -, -, first, hs, -, split, -⟩ :=
    perform?_split hp
  have mem : t ∈ turns (pre ++ t.event :: post) := by
    rw [turns_turn]
    exact List.mem_append_right _ List.mem_cons_self
  obtain ⟨alone, here⟩ := (Transition.of_step? hs).of_turn mem
  -- A turn is all that happens in its step.
  have none : pre = [] := by
    cases pre with
    | nil => rfl
    | cons e pre => simp at alone
  rw [none, List.append_nil] at split
  exact ⟨earlier, mid, split ▸ first, here⟩

/-- As long as it has had no turn, an entry has what its own receiving end makes of it. -/
theorem Midway.entry (m : Midway h₀ packet during h b)
    (hp : (h₀.broadcast packet).perform? actions = some (h, during))
    (noTurn : turnsOf id during = []) : h.entry id = (h₀.entry id).handled id during := by
  have noneRemoved : id ∉ removed during := by simp [removed, m.round.noneRemoved]
  rw [perform?_entry hp, foldl_after_of_noTurn noTurn, if_neg noneRemoved]
  rfl

/-- In the middle of a broadcast the hub waits for one thing only. -/
theorem Midway.work?_eq_none (m : Midway h₀ packet during h b)
    (hp : (h₀.broadcast packet).perform? actions = some (h, during)) :
    h.work? = none ↔ h₀.config.policy = .block ∧ h.isOverdue = false ∧
      ∃ id, HoldsUp h₀ during id := by
  have order : (turns during).map (·.id) ++ b.remaining = h₀.registeredIds :=
    m.round.turns.trans (members_roll h₀)
  -- Whoever comes next has had no turn.
  have entry : ∀ {i rest}, b.remaining = i :: rest →
      h.entry i = (h₀.entry i).handled i during := by
    intro i rest front
    refine m.entry hp (List.filter_eq_nil_iff.mpr fun t mem same => ?_)
    have nodup := order ▸ nodup_registeredIds h₀
    rw [front] at nodup
    exact (List.nodup_append.mp nodup).2.2 i (of_decide_eq_true same ▸ List.mem_map_of_mem mem) i
      List.mem_cons_self rfl
  simp only [work?, m.delivering]
  cases front : b.remaining with
  | nil =>
    refine ⟨by simp, ?_⟩
    rintro ⟨-, -, i, ⟨rest, next⟩, -, -⟩
    rw [← order, front, List.append_nil] at next
    have := congrArg List.length next
    simp at this
  | cons i rest =>
    obtain ⟨s, found⟩ := m.underWay.found (front ▸ List.mem_cons_self : i ∈ b.remaining)
    have state : (h₀.entry i).handled i during = s := by
      rw [← entry front, entry_eq found]
    have known : ∀ {id}, HoldsUp h₀ during id → id = i := by
      rintro id ⟨⟨rest', next⟩, -, -⟩
      rw [← order, front, List.append_cancel_left_eq] at next
      exact (List.cons_eq_cons.mp next).1.symm
    rcases deliver?_cases b found with ⟨outcome, fits, delivered⟩ | ⟨waits, delivered⟩
    · simp only [delivered]
      refine ⟨by simp, ?_⟩
      rintro ⟨policy, -, id, held⟩
      obtain rfl := known held
      obtain ⟨-, isOpen, full⟩ := held
      rw [state] at isOpen full
      rw [m.config] at fits
      cases outcome with
      | queued => exact absurd fits.2 (Nat.not_lt.mpr full)
      | skipped | overflowed =>
        have other := fits.2.2
        rw [policy] at other
        cases other
      | refused =>
        have closed : s.isOpen = false := fits
        rw [closed] at isOpen
        cases isOpen
    · simp only [delivered]
      have held : HoldsUp h₀ during i := by
        refine ⟨⟨rest, by rw [← order, front]⟩, ?_, ?_⟩
        · rw [state]
          exact waits.isOpen
        · rw [state, ← m.config]
          exact waits.full
      have policy : h₀.config.policy = .block := m.config ▸ waits.policy
      cases overdue : h.isOverdue with
      | true => exact ⟨by simp, fun both => by cases both.2.1⟩
      | false => exact ⟨fun _ => ⟨policy, rfl, i, held⟩, fun _ => rfl⟩

/-- What comes of a turn in a broadcast that is over. -/
theorem Over.turnEffect (o : Over h₀ packet events h)
    (hp : (h₀.broadcast packet).perform? actions = some (h, events)) (noneBegun : begun events = [])
    {before after : List Event} {t : Turn} (split : events = before ++ t.event :: after) :
    ∃ s, TurnEffect h₀.config packet ((h₀.entry t.id).handled t.id before) t.outcome s ∧
      h.entry t.id = s.handled t.id after ∧
      (t.id ∈ removed events ↔ t.outcome.isKept = false) := by
  obtain ⟨order, samePacket, told⟩ := o.complete
  have nodup : ((turns events).map (·.id)).Nodup := by
    rw [order, members_roll]
    exact nodup_registeredIds h₀
  have mem : t ∈ turns events := by
    rw [split, turns_turn]
    exact List.mem_append_right _ List.mem_cons_self
  have gone : t.id ∈ removed events ↔ t.outcome.isKept = false := by
    have both : t.id ∈ removed events ↔
        t.id ∈ endedWith .refused events ∨ t.id ∈ endedWith .overflowed events := by
      simp [removed, told, Function.comp_def]
    rw [both, mem_endedWith nodup mem, mem_endedWith nodup mem]
    cases t.outcome <;> simp [Outcome.isKept]
  rw [split] at nodup hp
  obtain ⟨notBefore, notAfter⟩ := turnsOf_of_nodup nodup
  obtain ⟨earlier, mid, first, ⟨b, later, delivering, -⟩, s, found, fits⟩ :=
    perform?_before_turn hp
  -- At its turn the broadcast was under way, and nobody had been removed.
  have noneBefore : begun before = [] := by
    rw [split, begun_append] at noneBegun
    exact (List.append_eq_nil_iff.mp noneBegun).1
  obtain ⟨b, m⟩ : ∃ b, Midway h₀ packet before mid b := by
    cases perform?_course (.midway _ (midway_broadcast h₀ packet)) first noneBefore with
    | midway b m => exact ⟨b, m⟩
    | settled o =>
      have ready := o.ready
      rw [delivering] at ready
      cases ready
    | stopped s =>
      rw [delivering] at s
      cases s
  have state : (h₀.entry t.id).handled t.id before = s := by
    rw [← m.entry first notBefore, entry_eq found]
  have goneAfter : t.id ∈ removed events ↔ t.id ∈ removed after := by
    have noneRemoved : removed before = [] := by rw [removed, m.round.noneRemoved]; rfl
    rw [split, removed_append, noneRemoved, ← List.singleton_append, removed_append, removed_turn]
    simp
  have now : s.after t.id t.event = s.afterOutcome packet t.outcome := by
    obtain rfl := samePacket t mem
    obtain ⟨i, packet, outcome⟩ := t
    cases outcome <;> simp [Turn.event, Subscriber.after, Subscriber.handling,
      Subscriber.afterOutcome]
  rw [state]
  refine ⟨_, (m.config ▸ fits).turnEffect packet, ?_, gone⟩
  have here : before.foldl (Subscriber.after t.id) (h₀.entry t.id) = s := by
    have noneRemoved : t.id ∉ removed before := by simp [removed, m.round.noneRemoved]
    rw [foldl_after_of_noTurn notBefore, if_neg noneRemoved, state]
  rw [perform?_entry hp, List.foldl_append, List.foldl_cons]
  show after.foldl _ ((before.foldl (Subscriber.after t.id) (h₀.entry t.id)).after t.id t.event) = _
  rw [here, now, foldl_after_of_noTurn notAfter, if_congr (goneAfter.symm.trans gone) rfl rfl]
  cases kept : t.outcome.isKept with
  | true => simp
  | false =>
    have unchanged : s.afterOutcome packet t.outcome = s := by
      cases outcome : t.outcome <;> simp_all [Outcome.isKept, Subscriber.afterOutcome]
    simp [unchanged, handled_dismissed]

/-- Everybody who was registered had a turn, and of everybody's it is known what came of it. -/
theorem Over.served (o : Over h₀ packet events h)
    (hp : (h₀.broadcast packet).perform? actions = some (h, events)) (noneBegun : begun events = [])
    (registered : id ∈ h₀.registeredIds) : ∃ before outcome after s,
      events = before ++ Turn.event ⟨id, packet, outcome⟩ :: after ∧
        TurnEffect h₀.config packet ((h₀.entry id).handled id before) outcome s ∧
        h.entry id = s.handled id after := by
  obtain ⟨order, samePacket, -⟩ := o.complete
  obtain ⟨t, mem, rfl⟩ : ∃ t ∈ turns events, t.id = id := by
    rw [← members_roll, ← order, List.mem_map] at registered
    exact registered
  obtain ⟨e, inEvents, isTurn⟩ := List.mem_filterMap.mp mem
  obtain rfl := turn?_eq_some.mp isTurn
  obtain ⟨before, after, split⟩ := List.append_of_mem inEvents
  obtain ⟨s, effect, entry, -⟩ := o.turnEffect hp noneBegun split
  obtain rfl := samePacket t mem
  exact ⟨before, t.outcome, after, s, split, effect, entry⟩

/-- Nobody else has anything to do with it. -/
theorem Over.others (o : Over h₀ packet events h)
    (hp : (h₀.broadcast packet).perform? actions = some (h, events))
    (notRegistered : id ∉ h₀.registeredIds) : h.entry id = (h₀.entry id).handled id events := by
  obtain ⟨order, -, told⟩ := o.complete
  rw [members_roll] at order
  have noTurn : turnsOf id events = [] := by
    refine List.filter_eq_nil_iff.mpr fun t mem same => notRegistered ?_
    rw [← order]
    exact of_decide_eq_true same ▸ List.mem_map_of_mem mem
  have kept : id ∉ removed events := by
    have ended : ∀ outcome, id ∉ endedWith outcome events := by
      intro outcome mem
      rw [endedWith, List.mem_map] at mem
      obtain ⟨t, mem, rfl⟩ := mem
      exact notRegistered (order ▸ List.mem_map_of_mem (List.mem_of_mem_filter mem))
    simp [removed, told, Function.comp_def, ended]
  rw [perform?_entry hp, foldl_after_of_noTurn noTurn, if_neg kept]
  rfl

/-- A subscriber that has closed when its turn comes does not stay. -/
theorem Over.closedFirst (o : Over h₀ packet events h)
    (hp : (h₀.broadcast packet).perform? actions = some (h, events)) (noneBegun : begun events = [])
    {before after : List Event} {t : Turn} (split : events = before ++ t.event :: after)
    (closed : ((h₀.entry t.id).handled t.id before).isOpen = false) :
    t.id ∉ h.registeredIds := by
  intro left
  obtain ⟨s, effect, -, gone⟩ := o.turnEffect hp noneBegun split
  rw [o.registeredIds, List.mem_filter, decide_eq_true_eq] at left
  refine left.2 (gone.mpr ?_)
  generalize t.outcome = outcome at effect
  cases effect with
  | refused => rfl
  | queued isOpen | skipped isOpen | overflowed isOpen =>
    rw [closed] at isOpen
    cases isOpen

/-- A broadcast under way that will come to its end. -/
theorem work?_eq_none_of_ready (hp : (h₀.broadcast packet).perform? actions = some (h, events))
    (noneBegun : begun events = []) (atRest : h.phase = .ready) {earlier later : List Action}
    {mid : Hub} {past : List Event} (path : actions = earlier ++ later)
    (first : (h₀.broadcast packet).perform? earlier = some (mid, past))
    (notReady : mid.phase ≠ .ready) :
    mid.work? = none ↔ h₀.config.policy = .block ∧ mid.isOverdue = false ∧
      ∃ id, HoldsUp h₀ past id := by
  obtain ⟨rest, hr, rfl⟩ : ∃ rest, mid.perform? later = some (h, rest) ∧
      events = past ++ rest := by
    rw [path, perform?_append first, Option.map_eq_some_iff] at hp
    obtain ⟨⟨last, rest⟩, hr, same⟩ := hp
    cases same
    exact ⟨rest, hr, rfl⟩
  rw [begun_append, List.append_eq_nil_iff] at noneBegun
  cases perform?_course (.midway _ (midway_broadcast h₀ packet)) first noneBegun.1 with
  | midway b m => exact m.work?_eq_none first
  | settled o => exact absurd o.ready notReady
  | stopped s =>
    have stopped := perform?_stays_stopped hr s
    rw [atRest] at stopped
    cases stopped

/-- Exactly what a broadcast does that comes to its end, whatever subscribers it finds: each of
them has one turn, and nothing else happens to them but what their own receiving ends do.  On
the way there, the hub never waits but, under the policy for that, for a queue in use that has
no room. -/
theorem broadcast_isEffect
    (hp : (h₀.broadcast packet).perform? actions = some (h, events))
    (alone : begun events = []) (atRest : h.phase = .ready) :
    IsEffect h₀ packet events h ∧
      ∀ earlier later mid past, actions = earlier ++ later →
        (h₀.broadcast packet).perform? earlier = some (mid, past) → mid.phase ≠ .ready →
        (mid.work? = none ↔ h₀.config.policy = .block ∧ mid.isOverdue = false ∧
          ∃ id, HoldsUp h₀ past id) := by
  have o : Over h₀ packet events h := by
    cases perform?_course (.midway _ (midway_broadcast h₀ packet)) hp alone with
    | settled o => exact o
    | midway b m =>
      have delivering := m.delivering
      rw [atRest] at delivering
      cases delivering
    | stopped s =>
      rw [atRest] at s
      cases s
  obtain ⟨order, samePacket, told⟩ := o.complete
  rw [members_roll] at order
  have effect : IsEffect h₀ packet events h :=
    { turns := order
      samePacket
      served := fun _ registered => o.served hp alone registered
      others := fun _ notRegistered => o.others hp notRegistered
      removals := told
      registeredIds := o.registeredIds
      closedFirst := fun _ _ _ split closed => o.closedFirst hp alone split closed
      nextId := o.nextId
      config := o.config
      tally := o.tally }
  exact ⟨effect, fun _ _ _ _ path first notReady =>
    work?_eq_none_of_ready hp alone atRest path first notReady⟩

/-- With room for one packet each, the hub waits for subscriber 1, which makes room, and for
subscriber 3, which closes instead.  Subscriber 0 had closed before, with a full queue. -/
theorem broadcast_isEffect_block :
    ∃ h₀ h events, h₀.config = ⟨0, 1, .block, 1000⟩ ∧
      h₀.subscribers = [⟨[[9]], false, true, 1, 0⟩, ⟨[[8]], true, true, 1, 0⟩, .fresh,
        ⟨[[7]], true, true, 1, 0⟩] ∧
      (h₀.broadcast [1]).perform? [.work, .take 1, .work, .work, .close 3, .work, .work] =
        some (h, events) ∧
      begun events = [] ∧ h.phase = .ready ∧
      h.subscribers = [⟨[[9]], false, false, 1, 0⟩, ⟨[[1]], true, true, 2, 0⟩,
        ⟨[[1]], true, true, 1, 0⟩, ⟨[[7]], false, false, 1, 0⟩] ∧
      h.registeredIds = [1, 2] ∧ removals events = [(0, .closed), (3, .closed)] ∧
      IsEffect h₀ [1] events h := by
  obtain ⟨h₀, h, events, config, subscribers, hp, alone, atRest, left, registeredIds, told⟩ :
      ∃ h₀ h events, h₀.config = ⟨0, 1, .block, 1000⟩ ∧
      h₀.subscribers = [⟨[[9]], false, true, 1, 0⟩, ⟨[[8]], true, true, 1, 0⟩, .fresh,
        ⟨[[7]], true, true, 1, 0⟩] ∧
      (h₀.broadcast [1]).perform? [.work, .take 1, .work, .work, .close 3, .work, .work] =
        some (h, events) ∧
      begun events = [] ∧ h.phase = .ready ∧
      h.subscribers = [⟨[[9]], false, false, 1, 0⟩, ⟨[[1]], true, true, 2, 0⟩,
        ⟨[[1]], true, true, 1, 0⟩, ⟨[[7]], false, false, 1, 0⟩] ∧
      h.registeredIds = [1, 2] ∧ removals events = [(0, .closed), (3, .closed)] :=
    ⟨{ start ⟨0, 1, .block, 1000⟩ with
        subscribers := [⟨[[9]], false, true, 1, 0⟩, ⟨[[8]], true, true, 1, 0⟩, .fresh,
          ⟨[[7]], true, true, 1, 0⟩] },
      _, _, rfl, rfl, rfl, rfl, rfl, rfl, rfl, rfl⟩
  exact ⟨h₀, h, events, config, subscribers, hp, alone, atRest, left, registeredIds, told,
    (broadcast_isEffect hp alone atRest).1⟩

end Effect

end Hub

end VideoRelay

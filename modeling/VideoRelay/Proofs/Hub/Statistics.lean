/-
What the hub's counters say.

* `audiences`, `skippedFor`, `removedFor` — how many subscribers each packet met, what
  was left out for whom, and who was removed for what;
* `Counts`, `Run.tallied` — every step adds to the counters what its events count;
* `Settled`, `Run.settled` — whoever is registered when a packet is taken up has one
  turn with it, and a turn that ends the subscription is followed by the removal;
* `Run.registeredCount_add` — nobody is removed twice;
* `ReportIsExact`, `report_isExact` — so what a caller is told are the counts of the
  history, and no packet in them is half delivered.

Design notes: a turn that finds a queue closed or full is counted where it happens, the
removal for it at the end of the round.  In between the broadcast under way has the
subscriber on one of its lists, and `Hub.roundSize` is what is on them.
-/
import Mathlib.Data.List.Perm.Basic
import VideoRelay.Proofs.Hub.Answers
import VideoRelay.Proofs.Hub.Rounds
import VideoRelay.Proofs.Hub.Turns

namespace VideoRelay

namespace Hub

/-! ### Counts of a history -/

/-- How many subscribers are registered when an event takes up a packet after `past`. -/
def audience? (past : List Event) (e : Event) : Option Nat :=
  e.begunPacket?.map fun _ => (members past).length

/-- For each packet taken up, how many subscribers were registered then. -/
def audiences (history : List Event) : List Nat := viewFrom audience? [] history

/-- The packets left out for `id`. -/
def skippedFor (id : Nat) (history : List Event) : List Packet :=
  ((turnsOf id history).filter (·.outcome = .skipped)).map (·.packet)

/-- The subscribers removed for `reason`. -/
def removedFor (reason : Removal) (history : List Event) : List Nat :=
  ((removals history).filter (·.2 = reason)).map (·.1)

/-- How many Register commands were taken up. -/
def registers (history : List Event) : Nat := (begun history).countP (·.command = .register)

theorem audiences_append (history events : List Event) :
    audiences (history ++ events) = audiences history ++ viewFrom audience? history events :=
  viewFrom_append [] history events

/-- No packet, no audience. -/
theorem audiences_append_eq {events : List Event} (noPacket : begunPackets events = [])
    (history : List Event) : audiences (history ++ events) = audiences history := by
  rw [begunPackets, List.filterMap_eq_nil_iff] at noPacket
  have none : viewFrom audience? history events = [] :=
    viewFrom_eq_nil (fun e mem past => by rw [audience?, noPacket e mem]; rfl) history
  rw [audiences_append, none, List.append_nil]

theorem removedFor_append (reason : Removal) (history events : List Event) :
    removedFor reason (history ++ events) =
      removedFor reason history ++ removedFor reason events := by
  rw [removedFor, removals_append, List.filter_append, List.map_append]
  rfl

theorem removedFor_eq_nil {events : List Event} (none : removals events = []) (reason : Removal) :
    removedFor reason events = [] := by
  rw [removedFor, none]
  rfl

theorem registers_append (history events : List Event) :
    registers (history ++ events) = registers history + registers events := by
  rw [registers, begun_append, List.countP_append]
  rfl

/-- A turn ends in one of four ways. -/
theorem length_turns (history : List Event) :
    (turns history).length = (endedWith .queued history).length +
      (endedWith .skipped history).length + (endedWith .refused history).length +
      (endedWith .overflowed history).length := by
  simp only [endedWith, List.length_map]
  induction turns history with
  | nil => rfl
  | cons t ts ih =>
    obtain ⟨id, packet, outcome⟩ := t
    cases outcome <;> simp [ih] <;> omega

theorem countP_lt_succ {α : Type} (l : List α) (f : α → Nat) (n : Nat) :
    l.countP (f · < n + 1) = l.countP (f · < n) + l.countP (f · = n) := by
  induction l with
  | nil => rfl
  | cons a l ih =>
    rw [List.countP_cons, List.countP_cons, List.countP_cons, ih]
    grind

/-- What is counted one by one for the numbers below `n` is counted in all. -/
theorem total_countP_range {α : Type} (l : List α) (f : α → Nat) (n : Nat) :
    total ((List.range n).map fun i => l.countP (f · = i)) = l.countP (f · < n) := by
  induction n with
  | zero => simp [total]
  | succ n ih =>
    rw [List.range_succ, List.map_append, total_append, ih, countP_lt_succ]
    rfl

/-! ### The counters -/

/-- A step adds to the counters what its events count. -/
structure Counts (h : Hub) (events : List Event) (h' : Hub) : Prop where
  packets : h'.tally.packetsReceived = h.tally.packetsReceived + (begunPackets events).length
  bytes : h'.tally.bytesReceived =
    h.tally.bytesReceived + total ((begunPackets events).map List.length)
  subscribers : h'.tally.totalSubscribers = h.tally.totalSubscribers + registers events
  dropped : h'.tally.packetsDropped =
    h.tally.packetsDropped + (endedWith .skipped events).length
  disconnected : h'.tally.disconnected =
    h.tally.disconnected + (removedFor .overflow events).length

section Steps

variable {h h' : Hub} {history events : List Event}

/-- Events that count for nothing. -/
theorem Counts.silent (tally : h'.tally = h.tally) (noPacket : begunPackets events = [])
    (noRegister : registers events = 0) (noTurn : turns events = [])
    (noOverflow : removedFor .overflow events = []) : Counts h events h' := by
  constructor
  · rw [tally, noPacket, List.length_nil, Nat.add_zero]
  · rw [tally, noPacket, List.map_nil, total, Nat.add_zero]
  · rw [tally, noRegister, Nat.add_zero]
  · rw [tally, endedWith_eq_nil noTurn, List.length_nil, Nat.add_zero]
  · rw [tally, noOverflow, List.length_nil, Nat.add_zero]

theorem registers_eq_zero (none : begun events = []) : registers events = 0 := by
  rw [registers, none]
  rfl

theorem BeginStep.counts {request : Request} {rest : List Request}
    (s : BeginStep h rest request events h') : Counts h (.began request :: events) h' := by
  cases s with
  | packet ticket packet => exact ⟨rfl, rfl, rfl, rfl, rfl⟩
  | register ticket awaited => exact ⟨rfl, rfl, rfl, rfl, rfl⟩
  | abandon ticket gone => exact ⟨rfl, rfl, rfl, rfl, rfl⟩
  | unregister ticket id =>
    have q := remove_quiet { h with commands := rest } id .unregistered
    have u := remove_uncalled { h with commands := rest } id .unregistered
    refine .silent rfl ?_ ?_ ?_ ?_
    · rw [begunPackets_cons, q.begunPackets]
      rfl
    · rw [registers, begun_cons, u.begun]
      rfl
    · rw [turns_cons, q.turns]
      rfl
    · rw [removedFor, removals_cons, removals_remove]
      split <;> rfl
  | stats ticket awaited => exact ⟨rfl, rfl, rfl, rfl, rfl⟩
  | statsUnread ticket gone => exact ⟨rfl, rfl, rfl, rfl, rfl⟩

/-- Whoever was found full is removed for it, and whoever was found closed for that. -/
theorem UnderWay.removedFor_finish {b : Broadcast} (u : UnderWay h b)
    (noneLeft : b.remaining = []) :
    removedFor .overflow (h.finish b).2 = b.overflowed ∧
      removedFor .closed (h.finish b).2 = b.closed := by
  rw [removedFor, removedFor, u.removals_finish noneLeft]
  simp [List.filter_append, List.filter_map, Function.comp_def]

theorem registers_stop (why : StopCause h events) : registers (events ++ h.stop.2) = 0 := by
  rw [registers_append, registers_eq_zero (begun_stop h)]
  cases why <;> rfl

theorem WorkStep.counts (o : Orderly h) (s : WorkStep h events h') : Counts h events h' := by
  cases s with
  | turn b id rest s outcome delivering front found fits =>
    have none := turn_uncalled ⟨id, b.packet, outcome⟩
    have packets := begunPackets_turn ⟨id, b.packet, outcome⟩
    have removed := removedFor_eq_nil (removals_turn ⟨id, b.packet, outcome⟩) .overflow
    constructor
    · rw [packets]
      cases outcome <;> rfl
    · rw [packets]
      cases outcome <;> rfl
    · rw [registers_eq_zero none.begun]
      cases outcome <;> rfl
    · rw [endedWith_turn]
      cases outcome <;> rfl
    · rw [removed]
      cases outcome <;> rfl
  | pass b id rest delivering front unknown => exact ⟨rfl, rfl, rfl, rfl, rfl⟩
  | finish b delivering noneLeft =>
    have q := finish_quiet h b
    have full := ((o.underWay b delivering).removedFor_finish noneLeft).1
    rw [finish_fst]
    constructor
    · rw [q.begunPackets]
      rfl
    · rw [q.begunPackets]
      rfl
    · rw [registers_eq_zero (finish_uncalled h b).begun]
      rfl
    · rw [endedWith_eq_nil q.turns]
      rfl
    · rw [full]
      rfl
  | «begin» request rest events h' ready inTime front s => exact s.counts
  | stop cause why =>
    have q : Quiet (cause ++ h.stop.2) := why.quiet.append (stop_quiet h)
    exact .silent rfl q.begunPackets (registers_stop why) q.turns
      (removedFor_eq_nil why.removals _)

theorem Transition.counts {action : Action} (o : Orderly h)
    (t : Transition h action events h') : Counts h events h' := by
  cases t with
  | caller s =>
    exact .silent s.frame.2.2.2 s.quiet.begunPackets (registers_eq_zero s.begun) s.quiet.turns
      (removedFor_eq_nil s.removals _)
  | reader s =>
    refine .silent (by rw [s.frame]) ?_ (registers_eq_zero s.uncalled.begun) ?_ ?_
    · cases s <;> rfl
    · cases s <;> rfl
    · cases s <;> rfl
  | work own s => exact s.counts o

end Steps

/-- The counters are the counts of the history. -/
structure Tallied (history : List Event) (h : Hub) : Prop where
  packets : h.tally.packetsReceived = (begunPackets history).length
  bytes : h.tally.bytesReceived = total ((begunPackets history).map List.length)
  subscribers : h.tally.totalSubscribers = registers history
  dropped : h.tally.packetsDropped = (endedWith .skipped history).length
  disconnected : h.tally.disconnected = (removedFor .overflow history).length

theorem Tallied.append {history events : List Event} {h h' : Hub} (t : Tallied history h)
    (c : Counts h events h') : Tallied (history ++ events) h' := by
  constructor
  · rw [c.packets, t.packets, begunPackets_append, List.length_append]
  · rw [c.bytes, t.bytes, begunPackets_append, List.map_append, total_append]
  · rw [c.subscribers, t.subscribers, registers_append]
  · rw [c.dropped, t.dropped, endedWith_append, List.length_append]
  · rw [c.disconnected, t.disconnected, removedFor_append, List.length_append]

theorem Run.tallied {config : HubConfig} {history : List Event} {h : Hub}
    (run : Run config history h) : Tallied history h := by
  induction run with
  | start => exact ⟨rfl, rfl, rfl, rfl, rfl⟩
  | step run hs ih => exact ih.append ((Transition.of_step? hs).counts run.orderly)

/-! ### The balance of turns -/

/-- How many subscribers are on one of the lists of the broadcast under way. -/
def roundSize (h : Hub) (list : Broadcast → List Nat) : Nat :=
  match h.phase with
  | .delivering b => (list b).length
  | .ready | .stopped => 0

theorem roundSize_of_delivering {h : Hub} {b : Broadcast} (delivering : h.phase = .delivering b)
    (list : Broadcast → List Nat) : h.roundSize list = (list b).length := by
  rw [roundSize, delivering]

theorem roundSize_of_ready {h : Hub} (ready : h.phase = .ready) (list : Broadcast → List Nat) :
    h.roundSize list = 0 := by
  rw [roundSize, ready]

/-- A turn with this outcome puts the subscriber on `list`, and whoever is on it is removed
for `reason` at the end of the round. -/
structure EndsFor (outcome : Outcome) (reason : Removal) (list : Broadcast → List Nat) :
    Prop where
  fresh : ∀ packet ids, list ⟨packet, ids, [], []⟩ = []
  grows : ∀ b id o, list (b.afterOutcome id o) = list b ++ if o = outcome then [id] else []
  removed : ∀ {h b}, UnderWay h b → b.remaining = [] → removedFor reason (h.finish b).2 = list b
  inRound : reason ≠ .unregistered ∧ reason ≠ .abandoned

theorem endsFor_closed : EndsFor .refused .closed (·.closed) where
  fresh _ _ := rfl
  grows _ _ o := by cases o <;> simp [Broadcast.afterOutcome, Broadcast.afterTurn]
  removed u noneLeft := (u.removedFor_finish noneLeft).2
  inRound := ⟨nofun, nofun⟩

theorem endsFor_overflow : EndsFor .overflowed .overflow (·.overflowed) where
  fresh _ _ := rfl
  grows _ _ o := by cases o <;> simp [Broadcast.afterOutcome, Broadcast.afterTurn]
  removed u noneLeft := (u.removedFor_finish noneLeft).1
  inRound := ⟨nofun, nofun⟩

/-- Whoever was registered for a packet has had its turn with it or is still to have it,
and whose subscription ended with a turn is removed or soon will be. -/
structure Settled (history : List Event) (h : Hub) : Prop where
  turns : h.phase ≠ .stopped →
    total (audiences history) = (turns history).length + h.roundSize (·.remaining)
  ended : ∀ {outcome reason list}, EndsFor outcome reason list → h.phase ≠ .stopped →
    (endedWith outcome history).length =
      (removedFor reason history).length + h.roundSize list

section Steps

variable {h h' : Hub} {history events : List Event}

/-- A step that is no business of any broadcast. -/
theorem Settled.congr (s : Settled history h) (phase : h'.phase = h.phase)
    (noPacket : begunPackets events = []) (noTurn : Hub.turns events = [])
    (noneRemoved : ∀ reason, reason ≠ .unregistered ∧ reason ≠ .abandoned →
      removedFor reason events = []) : Settled (history ++ events) h' := by
  have size : h'.roundSize = h.roundSize := by
    funext list
    rw [roundSize, roundSize, phase]
  constructor
  · rw [phase, size, audiences_append_eq noPacket, turns_append, noTurn, List.append_nil]
    exact s.turns
  · intro outcome reason list ends
    rw [phase, size, endedWith_append, endedWith_eq_nil noTurn, removedFor_append,
      noneRemoved reason ends.inRound, List.append_nil, List.append_nil]
    exact s.ended ends

/-- A packet is taken up for everybody registered. -/
theorem Settled.packet (s : Settled history h) (members_eq : members history = h.registeredIds)
    (ready : h.phase = .ready) {ticket : Nat} {packet : Packet}
    (delivering : h'.phase = .delivering ⟨packet, h.registeredIds, [], []⟩) :
    Settled (history ++ [.began ⟨ticket, .packet packet⟩]) h' := by
  have live : h.phase ≠ .stopped := by simp [ready]
  constructor
  · intro _
    have before := s.turns live
    rw [roundSize_of_ready ready] at before
    rw [audiences_append, total_append, before, turns_append, roundSize_of_delivering delivering]
    simp [viewFrom, audience?, members_eq, total]
  · intro outcome reason list ends _
    have before := s.ended ends live
    rw [roundSize_of_ready ready] at before
    rw [endedWith_append, removedFor_append, roundSize_of_delivering delivering, ends.fresh]
    simpa [endedWith, removedFor] using before

/-- A turn, for which somebody will have to go if it ended the subscription. -/
theorem Settled.turn (s : Settled history h) {b : Broadcast} {id : Nat} {rest : List Nat}
    {outcome : Outcome} (delivering : h.phase = .delivering b) (front : b.remaining = id :: rest)
    (delivering' : h'.phase = .delivering (b.afterOutcome id outcome)) :
    Settled (history ++ [Turn.event ⟨id, b.packet, outcome⟩]) h' := by
  have live : h.phase ≠ .stopped := by simp [delivering]
  constructor
  · intro _
    have before := s.turns live
    rw [roundSize_of_delivering delivering, front, List.length_cons] at before
    rw [audiences_append_eq (begunPackets_turn _), before, turns_append, turns_cons, turn?_event,
      roundSize_of_delivering delivering', remaining_afterOutcome, front, List.tail_cons]
    simp
    omega
  · intro o reason list ends _
    have before := s.ended ends live
    rw [roundSize_of_delivering delivering] at before
    -- The turn and the place on the list come together.
    rw [endedWith_append, endedWith_turn, List.length_append, before, removedFor_append,
      removedFor_eq_nil (removals_turn _), List.append_nil, roundSize_of_delivering delivering',
      ends.grows, List.length_append, Nat.add_assoc]

/-- The end of a broadcast, at which those go who have to. -/
theorem Settled.finish (s : Settled history h) {b : Broadcast} (u : UnderWay h b)
    (delivering : h.phase = .delivering b) (noneLeft : b.remaining = []) :
    Settled (history ++ (h.finish b).2) (h.finish b).1 := by
  have live : h.phase ≠ .stopped := by simp [delivering]
  have ready : (h.finish b).1.phase = .ready := by rw [finish_fst]
  have q := finish_quiet h b
  constructor
  · intro _
    have before := s.turns live
    rw [roundSize_of_delivering delivering, noneLeft] at before
    rw [audiences_append_eq q.begunPackets, turns_append, q.turns, roundSize_of_ready ready,
      List.append_nil, before]
    rfl
  · intro outcome reason list ends _
    rw [endedWith_append, endedWith_eq_nil q.turns, List.append_nil, s.ended ends live,
      removedFor_append, ends.removed u noneLeft, List.length_append, roundSize_of_ready ready,
      roundSize_of_delivering delivering]
    rfl

theorem BeginStep.settled {request : Request} {rest : List Request}
    (members_eq : members history = h.registeredIds) (ready : h.phase = .ready)
    (s : Settled history h) (b : BeginStep h rest request events h') :
    Settled (history ++ .began request :: events) h' := by
  cases b with
  | packet ticket packet => exact s.packet members_eq ready rfl
  | register ticket awaited => exact s.congr rfl rfl rfl fun _ _ => rfl
  | abandon ticket gone =>
    refine s.congr rfl rfl rfl fun reason inRound => ?_
    simp [removedFor, Ne.symm inRound.2]
  | unregister ticket id =>
    have q : Quiet (Event.began ⟨ticket, .unregister id⟩ ::
        ({ h with commands := rest }.remove id .unregistered).2) :=
      .cons rfl (remove_quiet _ _ _)
    refine s.congr rfl q.begunPackets q.turns fun reason inRound => ?_
    rw [removedFor, removals_cons, removals_remove]
    split <;> simp [Ne.symm inRound.1]
  | stats ticket awaited => exact s.congr rfl rfl rfl fun _ _ => rfl
  | statsUnread ticket gone => exact s.congr rfl rfl rfl fun _ _ => rfl

theorem Transition.settled {action : Action} (o : Orderly h)
    (members_eq : members history = h.registeredIds) (s : Settled history h)
    (t : Transition h action events h') : Settled (history ++ events) h' := by
  cases t with
  | caller c =>
    exact s.congr c.frame.2.1 c.quiet.begunPackets c.quiet.turns fun reason _ =>
      removedFor_eq_nil c.removals reason
  | reader r =>
    refine s.congr (by rw [r.frame]) ?_ ?_ fun _ _ => ?_ <;> cases r <;> rfl
  | work own w =>
    cases w with
    | turn b id rest sub outcome delivering front found fits =>
      exact s.turn delivering front rfl
    | pass b id rest delivering front unknown =>
      obtain ⟨sub, found⟩ := (o.underWay b delivering).found (front ▸ List.mem_cons_self)
      rw [unknown] at found
      cases found
    | finish b delivering noneLeft => exact s.finish (o.underWay b delivering) delivering noneLeft
    | «begin» request rest events h' ready inTime front b => exact b.settled members_eq ready s
    | stop cause why => exact ⟨fun live => (live rfl).elim, fun _ live => (live rfl).elim⟩

/-- Whoever is removed was not removed before, nor is removed twice at once. -/
theorem Transition.removes {action : Action} (o : Orderly h) (t : Transition h action events h') :
    (removed events).Nodup ∧ ∀ id ∈ removed events, (h.entry id).isRegistered = true := by
  have silent : ∀ {events : List Event}, removed events = [] →
      (removed events).Nodup ∧ ∀ id ∈ removed events, (h.entry id).isRegistered = true := by
    intro events none
    rw [none]
    exact ⟨List.nodup_nil, nofun⟩
  cases t with
  | caller s => exact silent s.removed
  | reader s => exact silent (by cases s <;> rfl)
  | work own s =>
    cases s with
    | turn b id rest s outcome delivering front found fits => exact silent (removed_turn _)
    | pass b id rest delivering front unknown => exact silent rfl
    | finish b delivering noneLeft =>
      have u := o.underWay b delivering
      have nodup := u.nodup
      rw [noneLeft, List.append_nil] at nodup
      rw [u.removed_finish noneLeft]
      refine ⟨nodup, fun id mem => ?_⟩
      have registered := u.registered id mem
      rw [isRegistered_eq, Bool.and_eq_true] at registered
      exact registered.2
    | «begin» request rest events h' ready inTime front s =>
      cases s with
      | packet | register | stats | statsUnread => exact silent rfl
      | abandon ticket gone =>
        have one : removed [.began ⟨ticket, .register⟩, .registered ticket h.nextId,
            .removed h.nextId .abandoned 0 0 h.registeredCount] = [h.nextId] := rfl
        rw [one]
        refine ⟨List.pairwise_singleton _ _, fun id mem => ?_⟩
        -- The number is new, and so would be its entry.
        rw [List.mem_singleton.mp mem, Hub.entry, nextId, List.getElem?_eq_none (Nat.le_refl _)]
        rfl
      | unregister ticket id =>
        have told : removed (.began ⟨ticket, .unregister id⟩ ::
            ({ h with commands := rest }.remove id .unregistered).2) =
            if h.isRegistered id then [id] else [] := by
          rw [removed, removals_cons, removals_remove]
          show _ = if Hub.isRegistered { h with commands := rest } id then [id] else []
          split <;> rfl
        rw [told]
        split
        · rename_i registered
          refine ⟨List.pairwise_singleton _ _, fun i mem => ?_⟩
          rw [isRegistered_eq, Bool.and_eq_true] at registered
          rw [List.mem_singleton.mp mem]
          exact registered.2
        · exact ⟨List.nodup_nil, nofun⟩
    | stop cause why => exact silent (by rw [removed_append, why.removed, stop_removed]; rfl)

/-- A Register command registers a subscriber, and nothing else does. -/
theorem Transition.registers_eq {action : Action} (t : Transition h action events h') :
    registers events = (registrations events).length := by
  rcases t.registration with nobody | ⟨ticket, more, rfl, none, noneBegun, -⟩
  · rw [nobody.none, registers, List.countP_eq_zero.mpr]
    · rfl
    · intro r mem
      simpa using nobody.noCommand r mem
  · rw [registers, begun_cons, begun_cons, noneBegun, registrations_cons, registrations_cons, none]
    rfl

end Steps

section Runs

variable {config : HubConfig} {past history rest : List Event} {h : Hub}

theorem Run.settled (run : Run config history h) : Settled history h := by
  induction run with
  | start => exact ⟨fun _ => rfl, fun _ _ => rfl⟩
  | step run hs ih => exact (Transition.of_step? hs).settled run.orderly run.members_eq ih

/-- Nobody is removed twice. -/
theorem Run.nodup_removed (run : Run config history h) : (removed history).Nodup := by
  induction run with
  | start => exact List.nodup_nil
  | step run hs ih =>
    obtain ⟨nodup, registered⟩ := (Transition.of_step? hs).removes run.orderly
    rw [removed_append]
    refine List.nodup_append.mpr ⟨ih, nodup, ?_⟩
    rintro id before _ now rfl
    exact (run.account id).isRegistered.mp (registered id now) before

/-- Only who was registered is removed. -/
theorem Run.removed_subset (run : Run config history h) :
    removed history ⊆ registrations history := by
  intro id mem
  rw [run.registrations_eq, List.mem_range]
  by_contra unknown
  -- A number that is still to be given stands for an entry that would be registered.
  refine (run.account id).isRegistered.mp ?_ mem
  rw [entry, List.getElem?_eq_none (Nat.not_lt.mp unknown)]
  rfl

theorem map_entry (h : Hub) : (List.range h.nextId).map h.entry = h.subscribers := by
  apply List.ext_getElem (by rw [List.length_map, List.length_range]; rfl)
  intro i _ known
  rw [List.getElem_map, List.getElem_range, entry, List.getElem?_eq_getElem known]
  rfl

theorem length_registeredIds (h : Hub) : h.registeredIds.length = h.registeredCount := by
  rw [registeredCount, ← map_entry, List.countP_map, registeredIds, ← List.countP_eq_length_filter]
  apply List.countP_congr
  intro id mem
  rw [isRegistered_eq, decide_eq_true (List.mem_range.mp mem), Bool.true_and]
  rfl

/-- Whoever was registered is still registered or was removed, once. -/
theorem Run.registeredCount_add (run : Run config history h) :
    h.registeredCount + (removed history).length = h.nextId := by
  have once : ((registrations history).filter (· ∈ removed history)).Perm (removed history) := by
    rw [List.perm_ext_iff_of_nodup ?_ run.nodup_removed]
    · intro id
      rw [List.mem_filter, decide_eq_true_eq, and_iff_right_iff_imp]
      exact fun mem => run.removed_subset mem
    · rw [run.registrations_eq]
      exact List.nodup_range.filter _
  have parts := (registrations history).length_eq_length_filter_add (· ∉ removed history)
  simp only [decide_not, Bool.not_not] at parts
  rw [once.length_eq] at parts
  have all : (registrations history).length = h.nextId := by
    rw [run.registrations_eq, List.length_range]
  rw [← length_registeredIds, ← run.members_eq, ← all, parts, members]
  simp

/-- Every Register command taken up has registered somebody. -/
theorem Run.registers_eq (run : Run config history h) : registers history = h.nextId := by
  have each : registers history = (registrations history).length := by
    induction run with
    | start => rfl
    | step run hs ih =>
      rw [registers_append, ih, registrations_append, List.length_append,
        (Transition.of_step? hs).registers_eq]
  rw [each, run.registrations_eq, List.length_range]

/-- Nobody has a turn before it is registered. -/
theorem Run.id_lt_nextId (run : Run config history h) {t : Turn} (mem : t ∈ turns history) :
    t.id < h.nextId := by
  by_contra unknown
  have new : t.id ∉ registrations history := by
    rw [run.registrations_eq, List.mem_range]
    exact unknown
  have none := (run.served t.id).inOrder
  rw [packetsSince_of_not_mem new, List.prefix_nil, List.map_eq_nil_iff] at none
  have own : t ∈ turnsOf t.id history := List.mem_filter.mpr ⟨mem, decide_eq_true rfl⟩
  rw [none] at own
  cases own

/-- What was left out for each subscriber is what was left out in all. -/
theorem Run.total_skippedFor (run : Run config history h) :
    total ((registrations history).map fun id => (skippedFor id history).length) =
      (endedWith .skipped history).length := by
  have each : (fun id => (skippedFor id history).length) = fun id =>
      ((turns history).filter (·.outcome = .skipped)).countP (·.id = id) := by
    funext id
    rw [skippedFor, List.length_map, turnsOf, List.countP_eq_length_filter, List.filter_comm]
  rw [run.registrations_eq, each, total_countP_range, endedWith, List.length_map,
    List.countP_eq_length]
  intro t mem
  exact decide_eq_true (run.id_lt_nextId (List.mem_filter.mp mem).1)

/-- A turn ends as the policy has it, so where the policy is another one none does. -/
theorem Run.endedWith_eq_nil (run : Run config history h) (outcome : Outcome)
    (never : ∀ s : Subscriber, ¬outcome.Fits config s) : endedWith outcome history = [] := by
  rw [endedWith, List.map_eq_nil_iff, List.filter_eq_nil_iff]
  intro t mem ended
  obtain ⟨s, fits⟩ := run.turn_fits mem
  exact never s (of_decide_eq_true ended ▸ fits)

/-! ### Reports -/

/-- What a caller is told are the counts of `history`, all commands of which were
applied to the end. -/
structure ReportIsExact (config : HubConfig) (history : List Event) (stats : HubStats) : Prop where
  whole : ∀ request ∈ begun history, Applied history request
  packets : stats.packetsReceived = (begunPackets history).length
  bytes : stats.bytesReceived = total ((begunPackets history).map List.length)
  subscribers : stats.totalSubscribers = (begun history).countP (·.command = .register)
  active : stats.activeSubscribers + (removed history).length = stats.totalSubscribers
  once : (removed history).Nodup
  disconnected : stats.subscribersDisconnected = (removedFor .overflow history).length
  dropped : stats.packetsDropped =
    total ((registrations history).map fun id => (skippedFor id history).length)
  /-- What became of each packet for each of those registered for it. -/
  balance : total (audiences history) =
    (endedWith .queued history).length + stats.packetsDropped +
      (removedFor .closed history).length + stats.subscribersDisconnected
  onlyDropping : config.policy ≠ .dropNewest → stats.packetsDropped = 0
  onlyDisconnecting : config.policy ≠ .disconnect → stats.subscribersDisconnected = 0

/-- Between broadcasts the counters are exact. -/
theorem Run.report_of_ready (run : Run config history h) (ready : h.phase = .ready) :
    ReportIsExact config history h.report := by
  have live : h.phase ≠ .stopped := by simp [ready]
  have t := run.tallied
  have s := run.settled
  have turns := s.turns live
  have closed := s.ended endsFor_closed live
  have full := s.ended endsFor_overflow live
  rw [roundSize_of_ready ready] at turns closed full
  refine ⟨run.progress.all ready, t.packets, t.bytes, t.subscribers, ?_, run.nodup_removed,
    t.disconnected, ?_, ?_, fun policy => ?_, fun policy => ?_⟩
  · show h.registeredCount + _ = h.tally.totalSubscribers
    rw [run.registeredCount_add, t.subscribers, run.registers_eq]
  · rw [run.total_skippedFor]
    exact t.dropped
  · show _ = _ + h.tally.packetsDropped + _ + h.tally.disconnected
    rw [t.dropped, t.disconnected, turns, length_turns, closed, full]
    omega
  · show h.tally.packetsDropped = 0
    rw [t.dropped, run.endedWith_eq_nil .skipped fun s fits => policy fits.2.2]
    rfl
  · have none := run.endedWith_eq_nil .overflowed fun s fits => policy fits.2.2
    rw [none] at full
    show h.tally.disconnected = 0
    rw [t.disconnected]
    exact full.symm

/-- Every report is exact as regards all that happened before the hub took up the call
for it. -/
theorem report_isExact {ticket : Nat} {stats : HubStats}
    (run : Run config (past ++ .returned ticket (.report stats) :: rest) h) :
    ∃ earlier, past = earlier ++ [.began ⟨ticket, .stats⟩] ∧
      ReportIsExact config earlier stats := by
  obtain ⟨h₀, action, h₁, earlier, pre, post, before, hs, rfl⟩ := run.split
  have told : .returned ticket (.report stats) ∈ pre ++ .returned ticket (.report stats) :: post :=
    List.mem_append_right _ List.mem_cons_self
  generalize counters : Reply.report stats = reply at hs told
  cases (Transition.of_step? hs).answer told with
  | report ready alone =>
    cases counters
    refine ⟨earlier, ?_, before.report_of_ready ready⟩
    -- The report is the second of the two events of its step.
    rcases List.append_eq_cons_iff.mp alone with ⟨-, first⟩ | ⟨later, rfl, second⟩
    · cases first
    · rcases List.append_eq_cons_iff.mp second.symm with ⟨rfl, -⟩ | ⟨_, -, none⟩
      · rfl
      · simp at none
  | stopped command known => cases command <;> cases counters
  | _ => cases counters

/-- Two subscribers of which one is unregistered, and a packet too many for the queue of
the other: the report says so. -/
theorem report_after_skip :
    ∃ past h,
      Run ⟨1, 1, .dropNewest, 1000⟩ (past ++ [.returned 5 (.report ⟨2, 3, 1, 2, 1, 0⟩)]) h ∧
      audiences past = [1, 1] ∧ removals past = [(1, .unregistered)] ∧
      ∃ earlier, past = earlier ++ [.began ⟨5, .stats⟩] ∧
        ReportIsExact ⟨1, 1, .dropNewest, 1000⟩ earlier ⟨2, 3, 1, 2, 1, 0⟩ := by
  obtain ⟨h, history, hp, split, met, gone⟩ : ∃ h history,
      (start ⟨1, 1, .dropNewest, 1000⟩).perform?
        [.call .register, .enqueue, .work, .call .register, .enqueue, .work,
          .call (.unregister 1), .enqueue, .work, .call (.packet [1]), .enqueue, .work, .work,
          .work, .call (.packet [2, 3]), .enqueue, .work, .work, .work, .call .stats, .enqueue,
          .work] = some (h, history) ∧
      history = history.dropLast ++ [.returned 5 (.report ⟨2, 3, 1, 2, 1, 0⟩)] ∧
      audiences history.dropLast = [1, 1] ∧ removals history.dropLast = [(1, .unregistered)] :=
    ⟨_, _, rfl, rfl, rfl, rfl⟩
  have run := run_iff_perform?.mpr ⟨_, hp⟩
  rw [split] at run
  exact ⟨history.dropLast, h, run, met, gone, report_isExact run⟩

end Runs

end Hub

end VideoRelay

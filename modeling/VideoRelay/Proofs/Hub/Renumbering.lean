/-
A subscriber that might as well not have been registered.

A number that nobody was told is of no use, but later numbers are one higher for it.

* `skip` — the numbers as they would be without it;
* `Hub.omitting`, and the same for all that has numbers in it — a hub as it would be;
* `IsAbsent` — the hub has no more to do with the subscriber;
* `Transition.omitting`, `perform?_omitting` — then every action, and every course of actions,
  comes to the same as it would without the subscriber.

Design notes: callers can ask for the removal of any number, so the number itself is mapped to
one that is never given out, `m`.  What the hub does to its entries it does by number, so each
of its functions needs one lemma about `skip`, and the steps follow case by case.
-/
import VideoRelay.Proofs.Hub.Correspondence
import VideoRelay.Proofs.Hub.Statistics
import VideoRelay.Proofs.Hub.Turns

namespace VideoRelay

namespace Hub

/-! ### Numbers without one of them -/

/-- The number in place of `i` if `n` had not been given out; `m` stands for `n`. -/
def skip (n m i : Nat) : Nat := if i < n then i else if i = n then m else i - 1

def Command.omitting (n m : Nat) : Command → Command
  | .unregister id => .unregister (skip n m id)
  | .packet data => .packet data
  | .register => .register
  | .stats => .stats
  | .shutdown => .shutdown

def Request.omitting (n m : Nat) (r : Request) : Request :=
  ⟨r.ticket, r.command.omitting n m⟩

def Tally.omitting (t : Tally) : Tally := { t with totalSubscribers := t.totalSubscribers - 1 }

def Reply.omitting (n m : Nat) : Reply → Reply
  | .subscribed id => .subscribed (skip n m id)
  | .report stats => .report { stats with totalSubscribers := stats.totalSubscribers - 1 }
  | .accepted => .accepted
  | .closed => .closed

def Broadcast.omitting (n m : Nat) (b : Broadcast) : Broadcast where
  packet := b.packet
  remaining := b.remaining.map (skip n m)
  closed := b.closed.map (skip n m)
  overflowed := b.overflowed.map (skip n m)

def Phase.omitting (n m : Nat) : Phase → Phase
  | .delivering b => .delivering (b.omitting n m)
  | .ready => .ready
  | .stopped => .stopped

def Event.omitting (n m : Nat) : Event → Event
  | .called r => .called (r.omitting n m)
  | .accepted r => .accepted (r.omitting n m)
  | .cancelled ticket => .cancelled ticket
  | .returned ticket reply => .returned ticket (reply.omitting n m)
  | .began r => .began (r.omitting n m)
  | .registered ticket id => .registered ticket (skip n m id)
  | .queued id packet => .queued (skip n m id) packet
  | .skipped id packet => .skipped (skip n m id) packet
  | .refused id packet => .refused (skip n m id) packet
  | .overflowed id packet => .overflowed (skip n m id) packet
  | .took id packet => .took (skip n m id) packet
  | .closed id => .closed (skip n m id)
  | .dropped id => .dropped (skip n m id)
  | .removed id reason given lost left => .removed (skip n m id) reason given lost left
  | .expired place => .expired place
  | .stopped subscribers packets => .stopped subscribers packets

def Action.omitting (n m : Nat) : Action → Action
  | .call command => .call (command.omitting n m)
  | .cancel ticket => .cancel ticket
  | .take id => .take (skip n m id)
  | .close id => .close (skip n m id)
  | .discard id => .discard (skip n m id)
  | .cloneHandle => .cloneHandle
  | .dropHandle => .dropHandle
  | .advance milliseconds => .advance milliseconds
  | .enqueue => .enqueue
  | .work => .work

/-- The hub as it would be if subscriber `n` had not been registered. -/
def omitting (n m : Nat) (h : Hub) : Hub :=
  { h with
    phase := h.phase.omitting n m
    commands := h.commands.map (Request.omitting n m)
    waiting := h.waiting.map (Request.omitting n m)
    subscribers := h.subscribers.eraseIdx n
    tally := h.tally.omitting }

section Skip

variable {α : Type} {n m i j : Nat}

theorem skip_inj (hi : i ≠ n) (hj : j ≠ n) (same : skip n m i = skip n m j) : i = j := by
  simp only [skip] at same
  split at same <;> split at same <;> omega

theorem skip_lt_skip (hi : i ≠ n) (hj : j ≠ n) (lt : i < j) : skip n m i < skip n m j := by
  simp only [skip]
  split <;> split <;> omega

/-- Every number but that of an omitted one comes from one. -/
theorem exists_skip (j : Nat) : ∃ i, i ≠ n ∧ skip n m i = j := by
  by_cases below : j < n
  · exact ⟨j, Nat.ne_of_lt below, if_pos below⟩
  · refine ⟨j + 1, by omega, ?_⟩
    rw [skip, if_neg (by omega), if_neg (by omega), Nat.add_sub_cancel]

theorem getElem?_eraseIdx_skip (l : List α) (other : i ≠ n) :
    (l.eraseIdx n)[skip n m i]? = l[i]? := by
  rw [List.getElem?_eraseIdx, skip]
  by_cases below : i < n
  · rw [if_pos below, if_pos below]
  · have above : ¬ i - 1 < n := by omega
    rw [if_neg below, if_neg other, if_neg above, Nat.sub_add_cancel (by omega)]

theorem eraseIdx_set_skip (l : List α) (a : α) (other : i ≠ n) :
    (l.set i a).eraseIdx n = (l.eraseIdx n).set (skip n m i) a := by
  rcases Nat.lt_or_gt_of_ne other with below | above
  · rw [List.eraseIdx_set_gt below, skip, if_pos below]
  · rw [List.eraseIdx_set_lt above, skip, if_neg (Nat.lt_asymm above), if_neg other]

end Skip

/-- Subscriber `n` is registered no more, and `m` has not been given out. -/
structure IsOut (n m : Nat) (h : Hub) : Prop where
  known : n < h.nextId
  within : h.nextId ≤ m
  notRegistered : h.isRegistered n = false

/-! ### What is read off the entries -/

section Views

variable {h : Hub} {n m : Nat}

theorem nextId_omitting (known : n < h.nextId) : (h.omitting n m).nextId = h.nextId - 1 :=
  List.length_eraseIdx_of_lt known

theorem IsOut.isRegistered (out : h.IsOut n m) (id : Nat) :
    (h.omitting n m).isRegistered (skip n m id) = h.isRegistered id := by
  by_cases other : id = n
  · -- The number in its place was never given out.
    subst other
    have beyond : (h.omitting id m).nextId ≤ m := by
      rw [nextId_omitting out.known]
      exact (Nat.sub_le _ _).trans out.within
    rw [out.notRegistered, isRegistered_eq, skip, if_neg (Nat.lt_irrefl _), if_pos rfl,
      decide_eq_false (Nat.not_lt.mpr beyond), Bool.false_and]
  · rw [Hub.isRegistered, Hub.isRegistered]
    exact congrArg _ (getElem?_eraseIdx_skip _ other)

theorem IsOut.ne (out : h.IsOut n m) {id : Nat} (registered : h.isRegistered id = true) :
    id ≠ n := by
  rintro rfl
  rw [out.notRegistered] at registered
  cases registered

theorem IsOut.registeredIds (out : h.IsOut n m) :
    (h.omitting n m).registeredIds = h.registeredIds.map (skip n m) := by
  have others : ∀ id ∈ h.registeredIds, id ≠ n := fun id mem => out.ne (mem_registeredIds.mp mem)
  have inOrder (h : Hub) : h.registeredIds.Pairwise (· < ·) := List.pairwise_lt_range.filter _
  have mapped : (h.registeredIds.map (skip n m)).Pairwise (· < ·) := by
    rw [List.pairwise_map]
    exact (inOrder h).imp_of_mem fun hi hj => skip_lt_skip (others _ hi) (others _ hj)
  -- Both lists are in order, so it is enough that the same numbers are on them.
  refine List.Perm.eq_of_pairwise (fun i j _ _ lt gt => absurd lt (Nat.lt_asymm gt))
    (inOrder _) mapped ?_
  refine (List.perm_ext_iff_of_nodup (nodup_registeredIds _) (mapped.imp Nat.ne_of_lt)).mpr ?_
  intro j
  obtain ⟨i, other, rfl⟩ := exists_skip (n := n) (m := m) j
  rw [mem_registeredIds, out.isRegistered, ← mem_registeredIds, List.mem_map]
  constructor
  · exact fun mem => ⟨i, mem, rfl⟩
  · rintro ⟨i', mem, same⟩
    rwa [skip_inj (others i' mem) other same] at mem

theorem IsOut.registeredCount (out : h.IsOut n m) :
    (h.omitting n m).registeredCount = h.registeredCount := by
  rw [← length_registeredIds, out.registeredIds, List.length_map, length_registeredIds]

end Views

/-! ### Removals -/

section Removals

variable {h : Hub} {n m : Nat}

theorem IsOut.without (out : h.IsOut n m) (ids : List Nat) : (h.without ids).IsOut n m := by
  have same : (h.without ids).nextId = h.nextId := by simp [Hub.without, nextId]
  refine ⟨same ▸ out.known, same ▸ out.within, ?_⟩
  rw [isRegistered_without, out.notRegistered, Bool.false_and]

theorem without_omitting (h : Hub) {ids : List Nat} (others : n ∉ ids) :
    (h.without ids).omitting n m = (h.omitting n m).without (ids.map (skip n m)) := by
  have entries : ((h.without ids).omitting n m).subscribers =
      ((h.omitting n m).without (ids.map (skip n m))).subscribers := by
    refine List.ext_getElem? fun j => ?_
    obtain ⟨i, other, rfl⟩ := exists_skip (n := n) (m := m) j
    have among : skip n m i ∈ ids.map (skip n m) ↔ i ∈ ids := by
      rw [List.mem_map]
      constructor
      · rintro ⟨i', mem, same⟩
        have other' : i' ≠ n := by
          rintro rfl
          exact others mem
        rwa [← skip_inj other' other same]
      · exact fun mem => ⟨i, mem, rfl⟩
    rw [getElem?_without]
    simp only [among]
    show ((h.without ids).subscribers.eraseIdx n)[skip n m i]? =
      (h.subscribers.eraseIdx n)[skip n m i]?.map _
    rw [getElem?_eraseIdx_skip _ other, getElem?_eraseIdx_skip _ other, getElem?_without]
  show { (h.without ids).omitting n m with
    subscribers := ((h.without ids).omitting n m).subscribers } = _
  rw [entries]
  rfl

theorem IsOut.remove (out : h.IsOut n m) (id : Nat) (reason : Removal) :
    (h.omitting n m).remove (skip n m id) reason =
      ((h.remove id reason).1.omitting n m,
        (h.remove id reason).2.map (Event.omitting n m)) := by
  have same := out.isRegistered id
  cases hr : h.isRegistered id with
  | false =>
    rw [remove_of_not_registered hr, remove_of_not_registered (same.trans hr)]
    rfl
  | true =>
    have other := out.ne hr
    obtain ⟨s, found, registered⟩ := isRegistered_iff.mp hr
    have found' : (h.omitting n m).subscribers[skip n m id]? = some s :=
      (getElem?_eraseIdx_skip _ other).trans found
    have alone : n ∉ [id] := by simpa using other.symm
    have moved : (h.omitting n m).without [skip n m id] = (h.without [id]).omitting n m :=
      (without_omitting h alone).symm
    rw [remove_of_registered found registered, remove_of_registered found' registered, moved,
      (out.without [id]).registeredCount]
    rfl

theorem IsOut.removeAll (out : h.IsOut n m) (reason : Removal) (ids : List Nat) :
    ((h.omitting n m).removeAll reason (ids.map (skip n m))).2 =
      (h.removeAll reason ids).2.map (Event.omitting n m) := by
  induction ids generalizing h with
  | nil => rfl
  | cons id ids ih =>
    have rest := ih (out.without [id])
    rw [← remove_fst h id reason] at rest
    rw [List.map_cons, removeAll_cons_snd, removeAll_cons_snd, out.remove, List.map_append, rest]

theorem IsOut.finish (out : h.IsOut n m) {b : Broadcast} (others : n ∉ b.closed ++ b.overflowed) :
    (h.omitting n m).finish (b.omitting n m) =
      ((h.finish b).1.omitting n m, (h.finish b).2.map (Event.omitting n m)) := by
  have closed : (h.omitting n m).without (b.closed.map (skip n m)) =
      (h.without b.closed).omitting n m :=
    (without_omitting h fun mem => others (List.mem_append_left _ mem)).symm
  have full : ((h.without b.closed).counting b.overflowed.length).IsOut n m :=
    ⟨(out.without b.closed).known, (out.without b.closed).within,
      (out.without b.closed).notRegistered⟩
  rw [Prod.ext_iff, finish_fst, finish_snd, finish_fst, finish_snd]
  refine ⟨?_, ?_⟩
  · simp only [Broadcast.omitting]
    rw [← List.map_append, List.length_map, ← without_omitting h others]
    rfl
  · simp only [Broadcast.omitting]
    rw [List.map_append, ← out.removeAll, ← full.removeAll, closed, List.length_map]
    rfl

end Removals

/-! ### Steps -/

/-- The hub has no more to do with subscriber `n`. -/
structure IsAbsent (n m : Nat) (h : Hub) : Prop extends IsOut n m h where
  empty : ∀ s, h.subscribers[n]? = some s → s.queue = []
  outOfRound : ∀ b, h.phase = .delivering b → n ∉ b.remaining ∧ n ∉ b.closed ++ b.overflowed
  counted : 0 < h.tally.totalSubscribers

section Steps

variable {h h' : Hub} {action : Action} {events : List Event} {n m : Nat}

theorem wantsAnswer_omitting (n m : Nat) (command : Command) :
    (command.omitting n m).wantsAnswer = command.wantsAnswer := by
  cases command <;> rfl

theorem whenStopped_omitting (n m : Nat) (command : Command) :
    (command.omitting n m).whenStopped = command.whenStopped.omitting n m := by
  cases command <;> rfl

theorem requestedAfter_omitting (n m : Nat) (h : Hub) (command : Command) :
    (h.omitting n m).requestedAfter (command.omitting n m) = h.requestedAfter command := by
  cases command <;> rfl

theorem phase_omitting_ne (n m : Nat) {phase : Phase} (live : phase ≠ .stopped) :
    phase.omitting n m ≠ .stopped := by
  cases phase with
  | stopped => exact absurd rfl live
  | _ => exact nofun

theorem CallerStep.omitting (n m : Nat) (s : CallerStep h action events h') :
    CallerStep (h.omitting n m) (action.omitting n m) (events.map (Event.omitting n m))
      (h'.omitting n m) := by
  cases s with
  | call command live =>
    have s : CallerStep (h.omitting n m) _ _ _ :=
      .call (command.omitting n m) (phase_omitting_ne n m live)
    show CallerStep (h.omitting n m) _ _ { h.omitting n m with
      nextTicket := h.nextTicket + 1
      requestedAt? := h.requestedAfter command
      waiting := (h.waiting ++ [(⟨h.nextTicket, command⟩ : Request)]).map
        (Request.omitting n m) }
    rw [requestedAfter_omitting] at s
    rw [List.map_append]
    exact s
  | refuse command stopped =>
    have s : CallerStep (h.omitting n m) _ _ _ :=
      .refuse (command.omitting n m) (congrArg (Phase.omitting n m) stopped)
    rw [requestedAfter_omitting, whenStopped_omitting] at s
    exact s
  | cancelWaiting ticket mem =>
    have waits : ticket ∈ (h.omitting n m).waiting.map (·.ticket) := by
      show ticket ∈ (h.waiting.map (Request.omitting n m)).map (·.ticket)
      rw [List.map_map]
      exact mem
    have s : CallerStep (h.omitting n m) _ _ _ := .cancelWaiting ticket waits
    have kept : (h.omitting n m).waiting.filter (fun r => r.ticket ≠ ticket) =
        (h.waiting.filter fun r => r.ticket ≠ ticket).map (Request.omitting n m) :=
      List.filter_map
    rw [kept] at s
    exact s
  | cancelAnswer ticket mem => exact .cancelAnswer ticket mem
  | accept request rest front room wants =>
    have front : (h.omitting n m).waiting =
        request.omitting n m :: rest.map (Request.omitting n m) :=
      congrArg (List.map (Request.omitting n m)) front
    have room : (h.omitting n m).commands.length < h.config.commandRoom := by
      simpa [Hub.omitting] using room
    have s : CallerStep (h.omitting n m) _ _ _ :=
      .accept (request.omitting n m) _ front room ((wantsAnswer_omitting n m _).trans wants)
    show CallerStep (h.omitting n m) _ _ { h.omitting n m with
      waiting := rest.map (Request.omitting n m)
      commands := (h.commands ++ [request]).map (Request.omitting n m)
      unanswered := h.unanswered ++ [request.ticket] }
    rw [List.map_append]
    exact s
  | acceptAndReturn request rest front room wants =>
    have front : (h.omitting n m).waiting =
        request.omitting n m :: rest.map (Request.omitting n m) :=
      congrArg (List.map (Request.omitting n m)) front
    have room : (h.omitting n m).commands.length < h.config.commandRoom := by
      simpa [Hub.omitting] using room
    have s : CallerStep (h.omitting n m) _ _ _ :=
      .acceptAndReturn (request.omitting n m) _ front room
        ((wantsAnswer_omitting n m _).trans wants)
    show CallerStep (h.omitting n m) _ _ { h.omitting n m with
      waiting := rest.map (Request.omitting n m)
      commands := (h.commands ++ [request]).map (Request.omitting n m) }
    rw [List.map_append]
    exact s
  | cloneHandle => exact .cloneHandle
  | dropHandle => exact .dropHandle
  | advance milliseconds => exact .advance milliseconds

/-- The entry of another after a change is found in its place. -/
theorem omitting_set (h : Hub) {id : Nat} (other : id ≠ n) (s : Subscriber) :
    { h with subscribers := h.subscribers.set id s }.omitting n m =
      { h.omitting n m with
        subscribers := (h.omitting n m).subscribers.set (skip n m id) s } := by
  show { h.omitting n m with subscribers := (h.subscribers.set id s).eraseIdx n } = _
  rw [eraseIdx_set_skip _ _ other]
  rfl

/-- With an empty queue and nobody at its receiving end nothing can be done. -/
theorem ReaderStep.omitting (empty : ∀ s, h.subscribers[n]? = some s → s.queue = [])
    (spared : action ≠ .close n ∧ action ≠ .discard n) (s : ReaderStep h action events h') :
    ReaderStep (h.omitting n m) (action.omitting n m) (events.map (Event.omitting n m))
      (h'.omitting n m) := by
  have entry {id : Nat} (other : id ≠ n) {s : Subscriber} (found : h.subscribers[id]? = some s) :
      (h.omitting n m).subscribers[skip n m id]? = some s :=
    (getElem?_eraseIdx_skip _ other).trans found
  cases s with
  | take id s packet rest found front =>
    have other : id ≠ n := by
      rintro rfl
      rw [empty s found] at front
      cases front
    rw [omitting_set h other]
    exact .take (skip n m id) s packet rest (entry other found) front
  | close id s found =>
    have other : id ≠ n := fun heq => spared.1 (heq ▸ rfl)
    rw [omitting_set h other]
    exact .close (skip n m id) s (entry other found)
  | discard id s found =>
    have other : id ≠ n := fun heq => spared.2 (heq ▸ rfl)
    rw [omitting_set h other]
    exact .discard (skip n m id) s (entry other found)

/-- A registration later on gives a number one less. -/
theorem omitting_append (absent : h.IsAbsent n m) (rest : List Request) (unanswered : List Nat)
    (s : Subscriber) :
    { h with
      commands := rest
      unanswered := unanswered
      subscribers := h.subscribers ++ [s]
      tally := { h.tally with totalSubscribers := h.tally.totalSubscribers + 1 } }.omitting n m =
    { h.omitting n m with
      commands := rest.map (Request.omitting n m)
      unanswered := unanswered
      subscribers := (h.omitting n m).subscribers ++ [s]
      tally := { (h.omitting n m).tally with
        totalSubscribers := (h.omitting n m).tally.totalSubscribers + 1 } } := by
  have longer : (h.subscribers ++ [s]).eraseIdx n = h.subscribers.eraseIdx n ++ [s] :=
    List.eraseIdx_append_of_lt_length absent.known _
  have counted : h.tally.totalSubscribers + 1 - 1 = h.tally.totalSubscribers - 1 + 1 := by
    have := absent.counted
    omega
  simp only [Hub.omitting, Tally.omitting, longer, counted]

theorem BeginStep.omitting (absent : h.IsAbsent n m) {request : Request} {rest : List Request}
    (s : BeginStep h rest request events h') :
    BeginStep (h.omitting n m) (rest.map (Request.omitting n m)) (request.omitting n m)
      (events.map (Event.omitting n m)) (h'.omitting n m) := by
  have next : (h.omitting n m).nextId = skip n m h.nextId := by
    have known := absent.known
    rw [nextId_omitting known, skip, if_neg (Nat.lt_asymm known), if_neg (Nat.ne_of_gt known)]
  cases s with
  | packet ticket packet =>
    have everybody : { h.omitting n m with
        commands := rest.map (Request.omitting n m) }.registeredIds =
        h.registeredIds.map (skip n m) := absent.registeredIds
    have same : ({ h with commands := rest }.broadcast packet).omitting n m =
        { h.omitting n m with commands := rest.map (Request.omitting n m) }.broadcast packet := by
      unfold broadcast
      rw [everybody]
      rfl
    rw [same]
    exact .packet ticket packet
  | register ticket awaited =>
    have s : BeginStep (h.omitting n m) (rest.map (Request.omitting n m)) _ _ _ :=
      .register ticket awaited
    rw [next] at s
    rw [omitting_append absent]
    exact s
  | abandon ticket gone =>
    have s : BeginStep (h.omitting n m) (rest.map (Request.omitting n m)) _ _ _ :=
      .abandon ticket gone
    rw [next, absent.registeredCount] at s
    rw [omitting_append absent]
    exact s
  | unregister ticket id =>
    have s : BeginStep (h.omitting n m) (rest.map (Request.omitting n m)) _ _ _ :=
      .unregister ticket (skip n m id)
    have out : IsOut n m { h with commands := rest } :=
      ⟨absent.known, absent.within, absent.notRegistered⟩
    have removal := out.remove id .unregistered
    have told : _ = ({ h with commands := rest }.remove id .unregistered).2.map
        (Event.omitting n m) := congrArg Prod.snd removal
    have hub := congrArg Prod.fst removal
    rw [remove_fst, remove_fst] at hub
    have same : { h.without [id] with commands := rest }.omitting n m =
        { (h.omitting n m).without [skip n m id] with
          commands := rest.map (Request.omitting n m) } := hub.symm
    rw [same, ← told]
    exact s
  | stats ticket awaited =>
    have s : BeginStep (h.omitting n m) (rest.map (Request.omitting n m)) _ _ _ :=
      .stats ticket awaited
    rw [report, absent.registeredCount] at s
    exact s
  | statsUnread ticket gone => exact .statsUnread ticket gone

end Steps

/-! ### The hub's own steps -/

section Steps

variable {h h' : Hub} {events : List Event} {n m : Nat}

theorem event_omitting (n m id : Nat) (packet : Packet) (outcome : Outcome) :
    (Turn.event ⟨id, packet, outcome⟩).omitting n m =
      Turn.event ⟨skip n m id, packet, outcome⟩ := by
  cases outcome <;> rfl

theorem afterTurn_omitting (n m : Nat) (b : Broadcast) :
    b.afterTurn.omitting n m = (b.omitting n m).afterTurn := by
  simp [Broadcast.afterTurn, Broadcast.omitting]

theorem afterOutcome_omitting (n m : Nat) (b : Broadcast) (id : Nat) (outcome : Outcome) :
    (b.afterOutcome id outcome).omitting n m =
      (b.omitting n m).afterOutcome (skip n m id) outcome := by
  cases outcome <;> simp [Broadcast.afterOutcome, Broadcast.afterTurn, Broadcast.omitting]

/-- The turn of another. -/
theorem served_omitting (h : Hub) (b : Broadcast) {id : Nat} (other : id ≠ n) (s : Subscriber)
    (outcome : Outcome) :
    (h.served b id s outcome).omitting n m =
      (h.omitting n m).served (b.omitting n m) (skip n m id) s outcome := by
  have counted : (h.tally.afterOutcome outcome).omitting =
      h.tally.omitting.afterOutcome outcome := by
    cases outcome <;> rfl
  simp only [served, Hub.omitting, Phase.omitting, afterOutcome_omitting, counted,
    eraseIdx_set_skip (m := m) _ _ other]
  rfl

theorem IsAbsent.ne_of_front (absent : h.IsAbsent n m) {b : Broadcast} {id : Nat} {rest : List Nat}
    (delivering : h.phase = .delivering b) (front : b.remaining = id :: rest) : id ≠ n := by
  rintro rfl
  exact (absent.outOfRound b delivering).1 (front ▸ List.mem_cons_self)

theorem StopCause.omitting (absent : h.IsAbsent n m) {cause : List Event}
    (why : StopCause h cause) :
    StopCause (h.omitting n m) (cause.map (Event.omitting n m)) := by
  cases why with
  | expired ready overdue => exact .expired (congrArg (Phase.omitting n m) ready) overdue
  | abandoned b id rest s delivering front found waits overdue =>
    have other := absent.ne_of_front delivering front
    exact .abandoned (b.omitting n m) (skip n m id) (rest.map (skip n m)) s
      (congrArg (Phase.omitting n m) delivering) (congrArg (List.map (skip n m)) front)
      ((getElem?_eraseIdx_skip _ other).trans found) ⟨waits.policy, waits.isOpen, waits.full⟩
      overdue
  | asked ticket rest ready inTime front =>
    exact .asked ticket (rest.map (Request.omitting n m))
      (congrArg (Phase.omitting n m) ready) inTime
      (congrArg (List.map (Request.omitting n m)) front)
  | unreachable ready inTime empty gone =>
    refine .unreachable (congrArg (Phase.omitting n m) ready) inTime
      (congrArg (List.map (Request.omitting n m)) empty) ?_
    show (decide (h.handles = 0) && (h.waiting.map (Request.omitting n m)).isEmpty &&
      h.unanswered.isEmpty) = true
    rw [List.isEmpty_map]
    exact gone

theorem stop_omitting (absent : h.IsAbsent n m) :
    (h.omitting n m).stop = (h.stop.1.omitting n m, h.stop.2.map (Event.omitting n m)) := by
  have told : (h.waiting.map (Request.omitting n m)).map
      (fun r => Event.returned r.ticket r.command.whenStopped) =
      (h.waiting.map fun r => Event.returned r.ticket r.command.whenStopped).map
        (Event.omitting n m) := by
    rw [List.map_map, List.map_map]
    refine List.map_congr_left fun r _ => ?_
    show Event.returned r.ticket (r.command.omitting n m).whenStopped = _
    rw [whenStopped_omitting]
    rfl
  refine Prod.ext rfl ?_
  show .stopped (h.omitting n m).registeredCount h.tally.packetsReceived ::
    (h.waiting.map (Request.omitting n m)).map
      (fun r => Event.returned r.ticket r.command.whenStopped) ++ _ = _
  rw [absent.registeredCount, told, stop, List.map_append, List.map_cons,
    List.map_map (l := h.unanswered)]
  rfl

theorem WorkStep.omitting (absent : h.IsAbsent n m) (s : WorkStep h events h') :
    WorkStep (h.omitting n m) (events.map (Event.omitting n m)) (h'.omitting n m) := by
  cases s with
  | turn b id rest s outcome delivering front found fits =>
    have other := absent.ne_of_front delivering front
    rw [List.map_singleton, event_omitting, served_omitting h b other]
    exact .turn (b.omitting n m) (skip n m id) (rest.map (skip n m)) s outcome
      (congrArg (Phase.omitting n m) delivering) (congrArg (List.map (skip n m)) front)
      ((getElem?_eraseIdx_skip _ other).trans found) fits
  | pass b id rest delivering front unknown =>
    have other := absent.ne_of_front delivering front
    have s := WorkStep.pass (h := h.omitting n m) (b.omitting n m) (skip n m id)
      (rest.map (skip n m)) (congrArg (Phase.omitting n m) delivering)
      (congrArg (List.map (skip n m)) front)
      ((getElem?_eraseIdx_skip _ other).trans unknown)
    rw [← afterTurn_omitting] at s
    exact s
  | finish b delivering noneLeft =>
    have s := WorkStep.finish (h := h.omitting n m) (b.omitting n m)
      (congrArg (Phase.omitting n m) delivering) (congrArg (List.map (skip n m)) noneLeft)
    rwa [absent.finish (absent.outOfRound b delivering).2] at s
  | «begin» request rest events h' ready inTime front s =>
    exact .begin (request.omitting n m) (rest.map (Request.omitting n m)) _ _
      (congrArg (Phase.omitting n m) ready) inTime
      (congrArg (List.map (Request.omitting n m)) front) (s.omitting absent)
  | stop cause why =>
    have s := WorkStep.stop (cause.map (Event.omitting n m)) (why.omitting absent)
    rw [stop_omitting absent] at s
    rwa [List.map_append]

theorem needsHandle_omitting (n m : Nat) (action : Action) :
    (action.omitting n m).needsHandle = action.needsHandle := by
  cases action <;> rfl

/-- What an action does, it does without the subscriber. -/
theorem step?_omitting {action : Action} (absent : h.IsAbsent n m) (apart : h.IsApart)
    (spared : action ≠ .close n ∧ action ≠ .discard n)
    (hs : h.step? action = some (h', events)) :
    (h.omitting n m).step? (action.omitting n m) =
      some (h'.omitting n m, events.map (Event.omitting n m)) := by
  have held : (action.omitting n m).needsHandle = true → 0 < h.handles :=
    needsHandle_omitting n m action ▸ needsHandle_of_step? hs
  have apart' : (h.omitting n m).IsApart := by
    intro ticket mem
    show ticket ∉ (h.waiting.map (Request.omitting n m)).map (·.ticket)
    rw [List.map_map]
    exact apart ticket mem
  refine Transition.step? ?_ apart' held
  cases Transition.of_step? hs with
  | caller s => exact .caller (s.omitting n m)
  | reader s => exact .reader (s.omitting absent.empty spared)
  | work own s =>
    subst own
    exact .work rfl (s.omitting absent)

end Steps

/-! ### Courses -/

section Courses

variable {config : HubConfig} {history events : List Event} {h h' : Hub} {n m : Nat}

/-- Whoever was removed has no turn any more. -/
theorem Run.turnsOf_of_removed (run : Run config (history ++ events) h)
    (gone : n ∈ removed history) : turnsOf n events = [] := by
  rw [turnsOf, List.filter_eq_nil_iff]
  intro turn mem own
  obtain rfl : turn.id = n := of_decide_eq_true own
  obtain ⟨e, mem, told⟩ := List.mem_filterMap.mp mem
  obtain rfl := turn?_eq_some.mp told
  obtain ⟨pre, post, rfl⟩ := List.append_of_mem mem
  rw [← List.append_assoc] at run
  obtain ⟨h₀, run₀, here⟩ := run.before_turn
  obtain ⟨b, later, delivering, front, -⟩ := here.inRound
  -- Whoever has a turn is registered.
  have registered : h₀.isRegistered turn.id = true :=
    (run₀.orderly.underWay b delivering).isRegistered (front ▸ List.mem_cons_self)
  obtain ⟨s, found, still⟩ := isRegistered_iff.mp registered
  refine (run₀.account_of_found found).isRegistered.mp still ?_
  rw [removed_append]
  exact List.mem_append_left _ gone

theorem queuedFor_of_turnsOf (none : turnsOf n events = []) : queuedFor n events = [] := by
  rw [queuedFor_eq, none]
  rfl

/-- A subscriber that was removed before it had a turn is absent. -/
theorem Run.isAbsent (run : Run config history h) (gone : n ∈ removed history)
    (noTurn : turnsOf n history = []) (within : h.nextId ≤ m) : h.IsAbsent n m := by
  have known := run.removed_subset gone
  rw [run.registrations_eq, List.mem_range] at known
  have notRegistered := (run.not_registered_iff known).mpr gone
  refine ⟨⟨known, within, notRegistered⟩, fun s found => ?_, fun b delivering => ?_, ?_⟩
  · have taken := (run.account_of_found found).taken
    rw [queuedFor_of_turnsOf noTurn, List.prefix_nil, List.append_eq_nil_iff] at taken
    exact taken.2
  · have u := run.orderly.underWay b delivering
    refine ⟨fun mem => ?_, fun mem => ?_⟩
    · rw [u.isRegistered mem] at notRegistered
      cases notRegistered
    · rw [u.registered n mem] at notRegistered
      cases notRegistered
  · rw [run.tallied.subscribers, run.registers_eq]
    exact Nat.zero_lt_of_lt known

/-- Every course of actions, in which nobody has the receiving end of `n`, comes to the same
without the subscriber. -/
theorem Run.perform?_omitting (run : Run config history h) (gone : n ∈ removed history)
    (noTurn : turnsOf n history = []) {actions : List Action}
    (hp : h.perform? actions = some (h', events)) (noClose : .close n ∉ actions)
    (noDiscard : .discard n ∉ actions) (within : h'.nextId ≤ m) :
    (h.omitting n m).perform? (actions.map (Action.omitting n m)) =
      some (h'.omitting n m, events.map (Event.omitting n m)) := by
  refine perform?_seen (I := fun h => ∃ history, Run config history h ∧ n ∈ removed history ∧
    turnsOf n history = []) ?_ ⟨history, run, gone, noTurn⟩ hp
  rintro h action mid events rest others ⟨history, run, gone, noTurn⟩ mem hs hr
  have within : h.nextId ≤ m :=
    ((Transition.of_step? hs).nextId_le.trans (perform?_nextId_le hr)).trans within
  have spared : action ≠ .close n ∧ action ≠ .discard n :=
    ⟨fun heq => noClose (heq ▸ mem), fun heq => noDiscard (heq ▸ mem)⟩
  have run' := run.step hs
  refine ⟨step?_omitting (run.isAbsent gone noTurn within) run.isApart spared hs, _, run', ?_, ?_⟩
  · rw [removed_append]
    exact List.mem_append_left _ gone
  · rw [turnsOf_append, noTurn, run'.turnsOf_of_removed gone]
    rfl

end Courses

end Hub

end VideoRelay

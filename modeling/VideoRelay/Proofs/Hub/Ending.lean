/-
The end of a subscription, as its receiving end finds it.

* `available_eq_ended` — nothing is queued, and nothing will be;
* `Transition.available_ended`, `perform?_available_ended` — whoever has found the end finds it
  ever after;
* `perform?_stays_stopped` — a hub that has stopped is where all subscriptions end.

Design notes: a packet is queued only at a turn, and then the queue is in use and the subscriber
registered.  All the rest that happens to an entry leaves an empty queue empty and brings nobody
back, so that it is enough to look at the events.
-/
import VideoRelay.Proofs.Hub.Departure
import VideoRelay.Proofs.Hub.Replay

namespace VideoRelay

namespace Hub

variable {h h' : Hub} {id : Nat} {events : List Event}

/-- What can no longer change of an entry that nothing is queued for. -/
structure Subscriber.Declines (s s' : Subscriber) : Prop where
  queue : s'.queue = []
  isOpen : s'.isOpen = true → s.isOpen = true
  isRegistered : s'.isRegistered = true → s.isRegistered = true

theorem available_eq_ended (known : id < h.nextId) :
    h.available id = .ended ↔ (h.entry id).queue = [] ∧ h.isAttached (h.entry id) = false := by
  have found : h.subscribers[id]? = some (h.entry id) := by
    rw [entry, List.getElem?_eq_getElem known]
    rfl
  simp only [available, found]
  cases queue : (h.entry id).queue with
  | nil => cases h.isAttached (h.entry id) <;> simp
  | cons packet rest => simp

theorem declines_after {s : Subscriber} {e : Event} (none : e.queuedFor? id = none)
    (empty : s.queue = []) : s.Declines (s.after id e) := by
  have same : s.Declines s := ⟨empty, fun is => is, fun is => is⟩
  -- If the event is the subscriber's own, one field changes; else none does.
  cases e with
  | queued i packet =>
    have other : i ≠ id := by
      rintro rfl
      simp at none
    rw [Subscriber.after, if_neg other]
    exact same
  | skipped i packet =>
    rw [Subscriber.after]
    split
    · exact ⟨empty, fun is => is, fun is => is⟩
    · exact same
  | took i packet =>
    show s.Declines (if i = id then _ else s)
    split
    · exact ⟨congrArg List.tail empty, fun is => is, fun is => is⟩
    · exact same
  | closed i =>
    show s.Declines (if i = id then _ else s)
    split
    · exact ⟨empty, by simp, fun is => is⟩
    · exact same
  | dropped i =>
    show s.Declines (if i = id then _ else s)
    split
    · exact ⟨rfl, fun is => is, fun is => is⟩
    · exact same
  | removed i reason queued skipped left =>
    rw [Subscriber.after]
    split
    · exact ⟨empty, fun is => is, fun is => by cases is⟩
    · exact same
  | _ => exact same

/-- An empty queue stays empty, and what has closed or is removed stays so, as long as nothing is
queued. -/
theorem declines_foldl (none : queuedFor id events = []) {s : Subscriber} (empty : s.queue = []) :
    s.Declines (events.foldl (Subscriber.after id) s) := by
  induction events generalizing s with
  | nil => exact ⟨empty, fun is => is, fun is => is⟩
  | cons e events ih =>
    rw [queuedFor_cons, List.append_eq_nil_iff, Option.toList_eq_nil_iff] at none
    have first := declines_after none.1 empty
    have later := ih none.2 first.queue
    exact ⟨later.queue, fun is => first.isOpen (later.isOpen is),
      fun is => first.isRegistered (later.isRegistered is)⟩

/-- Nothing is queued any more for whoever has found the end. -/
theorem Transition.queuedFor_eq_nil {action : Action} (o : Orderly h)
    (t : Transition h action events h') (ended : h.isAttached (h.entry id) = false) :
    queuedFor id events = [] := by
  rw [queuedFor_eq, List.map_eq_nil_iff, List.filter_eq_nil_iff]
  intro turn mem isQueued
  obtain ⟨inEvents, own⟩ := List.mem_filter.mp mem
  obtain rfl : turn.id = id := of_decide_eq_true own
  obtain ⟨-, ⟨b, later, delivering, front, -⟩, s, found, fits⟩ := t.of_turn inEvents
  have registered := (o.underWay b delivering).isRegistered (front ▸ List.mem_cons_self)
  rw [of_decide_eq_true isQueued] at fits
  -- At its turn it would be attached still.
  obtain ⟨s', found', isRegistered⟩ := isRegistered_iff.mp registered
  obtain rfl := Option.some.inj (found.symm.trans found')
  rw [entry_eq found, isAttached, fits.1, isRegistered, isStopped, delivering] at ended
  cases ended

/-- Nothing brings a stopped hub back. -/
theorem Transition.stays_stopped {action : Action} (t : Transition h action events h')
    (stopped : h.phase = .stopped) : h'.phase = .stopped := by
  cases t with
  | caller s => exact s.frame.2.1.trans stopped
  | reader s => rw [s.frame, stopped]
  | work own s =>
    cases s with
    | stop cause why => rfl
    | turn b i rest s outcome delivering | pass b i rest delivering | finish b delivering =>
      rw [stopped] at delivering
      cases delivering
    | «begin» request rest events h' ready =>
      rw [stopped] at ready
      cases ready

theorem perform?_stays_stopped {actions : List Action}
    (hp : h.perform? actions = some (h', events)) (stopped : h.phase = .stopped) :
    h'.phase = .stopped := by
  induction actions generalizing h events with
  | nil =>
    obtain ⟨rfl, rfl⟩ := by simpa [Hub.perform?] using hp
    exact stopped
  | cons action actions ih =>
    obtain ⟨mid, first, others, hs, hr, rfl⟩ := perform?_cons.mp hp
    exact ih hr ((Transition.of_step? hs).stays_stopped stopped)

/-- Whoever has found the end finds it again. -/
theorem Transition.available_ended {action : Action} (o : Orderly h)
    (t : Transition h action events h') (known : id < h.nextId)
    (ended : h.available id = .ended) : h'.available id = .ended := by
  obtain ⟨empty, apart⟩ := (available_eq_ended known).mp ended
  have later := declines_foldl (t.queuedFor_eq_nil o apart) empty
  rw [← t.entry id] at later
  refine (available_eq_ended (Nat.lt_of_lt_of_le known t.nextId_le)).mpr ⟨later.queue, ?_⟩
  refine Bool.eq_false_iff.mpr fun attached => Bool.eq_false_iff.mp apart ?_
  simp only [isAttached, isStopped, Bool.and_eq_true, Bool.not_eq_true', decide_eq_false_iff_not]
    at attached ⊢
  exact ⟨⟨later.isOpen attached.1.1, later.isRegistered attached.1.2⟩,
    fun stopped => attached.2 (t.stays_stopped stopped)⟩

theorem perform?_available_ended {actions : List Action} (o : Orderly h)
    (hp : h.perform? actions = some (h', events)) (known : id < h.nextId)
    (ended : h.available id = .ended) : h'.available id = .ended := by
  induction actions generalizing h events with
  | nil =>
    obtain ⟨rfl, rfl⟩ := by simpa [Hub.perform?] using hp
    exact ended
  | cons action actions ih =>
    obtain ⟨mid, first, others, hs, hr, rfl⟩ := perform?_cons.mp hp
    have t := Transition.of_step? hs
    exact ih (t.orderly o) hr (Nat.lt_of_lt_of_le known t.nextId_le)
      (t.available_ended o known ended)

end Hub

end VideoRelay

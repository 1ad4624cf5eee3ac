/-
What a subscriber's entry owes to which event.

* `Subscriber.after`, `perform?_entry` — an entry is what the events make of it, one after the
  other, whatever hub they happen at;
* `Subscriber.handled` — what the receiving end makes of it by itself;
* `foldl_after_of_noTurn` — where a subscriber has no turn in a broadcast, that is all, but for
  its removal.

Design notes: nothing is assumed of the hub that the events begin at, so that what is said here
holds of any register.  Whoever has no number yet has the entry that it would get.
-/
import VideoRelay.Proofs.Hub.Isolation

namespace VideoRelay

namespace Hub

/-! ### Entries and events -/

/-- What the receiving end of `id` makes of its entry, if the event is its own. -/
def Subscriber.handling (id : Nat) (s : Subscriber) : Event → Subscriber
  | .took i _ => if i = id then { s with queue := s.queue.tail } else s
  | .closed i => if i = id then { s with isOpen := false } else s
  | .dropped i => if i = id then { s with queue := [] } else s
  | _ => s

/-- What the receiving end of `id` makes of its entry by what it does in `events`. -/
def Subscriber.handled (id : Nat) (s : Subscriber) (events : List Event) : Subscriber :=
  events.foldl (Subscriber.handling id) s

/-- What an event makes of the entry of `id`. -/
def Subscriber.after (id : Nat) (s : Subscriber) : Event → Subscriber
  | .queued i packet => if i = id then s.afterOutcome packet .queued else s
  | .skipped i packet => if i = id then s.afterOutcome packet .skipped else s
  | .removed i _ _ _ _ => if i = id then s.dismissed else s
  | e => s.handling id e

section Entries

variable {h h' : Hub} {id : Nat} {events : List Event}

/-- Events of which no one concerns an entry. -/
theorem foldl_after_eq_self {s : Subscriber} (other : ∀ e ∈ events, s.after id e = s) :
    events.foldl (Subscriber.after id) s = s := by
  induction events with
  | nil => rfl
  | cons e events ih =>
    rw [List.foldl_cons, other e List.mem_cons_self]
    exact ih fun e mem => other e (List.mem_cons_of_mem _ mem)

theorem CallerStep.entry {action : Action} (s : CallerStep h action events h') :
    h'.entry id = events.foldl (Subscriber.after id) (h.entry id) := by
  rw [Hub.entry, s.frame.2.2.1]
  cases s <;> rfl

theorem ReaderStep.entry {action : Action} (s : ReaderStep h action events h') :
    h'.entry id = events.foldl (Subscriber.after id) (h.entry id) := by
  cases s with
  | take i s packet rest found front =>
    rw [Hub.entry, getD_set found]
    show _ = (h.entry id).after id (.took i packet)
    by_cases own : i = id
    · subst own
      rw [if_pos rfl, entry_eq found]
      simp only [Subscriber.after, Subscriber.handling, front, if_true, List.tail_cons]
    · rw [if_neg (Ne.symm own)]
      exact (if_neg own).symm
  | close i s found =>
    rw [Hub.entry, getD_set found]
    show _ = (h.entry id).after id (.closed i)
    by_cases own : i = id
    · subst own
      rw [if_pos rfl, entry_eq found]
      exact (if_pos rfl).symm
    · rw [if_neg (Ne.symm own)]
      exact (if_neg own).symm
  | discard i s found =>
    rw [Hub.entry, getD_set found]
    show _ = ((h.entry id).after id (.closed i)).after id (.dropped i)
    by_cases own : i = id
    · subst own
      rw [if_pos rfl, entry_eq found]
      simp only [Subscriber.after, Subscriber.handling, if_true]
    · simp only [Subscriber.after, Subscriber.handling, if_neg own, if_neg (Ne.symm own)]
      rfl

theorem remove_entry (h : Hub) (i : Nat) (reason : Removal) :
    (h.remove i reason).1.entry id =
      (h.remove i reason).2.foldl (Subscriber.after id) (h.entry id) := by
  cases known : h.isRegistered i with
  | false =>
    rw [remove_of_not_registered known]
    rfl
  | true =>
    obtain ⟨s, found, registered⟩ := isRegistered_iff.mp known
    rw [remove_of_registered found registered]
    show (h.without [i]).entry id = if i = id then (h.entry id).dismissed else h.entry id
    rw [entry_without]
    by_cases own : i = id
    · subst own
      rw [if_pos ⟨List.mem_singleton_self i, lt_nextId found⟩, if_pos rfl]
      rfl
    · rw [if_neg (by simpa using fun same => absurd same.symm own), if_neg own]

theorem removeAll_entry (h : Hub) (reason : Removal) (ids : List Nat) :
    (h.removeAll reason ids).1.entry id =
      (h.removeAll reason ids).2.foldl (Subscriber.after id) (h.entry id) := by
  induction ids generalizing h with
  | nil => rfl
  | cons i ids ih =>
    rw [removeAll_cons_snd, List.foldl_append, ← remove_entry]
    exact ih _

theorem finish_entry (h : Hub) (b : Broadcast) :
    (h.finish b).1.entry id = (h.finish b).2.foldl (Subscriber.after id) (h.entry id) := by
  rw [finish_snd, List.foldl_append, ← removeAll_entry, removeAll_fst]
  have counted : ((h.without b.closed).counting b.overflowed.length).entry id =
      (h.without b.closed).entry id := rfl
  rw [← counted, ← removeAll_entry, removeAll_fst, finish_fst, without_append]
  rfl

theorem foldl_after_stop (h : Hub) (s : Subscriber) :
    h.stop.2.foldl (Subscriber.after id) s = s :=
  foldl_after_eq_self fun e mem =>
    forall_mem_stop (P := fun e => s.after id e = s) (fun _ _ => rfl) (fun _ _ => rfl) h e mem

theorem BeginStep.entry {request : Request} {rest : List Request}
    (s : BeginStep h rest request events h') :
    h'.entry id = events.foldl (Subscriber.after id) (h.entry id) := by
  cases s with
  | packet => rfl
  | register => exact getD_append_fresh h.subscribers id
  | abandon ticket gone =>
    rw [Hub.entry, getD_append_singleton]
    show _ = if h.subscribers.length = id then (h.entry id).dismissed else h.entry id
    by_cases own : id = h.subscribers.length
    · -- Nobody had this number, so its entry is the one that it would have got.
      have fresh : h.entry id = .fresh := by
        rw [Hub.entry, List.getElem?_eq_none (Nat.le_of_eq own.symm)]
        rfl
      rw [if_pos own, if_pos own.symm, fresh]
      rfl
    · rw [if_neg own, if_neg (Ne.symm own)]
      rfl
  | unregister ticket i =>
    have removed := @remove_entry id { h with commands := rest } i .unregistered
    rw [remove_fst] at removed
    exact removed
  | stats => rfl
  | statsUnread => rfl

theorem WorkStep.entry (s : WorkStep h events h') :
    h'.entry id = events.foldl (Subscriber.after id) (h.entry id) := by
  cases s with
  | turn b i rest s outcome delivering front found fits =>
    show (h.subscribers.set i _)[id]?.getD .fresh = (h.entry id).after id _
    rw [getD_set found]
    by_cases own : i = id
    · subst own
      rw [if_pos rfl, entry_eq found]
      cases outcome with
      | queued | skipped => exact (if_pos rfl).symm
      | refused | overflowed => rfl
    · rw [if_neg (Ne.symm own)]
      cases outcome with
      | queued | skipped => exact (if_neg own).symm
      | refused | overflowed => rfl
  | pass => rfl
  | finish b => exact finish_entry h b
  | «begin» request rest events h' ready inTime front s => exact s.entry
  | stop cause why =>
    rw [List.foldl_append, foldl_after_stop]
    cases why <;> rfl

/-- An entry is what the events make of it. -/
theorem Transition.entry {action : Action} (t : Transition h action events h') (id : Nat) :
    h'.entry id = events.foldl (Subscriber.after id) (h.entry id) := by
  cases t with
  | caller s => exact s.entry
  | reader s => exact s.entry
  | work own s => exact s.entry

theorem perform?_entry {actions : List Action} (hp : h.perform? actions = some (h', events))
    (id : Nat) : h'.entry id = events.foldl (Subscriber.after id) (h.entry id) := by
  induction actions generalizing h events with
  | nil =>
    obtain ⟨rfl, rfl⟩ := by simpa [Hub.perform?] using hp
    rfl
  | cons action actions ih =>
    obtain ⟨mid, first, others, hs, hr, rfl⟩ := perform?_cons.mp hp
    rw [List.foldl_append, ← (Transition.of_step? hs).entry id]
    exact ih hr

end Entries

/-! ### What happens between turns -/

section Handled

variable {id : Nat} {events : List Event}

theorem handling_dismissed (s : Subscriber) (e : Event) :
    s.dismissed.handling id e = (s.handling id e).dismissed := by
  cases e with
  | took i packet | closed i | dropped i =>
    by_cases own : i = id <;> simp [Subscriber.handling, Subscriber.dismissed, own]
  | _ => rfl

/-- What the receiving end does is the same whether the hub still delivers or not. -/
theorem handled_dismissed (s : Subscriber) (events : List Event) :
    s.dismissed.handled id events = (s.handled id events).dismissed := by
  induction events generalizing s with
  | nil => rfl
  | cons e events ih =>
    show (s.dismissed.handling id e).handled id events = _
    rw [handling_dismissed]
    exact ih _

/-- Without a turn the hub can only remove a subscriber. -/
theorem foldl_after_of_noTurn (noTurn : turnsOf id events = []) (s : Subscriber) :
    events.foldl (Subscriber.after id) s =
      if id ∈ removed events then (s.handled id events).dismissed else s.handled id events := by
  induction events generalizing s with
  | nil => rfl
  | cons e events ih =>
    have rest : turnsOf id events = [] := by
      rw [← List.singleton_append, turnsOf_append] at noTurn
      exact (List.append_eq_nil_iff.mp noTurn).2
    rw [List.foldl_cons]
    cases e with
    | queued i packet | skipped i packet =>
      have other : i ≠ id := by
        rintro rfl
        simp [turnsOf] at noTurn
      simp only [Subscriber.after, if_neg other]
      exact ih rest s
    | removed i reason queued skipped left =>
      have told : id ∈ removed (.removed i reason queued skipped left :: events) ↔
          i = id ∨ id ∈ removed events := by simp [removed, eq_comm]
      have now : s.after id (.removed i reason queued skipped left) =
          if i = id then s.dismissed else s := rfl
      have same : s.handled id (.removed i reason queued skipped left :: events) =
          s.handled id events := rfl
      rw [ih rest, now, same, if_congr told rfl rfl]
      by_cases own : i = id
      · rw [if_pos own, handled_dismissed, if_pos (Or.inl own : i = id ∨ id ∈ removed events)]
        exact ite_self _
      · simp only [own, if_false, false_or]
    | _ => exact ih rest _

end Handled

end Hub

end VideoRelay

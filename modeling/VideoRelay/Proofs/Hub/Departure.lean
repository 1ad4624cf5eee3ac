/-
How a subscriber gets away from the hub.

* `Run.tickets_ascend`, `Run.call_unique` — a ticket is given to one call only;
* `Leaves`, `perform?_leaves` — the removal of a subscriber, once its command is in the
  queue, stays under way until it is done;
* `perform?_unregistering` — a call for it waits for room, or returns with the removal under way.

Design notes: what a history tells is there for good, so it is best said of a history;
only where a command is now, in the line or in the queue, is said of a state.
-/
import Mathlib.Data.List.Nodup
import VideoRelay.Proofs.Hub.Calls
import VideoRelay.Proofs.Hub.Runs
import VideoRelay.Proofs.Hub.Stopping

namespace VideoRelay

namespace Hub

/-! ### Calls made -/

@[simp] def Event.called? : Event → Option Request
  | .called request => some request
  | _ => none

/-- The calls that have begun. -/
def calls (history : List Event) : List Request := history.filterMap Event.called?

theorem calls_append (history events : List Event) :
    calls (history ++ events) = calls history ++ calls events := List.filterMap_append

theorem map_ticket_calls (history : List Event) :
    (calls history).map (·.ticket) = openedCalls history := by
  rw [calls, openedCalls, List.map_filterMap]
  congr 1
  funext e
  cases e <;> rfl

theorem WorkStep.commands {h h' : Hub} {events : List Event} (s : WorkStep h events h') :
    h'.waiting ++ h'.commands ⊆ h.waiting ++ h.commands := by
  cases s with
  | turn b id rest s outcome delivering front found fits => exact List.Subset.refl _
  | pass b id rest delivering front unknown => exact List.Subset.refl _
  | finish b delivering noneLeft =>
    rw [finish_fst]
    exact List.Subset.refl _
  | «begin» request rest events h' ready inTime front s =>
    obtain ⟨-, waiting, commands, -⟩ := s.calls
    rw [waiting, commands, front]
    exact ((List.Sublist.refl _).append (List.sublist_cons_self _ _)).subset
  | stop cause why => exact List.nil_subset _

/-- What is under way after an action was so before, or begins with it. -/
theorem Transition.mem_calls {h h' : Hub} {action : Action} {events : List Event}
    (tr : Transition h action events h') {r : Request} (mem : r ∈ h'.waiting ++ h'.commands) :
    r ∈ h.waiting ++ h.commands ∨ r ∈ calls events := by
  cases tr with
  | caller s =>
    cases s with
    | call command live =>
      simp only [List.mem_append, List.mem_singleton] at mem ⊢
      rcases mem with (mem | rfl) | mem
      · exact .inl (.inl mem)
      · exact .inr (List.mem_singleton_self _)
      · exact .inl (.inr mem)
    | cancelWaiting ticket waits =>
      exact .inl ((List.filter_sublist.append (List.Sublist.refl _)).subset mem)
    | accept request rest front room wants => exact .inl ((perm_accept front).subset mem)
    | acceptAndReturn request rest front room wants => exact .inl ((perm_accept front).subset mem)
    | _ => exact .inl mem
  | reader s =>
    rw [s.frame] at mem
    exact .inl mem
  | work own s => exact .inl (s.commands mem)

section

variable {config : HubConfig} {actions : List Action} {history events : List Event} {h h' : Hub}

theorem Run.mem_calls (run : Run config history h) {r : Request}
    (mem : r ∈ h.waiting ++ h.commands) : r ∈ calls history := by
  induction run with
  | start => cases mem
  | step run hs ih =>
    rw [calls_append, List.mem_append]
    exact ((Transition.of_step? hs).mem_calls mem).imp_left ih

/-- Tickets are given out in ascending order. -/
theorem Run.tickets_ascend (run : Run config history h) :
    (calls history).Pairwise (·.ticket < ·.ticket) := by
  rw [← List.pairwise_map, map_ticket_calls, run.ledger.opened]
  exact List.pairwise_lt_range

/-- A ticket is given to one call only. -/
theorem Run.call_unique (run : Run config history h) {r r' : Request} (hr : r ∈ calls history)
    (hr' : r' ∈ calls history) (same : r.ticket = r'.ticket) : r = r' := by
  have nodup : ((calls history).map (·.ticket)).Nodup := by
    rw [map_ticket_calls, run.ledger.opened]
    exact List.nodup_range
  exact List.inj_on_of_nodup_map nodup hr hr' same

theorem Run.not_called_again (run : Run config (history ++ events) h) {r r' : Request}
    (before : r ∈ calls history) (now : r' ∈ calls events) : r.ticket ≠ r'.ticket := by
  have ascending := run.tickets_ascend
  rw [calls_append, List.pairwise_append] at ascending
  exact Nat.ne_of_lt (ascending.2.2 r before r' now)

theorem Run.perform? (run : Run config history h) (hp : h.perform? actions = some (h', events)) :
    Run config (history ++ events) h' := by
  obtain ⟨before, hb⟩ := run_iff_perform?.mp run
  refine run_iff_perform?.mpr ⟨before ++ actions, ?_⟩
  rw [perform?_append hb, hp]
  rfl

theorem Transition.nextId_le {action : Action} (tr : Transition h action events h') :
    h.nextId ≤ h'.nextId := by
  rcases tr.numbering with ⟨-, same⟩ | ⟨-, more⟩ <;> omega

theorem perform?_nextId_le (hp : h.perform? actions = some (h', events)) :
    h.nextId ≤ h'.nextId := by
  induction actions generalizing h events with
  | nil =>
    obtain ⟨rfl, rfl⟩ := by simpa [Hub.perform?] using hp
    exact Nat.le_refl _
  | cons action actions ih =>
    obtain ⟨mid, first, others, hs, hr, rfl⟩ := perform?_cons.mp hp
    exact (Transition.of_step? hs).nextId_le.trans (ih hr)

/-! ### Removals under way -/

/-- The command to remove `id` is in the queue or has had its effect, or there is no
hub to remove it from. -/
def Leaves (id : Nat) (history : List Event) (h : Hub) : Prop :=
  h.phase = .stopped ∨ (∃ ticket, ⟨ticket, .unregister id⟩ ∈ h.commands) ∨ id ∈ removed history

theorem Run.not_registered_iff (run : Run config history h) {id : Nat} (known : id < h.nextId) :
    h.isRegistered id = false ↔ id ∈ removed history := by
  rw [isRegistered_eq, decide_eq_true known, Bool.true_and, ← Bool.not_eq_true,
    (run.account id).isRegistered, not_not]

/-- Whoever was to be removed is gone when the command has been taken up. -/
theorem Run.removed_of_begin (run : Run config history h) {ticket id : Nat}
    {rest : List Request} (known : id < h.nextId)
    (s : BeginStep h rest ⟨ticket, .unregister id⟩ events h') :
    id ∈ removed (history ++ .began ⟨ticket, .unregister id⟩ :: events) := by
  cases s with
  | unregister =>
    rw [removed_append, List.mem_append]
    cases registered : h.isRegistered id with
    | true =>
      refine .inr ?_
      rw [removed, removals_cons, removals_remove]
      have registered' : Hub.isRegistered { h with commands := rest } id = true := registered
      simp [registered']
    | false => exact .inl ((run.not_registered_iff known).mp registered)

theorem Run.leaves_step (run : Run config history h) {action : Action}
    (hs : h.step? action = some (h', events)) {id : Nat} (known : id < h.nextId)
    (leaves : Leaves id history h) : Leaves id (history ++ events) h' := by
  have tr := Transition.of_step? hs
  rcases leaves with stopped | ⟨ticket, inQueue⟩ | gone
  · exact .inl (tr.of_stopped run.orderly stopped).1
  · cases tr with
    | caller s =>
      refine .inr (.inl ⟨ticket, ?_⟩)
      cases s with
      | accept => exact List.mem_append_left _ inQueue
      | acceptAndReturn => exact List.mem_append_left _ inQueue
      | _ => exact inQueue
    | reader s =>
      rw [s.frame]
      exact .inr (.inl ⟨ticket, inQueue⟩)
    | work own s =>
      cases s with
      | turn => exact .inr (.inl ⟨ticket, inQueue⟩)
      | pass => exact .inr (.inl ⟨ticket, inQueue⟩)
      | finish b =>
        rw [finish_fst]
        exact .inr (.inl ⟨ticket, inQueue⟩)
      | «begin» request rest events h' ready inTime front s =>
        rw [front] at inQueue
        rcases List.mem_cons.mp inQueue with rfl | inQueue
        · exact .inr (.inr (run.removed_of_begin known s))
        · obtain ⟨-, -, commands, -⟩ := s.calls
          exact .inr (.inl ⟨ticket, commands ▸ inQueue⟩)
      | stop => exact .inl rfl
  · refine .inr (.inr ?_)
    rw [removed_append]
    exact List.mem_append_left _ gone

theorem perform?_leaves (run : Run config history h)
    (hp : h.perform? actions = some (h', events)) {id : Nat} (known : id < h.nextId)
    (leaves : Leaves id history h) : Leaves id (history ++ events) h' := by
  induction actions generalizing h history events with
  | nil =>
    obtain ⟨rfl, rfl⟩ := by simpa [Hub.perform?] using hp
    rwa [List.append_nil]
  | cons action actions ih =>
    obtain ⟨mid, first, others, hs, hr, rfl⟩ := perform?_cons.mp hp
    rw [← List.append_assoc]
    have known' := known.trans_le (Transition.of_step? hs).nextId_le
    exact ih (.step run hs) hr known' (run.leaves_step hs known leaves)

/-- A caller in the line stays there until it gives up, its command enters the queue, or
the hub stops. -/
theorem Transition.waiting {action : Action} (tr : Transition h action events h') {r : Request}
    (waits : r ∈ h.waiting) (kept : action ≠ .cancel r.ticket)
    (wants : r.command.wantsAnswer = false) :
    r ∈ h'.waiting ∨ (∃ reply, .returned r.ticket reply ∈ events) ∧
      (h'.phase = .stopped ∨ r ∈ h'.commands) := by
  cases tr with
  | caller s =>
    cases s with
    | call command live => exact .inl (List.mem_append_left _ waits)
    | cancelWaiting ticket mem =>
      refine .inl (List.mem_filter.mpr ⟨waits, decide_eq_true ?_⟩)
      rintro rfl
      exact kept rfl
    | accept request rest front room wants' =>
      rw [front] at waits
      rcases List.mem_cons.mp waits with rfl | waits
      · rw [wants] at wants'
        cases wants'
      · exact .inl waits
    | acceptAndReturn request rest front room wants' =>
      rw [front] at waits
      rcases List.mem_cons.mp waits with rfl | waits
      · exact .inr ⟨⟨.accepted, by simp⟩, .inr (List.mem_append_right _ List.mem_cons_self)⟩
      · exact .inl waits
    | _ => exact .inl waits
  | reader s =>
    rw [s.frame]
    exact .inl waits
  | work own s =>
    cases s with
    | turn => exact .inl waits
    | pass => exact .inl waits
    | finish b =>
      rw [finish_fst]
      exact .inl waits
    | «begin» request rest events h' ready inTime front s =>
      obtain ⟨-, waiting, -⟩ := s.calls
      exact .inl (waiting ▸ waits)
    | stop cause why =>
      refine .inr ⟨⟨r.command.whenStopped, ?_⟩, .inl rfl⟩
      refine List.mem_append_right _ (List.mem_cons_of_mem _ (List.mem_append_left _ ?_))
      exact List.mem_map.mpr ⟨r, waits, rfl⟩

theorem perform?_keeps_waiting (hp : h.perform? actions = some (h', events)) {r : Request}
    (waits : r ∈ h.waiting) (kept : .cancel r.ticket ∉ actions)
    (wants : r.command.wantsAnswer = false) :
    r ∈ h'.waiting ∨ ∃ reply, .returned r.ticket reply ∈ events := by
  induction actions generalizing h events with
  | nil =>
    obtain ⟨rfl, rfl⟩ := by simpa [Hub.perform?] using hp
    exact .inl waits
  | cons action actions ih =>
    obtain ⟨mid, first, others, hs, hr, rfl⟩ := perform?_cons.mp hp
    rw [List.mem_cons, not_or] at kept
    rcases (Transition.of_step? hs).waiting waits (Ne.symm kept.1) wants with
      waits | ⟨⟨reply, returned⟩, -⟩
    · refine (ih hr waits kept.2).imp_right ?_
      rintro ⟨reply, returned⟩
      exact ⟨reply, List.mem_append_right _ returned⟩
    · exact .inr ⟨reply, List.mem_append_left _ returned⟩

/-- A call to have `id` removed waits for room, or returns with the removal under way. -/
theorem perform?_unregistering (run : Run config history h)
    (hp : h.perform? actions = some (h', events)) {ticket id : Nat} (known : id < h.nextId)
    (waits : ⟨ticket, .unregister id⟩ ∈ h.waiting) (kept : .cancel ticket ∉ actions) :
    ⟨ticket, .unregister id⟩ ∈ h'.waiting ∨
      (∃ reply, .returned ticket reply ∈ events) ∧ Leaves id (history ++ events) h' := by
  induction actions generalizing h history events with
  | nil =>
    obtain ⟨rfl, rfl⟩ := by simpa [Hub.perform?] using hp
    exact .inl waits
  | cons action actions ih =>
    obtain ⟨mid, first, others, hs, hr, rfl⟩ := perform?_cons.mp hp
    rw [List.mem_cons, not_or] at kept
    have tr := Transition.of_step? hs
    have known' := known.trans_le tr.nextId_le
    rw [← List.append_assoc]
    rcases tr.waiting waits (Ne.symm kept.1) rfl with waits | ⟨⟨reply, returned⟩, under⟩
    · refine (ih (.step run hs) hr known' waits kept.2).imp_right ?_
      rintro ⟨⟨reply, returned⟩, leaves⟩
      exact ⟨⟨reply, List.mem_append_right _ returned⟩, leaves⟩
    · refine .inr ⟨⟨reply, List.mem_append_left _ returned⟩, ?_⟩
      exact perform?_leaves (.step run hs) hr known' (under.imp_right fun mem => .inl ⟨_, mem⟩)

/-- Whoever waits for room has not been told anything. -/
theorem Run.not_returned_of_waiting (run : Run config history h) {r : Request}
    (waits : r ∈ h.waiting) {reply : Reply} : .returned r.ticket reply ∉ history := by
  intro returned
  have l := run.ledger
  have mem : r.ticket ∈ h.waiting.map (·.ticket) := List.mem_map_of_mem waits
  refine (l.pending _ (l.lt_of_waiting mem)).mpr (.inl mem) ?_
  exact List.mem_filterMap.mpr ⟨_, returned, rfl⟩

end

end Hub

end VideoRelay

/-
The order of calls.

Tickets are given in the order in which calls begin, and callers wait in one line.

* `Run.lineup` — commands enter the queue in the order in which their calls began;
* `Run.begun_increasing` — so they are taken up in that order;
* `Run.mem_begun` — a command in the queue is taken up before any that was called later;
* `Run.before_begin`, `Run.before_call` — the state in which a command is taken up, and
  that in which a call begins.

Design notes: that a history is in the order of the tickets says in one relation what
would otherwise be a case for each pair of calls; it also says that no ticket comes twice.
-/
import VideoRelay.Proofs.Hub.Departure

namespace VideoRelay

namespace Hub

/-! ### The line -/

section Steps

variable {h h' : Hub} {history events : List Event}

/-- A step with no new call, in which nobody enters the queue and nobody joins the line. -/
theorem lineup_congr (l : (accepted history ++ h.waiting).Sublist (calls history))
    (noCall : calls events = []) (noneAccepted : accepted events = [])
    (waiting : h'.waiting.Sublist h.waiting) :
    (accepted (history ++ events) ++ h'.waiting).Sublist (calls (history ++ events)) := by
  rw [accepted_append, noneAccepted, calls_append, noCall, List.append_nil, List.append_nil]
  exact ((List.Sublist.refl _).append waiting).trans l

theorem lineup_accept (l : (accepted history ++ h.waiting).Sublist (calls history))
    {request : Request} {rest : List Request} (front : h.waiting = request :: rest)
    (noCall : calls events = []) (one : accepted events = [request]) :
    (accepted (history ++ events) ++ rest).Sublist (calls (history ++ events)) := by
  rw [accepted_append, one, calls_append, noCall, List.append_nil, List.append_assoc]
  rwa [front] at l

theorem calls_eq_nil {events : List Event} (noCall : openedCalls events = []) :
    calls events = [] := by
  rw [← map_ticket_calls] at noCall
  exact List.map_eq_nil_iff.mp noCall

theorem CallerStep.lineup {action : Action}
    (l : (accepted history ++ h.waiting).Sublist (calls history))
    (s : CallerStep h action events h') :
    (accepted (history ++ events) ++ h'.waiting).Sublist (calls (history ++ events)) := by
  cases s with
  | call command live =>
    rw [accepted_append, calls_append, ← List.append_assoc]
    refine List.Sublist.append ?_ (List.Sublist.refl _)
    rw [accepted_cons, accepted_nil]
    simpa using l
  | refuse command stopped =>
    rw [accepted_append, calls_append]
    refine List.Sublist.trans ?_ (List.sublist_append_left _ _)
    simpa using l
  | cancelWaiting ticket mem => exact lineup_congr l rfl rfl List.filter_sublist
  | accept request rest front room wants => exact lineup_accept l front rfl rfl
  | acceptAndReturn request rest front room wants => exact lineup_accept l front rfl rfl
  | cancelAnswer | cloneHandle | dropHandle | advance =>
    exact lineup_congr l rfl rfl (List.Sublist.refl _)

/-- The hub's own steps begin no call, let no command in and let nobody join the line. -/
theorem WorkStep.line (s : WorkStep h events h') :
    calls events = [] ∧ accepted events = [] ∧ h'.waiting.Sublist h.waiting := by
  cases s with
  | turn b id rest s outcome delivering front found fits =>
    have u := turn_uncalled ⟨id, b.packet, outcome⟩
    exact ⟨calls_eq_nil u.openedCalls, u.accepted, List.Sublist.refl _⟩
  | pass b id rest delivering front unknown => exact ⟨rfl, rfl, List.Sublist.refl _⟩
  | finish b delivering noneLeft =>
    have u := finish_uncalled h b
    rw [finish_fst]
    exact ⟨calls_eq_nil u.openedCalls, u.accepted, List.Sublist.refl _⟩
  | «begin» request rest events h' ready inTime front s =>
    obtain ⟨-, waiting, -, noCall, noneAccepted, -, -⟩ := s.calls
    refine ⟨calls_eq_nil ?_, ?_, waiting ▸ List.Sublist.refl _⟩
    · rw [openedCalls_cons, noCall]
      rfl
    · rw [accepted_cons, noneAccepted]
      rfl
  | stop cause why =>
    refine ⟨calls_eq_nil ?_, ?_, List.nil_sublist _⟩
    · rw [openedCalls_append, openedCalls_stop, List.append_nil]
      cases why <;> rfl
    · rw [accepted_append, accepted_stop, List.append_nil]
      cases why <;> rfl

end Steps

section Runs

variable {config : HubConfig} {past rest history : List Event} {h : Hub} {r r' : Request}

/-- Commands enter the queue in the order in which their calls began. -/
theorem Run.lineup (run : Run config history h) :
    (accepted history ++ h.waiting).Sublist (calls history) := by
  induction run with
  | start => exact List.Sublist.refl _
  | step run hs ih =>
    cases Transition.of_step? hs with
    | caller s => exact s.lineup ih
    | reader s =>
      refine lineup_congr ih (calls_eq_nil s.uncalled.openedCalls) s.uncalled.accepted ?_
      rw [s.frame]
    | work own s =>
      obtain ⟨noCall, noneAccepted, waiting⟩ := s.line
      exact lineup_congr ih noCall noneAccepted waiting

theorem Run.accepted_sublist (run : Run config history h) :
    (accepted history).Sublist (calls history) :=
  (List.sublist_append_left _ _).trans run.lineup

theorem Run.accepted_increasing (run : Run config history h) :
    ((accepted history).map (·.ticket)).Pairwise (· < ·) := by
  refine List.Pairwise.sublist (run.accepted_sublist.map _) ?_
  rw [map_ticket_calls, run.ledger.opened]
  exact List.pairwise_lt_range

/-- Commands are taken up in the order of their calls. -/
theorem Run.begun_increasing (run : Run config history h) :
    ((begun history).map (·.ticket)).Pairwise (· < ·) :=
  run.accepted_increasing.sublist (run.intake.inOrder.sublist.map _)

/-! ### Calls and commands in their place -/

/-- The event that a step begins with, told by a view that overlooks the rest of it. -/
theorem first_of_step {α : Type} {f : Event → Option α} {pre post more : List Event}
    {e e' : Event} {a : α} (told : f e = some a) (none : more.filterMap f = [])
    (split : pre ++ e :: post = e' :: more) : pre = [] ∧ e = e' ∧ post = more := by
  cases pre with
  | nil => exact ⟨rfl, (List.cons_eq_cons.mp split).1, (List.cons_eq_cons.mp split).2⟩
  | cons first pre =>
    obtain ⟨rfl, rfl⟩ := List.cons_eq_cons.mp split
    have := List.filterMap_eq_nil_iff.mp none e (List.mem_append_right _ List.mem_cons_self)
    rw [told] at this
    cases this

theorem Transition.of_begun {h h' : Hub} {action : Action} {events : List Event}
    (tr : Transition h action events h') (mem : r ∈ begun events) :
    h.phase = .ready ∧ r ∈ h.commands ∧
      ∃ more, events = .began r :: more ∧ begun more = [] := by
  cases tr with
  | caller s =>
    rw [s.begun] at mem
    cases mem
  | reader s =>
    rw [s.uncalled.begun] at mem
    cases mem
  | work own s =>
    cases s with
    | turn b id rest s outcome delivering front found fits =>
      rw [(turn_uncalled _).begun] at mem
      cases mem
    | pass b id rest delivering front unknown => cases mem
    | finish b delivering noneLeft =>
      rw [(finish_uncalled h b).begun] at mem
      cases mem
    | «begin» request rest events h' ready inTime front s =>
      obtain ⟨-, -, -, -, -, noneBegun, -⟩ := s.calls
      rw [begun_cons, noneBegun] at mem
      obtain rfl : r = request := by simpa using mem
      exact ⟨ready, front ▸ List.mem_cons_self, events, rfl, noneBegun⟩
    | stop cause why =>
      rw [begun_append, begun_stop, List.append_nil] at mem
      cases why with
      | asked ticket rest ready inTime front =>
        obtain rfl : r = ⟨ticket, .shutdown⟩ := by simpa using mem
        exact ⟨ready, front ▸ List.mem_cons_self, h.stop.2, rfl, begun_stop h⟩
      | expired | abandoned | unreachable => cases mem

/-- The state in which a command is taken up. -/
theorem Run.before_begin (run : Run config (past ++ .began r :: rest) h) :
    ∃ h₀, Run config past h₀ ∧ h₀.phase = .ready ∧ r ∈ h₀.commands := by
  obtain ⟨h₀, action, h₁, earlier, pre, post, before, hs, rfl⟩ := run.split
  have mem : r ∈ begun (pre ++ .began r :: post) :=
    List.mem_filterMap.mpr ⟨_, List.mem_append_right _ List.mem_cons_self, rfl⟩
  obtain ⟨ready, inQueue, more, events, none⟩ := (Transition.of_step? hs).of_begun mem
  obtain ⟨rfl, -⟩ := first_of_step (f := Event.begun?) rfl none events
  exact ⟨h₀, by rwa [List.append_nil], ready, inQueue⟩

/-- Commands taken up were called before. -/
theorem Run.called_of_began (run : Run config (past ++ .began r :: rest) h) : r ∈ calls past := by
  obtain ⟨h₀, before, -, inQueue⟩ := run.before_begin
  exact before.mem_calls (List.mem_append_right _ inQueue)

theorem Run.begun_subset (run : Run config history h) : begun history ⊆ calls history :=
  fun _ mem => run.accepted_sublist.subset (run.intake.inOrder.subset mem)

theorem Transition.of_called {h h' : Hub} {action : Action} {events : List Event}
    (tr : Transition h action events h') (mem : r ∈ calls events) :
    r.ticket = h.nextTicket ∧ ∃ more, events = .called r :: more ∧ calls more = [] := by
  cases tr with
  | caller s =>
    cases s with
    | call command live =>
      obtain rfl : r = ⟨h.nextTicket, command⟩ := by simpa [calls] using mem
      exact ⟨rfl, [], rfl, rfl⟩
    | refuse command stopped =>
      obtain rfl : r = ⟨h.nextTicket, command⟩ := by simpa [calls] using mem
      exact ⟨rfl, _, rfl, rfl⟩
    | _ => cases mem
  | reader s =>
    rw [calls_eq_nil s.uncalled.openedCalls] at mem
    cases mem
  | work own s =>
    rw [s.line.1] at mem
    cases mem

/-- The state in which a call begins. -/
theorem Run.before_call (run : Run config (past ++ .called r :: rest) h) :
    ∃ h₀, Run config past h₀ ∧ r.ticket = h₀.nextTicket := by
  obtain ⟨h₀, action, h₁, earlier, pre, post, before, hs, rfl⟩ := run.split
  have mem : r ∈ calls (pre ++ .called r :: post) :=
    List.mem_filterMap.mpr ⟨_, List.mem_append_right _ List.mem_cons_self, rfl⟩
  obtain ⟨new, more, events, none⟩ := (Transition.of_step? hs).of_called mem
  obtain ⟨rfl, -⟩ := first_of_step (f := Event.called?) rfl none events
  exact ⟨h₀, by rwa [List.append_nil], new⟩

/-- A command that is in the queue at any time is taken up before those that were called
later. -/
theorem Run.mem_begun (run : Run config (past ++ .began r' :: rest) h)
    (inQueue : r ∈ accepted (past ++ .began r' :: rest)) (earlier : r.ticket < r'.ticket) :
    r ∈ begun past := by
  have first : begun past ++ [r'] <+: accepted (past ++ .began r' :: rest) := by
    refine List.IsPrefix.trans ?_ run.intake.inOrder
    rw [begun_append, begun_cons, ← List.append_assoc]
    exact List.prefix_append _ _
  obtain ⟨later, all⟩ := first
  have increasing := run.accepted_increasing
  rw [← all, List.map_append, List.map_append, List.pairwise_append] at increasing
  rw [← all, List.mem_append, List.mem_append, List.mem_singleton] at inQueue
  rcases inQueue with (mem | rfl) | behind
  · exact mem
  · exact absurd earlier (Nat.lt_irrefl _)
  · -- Behind it in the queue are later calls only.
    have := increasing.2.2 r'.ticket (by simp) r.ticket (List.mem_map_of_mem behind)
    exact absurd earlier (Nat.lt_asymm this)

end Runs

end Hub

end VideoRelay

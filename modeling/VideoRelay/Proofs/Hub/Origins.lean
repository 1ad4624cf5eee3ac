/-
Which call a packet comes from.

Equal packets are told apart by the calls that submitted them, and those by their tickets.

* `origins`, `yielded` — the calls whose packets went into a subscriber's queue and out
  of it;
* `Run.origin` — a packet that was queued was taken up for its call when the subscriber
  was registered;
* `Sourced`, `Run.sourced` — the packets queued are those of the calls, and they come in
  the order in which the calls began.
-/
import VideoRelay.Proofs.Hub.Lineup
import VideoRelay.Proofs.Hub.Rounds
import VideoRelay.Proofs.Hub.Turns

namespace VideoRelay

namespace Hub

section Runs

variable {config : HubConfig} {past rest history : List Event} {h : Hub} {r : Request}

/-! ### Origins -/

/-- The ticket of the command taken up last. -/
def current? (past : List Event) : Option Nat := (begun past).getLast?.map (·.ticket)

/-- The call that an event queues the packet of for `id`, when it comes after `past`. -/
def origin? (id : Nat) (past : List Event) (e : Event) : Option Nat :=
  (e.queuedFor? id).bind fun _ => current? past

/-- The calls whose packets were queued for `id`. -/
def origins (id : Nat) (history : List Event) : List Nat := viewFrom (origin? id) [] history

/-- The calls whose packets `id` has taken. -/
def yielded (id : Nat) (history : List Event) : List Nat :=
  (origins id history).take (takenBy id history).length

theorem origins_append (id : Nat) (history events : List Event) :
    origins id (history ++ events) = origins id history ++ viewFrom (origin? id) history events :=
  viewFrom_append [] history events

theorem origins_append_eq {id : Nat} {events : List Event} (noneQueued : queuedFor id events = [])
    (history : List Event) : origins id (history ++ events) = origins id history := by
  rw [queuedFor, List.filterMap_eq_nil_iff] at noneQueued
  have none : viewFrom (origin? id) history events = [] :=
    viewFrom_eq_nil (fun e mem past => by rw [origin?, noneQueued e mem]; rfl) history
  rw [origins_append, none, List.append_nil]

theorem queuedFor?_eq_some {id : Nat} {e : Event} {p : Packet} (told : e.queuedFor? id = some p) :
    e = .queued id p := by
  cases e with
  | queued other packet =>
    rw [Event.queuedFor?] at told
    split at told
    · rename_i heq
      rw [heq, Option.some.inj told]
    · cases told
  | _ => cases told

theorem current?_eq {before during : List Event} (noneBegun : begun during = []) :
    current? (before ++ .began r :: during) = some r.ticket := by
  rw [current?, begun_append, begun_cons, noneBegun]
  simp

theorem origin?_eq_some {id t : Nat} {e : Event} :
    origin? id past e = some t ↔ ∃ p, e = .queued id p ∧ current? past = some t := by
  rw [origin?, Option.bind_eq_some_iff]
  constructor
  · rintro ⟨p, told, now⟩
    exact ⟨p, queuedFor?_eq_some told, now⟩
  · rintro ⟨p, rfl, now⟩
    exact ⟨p, if_pos rfl, now⟩

theorem mem_begun_of_mem_origins {id t : Nat} (mem : t ∈ origins id history) :
    t ∈ (begun history).map (·.ticket) := by
  obtain ⟨pre, e, post, rfl, told⟩ := mem_viewFrom.mp mem
  obtain ⟨p, -, now⟩ := origin?_eq_some.mp told
  obtain ⟨r, last, rfl⟩ := Option.map_eq_some_iff.mp now
  rw [List.nil_append] at last
  rw [begun_append, List.map_append]
  exact List.mem_append_left _ (List.mem_map_of_mem (List.mem_of_getLast? last))

/-- Whoever has a turn was registered when the packet was taken up, and has had no turn
with it yet. -/
theorem Run.turn_round {t : Turn} (run : Run config (past ++ t.event :: rest) h) :
    ∃ before ticket during, past = before ++ .began ⟨ticket, .packet t.packet⟩ :: during ∧
      begun during = [] ∧ t.id ∈ members before ∧ t.id ∉ (turns during).map (·.id) := by
  obtain ⟨h₀, run₀, ⟨b, later, delivering, front, packet⟩, -⟩ := run.before_turn
  obtain ⟨before, ticket, during, rfl, r⟩ := run₀.round b delivering
  have split := r.turns
  have nodup : (members before).Nodup := run₀.pairwise_members.imp Nat.ne_of_lt
  rw [← split, front, List.nodup_append] at nodup
  refine ⟨before, ticket, during, by rw [packet], r.noneBegun, ?_, fun had => ?_⟩
  · rw [← split, front]
    exact List.mem_append_right _ List.mem_cons_self
  · exact nodup.2.2 _ had _ List.mem_cons_self rfl

/-- A packet that was queued was taken up for the call it comes from, when the subscriber
was registered. -/
theorem Run.origin (run : Run config history h) {id t : Nat} (mem : t ∈ origins id history) :
    ∃ before p during rest,
      history = before ++ .began ⟨t, .packet p⟩ :: (during ++ .queued id p :: rest) ∧
        id ∈ members before := by
  obtain ⟨pre, e, post, rfl, told⟩ := mem_viewFrom.mp mem
  obtain ⟨p, rfl, now⟩ := origin?_eq_some.mp told
  have atTurn : Run config (pre ++ (Turn.event ⟨id, p, .queued⟩) :: post) h := run
  obtain ⟨before, ticket, during, rfl, noneBegun, member, -⟩ := atTurn.turn_round
  rw [List.nil_append, current?_eq noneBegun] at now
  cases now
  exact ⟨before, p, during, post, by simp, member⟩

/-- What goes into the queue of `id` comes from calls, one after the other. -/
structure Sourced (id : Nat) (history : List Event) : Prop where
  increasing : (origins id history).Pairwise (· < ·)
  packets : List.Forall₂ (fun ticket packet => ⟨ticket, .packet packet⟩ ∈ begun history)
    (origins id history) (queuedFor id history)

theorem Sourced.packets_append {id : Nat} (s : Sourced id history) (events : List Event) :
    List.Forall₂ (fun ticket packet => ⟨ticket, .packet packet⟩ ∈ begun (history ++ events))
      (origins id history) (queuedFor id history) :=
  s.packets.imp fun _ _ mem => by
    rw [begun_append]
    exact List.mem_append_left _ mem

theorem Sourced.append {id : Nat} {events : List Event} (s : Sourced id history)
    (noneQueued : queuedFor id events = []) : Sourced id (history ++ events) := by
  constructor
  · rw [origins_append_eq noneQueued]
    exact s.increasing
  · rw [origins_append_eq noneQueued, queuedFor_append, noneQueued, List.append_nil]
    exact s.packets_append events

/-- A packet goes into the queue of `id`. -/
theorem Sourced.queued {id : Nat} {packet : Packet} (s : Sourced id history)
    (run : Run config (history ++ [.queued id packet]) h) :
    Sourced id (history ++ [.queued id packet]) := by
  have atTurn : Run config (history ++ (Turn.event ⟨id, packet, .queued⟩) :: []) h := run
  obtain ⟨before, ticket, during, rfl, noneBegun, -, notYet⟩ := atTurn.turn_round
  -- Since the packet was taken up nothing has been queued for `id`.
  have noneQueued : queuedFor id (.began ⟨ticket, .packet packet⟩ :: during) = [] := by
    have none : turnsOf id during = [] := by
      rw [turnsOf, List.filter_eq_nil_iff]
      intro t mem heq
      exact notYet (List.mem_map.mpr ⟨t, mem, of_decide_eq_true heq⟩)
    rw [queuedFor_cons, Hub.queuedFor_eq, none]
    rfl
  have same : origins id (before ++ .began ⟨ticket, .packet packet⟩ :: during) =
      origins id before := origins_append_eq noneQueued before
  have grown : origins id ((before ++ .began ⟨ticket, .packet packet⟩ :: during) ++
      [.queued id packet]) =
      origins id (before ++ .began ⟨ticket, .packet packet⟩ :: during) ++ [ticket] := by
    rw [origins_append]
    simp [viewFrom, origin?, current?_eq noneBegun]
  have inOrder := run.begun_increasing
  constructor
  · rw [grown]
    refine List.pairwise_append.mpr ⟨s.increasing, List.pairwise_singleton _ _, ?_⟩
    intro t mem last isLast
    rw [List.mem_singleton.mp isLast]
    rw [same] at mem
    -- What was queued earlier was taken up earlier.
    rw [List.append_assoc, begun_append, List.map_append, List.pairwise_append] at inOrder
    exact inOrder.2.2 t (mem_begun_of_mem_origins mem) ticket (by simp)
  · rw [grown, queuedFor_append]
    have now : ⟨ticket, .packet packet⟩ ∈ begun ((before ++
        .began ⟨ticket, .packet packet⟩ :: during) ++ [.queued id packet]) := by simp
    have one : queuedFor id [.queued id packet] = [packet] := by simp
    rw [one]
    exact List.rel_append (s.packets_append _) (.cons now .nil)

/-- What goes into a queue comes from calls, one after the other. -/
theorem Run.sourced (run : Run config history h) (id : Nat) : Sourced id history := by
  induction run with
  | start => exact ⟨.nil, .nil⟩
  | @step _ events _ _ _ run hs ih =>
    by_cases noneQueued : queuedFor id events = []
    · exact ih.append noneQueued
    · -- A packet that is queued is all that happens in its step.
      obtain ⟨p, mem⟩ := List.exists_mem_of_ne_nil _ noneQueued
      obtain ⟨e, inEvents, told⟩ := List.mem_filterMap.mp mem
      obtain rfl := queuedFor?_eq_some told
      have turn : (⟨id, p, .queued⟩ : Turn) ∈ turns events :=
        List.mem_filterMap.mpr ⟨_, inEvents, rfl⟩
      obtain ⟨rfl, -⟩ := (Transition.of_step? hs).of_turn turn
      exact ih.queued (.step run hs)

/-- What `id` has taken are packets of calls, in the order in which the calls began. -/
theorem Run.forall₂_yielded (run : Run config history h) (id : Nat) :
    List.Forall₂ (fun ticket packet => ⟨ticket, .packet packet⟩ ∈ calls history)
      (yielded id history) (takenBy id history) := by
  have called := (run.sourced id).packets.imp fun _ _ mem => run.begun_subset mem
  obtain ⟨later, all⟩ := (List.prefix_append _ _).trans (run.account id).taken
  have taken : takenBy id history = (queuedFor id history).take (takenBy id history).length := by
    rw [← all, List.take_left]
  have firsts := List.forall₂_take (takenBy id history).length called
  rwa [← taken] at firsts

end Runs

end Hub

end VideoRelay

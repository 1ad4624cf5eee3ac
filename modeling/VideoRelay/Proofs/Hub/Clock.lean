/-
Time, as the actions of a run tell it.

* `elapsed` — the time that passes with some actions;
* `firstRequest?` — when a shutdown is first asked for, if it is;
* `perform?_now`, `perform?_requestedAt?` — the hub knows both;
* `perform?_isOverdue` — so it knows when its grace has run out.
-/
import VideoRelay.Proofs.Hub.Runs
import VideoRelay.Proofs.Hub.Registry

namespace VideoRelay

namespace Hub

/-- The time that passes with an action. -/
def Action.milliseconds : Action → Nat
  | .advance milliseconds => milliseconds
  | _ => 0

def Action.isShutdown (action : Action) : Bool := action = .call .shutdown

/-- The time that passes with `actions`. -/
def elapsed (actions : List Action) : Nat := total (actions.map Action.milliseconds)

/-- The time that passes before the first of `actions` that asks for a shutdown. -/
def firstRequest? (actions : List Action) : Option Nat :=
  (actions.findIdx? Action.isShutdown).map fun i => elapsed (actions.take i)

theorem elapsed_concat (actions : List Action) (action : Action) :
    elapsed (actions ++ [action]) = elapsed actions + action.milliseconds := by
  rw [elapsed, elapsed, List.map_append, total_append]
  rfl

/-- Only the first request counts. -/
theorem firstRequest?_concat (actions : List Action) (action : Action) :
    firstRequest? (actions ++ [action]) =
      (firstRequest? actions <|>
        if action.isShutdown then some (elapsed actions) else none) := by
  rw [firstRequest?, firstRequest?, List.findIdx?_append]
  cases found : actions.findIdx? Action.isShutdown with
  | some i =>
    obtain ⟨known, -⟩ := List.findIdx?_eq_some_iff_getElem.mp found
    simp [List.take_append_of_le_length (Nat.le_of_lt known)]
  | none =>
    cases asked : action.isShutdown <;> simp [asked]

theorem CallerStep.clock {h h' : Hub} {action : Action} {events : List Event}
    (s : CallerStep h action events h') :
    h'.now = h.now + action.milliseconds ∧
      h'.requestedAt? = (h.requestedAt? <|> if action.isShutdown then some h.now else none) := by
  -- The request is on record with the call itself, whether the hub runs or has stopped.
  have hasked : ∀ command, h.requestedAfter command =
      (h.requestedAt? <|>
        if (Action.call command).isShutdown then some h.now else none) := by
    intro command
    by_cases hc : command = .shutdown <;> simp [requestedAfter, Action.isShutdown, hc]
  have hother : h.requestedAt? = (h.requestedAt? <|> if false then some h.now else none) := by
    simp
  cases s with
  | call command live => exact ⟨rfl, hasked command⟩
  | refuse command stopped => exact ⟨rfl, hasked command⟩
  | _ => exact ⟨rfl, hother⟩

/-- The clock and the record of the request change with no other step. -/
theorem Transition.clock {h h' : Hub} {action : Action} {events : List Event}
    (t : Transition h action events h') :
    h'.now = h.now + action.milliseconds ∧
      h'.requestedAt? = (h.requestedAt? <|> if action.isShutdown then some h.now else none) := by
  have hother : h.requestedAt? = (h.requestedAt? <|> if false then some h.now else none) := by
    simp
  cases t with
  | caller s => exact s.clock
  | reader s =>
    rw [s.frame]
    cases s <;> exact ⟨rfl, hother⟩
  | work own s =>
    subst own
    cases s with
    | finish b delivering noneLeft =>
      rw [finish_fst]
      exact ⟨rfl, hother⟩
    | «begin» request rest events h' ready inTime front s =>
      cases s <;> exact ⟨rfl, hother⟩
    | _ => exact ⟨rfl, hother⟩

variable {config : HubConfig} {actions : List Action} {history : List Event} {h : Hub}

theorem perform?_clock (hp : (start config).perform? actions = some (h, history)) :
    h.now = elapsed actions ∧ h.requestedAt? = firstRequest? actions := by
  refine perform?_induction (P := fun actions _ h =>
    h.now = elapsed actions ∧ h.requestedAt? = firstRequest? actions) ⟨rfl, rfl⟩ ?_ hp
  rintro actions history h action h' events - ⟨now, requestedAt⟩ hs
  obtain ⟨now', requestedAt'⟩ := (Transition.of_step? hs).clock
  rw [elapsed_concat, firstRequest?_concat, now', requestedAt', now, requestedAt]
  exact ⟨rfl, rfl⟩

/-- The hub knows the time. -/
theorem perform?_now (hp : (start config).perform? actions = some (h, history)) :
    h.now = elapsed actions := (perform?_clock hp).1

/-- The hub knows when a shutdown was first asked for. -/
theorem perform?_requestedAt? (hp : (start config).perform? actions = some (h, history)) :
    h.requestedAt? = firstRequest? actions := (perform?_clock hp).2

/-- The grace runs from the first request. -/
theorem perform?_isOverdue (hp : (start config).perform? actions = some (h, history)) :
    h.isOverdue = true ↔
      ∃ t, firstRequest? actions = some t ∧ t + config.grace ≤ elapsed actions := by
  have hc := (run_iff_perform?.mpr ⟨_, hp⟩).config_eq
  rw [isOverdue, perform?_requestedAt? hp, perform?_now hp, hc]
  cases firstRequest? actions with
  | none => simp
  | some t => simp

end Hub

end VideoRelay

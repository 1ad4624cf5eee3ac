/-
The overflow policy, where nothing overflows.

* `under` — a hub with another policy;
* `findsRoom` — whenever a subscriber has its turn in the course of some actions, its queue
  has room or is closed;
* `step?_under` — then every action comes to the same under all policies;
* `policies_agree` — so after each of the actions the hub is the same but for the policy, and
  everybody has been told the same.

Design notes: actions are tried, so that a look into an empty queue is one of them.
-/
import VideoRelay.Proofs.Hub.Correspondence
import VideoRelay.Proofs.Hub.Isolation

namespace VideoRelay

namespace Hub

/-- The hub with another policy. -/
def under (policy : OverflowPolicy) (h : Hub) : Hub :=
  { h with config := h.config.withPolicy policy }

/-- Try actions one after the other. -/
def attemptAll (h : Hub) : List Action → Hub × List Event
  | [] => (h, [])
  | action :: rest =>
    let (h, first) := h.attempt action
    let (h, others) := h.attemptAll rest
    (h, first ++ others)

/-- Whether everybody whose turn comes in the course of some actions finds room in its queue
or has closed it. -/
def findsRoom (h : Hub) : List Action → Bool
  | [] => true
  | action :: rest =>
    (action ≠ .work || h.isRoomy) && (h.attempt action).1.findsRoom rest

section Steps

variable {h h' : Hub} {action : Action} {events : List Event} (policy : OverflowPolicy)

theorem CallerStep.under (s : CallerStep h action events h') :
    CallerStep (h.under policy) action events (h'.under policy) := by
  cases s with
  | call command live => exact .call command live
  | refuse command stopped => exact .refuse command stopped
  | cancelWaiting ticket mem => exact .cancelWaiting ticket mem
  | cancelAnswer ticket mem => exact .cancelAnswer ticket mem
  | accept request rest front room wants => exact .accept request rest front room wants
  | acceptAndReturn request rest front room wants =>
    exact .acceptAndReturn request rest front room wants
  | cloneHandle => exact .cloneHandle
  | dropHandle => exact .dropHandle
  | advance milliseconds => exact .advance milliseconds

theorem ReaderStep.under (s : ReaderStep h action events h') :
    ReaderStep (h.under policy) action events (h'.under policy) := by
  cases s with
  | take id s packet rest found front => exact .take id s packet rest found front
  | close id s found => exact .close id s found
  | discard id s found => exact .discard id s found

/-- Where nobody has to be waited for, the policy is no reason to stop. -/
theorem StopCause.under {cause : List Event} (why : StopCause h cause) (roomy : h.isRoomy = true) :
    StopCause (h.under policy) cause := by
  cases why with
  | expired ready overdue => exact .expired ready overdue
  | abandoned b id rest s delivering front found waits overdue =>
    have full := Nat.not_lt.mpr waits.full
    simp [isRoomy, delivering, front, found, waits.isOpen, full] at roomy
  | asked ticket rest ready inTime front => exact .asked ticket rest ready inTime front
  | unreachable ready inTime empty gone => exact .unreachable ready inTime empty gone

theorem WorkStep.under (s : WorkStep h events h') (roomy : h.isRoomy = true) :
    WorkStep (h.under policy) events (h'.under policy) := by
  rcases s.stops_or_live with ⟨cause, why, rfl, rfl⟩ | live
  · exact .stop cause (why.under policy roomy)
  · have tr : Transition h .work events h' := .work rfl s
    have same : h'.refit (h.config.withPolicy policy) h.waiting = h'.under policy := by
      rw [← s.waiting_eq live, ← tr.config_eq]
      rfl
    exact same ▸ s.refit _ _ live rfl rfl (.inr roomy)

/-- Where nobody has to be waited for, what is possible is possible under any policy, and
comes to the same. -/
theorem step?_under_of_some (apart : h.IsApart) (roomy : action = .work → h.isRoomy = true)
    (hs : h.step? action = some (h', events)) :
    (h.under policy).step? action = some (h'.under policy, events) := by
  have held : action.needsHandle = true → 0 < h.handles := needsHandle_of_step? hs
  refine Transition.step? ?_ apart held
  cases Transition.of_step? hs with
  | caller s => exact .caller (s.under policy)
  | reader s => exact .reader (s.under policy)
  | work own s => exact .work own (s.under policy (roomy own))

/-- And so nothing else is. -/
theorem step?_under (apart : h.IsApart) (roomy : action = .work → h.isRoomy = true) :
    (h.under policy).step? action =
      (h.step? action).map fun (last, events) => (last.under policy, events) := by
  cases hs : h.step? action with
  | some result => exact step?_under_of_some policy apart roomy hs
  | none =>
    cases hs' : (h.under policy).step? action with
    | none => rfl
    | some result =>
      have back := step?_under_of_some (h := h.under policy) h.config.policy apart roomy hs'
      have same : (h.under policy).under h.config.policy = h := rfl
      rw [same, hs] at back
      cases back

theorem attempt_under (apart : h.IsApart) (roomy : action = .work → h.isRoomy = true) :
    (h.under policy).attempt action =
      ((h.attempt action).1.under policy, (h.attempt action).2) := by
  rw [attempt, attempt, step?_under policy apart roomy]
  cases h.step? action <;> rfl

end Steps

section Courses

variable {config : HubConfig} {history : List Event} {h : Hub}

theorem Run.attempt (run : Run config history h) (action : Action) :
    Run config (history ++ (h.attempt action).2) (h.attempt action).1 := by
  rw [Hub.attempt]
  cases hs : h.step? action with
  | none =>
    rw [Option.getD_none, List.append_nil]
    exact run
  | some result => exact .step run hs

theorem Run.attemptAll (run : Run config history h) (actions : List Action) :
    Run config (history ++ (h.attemptAll actions).2) (h.attemptAll actions).1 := by
  induction actions generalizing history h with
  | nil =>
    rw [Hub.attemptAll, List.append_nil]
    exact run
  | cons action actions ih =>
    have rest := ih (run.attempt action)
    rwa [List.append_assoc] at rest

theorem findsRoom_append {before after : List Action}
    (roomy : h.findsRoom (before ++ after) = true) : h.findsRoom before = true := by
  induction before generalizing h with
  | nil => rfl
  | cons action before ih =>
    rw [List.cons_append, findsRoom, Bool.and_eq_true] at roomy
    rw [findsRoom, Bool.and_eq_true]
    exact ⟨roomy.1, ih roomy.2⟩

theorem Run.attemptAll_under (run : Run config history h) (policy : OverflowPolicy)
    {actions : List Action} (roomy : h.findsRoom actions = true) :
    (h.under policy).attemptAll actions =
      ((h.attemptAll actions).1.under policy, (h.attemptAll actions).2) := by
  induction actions generalizing history h with
  | nil => rfl
  | cons action actions ih =>
    rw [findsRoom, Bool.and_eq_true] at roomy
    obtain ⟨now, later⟩ := roomy
    have roomy : action = .work → h.isRoomy = true := by
      rintro rfl
      simpa using now
    rw [Hub.attemptAll, attempt_under policy run.isApart roomy]
    simp only [ih (run.attempt action) later]
    rfl

/-- If whoever has a turn finds room in its queue or has closed it, it is all the same under
which policy: after each of the actions, tried in any order, the register, the queues and the
counters are the same, and so is all that has happened and that anybody was told. -/
theorem policies_agree (config : HubConfig) (policy other : OverflowPolicy)
    {actions : List Action}
    (roomy : (start (config.withPolicy policy)).findsRoom actions = true) :
    ∀ before, before <+: actions → ∃ h history,
      (start (config.withPolicy policy)).attemptAll before = (h, history) ∧
      (start (config.withPolicy other)).attemptAll before =
        ({ h with config := config.withPolicy other }, history) ∧
      Run (config.withPolicy policy) history h ∧
      Run (config.withPolicy other) history { h with config := config.withPolicy other } := by
  rintro before ⟨after, rfl⟩
  have first : Run (config.withPolicy policy) [] (start (config.withPolicy policy)) := .start
  have second : Run (config.withPolicy other) [] (start (config.withPolicy other)) := .start
  have run := first.attemptAll before
  have run' := second.attemptAll before
  have same : (start (config.withPolicy other)).attemptAll before = _ :=
    first.attemptAll_under other (findsRoom_append roomy)
  have renamed : (((start (config.withPolicy policy)).attemptAll before).1.under other) =
      { ((start (config.withPolicy policy)).attemptAll before).1 with
        config := config.withPolicy other } := by
    rw [under, run.config_eq]
    rfl
  rw [renamed] at same
  rw [same] at run'
  exact ⟨_, _, rfl, same, run, run'⟩

/-- Subscriber 0 takes its packet, and looks once more for nothing; subscriber 1 closes a full
queue before the second packet comes.  A hub that would wait and one that would disconnect both
remove subscriber 1 because it has closed, and report so. -/
theorem policies_agree_on_closed :
    ∃ actions h history, (start ⟨1, 1, .block, 1000⟩).findsRoom actions = true ∧
      (start ⟨1, 1, .block, 1000⟩).attemptAll actions = (h, history) ∧
      (start ⟨1, 1, .disconnect, 1000⟩).attemptAll actions =
        ({ h with config := ⟨1, 1, .disconnect, 1000⟩ }, history) ∧
      h.subscribers.map (·.queue) = [[[2, 3]], [[1]]] ∧ removals history = [(1, .closed)] ∧
      .returned 4 (.report ⟨2, 3, 1, 2, 0, 0⟩) ∈ history := by
  have roomy : (start (HubConfig.withPolicy ⟨1, 1, .block, 1000⟩ .block)).findsRoom
      [.call .register, .enqueue, .work, .call .register, .enqueue, .work,
        .call (.packet [1]), .enqueue, .work, .work, .work, .work, .take 0, .take 0, .close 1,
        .call (.packet [2, 3]), .enqueue, .work, .work, .work, .work, .call .stats, .enqueue,
        .work] = true := rfl
  obtain ⟨h, history, first, second, -⟩ :=
    policies_agree _ .block .disconnect roomy _ (List.prefix_refl _)
  obtain ⟨rfl, rfl⟩ := Prod.mk.inj first
  exact ⟨_, _, _, roomy, first, second, rfl, rfl, by decide⟩

end Courses

end Hub

end VideoRelay

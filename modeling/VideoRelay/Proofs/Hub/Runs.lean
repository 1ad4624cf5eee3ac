/-
Runs, action by action.

The time of an event is not in a history, nor is what was done and came to
nothing; so runs are also given with their actions.

* `Hub.perform?` — actions one after the other;
* `perform?_split`, `perform?_of_mem` — every event of a history happens with one of the actions;
* `perform?_induction` — what every action keeps holds after all of them;
* `run_iff_perform?`, `Run.split` — the runs are what actions lead to.
-/
import Mathlib.Data.List.Induction
import VideoRelay.Hub.Step

namespace VideoRelay

namespace Hub

/-- Actions one after the other; nothing if one of them is not possible. -/
def perform? (h : Hub) : List Action → Option (Hub × List Event)
  | [] => some (h, [])
  | action :: rest => do
    let (h, first) ← h.step? action
    let (h, others) ← h.perform? rest
    return (h, first ++ others)

theorem perform?_cons {h h' : Hub} {action : Action} {actions : List Action}
    {history : List Event} :
    h.perform? (action :: actions) = some (h', history) ↔
      ∃ mid first events, h.step? action = some (mid, first) ∧
        mid.perform? actions = some (h', events) ∧ history = first ++ events := by
  simp only [perform?, Option.pure_def, Option.bind_eq_bind, Option.bind_eq_some_iff,
    Option.some.injEq, Prod.mk.injEq, Prod.exists]
  constructor
  · rintro ⟨mid, first, hs, last, events, hr, rfl, rfl⟩
    exact ⟨mid, first, events, hs, hr, rfl⟩
  · rintro ⟨mid, first, events, hs, hr, rfl⟩
    exact ⟨mid, first, hs, h', events, hr, rfl, rfl⟩

theorem perform?_append {h h' : Hub} {before : List Action} {history : List Event}
    (hb : h.perform? before = some (h', history)) (after : List Action) :
    h.perform? (before ++ after) =
      (h'.perform? after).map fun (last, events) => (last, history ++ events) := by
  induction before generalizing h history with
  | nil =>
    obtain ⟨rfl, rfl⟩ := by simpa [perform?] using hb
    simp
  | cons action before ih =>
    obtain ⟨mid, first, others, hs, hr, rfl⟩ := perform?_cons.mp hb
    simp only [List.cons_append, perform?, hs, ih hr, Option.pure_def, Option.bind_eq_bind,
      Option.bind_some]
    cases h'.perform? after <;> simp

theorem perform?_concat {h h' : Hub} {actions : List Action} {action : Action}
    {history : List Event} :
    h.perform? (actions ++ [action]) = some (h', history) ↔
      ∃ mid earlier events, h.perform? actions = some (mid, earlier) ∧
        mid.step? action = some (h', events) ∧ history = earlier ++ events := by
  constructor
  · intro hp
    induction actions generalizing h history with
    | nil =>
      obtain ⟨mid, first, others, hs, hr, rfl⟩ := perform?_cons.mp hp
      obtain ⟨rfl, rfl⟩ := by simpa [perform?] using hr
      exact ⟨h, [], first, rfl, hs, List.append_nil first⟩
    | cons first actions ih =>
      obtain ⟨next, e₁, e₂, hs, hr, rfl⟩ := perform?_cons.mp hp
      obtain ⟨mid, earlier, events, hm, hs', rfl⟩ := ih hr
      refine ⟨mid, e₁ ++ earlier, events, ?_, hs', (List.append_assoc _ _ _).symm⟩
      exact perform?_cons.mpr ⟨next, e₁, earlier, hs, hm, rfl⟩
  · rintro ⟨mid, earlier, events, hm, hs, rfl⟩
    rw [perform?_append hm [action]]
    simp [perform?, hs]

/-- Every event of a history happens with one of the actions. -/
theorem perform?_split {h h' : Hub} {actions : List Action} {past rest : List Event} {e : Event}
    (hp : h.perform? actions = some (h', past ++ e :: rest)) :
    ∃ before action after h₀ h₁ earlier pre post later,
      actions = before ++ action :: after ∧ h.perform? before = some (h₀, earlier) ∧
        h₀.step? action = some (h₁, pre ++ e :: post) ∧ h₁.perform? after = some (h', later) ∧
        past = earlier ++ pre ∧ rest = post ++ later := by
  induction actions generalizing h past with
  | nil => simp [perform?] at hp
  | cons action actions ih =>
    obtain ⟨mid, first, events, hs, hr, split⟩ := perform?_cons.mp hp
    rcases List.append_eq_append_iff.mp split with ⟨pre, hfirst, hrest⟩ | ⟨pre, hpast, hevents⟩
    · cases pre with
      | nil =>
        -- The event is the first of those that follow this action.
        rw [List.append_nil] at hfirst
        rw [List.nil_append] at hrest
        have hr' : mid.perform? actions = some (h', [] ++ e :: rest) := hrest ▸ hr
        obtain ⟨before, action', after, h₀, h₁, earlier, pre, post, later, rfl, hb, hs', ha,
          hpast, hlater⟩ := ih hr'
        refine ⟨action :: before, action', after, h₀, h₁, first ++ earlier, pre, post, later, rfl,
          perform?_cons.mpr ⟨mid, first, earlier, hs, hb, rfl⟩, hs', ha, ?_, hlater⟩
        rw [List.append_assoc, ← hpast, List.append_nil, hfirst]
      | cons e' post =>
        -- It is one of the events of this action.
        obtain ⟨rfl, rfl⟩ := List.cons_eq_cons.mp hrest
        exact ⟨[], action, actions, h, mid, [], past, post, events, rfl, rfl, hfirst ▸ hs, hr, rfl,
          rfl⟩
    · rw [hevents] at hr
      -- It comes later, and all events of this action are past.
      obtain ⟨before, action', after, h₀, h₁, earlier, pre', post, later, rfl, hb, hs', ha,
        hpre, hlater⟩ := ih hr
      refine ⟨action :: before, action', after, h₀, h₁, first ++ earlier, pre', post, later, rfl,
        perform?_cons.mpr ⟨mid, first, earlier, hs, hb, rfl⟩, hs', ha, ?_, hlater⟩
      rw [hpast, hpre, List.append_assoc]

/-- The action with which something happens. -/
theorem perform?_of_mem {h h' : Hub} {actions : List Action} {events : List Event} {e : Event}
    (hp : h.perform? actions = some (h', events)) (mem : e ∈ events) :
    ∃ before h₀ earlier action h₁ now, h.perform? before = some (h₀, earlier) ∧
      h₀.step? action = some (h₁, now) ∧ e ∈ now := by
  obtain ⟨past, rest, rfl⟩ := List.append_of_mem mem
  obtain ⟨before, action, -, h₀, h₁, earlier, pre, post, -, -, hb, hs, -, -, -⟩ :=
    perform?_split hp
  exact ⟨before, h₀, earlier, action, h₁, _, hb, hs, List.mem_append_right _ List.mem_cons_self⟩

/-- What holds at the start and is kept by every action holds after all actions. -/
theorem perform?_induction {config : HubConfig}
    {P : List Action → List Event → Hub → Prop} (start : P [] [] (start config))
    (step : ∀ {actions history h action h' events},
      (Hub.start config).perform? actions = some (h, history) → P actions history h →
      h.step? action = some (h', events) → P (actions ++ [action]) (history ++ events) h')
    {actions : List Action} {history : List Event} {h : Hub}
    (hp : (Hub.start config).perform? actions = some (h, history)) : P actions history h := by
  induction actions using List.reverseRecOn generalizing history h with
  | nil =>
    obtain ⟨rfl, rfl⟩ := by simpa [perform?] using hp
    exact start
  | append_singleton actions action ih =>
    obtain ⟨mid, earlier, events, hm, hs, rfl⟩ := perform?_concat.mp hp
    exact step hm (ih hm) hs

/-- The runs are what actions lead to. -/
theorem run_iff_perform? {config : HubConfig} {history : List Event} {h : Hub} :
    Run config history h ↔
      ∃ actions, (start config).perform? actions = some (h, history) := by
  constructor
  · intro run
    induction run with
    | start => exact ⟨[], rfl⟩
    | @step _ _ _ _ action _ hs ih =>
      obtain ⟨actions, hp⟩ := ih
      exact ⟨actions ++ [action], perform?_concat.mpr ⟨_, _, _, hp, hs, rfl⟩⟩
  · rintro ⟨actions, hp⟩
    exact perform?_induction (P := fun _ history h => Run config history h) .start
      (fun _ run hs => .step run hs) hp

/-- The state in which an event of a history happens. -/
theorem Run.split {config : HubConfig} {past rest : List Event} {e : Event} {h : Hub}
    (run : Run config (past ++ e :: rest) h) :
    ∃ h₀ action h₁ earlier pre post, Run config earlier h₀ ∧
      h₀.step? action = some (h₁, pre ++ e :: post) ∧ past = earlier ++ pre := by
  obtain ⟨actions, hp⟩ := run_iff_perform?.mp run
  obtain ⟨before, action, -, h₀, h₁, earlier, pre, post, -, -, hb, hs, -, hpast, -⟩ :=
    perform?_split hp
  exact ⟨h₀, action, h₁, earlier, pre, post, run_iff_perform?.mpr ⟨before, hb⟩, hs, hpast⟩

end Hub

end VideoRelay

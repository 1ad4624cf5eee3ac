/-
Why a hub stops, and what happens afterwards.

* `Transition.of_isCause` — the event that is the reason stops the hub at once;
* `perform?_of_stopped` — a stopped hub stays so, and nothing that is done has an
  effect any more;
* `StopReason`, `perform?_stopped` — a hub stops because a shutdown's turn has come,
  because the grace has run out, or because nobody can reach it any more.

Design notes: a reason is stated of the actions and the history before it, so that a
stop can be judged without the state: the grace runs from the first action that asked
for a shutdown, wherever its command is.
-/
import VideoRelay.Proofs.Hub.Clock
import VideoRelay.Proofs.Hub.Calls

namespace VideoRelay

namespace Hub

/-! ### The event that is the reason -/

/-- Whether the event is a reason to stop. -/
def Event.isCause : Event → Bool
  | .began ⟨_, .shutdown⟩ => true
  | .expired _ => true
  | _ => false

theorem StopCause.eq_singleton {h : Hub} {cause : List Event} (why : StopCause h cause)
    {e : Event} (mem : e ∈ cause) : cause = [e] := by
  cases why with
  | unreachable => cases mem
  | _ => rw [List.mem_singleton.mp mem]

/-- Only a hub at work has a reason to stop. -/
theorem StopCause.live {h : Hub} {cause : List Event} (why : StopCause h cause) :
    h.phase ≠ .stopped := by
  cases why with
  | expired ready overdue => simp [ready]
  | abandoned b id rest s delivering front found waits overdue => simp [delivering]
  | asked ticket rest ready inTime front => simp [ready]
  | unreachable ready inTime empty gone => simp [ready]

theorem BeginStep.not_isCause {h h' : Hub} {request : Request} {rest : List Request}
    {events : List Event} (s : BeginStep h rest request events h') :
    ∀ e ∈ .began request :: events, e.isCause = false := by
  intro e mem
  cases s with
  | unregister ticket id =>
    rcases List.mem_cons.mp mem with rfl | mem
    · rfl
    · exact forall_mem_remove (P := fun e => e.isCause = false) (fun _ _ _ _ _ => rfl) _ _ _ e mem
  | packet | register | abandon | stats | statsUnread =>
    simp only [List.mem_cons, List.not_mem_nil, or_false] at mem
    rcases mem with rfl | rfl | rfl <;> rfl

theorem WorkStep.of_isCause {h h' : Hub} {events : List Event} (s : WorkStep h events h')
    {e : Event} (mem : e ∈ events) (reason : e.isCause = true) :
    StopCause h [e] ∧ events = e :: h.stop.2 ∧ h' = h.stop.1 := by
  cases s with
  | turn b id rest s outcome delivering front found fits =>
    rw [List.mem_singleton.mp mem] at reason
    cases outcome <;> cases reason
  | pass b id rest delivering front unknown => cases mem
  | finish b delivering noneLeft =>
    rw [forall_mem_finish (P := fun e => e.isCause = false) (fun _ _ _ _ _ => rfl) h b e mem]
      at reason
    cases reason
  | «begin» request rest events h' ready inTime front s =>
    rw [s.not_isCause e mem] at reason
    cases reason
  | stop cause why =>
    rcases List.mem_append.mp mem with mem | mem
    · obtain rfl := why.eq_singleton mem
      exact ⟨why, rfl, rfl⟩
    · rw [forall_mem_stop (P := fun e => e.isCause = false) (fun _ _ => rfl) (fun _ _ => rfl) h e
        mem] at reason
      cases reason

/-- What is a reason to stop is followed by the stop, in the same step. -/
theorem Transition.of_isCause {h h' : Hub} {action : Action} {events : List Event}
    (tr : Transition h action events h') {e : Event} (mem : e ∈ events)
    (reason : e.isCause = true) :
    action = .work ∧ StopCause h [e] ∧ events = e :: h.stop.2 ∧ h' = h.stop.1 := by
  cases tr with
  | caller s =>
    have : ∀ e ∈ events, e.isCause = false := by cases s <;> simp [Event.isCause]
    rw [this e mem] at reason
    cases reason
  | reader s =>
    have : ∀ e ∈ events, e.isCause = false := by cases s <;> simp [Event.isCause]
    rw [this e mem] at reason
    cases reason
  | work own s => exact ⟨own, s.of_isCause mem reason⟩

/-- The state in which a reason to stop comes about, and what follows it. -/
theorem perform?_at_cause {config : HubConfig} {actions : List Action} {past rest : List Event}
    {h : Hub} {e : Event} (hp : (start config).perform? actions = some (h, past ++ e :: rest))
    (reason : e.isCause = true) :
    ∃ before after h₀ later, actions = before ++ .work :: after ∧
      (start config).perform? before = some (h₀, past) ∧ StopCause h₀ [e] ∧
      h₀.stop.1.perform? after = some (h, later) ∧ rest = h₀.stop.2 ++ later := by
  obtain ⟨before, action, after, h₀, h₁, earlier, pre, post, later, rfl, hb, hs, ha, hpast,
    hrest⟩ := perform?_split hp
  obtain ⟨rfl, why, split, rfl⟩ := (Transition.of_step? hs).of_isCause (by simp) reason
  -- The reason is the first event of its step.
  have notLater : e ∉ h₀.stop.2 := by
    intro mem
    rw [forall_mem_stop (P := fun e => e.isCause = false) (fun _ _ => rfl) (fun _ _ => rfl) h₀ e
      mem] at reason
    cases reason
  cases pre with
  | cons e' pre =>
    obtain ⟨-, hstop⟩ := List.cons_eq_cons.mp split
    exact absurd (hstop ▸ List.mem_append_right _ List.mem_cons_self) notLater
  | nil =>
    obtain ⟨-, hstop⟩ := List.cons_eq_cons.mp split
    rw [List.append_nil] at hpast
    exact ⟨before, after, h₀, later, rfl, hpast ▸ hb, why, ha, hstop ▸ hrest⟩

/-! ### Afterwards -/

theorem Transition.of_stopped {h h' : Hub} {action : Action} {events : List Event}
    (tr : Transition h action events h') (o : Orderly h) (stopped : h.phase = .stopped) :
    h'.phase = .stopped ∧ ∀ e ∈ events, e.isEffect = false := by
  obtain ⟨-, noneWaits, -⟩ := o.stopped stopped
  cases tr with
  | caller s =>
    refine ⟨s.frame.2.1.trans stopped, ?_⟩
    cases s with
    | accept request rest front room wants => simp [noneWaits] at front
    | acceptAndReturn request rest front room wants => simp [noneWaits] at front
    | _ => simp
  | reader s =>
    refine ⟨?_, ?_⟩
    · rw [s.frame]
      exact stopped
    · cases s <;> simp
  | work own s =>
    -- Every step of its own begins with the hub ready or delivering.
    exfalso
    cases s with
    | turn b id rest s outcome delivering front found fits => simp [stopped] at delivering
    | pass b id rest delivering front unknown => simp [stopped] at delivering
    | finish b delivering noneLeft => simp [stopped] at delivering
    | «begin» request rest events h' ready inTime front s => simp [stopped] at ready
    | stop cause why => exact why.live stopped

/-- A stopped hub stays so, and nothing has an effect any more. -/
theorem perform?_of_stopped {h h' : Hub} {actions : List Action} {events : List Event}
    (hp : h.perform? actions = some (h', events)) (o : Orderly h) (stopped : h.phase = .stopped) :
    h'.phase = .stopped ∧ ∀ e ∈ events, e.isEffect = false := by
  induction actions generalizing h events with
  | nil =>
    obtain ⟨rfl, rfl⟩ := by simpa [perform?] using hp
    exact ⟨stopped, fun e mem => absurd mem List.not_mem_nil⟩
  | cons action actions ih =>
    obtain ⟨mid, first, others, hs, hr, rfl⟩ := perform?_cons.mp hp
    have tr := Transition.of_step? hs
    obtain ⟨stopped', first'⟩ := tr.of_stopped o stopped
    obtain ⟨last, others'⟩ := ih hr (tr.orderly o) stopped'
    refine ⟨last, fun e mem => ?_⟩
    rcases List.mem_append.mp mem with mem | mem
    · exact first' e mem
    · exact others' e mem

/-! ### Reasons -/

/-- A reason to stop after `actions`, which had the events `history` and led to `h`;
with what is told of it. -/
inductive StopReason (config : HubConfig) (actions : List Action) (history : List Event)
    (h : Hub) : List Event → Prop
  /-- The turn of a shutdown has come. -/
  | asked (ticket : Nat) (later : List Request) (ready : h.phase = .ready)
      (next : accepted history = begun history ++ ⟨ticket, .shutdown⟩ :: later) :
    StopReason config actions history h [.began ⟨ticket, .shutdown⟩]
  /-- The grace has run out since the first request. -/
  | deadline (place : Expiry) (t : Nat) (requested : firstRequest? actions = some t)
      (late : t + config.grace ≤ elapsed actions) :
    StopReason config actions history h [.expired place]
  /-- Nobody holds a handle or waits for a call to end, and no command is left. -/
  | unreachable (ready : h.phase = .ready) (noHandle : h.handles = 0)
      (noCall : pendingCalls history = []) (allBegun : accepted history = begun history) :
    StopReason config actions history h []

section

variable {config : HubConfig} {actions : List Action} {history : List Event} {h : Hub}

theorem StopCause.reason (hp : (start config).perform? actions = some (h, history))
    {cause : List Event} (why : StopCause h cause) :
    StopReason config actions history h cause := by
  have run := run_iff_perform?.mpr ⟨_, hp⟩
  cases why with
  | expired ready overdue =>
    obtain ⟨t, requested, late⟩ := (perform?_isOverdue hp).mp overdue
    exact .deadline .queue t requested late
  | abandoned b id rest s delivering front found waits overdue =>
    obtain ⟨t, requested, late⟩ := (perform?_isOverdue hp).mp overdue
    exact .deadline .delivery t requested late
  | asked ticket rest ready inTime front =>
    have all := run.intake.queue (by simp [ready])
    exact .asked ticket rest ready (front ▸ all)
  | unreachable ready inTime empty gone =>
    have all := run.intake.queue (by simp [ready])
    -- With nobody waiting the history has no pending call.
    rw [isUnreachable, Bool.and_eq_true, Bool.and_eq_true, List.isEmpty_iff,
      List.isEmpty_iff] at gone
    obtain ⟨⟨noHandle, noneWaits⟩, noneOwed⟩ := gone
    refine .unreachable ready (of_decide_eq_true noHandle) ?_ ?_
    · exact run.pendingCalls_eq_nil noneWaits noneOwed
    · rw [all, empty, List.append_nil]

/-- Only the hub's own step stops it, and for a reason. -/
theorem Transition.stops {h' : Hub} {action : Action} {events : List Event}
    (tr : Transition h action events h') (live : h.phase ≠ .stopped)
    (stopped : h'.phase = .stopped) :
    action = .work ∧ ∃ cause, StopCause h cause ∧ events = cause ++ h.stop.2 := by
  cases tr with
  | caller s => exact absurd (s.frame.2.1 ▸ stopped) live
  | reader s =>
    rw [s.frame] at stopped
    exact absurd stopped live
  | work own s =>
    refine ⟨own, ?_⟩
    cases s with
    | turn b id rest s outcome delivering front found fits => cases stopped
    | pass b id rest delivering front unknown => cases stopped
    | finish b delivering noneLeft =>
      rw [finish_fst] at stopped
      cases stopped
    | «begin» request rest events h' ready inTime front s =>
      cases s with
      | packet ticket packet => cases stopped
      | _ => exact absurd stopped live
    | stop cause why => exact ⟨cause, why, rfl⟩

/-- A hub that has stopped did so for a reason. -/
theorem perform?_stopped (hp : (start config).perform? actions = some (h, history))
    (stopped : h.phase = .stopped) :
    ∃ before after h₀ past cause rest, actions = before ++ .work :: after ∧
      (start config).perform? before = some (h₀, past) ∧ h₀.phase ≠ .stopped ∧
      StopReason config before past h₀ cause ∧ history = past ++ (cause ++ h₀.stop.2) ++ rest ∧
      ∀ e ∈ rest, e.isEffect = false := by
  refine perform?_induction (P := fun actions history h => h.phase = .stopped →
    ∃ before after h₀ past cause rest, actions = before ++ .work :: after ∧
      (start config).perform? before = some (h₀, past) ∧ h₀.phase ≠ .stopped ∧
      StopReason config before past h₀ cause ∧ history = past ++ (cause ++ h₀.stop.2) ++ rest ∧
      ∀ e ∈ rest, e.isEffect = false) ?_ ?_ hp stopped
  · intro stopped
    cases stopped
  · intro actions history h action h' events hp ih hs stopped
    have tr := Transition.of_step? hs
    have run := run_iff_perform?.mpr ⟨_, hp⟩
    by_cases before : h.phase = .stopped
    · -- It had stopped before; the new events come to nothing.
      obtain ⟨acts, after, h₀, past, cause, rest, rfl, hb, live, why, rfl, silent⟩ := ih before
      refine ⟨acts, after ++ [action], h₀, past, cause, rest ++ events, by simp, hb, live, why,
        by simp, ?_⟩
      intro e mem
      rcases List.mem_append.mp mem with mem | mem
      · exact silent e mem
      · exact (tr.of_stopped run.orderly before).2 e mem
    · obtain ⟨rfl, cause, why, rfl⟩ := tr.stops before stopped
      exact ⟨actions, [], h, history, cause, [], rfl, hp, before, why.reason hp, by simp, nofun⟩

end

end Hub

end VideoRelay

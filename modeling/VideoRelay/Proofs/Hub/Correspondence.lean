/-
Hubs that go on alike.

Two hubs may differ in what the actions do not look at.  Then what is possible at one is
possible at the other, and comes to the same but for the difference.

* `Transition.step?` — what an action can do, it does: so hubs are compared case by case;
* `perform?_seen` — if every action comes to the same, so does a course of actions;
* `refit`, `WorkStep.refit` — neither the callers in the line nor, as long as nobody has to be
  waited for, the policy is anything to what the hub does of its own.
-/
import VideoRelay.Proofs.Hub.Calls
import VideoRelay.Proofs.Hub.Runs

namespace VideoRelay

namespace Hub

/-! ### What can be done is done -/

section Converse

variable {h h' : Hub} {action : Action} {events : List Event}

/-- Nobody waits for room and for an answer at once. -/
def IsApart (h : Hub) : Prop := ∀ t ∈ h.unanswered, t ∉ h.waiting.map (·.ticket)

theorem Run.isApart {config : HubConfig} {history : List Event} (run : Run config history h) :
    h.IsApart := fun _ mem => run.ledger.not_waiting mem

/-- Calls and handles need a handle to begin with. -/
def Action.needsHandle : Action → Bool
  | .call _ | .cloneHandle | .dropHandle => true
  | .cancel _ | .take _ | .close _ | .discard _ | .advance _ | .enqueue | .work => false

theorem CallerStep.step? (s : CallerStep h action events h') (apart : h.IsApart)
    (held : action.needsHandle = true → 0 < h.handles) : h.step? action = some (h', events) := by
  cases s with
  | call command live =>
    rw [Hub.step?, if_pos (held rfl)]
    by_cases hc : command = .shutdown <;>
      simp [Hub.call, isStopped, requestedAfter, live, hc]
  | refuse command stopped =>
    rw [Hub.step?, if_pos (held rfl)]
    by_cases hc : command = .shutdown <;>
      simp [Hub.call, isStopped, requestedAfter, stopped, hc]
  | cancelWaiting ticket mem =>
    rw [Hub.step?, cancel?, if_pos]
    simpa using mem
  | cancelAnswer ticket mem =>
    rw [Hub.step?, cancel?, if_neg, if_pos mem]
    simpa using apart ticket mem
  | accept request rest front room wants =>
    rw [Hub.step?, enqueue?, front]
    simp only [room, wants, if_true]
  | acceptAndReturn request rest front room wants =>
    rw [Hub.step?, enqueue?, front]
    simp [room, wants]
  | cloneHandle => exact if_pos (held rfl)
  | dropHandle => exact if_pos (held rfl)
  | advance milliseconds => rfl

theorem ReaderStep.step? (s : ReaderStep h action events h') :
    h.step? action = some (h', events) := by
  cases s with
  | take id s packet rest found front => simp only [Hub.step?, take?, found, front]
  | close id s found =>
    have known : id < h.nextId := (List.getElem?_eq_some_iff.mp found).1
    rw [Hub.step?, if_pos known, Hub.close, found]
  | discard id s found =>
    have known : id < h.nextId := (List.getElem?_eq_some_iff.mp found).1
    rw [Hub.step?, if_pos known, Hub.discard, found]

/-- A turn ends in one way only. -/
theorem Outcome.Fits.deliver? {b : Broadcast} {id : Nat} {s : Subscriber} {outcome : Outcome}
    (fits : outcome.Fits h.config s) (found : h.subscribers[id]? = some s) :
    h.deliver? b id = some (h.served b id s outcome, [Turn.event ⟨id, b.packet, outcome⟩]) := by
  rcases deliver?_cases b found with ⟨other, fits', hd⟩ | ⟨waits, -⟩
  · obtain rfl : other = outcome := by
      cases other <;> cases outcome <;> simp_all [Outcome.Fits] <;> omega
    exact hd
  · obtain ⟨policy, isOpen, full⟩ := waits
    cases outcome <;> simp_all [Outcome.Fits]; omega

theorem BeginStep.apply {request : Request} {rest : List Request}
    (s : BeginStep h rest request events h') :
    { h with commands := rest }.apply request = (h', events) := by
  cases s with
  | packet ticket packet => rfl
  | register ticket awaited => simp [Hub.apply, Hub.register, awaited, nextId]
  | abandon ticket gone =>
    simp [Hub.apply, Hub.register, gone, nextId, Hub.remove, Subscriber.fresh, registeredCount]
  | unregister ticket id =>
    show { h with commands := rest }.remove id .unregistered = _
    rw [Prod.ext_iff, remove_fst]
    exact ⟨rfl, rfl⟩
  | stats ticket awaited => simp [Hub.apply, answerStats, awaited, report, registeredCount]
  | statsUnread ticket gone => simp [Hub.apply, answerStats, gone]

theorem StopCause.work? {cause : List Event} (why : StopCause h cause) :
    h.work? = some (h.stop.1, cause ++ h.stop.2) := by
  cases why with
  | expired ready overdue => simp [Hub.work?, ready, overdue, expire]
  | abandoned b id rest s delivering front found waits overdue =>
    obtain ⟨policy, isOpen, full⟩ := waits
    simp [Hub.work?, delivering, front, Hub.deliver?, found, isOpen, Nat.not_lt.mpr full, policy,
      overdue, expire]
  | asked ticket rest ready inTime front =>
    simp [Hub.work?, ready, inTime, front, Hub.apply, stop, registeredCount]
  | unreachable ready inTime empty gone => simp [Hub.work?, ready, inTime, empty, gone]

theorem WorkStep.work? (s : WorkStep h events h') : h.work? = some (h', events) := by
  cases s with
  | turn b id rest s outcome delivering front found fits =>
    simp only [Hub.work?, delivering, front]
    exact fits.deliver? found
  | pass b id rest delivering front unknown =>
    simp only [Hub.work?, delivering, front, Hub.deliver?, unknown]
  | finish b delivering noneLeft => simp only [Hub.work?, delivering, noneLeft]
  | «begin» request rest events h' ready inTime front s =>
    have applied := s.apply
    simp only [ready] at applied
    simp only [Hub.work?, ready, inTime, front, Bool.false_eq_true, if_false, applied]
  | stop cause why => exact why.work?

/-- What an action can do, it does. -/
theorem Transition.step? (tr : Transition h action events h') (apart : h.IsApart)
    (held : action.needsHandle = true → 0 < h.handles) : h.step? action = some (h', events) := by
  cases tr with
  | caller s => exact s.step? apart held
  | reader s => exact s.step?
  | work own s =>
    subst own
    exact s.work?

theorem needsHandle_of_step? (hs : h.step? action = some (h', events)) :
    action.needsHandle = true → 0 < h.handles := by
  intro needs
  by_contra none
  cases action <;> simp_all [Action.needsHandle, Hub.step?]

end Converse

/-! ### Courses that correspond -/

/-- If the other hub, which is to a hub what `f` makes of it, can do with each of the actions
what the hub can do with it, then so with the course of them.  What the actions rely on is `I`,
and where the course ends. -/
theorem perform?_seen {f : Hub → Hub} {α : Action → Action} {ε : Event → Event} {I : Hub → Prop}
    {h last : Hub} {actions : List Action} {events : List Event}
    (step : ∀ {h action h' events rest others}, I h → action ∈ actions →
      h.step? action = some (h', events) → h'.perform? rest = some (last, others) →
      (f h).step? (α action) = some (f h', events.map ε) ∧ I h')
    (i : I h) (hp : h.perform? actions = some (last, events)) :
    (f h).perform? (actions.map α) = some (f last, events.map ε) := by
  induction actions generalizing h events with
  | nil =>
    obtain ⟨rfl, rfl⟩ := by simpa [perform?] using hp
    rfl
  | cons action actions ih =>
    obtain ⟨mid, first, others, hs, hr, rfl⟩ := perform?_cons.mp hp
    obtain ⟨seen, i'⟩ := step i List.mem_cons_self hs hr
    have rest := ih (fun i mem => step i (List.mem_cons_of_mem _ mem)) i' hr
    exact perform?_cons.mpr ⟨_, _, _, seen, rest, List.map_append⟩

/-! ### What the hub itself does not depend on -/

/-- The hub with another configuration and another line. -/
def refit (config : HubConfig) (waiting : List Request) (h : Hub) : Hub :=
  { h with config, waiting }

/-- Whether whoever has the next turn in a broadcast, if anybody has, finds room in its queue
or has closed it. -/
def isRoomy (h : Hub) : Bool :=
  match h.phase with
  | .delivering b =>
    match b.remaining with
    | id :: _ => h.subscribers[id]?.all fun s => !s.isOpen || s.queue.length < h.config.queueRoom
    | [] => true
  | .ready | .stopped => true

section Refit

variable {h h' : Hub} {events : List Event} (config : HubConfig) (waiting : List Request)

theorem refit_remove (h : Hub) (id : Nat) (reason : Removal) :
    (h.refit config waiting).remove id reason =
      ((h.remove id reason).1.refit config waiting, (h.remove id reason).2) := by
  have same : (h.refit config waiting).isRegistered id = h.isRegistered id := rfl
  cases hr : h.isRegistered id with
  | false => rw [remove_of_not_registered hr, remove_of_not_registered (same.trans hr)]
  | true =>
    obtain ⟨s, found, registered⟩ := isRegistered_iff.mp hr
    rw [remove_of_registered found registered,
      remove_of_registered (h := h.refit config waiting) found registered]
    rfl

theorem refit_removeAll (h : Hub) (reason : Removal) (ids : List Nat) :
    ((h.refit config waiting).removeAll reason ids).2 = (h.removeAll reason ids).2 := by
  induction ids generalizing h with
  | nil => rfl
  | cons id ids ih => rw [removeAll_cons_snd, removeAll_cons_snd, refit_remove, ih]

theorem refit_finish (h : Hub) (b : Broadcast) :
    (h.refit config waiting).finish b =
      ((h.finish b).1.refit config waiting, (h.finish b).2) := by
  rw [Prod.ext_iff, finish_fst, finish_snd, finish_fst, finish_snd, refit_removeAll]
  refine ⟨rfl, congrArg _ ?_⟩
  exact refit_removeAll config waiting ((h.without b.closed).counting b.overflowed.length) _ _

theorem BeginStep.refit {request : Request} {rest : List Request}
    (s : BeginStep h rest request events h') :
    BeginStep (h.refit config waiting) rest request events (h'.refit config waiting) := by
  cases s with
  | packet ticket packet => exact .packet ticket packet
  | register ticket awaited => exact .register ticket awaited
  | abandon ticket gone => exact .abandon ticket gone
  | unregister ticket id =>
    have s : BeginStep (h.refit config waiting) rest _ _ _ := .unregister ticket id
    have removal := refit_remove config waiting { h with commands := rest } id .unregistered
    rw [Prod.ext_iff] at removal
    exact removal.2 ▸ s
  | stats ticket awaited => exact .stats ticket awaited
  | statsUnread ticket gone => exact .statsUnread ticket gone

/-- A turn that finds room or a closed queue ends alike under all policies. -/
theorem Outcome.Fits.refit {outcome : Outcome} {b : Broadcast} {id : Nat} {rest : List Nat}
    {s : Subscriber} (fits : outcome.Fits h.config s) (room : config.queueRoom = h.config.queueRoom)
    (policy : config.policy = h.config.policy ∨ h.isRoomy = true)
    (delivering : h.phase = .delivering b) (front : b.remaining = id :: rest)
    (found : h.subscribers[id]? = some s) : outcome.Fits config s := by
  rcases policy with policy | roomy
  · cases outcome <;> simpa [Outcome.Fits, room, policy] using fits
  · simp only [isRoomy, delivering, front, found, Option.all_some, Bool.or_eq_true,
      Bool.not_eq_true', decide_eq_true_eq] at roomy
    cases outcome with
    | queued => exact ⟨fits.1, room ▸ fits.2⟩
    | refused => exact fits
    | skipped | overflowed =>
      -- There was room, or nobody to leave out.
      obtain ⟨isOpen, full, -⟩ := fits
      rcases roomy with shut | roomy
      · rw [isOpen] at shut
        cases shut
      · exact absurd roomy (Nat.not_lt.mpr full)

/-- The hub stops for a reason, or goes on. -/
theorem WorkStep.stops_or_live (s : WorkStep h events h') :
    (∃ cause, StopCause h cause ∧ events = cause ++ h.stop.2 ∧ h' = h.stop.1) ∨
      h'.phase ≠ .stopped := by
  cases s with
  | turn b id rest s outcome delivering front found fits => exact .inr nofun
  | pass b id rest delivering front unknown => exact .inr nofun
  | finish b delivering noneLeft =>
    rw [finish_fst]
    exact .inr nofun
  | «begin» request rest events h' ready inTime front s =>
    refine .inr ?_
    cases s <;> simp [broadcast, without, ready]
  | stop cause why => exact .inl ⟨cause, why, rfl, rfl⟩

theorem WorkStep.waiting_eq (s : WorkStep h events h') (live : h'.phase ≠ .stopped) :
    h'.waiting = h.waiting := by
  cases s with
  | turn b id rest s outcome delivering front found fits => rfl
  | pass b id rest delivering front unknown => rfl
  | finish b delivering noneLeft => rw [finish_fst]; rfl
  | «begin» request rest events h' ready inTime front s => exact s.calls.2.1
  | stop cause why => exact absurd rfl live

/-- As long as the hub does not stop, its steps are the same. -/
theorem WorkStep.refit (s : WorkStep h events h') (live : h'.phase ≠ .stopped)
    (room : config.queueRoom = h.config.queueRoom) (grace : config.grace = h.config.grace)
    (policy : config.policy = h.config.policy ∨ h.isRoomy = true) :
    WorkStep (h.refit config waiting) events (h'.refit config waiting) := by
  have overdue : (h.refit config waiting).isOverdue = h.isOverdue := by
    rw [isOverdue, isOverdue, Hub.refit]
    simp only [grace]
  cases s with
  | turn b id rest s outcome delivering front found fits =>
    exact .turn b id rest s outcome delivering front found
      (fits.refit config room policy delivering front found)
  | pass b id rest delivering front unknown => exact .pass b id rest delivering front unknown
  | finish b delivering noneLeft =>
    have s : WorkStep (h.refit config waiting) _ _ := .finish b delivering noneLeft
    rwa [refit_finish] at s
  | «begin» request rest events h' ready inTime front s =>
    exact .begin request rest events _ ready (overdue.trans inTime) front
      (s.refit config waiting)
  | stop cause why => exact absurd rfl live

end Refit

end Hub

end VideoRelay

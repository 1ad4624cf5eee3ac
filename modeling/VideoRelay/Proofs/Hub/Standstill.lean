/-
When nothing can proceed.

* `Standstill` — the hub has stopped, is idle, or waits for room in a queue;
* `standstill_of_isStuck` — when neither the hub nor a waiting caller can proceed,
  exactly one of the three is the case; callers wait for room only behind a blocked
  hub, and receiving ends wait only where more can come.

Design notes: a standstill is described by what was done (`Action`s) and what
happened (`Event`s), and by the state only for what is in the queues.
-/
import VideoRelay.Proofs.Hub.Clock
import VideoRelay.Proofs.Hub.Rounds

namespace VideoRelay

namespace Hub

/-! ### Situations -/

/-- The hub has stopped, and every call has ended. -/
structure HasEnded (history : List Event) (h : Hub) : Prop where
  phase : h.phase = .stopped
  noCall : pendingCalls history = []

/-- The hub has nothing to do: no command is left, no call under way, and somebody
can still call. -/
structure IsIdle (history : List Event) (h : Hub) : Prop where
  phase : h.phase = .ready
  noCommand : h.commands = []
  /-- All commands that entered the queue were taken up and applied to the end. -/
  allBegun : accepted history = begun history
  allApplied : ∀ r ∈ begun history, Applied history r
  noCall : pendingCalls history = []
  handle : 0 < h.handles

/-- The hub waits for room in the queue of `id`, in the middle of the packet command
that it took up last. -/
structure IsBlockedOn (id : Nat) (config : HubConfig) (actions : List Action)
    (history : List Event) (h : Hub) : Prop where
  policy : config.policy = .block
  /-- Those before `id` have had their turn, those after it have not. -/
  midway : ∃ before ticket during b rest, h.phase = .delivering b ∧
    history = before ++ .began ⟨ticket, .packet b.packet⟩ :: during ∧ begun during = [] ∧
    b.remaining = id :: rest ∧ (turns during).map (·.id) ++ id :: rest = members before
  member : id ∈ members history
  notClosed : id ∉ closings history
  full : ∃ s, h.subscribers[id]? = some s ∧ s.queue.length = max config.queueCapacity 1
  inTime : ∀ t, firstRequest? actions = some t → elapsed actions < t + config.grace

/-- How it can be that nothing proceeds. -/
inductive Standstill
  | ended
  | idle
  | blocked
  deriving DecidableEq, Repr

def Standstill.Holds (config : HubConfig) (actions : List Action) (history : List Event)
    (h : Hub) : Standstill → Prop
  | .ended => HasEnded history h
  | .idle => IsIdle history h
  | .blocked => ∃ id, IsBlockedOn id config actions history h

/-- The phase tells which it is. -/
theorem Standstill.Holds.phase {config : HubConfig} {actions : List Action}
    {history : List Event} {h : Hub} {k : Standstill} (holds : k.Holds config actions history h) :
    match k with
    | .ended => h.phase = .stopped
    | .idle => h.phase = .ready
    | .blocked => ∃ b, h.phase = .delivering b := by
  cases k with
  | ended => exact HasEnded.phase holds
  | idle => exact IsIdle.phase holds
  | blocked =>
    obtain ⟨id, blocked⟩ := holds
    obtain ⟨before, ticket, during, b, rest, delivering, -⟩ := blocked.midway
    exact ⟨b, delivering⟩

/-- Two situations exclude each other. -/
theorem Standstill.Holds.unique {config : HubConfig} {actions : List Action}
    {history : List Event} {h : Hub} {k k' : Standstill}
    (holds : k.Holds config actions history h) (holds' : k'.Holds config actions history h) :
    k' = k := by
  have hk := holds.phase
  have hk' := holds'.phase
  cases k <;> cases k' <;> simp_all

/-! ### Standstills of a run -/

theorem enqueue?_eq_none {h : Hub} (he : h.enqueue? = none) :
    h.waiting = [] ∨ h.config.commandRoom ≤ h.commands.length := by
  rw [enqueue?] at he
  cases line : h.waiting with
  | nil => exact .inl rfl
  | cons request rest =>
    refine .inr (Nat.not_lt.mp fun room => ?_)
    simp only [line, room, if_true] at he
    cases wants : request.command.wantsAnswer <;> simp [wants] at he

theorem commandRoom_pos (config : HubConfig) : 0 < config.commandRoom :=
  Nat.lt_of_lt_of_le Nat.one_pos (Nat.le_max_right _ _)

section

variable {config : HubConfig} {actions : List Action} {history : List Event} {h : Hub}

theorem Run.hasEnded (run : Run config history h) (stopped : h.phase = .stopped) :
    HasEnded history h := by
  obtain ⟨-, noneWaits, noneOwed⟩ := run.orderly.stopped stopped
  exact ⟨stopped, run.pendingCalls_eq_nil noneWaits noneOwed⟩

theorem Run.isIdle (run : Run config history h) (ready : h.phase = .ready)
    (empty : h.commands = []) (noneWaits : h.waiting = []) (reachable : h.isUnreachable = false) :
    IsIdle history h := by
  -- Whoever waits for an answer would have a command in the queue.
  have noneOwed : h.unanswered = [] := by
    rw [List.eq_nil_iff_forall_not_mem]
    intro t mem
    obtain ⟨r, inQueue, -⟩ := run.ledger.awaited t mem
    rw [empty] at inQueue
    cases inQueue
  have all := run.intake.queue (by simp [ready])
  refine ⟨ready, empty, ?_, run.progress.all ready, ?_, ?_⟩
  · rw [all, empty, List.append_nil]
  · exact run.pendingCalls_eq_nil noneWaits noneOwed
  · rw [isUnreachable, noneWaits, noneOwed] at reachable
    exact Nat.pos_of_ne_zero (by simpa using reachable)

theorem perform?_isBlockedOn (hp : (start config).perform? actions = some (h, history))
    {b : Broadcast} {id : Nat} {rest : List Nat} {s : Subscriber}
    (delivering : h.phase = .delivering b) (front : b.remaining = id :: rest)
    (found : h.subscribers[id]? = some s) (waits : h.WaitsFor s) (inTime : h.isOverdue = false) :
    IsBlockedOn id config actions history h := by
  have run := run_iff_perform?.mpr ⟨_, hp⟩
  have a := run.account_of_found found
  have registered := (run.orderly.underWay b delivering).isRegistered (front ▸ List.mem_cons_self)
  refine ⟨run.config_eq ▸ waits.policy, ?_, ?_, a.isOpen.mp waits.isOpen,
    ⟨s, found, run.length_of_waitsFor found waits⟩, ?_⟩
  · obtain ⟨before, ticket, during, split, r⟩ := run.round b delivering
    exact ⟨before, ticket, during, b, rest, delivering, split, r.noneBegun, front,
      front ▸ r.turns⟩
  · rw [run.members_eq]
    exact mem_registeredIds.mpr registered
  · intro t requested
    -- Otherwise the hub would not wait but give up.
    by_contra late
    have : h.isOverdue = true :=
      (perform?_isOverdue hp).mpr ⟨t, requested, Nat.not_lt.mp late⟩
    rw [inTime] at this
    cases this

/-- Where nothing proceeds, the hub has stopped, is idle or is blocked, and never two
of these. -/
theorem perform?_holds (hp : (start config).perform? actions = some (h, history))
    (stuck : h.isStuck = true) : ∃ k : Standstill, k.Holds config actions history h := by
  have run := run_iff_perform?.mpr ⟨_, hp⟩
  rw [isStuck, Bool.and_eq_true, Option.isNone_iff_eq_none, Option.isNone_iff_eq_none] at stuck
  rcases work?_eq_none stuck.1 with
    stopped | ⟨ready, -, empty, reachable⟩ |
    ⟨b, id, rest, s, delivering, front, found, waits, inTime⟩
  · exact ⟨.ended, run.hasEnded stopped⟩
  · have noneWaits : h.waiting = [] := by
      -- An empty queue of commands has room for whoever waits.
      refine (enqueue?_eq_none stuck.2).resolve_right fun full => ?_
      rw [empty] at full
      exact absurd full (Nat.not_le.mpr (commandRoom_pos _))
    exact ⟨.idle, run.isIdle ready empty noneWaits reachable⟩
  · exact ⟨.blocked, id, perform?_isBlockedOn hp delivering front found waits inTime⟩

/-- Nobody waits for room but behind a blocked hub with a full queue of commands. -/
theorem perform?_waiting (hp : (start config).perform? actions = some (h, history))
    (stuck : h.isStuck = true) (waits : h.waiting ≠ []) :
    Standstill.blocked.Holds config actions history h ∧
      h.commands.length = max config.commandCapacity 1 := by
  have run := run_iff_perform?.mpr ⟨_, hp⟩
  obtain ⟨k, holds⟩ := perform?_holds hp stuck
  rw [isStuck, Bool.and_eq_true, Option.isNone_iff_eq_none, Option.isNone_iff_eq_none] at stuck
  have atLeast := (enqueue?_eq_none stuck.2).resolve_left waits
  have exactly := Nat.le_antisymm run.orderly.commandRoom atLeast
  rw [run.config_eq] at exactly
  refine ⟨?_, exactly⟩
  cases k with
  | ended => exact absurd (run.orderly.stopped (HasEnded.phase holds)).2.1 waits
  | idle =>
    rw [IsIdle.noCommand holds] at exactly
    exact absurd exactly.symm (Nat.ne_of_gt (commandRoom_pos _))
  | blocked => exact holds

/-- A receiving end waits where more can come and all that came has been taken. -/
theorem Run.available_waiting (run : Run config history h) {id : Nat}
    (waits : h.available id = .waiting) :
    h.phase ≠ .stopped ∧ id ∈ members history ∧ id ∉ closings history ∧
      (∃ s, h.subscribers[id]? = some s ∧ s.queue = []) ∧
      takenBy id history = queuedFor id history := by
  rw [available] at waits
  cases found : h.subscribers[id]? with
  | none => simp [found] at waits
  | some s =>
    have a := run.account_of_found found
    cases queue : s.queue with
    | cons p rest => simp [found, queue] at waits
    | nil =>
      have attached : h.isAttached s = true := by
        by_contra detached
        simp [found, queue, detached] at waits
      rw [isAttached, Bool.and_eq_true, Bool.and_eq_true] at attached
      obtain ⟨⟨isOpen, registered⟩, live⟩ := attached
      have kept : id ∉ drops history := a.not_mem_drops isOpen
      refine ⟨?_, ?_, a.isOpen.mp isOpen, ⟨s, rfl, queue⟩, ?_⟩
      · intro stopped
        simp [isStopped, stopped] at live
      · rw [run.members_eq]
        exact mem_registeredIds.mpr (isRegistered_iff.mpr ⟨s, found, registered⟩)
      · rw [a.intact kept, queue, List.append_nil]

/-- When neither the hub nor a waiting caller can proceed, the hub has stopped and no
call is pending, or it is idle and no call is pending, or it is blocked on one full
queue; callers wait for room in the last case only, behind a full queue of commands;
and a receiving end that waits has taken all there was, and more can come. -/
theorem standstill_of_isStuck (hp : (start config).perform? actions = some (h, history))
    (stuck : h.isStuck = true) :
    (∃! k : Standstill, k.Holds config actions history h) ∧
      (h.waiting ≠ [] → Standstill.blocked.Holds config actions history h ∧
        h.commands.length = max config.commandCapacity 1) ∧
      ∀ id, h.available id = .waiting →
        h.phase ≠ .stopped ∧ id ∈ members history ∧ id ∉ closings history ∧
          (∃ s, h.subscribers[id]? = some s ∧ s.queue = []) ∧
          takenBy id history = queuedFor id history := by
  have run := run_iff_perform?.mpr ⟨_, hp⟩
  obtain ⟨k, holds⟩ := perform?_holds hp stuck
  refine ⟨⟨k, holds, fun k' holds' => holds.unique holds'⟩, perform?_waiting hp stuck, ?_⟩
  intro id waits
  exact run.available_waiting waits

/-- Behind a reader that takes nothing the second packet waits for room, the command
after it fills the queue of commands, and the next caller waits. -/
theorem standstill_behind_reader :
    ∃ actions history h, (start ⟨1, 1, .block, 1000⟩).perform? actions = some (h, history) ∧
      h.isStuck = true ∧ h.waiting = [⟨4, .stats⟩] ∧
      Standstill.blocked.Holds ⟨1, 1, .block, 1000⟩ actions history h ∧
      h.commands.length = 1 := by
  obtain ⟨actions, h, history, hp, stuck, waits⟩ : ∃ actions h history,
      (start ⟨1, 1, .block, 1000⟩).perform? actions = some (h, history) ∧
      h.isStuck = true ∧ h.waiting = [⟨4, .stats⟩] :=
    ⟨[.call .register, .enqueue, .work, .call (.packet [1]), .enqueue, .work, .work, .work,
      .call (.packet [2]), .enqueue, .work, .call .stats, .enqueue, .call .stats],
      _, _, rfl, rfl, rfl⟩
  obtain ⟨-, behind, -⟩ := standstill_of_isStuck hp stuck
  obtain ⟨blocked, full⟩ := behind (by simp [waits])
  exact ⟨actions, history, h, hp, stuck, waits, blocked, full⟩

end

end Hub

end VideoRelay

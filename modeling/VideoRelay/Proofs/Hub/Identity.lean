/-
Numbers are not used twice.

* `Run.reply_isNew` — a caller is told the number of the subscriber just registered, which
  nobody had before;
* `RemovesAtMost`, `Run.removesAtMost` — what it comes to when a removal is taken up;
* `Run.never_again` — what was given out is not given out again, and what was removed is not
  removed again, whatever is done later;
* `Identified`, `Run.identified` — all this of every hub, and that its queues are within their
  bounds.

Design notes: a number is a position in `Hub.subscribers`, so it is used once only as long as
entries are neither dropped nor moved.  What is said of numbers is said of what callers are
told, to whom a number means nothing but itself.
-/
import VideoRelay.Proofs.Hub.Answers
import VideoRelay.Proofs.Hub.Correspondence
import VideoRelay.Proofs.Hub.Statistics
import VideoRelay.Proofs.Hub.Turns

namespace VideoRelay

namespace Hub

/-! ### New numbers -/

section Numbers

variable {config : HubConfig} {history past rest events : List Event} {h h' : Hub}
  {action : Action} {t id : Nat}

/-- Whoever is told a number is told so when the subscriber is registered, and it is the
next one. -/
theorem Transition.of_subscribed (tr : Transition h action events h')
    (mem : .returned t (.subscribed id) ∈ events) :
    id = h.nextId ∧
      events = [.began ⟨t, .register⟩, .registered t id, .returned t (.subscribed id)] := by
  have alone : events =
      [.began ⟨t, .register⟩, .registered t id, .returned t (.subscribed id)] := by
    generalize told : Reply.subscribed id = reply at mem
    cases tr.answer mem with
    | subscribed other alone =>
      cases told
      exact alone
    | stopped command known => cases command <;> cases told
    | _ => cases told
  refine ⟨?_, alone⟩
  rcases tr.numbering with ⟨none, -⟩ | ⟨one, -⟩
  · rw [alone] at none
    cases none
  · rw [alone] at one
    exact List.singleton_inj.mp one

/-- Who is told a number is told that of the subscriber just registered for it, which nobody
was told before. -/
theorem Run.reply_isNew (run : Run config (past ++ .returned t (.subscribed id) :: rest) h) :
    ∃ earlier, past = earlier ++ [.began ⟨t, .register⟩, .registered t id] ∧
      id = registers earlier ∧ id ∉ registrations earlier ∧
      ∀ t', .returned t' (.subscribed id) ∉ past := by
  obtain ⟨h₀, action, h₁, earlier, pre, post, run₀, hs, rfl⟩ := run.split
  have told : .returned t (.subscribed id) ∈ pre ++ .returned t (.subscribed id) :: post :=
    List.mem_append_right _ List.mem_cons_self
  obtain ⟨rfl, alone⟩ := (Transition.of_step? hs).of_subscribed told
  -- Of the three things that happen then the reply is the last.
  have place : pre = [.began ⟨t, .register⟩, .registered t h₀.nextId] := by
    match pre with
    | [] => simp at alone
    | [first] => simp at alone
    | first :: second :: more =>
      obtain ⟨rfl, rfl, last⟩ : first = _ ∧ second = _ ∧ _ := by simpa using alone
      have length := congrArg List.length last
      obtain rfl : more = [] := by
        rw [← List.length_eq_zero_iff]
        simp at length
        omega
      rfl
  have new : h₀.nextId ∉ registrations earlier := by
    rw [run₀.registrations_eq, List.mem_range]
    exact Nat.lt_irrefl _
  refine ⟨earlier, by rw [place], run₀.registers_eq.symm, new, fun t' mem => new ?_⟩
  have told' : .returned t' (.subscribed h₀.nextId) ∈ earlier := by
    rw [place] at mem
    simpa using mem
  exact run₀.registered_of_returned told'

/-- What was given out is not given out again, and what was removed is neither registered nor
removed again. -/
theorem Run.never_again (run : Run config history h) {actions : List Action}
    (hp : h.perform? actions = some (h', events)) :
    (∀ id ∈ registrations history, id ∉ registrations events ∧
      ∀ t, .returned t (.subscribed id) ∉ events) ∧
    ∀ id ∈ removed history, h'.isRegistered id = false ∧ id ∉ removed events := by
  have run' := run.perform? hp
  refine ⟨fun id known => ⟨fun again => ?_, fun t told => ?_⟩, fun id gone => ⟨?_, fun again => ?_⟩⟩
  · have nodup : (registrations (history ++ events)).Nodup := by
      rw [run'.registrations_eq]
      exact List.nodup_range
    rw [registrations_append, List.nodup_append] at nodup
    exact nodup.2.2 id known id again rfl
  · -- Whoever is told a number later is told one that was still to be given.
    rw [run.registrations_eq, List.mem_range] at known
    obtain ⟨before, h₀, earlier, action, h₁, now, hb, hs, told'⟩ := perform?_of_mem hp told
    obtain ⟨rfl, -⟩ := (Transition.of_step? hs).of_subscribed told'
    exact absurd (perform?_nextId_le hb) (Nat.not_le.mpr known)
  · have gone' : id ∈ removed (history ++ events) := by
      rw [removed_append]
      exact List.mem_append_left _ gone
    have known := run'.removed_subset gone'
    rw [run'.registrations_eq, List.mem_range] at known
    exact (run'.not_registered_iff known).mpr gone'
  · have nodup := run'.nodup_removed
    rw [removed_append, List.nodup_append] at nodup
    exact nodup.2.2 id gone id again rfl

end Numbers

/-! ### Removals on request -/

/-- What it comes to when the command to remove `id`, which has the ticket `t`, is taken up in
front of the commands `rest`. -/
structure RemovesAtMost (t id : Nat) (rest : List Request) (history : List Event) (h : Hub)
    (events : List Event) (h' : Hub) : Prop where
  outcome : h' = { h.without [id] with commands := rest }
  others : ∀ i, i ≠ id → h'.subscribers[i]? = h.subscribers[i]?
  /-- Whoever has the number goes, and nobody else. -/
  member : id ∈ members history → h'.registeredIds = h.registeredIds.erase id ∧
    ∃ queued skipped, events = [.began ⟨t, .unregister id⟩,
      .removed id .unregistered queued skipped h'.registeredCount]
  /-- If nobody has the number, or not any more, nothing comes of it. -/
  stranger : id ∉ registrations history ∨ id ∈ removed history ∨
      (∃ packet, .overflowed id packet ∈ history) →
    h' = { h with commands := rest } ∧ events = [.began ⟨t, .unregister id⟩]

section Removals

variable {config : HubConfig} {history events : List Event} {h h' : Hub} {action : Action}
  {t id : Nat} {rest : List Request}

/-- The step in which a removal is taken up. -/
theorem Transition.of_unregister (tr : Transition h action events h')
    (mem : ⟨t, .unregister id⟩ ∈ begun events) :
    h.phase = .ready ∧ ∃ rest, h.commands = ⟨t, .unregister id⟩ :: rest ∧
      h' = { h.without [id] with commands := rest } ∧
      events = .began ⟨t, .unregister id⟩ ::
        ({ h with commands := rest }.remove id .unregistered).2 := by
  obtain ⟨ready, -, more, rfl, -⟩ := tr.of_begun mem
  refine ⟨ready, ?_⟩
  cases tr with
  | caller s => cases s
  | reader s => cases s
  | work own s =>
    generalize split : Event.began ⟨t, .unregister id⟩ :: more = all at s
    cases s with
    | turn b i rest s outcome => cases outcome <;> cases split
    | pass => cases split
    | finish b =>
      have u := (finish_uncalled h b).begun
      rw [← split] at u
      cases u
    | «begin» request rest events h' _ _ front s =>
      obtain ⟨same, rfl⟩ := List.cons_eq_cons.mp split
      obtain rfl := Event.began.inj same
      cases s
      exact ⟨rest, front, rfl, rfl⟩
    | stop cause why => cases why <;> cases split

/-- Between broadcasts whoever was found full has been removed. -/
theorem Run.not_registered_of_overflowed (run : Run config history h) (ready : h.phase = .ready)
    {packet : Packet} (full : .overflowed id packet ∈ history) : h.isRegistered id = false := by
  by_contra registered
  have live : h.phase ≠ .stopped := by simp [ready]
  have turn : (⟨id, packet, .overflowed⟩ : Turn) ∈ turnsOf id history :=
    List.mem_filter.mpr ⟨List.mem_filterMap.mpr ⟨_, full, rfl⟩, by simp⟩
  have kept := (run.served id).faultless (by simpa using registered) live
    (isFaultless_of_ready ready id) _ turn
  cases kept

theorem Run.removesAtMost (run : Run config history h) (hs : h.step? action = some (h', events))
    (mem : ⟨t, .unregister id⟩ ∈ begun events) :
    ∃ rest, h.commands = ⟨t, .unregister id⟩ :: rest ∧
      RemovesAtMost t id rest history h events h' := by
  obtain ⟨ready, rest, front, rfl, rfl⟩ := (Transition.of_step? hs).of_unregister mem
  refine ⟨rest, front, rfl, fun i other => ?_, fun member => ?_, fun stranger => ?_⟩
  · show (h.without [id]).subscribers[i]? = _
    rw [getElem?_without]
    cases h.subscribers[i]? <;> simp [other]
  · rw [run.members_eq, mem_registeredIds] at member
    obtain ⟨s, found, registered⟩ := isRegistered_iff.mp member
    rw [remove_of_registered (h := { h with commands := rest }) found registered]
    refine ⟨?_, s.queued, s.skipped, rfl⟩
    show (h.without [id]).registeredIds = _
    rw [registeredIds_without, (nodup_registeredIds h).erase_eq_filter]
    exact List.filter_congr fun i _ => by simp [bne, BEq.beq]
  · have missing : h.isRegistered id = false := by
      rcases stranger with unknown | gone | ⟨packet, full⟩
      · rw [run.registrations_eq, List.mem_range] at unknown
        rw [isRegistered_eq, decide_eq_false unknown, Bool.false_and]
      · have known := run.removed_subset gone
        rw [run.registrations_eq, List.mem_range] at known
        exact (run.not_registered_iff known).mpr gone
      · exact run.not_registered_of_overflowed ready full
    have missing' : Hub.isRegistered { h with commands := rest } id = false := missing
    rw [remove_of_not_registered missing', without_eq_self (by simpa using missing)]
    exact ⟨rfl, rfl⟩

end Removals

/-! ### Numbers and bounds -/

/-- What the numbers of a hub mean, which started with `config` and had the events `history`,
and how long its queues can be. -/
structure Identified (config : HubConfig) (history : List Event) (h : Hub) : Prop where
  below : ∀ id, h.isRegistered id = true → id < h.nextId
  total : h.nextId = h.tally.totalSubscribers
  applied : h.nextId = registers history
  /-- The numbers were given in order, each once. -/
  numbers : registrations history = List.range h.nextId
  queues : ∀ s ∈ h.subscribers, s.queue.length ≤ max config.queueCapacity 1
  commands : h.commands.length ≤ max config.commandCapacity 1
  /-- Every reply carries a number that was not given before. -/
  replies : ∀ {past rest t id}, history = past ++ .returned t (.subscribed id) :: rest →
    ∃ earlier, past = earlier ++ [.began ⟨t, .register⟩, .registered t id] ∧
      id = registers earlier ∧ id ∉ registrations earlier ∧
      ∀ t', .returned t' (.subscribed id) ∉ past
  /-- The command to remove a subscriber is taken up when it is the first, -/
  takesUp : ∀ {t id rest}, h.phase = .ready → h.isOverdue = false →
    h.commands = ⟨t, .unregister id⟩ :: rest →
    ∃ h' events, h.step? .work = some (h', events) ∧ ⟨t, .unregister id⟩ ∈ begun events
  /-- and removes no more than the one subscriber. -/
  removes : ∀ {action h' events t id}, h.step? action = some (h', events) →
    ⟨t, .unregister id⟩ ∈ begun events → ∃ rest, h.commands = ⟨t, .unregister id⟩ :: rest ∧
      RemovesAtMost t id rest history h events h'
  /-- No number is used again, so none that was removed can be hit. -/
  stale : ∀ {actions h' events}, h.perform? actions = some (h', events) →
    (∀ id ∈ registrations history, id ∉ registrations events ∧
      ∀ t, .returned t (.subscribed id) ∉ events) ∧
    ∀ id ∈ removed history, h'.isRegistered id = false ∧ id ∉ removed events

/-- At every moment the numbers of a hub stand for one subscriber each, for good, and no queue
holds more than it has room for. -/
theorem Run.identified {config : HubConfig} {history : List Event} {h : Hub}
    (run : Run config history h) : Identified config history h where
  below id registered := by
    obtain ⟨s, found, -⟩ := isRegistered_iff.mp registered
    exact lt_nextId found
  total := by rw [run.tallied.subscribers, run.registers_eq]
  applied := run.registers_eq.symm
  numbers := run.registrations_eq
  queues s mem := by
    obtain ⟨id, found⟩ := List.mem_iff_getElem?.mp mem
    have bound := run.orderly.queueRoom id
    rwa [entry_eq found, run.config_eq] at bound
  commands := run.config_eq ▸ run.orderly.commandRoom
  replies split := (split ▸ run).reply_isNew
  takesUp ready inTime front := by
    have s := WorkStep.begin _ _ _ _ ready inTime front (.unregister _ _)
    exact ⟨_, _, s.work?, List.mem_cons_self⟩
  removes hs mem := run.removesAtMost hs mem
  stale hp := run.never_again hp

/-- Subscriber 0 was removed because its queue, which has room for one packet though none is
configured, was full, and subscriber 1 because its caller had gone: a late command to remove
subscriber 0 changes nothing. -/
theorem identified_after_overflow :
    ∃ history h h', Run ⟨0, 0, .disconnect, 1000⟩ history h ∧ .overflowed 0 [2] ∈ history ∧
      removals history = [(0, .overflow), (1, .abandoned)] ∧ h.tally.totalSubscribers = 2 ∧
      h.step? .work = some (h', [.began ⟨4, .unregister 0⟩]) ∧ h' = { h with commands := [] } ∧
      ∀ actions last events, h'.perform? actions = some (last, events) →
        ∀ t, .returned t (.subscribed 0) ∉ events := by
  obtain ⟨h, history, hp, full, gone, known, two, ready, inTime, front⟩ : ∃ h history,
      (start ⟨0, 0, .disconnect, 1000⟩).perform?
        [.call .register, .enqueue, .work, .call (.packet [1]), .enqueue, .work, .work, .work,
          .call (.packet [2]), .enqueue, .work, .work, .work, .call .register, .enqueue,
          .cancel 3, .work, .call (.unregister 0), .enqueue] = some (h, history) ∧
      .overflowed 0 [2] ∈ history ∧ removals history = [(0, .overflow), (1, .abandoned)] ∧
      0 ∈ registrations history ∧ h.nextId = 2 ∧ h.phase = .ready ∧ h.isOverdue = false ∧
      h.commands = [⟨4, .unregister 0⟩] :=
    ⟨_, _, rfl, by decide, rfl, by decide, rfl, rfl, rfl, rfl⟩
  have run := run_iff_perform?.mpr ⟨_, hp⟩
  have identified := run.identified
  obtain ⟨h', events, hs, mem⟩ := identified.takesUp ready inTime front
  obtain ⟨rest, front', removes⟩ := identified.removes hs mem
  obtain ⟨same, rfl⟩ := removes.stranger (.inr (.inr ⟨[2], full⟩))
  rw [front, List.cons_eq_cons] at front'
  rw [← front'.2] at same
  refine ⟨history, h, h', run, full, gone, identified.total ▸ two, hs, same, ?_⟩
  intro actions last events hp
  have later : h.perform? (.work :: actions) = some (last, _) := perform?_cons.mpr
    ⟨h', _, events, hs, hp, rfl⟩
  exact fun t told => ((identified.stale later).1 0 known).2 t (List.mem_cons_of_mem _ told)

end Hub

end VideoRelay

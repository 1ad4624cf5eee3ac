/-
Calls and real time.

A call that returned before another began had its effect before the other has one, though
returning means no more than that the command is in the queue.

* `Precedes` — one event before another;
* `Run.lt_of_precedes`, `Precedes.of_began` — what happened before a call has the smaller
  ticket, and happened before the command of the call was taken up;
* `InRealTime`, `calls_inRealTime` — who gets which packet, as seen by the callers.

Design notes: a packet is followed by the ticket of its call, so that nothing is said of
another packet with the same bytes.
-/
import VideoRelay.Proofs.Hub.Answers
import VideoRelay.Proofs.Hub.Origins
import VideoRelay.Proofs.Hub.Shutdown

namespace VideoRelay

namespace Hub

/-- The event `e` happened before an event `e'`. -/
def Precedes (e e' : Event) (history : List Event) : Prop :=
  ∃ past rest, history = past ++ e' :: rest ∧ e ∈ past

section Order

variable {config : HubConfig} {before during past rest history : List Event} {h : Hub}
  {r : Request} {e : Event} {id t : Nat}

/-- Who was answered before a call began has called earlier. -/
theorem Run.lt_of_precedes (run : Run config history h) {reply : Reply}
    (first : Precedes (.returned t reply) (.called r) history) : t < r.ticket := by
  obtain ⟨past, rest, rfl, mem⟩ := first
  obtain ⟨h₀, run₀, new⟩ := run.before_call
  rw [new]
  exact run₀.ledger.ended t (List.mem_filterMap.mpr ⟨_, mem, rfl⟩)

/-- What happened before a call happened before its command was taken up. -/
theorem Precedes.of_began (run : Run config (before ++ .began r :: rest) h)
    (first : Precedes e (.called r) (before ++ .began r :: rest)) : e ∈ before := by
  obtain ⟨past, more, split, mem⟩ := first
  have called := run.called_of_began
  rw [split] at run
  obtain ⟨h₀, run₀, new⟩ := run.before_call
  rcases List.append_eq_append_iff.mp split with ⟨between, rfl, -⟩ | ⟨between, rfl, -⟩
  · -- Otherwise the call would have been made twice.
    have again : r.ticket ∈ openedCalls (before ++ between) := by
      rw [← map_ticket_calls, calls_append]
      exact List.mem_map_of_mem (List.mem_append_left _ called)
    rw [run₀.ledger.opened, List.mem_range, new] at again
    exact absurd again (Nat.lt_irrefl _)
  · exact List.mem_append_left _ mem

/-- A command is taken up once. -/
theorem Run.began_unique {before' during' : List Event}
    (run : Run config (before ++ .began r :: during) h)
    (split : before ++ .began r :: during = before' ++ .began r :: during') :
    before = before' ∧ during = during' := by
  have inOrder := run.begun_increasing
  have apart : ∀ {first second : List Event},
      before ++ .began r :: during = first ++ .began r :: second →
      r.ticket ∉ (begun first).map (·.ticket) := by
    intro first second split mem
    rw [split, begun_append, List.map_append, List.pairwise_append] at inOrder
    exact absurd (inOrder.2.2 _ mem r.ticket (by simp)) (Nat.lt_irrefl _)
  rcases List.append_eq_append_iff.mp split with ⟨between, hb, hd⟩ | ⟨between, hb, hd⟩
  · cases between with
    | nil => exact ⟨by simpa using hb.symm, by simpa using hd⟩
    | cons e between =>
      obtain ⟨rfl, -⟩ := List.cons_eq_cons.mp hd
      exact absurd (by rw [hb]; simp) (apart split)
  · cases between with
    | nil => exact ⟨by simpa using hb, by simpa using hd.symm⟩
    | cons e between =>
      obtain ⟨rfl, -⟩ := List.cons_eq_cons.mp hd
      exact absurd (by rw [hb]; simp) (apart rfl)

/-- Subscribers are registered by the command for it. -/
theorem Transition.of_registered {h h' : Hub} {action : Action} {events : List Event}
    (tr : Transition h action events h') (mem : .registered t id ∈ events) :
    ⟨t, .register⟩ ∈ begun events := by
  have told : id ∈ registrations events := List.mem_filterMap.mpr ⟨_, mem, rfl⟩
  rcases tr.registration with nobody | ⟨ticket, more, rfl, none, -, -⟩
  · rw [nobody.none] at told
    cases told
  · -- The one registration there is comes with its command.
    have first : Event.registered t id = .registered ticket h.nextId := by
      rcases List.mem_cons.mp mem with first | mem
      · cases first
      · refine (List.mem_cons.mp mem).resolve_right fun later => ?_
        have again : id ∈ registrations more := List.mem_filterMap.mpr ⟨_, later, rfl⟩
        rw [none] at again
        cases again
    cases first
    exact List.mem_cons_self

theorem Run.begun_of_registered (run : Run config history h)
    (mem : .registered t id ∈ history) : ⟨t, .register⟩ ∈ begun history := by
  induction run with
  | start => cases mem
  | step run hs ih =>
    rw [begun_append, List.mem_append]
    exact (List.mem_append.mp mem).imp ih (Transition.of_step? hs).of_registered

/-- A number is given once, so who has it now got it by the same call as ever. -/
theorem Run.registered_before (run : Run config (before ++ rest) h)
    (mem : .registered t id ∈ before ++ rest) (known : id ∈ registrations before) :
    .registered t id ∈ before := by
  refine (List.mem_append.mp mem).resolve_right fun later => ?_
  have numbered := run.registrations_eq
  have nodup : (registrations (before ++ rest)).Nodup := by
    rw [numbered]
    exact List.nodup_range
  rw [registrations_append, List.nodup_append] at nodup
  exact nodup.2.2 id known id (List.mem_filterMap.mpr ⟨_, later, rfl⟩) rfl

/-- Who was registered and whose removal has been applied is no member. -/
theorem Applied.not_mem_members {u : Nat} (a : Applied history ⟨u, .unregister id⟩)
    (known : ∀ past rest, history = past ++ .began ⟨u, .unregister id⟩ :: rest →
      id ∈ registrations past) : id ∉ members history := by
  obtain ⟨before, during, after, rfl, -, complete⟩ := a
  have known := known before _ rfl
  intro member
  refine of_decide_eq_true (List.mem_filter.mp member).2 ?_
  rw [removed_append, removed, removed, removals_cons, removals_append, complete]
  by_cases was : id ∈ members before
  · simp [was]
  · -- It had been removed before.
    have gone : id ∈ removed before := by
      by_contra kept
      exact was (List.mem_filter.mpr ⟨known, decide_eq_true kept⟩)
    exact List.mem_append_left _ gone

end Order

/-! ### What callers can rely on -/

/-- What `history` has in common with one in which every call has its effect at once. -/
structure InRealTime (config : HubConfig) (history : List Event) : Prop where
  /-- What a subscriber yields are the packets of calls. -/
  sources : ∀ id, List.Forall₂ (fun t p => ⟨t, .packet p⟩ ∈ calls history)
    (yielded id history) (takenBy id history)
  /-- Who registers after a packet was accepted does not yield it. -/
  late : ∀ {t t' id p}, ⟨t, .packet p⟩ ∈ calls history → .registered t' id ∈ history →
    Precedes (.returned t .accepted) (.called ⟨t', .register⟩) history → t ∉ yielded id history
  /-- A subscriber whose removal was accepted before a packet was submitted does not yield
  it.  That it was a subscriber is to be said because unknown numbers can be called. -/
  gone : ∀ {u t id p}, ⟨u, .unregister id⟩ ∈ calls history →
    (∀ past rest, history = past ++ .began ⟨u, .unregister id⟩ :: rest →
      id ∈ registrations past) →
    Precedes (.returned u .accepted) (.called ⟨t, .packet p⟩) history → t ∉ yielded id history
  /-- Nobody takes a packet before one that was accepted before it was submitted. -/
  inOrder : ∀ {t t' id p q}, ⟨t, .packet p⟩ ∈ calls history →
    Precedes (.returned t .accepted) (.called ⟨t', .packet q⟩) history →
    ¬[t', t].Sublist (yielded id history)
  /-- Who was told its number before a packet was submitted gets it once, if it is
  registered with an open queue when its turn comes and the hub comes to the end of the
  round, unless there is no room and the policy does not wait. -/
  served : ∀ {r t id p before during rest h}, history =
      (before ++ .began ⟨t, .packet p⟩ :: during) ++ rest →
    Run config (before ++ .began ⟨t, .packet p⟩ :: during) h → h.phase = .ready →
    begun during = [] →
    Precedes (.returned r (.subscribed id)) (.called ⟨t, .packet p⟩) history →
    id ∉ removed before → id ∉ closings (before ++ untilTurn id during) →
    (origins id history).count t = 1 ∨
      config.policy = .dropNewest ∧ .skipped id p ∈ during ∨
      config.policy = .disconnect ∧ .overflowed id p ∈ during ∧ (id, .overflow) ∈ removals during

section Theorems

variable {config : HubConfig} {before during rest history : List Event} {h : Hub} {id t : Nat}

theorem Run.late (run : Run config history h) {t' : Nat} (mem : .registered t' id ∈ history)
    (earlier : t < t') : t ∉ origins id history := by
  intro origin
  obtain ⟨before, p, during, rest, rfl, member⟩ := run.origin origin
  -- When the packet was taken up the subscriber had its number.
  have known := (List.mem_filter.mp member).1
  have registered := run.registered_before mem known
  obtain ⟨h₀, run₀, -⟩ := run.before_begin
  have first := List.mem_map_of_mem (f := (·.ticket)) (run₀.begun_of_registered registered)
  have inOrder := run.begun_increasing
  rw [begun_append, List.map_append, List.pairwise_append] at inOrder
  have later := inOrder.2.2 t' first t (by simp)
  exact absurd earlier (Nat.lt_asymm later)

theorem Run.gone (run : Run config history h) {u : Nat} {p : Packet}
    (called : ⟨u, .unregister id⟩ ∈ calls history)
    (known : ∀ past rest, history = past ++ .began ⟨u, .unregister id⟩ :: rest →
      id ∈ registrations past)
    (first : Precedes (.returned u .accepted) (.called ⟨t, .packet p⟩) history) :
    t ∉ origins id history := by
  intro origin
  have earlier := run.lt_of_precedes first
  obtain ⟨past, rest₁, split₁, told⟩ := first
  obtain ⟨before, q, during, rest, rfl, member⟩ := run.origin origin
  obtain ⟨h₀, run₀, ready, -⟩ := run.before_begin
  -- The removal was in the queue before the packet, so it has been applied.
  have inQueue := run.accepted_of_returned
    (split₁ ▸ List.mem_append_left _ told) called nofun
  have taken := run.mem_begun inQueue earlier
  refine (run₀.progress.all ready _ taken).not_mem_members ?_ member
  rintro past' rest' rfl
  exact known past' _ (by rw [List.append_assoc, List.cons_append])

theorem untilTurn_isPrefix (id : Nat) (events more : List Event) :
    untilTurn id events <+: untilTurn id (events ++ more) := by
  rw [untilTurn, untilTurn, List.takeWhile_append]
  split
  · exact (List.takeWhile_prefix _).trans (List.prefix_append _ _)
  · exact List.prefix_refl _

/-- In a round that came to its end everybody registered has had one turn, and it went wrong
only for a closed queue or a full one. -/
theorem Run.turn_of_member {p : Packet}
    (run : Run config (before ++ .began ⟨t, .packet p⟩ :: during) h)
    (ready : h.phase = .ready) (member : id ∈ members before)
    (isOpen : id ∉ closings (before ++ untilTurn id during)) :
    (∃ pre post, during = pre ++ .queued id p :: post ∧ begun pre = []) ∨
      config.policy = .dropNewest ∧ .skipped id p ∈ during ∨
      config.policy = .disconnect ∧ .overflowed id p ∈ during ∧
        (id, .overflow) ∈ removals during := by
  obtain ⟨before', during', after, split, noneBegun, complete⟩ :=
    run.progress.all ready ⟨t, .packet p⟩ (by simp)
  obtain ⟨rfl, rfl⟩ := run.began_unique split
  obtain ⟨all, same, gone⟩ := complete
  obtain ⟨turn, later, rfl, place⟩ := untilTurn_split (all ▸ member)
  have open_until : turn.id ∉ closings (before ++ untilTurn turn.id during') := by
    obtain ⟨more, longer⟩ := untilTurn_isPrefix turn.id during' after
    rw [← longer, ← List.append_assoc, closings_append] at isOpen
    exact fun closed => isOpen (List.mem_append_left _ closed)
  generalize untilTurn turn.id during' = pre at place open_until
  subst place
  have atTurn : Run config ((before ++ .began ⟨t, .packet p⟩ :: pre) ++
      turn.event :: (later ++ after)) h := by simpa using run
  have mem : turn ∈ turns (pre ++ turn.event :: later) := by
    rw [turns_turn]
    exact List.mem_append_right _ List.mem_cons_self
  obtain ⟨s, -, fits⟩ := atTurn.turn_at
  have refused := atTurn.refused_iff
  have told : turn.event ∈ (pre ++ turn.event :: later) ++ after := by simp
  obtain ⟨i, q, outcome⟩ := turn
  obtain rfl : q = p := same _ mem
  cases outcome with
  | queued =>
    rw [begun_append, List.append_eq_nil_iff] at noneBegun
    exact .inl ⟨pre, later ++ after, by simp [Turn.event], noneBegun.1⟩
  | refused =>
    refine absurd (refused.mp rfl) ?_
    simpa using open_until
  | skipped => exact .inr (.inl ⟨fits.2.2, told⟩)
  | overflowed =>
    refine .inr (.inr ⟨fits.2.2, told, ?_⟩)
    have full : i ∈ endedWith .overflowed (pre ++ (Turn.event ⟨i, q, .overflowed⟩) :: later) :=
      List.mem_map.mpr ⟨_, List.mem_filter.mpr ⟨mem, rfl⟩, rfl⟩
    rw [removals_append, gone]
    exact List.mem_append_left _ (List.mem_append_right _ (List.mem_map_of_mem full))

theorem Run.served_once (run : Run config history h) {p : Packet} {h₀ : Hub}
    (split : history = (before ++ .began ⟨t, .packet p⟩ :: during) ++ rest)
    (done : Run config (before ++ .began ⟨t, .packet p⟩ :: during) h₀) (ready : h₀.phase = .ready)
    {r : Nat} (first : Precedes (.returned r (.subscribed id)) (.called ⟨t, .packet p⟩) history)
    (kept : id ∉ removed before) (isOpen : id ∉ closings (before ++ untilTurn id during)) :
    (origins id history).count t = 1 ∨
      config.policy = .dropNewest ∧ .skipped id p ∈ during ∨
      config.policy = .disconnect ∧ .overflowed id p ∈ during ∧
        (id, .overflow) ∈ removals during := by
  rw [List.append_assoc, List.cons_append] at split
  subst split
  obtain ⟨h₁, run₁, -⟩ := run.before_begin
  have member : id ∈ members before := List.mem_filter.mpr
    ⟨run₁.registered_of_returned (first.of_began run), decide_eq_true kept⟩
  refine (done.turn_of_member ready member isOpen).imp_left ?_
  rintro ⟨pre, post, rfl, noneBegun⟩
  have nodup : (origins id (before ++ .began ⟨t, .packet p⟩ ::
      ((pre ++ .queued id p :: post) ++ rest))).Nodup :=
    (run.sourced id).increasing.imp Nat.ne_of_lt
  refine List.count_eq_one_of_mem nodup (mem_viewFrom.mpr
    ⟨before ++ .began ⟨t, .packet p⟩ :: pre, .queued id p, post ++ rest, by simp, ?_⟩)
  exact origin?_eq_some.mpr ⟨p, rfl, current?_eq noneBegun⟩

/-- Calls have their effects in the order of real time. -/
theorem calls_inRealTime (run : Run config history h) : InRealTime config history where
  sources := run.forall₂_yielded
  late _ registered first yields :=
    run.late registered (run.lt_of_precedes first) (List.mem_of_mem_take yields)
  gone called known first yields := run.gone called known first (List.mem_of_mem_take yields)
  inOrder _ first reversed := by
    have increasing := (run.sourced _).increasing.sublist
      (reversed.trans (List.take_sublist _ _))
    rw [List.pairwise_pair] at increasing
    exact absurd (run.lt_of_precedes first) (Nat.lt_asymm increasing)
  served split done ready _ first kept isOpen :=
    run.served_once split done ready first kept isOpen

/-- Two equal packets, the second of them submitted when the caller that registers
subscriber 1 has been told: it yields that one and not the first. -/
theorem equal_packets_apart :
    ∃ history h, Run ⟨1, 1, .block, 1000⟩ history h ∧
      ⟨1, .packet [7]⟩ ∈ calls history ∧ ⟨3, .packet [7]⟩ ∈ calls history ∧
      takenBy 1 history = [[7]] ∧ 1 ∉ yielded 1 history ∧
      ¬[3, 1].Sublist (yielded 0 history) := by
  obtain ⟨h, history, hp, split₂, split₃, told₂, told₃, call₁, call₃, new, taken⟩ :
      ∃ h history, (start ⟨1, 1, .block, 1000⟩).perform?
        [.call .register, .enqueue, .work, .call (.packet [7]), .enqueue, .call .register, .work,
          .enqueue, .work, .work, .work, .call (.packet [7]), .enqueue, .work, .take 0, .work,
          .work, .work, .take 1] = some (h, history) ∧
      history = history.take 8 ++ .called ⟨2, .register⟩ :: history.drop 9 ∧
      history = history.take 15 ++ .called ⟨3, .packet [7]⟩ :: history.drop 16 ∧
      .returned 1 .accepted ∈ history.take 8 ∧ .returned 1 .accepted ∈ history.take 15 ∧
      ⟨1, .packet [7]⟩ ∈ calls history ∧ ⟨3, .packet [7]⟩ ∈ calls history ∧
      .registered 2 1 ∈ history ∧ takenBy 1 history = [[7]] :=
    ⟨_, _, rfl, rfl, rfl, by decide, by decide, by decide, by decide, by decide, rfl⟩
  have run := run_iff_perform?.mpr ⟨_, hp⟩
  have inTime := calls_inRealTime run
  exact ⟨history, h, run, call₁, call₃, taken, inTime.late call₁ new ⟨_, _, split₂, told₂⟩,
    inTime.inOrder call₁ ⟨_, _, split₃, told₃⟩⟩

end Theorems

end Hub

end VideoRelay

/-
How a session gives up its subscription.

* `Withdrawal.Holds` — what has come of it at each stage: the queue is closed, the call
  for the removal waits, the removal is under way;
* `Withdrawing`, `Run.withdrawing` — every session of a system is told the truth;
* `Run.perform?_withdrawal` — whoever has begun to give up goes on with it.

Design notes: a call of a session is given up by nobody else.  For clients that is a
rule; a producer's session that is broken off gives up one call, which it has made itself
and which is therefore another.
-/
import VideoRelay.Proofs.System.Runs

namespace VideoRelay

/-! ### Stages -/

/-- What has come of it when a session that gives up subscription `id` is at a stage. -/
def Withdrawal.Holds (history : List Hub.Event) (h : Hub) (id : Nat) : Withdrawal → Prop
  | .failing => True
  | .unregistering ticket => id ∈ Hub.closings history ∧ ⟨ticket, .unregister id⟩ ∈ h.waiting
  | .withdrawn => id ∈ Hub.closings history ∧ Hub.Leaves id history h

/-- The session is at the stage where it is. -/
def Stake.IsTold (k : Stake) (history : List Hub.Event) (h : Hub) : Prop :=
  ∀ cause stage, k.withdrawal? = some (cause, stage) → stage.Holds history h k.id

namespace Hub

/-- A call waits for room; a hub that has stopped answers at once. -/
theorem call_outcome {h h' : Hub} {command : Command} {events : List Event}
    (called : h.call command = (h', events)) :
    ∃ more, events = .called ⟨h.nextTicket, command⟩ :: more ∧
      (⟨h.nextTicket, command⟩ ∈ h'.waiting ∧ more = [] ∨
        (∃ reply, more = [.returned h.nextTicket reply]) ∧ h'.phase = .stopped) := by
  have s := call_callerStep h command
  rw [called] at s
  cases s with
  | call command live => exact ⟨[], rfl, .inl ⟨List.mem_append_right _ List.mem_cons_self, rfl⟩⟩
  | refuse command stopped => exact ⟨_, rfl, .inr ⟨⟨_, rfl⟩, stopped⟩⟩

theorem call_of_step? {h h' : Hub} {command : Command} {events : List Event}
    (hs : h.step? (.call command) = some (h', events)) : h.call command = (h', events) := by
  rw [step?] at hs
  split at hs
  · exact Option.some.inj hs
  · cases hs

/-- Closed first, the subscription takes no more deliveries while the call for its removal
waits. -/
theorem perform?_withdraw_cases {h h' : Hub} {id : Nat} {events : List Event}
    (hp : h.perform? [.close id, .call (.unregister id)] = some (h', events)) :
    id ∈ closings events ∧ (⟨h.nextTicket, .unregister id⟩ ∈ h'.waiting ∨
      (∃ reply, .returned h.nextTicket reply ∈ events) ∧ h'.phase = .stopped) := by
  obtain ⟨mid, first, others, closes, calls, rfl⟩ := perform?_cons.mp hp
  rw [perform?_singleton] at calls
  obtain ⟨more, rfl, call⟩ := call_outcome (call_of_step? calls)
  cases Transition.of_step? closes with
  | caller s => cases s
  | reader s =>
    cases s with
    | close id s found =>
      refine ⟨List.mem_cons_self, call.imp And.left ?_⟩
      rintro ⟨⟨reply, rfl⟩, stopped⟩
      exact ⟨⟨reply, by simp⟩, stopped⟩
  | work own s => cases own

end Hub

section

variable {config : HubConfig} {actions : List Hub.Action} {history events : List Hub.Event}
  {h h' : Hub} {k : Stake}

/-- Either the call of the session still waits, or the session has been told how it
ended. -/
theorem Stake.isTold_of_call (run : Hub.Run config (history ++ events) h) {cause : Error}
    {ticket : Nat} (waits : k.withdrawal? = some (cause, .unregistering ticket))
    (closed : k.id ∈ Hub.closings (history ++ events))
    (call : ⟨ticket, .unregister k.id⟩ ∈ h.waiting ∨
      (∃ reply, .returned ticket reply ∈ events) ∧ Hub.Leaves k.id (history ++ events) h) :
    (k.hear events).IsTold (history ++ events) h := by
  rcases call with still | ⟨⟨reply, returned⟩, leaves⟩
  · have deaf : k.hear events = k := by
      refine hear_eq_self fun ended reply mem => answer_of_not_awaits fun ⟨cause', own⟩ => ?_
      cases waits.symm.trans own
      exact run.not_returned_of_waiting still (List.mem_append_right _ mem)
    intro cause' stage fails
    rw [deaf] at fails ⊢
    cases waits.symm.trans fails
    exact ⟨closed, still⟩
  · rw [hear_of_returned waits returned]
    intro cause' stage fails
    cases fails
    exact ⟨closed, leaves⟩

/-- What a session is told stays true as long as nobody gives up its call. -/
theorem Stake.IsTold.perform? (told : k.IsTold history h) (run : Hub.Run config history h)
    (hp : h.perform? actions = some (h', events)) (known : k.id < h.nextId)
    (kept : ∀ ticket, k.awaits ticket → .cancel ticket ∉ actions) :
    (k.hear events).IsTold (history ++ events) h' := by
  by_cases waits : ∃ ticket, k.awaits ticket
  · obtain ⟨ticket, cause, waits⟩ := waits
    obtain ⟨closed, inLine⟩ := told cause _ waits
    refine isTold_of_call (run.perform? hp) waits ?_ ?_
    · rw [Hub.closings_append]
      exact List.mem_append_left _ closed
    · exact Hub.perform?_unregistering run hp known inLine (kept ticket ⟨cause, waits⟩)
  · have deaf : k.hear events = k :=
      hear_eq_self fun ticket reply mem => answer_of_not_awaits fun own => waits ⟨ticket, own⟩
    intro cause stage fails
    rw [deaf] at fails ⊢
    cases stage with
    | failing => trivial
    | unregistering ticket => exact absurd ⟨ticket, cause, fails⟩ waits
    | withdrawn =>
      obtain ⟨closed, leaves⟩ := told cause _ fails
      refine ⟨?_, Hub.perform?_leaves run hp known leaves⟩
      rw [Hub.closings_append]
      exact List.mem_append_left _ closed

theorem Stake.Move.not_cancel {k' : Stake} {ticket : Nat} (m : k.Move ticket actions k')
    (own : Nat) : .cancel own ∉ actions := by
  cases m with
  | fail cause actions healthy atMost => rcases atMost with rfl | rfl <;> simp
  | _ => simp

/-- A session that moves is told the truth. -/
theorem Stake.Move.isTold {k' : Stake} (m : k.Move h.nextTicket actions k')
    (told : k.IsTold history h) (run : Hub.Run config history h)
    (hp : h.perform? actions = some (h', events)) (known : k.id < h.nextId) :
    (k'.hear events).IsTold (history ++ events) h' := by
  have kept (ticket : Nat) (_ : k'.awaits ticket) : .cancel ticket ∉ actions :=
    m.not_cancel ticket
  cases m with
  | silent => exact told.perform? run hp known kept
  | take healthy => exact told.perform? run hp known kept
  | fail cause actions healthy atMost =>
    have told' : Stake.IsTold { k with withdrawal? := some (cause, .failing) } history h := by
      intro cause' stage fails
      cases fails
      trivial
    exact told'.perform? run hp known kept
  | withdraw cause failing holds =>
    obtain ⟨closed, call⟩ := Hub.perform?_withdraw_cases hp
    refine isTold_of_call (run.perform? hp) rfl ?_ (call.imp_right fun ⟨returned, stopped⟩ => ?_)
    · rw [Hub.closings_append]
      exact List.mem_append_right _ closed
    · exact ⟨returned, .inl stopped⟩
  | leave holds =>
    have told' : Stake.IsTold { k with holdsHandle := false } history h := told
    exact told'.perform? run hp known kept

/-- A session that has begun to give up its subscription goes on with that. -/
theorem Stake.Move.withdrawal {k' : Stake} {ticket : Nat} (m : k.Move ticket actions k')
    {cause : Error} {stage : Withdrawal} (fails : k.withdrawal? = some (cause, stage)) :
    ∃ stage', k'.withdrawal? = some (cause, stage') := by
  cases m with
  | silent => exact ⟨stage, fails⟩
  | take healthy => exact ⟨stage, fails⟩
  | fail cause' actions healthy => cases healthy.symm.trans fails
  | withdraw cause' failing =>
    cases failing.symm.trans fails
    exact ⟨_, rfl⟩
  | leave => exact ⟨stage, fails⟩

theorem Stake.hear_withdrawal {cause : Error} {stage : Withdrawal}
    (fails : k.withdrawal? = some (cause, stage)) (events : List Hub.Event) :
    ∃ stage', (k.hear events).withdrawal? = some (cause, stage') := by
  rcases k.hear_cases events with ⟨same, -⟩ | ⟨cause', ticket, reply, waits, -, same⟩
  · rw [same]
    exact ⟨stage, fails⟩
  · rw [same]
    cases waits.symm.trans fails
    exact ⟨.withdrawn, rfl⟩

/-- What a producer's session waits for it waited for before, or it hands over a packet. -/
theorem ProducerStake.Move.ticket {k k' : ProducerStake} (m : k.Move h.nextTicket actions k')
    (hp : h.perform? actions = some (h', events)) {own : Nat} (waits : k'.ticket? = some own) :
    k.ticket? = some own ∨ ∃ packet, ⟨own, .packet packet⟩ ∈ Hub.calls events := by
  cases m with
  | silent => exact .inl waits
  | submit packet holds =>
    cases waits
    rw [Hub.perform?_singleton] at hp
    obtain ⟨more, rfl, -⟩ := Hub.call_outcome (Hub.call_of_step? hp)
    exact .inr ⟨packet, List.mem_cons_self⟩
  | leave => cases waits
  | giveUp => cases waits

theorem ProducerStake.Move.cancel {k k' : ProducerStake} {ticket : Nat}
    (m : k.Move ticket actions k') {own : Nat} (mem : .cancel own ∈ actions) :
    k.ticket? = some own := by
  cases m with
  | giveUp own' submitted =>
    obtain rfl : own = own' := by simpa using mem
    exact submitted
  | _ => simp at mem

end

namespace System

/-! ### Whose call is given up -/

theorem isAwaited_of_stake? {s : System} {c : Consumer} {k : Stake} {ticket : Nat}
    (found : s.stake? c = some k) (waits : k.awaits ticket) : s.isAwaited ticket = true := by
  rw [isAwaited]
  cases c with
  | writer i =>
    obtain ⟨w, at_i, rfl⟩ := Option.map_eq_some_iff.mp found
    have any : s.writers.any (·.awaits ticket) = true :=
      List.any_eq_true.mpr ⟨w, List.mem_of_getElem? at_i, SubscriberSession.awaits_iff.mpr waits⟩
    rw [any, Bool.or_true, Bool.true_or]
  | tap i =>
    obtain ⟨t, at_i, rfl⟩ := Option.map_eq_some_iff.mp found
    have any : s.taps.any (·.awaits ticket) = true :=
      List.any_eq_true.mpr ⟨t, List.mem_of_getElem? at_i, TapSession.awaits_iff.mpr waits⟩
    rw [any, Bool.or_true]

/-- A call is given up by a client, or by the producer's session that has made it. -/
theorem Acts.cancel {s s₁ : System} {actions : List Hub.Action} (acts : s.Acts actions s₁)
    {ticket : Nat} (mem : .cancel ticket ∈ actions) :
    s.isAwaited ticket = false ∨ ∃ p ∈ s.producers, p.stake.ticket? = some ticket := by
  cases acts with
  | client action permitted =>
    obtain rfl := List.mem_singleton.mp mem
    exact .inl (by simpa [permits] using permitted)
  | producer found m => exact .inr ⟨_, List.mem_of_getElem? found, m.cancel mem⟩
  | writer found m => exact absurd mem (m.not_cancel ticket)
  | tap found m => exact absurd mem (m.not_cancel ticket)
  | _ => simp at mem

/-- With each action one producer moves at most, and those that begin wait for nothing. -/
theorem Acts.ticket {s s₁ : System} {actions : List Hub.Action} (acts : s.Acts actions s₁)
    {hub : Hub} {heard : List Hub.Event} (hp : s.hub.perform? actions = some (hub, heard))
    {p₁ : ProducerSession} (mem : p₁ ∈ s₁.producers) {ticket : Nat}
    (waits : p₁.stake.ticket? = some ticket) :
    (∃ p ∈ s.producers, p.stake.ticket? = some ticket) ∨
      ∃ packet, ⟨ticket, .packet packet⟩ ∈ Hub.calls heard := by
  cases acts with
  | @producer i p p' actions found m =>
    rcases List.mem_or_eq_of_mem_set mem with mem | rfl
    · exact .inl ⟨p₁, mem, waits⟩
    · exact (m.ticket hp waits).imp_left fun before => ⟨p, List.mem_of_getElem? found, before⟩
  | startProducer source client =>
    rcases List.mem_append.mp mem with mem | mem
    · exact .inl ⟨p₁, mem, waits⟩
    · obtain rfl := List.mem_singleton.mp mem
      cases waits
  | _ => exact .inl ⟨p₁, mem, waits⟩

/-- What holds of a system between two actions: every session is told the truth. -/
structure Withdrawing (config : HubConfig) (history : List Hub.Event) (s : System) : Prop
    extends Sound config history s where
  /-- What a producer's session waits for is a call that hands over a packet. -/
  submitted : ∀ p ∈ s.producers, ∀ ticket, p.stake.ticket? = some ticket →
    ∃ packet, ⟨ticket, .packet packet⟩ ∈ Hub.calls history
  told : ∀ c k, s.stake? c = some k → k.IsTold history s.hub

section

variable {config : HubConfig} {history : List Hub.Event} {s s' : System} {action : Action}
  {events : List Event}

theorem Withdrawing.kept (w : Withdrawing config history s) {s₁ : System}
    {actions : List Hub.Action} (acts : s.Acts actions s₁) {c : Consumer} {k : Stake}
    (found : s.stake? c = some k) {ticket : Nat} (waits : k.awaits ticket) :
    .cancel ticket ∉ actions := by
  intro mem
  rcases acts.cancel mem with free | ⟨p, among, submitted⟩
  · rw [isAwaited_of_stake? found waits] at free
    cases free
  · obtain ⟨packet, called⟩ := w.submitted p among ticket submitted
    obtain ⟨cause, waits⟩ := waits
    obtain ⟨-, inLine⟩ := w.told c k found cause _ waits
    have called' := w.run.mem_calls (List.mem_append_left _ inLine)
    cases w.run.call_unique called called' rfl

theorem Withdrawing.step (w : Withdrawing config history s)
    (hs : s.step? action = some (s', events)) :
    Withdrawing config (history ++ hubEvents events) s' := by
  refine ⟨w.toSound.step hs, ?_, ?_⟩
  all_goals obtain ⟨actions, s₁, hub, heard, acts, hp, rfl, rfl⟩ := step?_acts w.provided hs
  · intro p among ticket waits
    rw [absorb_fst] at among
    obtain ⟨p₁, mem, rfl⟩ := List.mem_map.mp among
    rw [p₁.stake_hear] at waits
    have waits := (p₁.stake.hear_keeps _).2 ticket waits
    rw [Hub.calls_append]
    rcases acts.ticket hp mem waits with ⟨p, mem, before⟩ | ⟨packet, called⟩
    · obtain ⟨packet, called⟩ := w.submitted p mem ticket before
      exact ⟨packet, List.mem_append_left _ called⟩
    · exact ⟨packet, List.mem_append_right _ called⟩
  · intro c k toldStake
    rw [stake?_absorb] at toldStake
    rw [absorb_fst]
    obtain ⟨k₁, found, rfl⟩ := Option.map_eq_some_iff.mp toldStake
    rcases acts.stake? c with same | ⟨k, k', before, after, m⟩ | ⟨-, id, known, after⟩
    · have before := same ▸ found
      exact (w.told c k₁ before).perform? w.run hp (w.known c k₁ before) fun _ waits =>
        w.kept acts before waits
    · obtain rfl := Option.some.inj (after.symm.trans found)
      exact m.isTold (w.told c k before) w.run hp (w.known c k before)
    · obtain rfl := Option.some.inj (after.symm.trans found)
      have told : Stake.IsTold ⟨id, true, none⟩ history s.hub := by
        intro cause stage fails
        cases fails
      refine told.perform? w.run hp known ?_
      rintro ticket ⟨cause, waits⟩
      cases waits

theorem Run.withdrawing {history : List Event} (run : Run config history s) :
    Withdrawing config (hubEvents history) s := by
  induction run with
  | start =>
    refine ⟨Run.start.sound, fun p mem => ?_, fun c k found => ?_⟩
    · cases mem
    · cases c <;> cases found
  | step run hs ih =>
    rw [hubEvents_append]
    exact ih.step hs

/-- A session that has begun to give up its subscription goes on with that. -/
theorem Sound.step_withdrawal (sound : Sound config history s)
    (hs : s.step? action = some (s', events)) {c : Consumer} {k : Stake} {cause : Error}
    {stage : Withdrawal} (found : s.stake? c = some k)
    (fails : k.withdrawal? = some (cause, stage)) :
    ∃ k' stage', s'.stake? c = some k' ∧ k'.id = k.id ∧
      k'.withdrawal? = some (cause, stage') := by
  obtain ⟨actions, s₁, hub, heard, acts, -, rfl, -⟩ := step?_acts sound.provided hs
  have told (k₁ : Stake) (stage₁ : Withdrawal) (found₁ : s₁.stake? c = some k₁)
      (same : k₁.id = k.id) (fails₁ : k₁.withdrawal? = some (cause, stage₁)) :
      ∃ k' stage', (s₁.absorb hub heard).1.stake? c = some k' ∧ k'.id = k.id ∧
        k'.withdrawal? = some (cause, stage') := by
    obtain ⟨stage', fails'⟩ := Stake.hear_withdrawal fails₁ heard
    refine ⟨_, stage', ?_, (Stake.hear_id heard k₁).trans same, fails'⟩
    rw [stake?_absorb, found₁]
    rfl
  rcases acts.stake? c with same | ⟨k₀, k₁, before, after, m⟩ | ⟨none, -⟩
  · exact told k stage (same.trans found) rfl fails
  · obtain rfl := Option.some.inj (before.symm.trans found)
    obtain ⟨stage₁, fails₁⟩ := m.withdrawal fails
    exact told k₁ stage₁ after m.id_eq fails₁
  · cases none.symm.trans found

theorem Run.perform?_withdrawal {history events : List Event} {actions : List Action}
    (run : Run config history s) (hp : s.perform? actions = some (s', events)) {c : Consumer}
    {k : Stake} {cause : Error} {stage : Withdrawal} (found : s.stake? c = some k)
    (fails : k.withdrawal? = some (cause, stage)) :
    ∃ k' stage', s'.stake? c = some k' ∧ k'.id = k.id ∧
      k'.withdrawal? = some (cause, stage') := by
  induction actions generalizing s history events k stage with
  | nil =>
    obtain ⟨rfl, rfl⟩ := by simpa [System.perform?] using hp
    exact ⟨k, stage, found, rfl, fails⟩
  | cons action actions ih =>
    obtain ⟨mid, first, others, hs, hr, rfl⟩ := perform?_cons.mp hp
    obtain ⟨k₁, stage₁, found₁, same, fails₁⟩ := run.sound.step_withdrawal hs found fails
    obtain ⟨k', stage', found', same', fails'⟩ := ih (.step run hs) hr found₁ fails₁
    exact ⟨k', stage', found', same'.trans same, fails'⟩

end

end System

end VideoRelay

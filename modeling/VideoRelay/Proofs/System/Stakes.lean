/-
What a session has to do with the hub.

* `Stake` — of a session that consumes a subscription, what matters to the hub: its
  number, its handle, and how far it has got with giving the subscription up;
* `Stake.Move` — what one step of a session asks of the hub;
* `SubscriberSession.step?_move`, `TapSession.step?_move` — both kinds of sessions make
  such moves and no others;
* `ProducerStake.Move`, `ProducerSession.step?_move`, `ProducerSession.abort_move` —
  likewise for producers' sessions.

Design notes: writers and taps fail in the same way, close first and unregister then, so
what follows from the order is said of stakes, once.
-/
import VideoRelay.Proofs.Hub.Departure
import VideoRelay.System

namespace VideoRelay

/-- How far a session has got with giving up its subscription. -/
inductive Withdrawal
  | failing
  /-- Waits for its removal to be accepted. -/
  | unregistering (ticket : Nat)
  | withdrawn
  deriving DecidableEq, Repr

/-- What a consuming session has to do with the hub. -/
structure Stake where
  id : Nat
  holdsHandle : Bool
  /-- Why it gives up its subscription, if it does. -/
  withdrawal? : Option (Error × Withdrawal)

/-! ### Moves -/

/-- What one step of a session asks of a hub whose next ticket is `ticket`. -/
inductive Stake.Move (ticket : Nat) (k : Stake) : List Hub.Action → Stake → Prop
  | silent : Move ticket k [] k
  | take (healthy : k.withdrawal? = none) : Move ticket k [.take k.id] k
  | fail (cause : Error) (actions : List Hub.Action) (healthy : k.withdrawal? = none)
      (atMost : actions = [] ∨ actions = [.take k.id]) :
    Move ticket k actions { k with withdrawal? := some (cause, .failing) }
  | withdraw (cause : Error) (failing : k.withdrawal? = some (cause, .failing))
      (holds : k.holdsHandle = true) :
    Move ticket k [.close k.id, .call (.unregister k.id)]
      { k with withdrawal? := some (cause, .unregistering ticket) }
  | leave (holds : k.holdsHandle = true) : Move ticket k [.dropHandle] { k with holdsHandle := false }

namespace Stake

/-- A call has ended. -/
def answer (k : Stake) (ticket : Nat) : Stake :=
  match k.withdrawal? with
  | some (cause, .unregistering own) =>
    if own = ticket then { k with withdrawal? := some (cause, .withdrawn) } else k
  | _ => k

/-- The session waits for this call. -/
def awaits (k : Stake) (ticket : Nat) : Prop :=
  ∃ cause, k.withdrawal? = some (cause, .unregistering ticket)

end Stake

/-! ### One action of the hub, or two -/

namespace Hub

theorem perform?_singleton (h : Hub) (action : Action) : h.perform? [action] = h.step? action := by
  cases hs : h.step? action <;> simp [perform?, hs]

theorem perform?_dropHandle {h : Hub} (handle : 0 < h.handles) :
    h.perform? [.dropHandle] = some (h.dropHandle, []) := by
  rw [perform?_singleton]
  exact if_pos handle

theorem close_handles (h : Hub) (id : Nat) : (h.close id).1.handles = h.handles := by
  rw [close]
  split <;> rfl

theorem cancel?_handles {h h' : Hub} {ticket : Nat} {events : List Event}
    (hc : h.cancel? ticket = some (h', events)) : h'.handles = h.handles := by
  cases cancel?_callerStep hc <;> rfl

theorem close_nextTicket (h : Hub) (id : Nat) : (h.close id).1.nextTicket = h.nextTicket := by
  rw [close]
  split <;> rfl

/-- To close a subscription and ask for its removal. -/
theorem perform?_withdraw {h : Hub} {id : Nat} (handle : 0 < h.handles) (known : id < h.nextId) :
    h.perform? [.close id, .call (.unregister id)] =
      some (((h.close id).1.call (.unregister id)).1,
        (h.close id).2 ++ ((h.close id).1.call (.unregister id)).2) := by
  have handle' : 0 < (h.close id).1.handles := by rwa [close_handles]
  simp [perform?, step?, known, handle']

end Hub

/-! ### Writers -/

namespace SubscriberSession

def stake (w : SubscriberSession) : Stake where
  id := w.id
  holdsHandle :=
    match w.phase with
    | .ended _ => false
    | _ => true
  withdrawal? :=
    match w.phase with
    | .failing cause => some (.connection w.id cause, .failing)
    | .unregistering ticket cause => some (.connection w.id cause, .unregistering ticket)
    | .leaving (.error cause) | .ended (.error cause) => some (cause, .withdrawn)
    | _ => none

/-- A packet over the limit is taken, and fails the session. -/
theorem begin_move {w : SubscriberSession} (healthy : w.stake.withdrawal? = none)
    (holds : w.stake.holdsHandle = true) (packet : Packet) (ticket : Nat) :
    w.stake.Move ticket [.take w.id] (w.begin packet).stake := by
  have same : w.stake = ⟨w.id, true, none⟩ := by rw [← healthy, ← holds]; rfl
  rw [same, begin]
  split
  · exact .fail (k := ⟨w.id, true, none⟩) _ _ rfl (.inr rfl)
  · exact .take (k := ⟨w.id, true, none⟩) rfl

theorem place?_stake {w w' : SubscriberSession} {packet : Packet} {pieces : List Bytes}
    (hp : w.place? packet pieces = some w') : w'.stake = ⟨w.id, true, none⟩ := by
  rw [place?.eq_def] at hp
  split at hp
  · cases hp
    rfl
  · cases hp
    rfl
  · split at hp
    · cases hp
      rfl
    · split at hp
      · cases hp
      · cases hp
        rfl

/-- What a writer's own step asks of the hub. -/
theorem step?_move {w w' : SubscriberSession} {h h' : Hub} {events : List Hub.Event}
    (hs : w.step? h = some (w', h', events)) :
    ∃ actions, w.stake.Move h.nextTicket actions w'.stake ∧
      ((w.stake.holdsHandle = true → 0 < h.handles) → w.id < h.nextId →
        h.perform? actions = some (h', events)) := by
  obtain ⟨id, capacity, buffer, stats, phase⟩ := w
  cases phase with
  | receiving =>
    simp only [step?] at hs
    split at hs
    · rename_i packet h₁ events₁ _ taken
      cases hs
      refine ⟨_, begin_move rfl rfl packet _, fun _ _ => ?_⟩
      rw [Hub.perform?_singleton]
      exact taken
    · cases hs
      exact ⟨[], .silent, fun _ _ => rfl⟩
    · cases hs
  | draining =>
    simp only [step?] at hs
    split at hs
    · rename_i packet h₁ events₁ _ taken
      cases hs
      refine ⟨_, begin_move rfl rfl packet _, fun _ _ => ?_⟩
      rw [Hub.perform?_singleton]
      exact taken
    · cases hs
      exact ⟨[], .silent, fun _ _ => rfl⟩
  | writing packet pieces =>
    simp only [step?, Option.map_eq_some_iff] at hs
    obtain ⟨next, placed, heq⟩ := hs
    cases heq
    rw [place?_stake placed]
    exact ⟨[], .silent, fun _ _ => rfl⟩
  | spilling rest packet pieces =>
    cases rest with
    | nil =>
      cases hs
      exact ⟨[], .silent, fun _ _ => rfl⟩
    | cons b rest => cases hs
  | failing cause =>
    simp only [step?, Hub.close_nextTicket, Option.some.injEq, Prod.mk.injEq] at hs
    obtain ⟨rfl, rfl, rfl⟩ := hs
    exact ⟨_, .withdraw _ rfl rfl, fun handle => Hub.perform?_withdraw (handle rfl)⟩
  | leaving result =>
    cases hs
    refine ⟨[.dropHandle], ?_, fun handle _ => ?_⟩
    · cases result <;> exact .leave rfl
    · exact Hub.perform?_dropHandle (handle rfl)
  | flushing rest isLast => cases hs
  | closing => cases hs
  | unregistering ticket cause => cases hs
  | ended result => cases hs

theorem stake_of_errand {w : SubscriberSession} {errand : Errand}
    (asked : w.errand? = some errand) : w.stake = ⟨w.id, true, none⟩ := by
  obtain ⟨id, capacity, buffer, stats, phase⟩ := w
  cases phase with
  | failing => cases asked
  | unregistering => cases asked
  | leaving => cases asked
  | ended => cases asked
  | _ => rfl

/-- A connection fails to write or to flush, or its answer is no matter of the stake. -/
theorem respond?_cases {w w' : SubscriberSession} {answer : Answer}
    (hr : w.respond? answer = some w') :
    (∃ errand cause, w.errand? = some errand ∧ errand ≠ .shutDown ∧ answer = .failed cause ∧
        w' = { w with phase := .failing cause }) ∨ w'.stake = ⟨w.id, true, none⟩ := by
  cases asked : w.errand? with
  | none => simp [respond?, asked] at hr
  | some errand =>
    rw [respond?.eq_def, asked] at hr
    split at hr
    · cases hr
    · cases hr
      exact .inr rfl
    · cases hr
      exact .inr rfl
    · cases hr
    · rename_i cause notLast same
      cases same
      cases hr
      exact .inl ⟨_, _, rfl, fun last => notLast last, rfl, rfl⟩
    · split at hr
      · cases hr
        exact .inr rfl
      · cases hr
        exact .inr rfl
    · cases hr
    · cases hr
    · split at hr
      · split at hr
        · cases hr
          exact .inr rfl
        · cases hr
          exact .inr rfl
        · cases hr
          exact .inr rfl
        · cases hr
      · cases hr

/-- What an answer of the connection leads to asks nothing of the hub. -/
theorem respond?_move {w w' : SubscriberSession} {answer : Answer}
    (hr : w.respond? answer = some w') (ticket : Nat) : w.stake.Move ticket [] w'.stake := by
  obtain ⟨errand, asked⟩ : ∃ errand, w.errand? = some errand := by
    refine Option.ne_none_iff_exists'.mp fun nothing => ?_
    simp [respond?, nothing] at hr
  rw [stake_of_errand asked]
  rcases respond?_cases hr with ⟨-, cause, -, -, -, rfl⟩ | healthy
  · exact .fail (k := ⟨w.id, true, none⟩) _ _ rfl (.inl rfl)
  · rw [healthy]
    exact .silent

/-- A connection that fails to write or to flush fails the session. -/
theorem respond?_failed {w : SubscriberSession} {errand : Errand}
    (asked : w.errand? = some errand) (notLast : errand ≠ .shutDown) (cause : IoError) :
    w.respond? (.failed cause) = some { w with phase := .failing cause } := by
  rw [respond?.eq_def, asked]
  cases errand with
  | shutDown => exact absurd rfl notLast
  | write data => rfl
  | flush => rfl

/-- A writer that gives up its subscription and can do nothing waits for its removal, or
is over. -/
theorem result?_of_stuck {w : SubscriberSession} {h : Hub} {cause : Error} {stage : Withdrawal}
    (stuck : w.step? h = none) (fails : w.stake.withdrawal? = some (cause, stage)) :
    (∃ ticket, stage = .unregistering ticket) ∨
      stage = .withdrawn ∧ w.result? = some (.error cause) := by
  obtain ⟨id, capacity, buffer, stats, phase⟩ := w
  cases phase with
  | failing => cases stuck
  | unregistering ticket =>
    cases fails
    exact .inl ⟨ticket, rfl⟩
  | leaving => cases stuck
  | ended result =>
    cases result with
    | ok => cases fails
    | error =>
      cases fails
      exact .inr ⟨rfl, rfl⟩
  | _ => cases fails

theorem stake_answer (w : SubscriberSession) (ticket : Nat) :
    (w.answer ticket).stake = w.stake.answer ticket := by
  obtain ⟨id, capacity, buffer, stats, phase⟩ := w
  cases phase with
  | unregistering own =>
    by_cases mine : own = ticket
    · simp [SubscriberSession.answer, Stake.answer, stake, mine]
    · simp [SubscriberSession.answer, Stake.answer, stake, mine]
  | leaving result => cases result <;> rfl
  | ended result => cases result <;> rfl
  | _ => rfl

theorem awaits_iff {w : SubscriberSession} {ticket : Nat} :
    w.awaits ticket = true ↔ w.stake.awaits ticket := by
  obtain ⟨id, capacity, buffer, stats, phase⟩ := w
  cases phase with
  | leaving result => cases result <;> simp [awaits, Stake.awaits, stake]
  | ended result => cases result <;> simp [awaits, Stake.awaits, stake]
  | _ => simp [awaits, Stake.awaits, stake]

end SubscriberSession

/-! ### Taps -/

namespace TapSession

def stake (t : TapSession) : Stake where
  id := t.id
  holdsHandle :=
    match t.phase with
    | .ended _ => false
    | _ => true
  withdrawal? :=
    match t.phase with
    | .failing cause => some (cause, .failing)
    | .unregistering ticket cause => some (cause, .unregistering ticket)
    | .leaving (.error cause) | .ended (.error cause) => some (cause, .withdrawn)
    | _ => none

theorem stake_cutPacket (t : TapSession) (packet : Packet) :
    (t.cutPacket packet).1.stake = ⟨t.id, true, none⟩ := by
  rw [cutPacket]
  split <;> rfl

/-- What a tap's own step asks of the hub. -/
theorem step?_move {t t' : TapSession} {h h' : Hub} {events : List Hub.Event}
    {skipped? : Option SkippedFrame} (hs : t.step? h = some (t', h', events, skipped?)) :
    ∃ actions, t.stake.Move h.nextTicket actions t'.stake ∧
      ((t.stake.holdsHandle = true → 0 < h.handles) → t.id < h.nextId →
        h.perform? actions = some (h', events)) := by
  obtain ⟨id, config, stats, phase⟩ := t
  cases phase with
  | receiving =>
    simp only [step?] at hs
    split at hs
    · rename_i packet h₁ events₁ _ taken
      cases hs
      rw [stake_cutPacket]
      refine ⟨[.take id], .take rfl, fun _ _ => ?_⟩
      rw [Hub.perform?_singleton]
      exact taken
    · cases hs
      exact ⟨[], .silent, fun _ _ => rfl⟩
    · cases hs
  | sending rest =>
    cases rest with
    | nil =>
      cases hs
      exact ⟨[], .silent, fun _ _ => rfl⟩
    | cons payload rest => cases hs
  | failing cause =>
    simp only [step?, Hub.close_nextTicket, Option.some.injEq, Prod.mk.injEq] at hs
    obtain ⟨rfl, rfl, rfl, rfl⟩ := hs
    exact ⟨_, .withdraw _ rfl rfl, fun handle => Hub.perform?_withdraw (handle rfl)⟩
  | leaving result =>
    cases hs
    refine ⟨[.dropHandle], ?_, fun handle _ => ?_⟩
    · cases result <;> exact .leave rfl
    · exact Hub.perform?_dropHandle (handle rfl)
  | unregistering ticket cause => cases hs
  | ended result => cases hs

/-- What the consumer's answer leads to asks nothing of the hub. -/
theorem respond?_move {t t' : TapSession} {failure? : Option Error}
    (hr : t.respond? failure? = some t') (ticket : Nat) : t.stake.Move ticket [] t'.stake := by
  obtain ⟨id, config, stats, phase⟩ := t
  simp only [respond?] at hr
  split at hr
  · cases hr
    exact .silent
  · cases hr
    exact .fail (k := ⟨id, true, none⟩) _ _ rfl (.inl rfl)
  · cases hr

/-- A consumer that fails to take a payload fails the tap. -/
theorem respond?_failed {t : TapSession} {payload : Payload} (offered : t.offer? = some payload)
    (cause : Error) : t.respond? (some cause) = some { t with phase := .failing cause } := by
  obtain ⟨id, config, stats, phase⟩ := t
  cases phase with
  | sending rest =>
    cases rest with
    | nil => cases offered
    | cons payload rest => rfl
  | _ => cases offered

/-- A tap that gives up its subscription and can do nothing waits for its removal, or is
over. -/
theorem result?_of_stuck {t : TapSession} {h : Hub} {cause : Error} {stage : Withdrawal}
    (stuck : t.step? h = none) (fails : t.stake.withdrawal? = some (cause, stage)) :
    (∃ ticket, stage = .unregistering ticket) ∨
      stage = .withdrawn ∧ t.result? = some (.error cause) := by
  obtain ⟨id, config, stats, phase⟩ := t
  cases phase with
  | failing => cases stuck
  | unregistering ticket =>
    cases fails
    exact .inl ⟨ticket, rfl⟩
  | leaving => cases stuck
  | ended result =>
    cases result with
    | ok => cases fails
    | error =>
      cases fails
      exact .inr ⟨rfl, rfl⟩
  | _ => cases fails

theorem stake_answer (t : TapSession) (ticket : Nat) :
    (t.answer ticket).stake = t.stake.answer ticket := by
  obtain ⟨id, config, stats, phase⟩ := t
  cases phase with
  | unregistering own =>
    by_cases mine : own = ticket
    · simp [TapSession.answer, Stake.answer, stake, mine]
    · simp [TapSession.answer, Stake.answer, stake, mine]
  | leaving result => cases result <;> rfl
  | ended result => cases result <;> rfl
  | _ => rfl

theorem awaits_iff {t : TapSession} {ticket : Nat} :
    t.awaits ticket = true ↔ t.stake.awaits ticket := by
  obtain ⟨id, config, stats, phase⟩ := t
  cases phase with
  | leaving result => cases result <;> simp [awaits, Stake.awaits, stake]
  | ended result => cases result <;> simp [awaits, Stake.awaits, stake]
  | _ => simp [awaits, Stake.awaits, stake]

end TapSession

/-! ### Producers -/

/-- What a producer's session has to do with the hub. -/
structure ProducerStake where
  holdsHandle : Bool
  /-- The call that it waits for. -/
  ticket? : Option Nat

/-- What one step of a producer's session asks of a hub whose next ticket is `ticket`. -/
inductive ProducerStake.Move (ticket : Nat) (k : ProducerStake) :
    List Hub.Action → ProducerStake → Prop
  | silent : Move ticket k [] k
  | submit (packet : Packet) (holds : k.holdsHandle = true) :
    Move ticket k [.call (.packet packet)] { k with ticket? := some ticket }
  | leave (holds : k.holdsHandle = true) : Move ticket k [.dropHandle] ⟨false, none⟩
  | giveUp (own : Nat) (submitted : k.ticket? = some own) (holds : k.holdsHandle = true) :
    Move ticket k [.cancel own, .dropHandle] ⟨false, none⟩

/-- A call has ended. -/
def ProducerStake.answer (k : ProducerStake) (ticket : Nat) : ProducerStake :=
  if k.ticket? = some ticket then { k with ticket? := none } else k

namespace ProducerSession

def stake (p : ProducerSession) : ProducerStake where
  holdsHandle :=
    match p.phase with
    | .ended _ | .aborted => false
    | _ => true
  ticket? :=
    match p.phase with
    | .submitting ticket => some ticket
    | _ => none

theorem ticket?_eq_some {p : ProducerSession} {ticket : Nat} :
    p.stake.ticket? = some ticket ↔ p.phase = .submitting ticket := by
  obtain ⟨reader, stats, phase⟩ := p
  cases phase <;> simp [stake]

/-- What a producer's own step asks of the hub. -/
theorem step?_move {p p' : ProducerSession} {h h' : Hub} {events : List Hub.Event}
    (hs : p.step? h = some (p', h', events)) :
    ∃ actions, p.stake.Move h.nextTicket actions p'.stake ∧
      ((p.stake.holdsHandle = true → 0 < h.handles) → h.perform? actions = some (h', events)) := by
  obtain ⟨reader, stats, phase⟩ := p
  cases phase with
  | reading =>
    simp only [step?] at hs
    split at hs
    · cases hs
    · rcases next : reader.next with ⟨received, reader'⟩
      simp only [read, next] at hs
      cases received with
      | packet packet =>
        cases hs
        refine ⟨[.call (.packet packet)], .submit packet rfl, fun handle => ?_⟩
        rw [Hub.perform?_singleton]
        exact if_pos (handle rfl)
      | ended =>
        cases hs
        exact ⟨[], .silent, fun _ => rfl⟩
      | failed cause =>
        cases hs
        exact ⟨[], .silent, fun _ => rfl⟩
      | starved =>
        cases hs
        exact ⟨[], .silent, fun _ => rfl⟩
  | leaving result =>
    cases hs
    exact ⟨[.dropHandle], .leave rfl, fun handle => Hub.perform?_dropHandle (handle rfl)⟩
  | submitting ticket => cases hs
  | ended result => cases hs
  | aborted => cases hs

/-- What it asks of the hub to break a producer off. -/
theorem abort_move {p p' : ProducerSession} {h h' : Hub} {events : List Hub.Event}
    (ha : p.abort h = (p', h', events)) :
    ∃ actions, p.stake.Move h.nextTicket actions p'.stake ∧
      ((p.stake.holdsHandle = true → 0 < h.handles) → h.perform? actions = some (h', events)) := by
  obtain ⟨reader, stats, phase⟩ := p
  cases phase with
  | reading =>
    cases ha
    exact ⟨[.dropHandle], .leave rfl, fun handle => Hub.perform?_dropHandle (handle rfl)⟩
  | leaving result =>
    cases ha
    exact ⟨[.dropHandle], .leave rfl, fun handle => Hub.perform?_dropHandle (handle rfl)⟩
  | submitting ticket =>
    simp only [abort] at ha
    cases cancelled : h.cancel? ticket with
    | none =>
      rw [cancelled] at ha
      cases ha
      exact ⟨[.dropHandle], .leave rfl, fun handle => Hub.perform?_dropHandle (handle rfl)⟩
    | some outcome =>
      obtain ⟨h₁, events₁⟩ := outcome
      rw [cancelled] at ha
      cases ha
      refine ⟨[.cancel ticket, .dropHandle], .giveUp ticket rfl rfl, fun handle => ?_⟩
      have handle' : 0 < h₁.handles := by
        rw [Hub.cancel?_handles cancelled]
        exact handle rfl
      simp [Hub.perform?, Hub.step?, cancelled, handle']
  | ended result =>
    cases ha
    exact ⟨[], .silent, fun _ => rfl⟩
  | aborted =>
    cases ha
    exact ⟨[], .silent, fun _ => rfl⟩

theorem stake_answer (p : ProducerSession) (ticket : Nat) (reply : Hub.Reply) :
    (p.answer ticket reply).stake = p.stake.answer ticket := by
  obtain ⟨reader, stats, phase⟩ := p
  cases phase with
  | submitting own =>
    by_cases mine : own = ticket
    · cases reply <;> simp [ProducerSession.answer, ProducerStake.answer, stake, mine]
    · simp [ProducerSession.answer, ProducerStake.answer, stake, mine]
  | _ => rfl

end ProducerSession

end VideoRelay

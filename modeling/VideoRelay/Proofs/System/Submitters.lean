/-
Who waits for a packet to be accepted.

* `Acts.submitting` — with each action one session at most begins to wait, for a new call;
* `Run.submitter_unique` — no two sessions wait for the same call;
* `Run.submission_waits` — the call of a session waits for room until the session is told how
  it has ended, unless the session is broken off.

Design notes: a call is given up by a client or by the session that waits for it.  Clients may
not give up what a session waits for, and a session that gives up its call gives up its handle
too, which no other session can do for it.
-/
import VideoRelay.Proofs.System.Withdrawal

namespace VideoRelay.System

variable {config : HubConfig} {history events : List Event} {s s₁ s' : System} {action : Action}
  {actions : List Hub.Action} {i : Nat} {p p' : ProducerSession}

/-- Who waits has waited before, or alone has made a new call. -/
theorem Acts.submitting (acts : s.Acts actions s₁) {hub : Hub} {heard : List Hub.Event}
    (hp : s.hub.perform? actions = some (hub, heard)) {p₁ : ProducerSession}
    (found : s₁.producers[i]? = some p₁) {ticket : Nat}
    (waits : p₁.stake.ticket? = some ticket) :
    (∃ p, s.producers[i]? = some p ∧ p.stake.ticket? = some ticket) ∨
      (∃ packet, ⟨ticket, .packet packet⟩ ∈ Hub.calls heard) ∧
        ∀ j, j ≠ i → s₁.producers[j]? = s.producers[j]? := by
  cases acts with
  | @producer j q q' actions foundBefore m =>
    by_cases own : j = i
    · subst own
      rw [List.getElem?_set_self (List.getElem?_eq_some_iff.mp foundBefore).1] at found
      cases found
      refine (m.ticket hp waits).imp (fun before => ⟨q, foundBefore, before⟩) fun called => ?_
      exact ⟨called, fun k other => List.getElem?_set_ne (Ne.symm other)⟩
    · exact .inl ⟨p₁, (List.getElem?_set_ne own).symm.trans found, waits⟩
  | startProducer source client =>
    rcases getElem?_concat_cases s.producers (.start source) i with same | ⟨-, new⟩
    · exact .inl ⟨p₁, same.symm.trans found, waits⟩
    · cases new.symm.trans found
      cases waits
  | _ => exact .inl ⟨p₁, found, waits⟩

/-- No two sessions wait for the same call. -/
theorem Run.submitter_unique (run : Run config history s) {i j : Nat} {p q : ProducerSession}
    (found : s.producers[i]? = some p) (found' : s.producers[j]? = some q) {ticket : Nat}
    (waits : p.stake.ticket? = some ticket) (waits' : q.stake.ticket? = some ticket) : i = j := by
  induction run generalizing i j p q ticket with
  | start => cases found
  | @step history events s s' action run hs ih =>
    have sound' := (run.step hs).sound
    obtain ⟨actions, s₁, hub, heard, acts, does, rfl, told⟩ := step?_acts run.sound.provided hs
    rw [hubEvents_append, told] at sound'
    -- Whoever waits now waited when nobody had been told yet.
    have earlier {k : Nat} {p : ProducerSession}
        (found : (s₁.absorb hub heard).1.producers[k]? = some p)
        (waits : p.stake.ticket? = some ticket) :
        ∃ p₁, s₁.producers[k]? = some p₁ ∧ p₁.stake.ticket? = some ticket := by
      rw [absorb_fst, List.getElem?_map, Option.map_eq_some_iff] at found
      obtain ⟨p₁, found, rfl⟩ := found
      rw [p₁.stake_hear] at waits
      exact ⟨p₁, found, (p₁.stake.hear_keeps _).2 ticket waits⟩
    -- The ticket of a new call is nobody else's.
    have new {k : Nat} {p : ProducerSession} (found : s.producers[k]? = some p)
        (waits : p.stake.ticket? = some ticket) :
        ¬ ∃ packet, ⟨ticket, .packet packet⟩ ∈ Hub.calls heard := by
      rintro ⟨packet, called⟩
      obtain ⟨other, before⟩ :=
        run.withdrawing.submitted p (List.mem_of_getElem? found) ticket waits
      exact sound'.run.not_called_again before called rfl
    obtain ⟨p₁, found₁, waits₁⟩ := earlier found waits
    obtain ⟨q₁, found₁', waits₁'⟩ := earlier found' waits'
    rcases acts.submitting does found₁ waits₁ with ⟨p₀, found₀, waits₀⟩ | ⟨called, others⟩
    · rcases acts.submitting does found₁' waits₁' with ⟨q₀, found₀', waits₀'⟩ | ⟨called, -⟩
      · exact ih found₀ found₀' waits₀ waits₀'
      · exact absurd called (new found₀ waits₀)
    · by_contra other
      exact new ((others j (Ne.symm other)).symm.trans found₁') waits₁' called

theorem isAwaited_of_submitting (found : s.producers[i]? = some p) {ticket : Nat}
    (waits : p.stake.ticket? = some ticket) : s.isAwaited ticket = true := by
  have own : p.awaits ticket = true := by
    rw [ProducerSession.awaits, ProducerSession.ticket?_eq_some.mp waits]
    exact decide_eq_true rfl
  have any : s.producers.any (·.awaits ticket) = true :=
    List.any_eq_true.mpr ⟨p, List.mem_of_getElem? found, own⟩
  rw [isAwaited, any]
  rfl

/-- The call of a session waits for room until the session is told how it has ended. -/
theorem Run.submission_waits (run : Run config history s) (found : s.producers[i]? = some p)
    {r : Hub.Request} {packet : Packet} (waits : p.stake.ticket? = some r.ticket)
    (isPacket : r.command = .packet packet) (inLine : r ∈ s.hub.waiting)
    (hs : s.step? action = some (s', events)) (found' : s'.producers[i]? = some p')
    (holds : p'.stake.holdsHandle = true) :
    r ∈ s'.hub.waiting ∨ ∃ reply, .returned r.ticket reply ∈ hubEvents events := by
  obtain ⟨actions, s₁, hub, heard, acts, does, rfl, told⟩ := step?_acts run.sound.provided hs
  rw [absorb_fst] at found' ⊢
  rw [told]
  refine Hub.perform?_keeps_waiting does inLine (fun mem => ?_) (by rw [isPacket]; rfl)
  cases acts with
  | client action permitted =>
    obtain rfl := List.mem_singleton.mp mem
    rw [permits, isAwaited_of_submitting found waits] at permitted
    cases permitted
  | @producer j q q' actions foundBefore m =>
    obtain rfl := run.submitter_unique found foundBefore waits (m.cancel mem)
    rw [List.getElem?_map, List.getElem?_set_self (List.getElem?_eq_some_iff.mp found).1] at found'
    cases found'
    rw [q'.stake_hear, (q'.stake.hear_keeps heard).1] at holds
    have gone : q'.stake.holdsHandle = false := by
      generalize q'.stake = k at m
      cases m with
      | giveUp => rfl
      | _ => simp at mem
    rw [gone] at holds
    cases holds
  | writer found m => exact m.not_cancel _ mem
  | tap found m => exact m.not_cancel _ mem
  | _ => simp at mem

end VideoRelay.System

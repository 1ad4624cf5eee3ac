/-
What a subscriber's connection has got, at every moment of a run.

* `outputs`, `writtenBy`, `IsFlushed` — what the connection of a writer was seen to do;
* `SubscriberSession.Advance`, `Step.writer_advance` — what one action is to a writer;
* `FailsIn`, `Run.failure?_iff` — a writer gives up just when something fails that it did;
* `Run.conveys` — a writer conveys what it takes, from its beginning on;
* `Run.writer_isFaithful` — so its connection has got the first of the frames at all times, all of
  them while it waits for a packet, and all of them when it ends well.

Design notes: what is outstanding is lost when a session fails, and not before.  So the two
halves of the result are what a session conveys as long as it has not failed, and why it fails.
-/
import VideoRelay.Proofs.Hub.Ending
import VideoRelay.Proofs.Session.Output
import VideoRelay.Proofs.System.Failure
import VideoRelay.Proofs.System.Owners

open VideoRelay.Frame

namespace VideoRelay

namespace System

/-! ### What a connection does -/

/-- What a connection was seen to do. -/
inductive Output
  | wrote (data : Bytes)
  | flushed
  deriving DecidableEq

@[simp] def Output.data : Output → Bytes
  | .wrote data => data
  | .flushed => []

@[simp] def Event.output? (i : Nat) : Event → Option Output
  | .wrote j data => if j = i then some (.wrote data) else none
  | .flushed j => if j = i then some .flushed else none
  | _ => none

/-- What the connection of writer `i` has done. -/
def outputs (i : Nat) (history : List Event) : List Output :=
  history.filterMap (Event.output? i)

/-- The bytes that the connection of writer `i` has accepted. -/
def writtenBy (i : Nat) (history : List Event) : Bytes := (outputs i history).flatMap Output.data

/-- The connection of writer `i` has accepted nothing since it was flushed. -/
def IsFlushed (i : Nat) (history : List Event) : Prop :=
  ∀ data, (outputs i history).getLast? ≠ some (.wrote data)

section

variable {i : Nat} {history events : List Event}

theorem outputs_append (i : Nat) (history events : List Event) :
    outputs i (history ++ events) = outputs i history ++ outputs i events := List.filterMap_append

theorem writtenBy_append (i : Nat) (history events : List Event) :
    writtenBy i (history ++ events) = writtenBy i history ++ writtenBy i events := by
  rw [writtenBy, outputs_append, List.flatMap_append]
  rfl

theorem outputs_map_hub (i : Nat) (events : List Hub.Event) :
    outputs i (events.map .hub) = [] := by
  rw [outputs, List.filterMap_map, List.filterMap_eq_nil_iff]
  intro e mem
  rfl

theorem writtenBy_of_silent (silent : outputs i events = []) : writtenBy i events = [] := by
  rw [writtenBy, silent]
  rfl

theorem IsFlushed.append_silent (flushed : IsFlushed i history) (silent : outputs i events = []) :
    IsFlushed i (history ++ events) := by
  rw [IsFlushed, outputs_append, silent, List.append_nil]
  exact flushed

theorem isFlushed_append (flush : outputs i events = [.flushed]) :
    IsFlushed i (history ++ events) := by
  intro data last
  rw [outputs_append, flush, List.getLast?_concat] at last
  cases last

theorem writtenBy_connectionEvents (i : Nat) (errand? : Option Errand) (answer : Answer) :
    writtenBy i (connectionEvents i errand? answer) =
      SubscriberSession.acceptedBytes errand? answer := by
  rw [connectionEvents.eq_def, SubscriberSession.acceptedBytes.eq_def]
  split <;> simp [writtenBy, outputs]

end

end System

/-! ### Actions, as a writer sees them -/

open VideoRelay.System VideoRelay.Hub

/-- What one action in a system with hub `h` is to writer `i`, which is `w` before it. -/
inductive SubscriberSession.Advance (h : Hub) (i : Nat) (w : SubscriberSession) :
    System.Action → List System.Event → SubscriberSession → Prop
  | waits {action : System.Action} {events : List System.Event}
      (foreign : Foreign w.id (hubEvents events)) (silent : outputs i events = []) :
    Advance h i w action events (w.hear (hubEvents events))
  | works {w' : SubscriberSession} {hub : Hub} {heard : List Hub.Event}
      (hs : w.step? h = some (w', hub, heard)) :
    Advance h i w (.write i) (heard.map .hub) (w'.hear heard)
  | answers {w' : SubscriberSession} {answer : Answer} (hr : w.respond? answer = some w') :
    Advance h i w (.connection i answer) (connectionEvents i w.errand? answer) w'

namespace System

theorem getElem?_writers_absorb (s : System) (hub : Hub) (heard : List Hub.Event) (i : Nat) :
    (s.absorb hub heard).1.writers[i]? = s.writers[i]?.map (·.hear heard) := by
  rw [absorb_fst, List.getElem?_map]

/-- A writer goes on by its own steps and by its connection's answers, and is told of calls
that return. -/
theorem Step.writer_advance {s s' : System} {action : Action} {events : List Event}
    (st : Step s action events s') (ready : s.Provided) (apart : s.Apart) {i : Nat}
    {w : SubscriberSession} (found : s.writers[i]? = some w) :
    ∃ w', s'.writers[i]? = some w' ∧ w.Advance s.hub i action events w' := by
  have owner : s.idOf? (.writer i) = some w.id := by
    rw [idOf?_writer, found]
    rfl
  have foreign := st.foreign ready apart owner
  -- Whoever else acts, the writer is told, and its connection does nothing.
  have waits (other : action.consumer? ≠ some (.writer i)) (silent : outputs i events = [])
      (after : s'.writers[i]? = some (w.hear (hubEvents events))) :
      ∃ w', s'.writers[i]? = some w' ∧ w.Advance s.hub i action events w' :=
    ⟨_, after, .waits (foreign other) silent⟩
  have nobody : none ≠ some (Consumer.writer i) := (Option.some_ne_none _).symm
  have another (j : Nat) : some (Consumer.tap j) ≠ some (.writer i) := by simp
  cases st with
  | hub permitted hs =>
    refine waits nobody (outputs_map_hub i _) ?_
    rw [getElem?_writers_absorb, hubEvents_map_hub]
    exact congrArg _ found
  | startProducer => exact waits nobody rfl found
  | arrive => exact waits nobody rfl found
  | @produce j p p' hub heard atProducer hs =>
    refine waits nobody ?_ ?_
    · rw [outputs_append, outputs_map_hub, List.append_nil, outputs, List.filterMap_filterMap,
        List.filterMap_eq_nil_iff]
      intro e mem
      rw [submission?.eq_def]
      split <;> rfl
    · rw [getElem?_writers_absorb, hubEvents_produce]
      exact congrArg _ found
  | abort =>
    refine waits nobody (outputs_map_hub i _) ?_
    rw [getElem?_writers_absorb, hubEvents_map_hub]
    exact congrArg _ found
  | startWriter =>
    refine waits nobody rfl ?_
    exact (List.getElem?_append_left (List.getElem?_eq_some_iff.mp found).1).trans found
  | @write j w₁ w' hub heard atWriter hs =>
    by_cases own : j = i
    · subst own
      obtain rfl := Option.some.inj (found.symm.trans atWriter)
      refine ⟨w'.hear heard, ?_, .works hs⟩
      rw [getElem?_writers_absorb, List.getElem?_set_self (List.getElem?_eq_some_iff.mp found).1]
      rfl
    · refine waits (fun same => own (by cases same; rfl)) (outputs_map_hub i _) ?_
      rw [getElem?_writers_absorb, List.getElem?_set_ne own, hubEvents_map_hub]
      exact congrArg _ found
  | @connection j w₁ w' answer atWriter hr =>
    by_cases own : j = i
    · subst own
      obtain rfl := Option.some.inj (found.symm.trans atWriter)
      exact ⟨w', List.getElem?_set_self (List.getElem?_eq_some_iff.mp found).1, .answers hr⟩
    · refine waits (fun same => own (by cases same; rfl)) ?_ ?_
      · rw [connectionEvents.eq_def]
        split <;> simp [outputs, own]
      · rw [hubEvents_connectionEvents]
        exact (List.getElem?_set_ne own).trans found
  | startTap => exact waits nobody rfl found
  | @tap j t t' hub heard skipped? atTap hs =>
    refine waits (another _) ?_ ?_
    · rw [outputs_append, outputs_map_hub]
      cases skipped? <;> rfl
    · rw [getElem?_writers_absorb, hubEvents_tap]
      exact congrArg _ found
  | consumer => exact waits (another _) rfl found

end System

/-! ### What has been conveyed -/

namespace SubscriberSession

variable {w w' : SubscriberSession} {h : Hub} {i id : Nat} {past events : List System.Event}
  {action : System.Action}

theorem hear_id (heard : List Hub.Event) (w : SubscriberSession) : (w.hear heard).id = w.id :=
  (congrArg Stake.id (w.stake_hear heard)).trans (Stake.hear_id heard w.stake)

theorem Advance.id_eq (adv : w.Advance h i action events w') : w'.id = w.id := by
  cases adv with
  | waits => exact hear_id _ w
  | works hs =>
    obtain ⟨actions, m, -⟩ := step?_move hs
    exact (hear_id _ _).trans m.id_eq
  | answers hr => exact (respond?_move hr 0).id_eq

/-- Writer `i` with hub `h` has conveyed what it has taken, if `past` is what has happened
since it began. -/
def HasConveyed (w : SubscriberSession) (h : Hub) (i : Nat) (past : List System.Event) : Prop :=
  w.Conveys (takenBy w.id (hubEvents past)) (writtenBy i past) (IsFlushed i past)
    (h.available w.id = .ended)

theorem Advance.conveys (c : w.HasConveyed h i past) (adv : w.Advance h i action events w') :
    w'.Conveys (takenBy w.id (hubEvents (past ++ events))) (writtenBy i (past ++ events))
      (IsFlushed i (past ++ events)) (h.available w.id = .ended) := by
  rw [hubEvents_append, takenBy_append, writtenBy_append]
  cases adv with
  | waits foreign silent =>
    rw [foreign.noneTaken, writtenBy_of_silent silent, List.append_nil, List.append_nil]
    exact (c.mono (·.append_silent silent) fun ended => ended).hear _
  | works hs =>
    have silent := outputs_map_hub i
    rw [hubEvents_map_hub, writtenBy_of_silent (silent _), List.append_nil]
    exact ((c.step hs).mono (·.append_silent (silent _)) fun ended => ended).hear _
  | @answers w' answer hr =>
    rw [hubEvents_connectionEvents, writtenBy_connectionEvents]
    show w'.Conveys (takenBy w.id (hubEvents past) ++ []) _ _ _
    rw [List.append_nil]
    refine c.respond hr (fun asked done => isFlushed_append ?_) fun asked => (·.append_silent ?_)
    · rw [asked, done]
      simp [connectionEvents, outputs]
    · rw [asked]
      cases answer <;> rfl

end SubscriberSession

namespace System

variable {config : HubConfig} {before more : List Event} {s₀ s₁ s : System} {id capacity : Nat}
  {actions : List Action}

/-- A writer in a run conveys what it takes, from its beginning on. -/
theorem Run.conveys (run : Run config before s₀)
    (attached : s₀.step? (.startWriter id capacity) = some (s₁, []))
    (hp : s₁.perform? actions = some (s, more)) :
    ∃ w, s.writers[s₀.writers.length]? = some w ∧ w.id = id ∧
      w.HasConveyed s.hub s₀.writers.length more := by
  have begun : s₁.writers = s₀.writers ++ [.start id capacity] := by
    cases Step.of_step? attached
    rfl
  refine System.perform?_induction (.step run attached) (P := fun _ more s =>
    ∃ w, s.writers[s₀.writers.length]? = some w ∧ w.id = id ∧
      w.HasConveyed s.hub s₀.writers.length more) ?_ ?_ hp
  · refine ⟨.start id capacity, by rw [begun, List.getElem?_concat_length], rfl, ?_⟩
    exact .start id capacity nofun
  · rintro done more s₂ action events s₃ run ⟨w, found, own, c⟩ hs
    have ready := run.sound.provided
    have st := Step.of_step? hs
    obtain ⟨w', found', adv⟩ := st.writer_advance ready run.apart found
    have known := (ready.writers w (List.mem_of_getElem? found)).2
    obtain ⟨does, s', hub, heard, -, does?, rfl, -⟩ := step?_acts ready hs
    refine ⟨w', found', adv.id_eq.trans own, ?_⟩
    rw [SubscriberSession.HasConveyed, adv.id_eq, absorb_fst]
    exact (adv.conveys c).mono (fun flushed => flushed)
      (Hub.perform?_available_ended run.sound.run.orderly does? known)

end System

/-! ### Why a writer gives up -/

namespace SubscriberSession

variable {w w' : SubscriberSession} {h : Hub} {i : Nat} {cause : Error}

theorem failure?_hear (heard : List Hub.Event) (w : SubscriberSession) :
    (w.hear heard).failure? = w.failure? := by
  rw [failure?, stake_hear, failure?]
  rcases w.stake.hear_cases heard with ⟨same, -⟩ | ⟨cause, ticket, reply, waits, -, same⟩
  · rw [same]
  · rw [same, waits]
    rfl

theorem begin_failure {packet : Packet} (fails : (w.begin packet).failure? = some cause) :
    limit < packet.length ∧ cause = .connection w.id (oversize packet) := by
  by_cases tooLarge : limit < packet.length
  · rw [begin, if_pos tooLarge] at fails
    cases fails
    exact ⟨tooLarge, rfl⟩
  · rw [begin, if_neg tooLarge] at fails
    cases fails

/-- Of what a writer does itself only a packet that is too long fails it. -/
theorem step?_failure {hub : Hub} {heard : List Hub.Event} (healthy : w.failure? = none)
    (hs : w.step? h = some (w', hub, heard)) (fails : w'.failure? = some cause) :
    ∃ packet, (w.phase = .receiving ∨ w.phase = .draining) ∧
      h.available w.id = .packet packet ∧ limit < packet.length ∧
      cause = .connection w.id (oversize packet) := by
  obtain ⟨id, capacity, buffer, stats, phase⟩ := w
  cases phase with
  | receiving =>
    simp only [step?] at hs
    split at hs
    · rename_i packet h₁ events₁ there took
      cases hs
      exact ⟨packet, .inl rfl, there, begin_failure fails⟩
    · cases hs
      cases fails
    · cases hs
  | draining =>
    simp only [step?] at hs
    split at hs
    · rename_i packet h₁ events₁ there took
      cases hs
      exact ⟨packet, .inr rfl, there, begin_failure fails⟩
    · cases hs
      cases fails
  | writing packet pieces =>
    simp only [step?, Option.map_eq_some_iff] at hs
    obtain ⟨next, placed, heq⟩ := hs
    cases heq
    rw [failure?, place?_stake placed] at fails
    cases fails
  | spilling rest packet pieces =>
    cases rest with
    | cons b rest => cases hs
    | nil =>
      cases hs
      cases fails
  | leaving result =>
    cases hs
    cases result with
    | ok stats => cases fails
    | error cause => cases healthy
  | failing cause => cases healthy
  | flushing rest isLast => cases hs
  | closing => cases hs
  | unregistering ticket cause => cases hs
  | ended result => cases hs

/-- A writer that gives up with an action has failed with it. -/
theorem Advance.failure {s : System} {action : System.Action} {events : List System.Event}
    (adv : w.Advance s.hub i action events w') (found : s.writers[i]? = some w)
    (healthy : w.failure? = none) (fails : w'.failure? = some cause) :
    s.Failure action (.writer i) w.id cause := by
  cases adv with
  | waits =>
    rw [failure?_hear, healthy] at fails
    cases fails
  | works hs =>
    rw [failure?_hear] at fails
    obtain ⟨packet, looks, next, tooLarge, rfl⟩ := step?_failure healthy hs fails
    exact .oversize found looks next tooLarge
  | answers hr =>
    rcases respond?_cases hr with ⟨errand, cause', asked, notLast, rfl, rfl⟩ | fine
    · cases fails
      exact .connection cause' found asked notLast
    · rw [failure?, fine] at fails
      cases fails

end SubscriberSession

namespace System

/-- Consumer `c`, on subscription `id`, fails with an error in the course of some actions. -/
inductive FailsIn (c : Consumer) (id : Nat) (cause : Error) : System → List Action → Prop
  | now {s : System} {action : Action} (actions : List Action)
      (failure : s.Failure action c id cause) : FailsIn c id cause s (action :: actions)
  | later {s s' : System} {action : Action} {events : List Event} {actions : List Action}
      (hs : s.step? action = some (s', events)) (later : FailsIn c id cause s' actions) :
    FailsIn c id cause s (action :: actions)

section

variable {config : HubConfig} {past more : List Event} {s s' : System} {actions : List Action}
  {cause : Error}

/-- Whoever has failed gives up its subscription. -/
theorem FailsIn.withdrawal {c : Consumer} {id : Nat} (fails : FailsIn c id cause s actions)
    (run : Run config past s) (hp : s.perform? actions = some (s', more)) :
    ∃ k stage, s'.stake? c = some k ∧ k.withdrawal? = some (cause, stage) := by
  induction fails generalizing past more with
  | now actions failure =>
    obtain ⟨mid, first, others, hs, hr, rfl⟩ := perform?_cons.mp hp
    obtain ⟨s₁, events, hs', failed⟩ := failure.step?
    cases hs.symm.trans hs'
    obtain ⟨k, stage, found, -, gaveUp⟩ := (run.step hs).perform?_withdrawal hr failed rfl
    exact ⟨k, stage, found, gaveUp⟩
  | later hs fails ih =>
    obtain ⟨mid, first, others, hs', hr, rfl⟩ := perform?_cons.mp hp
    cases hs.symm.trans hs'
    exact ih (run.step hs) hr

/-- A writer that has given up has failed. -/
theorem Run.failsIn (run : Run config past s) {i : Nat} {w w' : SubscriberSession}
    (found : s.writers[i]? = some w) (healthy : w.failure? = none)
    (hp : s.perform? actions = some (s', more)) (found' : s'.writers[i]? = some w')
    (fails : w'.failure? = some cause) : FailsIn (.writer i) w.id cause s actions := by
  induction actions generalizing s past more w with
  | nil =>
    obtain ⟨rfl, rfl⟩ := by simpa [System.perform?] using hp
    obtain rfl := Option.some.inj (found.symm.trans found')
    rw [healthy] at fails
    cases fails
  | cons action actions ih =>
    obtain ⟨mid, first, others, hs, hr, rfl⟩ := perform?_cons.mp hp
    have st := Step.of_step? hs
    obtain ⟨w₁, found₁, adv⟩ := st.writer_advance run.sound.provided run.apart found
    cases fails₁ : w₁.failure? with
    | none =>
      have later := ih (run.step hs) found₁ fails₁ hr
      rw [adv.id_eq] at later
      exact .later hs later
    | some cause₁ =>
      -- It has failed already, and a session fails once.
      have failure := adv.failure found healthy fails₁
      obtain ⟨k, stage, at_i, gaveUp⟩ := (FailsIn.now actions failure).withdrawal run hp
      rw [stake?, found', Option.map_some] at at_i
      cases at_i
      rw [SubscriberSession.failure?, gaveUp] at fails
      cases fails
      exact .now actions failure

/-- A writer gives up just when it has failed, for that reason. -/
theorem Run.failure?_iff (run : Run config past s) {i : Nat} {w w' : SubscriberSession}
    (found : s.writers[i]? = some w) (healthy : w.failure? = none)
    (hp : s.perform? actions = some (s', more)) (found' : s'.writers[i]? = some w') :
    w'.failure? = some cause ↔ FailsIn (.writer i) w.id cause s actions := by
  refine ⟨run.failsIn found healthy hp found', fun fails => ?_⟩
  obtain ⟨k, stage, at_i, gaveUp⟩ := fails.withdrawal run hp
  rw [stake?, found', Option.map_some] at at_i
  cases at_i
  rw [SubscriberSession.failure?, gaveUp]
  rfl

end

/-! ### What a connection gets -/

/-- What has come of writer `w`, number `i` on subscription `id`, when since its beginning in
`s₁` the actions `actions` have led to the events `past` and to the system `s`. -/
structure IsFaithful (s₁ : System) (actions : List Action) (past : List Event) (s : System)
    (i id : Nat) (w : SubscriberSession) : Prop where
  /-- The connection has got the first bytes of the frames of the packets taken, as far as
  these are not too long. -/
  inOrder : writtenBy i past <+:
    row ((takenBy id (hubEvents past)).takeWhile (·.length ≤ limit))
  /-- Nothing is held back while the writer waits. -/
  idle : w.phase = .receiving →
    writtenBy i past = row (takenBy id (hubEvents past)) ∧ IsFlushed i past
  /-- A connection that fails to shut down makes no difference. -/
  lastAnswer : w.errand? = some .shutDown → ∀ answer w', w.respond? answer = some w' →
    w'.phase = .leaving (.ok (.ofPackets (takenBy id (hubEvents past))))
  ok : ∀ stats, w.result? = some (.ok stats) → s.hub.available id = .ended ∧
    writtenBy i past = row (takenBy id (hubEvents past)) ∧ IsFlushed i past ∧
    stats = .ofPackets (takenBy id (hubEvents past))
  error : ∀ cause, w.result? = some (.error cause) → FailsIn (.writer i) id cause s₁ actions
  /-- Whatever fails, the writer ends with no other error, and not well. -/
  fails : ∀ cause, FailsIn (.writer i) id cause s₁ actions →
    (∃ io, cause = .connection id io) ∧ ∀ result, w.result? = some result → result = .error cause
  /-- The writer goes on until it is over, unless it waits for its connection, for a packet, or
  for its removal to be accepted. -/
  goesOn : w.step? s.hub ≠ none ∨ (∃ errand, w.errand? = some errand) ∨
    w.phase = .receiving ∧ s.hub.available id = .waiting ∨
    (∃ ticket cause, w.phase = .unregistering ticket cause ∧
      ⟨ticket, .unregister id⟩ ∈ s.hub.waiting) ∨
    ∃ result, w.result? = some result

variable {config : HubConfig} {before more : List Event} {s₀ s₁ s : System} {id capacity : Nat}
  {actions : List Action}

/-- Whatever the packets that come, the size of the buffer, the parts in which the connection
takes what it is given, and the place of a failure: a writer's connection gets the frames of
the packets in order, nothing is held back while the writer waits, and it ends as it should. -/
theorem Run.writer_isFaithful (run : Run config before s₀)
    (attached : s₀.step? (.startWriter id capacity) = some (s₁, []))
    (hp : s₁.perform? actions = some (s, more)) :
    ∃ w, s.writers[s₀.writers.length]? = some w ∧
      IsFaithful s₁ actions more s s₀.writers.length id w := by
  obtain ⟨w, found, rfl, c⟩ := run.conveys attached hp
  have run₁ := run.step attached
  have begun : s₁.writers[s₀.writers.length]? = some (.start w.id capacity) := by
    cases Step.of_step? attached
    exact List.getElem?_concat_length
  have fails {cause : Error} : w.failure? = some cause ↔
      FailsIn (.writer s₀.writers.length) w.id cause s₁ actions :=
    run₁.failure?_iff (w := .start w.id capacity) begun rfl hp found
  refine ⟨w, found, c.inOrder, c.idle, fun asked _ _ => c.lastAnswer asked, ?_, ?_, ?_, ?_⟩
  · exact fun stats ended => c.ok (SubscriberSession.phase_of_result? ended)
  · exact fun cause ended => fails.mp (SubscriberSession.failure?_of_result? ended)
  · intro cause failed
    have gaveUp := fails.mpr failed
    refine ⟨c.named cause gaveUp, fun result ended => ?_⟩
    have same := SubscriberSession.failure?_of_result? ended
    rw [gaveUp] at same
    cases result with
    | ok stats => cases same
    | error cause' =>
      cases same
      rfl
  · rcases w.proceeds s.hub with moves | asks | waits | ⟨ticket, cause, phase⟩ | finished
    · exact .inl moves
    · exact .inr (.inl asks)
    · exact .inr (.inr (.inl waits))
    · -- The call for its removal is among those that wait for room.
      have told := (run₁.perform? hp).withdrawing.told (.writer s₀.writers.length) w.stake
        (by rw [stake?, found]; rfl) (.connection w.id cause) (.unregistering ticket)
        (by rw [SubscriberSession.stake, phase])
      exact .inr (.inr (.inr (.inl ⟨ticket, cause, phase, told.2⟩)))
    · exact .inr (.inr (.inr (.inr finished)))

/-- Two packets are written in one go through a buffer that the first fills almost; the second
is sent in three parts, and the connection fails to shut down. -/
theorem writer_isFaithful_batch :
    ∃ (before more : List Event) (s₀ s₁ s : System) (w : SubscriberSession),
      Run ⟨4, 4, .block, 1000⟩ before s₀ ∧ s₀.step? (.startWriter 0 6) = some (s₁, []) ∧
      s.writers[0]? = some w ∧ w.result? = some (.ok ⟨2, 3⟩) ∧
      s.hub.available 0 = .ended ∧ takenBy 0 (hubEvents more) = [[1], [2, 3]] ∧
      outputs 0 more = [.wrote [1, 0], .wrote [0, 0, 1], .wrote [2, 0, 0, 0, 2, 3], .flushed,
        .flushed] ∧
      writtenBy 0 more = [1, 0, 0, 0, 1, 2, 0, 0, 0, 2, 3] := by
  obtain ⟨s₀, before, hb, noWriter, s₁, attached, check⟩ :
      ∃ s₀ before, (System.start ⟨4, 4, .block, 1000⟩).perform?
          [.hub (.call .register), .hub .enqueue, .hub .work] = some (s₀, before) ∧
        s₀.writers.length = 0 ∧
        ∃ s₁, s₀.step? (.startWriter 0 6) = some (s₁, []) ∧
        (s₁.perform?
          [.hub (.call (.packet [1])), .hub .enqueue, .hub .work, .hub .work, .hub .work,
            .hub (.call (.packet [2, 3])), .hub .enqueue, .hub .work, .hub .work, .hub .work,
            .write 0, .write 0, .write 0, .write 0, .write 0, .write 0,
            .connection 0 (.accepted 2), .connection 0 (.accepted 3), .write 0, .write 0, .write 0,
            .write 0, .write 0, .connection 0 (.accepted 6), .connection 0 .done,
            .hub (.call (.unregister 0)), .hub .enqueue, .hub .work, .write 0, .connection 0 .done,
            .connection 0 (.failed ⟨.brokenPipe, "broken pipe"⟩), .write 0]).any (fun result =>
          takenBy 0 (hubEvents result.2) = [[1], [2, 3]] ∧
          outputs 0 result.2 = [.wrote [1, 0], .wrote [0, 0, 1], .wrote [2, 0, 0, 0, 2, 3],
            .flushed, .flushed] ∧
          (result.1.writers[0]?.bind (·.result?)).any (·.isOk)) = true := by
    refine ⟨_, _, rfl, rfl, _, rfl, ?_⟩
    decide +kernel
  obtain ⟨⟨s, more⟩, hp, facts⟩ := (Option.any_eq_true _ _).mp check
  obtain ⟨taken, put, finished⟩ := of_decide_eq_true facts
  have run : Run ⟨4, 4, .block, 1000⟩ ([] ++ before) s₀ := Run.start.perform? hb
  obtain ⟨w, found, faithful⟩ := run.writer_isFaithful attached hp
  rw [noWriter] at found faithful
  obtain ⟨stats, ended⟩ : ∃ stats, w.result? = some (.ok stats) := by
    simp only [found, Option.bind_some] at finished
    obtain ⟨result, ended, isOk⟩ := (Option.any_eq_true _ _).mp finished
    cases result with
    | ok stats => exact ⟨stats, ended⟩
    | error cause => cases isOk
  obtain ⟨queueEnded, all, -, counted⟩ := faithful.ok stats ended
  rw [taken] at all counted
  rw [counted] at ended
  exact ⟨before, more, s₀, s₁, s, w, run, attached, found, ended, queueEnded, taken, put, all⟩

end System

end VideoRelay

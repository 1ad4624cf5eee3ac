/-
When a consumer fails.

* `System.isStuck` — neither the hub, nor a caller, nor a session can proceed by itself;
* `System.Failure` — a connection fails to write or to flush, or a tap's consumer fails;
* `Run.released_after_failure` — where nothing proceeds after that, the hub does not wait
  for the one that failed, and that one is over and removed unless the hub waits for
  another or has stopped.

Design notes: the queue is closed before its removal is asked for.  So the hub never
waits for room in it, and only a hub that waits for room elsewhere leaves the call for the
removal without room in its queue of commands.
-/
import VideoRelay.Proofs.Hub.Standstill
import VideoRelay.Proofs.System.Withdrawal

namespace VideoRelay

/-! ### A hub that waits -/

namespace Hub

/-- The hub waits for room in the queue of `id`, which is open and full. -/
def IsHeldUpBy (h : Hub) (id : Nat) : Prop :=
  ∃ b rest s, h.phase = .delivering b ∧ b.remaining = id :: rest ∧
    h.subscribers[id]? = some s ∧ h.WaitsFor s

theorem isHeldUpBy_of_delivering {h : Hub} (stuck : h.isStuck = true) {b : Broadcast} {id : Nat}
    {rest : List Nat} (delivering : h.phase = .delivering b) (front : b.remaining = id :: rest) :
    h.IsHeldUpBy id := by
  rw [isStuck, Bool.and_eq_true, Option.isNone_iff_eq_none] at stuck
  rcases work?_eq_none stuck.1 with
    stopped | ⟨ready, -⟩ | ⟨b', id', rest', s, delivering', front', found, waits, -⟩
  · cases delivering.symm.trans stopped
  · cases delivering.symm.trans ready
  · cases delivering.symm.trans delivering'
    cases front.symm.trans front'
    exact ⟨b, rest, s, delivering, front, found, waits⟩

/-- Work is left over only by a hub that waits for room. -/
theorem exists_isHeldUpBy {h : Hub} (stuck : h.isStuck = true) (live : h.phase ≠ .stopped)
    (busy : h.waiting ≠ [] ∨ h.commands ≠ []) : ∃ id, h.IsHeldUpBy id := by
  rw [isStuck, Bool.and_eq_true, Option.isNone_iff_eq_none, Option.isNone_iff_eq_none] at stuck
  rcases work?_eq_none stuck.1 with
    stopped | ⟨-, -, empty, -⟩ | ⟨b, id, rest, s, delivering, front, found, waits, -⟩
  · exact absurd stopped live
  · -- An empty queue of commands has room for whoever waits.
    have inLine := busy.resolve_right (not_not_intro empty)
    have full := (enqueue?_eq_none stuck.2).resolve_left inLine
    rw [empty] at full
    exact absurd full (Nat.not_le.mpr (commandRoom_pos _))
  · exact ⟨id, b, rest, s, delivering, front, found, waits⟩

/-- Nobody waits for room in a queue that has been closed. -/
theorem Run.not_isHeldUpBy {config : HubConfig} {history : List Event} {h : Hub}
    (run : Run config history h) {id : Nat} (closed : id ∈ closings history) :
    ¬ h.IsHeldUpBy id := by
  rintro ⟨b, rest, s, -, -, found, waits⟩
  exact (run.account_of_found found).isOpen.mp waits.isOpen closed

end Hub

namespace System

/-! ### Where nothing proceeds -/

/-- Whether neither the hub, nor a waiting caller, nor a session can proceed by itself. -/
def isStuck (s : System) : Bool :=
  s.hub.isStuck &&
    (List.range s.producers.length).all (fun i => (s.produce? i).isNone) &&
    (List.range s.writers.length).all (fun i => (s.write? i).isNone) &&
    (List.range s.taps.length).all (fun i => (s.tap? i).isNone)

theorem hub_isStuck {s : System} (stuck : s.isStuck = true) : s.hub.isStuck = true := by
  simp only [isStuck, Bool.and_eq_true] at stuck
  exact stuck.1.1.1

/-- The session of a consumer is over, with this error. -/
def EndedWith (s : System) (cause : Error) : Consumer → Prop
  | .writer i => ∃ w, s.writers[i]? = some w ∧ w.result? = some (.error cause)
  | .tap i => ∃ t, s.taps[i]? = some t ∧ t.result? = some (.error cause)

/-- Where nothing proceeds, a session that gives up its subscription waits for its removal
or is over. -/
theorem endedWith_of_isStuck {s : System} (stuck : s.isStuck = true) {c : Consumer} {k : Stake}
    {cause : Error} {stage : Withdrawal} (found : s.stake? c = some k)
    (fails : k.withdrawal? = some (cause, stage)) :
    (∃ ticket, stage = .unregistering ticket) ∨ stage = .withdrawn ∧ s.EndedWith cause c := by
  simp only [isStuck, Bool.and_eq_true, List.all_eq_true, List.mem_range,
    Option.isNone_iff_eq_none] at stuck
  obtain ⟨⟨-, writers⟩, taps⟩ := stuck
  cases c with
  | writer i =>
    obtain ⟨w, at_i, rfl⟩ := Option.map_eq_some_iff.mp found
    have quiet := writers i (List.getElem?_eq_some_iff.mp at_i).1
    simp only [write?, at_i, Option.map_eq_none_iff] at quiet
    exact (SubscriberSession.result?_of_stuck quiet fails).imp_right
      (And.imp_right fun ended => ⟨w, at_i, ended⟩)
  | tap i =>
    obtain ⟨t, at_i, rfl⟩ := Option.map_eq_some_iff.mp found
    have quiet := taps i (List.getElem?_eq_some_iff.mp at_i).1
    simp only [tap?, at_i, Option.map_eq_none_iff] at quiet
    exact (TapSession.result?_of_stuck quiet fails).imp_right
      (And.imp_right fun ended => ⟨t, at_i, ended⟩)

/-! ### Failures -/

/-- What is done makes the session of consumer `c`, on subscription `id`, fail with an
error. -/
inductive Failure (s : System) : Action → Consumer → Nat → Error → Prop
  /-- The connection fails to write or to flush. -/
  | connection {i : Nat} {w : SubscriberSession} {errand : Errand} (cause : IoError)
      (found : s.writers[i]? = some w) (asked : w.errand? = some errand)
      (notLast : errand ≠ .shutDown) :
    Failure s (.connection i (.failed cause)) (.writer i) w.id (.connection w.id cause)
  /-- No frame can hold the packet that is to be written. -/
  | oversize {i : Nat} {w : SubscriberSession} {packet : Packet}
      (found : s.writers[i]? = some w) (looks : w.phase = .receiving ∨ w.phase = .draining)
      (next : s.hub.available w.id = .packet packet) (tooLarge : Frame.limit < packet.length) :
    Failure s (.write i) (.writer i) w.id (.connection w.id (SubscriberSession.oversize packet))
  /-- The consumer fails to take a payload. -/
  | sink {i : Nat} {t : TapSession} {payload : Payload} (cause : Error)
      (found : s.taps[i]? = some t) (offered : t.offer? = some payload) :
    Failure s (.consumer i (some cause)) (.tap i) t.id cause

/-- It can be done, and the session gives up its subscription from then on. -/
theorem Failure.step? {s : System} {action : Action} {c : Consumer} {id : Nat} {cause : Error}
    (failure : s.Failure action c id cause) :
    ∃ s' events, s.step? action = some (s', events) ∧
      s'.stake? c = some ⟨id, true, some (cause, .failing)⟩ := by
  cases failure with
  | @connection i w errand cause found asked notLast =>
    have answered := SubscriberSession.respond?_failed asked notLast cause
    have hs : s.step? (.connection i (.failed cause)) =
        some ({ s with writers := s.writers.set i { w with phase := .failing cause } },
          connectionEvents i w.errand? (.failed cause)) := by
      simp only [System.step?, answerConnection?, found, answered, Option.map_some]
    refine ⟨_, _, hs, ?_⟩
    simp only [stake?, List.getElem?_set_self (List.getElem?_eq_some_iff.mp found).1]
    rfl
  | @oversize i w packet found looks next tooLarge =>
    obtain ⟨hub, taken⟩ := Hub.take?_of_available next
    have begun : w.begin packet = { w with phase := .failing (SubscriberSession.oversize packet) } :=
      if_pos tooLarge
    have moves : w.step? s.hub = some (w.begin packet, hub, [.took w.id packet]) := by
      rcases looks with phase | phase <;> simp [SubscriberSession.step?, phase, next, taken]
    let s₁ : System := { s with writers := s.writers.set i (w.begin packet) }
    have hs : s.step? (.write i) = some (s₁.absorb hub [.took w.id packet]) := by
      simp only [System.step?, write?, found, moves, Option.map_some]
      rfl
    refine ⟨(s₁.absorb hub [.took w.id packet]).1, _, hs, ?_⟩
    rw [stake?_absorb]
    simp only [s₁, stake?, begun, List.getElem?_set_self (List.getElem?_eq_some_iff.mp found).1]
    rfl
  | @sink i t payload cause found offered =>
    have answered := TapSession.respond?_failed offered cause
    have hs : s.step? (.consumer i (some cause)) =
        some ({ s with taps := s.taps.set i { t with phase := .failing cause } },
          [.offered i payload (some cause)]) := by
      simp only [System.step?, answerConsumer?, found, offered, answered]
    refine ⟨_, _, hs, ?_⟩
    simp only [stake?, List.getElem?_set_self (List.getElem?_eq_some_iff.mp found).1]
    rfl

section

variable {config : HubConfig} {history events more : List Event} {s s₁ s₂ : System}
  {action : Action} {actions : List Action}

/-- A consumer has failed, and then all goes on until nothing proceeds: the hub does not
wait for that consumer.  If it does not wait for room in the queue of another, the
session is over with its failure, and unless the hub has stopped nobody is registered under
its number. -/
theorem Run.released_after_failure {c : Consumer} {id : Nat} {cause : Error}
    (run : Run config history s) (failure : s.Failure action c id cause)
    (hs : s.step? action = some (s₁, events)) (hp : s₁.perform? actions = some (s₂, more))
    (stuck : s₂.isStuck = true) :
    (∀ b rest, s₂.hub.phase = .delivering b → b.remaining ≠ id :: rest) ∧
      ((∃ other, other ≠ id ∧ s₂.hub.IsHeldUpBy other) ∨
        s₂.EndedWith cause c ∧ (s₂.hub.phase = .stopped ∨ s₂.hub.isRegistered id = false)) := by
  obtain ⟨s', events', hs', failed⟩ := failure.step?
  cases hs.symm.trans hs'
  have run₁ := run.step hs
  have w := (run₁.perform? hp).withdrawing
  obtain ⟨k, stage, found, same, fails⟩ := run₁.perform?_withdrawal hp failed rfl
  obtain rfl : k.id = id := same
  have hubStuck := hub_isStuck stuck
  have holds := w.told c k found cause stage fails
  have ended := endedWith_of_isStuck stuck found fails
  have closed : k.id ∈ Hub.closings (hubEvents (history ++ events ++ more)) := by
    rcases ended with ⟨ticket, rfl⟩ | ⟨rfl, -⟩
    · exact holds.1
    · exact holds.1
  have free := w.run.not_isHeldUpBy closed
  -- Whoever holds the hub up is another.
  have another (live : s₂.hub.phase ≠ .stopped)
      (busy : s₂.hub.waiting ≠ [] ∨ s₂.hub.commands ≠ []) :
      ∃ other, other ≠ k.id ∧ s₂.hub.IsHeldUpBy other := by
    obtain ⟨other, heldUp⟩ := Hub.exists_isHeldUpBy hubStuck live busy
    refine ⟨other, ?_, heldUp⟩
    rintro rfl
    exact free heldUp
  refine ⟨fun b rest delivering front => ?_, ?_⟩
  · exact free (Hub.isHeldUpBy_of_delivering hubStuck delivering front)
  · rcases ended with ⟨ticket, rfl⟩ | ⟨rfl, finished⟩
    · have inLine := List.ne_nil_of_mem holds.2
      refine .inl (another (fun stopped => ?_) (.inl inLine))
      exact inLine (w.run.orderly.stopped stopped).2.1
    · by_cases stopped : s₂.hub.phase = .stopped
      · exact .inr ⟨finished, .inl stopped⟩
      · rcases holds.2 with stopped' | ⟨ticket, inQueue⟩ | gone
        · exact absurd stopped' stopped
        · exact .inl (another stopped (.inr (List.ne_nil_of_mem inQueue)))
        · exact .inr ⟨finished, .inr ((w.run.not_registered_iff (w.known c k found)).mpr gone)⟩

/-- The second packet fills the queue, the hub waits with the third, a command fills the
queue of commands, and a caller waits behind it, when the first packet cannot be written, or
when the tap's consumer fails to take its first payload.  All of it goes on, and the session is
over and removed. -/
theorem released_while_blocked :
    (∃ before s history cause s₁ events later s₂ more,
      (start ⟨1, 1, .block, 1000⟩).perform? before = some (s, history) ∧
      s.isStuck = true ∧ s.hub.IsHeldUpBy 0 ∧ s.hub.commands.length = 1 ∧
      s.hub.waiting = [⟨5, .stats⟩] ∧
      s.step? (.connection 0 (.failed cause)) = some (s₁, events) ∧
      s₁.perform? later = some (s₂, more) ∧ s₂.isStuck = true ∧
      s₂.EndedWith (.connection 0 cause) (.writer 0) ∧ s₂.hub.isRegistered 0 = false) ∧
    ∃ before s history s₁ events later s₂ more,
      (start ⟨1, 1, .block, 1000⟩).perform? before = some (s, history) ∧
      s.isStuck = true ∧ s.hub.IsHeldUpBy 0 ∧ s.hub.commands.length = 1 ∧
      s.hub.waiting = [⟨5, .stats⟩] ∧
      s.step? (.consumer 0 (some .sinkClosed)) = some (s₁, events) ∧
      s₁.perform? later = some (s₂, more) ∧ s₂.isStuck = true ∧
      s₂.EndedWith .sinkClosed (.tap 0) ∧ s₂.hub.isRegistered 0 = false := by
  -- Where the hub is ready again, it neither waits for another nor has stopped.
  have freed {before actions : List Action} {s s₁ s₂ : System} {history events more : List Event}
      {action : Action} {c : Consumer} {cause : Error}
      (hp : (start ⟨1, 1, .block, 1000⟩).perform? before = some (s, history))
      (failure : s.Failure action c 0 cause) (hs : s.step? action = some (s₁, events))
      (hl : s₁.perform? actions = some (s₂, more)) (stuck : s₂.isStuck = true)
      (ready : s₂.hub.phase = .ready) :
      s₂.EndedWith cause c ∧ s₂.hub.isRegistered 0 = false := by
    have run : Run ⟨1, 1, .block, 1000⟩ ([] ++ history) s := Run.start.perform? hp
    obtain ⟨-, ⟨other, -, b, rest, s', delivering, -⟩ | ⟨finished, stopped | gone⟩⟩ :=
      run.released_after_failure failure hs hl stuck
    · cases ready.symm.trans delivering
    · cases ready.symm.trans stopped
    · exact ⟨finished, gone⟩
  constructor
  · let cause : IoError := ⟨.brokenPipe, "broken pipe"⟩
    obtain ⟨before, s, history, hp, stuck, full, inLine, ⟨b, delivering, front⟩,
        ⟨w, errand, found, sub, asked, notLast⟩, s₁, events, later, s₂, more, hs, hl, stuck₂,
        ready⟩ :
        ∃ before s history, (start ⟨1, 1, .block, 1000⟩).perform? before = some (s, history) ∧
          s.isStuck = true ∧ s.hub.commands.length = 1 ∧ s.hub.waiting = [⟨5, .stats⟩] ∧
          (∃ b, s.hub.phase = .delivering b ∧ b.remaining = [0]) ∧
          (∃ w errand, s.writers[0]? = some w ∧ w.id = 0 ∧ w.errand? = some errand ∧
            errand ≠ .shutDown) ∧
          ∃ s₁ events later s₂ more,
            s.step? (.connection 0 (.failed cause)) = some (s₁, events) ∧
            s₁.perform? later = some (s₂, more) ∧ s₂.isStuck = true ∧ s₂.hub.phase = .ready :=
      ⟨[.hub (.call .register), .hub .enqueue, .hub .work, .startWriter 0 16,
        .hub (.call (.packet [1])), .hub .enqueue, .hub .work, .hub .work, .hub .work,
        .write 0, .write 0, .write 0, .write 0, .write 0,
        .hub (.call (.packet [2])), .hub .enqueue, .hub .work, .hub .work, .hub .work,
        .hub (.call (.packet [3])), .hub .enqueue, .hub .work,
        .hub (.call .stats), .hub .enqueue, .hub (.call .stats)],
        _, _, rfl, rfl, rfl, rfl, ⟨_, rfl, rfl⟩, ⟨_, _, rfl, rfl, rfl, nofun⟩, _, _,
        [.write 0, .hub .work, .hub .work, .hub .work, .hub .enqueue, .hub .work, .hub .enqueue,
          .hub .work, .write 0], _, _, rfl, rfl, rfl, rfl⟩
    have failure := Failure.connection cause found asked notLast
    rw [sub] at failure
    have heldUp := Hub.isHeldUpBy_of_delivering (hub_isStuck stuck) delivering front
    exact ⟨before, s, history, cause, s₁, events, later, s₂, more, hp, stuck, heldUp, full, inLine,
      hs, hl, stuck₂, freed hp failure hs hl stuck₂ ready⟩
  · let before : List Action :=
      [.hub (.call .register), .hub .enqueue, .hub .work, .startTap 0 ⟨2, 96⟩,
        .hub (.call (.packet [0, 0, 1, 0x65, 1])), .hub .enqueue, .hub .work, .hub .work,
        .hub .work, .tap 0,
        .hub (.call (.packet [2])), .hub .enqueue, .hub .work, .hub .work, .hub .work,
        .hub (.call (.packet [3])), .hub .enqueue, .hub .work,
        .hub (.call .stats), .hub .enqueue, .hub (.call .stats)]
    let later : List Action :=
      [.tap 0, .hub .work, .hub .work, .hub .work, .hub .enqueue, .hub .work, .hub .enqueue,
        .hub .work, .tap 0]
    have check : ((start ⟨1, 1, .block, 1000⟩).perform? before).any (fun r =>
        r.1.isStuck && r.1.hub.commands.length = 1 && r.1.hub.waiting = [⟨5, .stats⟩] &&
          r.1.hub.phase = .delivering ⟨[3], [0], [], []⟩ &&
          r.1.taps[0]?.any (fun t => t.id = 0 && t.offer?.isSome) &&
          (r.1.step? (.consumer 0 (some .sinkClosed))).any fun r₁ =>
            (r₁.1.perform? later).any fun r₂ => r₂.1.isStuck && r₂.1.hub.phase = .ready) =
        true := by
      decide +kernel
    simp only [Option.any_eq_true, Bool.and_eq_true, decide_eq_true_eq, Prod.exists,
      Option.isSome_iff_exists] at check
    obtain ⟨s, history, hp, ⟨⟨⟨⟨stuck, full⟩, inLine⟩, delivering⟩, t, found, sub, payload, offered⟩,
      s₁, events, hs, s₂, more, hl, stuck₂, ready⟩ := check
    have failure := Failure.sink .sinkClosed found offered
    rw [sub] at failure
    have heldUp := Hub.isHeldUpBy_of_delivering (hub_isStuck stuck) delivering rfl
    exact ⟨before, s, history, s₁, events, later, s₂, more, hp, stuck, heldUp, full, inLine,
      hs, hl, stuck₂, freed hp failure hs hl stuck₂ ready⟩

end

end System

end VideoRelay

/-
What a tap has to show for the packets that it has taken.

* `TapConfig.cuts`, `TapStats.ofPackets` — which packets can be fragmented, and how they count;
* `IsCut`, `payloadsOf_blocks` — the payloads of some packets, packet by packet;
* `TapSession.stepsLeft`, `ClosesFirst` — how far a tap still has to go, and how it gives up
  its subscription;
* `Accounted`, `Accounted.advance` — every packet and every payload is counted once;
* `Run.tap_isAccountable` — so what a tap's consumer is offered, and how the tap ends, is
  told by the packets taken and by the first payload that the consumer does not take.

Design notes: the position of a packet is the sum of two counters, of which each packet raises
one.  So the counters are compared with all packets taken, and the positions come out of that.
-/
import VideoRelay.Proofs.Hub.Ending
import VideoRelay.Proofs.System.Withdrawal
import VideoRelay.Proofs.Tap.Delivery

namespace VideoRelay

/-! ### Packets and payloads -/

/-- Whether the packet can be fragmented. -/
def TapConfig.cuts (config : TapConfig) (packet : Packet) : Bool :=
  (fragmentStream config.budget packet).isOk

/-- The statistics of a tap that has taken some packets, and whose consumer has taken so many
payloads. -/
def TapStats.ofPackets (config : TapConfig) (packets : List Packet) (accepted : Nat) : TapStats :=
  ⟨packets.countP config.cuts, accepted, packets.countP fun packet => !config.cuts packet⟩

theorem TapStats.ofPackets_concat (config : TapConfig) (packets : List Packet) (packet : Packet)
    (accepted : Nat) :
    ofPackets config (packets ++ [packet]) accepted =
      { ofPackets config packets accepted with
        frames := (ofPackets config packets accepted).frames + if config.cuts packet then 1 else 0
        skippedFrames := (ofPackets config packets accepted).skippedFrames +
          if config.cuts packet then 0 else 1 } := by
  rw [ofPackets, ofPackets, List.countP_append, List.countP_append, List.countP_singleton,
    List.countP_singleton]
  cases config.cuts packet <;> rfl

/-- Every packet is counted once. -/
theorem TapStats.frames_ofPackets (config : TapConfig) (packets : List Packet) (accepted : Nat) :
    (ofPackets config packets accepted).frames + (ofPackets config packets accepted).skippedFrames =
      packets.length := by
  rw [List.length_eq_countP_add_countP config.cuts]
  simp [ofPackets]

/-- The payloads of the packet at position `k`. -/
structure IsCut (config : TapConfig) (k : Nat) (packet : Packet) (block : List Payload) :
    Prop where
  fragmented : (∃ fragments, fragmentStream config.budget packet = .ok fragments) →
    payloads packet k config = .ok block
  malformed : (∃ cause, fragmentStream config.budget packet = .error cause) → block = []
  unitless : nalUnits packet = [] → block = []
  index : ∀ payload ∈ block, payload.frameIndex = k
  /-- The marker is on the last of them. -/
  marked : ∀ pre payload post, block = pre ++ payload :: post →
    (payload.marker = true ↔ post = [])

theorem isCut_carried (config : TapConfig) (k : Nat) (packet : Packet) :
    IsCut config k packet (config.carried k packet) := by
  obtain ⟨index, -, marked⟩ := ofPacket_carried config k packet
  refine ⟨?_, ?_, ?_, index, marked⟩
  · rintro ⟨fragments, cuts⟩
    rw [TapConfig.carried, payloads, cuts]
    rfl
  · rintro ⟨cause, cuts⟩
    rw [TapConfig.carried, payloads, cuts]
    rfl
  · intro none
    have nothing : fragmentStream config.budget packet = .ok [] := by
      rw [fragmentStream, none]
      rfl
    rw [TapConfig.carried, payloads, nothing]
    rfl

theorem payloadsOf_blocks (config : TapConfig) (packets : List Packet) :
    ∃ blocks : List (List Payload), config.payloadsOf packets = blocks.flatten ∧
      blocks.length = packets.length ∧
      ∀ (k : Nat) (packet : Packet) (block : List Payload),
        packets[k]? = some packet → blocks[k]? = some block → IsCut config k packet block := by
  refine ⟨packets.mapIdx config.carried, rfl, List.length_mapIdx, ?_⟩
  intro k packet block packetAt blockAt
  rw [TapConfig.block_eq packetAt blockAt]
  exact isCut_carried config k packet

/-! ### One action -/

open VideoRelay.System VideoRelay.Hub

/-- The subscriber's queue is closed, and then at once its removal is asked for. -/
def ClosesFirst (id : Nat) (history : List Hub.Event) : Prop :=
  ∃ pre ticket post, history = pre ++ .closed id :: .called ⟨ticket, .unregister id⟩ :: post

theorem ClosesFirst.append {id : Nat} {history events : List Hub.Event}
    (closes : ClosesFirst id history ∨ ClosesFirst id events) :
    ClosesFirst id (history ++ events) := by
  rcases closes with ⟨pre, ticket, post, rfl⟩ | ⟨pre, ticket, post, rfl⟩
  · exact ⟨pre, ticket, post ++ events, by simp⟩
  · exact ⟨history ++ pre, ticket, post, by simp⟩

theorem closesFirst_withdraw {h : Hub} {id : Nat} (known : id < h.nextId) :
    ClosesFirst id ((h.close id).2 ++ ((h.close id).1.call (.unregister id)).2) := by
  obtain ⟨s, found⟩ : ∃ s, h.subscribers[id]? = some s :=
    ⟨_, List.getElem?_eq_getElem known⟩
  have closes : (h.close id).2 = [.closed id] := by
    rw [Hub.close, found]
  obtain ⟨more, calls, -⟩ := Hub.call_outcome (Prod.eta ((h.close id).1.call _)).symm
  rw [closes, calls]
  exact ⟨[], _, more, rfl⟩

namespace TapSession

variable {config : TapConfig} {h hub : Hub} {i : Nat} {t t' : TapSession}
  {action : System.Action} {past events : List System.Event} {heard : List Hub.Event}

/-- How many steps of its own a tap may still make when it takes no more packets. -/
def stepsLeft (t : TapSession) : Nat :=
  match t.phase with
  | .receiving | .failing _ => 2
  | .sending _ => 3
  | .unregistering _ _ | .leaving _ => 1
  | .ended _ => 0

theorem phase_of_result? {result : Except Error TapStats} (came : t.result? = some result) :
    t.phase = .ended result := by
  rw [result?] at came
  split at came
  · rename_i ended
    cases came
    exact ended
  · cases came

/-- A tap goes on, or holds a payload out, or waits for a packet or for its removal, or is
over. -/
theorem proceeds (t : TapSession) (h : Hub) :
    t.step? h ≠ none ∨ (∃ payload, t.offer? = some payload) ∨
      t.phase = .receiving ∧ h.available t.id = .waiting ∨
      (∃ ticket cause, t.phase = .unregistering ticket cause) ∨
      ∃ result, t.result? = some result := by
  obtain ⟨id, config, stats, phase⟩ := t
  cases phase with
  | receiving =>
    cases there : h.available id with
    | packet packet =>
      obtain ⟨h', taken⟩ := Hub.take?_of_available there
      refine .inl ?_
      simp [step?, there, taken]
    | waiting => exact .inr (.inr (.inl ⟨rfl, rfl⟩))
    | ended =>
      refine .inl ?_
      simp [step?, there]
  | sending rest =>
    cases rest with
    | nil => exact .inl (Option.some_ne_none _)
    | cons payload rest => exact .inr (.inl ⟨payload, rfl⟩)
  | failing cause => exact .inl (Option.some_ne_none _)
  | unregistering ticket cause => exact .inr (.inr (.inr (.inl ⟨ticket, cause, rfl⟩)))
  | leaving result => exact .inl (Option.some_ne_none _)
  | ended result => exact .inr (.inr (.inr (.inr ⟨result, rfl⟩)))

theorem cutPacket_stats (t : TapSession) (packet : Packet) :
    (t.cutPacket packet).1.stats =
      { t.stats with
        frames := t.stats.frames + if t.config.cuts packet then 1 else 0
        skippedFrames := t.stats.skippedFrames + if t.config.cuts packet then 0 else 1 } := by
  rw [cutPacket, payloads, TapConfig.cuts]
  cases fragmentStream t.config.budget packet <;> rfl

theorem cutPacket_phase (t : TapSession) (packet : Packet) :
    (t.cutPacket packet).1.phase = .receiving ∨
      ∃ rest, (t.cutPacket packet).1.phase = .sending rest := by
  rw [cutPacket]
  split
  · exact .inl rfl
  · exact .inr ⟨_, rfl⟩

/-- A tap that is told of a call goes on, or is through with giving up. -/
theorem hear_phase (t : TapSession) (heard : List Hub.Event) :
    (t.hear heard).phase = t.phase ∨ ∃ ticket cause,
      t.phase = .unregistering ticket cause ∧ (t.hear heard).phase = .leaving (.error cause) := by
  refine hear_keeps (P := fun t' : TapSession => t'.phase = t.phase ∨ ∃ ticket cause,
    t.phase = .unregistering ticket cause ∧ t'.phase = .leaving (.error cause)) ?_ heard (.inl rfl)
  rintro ⟨id, config, stats, phase⟩ ticket reply so
  cases phase with
  | unregistering own cause =>
    by_cases mine : own = ticket
    · have told : answer ⟨id, config, stats, .unregistering own cause⟩ ticket =
          ⟨id, config, stats, .leaving (.error cause)⟩ := if_pos mine
      rw [told]
      rcases so with same | ⟨_, _, _, finished⟩
      · exact .inr ⟨own, cause, same.symm, rfl⟩
      · cases finished
    · have deaf : answer ⟨id, config, stats, .unregistering own cause⟩ ticket =
          ⟨id, config, stats, .unregistering own cause⟩ := if_neg mine
      rw [deaf]
      exact so
  | _ => exact so

theorem stepsLeft_hear (t : TapSession) (heard : List Hub.Event) :
    (t.hear heard).stepsLeft ≤ t.stepsLeft := by
  rcases t.hear_phase heard with same | ⟨ticket, cause, waits, finished⟩
  · rw [stepsLeft, same, stepsLeft]
  · rw [stepsLeft, finished, stepsLeft, waits]

theorem Work.stepsLeft (work : t.Work h t' heard) :
    t'.stepsLeft + 1 ≤ t.stepsLeft + 2 * (takenBy t.id heard).length := by
  cases work with
  | took receiving packet =>
    have one : (takenBy t.id [.took t.id packet]).length = 1 := by simp
    rw [one, TapSession.stepsLeft, TapSession.stepsLeft, receiving]
    rcases t.cutPacket_phase packet with waits | ⟨rest, sends⟩
    · rw [waits]
      decide
    · rw [sends]
  | finished receiving =>
    rw [TapSession.stepsLeft, TapSession.stepsLeft, receiving]
    exact Nat.le_refl _
  | readsOn sent =>
    rw [TapSession.stepsLeft, TapSession.stepsLeft, sent]
    exact Nat.le_refl _
  | withdraws failing =>
    rw [TapSession.stepsLeft, TapSession.stepsLeft, failing]
    exact Nat.le_add_right _ _
  | leaves leaving =>
    rw [TapSession.stepsLeft, TapSession.stepsLeft, leaving]
    exact Nat.le_refl _

/-- A step of its own and a packet: what a tap may still do is accounted for. -/
theorem Advance.stepsLeft (adv : t.Advance h i action events t') :
    [action].count (.tap i) + t'.stepsLeft ≤
      t.stepsLeft + 2 * (takenBy t.id (hubEvents events)).length := by
  cases adv with
  | waits other =>
    have told := t.stepsLeft_hear (hubEvents events)
    have foreign : action ≠ .tap i := by
      rintro rfl
      exact other rfl
    rw [List.count_singleton, if_neg (by simpa using foreign)]
    omega
  | @works t₁ hub heard skipped? hs =>
    have told := t₁.stepsLeft_hear heard
    have moved := (step?_work hs).stepsLeft
    rw [List.count_singleton, if_pos (by simp), hubEvents_tap]
    omega
  | @offers _ payload rest failure? sending hr =>
    rw [List.count_singleton, if_neg (by simp)]
    obtain ⟨id, config, stats, phase⟩ := t
    cases sending
    cases failure? with
    | none =>
      cases hr
      exact Nat.le_of_eq (Nat.zero_add 3)
    | some cause =>
      cases hr
      exact (Nat.le_succ 2).trans (Nat.le_add_right 3 _)

end TapSession

/-! ### All that is taken and offered -/

/-- A tap that began on subscription `id` has accounted for what the actions since then have led
to, the events `past`.  The tap may have ended well if `isOver`. -/
structure Accounted (config : TapConfig) (id i : Nat) (isOver : Prop)
    (actions : List System.Action) (past : List System.Event) (t : TapSession) : Prop
    extends Traced config id i past t where
  counted : t.stats = .ofPackets config (takenBy id (hubEvents past))
    ((offers i past).countP (·.2.isNone))
  steps : actions.count (.tap i) + t.stepsLeft ≤ 2 * (takenBy id (hubEvents past)).length + 2
  well : ∀ stats, t.phase = .leaving (.ok stats) ∨ t.phase = .ended (.ok stats) →
    stats = t.stats ∧ isOver
  withdraws : ∀ cause, t.failure? = some cause →
    t.phase = .failing cause ∨ ClosesFirst id (hubEvents past)

namespace Accounted

variable {config : TapConfig} {id i : Nat} {isOver isOver' : Prop} {h : Hub}
  {actions : List System.Action} {action : System.Action} {past events : List System.Event}
  {t t' : TapSession}

theorem start (config : TapConfig) (id i : Nat) (isOver : Prop) :
    Accounted config id i isOver [] [] (.start id config) where
  sameId := rfl
  sameConfig := rfl
  frames := rfl
  notDropped := List.not_mem_nil
  healthy _ := ⟨List.not_mem_nil, [], rfl, rfl⟩
  failed _ fails := by cases fails
  counted := rfl
  steps := Nat.le_refl 2
  well _ ended := by rcases ended with ended | ended <;> cases ended
  withdraws _ fails := by cases fails

/-- Each packet taken raises one counter of packets, and each payload accepted that of
payloads. -/
theorem count (a : Accounted config id i isOver actions past t)
    (adv : t.Advance h i action events t') :
    t'.stats = .ofPackets config (takenBy id (hubEvents (past ++ events)))
      ((offers i (past ++ events)).countP (·.2.isNone)) := by
  have own := a.sameId
  rw [hubEvents_append, takenBy_append, offers_append, List.countP_append]
  cases adv with
  | waits other foreign silent =>
    rw [own] at foreign
    rw [foreign.noneTaken, silent, List.append_nil, (t.sameWork_hear _).stats]
    exact a.counted
  | @works t₁ hub heard skipped? hs =>
    have silent : offers i (heard.map .hub ++ (skipped?.map System.Event.skipped).toList) = [] := by
      rw [offers_append, offers_map_hub]
      cases skipped? <;> rfl
    rw [silent, hubEvents_tap, (t₁.sameWork_hear heard).stats]
    rcases (TapSession.step?_work hs).cases with ⟨packet, -, took, rfl⟩ | ⟨same, noneTaken, -⟩
    · have taken : takenBy id heard = [packet] := by
        rw [took, own]
        simp
      rw [taken, t.cutPacket_stats, a.counted, a.sameConfig]
      exact (TapStats.ofPackets_concat ..).symm
    · rw [own] at noneTaken
      rw [noneTaken, List.append_nil, same.stats]
      exact a.counted
  | @offers _ payload rest failure? sending hr =>
    have offered : offers i [.offered i payload failure?] = [(payload, failure?)] := by
      simp [offers]
    show _ = TapStats.ofPackets config (takenBy id (hubEvents past) ++ []) _
    have counted := a.counted
    rw [offered, List.countP_singleton, List.append_nil]
    obtain ⟨id, config, stats, phase⟩ := t
    cases sending
    cases failure? with
    | none =>
      cases hr
      obtain rfl : stats = _ := counted
      rfl
    | some cause =>
      cases hr
      exact counted

/-- A tap ends well only when its queue has ended. -/
theorem wellAfter (a : Accounted config id i isOver actions past t)
    (adv : t.Advance h i action events t') (stays : isOver → isOver')
    (ends : h.available id = .ended → isOver') (stats : TapStats)
    (finished : t'.phase = .leaving (.ok stats) ∨ t'.phase = .ended (.ok stats)) :
    stats = t'.stats ∧ isOver' := by
  -- Whoever is told of a call has ended well before, if at all.
  have hear {t : TapSession} (heard : List Hub.Event)
      (finished : (t.hear heard).phase = .leaving (.ok stats) ∨
        (t.hear heard).phase = .ended (.ok stats)) :
      t.phase = .leaving (.ok stats) ∨ t.phase = .ended (.ok stats) := by
    rcases t.hear_phase heard with same | ⟨-, cause, -, fails⟩
    · rwa [same] at finished
    · rcases finished with finished | finished <;> cases fails.symm.trans finished
  have before (finished : t.phase = .leaving (.ok stats) ∨ t.phase = .ended (.ok stats)) :
      stats = t.stats ∧ isOver' := (a.well stats finished).imp_right stays
  cases adv with
  | waits =>
    rw [(t.sameWork_hear _).stats]
    exact before (hear _ finished)
  | @works t₁ hub heard skipped? hs =>
    replace finished := hear _ finished
    rw [(t₁.sameWork_hear heard).stats]
    cases TapSession.step?_work hs with
    | took receiving packet =>
      rcases t.cutPacket_phase packet with waits | ⟨rest, sends⟩
      · rcases finished with finished | finished <;> cases waits.symm.trans finished
      · rcases finished with finished | finished <;> cases sends.symm.trans finished
    | finished receiving ended =>
      rcases finished with finished | finished
      · cases finished
        exact ⟨rfl, ends (a.sameId ▸ ended)⟩
      · cases finished
    | readsOn => rcases finished with finished | finished <;> cases finished
    | withdraws => rcases finished with finished | finished <;> cases finished
    | leaves leaving =>
      rcases finished with finished | finished
      · cases finished
      · cases finished
        exact before (.inl leaving)
  | @offers _ payload rest failure? sending hr =>
    obtain ⟨id, config, stats, phase⟩ := t
    cases sending
    cases failure? <;>
    · cases hr
      rcases finished with finished | finished <;> cases finished

/-- A tap closes its queue before it asks for its removal. -/
theorem withdrawsAfter (a : Accounted config id i isOver actions past t) (known : id < h.nextId)
    (adv : t.Advance h i action events t') (cause : Error) (fails : t'.failure? = some cause) :
    t'.phase = .failing cause ∨ ClosesFirst id (hubEvents (past ++ events)) := by
  rw [hubEvents_append]
  have before (fails : t.failure? = some cause) (moved : t.phase ≠ .failing cause) :
      ClosesFirst id (hubEvents past ++ hubEvents events) :=
    .append (.inl ((a.withdraws cause fails).resolve_left moved))
  cases adv with
  | waits =>
    rw [(t.sameWork_hear _).failure?] at fails
    by_cases failing : t.phase = .failing cause
    · rcases t.hear_phase (hubEvents events) with same | ⟨ticket, cause', waits, -⟩
      · exact .inl (same.trans failing)
      · cases failing.symm.trans waits
    · exact .inr (before fails failing)
  | @works t₁ hub heard skipped? hs =>
    rw [(t₁.sameWork_hear heard).failure?] at fails
    cases TapSession.step?_work hs with
    | took receiving packet => cases (t.cutPacket_same packet).2.2.symm.trans fails
    | finished => cases fails
    | readsOn => cases fails
    | withdraws failing =>
      right
      rw [hubEvents_tap, a.sameId]
      exact .append (.inr (closesFirst_withdraw known))
    | @leaves result leaving =>
      right
      refine before ?_ (fun failing => by cases leaving.symm.trans failing)
      rw [TapSession.failure?, TapSession.stake, leaving]
      cases result with
      | ok stats => cases fails
      | error cause' => exact fails
  | @offers _ payload rest failure? sending hr =>
    obtain ⟨id, config, stats, phase⟩ := t
    cases sending
    cases failure? with
    | none =>
      cases hr
      cases fails
    | some cause' =>
      cases hr
      cases fails
      exact .inl rfl

theorem advance (a : Accounted config id i isOver actions past t) (known : id < h.nextId)
    (adv : t.Advance h i action events t') (stays : isOver → isOver')
    (ends : h.available id = .ended → isOver') :
    Accounted config id i isOver' (actions ++ [action]) (past ++ events) t' where
  toTraced := a.toTraced.advance adv
  counted := a.count adv
  steps := by
    have before := a.steps
    have accounted := adv.stepsLeft
    rw [a.sameId] at accounted
    rw [List.count_append, hubEvents_append, takenBy_append, List.length_append]
    omega
  well := a.wellAfter adv stays ends
  withdraws := a.withdrawsAfter known adv

end Accounted

namespace System

variable {hubConfig : HubConfig} {before more : List Event} {s₀ s₁ s : System} {id : Nat}
  {config : TapConfig} {actions : List Action}

/-- A tap in a run accounts for what it takes, from its beginning on. -/
theorem Run.accounted (run : Run hubConfig before s₀)
    (attached : s₀.step? (.startTap id config) = some (s₁, []))
    (hp : s₁.perform? actions = some (s, more)) :
    ∃ t, s.taps[s₀.taps.length]? = some t ∧
      Accounted config id s₀.taps.length (s.hub.available id = .ended) actions more t := by
  have begun : s₁.taps = s₀.taps ++ [.start id config] := by
    cases Step.of_step? attached
    rfl
  refine System.perform?_induction (.step run attached) (P := fun done past s =>
    ∃ t, s.taps[s₀.taps.length]? = some t ∧
      Accounted config id s₀.taps.length (s.hub.available id = .ended) done past t) ?_ ?_ hp
  · exact ⟨_, by rw [begun, List.getElem?_concat_length], .start config id _ _⟩
  · rintro done past s₂ action events s₃ run ⟨t, found, a⟩ hs
    have ready := run.sound.provided
    obtain ⟨t', found', adv⟩ := (Step.of_step? hs).tap_advance ready run.apart found
    have known := (ready.taps t (List.mem_of_getElem? found)).2
    rw [a.sameId] at known
    obtain ⟨does, s', hub, heard, -, does?, rfl, -⟩ := step?_acts ready hs
    have stays (ended : s₂.hub.available id = .ended) :
        (s'.absorb hub heard).1.hub.available id = .ended := by
      rw [absorb_fst]
      exact Hub.perform?_available_ended run.sound.run.orderly does? known ended
    exact ⟨t', found', a.advance known adv stays stays⟩

/-! ### What a tap's consumer gets -/

/-- What has come of tap `t`, number `i` on subscription `id`, when since its beginning the
actions `actions` have led to the events `past` and to the system `s`. -/
structure IsAccountable (config : TapConfig) (id i : Nat) (actions : List Action)
    (past : List Event) (s : System) (t : TapSession) : Prop where
  /-- The consumer is offered the payloads of the packets taken, in order. -/
  inOrder : (offers i past).map (·.1) <+: config.payloadsOf (takenBy id (hubEvents past))
  /-- They are in blocks, one for each packet, an empty one for a malformed packet. -/
  blocks : ∃ blocks : List (List Payload),
    config.payloadsOf (takenBy id (hubEvents past)) = blocks.flatten ∧
    blocks.length = (takenBy id (hubEvents past)).length ∧
    ∀ (k : Nat) (packet : Packet) (block : List Payload),
      (takenBy id (hubEvents past))[k]? = some packet → blocks[k]? = some block →
        IsCut config k packet block
  /-- Nothing is offered after a failure. -/
  cutOff : ∀ m payload cause, (offers i past)[m]? = some (payload, some cause) →
    (offers i past).length = m + 1
  /-- Nothing is left to be offered while the tap waits for a packet. -/
  waits : t.phase = .receiving →
    offers i past = (config.payloadsOf (takenBy id (hubEvents past))).map (·, none)
  ok : ∀ stats, t.result? = some (.ok stats) → s.hub.available id = .ended ∧
    offers i past = (config.payloadsOf (takenBy id (hubEvents past))).map (·, none) ∧
    stats = .ofPackets config (takenBy id (hubEvents past)) (offers i past).length ∧
    stats.frames + stats.skippedFrames = (takenBy id (hubEvents past)).length
  /-- The error is that of the consumer. -/
  error_iff : ∀ result, t.result? = some result → ∀ cause,
    result = .error cause ↔ ∃ payload, (payload, some cause) ∈ offers i past
  /-- A tap that gives up closes its queue before it asks for its removal. -/
  withdraws : ∀ payload cause, (payload, some cause) ∈ offers i past →
    t.phase = .failing cause ∨ ClosesFirst id (hubEvents past)
  /-- The tap goes on until it is over, unless it waits for its consumer, for a packet, or for
  its removal to be accepted. -/
  goesOn : t.step? s.hub ≠ none ∨ (∃ payload, t.offer? = some payload) ∨
    t.phase = .receiving ∧ s.hub.available id = .waiting ∨
    (∃ ticket cause, t.phase = .unregistering ticket cause ∧
      ⟨ticket, .unregister id⟩ ∈ s.hub.waiting) ∨
    ∃ result, t.result? = some result
  /-- It does not go on for ever. -/
  steps : actions.count (.tap i) ≤ 2 * (takenBy id (hubEvents past)).length + 2

/-- Whatever packets a tap takes, however it cuts them, and whichever payload its consumer
fails to take, if any: the consumer is offered the payloads of these packets up to that one,
each with the position of its packet, and the tap ends with the account of it or with that
failure. -/
theorem Run.tap_isAccountable (run : Run hubConfig before s₀)
    (attached : s₀.step? (.startTap id config) = some (s₁, []))
    (hp : s₁.perform? actions = some (s, more)) :
    ∃ t, s.taps[s₀.taps.length]? = some t ∧
      IsAccountable config id s₀.taps.length actions more s t := by
  obtain ⟨t, found, a⟩ := run.accounted attached hp
  have run' : Run hubConfig (before ++ [] ++ more) s := (run.step attached).perform? hp
  refine ⟨t, found, a.offers_isPrefix, payloadsOf_blocks config _, ?_, ?_, ?_, ?_, ?_, ?_, ?_⟩
  · exact fun m payload cause fails => (a.length_offers fails).2
  · intro receiving
    refine a.offers_eq ?_ ?_
    · rw [TapSession.failure?, TapSession.stake, receiving]
      rfl
    · rw [TapSession.pending, receiving]
  · intro stats came
    have finished := TapSession.phase_of_result? came
    obtain ⟨rfl, ended⟩ := a.well stats (.inr finished)
    have all : offers s₀.taps.length more =
        (config.payloadsOf (takenBy id (hubEvents more))).map (·, none) := by
      refine a.offers_eq ?_ ?_
      · rw [TapSession.failure?, TapSession.stake, finished]
        rfl
      · rw [TapSession.pending, finished]
    have counted : t.stats = .ofPackets config (takenBy id (hubEvents more))
        (offers s₀.taps.length more).length := by
      rw [a.counted]
      refine congrArg _ (List.countP_eq_length.mpr fun offer mem => ?_)
      rw [all] at mem
      obtain ⟨payload, -, rfl⟩ := List.mem_map.mp mem
      rfl
    refine ⟨ended, all, counted, ?_⟩
    rw [counted]
    exact TapStats.frames_ofPackets ..
  · intro result came cause
    rw [← a.failure?_iff, TapSession.failure?, TapSession.stake, TapSession.phase_of_result? came]
    cases result <;> simp
  · exact fun payload cause mem => a.withdraws cause (a.failure?_iff.mpr ⟨payload, mem⟩)
  · rcases t.proceeds s.hub with moves | offers | ⟨receiving, waits⟩ | ⟨ticket, cause, phase⟩ | finished
    · exact .inl moves
    · exact .inr (.inl offers)
    · exact .inr (.inr (.inl ⟨receiving, a.sameId ▸ waits⟩))
    · -- The call for its removal is among those that wait for room.
      have told := run'.withdrawing.told (.tap s₀.taps.length) t.stake
        (by rw [stake?, found]; rfl) cause (.unregistering ticket)
        (by rw [TapSession.stake, phase])
      exact .inr (.inr (.inr (.inl ⟨ticket, cause, phase, a.sameId ▸ told.2⟩)))
    · exact .inr (.inr (.inr (.inr finished)))
  · exact (Nat.le_add_right _ _).trans a.steps

/-- The first packet is malformed, and of the second the consumer takes one payload, which has
position one; at the next it fails. -/
theorem tap_isAccountable_failing :
    ∃ (before more : List Event) (s₀ s₁ s : System) (t : TapSession),
      Run ⟨4, 4, .block, 1000⟩ before s₀ ∧ s₀.step? (.startTap 0 ⟨2, 96⟩) = some (s₁, []) ∧
      s.taps[0]? = some t ∧ t.result? = some (.error .sinkClosed) ∧
      takenBy 0 (hubEvents more) = [[0, 0, 1, 0, 0, 1, 0x41], [0, 0, 0, 1, 0x65, 1, 2, 3, 4, 5]] ∧
      offers 0 more = [(⟨[0x7C, 0x85, 1, 2], 1, false, 96⟩, none),
        (⟨[0x7C, 0x05, 3, 4], 1, false, 96⟩, some .sinkClosed)] ∧
      ClosesFirst 0 (hubEvents more) := by
  obtain ⟨s₀, before, hb, noTap, s₁, attached, check⟩ :
      ∃ s₀ before, (System.start ⟨4, 4, .block, 1000⟩).perform?
          [.hub (.call .register), .hub .enqueue, .hub .work] = some (s₀, before) ∧
        s₀.taps.length = 0 ∧
        ∃ s₁, s₀.step? (.startTap 0 ⟨2, 96⟩) = some (s₁, []) ∧
        (s₁.perform?
          [.hub (.call (.packet [0, 0, 1, 0, 0, 1, 0x41])), .hub .enqueue, .hub .work, .hub .work,
            .hub .work, .tap 0, .hub (.call (.packet [0, 0, 0, 1, 0x65, 1, 2, 3, 4, 5])),
            .hub .enqueue, .hub .work, .hub .work, .hub .work, .tap 0, .consumer 0 none,
            .consumer 0 (some .sinkClosed), .tap 0, .hub .enqueue, .tap 0]).any (fun result =>
          takenBy 0 (hubEvents result.2) =
            [[0, 0, 1, 0, 0, 1, 0x41], [0, 0, 0, 1, 0x65, 1, 2, 3, 4, 5]] ∧
          offers 0 result.2 = [(⟨[0x7C, 0x85, 1, 2], 1, false, 96⟩, none),
            (⟨[0x7C, 0x05, 3, 4], 1, false, 96⟩, some .sinkClosed)] ∧
          (result.1.taps[0]?.bind (·.result?)).isSome) = true := by
    refine ⟨_, _, rfl, rfl, _, rfl, ?_⟩
    decide +kernel
  obtain ⟨⟨s, more⟩, hp, facts⟩ := (Option.any_eq_true _ _).mp check
  obtain ⟨taken, offered, finished⟩ := of_decide_eq_true facts
  have run : Run ⟨4, 4, .block, 1000⟩ ([] ++ before) s₀ := Run.start.perform? hb
  obtain ⟨t, found, accountable⟩ := run.tap_isAccountable attached hp
  rw [noTap] at found accountable
  have failed : (⟨[0x7C, 0x05, 3, 4], 1, false, 96⟩, some .sinkClosed) ∈ offers 0 more := by
    rw [offered]
    decide
  obtain ⟨result, came⟩ : ∃ result, t.result? = some result := by
    rw [found] at finished
    exact Option.isSome_iff_exists.mp finished
  obtain rfl := (accountable.error_iff result came .sinkClosed).mpr ⟨_, failed⟩
  have closes := (accountable.withdraws _ _ failed).resolve_left fun failing => by
    cases failing.symm.trans (TapSession.phase_of_result? came)
  exact ⟨before, more, s₀, s₁, s, t, run, attached, found, came, taken, offered, closes⟩

end System

end VideoRelay

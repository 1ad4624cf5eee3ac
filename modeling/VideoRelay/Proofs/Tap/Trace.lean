/-
What a tap has taken, and what it has offered.

* `TapConfig.payloadsOf` — the payloads of some packets, each with the position of its
  packet;
* `offers` — what a tap has held out to its consumer, with the answers;
* `TapSession.Advance`, `Step.tap_advance` — what one action in a system is to a tap;
* `TapSession.Work`, `TapSession.step?_work` — what its own step is;
* `Traced`, `Run.traced` — the payloads offered are those of the packets taken, from the
  first one on, and only what the tap holds is still to be offered; a failure is the last
  that is offered.

Design notes: a tap is traced from its beginning on, so positions count the packets taken
since then, the malformed ones with the others.
-/
import VideoRelay.Proofs.System.Owners

namespace VideoRelay

/-! ### Payloads -/

namespace TapConfig

/-- The payloads of the packet at position `k`; a malformed packet has none. -/
def carried (config : TapConfig) (k : Nat) (packet : Packet) : List Payload :=
  match payloads packet k config with
  | .ok payloads => payloads
  | .error _ => []

def payloadsOf (config : TapConfig) (packets : List Packet) : List Payload :=
  (packets.mapIdx config.carried).flatten

/-- The blocks of payloads stand where their packets do. -/
theorem block_eq {config : TapConfig} {packets : List Packet} {k : Nat} {packet : Packet}
    {block : List Payload} (packetAt : packets[k]? = some packet)
    (blockAt : (packets.mapIdx config.carried)[k]? = some block) :
    block = config.carried k packet := by
  rw [List.getElem?_mapIdx, packetAt] at blockAt
  exact (Option.some.inj blockAt).symm

theorem payloadsOf_concat (config : TapConfig) (packets : List Packet) (packet : Packet) :
    config.payloadsOf (packets ++ [packet]) =
      config.payloadsOf packets ++ config.carried packets.length packet := by
  rw [payloadsOf, List.mapIdx_concat, List.flatten_append, List.flatten_singleton]
  rfl

end TapConfig

namespace System

/-- A payload that tap `i` held out, and how its consumer failed, if it did. -/
@[simp] def Event.offered? (i : Nat) : Event → Option (Payload × Option Error)
  | .offered j payload failure? => if j = i then some (payload, failure?) else none
  | _ => none

/-- What tap `i` held out to its consumer. -/
def offers (i : Nat) (history : List Event) : List (Payload × Option Error) :=
  history.filterMap (Event.offered? i)

theorem offers_append (i : Nat) (history events : List Event) :
    offers i (history ++ events) = offers i history ++ offers i events := List.filterMap_append

theorem offers_map_hub (i : Nat) (events : List Hub.Event) : offers i (events.map .hub) = [] := by
  rw [offers, List.filterMap_map, List.filterMap_eq_nil_iff]
  intro e mem
  rfl

end System

/-! ### Steps of a tap -/

open VideoRelay.System VideoRelay.Hub

/-- The payloads that the tap has still to offer. -/
def TapSession.pending (t : TapSession) : List Payload :=
  match t.phase with
  | .sending rest => rest
  | _ => []

/-- Why the tap gives up, if it does. -/
def TapSession.failure? (t : TapSession) : Option Error := t.stake.withdrawal?.map (·.1)

/-- What one action in a system with hub `h` is to tap `i`, which is `t` before it. -/
inductive TapSession.Advance (h : Hub) (i : Nat) (t : TapSession) :
    System.Action → List System.Event → TapSession → Prop
  | waits {action : System.Action} {events : List System.Event}
      (other : action.consumer? ≠ some (.tap i)) (foreign : Foreign t.id (hubEvents events))
      (silent : offers i events = []) : Advance h i t action events (t.hear (hubEvents events))
  | works {t' : TapSession} {hub : Hub} {heard : List Hub.Event} {skipped? : Option SkippedFrame}
      (hs : t.step? h = some (t', hub, heard, skipped?)) :
    Advance h i t (.tap i) (heard.map .hub ++ (skipped?.map .skipped).toList) (t'.hear heard)
  | offers {t' : TapSession} {payload : Payload} {rest : List Payload} {failure? : Option Error}
      (sending : t.phase = .sending (payload :: rest)) (hr : t.respond? failure? = some t') :
    Advance h i t (.consumer i failure?) [.offered i payload failure?] t'

theorem TapSession.sending_of_offer? {t : TapSession} {payload : Payload}
    (offered : t.offer? = some payload) : ∃ rest, t.phase = .sending (payload :: rest) := by
  rw [offer?.eq_def] at offered
  split at offered
  · rename_i payload' rest sending
    cases offered
    exact ⟨rest, sending⟩
  · cases offered

namespace System

theorem getElem?_taps_absorb (s : System) (hub : Hub) (heard : List Hub.Event) (i : Nat) :
    (s.absorb hub heard).1.taps[i]? = s.taps[i]?.map (·.hear heard) := by
  rw [absorb_fst, List.getElem?_map]

/-- A tap goes on by its own steps, and is told of calls that return. -/
theorem Step.tap_advance {s s' : System} {action : Action} {events : List Event}
    (st : Step s action events s') (ready : s.Provided) (apart : s.Apart) {i : Nat}
    {t : TapSession} (found : s.taps[i]? = some t) :
    ∃ t', s'.taps[i]? = some t' ∧ t.Advance s.hub i action events t' := by
  have owner : s.idOf? (.tap i) = some t.id := by
    rw [idOf?_tap, found]
    rfl
  have foreign := st.foreign ready apart owner
  -- Whoever else acts, the tap is told, and offers nothing.
  have waits (other : action.consumer? ≠ some (.tap i)) (silent : offers i events = [])
      (after : s'.taps[i]? = some (t.hear (hubEvents events))) :
      ∃ t', s'.taps[i]? = some t' ∧ t.Advance s.hub i action events t' :=
    ⟨_, after, .waits other (foreign other) silent⟩
  have nobody : none ≠ some (Consumer.tap i) := (Option.some_ne_none _).symm
  have another (j : Nat) : some (Consumer.writer j) ≠ some (.tap i) := by simp
  cases st with
  | hub permitted hs =>
    refine waits nobody (offers_map_hub i _) ?_
    rw [getElem?_taps_absorb, hubEvents_map_hub]
    exact congrArg _ found
  | startProducer => exact waits nobody rfl found
  | arrive => exact waits nobody rfl found
  | @produce j p p' hub heard atProducer hs =>
    refine waits nobody ?_ ?_
    · rw [offers_append, offers_map_hub, List.append_nil, offers, List.filterMap_filterMap,
        List.filterMap_eq_nil_iff]
      intro e mem
      rw [submission?.eq_def]
      split <;> rfl
    · rw [getElem?_taps_absorb, hubEvents_produce]
      exact congrArg _ found
  | abort =>
    refine waits nobody (offers_map_hub i _) ?_
    rw [getElem?_taps_absorb, hubEvents_map_hub]
    exact congrArg _ found
  | startWriter => exact waits nobody rfl found
  | write =>
    refine waits (another _) (offers_map_hub i _) ?_
    rw [getElem?_taps_absorb, hubEvents_map_hub]
    exact congrArg _ found
  | @connection j w w' answer atWriter hr =>
    refine waits (another _) ?_ ?_
    · rw [connectionEvents.eq_def]
      split <;> rfl
    · rw [hubEvents_connectionEvents]
      exact found
  | startTap =>
    refine waits nobody rfl ?_
    exact (List.getElem?_append_left (List.getElem?_eq_some_iff.mp found).1).trans found
  | @tap j t₁ t' hub heard skipped? atTap hs =>
    by_cases own : j = i
    · subst own
      obtain rfl := Option.some.inj (found.symm.trans atTap)
      refine ⟨t'.hear heard, ?_, .works hs⟩
      rw [getElem?_taps_absorb, List.getElem?_set_self (List.getElem?_eq_some_iff.mp found).1]
      rfl
    · refine waits (fun same => own (by cases same; rfl)) ?_ ?_
      · rw [offers_append, offers_map_hub]
        cases skipped? <;> rfl
      · rw [getElem?_taps_absorb, List.getElem?_set_ne own, hubEvents_tap]
        exact congrArg _ found
  | @consumer j t₁ t' payload failure? atTap offered hr =>
    by_cases own : j = i
    · subst own
      obtain rfl := Option.some.inj (found.symm.trans atTap)
      obtain ⟨rest, sending⟩ := TapSession.sending_of_offer? offered
      exact ⟨t', List.getElem?_set_self (List.getElem?_eq_some_iff.mp found).1,
        .offers sending hr⟩
    · refine waits (fun same => own (by cases same; rfl)) ?_ ?_
      · simp [offers, own]
      · exact (List.getElem?_set_ne own).trans found

end System

/-! ### What a tap does by itself -/

/-- Nothing of what a tap has done and has to do differs. -/
structure TapSession.SameWork (t t' : TapSession) : Prop where
  id : t'.id = t.id
  config : t'.config = t.config
  stats : t'.stats = t.stats
  pending : t'.pending = t.pending
  failure? : t'.failure? = t.failure?

namespace TapSession

/-- Of a tap that is told of a call only its stage of giving up can change. -/
theorem sameWork_hear (t : TapSession) (heard : List Hub.Event) : t.SameWork (t.hear heard) := by
  refine hear_keeps (P := t.SameWork) ?_ heard ⟨rfl, rfl, rfl, rfl, rfl⟩
  rintro ⟨id, config, stats, phase⟩ ticket reply same
  cases phase with
  | unregistering own cause =>
    by_cases mine : own = ticket
    · have told : TapSession.answer ⟨id, config, stats, .unregistering own cause⟩ ticket =
          ⟨id, config, stats, .leaving (.error cause)⟩ := if_pos mine
      rw [told]
      exact ⟨same.id, same.config, same.stats, same.pending, same.failure?⟩
    · have deaf : TapSession.answer ⟨id, config, stats, .unregistering own cause⟩ ticket =
          ⟨id, config, stats, .unregistering own cause⟩ := if_neg mine
      rw [deaf]
      exact same
  | _ => exact same

theorem cutPacket_pending (t : TapSession) (packet : Packet) :
    (t.cutPacket packet).1.pending = t.config.carried t.frameIndex packet := by
  rw [cutPacket, TapConfig.carried]
  cases payloads packet t.frameIndex t.config <;> rfl

theorem cutPacket_frameIndex (t : TapSession) (packet : Packet) :
    (t.cutPacket packet).1.frameIndex = t.frameIndex + 1 := by
  rw [cutPacket]
  split
  · rfl
  · exact Nat.add_right_comm _ _ _

theorem cutPacket_same (t : TapSession) (packet : Packet) :
    (t.cutPacket packet).1.id = t.id ∧ (t.cutPacket packet).1.config = t.config ∧
      (t.cutPacket packet).1.failure? = none := by
  rw [cutPacket]
  split <;> exact ⟨rfl, rfl, rfl⟩

end TapSession

/-- What a tap's own step is. -/
inductive TapSession.Work (h : Hub) (t : TapSession) : TapSession → List Hub.Event → Prop
  | took (receiving : t.phase = .receiving) (packet : Packet) :
    Work h t (t.cutPacket packet).1 [.took t.id packet]
  | finished (receiving : t.phase = .receiving) (ended : h.available t.id = .ended) :
    Work h t { t with phase := .leaving (.ok t.stats) } []
  | readsOn (sent : t.phase = .sending []) : Work h t { t with phase := .receiving } []
  | withdraws {cause : Error} (failing : t.phase = .failing cause) :
    Work h t { t with phase := .unregistering (h.close t.id).1.nextTicket cause }
      ((h.close t.id).2 ++ ((h.close t.id).1.call (.unregister t.id)).2)
  | leaves {result : Except Error TapStats} (leaving : t.phase = .leaving result) :
    Work h t { t with phase := .ended result } []

theorem TapSession.step?_work {t t' : TapSession} {h hub : Hub} {heard : List Hub.Event}
    {skipped? : Option SkippedFrame} (hs : t.step? h = some (t', hub, heard, skipped?)) :
    t.Work h t' heard := by
  obtain ⟨id, config, stats, phase⟩ := t
  cases phase with
  | receiving =>
    simp only [step?] at hs
    split at hs
    · rename_i packet h₁ events there taken
      obtain ⟨h₂, same⟩ := Hub.take?_of_available there
      cases taken.symm.trans same
      cases hs
      exact .took rfl packet
    · rename_i ended
      cases hs
      exact .finished rfl ended
    · cases hs
  | sending rest =>
    cases rest with
    | nil =>
      cases hs
      exact .readsOn rfl
    | cons payload rest => cases hs
  | failing cause =>
    cases hs
    exact .withdraws rfl
  | leaving result =>
    cases hs
    exact .leaves rfl
  | unregistering ticket cause => cases hs
  | ended result => cases hs

/-- A tap takes a packet and cuts it, or its own step is no matter of packets. -/
theorem TapSession.Work.cases {t t' : TapSession} {h : Hub} {heard : List Hub.Event}
    (work : t.Work h t' heard) :
    (∃ packet, t.phase = .receiving ∧ heard = [.took t.id packet] ∧
        t' = (t.cutPacket packet).1) ∨
      t.SameWork t' ∧ takenBy t.id heard = [] ∧ t.id ∉ drops heard ∧
        (t.failure? = none → t.id ∉ closings heard) := by
  have nothing {t' : TapSession} (same : t.SameWork t') :
      t.SameWork t' ∧ takenBy t.id [] = [] ∧ t.id ∉ drops [] ∧
        (t.failure? = none → t.id ∉ closings []) :=
    ⟨same, rfl, List.not_mem_nil, fun _ => List.not_mem_nil⟩
  obtain ⟨id, config, stats, phase⟩ := t
  cases work with
  | took receiving packet => exact .inl ⟨packet, receiving, rfl, rfl⟩
  | finished receiving =>
    cases receiving
    exact .inr (nothing ⟨rfl, rfl, rfl, rfl, rfl⟩)
  | readsOn sent =>
    cases sent
    exact .inr (nothing ⟨rfl, rfl, rfl, rfl, rfl⟩)
  | @withdraws cause failing =>
    cases failing
    have closing : takenBy id (h.close id).2 = [] ∧ id ∉ drops (h.close id).2 := by
      rw [Hub.close]
      split <;> exact ⟨rfl, List.not_mem_nil⟩
    have q := (call_callerStep (h.close id).1 (.unregister id)).quiet
    refine .inr ⟨⟨rfl, rfl, rfl, rfl, rfl⟩, ?_, ?_, fun fine => by cases fine⟩
    · rw [takenBy_append, closing.1, q.takenBy]
      rfl
    · rw [drops_append, q.drops, List.append_nil]
      exact closing.2
  | @leaves result leaving =>
    cases leaving
    refine .inr (nothing ⟨rfl, rfl, rfl, rfl, ?_⟩)
    cases result <;> rfl

/-! ### What a tap has offered -/

/-- A tap that began on subscription `id`, when nothing had been taken from it, has worked so
far as the events `past` since then tell. -/
structure Traced (config : TapConfig) (id i : Nat) (past : List System.Event) (t : TapSession) :
    Prop where
  sameId : t.id = id
  sameConfig : t.config = config
  /-- Every packet has got a position. -/
  frames : t.frameIndex = (takenBy id (hubEvents past)).length
  notDropped : id ∉ drops (hubEvents past)
  healthy : t.failure? = none → id ∉ closings (hubEvents past) ∧ ∃ accepted,
    offers i past = accepted.map (·, none) ∧
      accepted ++ t.pending = config.payloadsOf (takenBy id (hubEvents past))
  /-- What failed was the last to be offered. -/
  failed : ∀ cause, t.failure? = some cause → ∃ accepted payload rest,
    offers i past = accepted.map (·, none) ++ [(payload, some cause)] ∧
      accepted ++ payload :: rest = config.payloadsOf (takenBy id (hubEvents past))

namespace Traced

variable {config : TapConfig} {id i : Nat} {past events : List System.Event} {t t' : TapSession}

/-- A step with which nothing is taken and nothing offered. -/
theorem idle (traced : Traced config id i past t) (same : t.SameWork t')
    (noneTaken : takenBy id (hubEvents events) = []) (notDropped : id ∉ drops (hubEvents events))
    (notClosed : t.failure? = none → id ∉ closings (hubEvents events))
    (silent : offers i events = []) : Traced config id i (past ++ events) t' := by
  have taken : takenBy id (hubEvents (past ++ events)) = takenBy id (hubEvents past) := by
    rw [hubEvents_append, takenBy_append, noneTaken, List.append_nil]
  have offered : offers i (past ++ events) = offers i past := by
    rw [offers_append, silent, List.append_nil]
  have index : t'.frameIndex = t.frameIndex := by
    rw [TapSession.frameIndex, same.stats, TapSession.frameIndex]
  refine ⟨same.id.trans traced.sameId, same.config.trans traced.sameConfig, ?_, ?_, ?_, ?_⟩
  · rw [index, taken]
    exact traced.frames
  · rw [hubEvents_append, drops_append, List.mem_append]
    exact fun mem => mem.elim traced.notDropped notDropped
  · rw [same.failure?, taken, offered, same.pending]
    intro healthy
    obtain ⟨notYet, all⟩ := traced.healthy healthy
    refine ⟨?_, all⟩
    rw [hubEvents_append, closings_append, List.mem_append]
    exact fun mem => mem.elim notYet (notClosed healthy)
  · rw [same.failure?, taken, offered]
    exact traced.failed

/-- A packet is taken, which the tap does only when everything before is offered. -/
theorem took (traced : Traced config id i past t) (receiving : t.phase = .receiving)
    (packet : Packet) (heard : hubEvents events = [.took id packet])
    (silent : offers i events = []) :
    Traced config id i (past ++ events) (t.cutPacket packet).1 := by
  have taken : takenBy id (hubEvents (past ++ events)) =
      takenBy id (hubEvents past) ++ [packet] := by
    rw [hubEvents_append, heard, takenBy_append, takenBy_cons]
    simp
  have none : t.failure? = none := by
    rw [TapSession.failure?, TapSession.stake, receiving]
    rfl
  have nothing : t.pending = [] := by rw [TapSession.pending, receiving]
  obtain ⟨sameId, sameConfig, fine⟩ := t.cutPacket_same packet
  obtain ⟨notClosed, accepted, offered, all⟩ := traced.healthy none
  rw [nothing, List.append_nil] at all
  refine ⟨sameId.trans traced.sameId, sameConfig.trans traced.sameConfig, ?_, ?_, ?_, ?_⟩
  · rw [t.cutPacket_frameIndex, traced.frames, taken, List.length_append]
    rfl
  · rw [hubEvents_append, heard]
    simpa using traced.notDropped
  · intro _
    refine ⟨?_, accepted, ?_, ?_⟩
    · rw [hubEvents_append, heard]
      simpa using notClosed
    · rw [offers_append, silent, List.append_nil, offered]
    · rw [t.cutPacket_pending, taken, TapConfig.payloadsOf_concat, all, traced.sameConfig,
        traced.frames]
  · rw [fine]
    intro cause fails
    cases fails

theorem same (traced : Traced config id i past t) (same : t.SameWork t') :
    Traced config id i past t' := by
  have later : Traced config id i (past ++ []) t' :=
    traced.idle same rfl List.not_mem_nil (fun _ => List.not_mem_nil) rfl
  rwa [List.append_nil] at later

/-- The consumer takes the first payload that is left, or fails to. -/
theorem answered (traced : Traced config id i past t) {payload : Payload} {rest : List Payload}
    (sending : t.phase = .sending (payload :: rest)) {failure? : Option Error}
    (hr : t.respond? failure? = some t') :
    Traced config id i (past ++ [.offered i payload failure?]) t' := by
  obtain ⟨id', config', stats, phase⟩ := t
  cases sending
  obtain ⟨notClosed, accepted, offered, all⟩ := traced.healthy rfl
  have heard : hubEvents (past ++ [.offered i payload failure?]) = hubEvents past := by
    rw [hubEvents_append]
    exact List.append_nil _
  have offered' : offers i (past ++ [.offered i payload failure?]) =
      accepted.map (·, none) ++ [(payload, failure?)] := by
    rw [offers_append, offered]
    simp [offers]
  cases failure? with
  | none =>
    cases hr
    refine ⟨traced.sameId, traced.sameConfig, ?_, ?_, ?_, fun cause fails => by cases fails⟩
    · rw [heard]
      exact traced.frames
    · rw [heard]
      exact traced.notDropped
    · intro _
      rw [heard]
      refine ⟨notClosed, accepted ++ [payload], ?_, ?_⟩
      · rw [offered', List.map_append]
        rfl
      · rw [List.append_assoc]
        exact all
  | some cause =>
    cases hr
    refine ⟨traced.sameId, traced.sameConfig, ?_, ?_, (fun fine => by cases fine), ?_⟩
    · rw [heard]
      exact traced.frames
    · rw [heard]
      exact traced.notDropped
    · rintro cause' ⟨⟩
      rw [heard]
      exact ⟨accepted, payload, rest, offered', all⟩

theorem advance {h : Hub} {action : System.Action} (traced : Traced config id i past t)
    (adv : t.Advance h i action events t') :
    Traced config id i (past ++ events) t' := by
  have own := traced.sameId
  cases adv with
  | waits other foreign silent =>
    rw [own] at foreign
    exact traced.idle (t.sameWork_hear _) foreign.noneTaken foreign.notDropped
      (fun _ => foreign.notClosed) silent
  | @works t' hub heard skipped? hs =>
    have silent : offers i (heard.map .hub ++ (skipped?.map System.Event.skipped).toList) = [] := by
      rw [offers_append, offers_map_hub]
      cases skipped? <;> rfl
    refine Traced.same ?_ (t'.sameWork_hear heard)
    rcases (TapSession.step?_work hs).cases with
      ⟨packet, receiving, took, rfl⟩ | ⟨same, noneTaken, drop, close⟩
    · refine traced.took receiving packet ?_ silent
      rw [hubEvents_tap, took, own]
    · rw [own] at noneTaken drop close
      refine traced.idle same ?_ ?_ ?_ silent
      all_goals rwa [hubEvents_tap]
  | offers sending hr => exact traced.answered sending hr

/-- Nothing is left of what a tap has taken. -/
theorem offers_eq (traced : Traced config id i past t) (fine : t.failure? = none)
    (nothing : t.pending = []) :
    offers i past = (config.payloadsOf (takenBy id (hubEvents past))).map (·, none) := by
  obtain ⟨-, accepted, offered, all⟩ := traced.healthy fine
  rw [offered, ← all, nothing, List.append_nil]

theorem offers_isPrefix (traced : Traced config id i past t) :
    (offers i past).map (·.1) <+: config.payloadsOf (takenBy id (hubEvents past)) := by
  have firsts (accepted : List Payload) :
      (accepted.map fun payload => (payload, (none : Option Error))).map (·.1) = accepted := by
    rw [List.map_map]
    exact List.map_id accepted
  cases fails : t.failure? with
  | none =>
    obtain ⟨-, accepted, offered, all⟩ := traced.healthy fails
    rw [offered, ← all, firsts]
    exact List.prefix_append _ _
  | some cause =>
    obtain ⟨accepted, payload, rest, offered, all⟩ := traced.failed cause fails
    rw [offered, ← all, List.map_append, firsts, List.append_cons]
    exact List.prefix_append _ _

/-- A failure is the last that is offered. -/
theorem length_offers (traced : Traced config id i past t) {m : Nat} {payload : Payload}
    {cause : Error} (fails : (offers i past)[m]? = some (payload, some cause)) :
    t.failure? = some cause ∧ (offers i past).length = m + 1 := by
  have accepts (accepted : List Payload) :
      (accepted.map fun payload => (payload, (none : Option Error)))[m]? ≠
        some (payload, some cause) := by
    rw [List.getElem?_map]
    cases accepted[m]? <;> simp
  cases failed : t.failure? with
  | none =>
    obtain ⟨-, accepted, offered, -⟩ := traced.healthy failed
    rw [offered] at fails
    exact absurd fails (accepts accepted)
  | some cause' =>
    obtain ⟨accepted, last, rest, offered, -⟩ := traced.failed cause' failed
    rw [offered] at fails ⊢
    rcases Nat.lt_trichotomy m accepted.length with before | rfl | behind
    · rw [List.getElem?_append_left (by rwa [List.length_map])] at fails
      exact absurd fails (accepts accepted)
    · rw [List.getElem?_append_right (by rw [List.length_map])] at fails
      obtain ⟨-, rfl⟩ : last = payload ∧ cause' = cause := by simpa using fails
      exact ⟨rfl, by simp⟩
    · have few : (accepted.map (·, none) ++ [(last, some cause')]).length ≤ m := by
        rw [List.length_append, List.length_map]
        exact behind
      rw [List.getElem?_eq_none few] at fails
      cases fails

/-- A tap gives up just when its consumer has failed. -/
theorem failure?_iff (traced : Traced config id i past t) {cause : Error} :
    t.failure? = some cause ↔ ∃ payload, (payload, some cause) ∈ offers i past := by
  constructor
  · intro fails
    obtain ⟨accepted, payload, rest, offered, -⟩ := traced.failed cause fails
    rw [offered]
    exact ⟨payload, List.mem_append_right _ List.mem_cons_self⟩
  · rintro ⟨payload, mem⟩
    obtain ⟨m, there⟩ := List.mem_iff_getElem?.mp mem
    exact (traced.length_offers there).1

end Traced

/-- A tap in a run is traced from its beginning on. -/
theorem System.Run.traced {hubConfig : HubConfig} {before more : List System.Event}
    {s₀ s₁ s : System} {id : Nat} {config : TapConfig} {actions : List System.Action}
    (run : System.Run hubConfig before s₀)
    (attached : s₀.step? (.startTap id config) = some (s₁, []))
    (hp : s₁.perform? actions = some (s, more)) :
    ∃ t, s.taps[s₀.taps.length]? = some t ∧ Traced config id s₀.taps.length more t := by
  have begun : s₁.taps = s₀.taps ++ [.start id config] := by
    cases Step.of_step? attached
    rfl
  refine System.perform?_induction (.step run attached) (P := fun _ more s =>
    ∃ t, s.taps[s₀.taps.length]? = some t ∧ Traced config id s₀.taps.length more t) ?_ ?_ hp
  · refine ⟨.start id config, by rw [begun, List.getElem?_concat_length], rfl, rfl, rfl,
      List.not_mem_nil, fun _ => ⟨List.not_mem_nil, [], rfl, rfl⟩,
      fun cause fails => by cases fails⟩
  · rintro done more s₂ action events s₃ run ⟨t, found, traced⟩ hs
    have st := Step.of_step? hs
    obtain ⟨t', found', adv⟩ := st.tap_advance run.sound.provided run.apart found
    exact ⟨t', found', traced.advance adv⟩

end VideoRelay

/-
What a tap's consumer can put together.

* `TapConfig.unitsOf` — the units that a packet carries to the consumer: those of a packet
  that can be fragmented, and none of a malformed one;
* `Transmits` — what some payloads come to for a reassembler, packet by packet;
* `transmits_payloadsOf` — the payloads of some packets come to their units;
* `tap_transmits` — so the payloads that a tap's consumer accepts come to the units of the
  packets that the hub has handed round.

Design notes: a malformed packet has no payload at all, so nothing of it can get into the
units around it; for the others it is enough that their fragments leave nothing open.
-/
import VideoRelay.Proofs.Fragment.Lossless
import VideoRelay.Proofs.Hub.FanOut
import VideoRelay.Proofs.Tap.Trace

namespace VideoRelay

open Reassembler

/-- The units that reach the consumer of a tap with a packet. -/
def TapConfig.unitsOf (config : TapConfig) (packet : Packet) : List Bytes :=
  match fragmentStream config.budget packet with
  | .ok _ => (nalUnits packet).map restored
  | .error _ => []

/-- What a payload is to a reassembler. -/
def Payload.arrival (payload : Payload) : Arrival := .datagram payload.data

/-! ### One packet -/

/-- The payloads of the packet at position `k`. -/
structure OfPacket (config : TapConfig) (k : Nat) (packet : Packet) (block : List Payload) :
    Prop where
  index : ∀ payload ∈ block, payload.frameIndex = k
  delivers : Reassembler.Delivers empty (block.map (·.arrival)) (config.unitsOf packet)
  /-- The marker is on the last of them. -/
  marked : ∀ pre payload post, block = pre ++ payload :: post →
    (payload.marker = true ↔ post = [])

theorem ofPacket_carried (config : TapConfig) (k : Nat) (packet : Packet) :
    OfPacket config k packet (config.carried k packet) := by
  cases cuts : fragmentStream config.budget packet with
  | error cause =>
    have none : config.carried k packet = [] := by
      rw [TapConfig.carried, payloads, cuts]
      rfl
    rw [none]
    refine ⟨fun payload mem => (List.not_mem_nil mem).elim, ?_, ?_⟩
    · rw [TapConfig.unitsOf, cuts]
      exact .nil
    · intro pre payload post split
      simp at split
  | ok fragments =>
    have block : config.carried k packet = fragments.mapIdx fun i fragment =>
        { data := fragment.serialize
          frameIndex := k
          marker := i + 1 = fragments.length
          payloadType := config.payloadType } := by
      rw [TapConfig.carried, payloads, cuts]
      rfl
    rw [block]
    refine ⟨?_, ?_, ?_⟩
    · intro payload mem
      obtain ⟨i, known, rfl⟩ := List.mem_mapIdx.mp mem
      rfl
    · rw [TapConfig.unitsOf, cuts, ← block]
      have same : (config.carried k packet).map (·.arrival) =
          fragments.map fun fragment => .datagram fragment.serialize := by
        refine List.ext_getElem? fun i => ?_
        rw [block, List.getElem?_map, List.getElem?_map, List.getElem?_mapIdx, Option.map_map]
        rfl
      exact same ▸ delivers_fragmentStream cuts
    · intro pre payload post split
      have length := congrArg List.length split
      have there := congrArg (fun l : List Payload => l[pre.length]?) split
      simp only [List.length_mapIdx, List.length_append, List.length_cons] at length
      rw [List.getElem?_mapIdx, List.getElem?_append_right (Nat.le_refl _), Nat.sub_self,
        List.getElem?_cons_zero, Option.map_eq_some_iff] at there
      obtain ⟨fragment, -, rfl⟩ := there
      rw [decide_eq_true_eq, ← List.length_eq_zero_iff]
      omega

/-! ### All packets -/

/-- What some payloads come to for a new reassembler: no error, and packet by packet the
units that they carry; behind a marked payload nothing is open. -/
structure Transmits (config : TapConfig) (packets : List Packet) (accepted : List Payload) :
    Prop where
  delivers : Reassembler.Delivers empty (accepted.map (·.arrival)) (packets.flatMap config.unitsOf)
  /-- They are in blocks, one for each packet, an empty one for a malformed packet. -/
  blocks : ∃ blocks : List (List Payload), accepted = blocks.flatten ∧
    blocks.length = packets.length ∧
    ∀ (k : Nat) (packet : Packet) (block : List Payload),
      packets[k]? = some packet → blocks[k]? = some block → OfPacket config k packet block
  settled : ∀ pre payload post, accepted = pre ++ payload :: post → payload.marker = true →
    (empty.after ((pre ++ [payload]).map (·.arrival))).inProgress = false

theorem after_append (r : Reassembler) (first rest : List Arrival) :
    r.after (first ++ rest) = (r.after first).after rest := List.foldl_append

/-- Behind a marked payload nothing is open, if blocks deliver what they carry and each is
marked at its end only. -/
theorem after_marked {blocks : List (List Payload)}
    (each : ∀ block ∈ blocks, empty.after (block.map (·.arrival)) = empty ∧
      ∀ pre payload post, block = pre ++ payload :: post → payload.marker = true → post = [])
    {pre post : List Payload} {payload : Payload} (split : blocks.flatten = pre ++ payload :: post)
    (marked : payload.marker = true) :
    empty.after ((pre ++ [payload]).map (·.arrival)) = empty := by
  induction blocks generalizing pre with
  | nil => simp at split
  | cons block blocks ih =>
    obtain ⟨closed, last⟩ := each block List.mem_cons_self
    rw [List.flatten_cons] at split
    rcases List.append_eq_append_iff.mp split with ⟨pre', hpre, hrest⟩ | ⟨mid, hblock, hrest⟩
    · -- It is in a later block, before which nothing is open.
      rw [hpre, List.append_assoc, List.map_append, after_append, closed]
      exact ih (fun block mem => each block (List.mem_cons_of_mem _ mem)) hrest
    · cases mid with
      | nil =>
        rw [List.append_nil] at hblock
        have here : blocks.flatten = [] ++ payload :: post := hrest.symm
        have later := ih (fun block mem => each block (List.mem_cons_of_mem _ mem)) here
        rw [List.map_append, after_append, ← hblock, closed]
        exact later
      | cons first mid =>
        obtain ⟨rfl, -⟩ := List.cons_eq_cons.mp hrest
        rw [last pre payload mid hblock marked] at hblock
        rw [← hblock]
        exact closed

theorem delivers_payloadsOf (config : TapConfig) (packets : List Packet) :
    Reassembler.Delivers empty ((config.payloadsOf packets).map (·.arrival))
      (packets.flatMap config.unitsOf) := by
  induction packets using List.reverseRecOn with
  | nil => exact .nil
  | append_singleton packets packet ih =>
    rw [config.payloadsOf_concat, List.map_append, List.flatMap_append, List.flatMap_singleton]
    exact ih.append (ofPacket_carried config packets.length packet).delivers

/-- The payloads of some packets come to the units that these carry. -/
theorem transmits_payloadsOf (config : TapConfig) (packets : List Packet) :
    Transmits config packets (config.payloadsOf packets) := by
  refine ⟨delivers_payloadsOf config packets,
    ⟨packets.mapIdx config.carried, rfl, List.length_mapIdx, ?_⟩, ?_⟩
  · intro k packet block packetAt blockAt
    rw [TapConfig.block_eq packetAt blockAt]
    exact ofPacket_carried config k packet
  · intro pre payload post split marked
    rw [after_marked ?_ split marked]
    · rfl
    · intro block mem
      obtain ⟨k, known, rfl⟩ := List.mem_mapIdx.mp mem
      have own := ofPacket_carried config k packets[k]
      exact ⟨own.delivers.closed,
        fun pre payload post split => (own.marked pre payload post split).mp⟩

/-! ### From the hub to the consumer -/

open VideoRelay.System VideoRelay.Hub

variable {hubConfig : HubConfig} {before more : List System.Event} {s₀ s₁ s : System} {id : Nat}
  {config : TapConfig} {actions : List System.Action}

/-- A tap whose consumer takes every payload transmits the packets that the hub hands
round: what it has taken are the first of these, all of them whenever it waits and the hub
is between two commands, and when it has nothing left to offer, the payloads come to the
units of just these packets. -/
theorem tap_transmits (run : System.Run hubConfig before s₀) (policy : hubConfig.policy = .block)
    (fresh : takenBy id (hubEvents before) = [])
    (attached : s₀.step? (.startTap id config) = some (s₁, []))
    (hp : s₁.perform? actions = some (s, more))
    (accepting : ∀ offer ∈ offers s₀.taps.length more, offer.2 = none) :
    ∃ t, s.taps[s₀.taps.length]? = some t ∧
      takenBy id (hubEvents more) <+: packetsSince id (hubEvents (before ++ more)) ∧
      (s.hub.phase = .ready → s.hub.available id = .waiting →
        takenBy id (hubEvents more) = packetsSince id (hubEvents (before ++ more))) ∧
      (t.pending = [] → Transmits config (takenBy id (hubEvents more))
        ((offers s₀.taps.length more).map (·.1))) := by
  have notDropping : hubConfig.policy ≠ .dropNewest := by simp [policy]
  obtain ⟨t, found, traced⟩ := run.traced attached hp
  have hubRun : Hub.Run hubConfig (hubEvents (before ++ more)) s.hub := by
    have later := (System.Run.step run attached).perform? hp
    rw [List.append_nil] at later
    exact later.sound.run
  have taken : takenBy id (hubEvents (before ++ more)) = takenBy id (hubEvents more) := by
    rw [hubEvents_append, takenBy_append, fresh, List.nil_append]
  refine ⟨t, found, ?_, ?_, ?_⟩
  · rw [← taken]
    exact (List.prefix_append _ _).trans
      ((hubRun.account id).taken.trans (hubRun.queuedFor_isPrefix notDropping id))
  · intro ready waits
    rw [← taken]
    exact hubRun.takenBy_eq notDropping ready waits
  · intro nothingLeft
    have healthy : t.failure? = none := by
      cases fails : t.failure? with
      | none => rfl
      | some cause =>
        -- The failure itself would be among the answers.
        obtain ⟨accepted, payload, rest, offered, -⟩ := traced.failed cause fails
        rw [offered] at accepting
        cases accepting (payload, some cause) (by simp)
    obtain ⟨-, accepted, offered, all⟩ := traced.healthy healthy
    rw [nothingLeft, List.append_nil] at all
    have same : (offers s₀.taps.length more).map (·.1) = accepted := by
      rw [offered, List.map_map]
      exact List.map_id accepted
    rw [same, all]
    exact transmits_payloadsOf config _

/-- Two start codes in a row spoil the first packet; the second is transmitted, with its own
position, and its unit without the forbidden bit. -/
theorem malformed_packet_vanishes :
    ∃ (before more : List System.Event) (s₀ s₁ s : System) (t : TapSession),
      System.Run ⟨4, 4, .block, 1000⟩ before s₀ ∧
      s₀.step? (.startTap 0 ⟨2, 96⟩) = some (s₁, []) ∧
      takenBy 0 (hubEvents more) = [[0, 0, 1, 0, 0, 1, 0x41], [0, 0, 0, 1, 0xE5, 1, 2, 3]] ∧
      takenBy 0 (hubEvents more) = packetsSince 0 (hubEvents (before ++ more)) ∧
      s.taps[0]? = some t ∧ t.pending = [] ∧
      (offers 0 more).map (·.1) =
        [⟨[0x7C, 0x85, 1, 2], 1, false, 96⟩, ⟨[0x7C, 0x45, 3], 1, true, 96⟩] ∧
      Reassembler.Delivers empty [.datagram [0x7C, 0x85, 1, 2], .datagram [0x7C, 0x45, 3]]
        [[0, 0, 0, 1, 0x65, 1, 2, 3]] := by
  obtain ⟨s₀, before, hb, noTap, fresh, s₁, attached, check⟩ :
      ∃ s₀ before, (System.start ⟨4, 4, .block, 1000⟩).perform?
          [.hub (.call .register), .hub .enqueue, .hub .work] = some (s₀, before) ∧
        s₀.taps.length = 0 ∧ takenBy 0 (hubEvents before) = [] ∧
        ∃ s₁, s₀.step? (.startTap 0 ⟨2, 96⟩) = some (s₁, []) ∧
        (s₁.perform?
          [.hub (.call (.packet [0, 0, 1, 0, 0, 1, 0x41])), .hub .enqueue, .hub .work, .hub .work,
            .hub .work, .tap 0, .hub (.call (.packet [0, 0, 0, 1, 0xE5, 1, 2, 3])), .hub .enqueue,
            .hub .work, .hub .work, .hub .work, .tap 0, .consumer 0 none, .consumer 0 none,
            .tap 0]).any (fun result =>
          takenBy 0 (hubEvents result.2) = [[0, 0, 1, 0, 0, 1, 0x41], [0, 0, 0, 1, 0xE5, 1, 2, 3]] ∧
          offers 0 result.2 = [(⟨[0x7C, 0x85, 1, 2], 1, false, 96⟩, none),
            (⟨[0x7C, 0x45, 3], 1, true, 96⟩, none)] ∧
          result.1.hub.phase = .ready ∧ result.1.hub.available 0 = .waiting ∧
          result.1.taps[0]?.map (·.pending) = some []) = true := by
    refine ⟨_, _, rfl, rfl, rfl, _, rfl, ?_⟩
    decide +kernel
  obtain ⟨⟨s, more⟩, hp, facts⟩ := (Option.any_eq_true _ _).mp check
  obtain ⟨taken, offered, ready, waits, pending⟩ := of_decide_eq_true facts
  have run : System.Run ⟨4, 4, .block, 1000⟩ ([] ++ before) s₀ := System.Run.start.perform? hb
  obtain ⟨t, found, -, all, transmits⟩ :=
    tap_transmits run rfl fresh attached hp (by rw [noTap, offered]; decide)
  rw [noTap] at found transmits
  have done : t.pending = [] := by
    rw [found] at pending
    exact Option.some.inj pending
  have delivers := (transmits done).delivers
  have units : [[0, 0, 1, 0, 0, 1, 0x41], [0, 0, 0, 1, 0xE5, 1, 2, 3]].flatMap
      (TapConfig.unitsOf ⟨2, 96⟩) = [[0, 0, 0, 1, 0x65, 1, 2, 3]] := by decide +kernel
  rw [offered, taken, units] at delivers
  exact ⟨before, more, s₀, s₁, s, t, run, attached, taken, all ready waits, found, done,
    congrArg _ offered, delivers⟩

end VideoRelay

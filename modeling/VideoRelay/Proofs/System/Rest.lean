/-
A peaceful simulation at rest.

* `Peaceful.writers_wait` — every subscriber's session has written all and waits for a
  packet;
* `Peaceful.hub_rests` — so the hub waits for no room, and nothing is left for it to do;
* `Peaceful.written_eq` — each connection has taken the frames of all packets since the
  registration, which are all packets submitted for whoever was registered before them;
* `Peaceful.producers_rest` — and producers have submitted all packets with which their
  streams begin.

Design notes: it goes from the back to the front.  Only when nothing is left in the queues
of the subscribers is nothing left in the queue of the hub, and only then does no producer
wait.
-/
import VideoRelay.Proofs.System.Failure
import VideoRelay.Proofs.System.Peaceful

open VideoRelay.Frame

namespace VideoRelay

/-- Whoever waits for a packet has nothing in the queue. -/
theorem Hub.queue_of_waiting {h : Hub} {id : Nat} {s : Subscriber}
    (found : h.subscribers[id]? = some s) (waits : h.available id = .waiting) : s.queue = [] := by
  rw [available, found] at waits
  cases queue : s.queue with
  | nil => rfl
  | cons packet rest => simp [queue] at waits

/-- A calm hub whose subscribers all wait has handed round what was submitted, if it cannot
proceed. -/
theorem Hub.Calm.rests {h : Hub} (calm : h.Calm) (stuck : h.isStuck = true)
    (waits : ∀ id < h.nextId, h.available id = .waiting) : h.phase = .ready ∧ h.upcoming = [] := by
  have free (id : Nat) : ¬ h.IsHeldUpBy id := by
    rintro ⟨b, rest, s, -, -, found, full⟩
    have room := full.full
    rw [queue_of_waiting found (waits id (List.getElem?_eq_some_iff.mp found).1)] at room
    exact absurd room (Nat.not_le.mpr (Nat.lt_of_lt_of_le Nat.one_pos (Nat.le_max_right _ _)))
  have idle : h.waiting = [] ∧ h.commands = [] := by
    by_contra busy
    obtain ⟨id, held⟩ := exists_isHeldUpBy stuck calm.live (not_and_or.mp busy)
    exact free id held
  refine ⟨?_, by rw [upcoming, idle.1, idle.2]; rfl⟩
  rw [isStuck, Bool.and_eq_true, Option.isNone_iff_eq_none] at stuck
  rcases work?_eq_none stuck.1 with
    stopped | ⟨ready, -⟩ | ⟨b, id, rest, s, delivering, front, found, full, -⟩
  · exact absurd stopped calm.live
  · exact ready
  · exact absurd ⟨b, rest, s, delivering, front, found, full⟩ (free id)

namespace Simulation

open VideoRelay.System

variable {sim : Simulation}

theorem proceed?_eq_none (rest : sim.next? = none) (part : Part) (mem : part ∈ sim.parts) :
    sim.proceed? part = none := List.findSome?_eq_none_iff.mp rest part mem

theorem step?_eq_none {action : System.Action} (refused : sim.act? action = none) :
    sim.system.step? action = none := Option.map_eq_none_iff.mp refused

theorem hub_isStuck (rest : sim.next? = none) : sim.system.hub.isStuck = true := by
  have works : sim.system.step? (.hub .work) = none :=
    step?_eq_none (proceed?_eq_none rest .hub (by simp [parts]))
  have enqueues : sim.system.step? (.hub .enqueue) = none :=
    step?_eq_none (proceed?_eq_none rest .callers (by simp [parts]))
  rw [Hub.isStuck, Bool.and_eq_true, Option.isNone_iff_eq_none, Option.isNone_iff_eq_none]
  exact ⟨Option.map_eq_none_iff.mp works, Option.map_eq_none_iff.mp enqueues⟩

namespace Peaceful

variable {config : HubConfig} {streams : List Stream} {sent : List (List Packet)}
  {history : List System.Event}

/-! ### Subscribers -/

theorem writers_wait (p : Peaceful config streams sent history sim) (rest : sim.next? = none)
    {i : Nat} {w : SubscriberSession} (found : sim.system.writers[i]? = some w) :
    w.phase = .receiving ∧ sim.system.hub.available i = .waiting := by
  obtain ⟨l, there, attends⟩ := p.attended.link found
  have inRange := (List.getElem?_eq_some_iff.mp found).1
  rcases attends.working.proceeds sim.system.hub with
    moves | ⟨errand, asked⟩ | ⟨receiving, waits⟩
  · have stuck : sim.system.step? (.write i) = none :=
      step?_eq_none (proceed?_eq_none rest (.writer i) (by simp [parts, inRange]))
    simp only [System.step?, write?, found, Option.map_eq_none_iff] at stuck
    exact absurd stuck moves
  · -- A connection that takes everything answers.
    obtain ⟨answer, l', w', answered, responds, -⟩ :=
      SubscriberSession.serve_working attends.working attends.reading asked
    have stuck : sim.serveLink? i = none :=
      proceed?_eq_none rest (.link i) (by simp [parts, inRange])
    simp [serveLink?, found, asked, there, answered, act?, System.step?, answerConnection?,
      responds] at stuck
  · exact ⟨receiving, attends.id_eq ▸ waits⟩

theorem hub_rests (p : Peaceful config streams sent history sim)
    (complete : sim.system.writers.length = sim.system.hub.nextId) (rest : sim.next? = none) :
    sim.system.hub.phase = .ready ∧ sim.system.hub.upcoming = [] := by
  refine p.calm.rests (hub_isStuck rest) fun id known => ?_
  exact (p.writers_wait rest (List.getElem?_eq_getElem (complete ▸ known))).2

/-- A connection has taken all that there was since the registration. -/
theorem written_eq (p : Peaceful config streams sent history sim)
    (complete : sim.system.writers.length = sim.system.hub.nextId) (rest : sim.next? = none)
    {i : Nat} (known : i < sim.system.hub.nextId) :
    ∃ l, sim.links[i]? = some l ∧
      l.connection.written = row (Hub.packetsSince i (hubEvents history)) := by
  have found : sim.system.writers[i]? = some sim.system.writers[i] :=
    List.getElem?_eq_getElem (complete ▸ known)
  obtain ⟨l, there, attends⟩ := p.attended.link found
  obtain ⟨receiving, waits⟩ := p.writers_wait rest found
  have noneLeft : sim.system.writers[i].outstanding = [] := by
    have working := attends.working
    rw [SubscriberSession.IsWorking, receiving] at working
    rw [SubscriberSession.outstanding, receiving]
    exact working
  have all := p.run.sound.run.takenBy_eq p.policy (p.hub_rests complete rest).1 waits
  have bytes := attends.bytes
  rw [noneLeft, List.append_nil, all] at bytes
  exact ⟨l, there, bytes⟩

/-- Whoever was registered before the first packet has been sent every packet submitted. -/
theorem packetsSince_eq (p : Peaceful config streams sent history sim)
    (complete : sim.system.writers.length = sim.system.hub.nextId) (rest : sim.next? = none)
    {before events : List System.Event} (split : history = before ++ events)
    (noPacket : Hub.begunPackets (hubEvents before) = []) {i : Nat}
    (known : i ∈ Hub.registrations (hubEvents before)) :
    Hub.packetsSince i (hubEvents history) = sent.flatten := by
  have noneLeft := (p.hub_rests complete rest).2
  have all : Hub.begunPackets (hubEvents history) = sent.flatten := by
    have aligned := p.aligned
    rw [Hub.Aligned, noneLeft, List.append_nil] at aligned
    rw [← p.submitted, aligned, Hub.packetsOf_begun]
  rw [split, hubEvents_append] at all ⊢
  rw [Hub.packetsSince_append known, Hub.packetsSince_eq_nil noPacket, ← all,
    Hub.begunPackets_append, noPacket]

/-! ### Producers -/

theorem producers_rest (p : Peaceful config streams sent history sim)
    (complete : sim.system.writers.length = sim.system.hub.nextId) (rest : sim.next? = none)
    {i : Nat} {q : ProducerSession} (found : sim.system.producers[i]? = some q) :
    ∃ stream packets behind, streams[i]? = some stream ∧ sent[i]? = some packets ∧
      Front stream.bytes packets behind ∧
      (IsOver sim.system.producers i ↔ stream.IsSettled) := by
  obtain ⟨stream, packets, onStream, here, follows⟩ := p.supplied.follows i q found
  have inRange := (List.getElem?_eq_some_iff.mp found).1
  have noneLeft := (p.hub_rests complete rest).2
  rw [Hub.upcoming, List.append_eq_nil_iff] at noneLeft
  have waits : q.step? sim.system.hub = none := by
    have stuck : sim.system.step? (.produce i) = none :=
      step?_eq_none (proceed?_eq_none rest (.producer i) (by simp [parts, inRange]))
    simpa only [System.step?, produce?, found, Option.map_eq_none_iff] using stuck
  have idle (ticket : Nat) : q.phase ≠ .submitting ticket := by
    intro submitting
    have inLine := p.supplied.waits q (List.mem_of_getElem? found) ticket submitting
    rw [noneLeft.2] at inLine
    cases inLine
  obtain ⟨behind, front, state⟩ := follows.front_of_waits waits idle
  refine ⟨stream, packets, behind, onStream, here, front, ?_⟩
  rcases state with ⟨⟨result, ended⟩, settled⟩ | ⟨goesOn, unsettled⟩
  · exact iff_of_true ⟨q, result, found, ended⟩ settled
  · refine iff_of_false ?_ unsettled
    rintro ⟨q', result, found', ended⟩
    cases found.symm.trans found'
    exact goesOn result ended

end Peaceful

end Simulation

end VideoRelay

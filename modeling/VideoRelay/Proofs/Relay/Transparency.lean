/-
The bytes that a relay server hands on.

* `Relay.InTurn` — the connections accepted so far, and the packets with which the stream
  of each begins: one is accepted when all before it are settled;
* `Running.inTurn`, `Running.sends_all` — so it is with a server at rest, and what
  subscribers have been sent are these packets;
* `Run.transparent` — no bytes from a producer end anything but its own session, and at
  rest whoever was registered before the first packet has been sent the frames of these
  packets, and nothing else.

Design notes: the frames of the packets with which a stream begins are a front part of the
stream itself (`Front`), so what a subscriber receives is nothing but what producers sent,
up to the first thing in each stream that is not a frame.
-/
import VideoRelay.Proofs.Hub.Statistics
import VideoRelay.Proofs.Relay.Running
import VideoRelay.Proofs.System.Rest

open VideoRelay.Frame

namespace VideoRelay

namespace Relay

open VideoRelay.System

/-- The connections accepted so far are the first ones, and `fronts` are the packets with
which their streams begin.  Producers are served one after the other, each as long as its
stream is not settled. -/
structure InTurn (r : Relay) (streams : List Stream) (fronts : List (List Packet)) : Prop where
  accepted : ∀ (p : Nat) (peer : Peer), r.peers[p]? = some peer →
    (peer.state ≠ .backlog ↔ p < fronts.length)
  front : ∀ (p : Nat) (packets : List Packet), fronts[p]? = some packets →
    ∃ (stream : Stream) (rest : Bytes), streams[p]? = some stream ∧
      Front stream.bytes packets rest
  next : ∀ p < streams.length, p < fronts.length ↔
    ∀ q < p, ∃ stream : Stream, streams[q]? = some stream ∧ stream.IsSettled

/-! ### Where nothing proceeds -/

theorem proceed?_eq_none {r : Relay} (rest : r.next? = none) :
    r.accept? = none ∧ r.release? = none ∧ r.inner.next? = none := by
  rw [next?, List.findSome?_eq_none_iff] at rest
  refine ⟨rest .accept (by simp), rest .release (by simp), ?_⟩
  rw [Simulation.next?, List.findSome?_eq_none_iff]
  intro part mem
  refine Option.map_eq_none_iff.mp (rest (.inner part) ?_)
  exact List.mem_cons_of_mem _ (List.mem_cons_of_mem _
    (List.mem_cons_of_mem _ (List.mem_map_of_mem mem)))

/-- A connection in the backlog is accepted when nobody is served. -/
theorem accept?_ne_none {r : Relay} (goesOn : r.outcome? = none) (nobody : r.current? = none)
    {p : Nat} {peer : Peer} (found : r.peers[p]? = some peer) (waits : peer.state = .backlog) :
    r.accept? ≠ none := by
  have first : r.firstInBacklog? ≠ none := by
    intro noneWaits
    have inRange := (List.getElem?_eq_some_iff.mp found).1
    have here := List.findSome?_eq_none_iff.mp noneWaits p (List.mem_range.mpr inRange)
    simp [found, waits] at here
  obtain ⟨⟨q, other⟩, first⟩ := Option.ne_none_iff_exists'.mp first
  rw [accept?, goesOn, nobody, first]
  exact Option.some_ne_none _

/-- A producer whose session is over is let go. -/
theorem release?_ne_none {r : Relay} {p session : Nat} (serves : r.current? = some (p, session))
    (isOver : IsOver r.inner.system.producers session) : r.release? ≠ none := by
  obtain ⟨q, result, found, ended⟩ := isOver
  have came : r.inner.system.producers[session]?.bind (·.result?) = some result := by
    rw [found, Option.bind_some, ProducerSession.result?, ended]
  simp only [release?, serves, came]
  cases result with
  | ok stats => exact Option.some_ne_none _
  | error cause =>
    simp only
    split <;> exact Option.some_ne_none _

namespace Running

variable {config : ServerConfig} {streams : List Stream} {sent : List (List Packet)}
  {history : List System.Event} {r : Relay}

/-- The accepted connections are those that have a session. -/
theorem accepted_iff (g : Running config streams sent history r) {p : Nat} {peer : Peer}
    (found : r.peers[p]? = some peer) : peer.state ≠ .backlog ↔ p < sent.length := by
  rw [g.peaceful.supplied.counted]
  obtain ⟨stream, -, stands⟩ := g.stream found
  cases stands with
  | backlog late => exact iff_of_false (not_not_intro rfl) (Nat.not_lt.mpr late)
  | served last => exact iff_of_true Peer.State.noConfusion (by omega)
  | closed isOver =>
    obtain ⟨q, result, there, -⟩ := isOver
    exact iff_of_true Peer.State.noConfusion (List.getElem?_eq_some_iff.mp there).1

/-- When all that have been served are over, the next is accepted. -/
theorem allAccepted (g : Running config streams sent history r) (rest : r.next? = none)
    (allOver : ∀ i < r.inner.system.producers.length, IsOver r.inner.system.producers i) :
    streams.length ≤ r.inner.system.producers.length := by
  obtain ⟨accepts, releases, -⟩ := proceed?_eq_none rest
  by_contra more
  have inRange : r.inner.system.producers.length < r.peers.length :=
    g.accounted ▸ Nat.not_le.mp more
  have found : r.peers[r.inner.system.producers.length]? = some _ :=
    List.getElem?_eq_getElem inRange
  have waits : r.peers[r.inner.system.producers.length].state = .backlog := by
    by_contra accepted
    have := (g.accepted_iff found).mp accepted
    rw [g.peaceful.supplied.counted] at this
    exact Nat.lt_irrefl _ this
  cases serves : r.current? with
  | none => exact accept?_ne_none g.goesOn serves found waits accepts
  | some current =>
    -- Somebody is served who should have been let go.
    obtain ⟨p, session⟩ := current
    obtain ⟨peer, there, served⟩ := current?_eq_some serves
    obtain ⟨stream, -, stands⟩ := g.stream there
    cases stands with
    | backlog => cases served
    | closed => cases served
    | served last =>
      cases served
      exact release?_ne_none serves (allOver p (by omega)) releases

theorem inTurn (g : Running config streams sent history r) (rest : r.next? = none) :
    r.InTurn streams sent := by
  have inner := (proceed?_eq_none rest).2.2
  have counted := g.peaceful.supplied.counted
  have session {i : Nat} (known : i < sent.length) :=
    g.peaceful.producers_rest g.complete inner (List.getElem?_eq_getElem (counted ▸ known))
  refine ⟨fun p peer => g.accepted_iff, ?_, ?_⟩
  · intro p packets here
    obtain ⟨stream, own, behind, onStream, there, front, -⟩ :=
      session (List.getElem?_eq_some_iff.mp here).1
    cases here.symm.trans there
    exact ⟨stream, behind, onStream, front⟩
  · intro p known
    constructor
    · intro accepted q earlier
      -- All but the last are over.
      obtain ⟨stream, -, -, onStream, -, -, state⟩ := session (Nat.lt_trans earlier accepted)
      have there := List.getElem?_eq_getElem (counted ▸ Nat.lt_trans earlier accepted)
      obtain ⟨result, ended⟩ := g.peaceful.supplied.serial q _ there (by omega)
      exact ⟨stream, onStream, state.mp ⟨_, result, there, ended⟩⟩
    · intro settled
      by_contra late
      have all := g.allAccepted rest fun i known => ?_
      · omega
      · obtain ⟨stream, -, -, onStream, -, -, state⟩ := session (counted.symm ▸ known)
        obtain ⟨stream', onStream', isSettled⟩ := settled i (by omega)
        cases onStream.symm.trans onStream'
        exact state.mpr isSettled

/-- A producer's session ends as its own stream does, and for no other reason. -/
theorem busy_or_ended (g : Running config streams sent history r) {i : Nat} {p : ProducerSession}
    (found : r.inner.system.producers[i]? = some p) :
    p.IsBusy ∨ ∃ result stream packets rest, p.HasEnded result ∧ streams[i]? = some stream ∧
      stream.Over packets rest ∧ verdict result = ending rest := by
  obtain ⟨stream, packets, onStream, -, follows⟩ := g.peaceful.supplied.follows i p found
  cases follows with
  | amid busy amid => exact .inl busy
  | @settled result rest ended settled told =>
    exact .inr ⟨result, stream, packets, rest, ended, onStream, settled, told⟩

theorem isWorking (g : Running config streams sent history r) {w : SubscriberSession}
    (mem : w ∈ r.inner.system.writers) : w.IsWorking := by
  obtain ⟨i, found⟩ := List.mem_iff_getElem?.mp mem
  obtain ⟨l, -, attends⟩ := g.peaceful.attended.link found
  exact attends.working

/-- At rest, whoever was registered before the first packet has been sent all of them. -/
theorem sends_all {streams₀ : List Stream} {sent₀ : List (List Packet)}
    {history₀ events : List System.Event} {r₀ : Relay}
    (g₀ : Running config streams₀ sent₀ history₀ r₀)
    (g : Running config streams sent (history₀ ++ events) r) (rest : r.next? = none)
    (noPacket : r₀.inner.system.hub.tally.packetsReceived = 0) {id : Nat}
    (known : id < r₀.inner.system.hub.nextId) :
    ∃ w link, r.inner.system.writers[id]? = some w ∧ w.id = id ∧
      r.inner.links[id]? = some link ∧ link.connection.written = row sent.flatten := by
  have inner := (proceed?_eq_none rest).2.2
  have noneBegun : Hub.begunPackets (hubEvents history₀) = [] := by
    rw [← List.length_eq_zero_iff, ← g₀.peaceful.run.sound.run.tallied.packets, noPacket]
  have registered : id ∈ Hub.registrations (hubEvents history₀) := by
    rw [g₀.peaceful.run.sound.run.registrations_eq]
    exact List.mem_range.mpr known
  have stillKnown : id < r.inner.system.hub.nextId := by
    rw [← List.mem_range, ← g.peaceful.run.sound.run.registrations_eq, hubEvents_append,
      Hub.registrations_append]
    exact List.mem_append_left _ registered
  obtain ⟨link, there, written⟩ := g.peaceful.written_eq g.complete inner stillKnown
  rw [g.peaceful.packetsSince_eq g.complete inner rfl noneBegun registered] at written
  have found := List.getElem?_eq_getElem (g.complete.symm ▸ stillKnown)
  obtain ⟨l, -, attends⟩ := g.peaceful.attended.link found
  exact ⟨_, link, found, attends.id_eq, there, written⟩

end Running

/-! ### The relay -/

/-- A server that nobody stops, with a hub that waits for room and subscribers that take
what they are given, goes on whatever producers send.  Its hub has not stopped, every
subscriber's session goes on, and a producer's session reads on, waits for its packet to be
accepted, or has come to an end as its own stream does, with the end or a violation of the
format.

Where nothing proceeds any more, each producer is served whose predecessors' streams are
settled, and whoever was registered before the first packet has been sent, byte for byte,
the longest front parts of these streams, one after the other, that consist of whole frames
within the limit. -/
theorem Run.transparent {config : ServerConfig} {first later : List Action} {r₀ r : Relay}
    (policy : config.hub.policy = .block) (before : Run config first r₀)
    (run : Run config (first ++ later) r) (unstopped : .stop ∉ first ++ later)
    (reading : ∀ link, .subscribe link ∈ first ++ later → link.IsNew) :
    r.outcome? = none ∧ r.inner.system.hub.phase ≠ .stopped ∧
      (∀ w ∈ r.inner.system.writers, w.IsWorking) ∧
      (∀ (i : Nat) (p : ProducerSession), r.inner.system.producers[i]? = some p →
        p.IsBusy ∨ ∃ result stream packets rest, p.HasEnded result ∧
          (streams (first ++ later))[i]? = some stream ∧ stream.Over packets rest ∧
          verdict result = ending rest) ∧
      (r.next? = none → ∃ fronts, r.InTurn (streams (first ++ later)) fronts ∧
        (r₀.inner.system.hub.tally.packetsReceived = 0 →
          ∀ id < r₀.inner.system.hub.nextId, ∃ w link,
            r.inner.system.writers[id]? = some w ∧ w.id = id ∧
            r.inner.links[id]? = some link ∧ link.connection.written = row fronts.flatten)) := by
  obtain ⟨sent₀, history₀, g₀⟩ := before.exists_running policy
    (fun mem => unstopped (List.mem_append_left _ mem))
    fun link mem => reading link (List.mem_append_left _ mem)
  obtain ⟨sent, events, g⟩ := before.running g₀ run
    (fun mem => unstopped (List.mem_append_right _ mem))
    fun link mem => reading link (List.mem_append_right _ mem)
  refine ⟨g.goesOn, g.peaceful.calm.live, fun w => g.isWorking, fun i p => g.busy_or_ended, ?_⟩
  intro rest
  exact ⟨sent, g.inTurn rest, fun noPacket id => g₀.sends_all g rest noPacket⟩

/-- The first producer violates the format behind its first frame, the second is in the
middle of its second, and the third waits. -/
theorem transparent_behind_violation :
    ∃ config first later r₀ r, Run config first r₀ ∧ Run config (first ++ later) r ∧
      r.next? = none ∧
      streams (first ++ later) =
        [⟨[1, 0, 0, 0, 7, 0, 0, 0, 1, 5], false⟩, ⟨[1, 0, 0, 0, 9, 0], false⟩, .empty] ∧
      r.peers.map (·.state) = [.closed, .served 1, .backlog] ∧ r.outcome? = none ∧
      ∃ fronts, r.InTurn (streams (first ++ later)) fronts ∧
        ∃ link, r.inner.links[0]? = some link ∧
          link.connection.written = row fronts.flatten ∧
          link.connection.written = [1, 0, 0, 0, 7, 1, 0, 0, 0, 9] := by
  let config : ServerConfig :=
    { ServerConfig.standard with
      readBuffer := 4
      writeBuffer := 4
      hub := ⟨1, 1, .block, 1000⟩ }
  let link : Link := ⟨.fresh (fun _ => some 3) none, none⟩
  let outside : List Action := [.connect, .send 0 [1, 0, 0, 0, 7, 0, 0, 0, 1, 5], .connect,
    .send 1 [1, 0], .connect, .send 1 [0, 0, 9, 0]]
  -- The subscriber is registered, then the producers come, and all runs to the end.
  obtain ⟨joined, fed, r, registers, feeds, runs, ended, states, noPacket, known, written⟩ :
      ∃ joined fed r : Relay, ((Relay.start config).subscribe link).run 10 = joined ∧
        outside.foldlM step? joined = some fed ∧ fed.run 100 = r ∧ r.next?.isNone = true ∧
        r.peers.map (·.state) = [.closed, .served 1, .backlog] ∧
        joined.inner.system.hub.tally.packetsReceived = 0 ∧
        0 < joined.inner.system.hub.nextId ∧
        r.inner.links.map (·.connection.written) = [[1, 0, 0, 0, 7, 1, 0, 0, 0, 9]] :=
    ⟨_, _, _, rfl, rfl, rfl, by decide +kernel⟩
  rw [Option.isNone_iff_eq_none] at ended
  have subscribed : Run config [.subscribe link] ((Relay.start config).subscribe link) :=
    Run.start.step rfl
  obtain ⟨parts, before⟩ := subscribed.exists_run 10
  rw [registers] at before
  obtain ⟨parts', run⟩ := (before.perform feeds).exists_run 100
  rw [runs, List.append_assoc] at run
  obtain ⟨goesOn, -, -, -, atRest⟩ := Run.transparent rfl before run (by simp [outside]) (by
    have new : link.IsNew := ⟨⟨rfl, rfl⟩, rfl⟩
    simp [outside, new])
  obtain ⟨fronts, inTurn, sends⟩ := atRest ended
  obtain ⟨w, l, -, -, there, bytes⟩ := sends noPacket 0 known
  refine ⟨config, _, _, _, _, before, run, ended, ?_, states, goesOn, fronts, inTurn, l, there,
    bytes, ?_⟩
  · rw [← List.append_assoc, streams_append_proceed, streams, List.foldl_append,
      ← streams, streams_append_proceed]
    rfl
  · have first := congrArg (·[0]?) written
    simpa [there] using first

end Relay

end VideoRelay

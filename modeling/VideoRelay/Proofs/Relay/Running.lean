/-
A relay server that nobody stops.

* `Relay.streams` — what has come on each producer's connection;
* `Stands` — where a producer's connection stands beside the sessions;
* `Running` — the server goes on, all is in peace inside, and each connection is where it
  belongs;
* `Running.step` — whatever comes and whatever proceeds, short of being told to stop, the
  server goes on running;
* `Run.running` — and so it does through a whole run;
* `Run.settle` — what it settles to on a runtime with room for its queues is part of a run.

Design notes: connections are accepted in the order in which they came, and each gets a
session, so connection and session have the same number.
-/
import VideoRelay.Proofs.System.Peaceful
import VideoRelay.Relay.Server

open VideoRelay.Frame

namespace VideoRelay

/-- A row of frames never ends but regularly or with a violation of the format. -/
theorem isConnectionScoped_of_ending {rest : Bytes} {cause : Error}
    (failed : ending rest = .failed cause) : cause.isConnectionScoped = true := by
  rw [ending] at failed
  split at failed
  · cases failed
  · split at failed
    · cases failed
      rfl
    · split at failed <;> cases failed <;> rfl

/-- The first number at which there is something. -/
theorem findSome?_range {α : Type} {f : Nat → Option α} {n : Nat} {a : α}
    (found : (List.range n).findSome? f = some a) :
    ∃ i < n, f i = some a ∧ ∀ j < i, f j = none := by
  induction n with
  | zero => cases found
  | succ n ih =>
    rw [List.range_succ, List.findSome?_append, Option.or_eq_some_iff] at found
    rcases found with earlier | ⟨none, last⟩
    · obtain ⟨i, known, rest⟩ := ih earlier
      exact ⟨i, Nat.lt_succ_of_lt known, rest⟩
    · rw [List.findSome?_eq_none_iff] at none
      refine ⟨n, Nat.lt_succ_self n, ?_, fun j known => none j (List.mem_range.mpr known)⟩
      simpa using last

namespace Relay

open VideoRelay.System

/-! ### What has come -/

/-- The streams after an action. -/
def Action.feed (streams : List Stream) : Action → List Stream
  | .connect => streams ++ [.empty]
  | .send p data => streams.modify p (·.send data)
  | .finish p => streams.modify p (·.finish)
  | .subscribe _ | .stop | .proceed _ => streams

/-- What has come on the producers' connections, in the order in which they came. -/
def streams (actions : List Action) : List Stream := actions.foldl Action.feed []

/-- Where a connection stands on which `stream` has come: nobody has accepted it, the last
session reads from it, or its session is over. -/
inductive Stands (producers : List ProducerSession) (stream : Stream) (p : Nat) : Peer → Prop
  | backlog {arrived : List Incoming} (late : producers.length ≤ p)
      (rest : ∀ capacity, stream.Behind [] ⟨capacity, [], arrived⟩) :
    Stands producers stream p ⟨arrived, .backlog⟩
  | served (last : p + 1 = producers.length) : Stands producers stream p ⟨[], .served p⟩
  | closed (isOver : IsOver producers p) : Stands producers stream p ⟨[], .closed⟩

theorem Stands.keep {producers producers' : List ProducerSession} {stream : Stream} {p : Nat}
    {peer : Peer} (s : Stands producers stream p peer)
    (same : producers'.length = producers.length)
    (isOver : ∀ i, IsOver producers i → IsOver producers' i) : Stands producers' stream p peer := by
  cases s with
  | backlog late rest => exact .backlog (same ▸ late) rest
  | served last => exact .served (same ▸ last)
  | closed ended => exact .closed (isOver p ended)

/-- The server goes on, and everything is where it belongs. -/
structure Running (config : ServerConfig) (streams : List Stream) (sent : List (List Packet))
    (history : List System.Event) (r : Relay) : Prop where
  config_eq : r.config = config
  goesOn : r.outcome? = none
  peaceful : r.inner.Peaceful config.hub streams sent history
  /-- Whoever is registered has a session. -/
  complete : r.inner.system.writers.length = r.inner.system.hub.nextId
  joining : Hub.joiners r.inner.system.hub.upcoming = (r.joining?.map (·.1)).toList
  reading : ∀ link, link ∈ r.arriving ∨ (∃ ticket, r.joining? = some (ticket, link)) → link.IsNew
  accounted : streams.length = r.peers.length
  stands : ∀ p peer stream, r.peers[p]? = some peer → streams[p]? = some stream →
    Stands r.inner.system.producers stream p peer

namespace Running

variable {config : ServerConfig} {streams : List Stream} {sent : List (List Packet)}
  {history : List System.Event} {r r' : Relay}

theorem start (policy : config.hub.policy = .block) :
    Running config [] [] [] (Relay.start config) where
  config_eq := rfl
  goesOn := rfl
  peaceful := .start config.hub policy
  complete := rfl
  joining := rfl
  reading := by
    rintro link (mem | ⟨ticket, none⟩)
    · cases mem
    · cases none
  accounted := rfl
  stands _ _ _ found := by cases found

/-- To each connection belongs what has come on it. -/
theorem stream (g : Running config streams sent history r) {p : Nat} {peer : Peer}
    (found : r.peers[p]? = some peer) :
    ∃ stream, streams[p]? = some stream ∧ Stands r.inner.system.producers stream p peer := by
  have known : p < streams.length := g.accounted ▸ (List.getElem?_eq_some_iff.mp found).1
  have there : streams[p]? = some streams[p] := List.getElem?_eq_getElem known
  exact ⟨_, there, g.stands p peer _ found there⟩

/-- Connections stand as they did while no session begins. -/
theorem stillStands (g : Running config streams sent history r) {s' : System}
    (kept : Simulation.Kept r.inner.system s') (p : Nat) (peer : Peer) (stream : Stream)
    (found : r.peers[p]? = some peer) (onStream : streams[p]? = some stream) :
    Stands s'.producers stream p peer :=
  (g.stands p peer stream found onStream).keep kept.producers kept.isOver

/-! ### What comes from outside -/

theorem connect (g : Running config streams sent history r) :
    Running config (streams ++ [.empty]) sent history r.connect := by
  have running : r.isRunning = true := by rw [isRunning, g.goesOn]; rfl
  refine ⟨g.config_eq, g.goesOn, g.peaceful.connect _, g.complete, g.joining, g.reading, ?_, ?_⟩
  · simp [Relay.connect, g.accounted]
  · intro p peer stream found onStream
    rw [Relay.connect, running] at found
    rcases eq_or_of_getElem?_concat found with ⟨rfl, rfl⟩ | found
    · rw [← g.accounted, List.getElem?_concat_length] at onStream
      cases onStream
      refine .backlog ?_ fun capacity => ⟨[], rfl, [], [], rfl, .done, rfl⟩
      exact g.accounted ▸ g.peaceful.supplied.length_le
    · have known := (List.getElem?_eq_some_iff.mp found).1
      rw [List.getElem?_append_left (g.accounted ▸ known)] at onStream
      exact g.stands p peer stream found onStream

/-- Something comes on a connection: it is kept for the session, read by it, or nobody
cares any more. -/
theorem deliver (g : Running config streams sent history r) (p : Nat) {item : Incoming}
    {f : Stream → Stream}
    (early : ∀ (stream : Stream) (source : Source), stream.Behind [] source →
      (f stream).Behind [] { source with arrived := source.arrived ++ [item] })
    (inTime : ∀ (q : ProducerSession) (stream : Stream) (packets : List Packet),
      q.Follows stream packets → (q.arrive [item]).Follows (f stream) packets)
    (late : ∀ (q : ProducerSession) (stream : Stream) (packets : List Packet) result,
      q.Follows stream packets → q.HasEnded result → q.Follows (f stream) packets) :
    Running config (streams.modify p f) sent history (r.deliver p item) := by
  have accounted : (streams.modify p f).length = r.peers.length :=
    (List.length_modify ..).trans g.accounted
  -- The others stand as they did.
  have others {producers : List ProducerSession}
      (same : producers.length = r.inner.system.producers.length)
      (isOver : ∀ i, IsOver r.inner.system.producers i → IsOver producers i) {q : Nat} {peer : Peer}
      {stream : Stream} (other : p ≠ q) (found : r.peers[q]? = some peer)
      (onStream : (streams.modify p f)[q]? = some stream) : Stands producers stream q peer := by
    rw [List.getElem?_modify_ne _ _ other] at onStream
    exact (g.stands q peer stream found onStream).keep same isOver
  rw [Relay.deliver]
  cases found : r.peers[p]? with
  | none =>
    have unknown : streams.length ≤ p := g.accounted ▸ List.getElem?_eq_none_iff.mp found
    rw [List.modify_eq_self unknown]
    exact g
  | some peer =>
    obtain ⟨stream, onStream, stands⟩ := g.stream found
    have here : (streams.modify p f)[p]? = some (f stream) := by
      rw [List.getElem?_modify_eq, onStream]
      rfl
    cases stands with
    | @backlog arrived out rest =>
      have peaceful := g.peaceful.unseen (g := f) p fun q _ _ there =>
        absurd (List.getElem?_eq_some_iff.mp there).1 (Nat.not_lt.mpr out)
      refine { g with peaceful, accounted := accounted.trans List.length_set.symm, stands := ?_ }
      intro q peer stream' there onStream'
      rcases eq_or_of_getElem?_set there with ⟨rfl, rfl⟩ | ⟨other, there⟩
      · cases here.symm.trans onStream'
        exact .backlog out fun capacity => early stream _ (rest capacity)
      · exact others rfl (fun _ isOver => isOver) other there onStream'
    | served last =>
      obtain ⟨s', acted, peaceful, hub, kept⟩ :=
        g.peaceful.arrive p [item] fun q stream packets _ => inTime q stream packets
      show Running config _ sent history { r with inner := (r.inner.act (.arrive p [item])).1 }
      rw [acted]
      refine ⟨g.config_eq, g.goesOn, peaceful, ?_, ?_, g.reading, accounted, ?_⟩
      · show s'.writers.length = s'.hub.nextId
        rw [kept.writers, hub, g.complete]
      · show Hub.joiners s'.hub.upcoming = _
        rw [hub, g.joining]
      · intro q peer stream' there onStream'
        by_cases mine : p = q
        · subst mine
          cases found.symm.trans there
          exact .served (last.trans kept.producers.symm)
        · exact others kept.producers kept.isOver mine there onStream'
    | closed isOver =>
      obtain ⟨own, result, there, ended⟩ := isOver
      have peaceful := g.peaceful.unseen (g := f) p fun q stream packets there' follows => by
        cases there.symm.trans there'
        exact late own stream packets result follows (.inr ended)
      refine { g with peaceful, accounted, stands := ?_ }
      intro q peer stream' found' onStream'
      by_cases mine : p = q
      · subst mine
        cases found.symm.trans found'
        exact .closed ⟨own, result, there, ended⟩
      · exact others rfl (fun _ isOver => isOver) mine found' onStream'

theorem send (g : Running config streams sent history r) (p : Nat) (data : Bytes) :
    Running config (streams.modify p (·.send data)) sent history (r.send p data) := by
  rw [Relay.send]
  split
  · rename_i empty
    have same : (fun s : Stream => s.send data) = id := by
      funext s
      rw [Stream.send, empty, List.append_nil, ite_self, id]
    rw [same, List.modify_id]
    exact g
  · rename_i some_data
    exact g.deliver p (fun _ _ rest => rest.send some_data)
      (fun _ _ _ follows => follows.send some_data)
      (fun _ _ _ _ follows ended => follows.send_of_ended ended data)

theorem finish (g : Running config streams sent history r) (p : Nat) :
    Running config (streams.modify p (·.finish)) sent history (r.finish p) :=
  g.deliver p (fun _ _ rest => rest.finish) (fun _ _ _ follows => follows.finish)
    (fun _ _ _ _ follows ended => follows.finish_of_ended ended)

theorem subscribe (g : Running config streams sent history r) {link : Link} (new : link.IsNew) :
    Running config streams sent history (r.subscribe link) := by
  have running : r.isRunning = true := by rw [isRunning, g.goesOn]; rfl
  rw [Relay.subscribe, if_pos running]
  refine { g with reading := ?_ }
  rintro l (mem | joining)
  · rcases List.mem_append.mp mem with mem | mem
    · exact g.reading l (.inl mem)
    · rw [List.mem_singleton.mp mem]
      exact new
  · exact g.reading l (.inr joining)

/-! ### What the server does -/

theorem not_served (nobody : r.current? = none) {p : Nat} {peer : Peer}
    (found : r.peers[p]? = some peer) (session : Nat) : peer.state ≠ .served session := by
  intro served
  have known := (List.getElem?_eq_some_iff.mp found).1
  have unserved := List.findSome?_eq_none_iff.mp nobody p (List.mem_range.mpr known)
  simp [found, served] at unserved

/-- Where nobody is served, all that were are done with. -/
theorem allOver (g : Running config streams sent history r) (nobody : r.current? = none) :
    ∀ i < r.inner.system.producers.length, IsOver r.inner.system.producers i := by
  intro i known
  have inRange : i < r.peers.length :=
    g.accounted ▸ Nat.lt_of_lt_of_le known g.peaceful.supplied.length_le
  have found : r.peers[i]? = some r.peers[i] := List.getElem?_eq_getElem inRange
  obtain ⟨stream, -, stands⟩ := g.stream found
  have unserved := not_served nobody found i
  generalize r.peers[i] = peer at stands unserved
  cases stands with
  | backlog late => exact absurd known (Nat.not_lt.mpr late)
  | served => exact absurd rfl unserved
  | closed isOver => exact isOver

/-- The first in the backlog is the first without a session. -/
theorem firstInBacklog?_eq_some (g : Running config streams sent history r) {p : Nat} {peer : Peer}
    (first : r.firstInBacklog? = some (p, peer)) :
    p = r.inner.system.producers.length ∧ r.peers[p]? = some peer ∧ peer.state = .backlog := by
  obtain ⟨i, known, here, earlier⟩ := findSome?_range first
  obtain ⟨rfl, found, waits⟩ : i = p ∧ r.peers[i]? = some peer ∧ peer.state = .backlog := by
    cases found : r.peers[i]? with
    | none =>
      rw [found] at here
      cases here
    | some other =>
      simp only [found] at here
      split at here
      · rename_i waits
        cases here
        exact ⟨rfl, rfl, waits⟩
      · cases here
  refine ⟨?_, found, waits⟩
  obtain ⟨stream, -, stands⟩ := g.stream found
  cases stands with
  | served => cases waits
  | closed => cases waits
  | backlog late =>
    by_contra more
    -- Otherwise the one before it would wait as well.
    have before : r.inner.system.producers.length < i := by omega
    have inRange := Nat.lt_trans before known
    have there := List.getElem?_eq_getElem inRange
    obtain ⟨stream, -, stands⟩ := g.stream there
    have notFirst := earlier _ before
    simp only [there] at notFirst
    generalize r.peers[r.inner.system.producers.length] = peer at stands notFirst
    cases stands with
    | backlog => simp at notFirst
    | served last => omega
    | closed isOver =>
      obtain ⟨q, result, inRange, -⟩ := isOver
      exact absurd (List.getElem?_eq_some_iff.mp inRange).1 (Nat.lt_irrefl _)

theorem accept (g : Running config streams sent history r) (accepts : r.accept? = some r') :
    Running config streams (sent ++ [[]]) history r' := by
  rw [accept?.eq_def] at accepts
  split at accepts
  · rename_i p peer going nobody first
    obtain ⟨rfl, found, waits⟩ := g.firstInBacklog?_eq_some first
    obtain ⟨stream, onStream, stands⟩ := g.stream found
    cases stands with
    | served => cases waits
    | closed => cases waits
    | @backlog arrived late rest =>
      obtain ⟨s', acted, peaceful, hub, writers, producers⟩ := g.peaceful.startProducer
        (g.allOver nobody) onStream (rest r.config.readBuffer)
      simp only [acted] at accepts
      cases accepts
      have isOver (i : Nat) (ended : IsOver r.inner.system.producers i) :
          IsOver s'.producers i := by
        obtain ⟨q, result, there, ended⟩ := ended
        refine ⟨q, result, ?_, ended⟩
        rw [producers, List.getElem?_append_left (List.getElem?_eq_some_iff.mp there).1, there]
      have length : s'.producers.length = r.inner.system.producers.length + 1 := by
        rw [producers, List.length_append, List.length_singleton]
      refine ⟨g.config_eq, g.goesOn, peaceful, ?_, ?_, g.reading, ?_, ?_⟩
      · show s'.writers.length = s'.hub.nextId
        rw [writers, hub, g.complete]
        rfl
      · show Hub.joiners s'.hub.upcoming = _
        rw [hub, ← g.joining]
        rfl
      · exact g.accounted.trans List.length_set.symm
      · intro q peer stream' there onStream'
        show Stands s'.producers stream' q peer
        rcases eq_or_of_getElem?_set there with ⟨rfl, rfl⟩ | ⟨other, there⟩
        · exact .served length.symm
        · have stands := g.stands q peer stream' there onStream'
          cases stands with
          | backlog late' rest' => exact .backlog (by omega) rest'
          | served last => exact absurd rfl (not_served nobody there q)
          | closed ended => exact .closed (isOver q ended)
  · cases accepts

theorem current?_eq_some {p session : Nat} (serves : r.current? = some (p, session)) :
    ∃ peer, r.peers[p]? = some peer ∧ peer.state = .served session := by
  obtain ⟨i, -, here, -⟩ := findSome?_range serves
  cases found : r.peers[i]? with
  | none =>
    rw [found] at here
    cases here
  | some peer =>
    rw [found] at here
    obtain ⟨arrived, state⟩ := peer
    cases state with
    | served session =>
      cases here
      exact ⟨_, found, rfl⟩
    | backlog => cases here
    | closed => cases here

/-- What ends a session but the end of its stream concerns its connection alone. -/
theorem release (g : Running config streams sent history r) (releases : r.release? = some r') :
    Running config streams sent history r' := by
  rw [release?.eq_def] at releases
  split at releases
  · cases releases
  · rename_i p session serves
    obtain ⟨peer, found, served⟩ := current?_eq_some serves
    obtain ⟨stream, -, stands⟩ := g.stream found
    cases stands with
    | backlog => cases served
    | closed => cases served
    | served last =>
      cases served
      split at releases
      · cases releases
      · rename_i result came
        obtain ⟨q, there, result?⟩ := Option.bind_eq_some_iff.mp came
        have ended := ProducerSession.phase_of_result? result?
        have isOver : IsOver r.inner.system.producers p := ⟨q, result, there, ended⟩
        have g' : Running config streams sent history
            { r with peers := r.peers.set p ⟨[], .closed⟩ } := by
          refine { g with accounted := g.accounted.trans List.length_set.symm, stands := ?_ }
          intro i peer stream' here onStream'
          rcases eq_or_of_getElem?_set here with ⟨rfl, rfl⟩ | ⟨other, here⟩
          · exact .closed isOver
          · exact g.stands i peer stream' here onStream'
        cases result with
        | ok stats =>
          cases releases
          exact g'
        | error cause =>
          obtain ⟨own, packets, -, -, follows⟩ := g.peaceful.supplied.follows p q there
          have concerned : cause.isConnectionScoped = true := by
            cases follows with
            | amid busy => exact absurd busy (ProducerSession.HasEnded.not_isBusy (.inr ended))
            | settled ended' settled told =>
              rcases ended' with leaving | ended'
              · cases leaving.symm.trans ended
              · cases ended'.symm.trans ended
                exact isConnectionScoped_of_ending told.symm
          simp only [concerned, if_true] at releases
          cases releases
          exact g'

theorem join (g : Running config streams sent history r) (joins : r.join? = some r') :
    ∃ events, Running config streams sent (history ++ events) r' := by
  rw [join?.eq_def] at joins
  split at joins
  · rename_i link rest going nobody arriving
    obtain ⟨s', acted, peaceful, plain, kept⟩ := g.peaceful.register
    simp only [acted] at joins
    have unanswered : ¬ ([Event.hub (.called ⟨r.inner.system.hub.nextTicket, .register⟩)].any
        (· = .hub (.returned r.inner.system.hub.nextTicket .closed)) = true) := by simp
    rw [if_neg unanswered] at joins
    cases joins
    refine ⟨_, g.config_eq, g.goesOn, peaceful, ?_, ?_, ?_, g.accounted, g.stillStands kept⟩
    · show s'.writers.length = s'.hub.nextId
      rw [kept.writers, plain.nextId_eq, g.complete]
      rfl
    · show Hub.joiners s'.hub.upcoming = [r.inner.system.hub.nextTicket]
      have inLine := plain.joiners
      rw [g.joining, nobody] at inLine
      exact inLine.symm
    · rintro other (mem | ⟨ticket, same⟩)
      · exact g.reading other (.inl (arriving ▸ List.mem_cons_of_mem _ mem))
      · cases same
        exact g.reading link (.inl (arriving ▸ List.mem_cons_self))
  · cases joins

/-! ### What proceeds inside -/

/-- Only what happens at the hub matters to the server. -/
theorem foldl_observe (r : Relay) (events : List System.Event) :
    events.foldl Relay.observe r = ((hubEvents events).map .hub).foldl Relay.observe r := by
  induction events generalizing r with
  | nil => rfl
  | cons e events ih =>
    cases e with
    | hub e => exact ih (r.observe (.hub e))
    | _ => exact ih r

/-- Nothing comes of what is told to others. -/
theorem foldl_observe_eq_self (r : Relay) (heard : List Hub.Event)
    (silent : ∀ own link, r.joining? = some (own, link) →
      ∀ reply, .returned own reply ∉ heard) :
    (heard.map Event.hub).foldl Relay.observe r = r := by
  induction heard with
  | nil => rfl
  | cons e heard ih =>
    have same : r.observe (.hub e) = r := by
      cases e with
      | returned ticket reply =>
        rw [Relay.observe]
        cases joining : r.joining? with
        | none => rfl
        | some request =>
          obtain ⟨own, link⟩ := request
          refine if_neg ?_
          rintro rfl
          exact silent _ link joining reply List.mem_cons_self
      | _ => rfl
    rw [List.map_cons, List.foldl_cons, same]
    exact ih fun own link joining reply mem =>
      silent own link joining reply (List.mem_cons_of_mem _ mem)

/-- Whoever is registered gets a session. -/
theorem foldl_observe_registered {ticket id : Nat} {link : Link} {inner : Simulation}
    (joining : r.joining? = some (ticket, link))
    (acted : { r.inner with links := r.inner.links ++ [link] }.act
      (.startWriter id r.config.writeBuffer) = (inner, [])) :
    (List.map Event.hub [.began ⟨ticket, .register⟩, .registered ticket id,
      .returned ticket (.subscribed id)]).foldl Relay.observe r =
        { r with inner, joining? := none } := by
  simp only [List.map_cons, List.map_nil, List.foldl_cons, List.foldl_nil, Relay.observe,
    joining, if_true, acted]

/-- Nothing has been taken from whoever is registered only now. -/
theorem noneTaken (g : Running config streams sent history r) {sent' : List (List Packet)}
    {events : List System.Event} {inner : Simulation} {ticket : Nat}
    (peaceful : inner.Peaceful config.hub streams sent' (history ++ events))
    (told : hubEvents events = [.began ⟨ticket, .register⟩,
      .registered ticket r.inner.system.hub.nextId,
      .returned ticket (.subscribed r.inner.system.hub.nextId)]) :
    Hub.takenBy r.inner.system.hub.nextId (hubEvents (history ++ events)) = [] := by
  have before := g.peaceful.run.sound.run
  have after := peaceful.run.sound.run
  have unknown : r.inner.system.hub.nextId ∉ Hub.registrations (hubEvents history) := by
    rw [before.registrations_eq, List.mem_range]
    exact Nat.lt_irrefl _
  have known : r.inner.system.hub.nextId < inner.system.hub.nextId := by
    rw [← List.mem_range, ← after.registrations_eq, hubEvents_append, Hub.registrations_append,
      told]
    exact List.mem_append_right _ List.mem_cons_self
  have taken := after.takenBy_isPrefix peaceful.policy known
  rw [hubEvents_append, Hub.packetsSince_append_of_not_mem unknown, told,
    Hub.packetsSince_eq_nil rfl] at taken
  rw [hubEvents_append, told]
  exact List.prefix_nil.mp taken

theorem inside (g : Running config streams sent history r) {part : Simulation.Part}
    (proceeds : r.inside? part = some r') :
    ∃ sent' events, Running config streams sent' (history ++ events) r' := by
  rw [Relay.inside?, Option.map_eq_some_iff] at proceeds
  obtain ⟨⟨inner, events⟩, proceeds, rfl⟩ := proceeds
  obtain ⟨sent', step⟩ := g.peaceful.proceed proceeds
  obtain ⟨peaceful, plain, kept, noJoiner⟩ := step
  have nextId := plain.nextId_eq
  have inLine := plain.joiners
  rw [noJoiner, List.append_nil, g.joining] at inLine
  refine ⟨sent', events, ?_⟩
  simp only
  rw [foldl_observe]
  rcases plain.registers_or g.peaceful.calm with ⟨noOne, begun, silent⟩ | ⟨ticket, told⟩
  · rw [foldl_observe_eq_self]
    · rw [begun, List.nil_append] at inLine
      rw [noOne] at nextId
      refine ⟨g.config_eq, g.goesOn, peaceful, ?_, inLine.symm, g.reading, g.accounted,
        g.stillStands kept⟩
      rw [kept.writers, nextId, g.complete]
      rfl
    · intro own link joining reply
      refine silent own ?_ reply
      rw [g.joining]
      exact Option.mem_toList.mpr (congrArg (Option.map _) joining)
  · -- Whoever is registered is the one that joins.
    rw [told] at inLine nextId ⊢
    obtain ⟨link, joining, noneLeft⟩ : ∃ link, r.joining? = some (ticket, link) ∧
        Hub.joiners inner.system.hub.upcoming = [] := by
      cases joining : r.joining? with
      | none =>
        rw [joining] at inLine
        cases inLine
      | some request =>
        rw [joining] at inLine
        obtain ⟨same, noneLeft⟩ := List.cons_eq_cons.mp inLine
        exact ⟨request.2, congrArg some (Prod.ext same rfl), noneLeft.symm⟩
    have number : inner.system.writers.length = r.inner.system.hub.nextId :=
      kept.writers.trans g.complete
    obtain ⟨s', acted, peaceful', hub, writers, producers⟩ := peaceful.startWriter
      r.config.writeBuffer (g.reading link (.inr ⟨ticket, joining⟩)) (by rw [number, nextId]; simp)
      (by rw [number]; exact g.noneTaken peaceful told)
    rw [number] at acted
    rw [foldl_observe_registered (r := { r with inner }) joining acted]
    refine ⟨g.config_eq, g.goesOn, peaceful', ?_, ?_, ?_, g.accounted, ?_⟩
    · show s'.writers.length = s'.hub.nextId
      rw [writers, hub, number]
      exact nextId.symm
    · show Hub.joiners s'.hub.upcoming = []
      rw [hub]
      exact noneLeft
    · rintro other (mem | ⟨ticket, same⟩)
      · exact g.reading other (.inl mem)
      · cases same
    · intro p peer stream found onStream
      show Stands s'.producers stream p peer
      rw [producers]
      exact g.stillStands kept p peer stream found onStream

/-- Short of being told to stop, the server goes on. -/
theorem step (g : Running config streams sent history r) {action : Action}
    (unstopped : action ≠ .stop) (reading : ∀ link, action = .subscribe link → link.IsNew)
    (hs : r.step? action = some r') :
    ∃ sent' events, Running config (action.feed streams) sent' (history ++ events) r' := by
  -- Most actions do nothing at the hub.
  have quiet {streams' : List Stream} {sent' : List (List Packet)} {r' : Relay}
      (g' : Running config streams' sent' history r') :
      ∃ sent' events, Running config streams' sent' (history ++ events) r' :=
    ⟨sent', [], by rwa [List.append_nil]⟩
  cases action with
  | connect =>
    cases hs
    exact quiet g.connect
  | send p data =>
    cases hs
    exact quiet (g.send p data)
  | finish p =>
    cases hs
    exact quiet (g.finish p)
  | subscribe link =>
    cases hs
    exact quiet (g.subscribe (reading link rfl))
  | stop => exact absurd rfl unstopped
  | proceed part =>
    cases part with
    | inner part => exact g.inside hs
    | accept => exact quiet (g.accept hs)
    | release => exact quiet (g.release hs)
    | join =>
      obtain ⟨events, g'⟩ := g.join hs
      exact ⟨sent, events, g'⟩

end Running

/-! ### Runs of a server -/

variable {config : ServerConfig} {first later : List Action} {action : Action} {r r' r₀ : Relay}

theorem Run.last (run : Run config (first ++ [action]) r) :
    ∃ r₁, Run config first r₁ ∧ r₁.step? action = some r := by
  generalize all : first ++ [action] = actions at run
  cases run with
  | start => cases List.append_ne_nil_of_right_ne_nil _ (List.cons_ne_nil _ _) all
  | @step actions action' r₁ r run hs =>
    obtain ⟨rfl, same⟩ := List.append_inj' all rfl
    cases same
    exact ⟨r₁, run, hs⟩

/-- The actions determine the state. -/
theorem Run.unique (run : Run config first r) (run₀ : Run config first r₀) : r = r₀ := by
  induction first using List.reverseRecOn generalizing r r₀ with
  | nil =>
    have empty {r : Relay} (run : Run config [] r) : r = Relay.start config := by
      generalize none : ([] : List Action) = actions at run
      cases run with
      | start => rfl
      | step => cases List.append_ne_nil_of_right_ne_nil _ (List.cons_ne_nil _ _) none.symm
    rw [empty run, empty run₀]
  | append_singleton first action ih =>
    obtain ⟨r₁, before, hs⟩ := run.last
    obtain ⟨r₂, before₀, hs₀⟩ := run₀.last
    cases ih before before₀
    exact Option.some.inj (hs.symm.trans hs₀)

theorem Run.perform (run : Run config first r) (performs : later.foldlM step? r = some r') :
    Run config (first ++ later) r' := by
  induction later generalizing first r with
  | nil =>
    cases performs
    rwa [List.append_nil]
  | cons action later ih =>
    obtain ⟨r₁, hs, rest⟩ := Option.bind_eq_some_iff.mp performs
    have run' := ih (run.step hs) rest
    rwa [List.append_assoc] at run'

/-- Where everything runs until nothing can proceed, the parts proceed in some order. -/
theorem Run.exists_run (run : Run config first r) (fuel : Nat) :
    ∃ parts : List Part, Run config (first ++ parts.map .proceed) (r.run fuel) := by
  induction fuel generalizing first r with
  | zero => exact ⟨[], by rwa [List.map_nil, List.append_nil]⟩
  | succ fuel ih =>
    rw [Relay.run]
    cases next : r.next? with
    | none => exact ⟨[], by rwa [List.map_nil, List.append_nil]⟩
    | some r₁ =>
      obtain ⟨part, -, proceeds⟩ := List.exists_of_findSome?_eq_some next
      have hs : r.step? (.proceed part) = some r₁ := proceeds
      obtain ⟨parts, run'⟩ := ih (run.step hs)
      exact ⟨part :: parts, by rwa [List.append_assoc] at run'⟩

/-- Nothing comes from outside meanwhile. -/
theorem streams_append_proceed (actions : List Action) (parts : List Part) :
    streams (actions ++ parts.map .proceed) = streams actions := by
  rw [streams, List.foldl_append, List.foldl_map]
  exact List.foldl_fixed parts

/-- A server that goes on does so until it is told to stop. -/
theorem Run.running {sent : List (List Packet)} {history : List System.Event}
    (before : Run config first r₀) (g : Running config (streams first) sent history r₀)
    (run : Run config (first ++ later) r) (unstopped : .stop ∉ later)
    (reading : ∀ link, .subscribe link ∈ later → link.IsNew) :
    ∃ sent' events, Running config (streams (first ++ later)) sent' (history ++ events) r := by
  induction later using List.reverseRecOn generalizing r with
  | nil =>
    rw [List.append_nil] at run ⊢
    cases run.unique before
    exact ⟨sent, [], by rwa [List.append_nil]⟩
  | append_singleton later action ih =>
    rw [← List.append_assoc] at run
    obtain ⟨r₁, run, hs⟩ := run.last
    obtain ⟨sent₁, events₁, g₁⟩ := ih run (fun mem => unstopped (List.mem_append_left _ mem))
      fun link mem => reading link (List.mem_append_left _ mem)
    have last : action ∈ later ++ [action] := List.mem_append_right _ List.mem_cons_self
    obtain ⟨sent₂, events₂, g₂⟩ := g₁.step (fun same => unstopped (same ▸ last))
      (fun link same => reading link (same ▸ last)) hs
    refine ⟨sent₂, events₁ ++ events₂, ?_⟩
    rw [← List.append_assoc, ← List.append_assoc, streams, List.foldl_append]
    exact g₂

theorem Run.exists_running (run : Run config first r) (policy : config.hub.policy = .block)
    (unstopped : .stop ∉ first) (reading : ∀ link, .subscribe link ∈ first → link.IsNew) :
    ∃ sent history, Running config (streams first) sent history r := by
  have whole : Run config ([] ++ first) r := run
  obtain ⟨sent, events, g⟩ := Run.start.running (Running.start policy) whole unstopped reading
  exact ⟨sent, _, g⟩

/-! ### On a runtime -/

variable {runtime : Runtime}

/-- Where the hub does not break down, the parts proceed on a runtime as on any. -/
theorem nextOn?_of_holds (holds : r.inner.system.hub.breaksDown runtime = false) :
    r.nextOn? runtime = r.next? := by
  have same : r.proceedOn? runtime = r.proceed? := by
    funext part
    cases part with
    | inner part =>
      rw [proceedOn?, Simulation.proceedOn?_of_holds holds]
      rfl
    | _ => rfl
  rw [nextOn?, next?, same]

/-- With room for its queues a server that goes on does so as on any runtime. -/
theorem Running.runOn_eq_run {streams : List Stream} {sent : List (List Packet)}
    {history : List System.Event} (g : Running config streams sent history r)
    (room : config.hub.queueRoom ≤ runtime.queueLimit) (fuel : Nat) :
    r.runOn runtime fuel = r.run fuel := by
  induction fuel generalizing sent history r with
  | zero => rfl
  | succ fuel ih =>
    rw [runOn, run, nextOn?_of_holds (g.peaceful.holds room)]
    cases next : r.next? with
    | none => rfl
    | some r₁ =>
      obtain ⟨part, -, proceeds⟩ := List.exists_of_findSome?_eq_some next
      have hs : r.step? (.proceed part) = some r₁ := proceeds
      obtain ⟨sent₁, events, g₁⟩ := g.step (by simp) (by simp) hs
      exact ih g₁

/-- What a server that nobody stops settles to is one of the states that its parts lead to. -/
theorem Run.settle (run : Run config first r) (policy : config.hub.policy = .block)
    (unstopped : .stop ∉ first) (reading : ∀ link, .subscribe link ∈ first → link.IsNew)
    (room : config.hub.queueRoom ≤ Runtime.standard.queueLimit) :
    ∃ parts : List Part, Run config (first ++ parts.map .proceed) r.settle := by
  obtain ⟨sent, history, g⟩ := run.exists_running policy unstopped reading
  rw [Relay.settle, g.runOn_eq_run room]
  exact run.exists_run _

end Relay

end VideoRelay

/-
A simulation that nobody disturbs.

* `Peaceful` — the hub is calm, the subscribers are attended to, and what producers have
  submitted, one after the other, is what the hub was called for;
* `Peaceful.proceed` — it stays so whatever part proceeds (`PeacefulStep`);
* `Peaceful.connect`, `Peaceful.arrive`, `Peaceful.register`, `Peaceful.startProducer`,
  `Peaceful.startWriter` — and whatever a server does to it.

Design notes: the streams and what has been submitted of them are not in the state, so they
are parameters; each step says how they go on.
-/
import VideoRelay.Proofs.Hub.Breakdown
import VideoRelay.Proofs.Hub.FanOut
import VideoRelay.Proofs.Hub.Lineup
import VideoRelay.Proofs.System.Attendance

open VideoRelay.Frame

namespace VideoRelay

namespace Hub

/-- What the hub and its callers do by themselves. -/
inductive Housekeeping : Action → Prop
  | enqueue : Housekeeping .enqueue
  | work : Housekeeping .work

theorem Housekeeping.isPlain {action : Action} (k : Housekeeping action) : action.IsPlain := by
  cases k with
  | enqueue => exact .enqueue
  | work => exact .work

theorem Housekeeping.noCall {action : Action} {h h' : Hub} {events : List Event}
    (k : Housekeeping action) (tr : Transition h action events h') : calls events = [] := by
  cases tr with
  | caller s => cases k <;> cases s <;> rfl
  | reader s => cases k <;> cases s
  | work own s => exact s.line.1

end Hub

theorem ProducerSession.hear_of_ended {p : ProducerSession} {result : Except Error SessionStats}
    (ended : p.phase = .ended result) (events : List Hub.Event) : p.hear events = p := by
  refine hear_eq_self fun ticket reply _ => answer_of_not_submitting ?_ reply
  rw [ended]
  exact Phase.noConfusion

namespace Simulation

open VideoRelay.System

/-- Between two actions of a simulation whose hub is calm and whose sessions do their
work. -/
structure Peaceful (config : HubConfig) (streams : List Stream) (sent : List (List Packet))
    (history : List System.Event) (sim : Simulation) : Prop where
  run : System.Run config history sim.system
  client : 0 < sim.system.clientHandles
  calm : sim.system.hub.Calm
  /-- No call has been lost. -/
  aligned : Hub.Aligned (hubEvents history) sim.system.hub
  noTap : sim.system.taps = []
  attended : Attended (hubEvents history) sim.system.writers sim.links
  supplied : Supplied streams sent sim.system.producers
    (Hub.submitters sim.system.hub.waiting)
  /-- Nobody but the producers' sessions has submitted packets. -/
  submitted : Hub.packetsOf (Hub.calls (hubEvents history)) = sent.flatten

/-- Where the hub does not break down, a part proceeds on a runtime as on any. -/
theorem proceedOn?_of_holds {r : Runtime} {sim : Simulation}
    (holds : sim.system.hub.breaksDown r = false) (part : Part) :
    sim.proceedOn? r part = sim.proceed? part := by
  cases part with
  | hub =>
    rw [proceedOn?, Hub.workOn?_of_holds holds]
    simp only [proceed?, act?, System.step?, stepHub?, permits, if_pos, Option.map_map]
    rfl
  | _ => rfl

/-- No session has begun, and those that were over are so still. -/
structure Kept (s s' : System) : Prop where
  writers : s'.writers.length = s.writers.length
  producers : s'.producers.length = s.producers.length
  isOver : ∀ i, IsOver s.producers i → IsOver s'.producers i

/-- A step after which all is still in peace, and by which nobody asks to be registered. -/
structure PeacefulStep (config : HubConfig) (streams : List Stream) (sent' : List (List Packet))
    (history : List System.Event) (sim : Simulation) (events : List System.Event)
    (sim' : Simulation) : Prop where
  peaceful : Peaceful config streams sent' (history ++ events) sim'
  plain : Hub.PlainStep sim.system.hub (hubEvents events) sim'.system.hub
  kept : Kept sim.system sim'.system
  noJoiner : Hub.joiners (Hub.calls (hubEvents events)) = []

theorem Kept.absorb {s s₁ : System} (k : Kept s s₁) (hub : Hub) (heard : List Hub.Event) :
    Kept s (s₁.absorb hub heard).1 := by
  rw [absorb_fst]
  refine ⟨(List.length_map _).trans k.writers, (List.length_map _).trans k.producers, ?_⟩
  intro i ended
  obtain ⟨p, result, found, isOver⟩ := k.isOver i ended
  refine ⟨p, result, ?_, isOver⟩
  rw [List.getElem?_map, found]
  exact congrArg some (ProducerSession.hear_of_ended isOver heard)

theorem PeacefulStep.absorb {config : HubConfig} {streams : List Stream}
    {sent' : List (List Packet)} {history events : List System.Event} {sim : Simulation}
    {s₁ : System} {hub : Hub} {heard : List Hub.Event} {links : List Link}
    (peaceful : Peaceful config streams sent' (history ++ events)
      { sim with system := (s₁.absorb hub heard).1, links := links })
    (told : hubEvents events = heard) (plain : Hub.PlainStep sim.system.hub heard hub)
    (kept : Kept sim.system s₁) (noJoiner : Hub.joiners (Hub.calls heard) = []) :
    PeacefulStep config streams sent' history sim events
      { sim with system := (s₁.absorb hub heard).1, links := links } := by
  refine ⟨peaceful, ?_, kept.absorb hub heard, by rwa [told]⟩
  rw [told, absorb_fst]
  exact plain

namespace Peaceful

variable {config : HubConfig} {streams : List Stream} {sent : List (List Packet)}
  {history events : List System.Event} {sim : Simulation} {s' : System}

theorem start (config : HubConfig) (policy : config.policy = .block) :
    Peaceful config [] [] [] (Simulation.start config) where
  run := .start
  client := Nat.one_pos
  calm := Hub.calm_start policy
  aligned := rfl
  noTap := rfl
  attended := ⟨rfl, fun _ _ _ found => by cases found⟩
  supplied := by
    constructor
    · rfl
    · exact fun _ _ found => by cases found
    · exact fun _ _ found => by cases found
    · exact fun _ mem => by cases mem
  submitted := rfl

theorem handle (p : Peaceful config streams sent history sim) : 0 < sim.system.hub.handles :=
  p.run.sound.provided.client p.client

theorem policy (p : Peaceful config streams sent history sim) : config.policy ≠ .dropNewest := by
  rw [← p.run.sound.run.config_eq, p.calm.policy]
  exact OverflowPolicy.noConfusion

/-- Whoever acts, it is enough to look at what it does itself and at the hub; then all are
told. -/
theorem absorb (p : Peaceful config streams sent history sim) {action : System.Action}
    {s₁ : System} {hub : Hub} {heard : List Hub.Event}
    (hs : sim.system.step? action = some ((s₁.absorb hub heard).1, events))
    (told : hubEvents events = heard) (plain : Hub.PlainStep sim.system.hub heard hub)
    (client : s₁.clientHandles = sim.system.clientHandles) (noTap : s₁.taps = [])
    {links : List Link}
    (attended : Attended (hubEvents history ++ heard) s₁.writers links)
    {streams' : List Stream} {sent' : List (List Packet)} {tickets : List Nat}
    (supplied : Supplied streams' sent' s₁.producers tickets)
    (waiting : ∀ ticket ∈ tickets, ticket ∈ Hub.submitters hub.waiting ∨
      ∃ reply, .returned ticket reply ∈ heard)
    (grown : sent'.flatten = sent.flatten ++ Hub.packetsOf (Hub.calls heard)) :
    Peaceful config streams' sent' (history ++ events)
      { sim with system := (s₁.absorb hub heard).1, links := links } := by
  have run := p.run.step hs
  rw [absorb_fst] at run ⊢
  constructor
  · exact run
  · exact client ▸ p.client
  · exact p.calm.step plain
  · rw [hubEvents_append, told]
    exact plain.aligned p.aligned
  · exact List.map_eq_nil_iff.mpr noTap
  · rw [hubEvents_append, told]
    exact (attended.hear heard).symm ▸ attended
  · exact supplied.hear plain.not_closed waiting
  · rw [hubEvents_append, told, Hub.calls_append, Hub.packetsOf_append, p.submitted, grown]

/-- Where nothing happens at the hub, but that there are more handles or fewer, there is
nothing to be told. -/
theorem silent (p : Peaceful config streams sent history sim) {action : System.Action}
    (hs : sim.system.step? action = some (s', events)) (told : hubEvents events = []) {n : Nat}
    (same : s'.hub = { sim.system.hub with handles := n })
    (client : s'.clientHandles = sim.system.clientHandles) (noTap : s'.taps = [])
    {links : List Link}
    (attended : Attended (hubEvents history) s'.writers links)
    {streams' : List Stream} {sent' : List (List Packet)}
    (supplied : Supplied streams' sent' s'.producers (Hub.submitters sim.system.hub.waiting))
    (grown : sent'.flatten = sent.flatten) :
    Peaceful config streams' sent' (history ++ events)
      { sim with system := s', links := links } := by
  have plain : Hub.PlainStep sim.system.hub [] s'.hub := same ▸ .handles n
  have hs : sim.system.step? action = some ((s'.absorb s'.hub []).1, events) := hs
  refine p.absorb hs told plain client noTap ?_ supplied ?_ ?_
  · rwa [List.append_nil]
  · rw [same]
    exact fun _ waits => .inl waits
  · rw [grown]
    exact (List.append_nil _).symm

/-- Nobody but its session takes packets from a subscriber. -/
theorem noneTaken (p : Peaceful config streams sent history sim) {action : System.Action}
    (hs : sim.system.step? action = some (s', events))
    (other : ∀ i, action.consumer? ≠ some (.writer i)) :
    ∀ i < sim.system.writers.length, Hub.takenBy i (hubEvents events) = [] := by
  intro i known
  have found : sim.system.writers[i]? = some sim.system.writers[i] :=
    List.getElem?_eq_getElem known
  obtain ⟨l, -, attends⟩ := p.attended.link found
  have owner : sim.system.idOf? (.writer i) = some i := by
    rw [idOf?_writer, found]
    exact congrArg some attends.id_eq
  exact ((Step.of_step? hs).foreign p.run.sound.provided p.run.apart owner (other i)).noneTaken

/-! ### What proceeds by itself -/

theorem hub (p : Peaceful config streams sent history sim) {action : Hub.Action}
    (k : Hub.Housekeeping action) (hs : sim.system.step? (.hub action) = some (s', events)) :
    PeacefulStep config streams sent history sim events { sim with system := s' } := by
  have noneTaken := p.noneTaken hs fun _ same => by cases same
  cases Step.of_step? hs with
  | @hub action hub heard permitted hstep =>
    have tr := Hub.Transition.of_step? hstep
    have plain := tr.plain p.calm k.isPlain p.handle
    have told := hubEvents_map_hub heard
    have kept : Kept sim.system
        { sim.system with clientHandles := sim.system.handlesAfter action } :=
      ⟨rfl, rfl, fun _ ended => ended⟩
    rw [told] at noneTaken
    have noCall := k.noCall tr
    refine .absorb (p.absorb hs told plain ?_ p.noTap (p.attended.append noneTaken) p.supplied
      plain.submitters ?_) told plain kept (by rw [noCall]; rfl)
    · cases k <;> rfl
    · rw [noCall]
      exact (List.append_nil _).symm

theorem produce (p : Peaceful config streams sent history sim) {i : Nat}
    (hs : sim.system.step? (.produce i) = some (s', events)) :
    ∃ sent', PeacefulStep config streams sent' history sim events { sim with system := s' } := by
  have noneTaken := p.noneTaken hs fun _ same => by cases same
  cases Step.of_step? hs with
  | @produce i q q' hub heard found hstep =>
    have told := hubEvents_produce i heard
    -- A session that is over takes no step, so this is the last one.
    have busy : ∀ result, q.phase ≠ .ended result := by
      intro result ended
      rw [ProducerSession.step?, ended] at hstep
      cases hstep
    have last : i + 1 = sim.system.producers.length := by
      have known := (List.getElem?_eq_some_iff.mp found).1
      by_contra notLast
      obtain ⟨result, ended⟩ := p.supplied.serial i q found (by omega)
      exact busy result ended
    obtain ⟨stream, packets, onStream, here, follows⟩ := p.supplied.follows i q found
    obtain ⟨follows', plain, noJoiner, waits, waiting⟩ := follows.produced hstep p.calm.live
    have kept : Kept sim.system { sim.system with producers := sim.system.producers.set i q' } := by
      refine ⟨rfl, List.length_set, ?_⟩
      rintro j ⟨r, result, there, ended⟩
      have other : i ≠ j := by
        rintro rfl
        cases there.symm.trans found
        exact busy result ended
      exact ⟨r, result, (List.getElem?_set_ne other).trans there, ended⟩
    rw [told] at noneTaken
    refine ⟨sent.set i (packets ++ Hub.packetsOf (Hub.calls heard)),
      .absorb (p.absorb hs told plain rfl p.noTap (p.attended.append noneTaken)
        (p.supplied.set found last onStream follows' waits waiting) (fun _ mem => .inl mem) ?_)
        told plain kept noJoiner⟩
    exact flatten_set_last here (p.supplied.counted ▸ last) _

/-- What is queued was submitted, and so it fits into a frame. -/
theorem legal (p : Peaceful config streams sent history sim) {id : Nat} :
    ∀ packet ∈ Hub.queuedFor id (hubEvents history), packet.length ≤ limit := by
  intro packet mem
  have since := (p.run.sound.run.queuedFor_isPrefix p.policy id).subset mem
  have begun := (Hub.packetsSince_sublist id _).subset since
  rw [← Hub.packetsOf_begun] at begun
  have called : packet ∈ Hub.packetsOf (Hub.calls (hubEvents history)) := by
    rw [p.aligned, Hub.packetsOf_append]
    exact List.mem_append_left _ begun
  rw [p.submitted] at called
  exact p.supplied.legal packet called

/-- Whoever takes a packet from its subscription may do so, and leaves the others theirs. -/
theorem take (p : Peaceful config streams sent history sim) {id : Nat} {packet : Packet}
    {hub : Hub} (taken : sim.system.hub.take? id = some (hub, [.took id packet])) :
    Hub.PlainStep sim.system.hub [.took id packet] hub ∧ packet.length ≤ limit ∧
      ∀ j, j ≠ id → Hub.takenBy j [.took id packet] = [] := by
  have tr : Hub.Transition sim.system.hub (.take id) [.took id packet] hub := .of_step? taken
  refine ⟨tr.plain p.calm (.take id) p.handle, ?_, fun j other => ?_⟩
  · cases tr with
    | caller s => cases s
    | work own s => cases own
    | reader s =>
      cases s with
      | take id s packet rest found front =>
        have account := p.run.sound.run.account_of_found found
        refine p.legal packet (account.taken.subset (List.mem_append_right _ ?_))
        rw [front]
        exact List.mem_cons_self
  · simp [Ne.symm other]

theorem write (p : Peaceful config streams sent history sim) {i : Nat}
    (hs : sim.system.step? (.write i) = some (s', events)) :
    PeacefulStep config streams sent history sim events { sim with system := s' } := by
  cases Step.of_step? hs with
  | @write i w w' hub heard found hstep =>
    have told := hubEvents_map_hub heard
    obtain ⟨l, there, attends⟩ := p.attended.link found
    have known := (p.run.sound.provided.writers w (List.mem_of_getElem? found)).2
    -- The session's own part, and what the hub makes of it.
    obtain ⟨plain, noCall, others, attends'⟩ : Hub.PlainStep sim.system.hub heard hub ∧
        Hub.calls heard = [] ∧ (∀ j, j ≠ i → Hub.takenBy j heard = []) ∧
        Attends (hubEvents history ++ heard) i w' l := by
      rcases SubscriberSession.step?_working attends.working (p.calm.available_ne_ended known)
        hstep with ⟨packet, taken, rfl, sameId, next⟩ | ⟨rfl, rfl, sameId, working, same⟩
      · obtain ⟨plain, legal, others⟩ := p.take taken
        obtain ⟨working, more⟩ := next legal
        refine ⟨plain, rfl, fun j other => others j (attends.id_eq ▸ other),
          sameId.trans attends.id_eq, working, attends.reading, ?_⟩
        have own : Hub.takenBy i [.took w.id packet] = [packet] := by simp [attends.id_eq]
        rw [more, Hub.takenBy_append, own, row_append, ← List.append_assoc, attends.bytes]
        simp
      · refine ⟨.handles _, rfl, fun _ _ => rfl, sameId.trans attends.id_eq, working,
          attends.reading, ?_⟩
        rw [same, List.append_nil]
        exact attends.bytes
    have attended := p.attended.set attends' others
    obtain ⟨linked, rfl⟩ := List.getElem?_eq_some_iff.mp there
    rw [List.set_getElem_self] at attended
    have kept : Kept sim.system { sim.system with writers := sim.system.writers.set i w' } :=
      ⟨List.length_set, rfl, fun _ ended => ended⟩
    refine .absorb (p.absorb hs told plain rfl p.noTap attended p.supplied plain.submitters ?_)
      told plain kept (by rw [noCall]; rfl)
    rw [noCall]
    exact (List.append_nil _).symm

/-- The connection of a subscriber answers. -/
theorem serve (p : Peaceful config streams sent history sim) {i : Nat} {sim' : Simulation}
    (served : sim.serveLink? i = some (sim', events)) :
    PeacefulStep config streams sent history sim events sim' := by
  simp only [serveLink?, Option.bind_eq_bind, Option.bind_eq_some_iff] at served
  obtain ⟨w, found, errand, asked, l, there, ⟨answer, l'⟩, answered, acted⟩ := served
  have attends := p.attended.attends i w l found there
  obtain ⟨answer', l'', w', answered', responds, reading, working, sameId, written⟩ :=
    SubscriberSession.serve_working attends.working attends.reading asked
  cases answered.symm.trans answered'
  obtain ⟨⟨s', seen⟩, hs, same⟩ := Option.map_eq_some_iff.mp acted
  cases same
  change sim.system.step? (.connection i answer) = some (s', events) at hs
  cases Step.of_step? hs with
  | @connection i w₀ w₁ answer found' responds' =>
    cases found.symm.trans found'
    cases responds.symm.trans responds'
    have told := hubEvents_connectionEvents i w.errand? answer
    have attended : Attended (hubEvents history) (sim.system.writers.set i w')
        (sim.links.set i l') := by
      rw [← List.append_nil (hubEvents history)]
      refine p.attended.set ⟨sameId.trans attends.id_eq, working, reading, ?_⟩ fun _ _ => rfl
      rw [written, List.append_nil]
      exact attends.bytes
    have kept : Kept sim.system { sim.system with writers := sim.system.writers.set i w' } :=
      ⟨List.length_set, rfl, fun _ ended => ended⟩
    refine ⟨p.silent hs told rfl rfl p.noTap attended p.supplied rfl, ?_, kept, by rw [told]; rfl⟩
    rw [told]
    exact .handles sim.system.hub.handles

theorem act?_eq_some {action : System.Action} {sim' : Simulation}
    (acted : sim.act? action = some (sim', events)) :
    ∃ s', sim.system.step? action = some (s', events) ∧ sim' = { sim with system := s' } := by
  obtain ⟨⟨s', seen⟩, hs, same⟩ := Option.map_eq_some_iff.mp acted
  cases same
  exact ⟨s', hs, rfl⟩

/-- A part that proceeds leaves all in peace. -/
theorem proceed (p : Peaceful config streams sent history sim) {part : Part} {sim' : Simulation}
    (proceeds : sim.proceed? part = some (sim', events)) :
    ∃ sent', PeacefulStep config streams sent' history sim events sim' := by
  cases part with
  | hub =>
    obtain ⟨s', hs, rfl⟩ := act?_eq_some proceeds
    exact ⟨sent, p.hub .work hs⟩
  | callers =>
    obtain ⟨s', hs, rfl⟩ := act?_eq_some proceeds
    exact ⟨sent, p.hub .enqueue hs⟩
  | producer i =>
    obtain ⟨s', hs, rfl⟩ := act?_eq_some proceeds
    exact p.produce hs
  | writer i =>
    obtain ⟨s', hs, rfl⟩ := act?_eq_some proceeds
    exact ⟨sent, p.write hs⟩
  | link i => exact ⟨sent, p.serve proceeds⟩
  | tap i =>
    obtain ⟨s', hs, -⟩ := act?_eq_some proceeds
    simp [System.step?, tap?, p.noTap] at hs
  | channel i => simp [proceed?, serveChannel?, p.noTap] at proceeds

/-- It asks nothing of a runtime but room for the queues. -/
theorem holds (p : Peaceful config streams sent history sim) {r : Runtime}
    (room : config.queueRoom ≤ r.queueLimit) : sim.system.hub.breaksDown r = false :=
  Hub.breaksDown_of_unasked (p.run.sound.run.config_eq ▸ room) p.calm.unasked

/-! ### What is done to it -/

theorem act_of_step? {action : System.Action} (hs : sim.system.step? action = some (s', events)) :
    sim.act action = ({ sim with system := s' }, events) := by
  rw [act, act?, hs]
  rfl

/-- Something comes on the connection of a session. -/
theorem arrive (p : Peaceful config streams sent history sim) (i : Nat) (items : List Incoming)
    {g : Stream → Stream} (follows : ∀ (q : ProducerSession) (stream : Stream)
      (packets : List Packet), sim.system.producers[i]? = some q → q.Follows stream packets →
      (q.arrive items).Follows (g stream) packets) :
    ∃ s', sim.act (.arrive i items) = ({ sim with system := s' }, []) ∧
      Peaceful config (streams.modify i g) sent history { sim with system := s' } ∧
      s'.hub = sim.system.hub ∧ Kept sim.system s' := by
  have hs : sim.system.step? (.arrive i items) = some ({ sim.system with
    producers := sim.system.producers.modify i (·.arrive items) }, []) := rfl
  refine ⟨_, act_of_step? hs, ?_, rfl, rfl, List.length_modify .., ?_⟩
  · have supplied := p.supplied.modify follows fun _ => rfl
    have p' := p.silent hs rfl rfl rfl p.noTap p.attended supplied rfl
    rwa [List.append_nil] at p'
  · rintro j ⟨q, result, found, ended⟩
    by_cases mine : i = j
    · subst mine
      refine ⟨q.arrive items, result, ?_, ended⟩
      rw [List.getElem?_modify, found]
      exact congrArg some (if_pos rfl)
    · refine ⟨q, result, ?_, ended⟩
      rw [List.getElem?_modify, found]
      exact congrArg some (if_neg mine)

/-- What comes on other connections is not seen yet, or not any more. -/
theorem unseen (p : Peaceful config streams sent history sim) (i : Nat) {g : Stream → Stream}
    (follows : ∀ (q : ProducerSession) (stream : Stream) (packets : List Packet),
      sim.system.producers[i]? = some q → q.Follows stream packets →
      q.Follows (g stream) packets) :
    Peaceful config (streams.modify i g) sent history sim := by
  have supplied := p.supplied.modify (f := id) follows fun _ => rfl
  rw [List.modify_id] at supplied
  exact { p with supplied := supplied }

theorem connect (p : Peaceful config streams sent history sim) (stream : Stream) :
    Peaceful config (streams ++ [stream]) sent history sim :=
  { p with supplied := p.supplied.connect stream }

/-- The next producer's session begins, when all others are over. -/
theorem startProducer (p : Peaceful config streams sent history sim)
    (allOver : ∀ i < sim.system.producers.length, IsOver sim.system.producers i) {stream : Stream}
    (onStream : streams[sim.system.producers.length]? = some stream) {source : Source}
    (rest : stream.Behind [] source) :
    ∃ s', sim.act (.startProducer source) = ({ sim with system := s' }, []) ∧
      Peaceful config streams (sent ++ [[]]) history { sim with system := s' } ∧
      s'.hub = { sim.system.hub with handles := sim.system.hub.handles + 1 } ∧
      s'.writers = sim.system.writers ∧
      s'.producers = sim.system.producers ++ [.start source] := by
  have hs : sim.system.step? (.startProducer source) = some ({ sim.system with
      hub := sim.system.hub.cloneHandle
      producers := sim.system.producers ++ [.start source] }, []) := if_pos p.client
  refine ⟨_, act_of_step? hs, ?_, rfl, rfl, rfl⟩
  have allEnded : ∀ q ∈ sim.system.producers, ∃ result, q.phase = .ended result := by
    intro q mem
    obtain ⟨i, found⟩ := List.mem_iff_getElem?.mp mem
    obtain ⟨q', result, found', ended⟩ := allOver i (List.getElem?_eq_some_iff.mp found).1
    cases found.symm.trans found'
    exact ⟨result, ended⟩
  have supplied := p.supplied.start allEnded onStream _ (.start rest) rfl
  have p' := p.silent hs rfl rfl rfl p.noTap p.attended supplied (by simp)
  rwa [List.append_nil] at p'

/-- A session begins for a subscriber from whom nothing has been taken. -/
theorem startWriter (p : Peaceful config streams sent history sim) (capacity : Nat) {l : Link}
    (new : l.IsNew)
    (known : sim.system.writers.length < sim.system.hub.nextId)
    (noneTaken : Hub.takenBy sim.system.writers.length (hubEvents history) = []) :
    ∃ s', { sim with links := sim.links ++ [l] }.act
        (.startWriter sim.system.writers.length capacity) =
          ({ sim with system := s', links := sim.links ++ [l] }, []) ∧
      Peaceful config streams sent history { sim with system := s', links := sim.links ++ [l] } ∧
      s'.hub = { sim.system.hub with handles := sim.system.hub.handles + 1 } ∧
      s'.writers.length = sim.system.writers.length + 1 ∧
      s'.producers = sim.system.producers := by
  have free : sim.system.isOwned sim.system.writers.length = false := by
    rw [Bool.eq_false_iff]
    intro owned
    obtain ⟨c, own⟩ := isOwned_iff.mp owned
    cases c with
    | writer i =>
      rw [idOf?_writer, Option.map_eq_some_iff] at own
      obtain ⟨w, found, same⟩ := own
      obtain ⟨l, -, attends⟩ := p.attended.link found
      have inRange := (List.getElem?_eq_some_iff.mp found).1
      have := attends.id_eq
      omega
    | tap i =>
      rw [idOf?_tap, p.noTap] at own
      cases own
  have hs : sim.system.step? (.startWriter sim.system.writers.length capacity) =
      some ({ sim.system with
        hub := sim.system.hub.cloneHandle
        writers := sim.system.writers ++ [.start sim.system.writers.length capacity] }, []) :=
    if_pos (mayAttach_iff.mpr ⟨p.client, known, free⟩)
  refine ⟨_, act_of_step? hs, ?_, rfl, List.length_append, rfl⟩
  have attended := p.attended.start capacity new noneTaken
  have p' := p.silent hs rfl rfl rfl p.noTap attended p.supplied rfl
  rwa [List.append_nil] at p'

/-- A subscriber asks to be registered. -/
theorem register (p : Peaceful config streams sent history sim) :
    ∃ s', sim.act (.hub (.call .register)) =
        ({ sim with system := s' }, [.hub (.called ⟨sim.system.hub.nextTicket, .register⟩)]) ∧
      Peaceful config streams sent
        (history ++ [.hub (.called ⟨sim.system.hub.nextTicket, .register⟩)])
        { sim with system := s' } ∧
      Hub.PlainStep sim.system.hub [.called ⟨sim.system.hub.nextTicket, .register⟩] s'.hub ∧
      Kept sim.system s' := by
  generalize asked : Hub.Request.mk sim.system.hub.nextTicket .register = request
  obtain ⟨hub, plain, called⟩ : ∃ hub, Hub.PlainStep sim.system.hub [.called request] hub ∧
      sim.system.hub.step? (.call .register) = some (hub, [.called request]) :=
    ⟨_, asked ▸ .call .register .register,
      asked ▸ (if_pos p.handle).trans (congrArg some (Hub.call_of_isPlain .register p.calm.live))⟩
  have permitted : sim.system.permits (.call .register) = true := decide_eq_true p.client
  have hs : sim.system.step? (.hub (.call .register)) =
      some ((sim.system.absorb hub [.called request]).1, [.hub (.called request)]) :=
    (if_pos permitted).trans (congrArg (Option.map _) called)
  have noneTaken := p.noneTaken hs fun _ same => by cases same
  have kept : Kept sim.system sim.system := ⟨rfl, rfl, fun _ ended => ended⟩
  refine ⟨_, act_of_step? hs, p.absorb hs rfl plain rfl p.noTap (p.attended.append noneTaken)
    p.supplied plain.submitters ?_, by rwa [absorb_fst], kept.absorb _ _⟩
  rw [← asked]
  exact (List.append_nil _).symm

end Peaceful

end Simulation

end VideoRelay

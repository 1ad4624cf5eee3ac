/-
What a producer's session has submitted, at every moment of a run.

* `submittedBy`, `arrivalsAt` — the packets that a session was seen to submit, and what has
  arrived on its connection;
* `ProducerSession.Advance`, `Step.producer_advance` — what one action is to a session;
* `Fate`, `HasCalled` — what has become of the calls with which it has submitted packets;
* `stepsLeft`, `HasActed` — how long it may go on;
* `Run.submits` — a session submits what arrives, from its beginning on;
* `Run.producer_forwards` — so it has submitted the first packets of its stream, all of them
  when it ends with the stream, and it ends with the stream unless the hub refuses a packet.

Design notes: a session waits for each call before it reads on.  So all its calls but the last
have been accepted, and what the last has come to is what the session is at.
-/
import VideoRelay.Proofs.Hub.Answers
import VideoRelay.Proofs.Session.Input
import VideoRelay.Proofs.System.Owners
import VideoRelay.Proofs.System.Submitters

open VideoRelay.Frame

namespace VideoRelay

namespace System

/-! ### What is seen of a session -/

@[simp] def Event.submitted? (i : Nat) : Event → Option Packet
  | .submitted j packet => if j = i then some packet else none
  | _ => none

/-- The packets that producer `i` has submitted. -/
def submittedBy (i : Nat) (history : List Event) : List Packet :=
  history.filterMap (Event.submitted? i)

/-- What an action lets arrive on the connection of producer `i`. -/
@[simp] def Action.arrivals (i : Nat) : Action → List Incoming
  | .arrive j items => if j = i then items else []
  | _ => []

/-- What has arrived on the connection of producer `i`, which began with this source. -/
def arrivalsAt (i : Nat) (source : Source) (actions : List Action) : List Incoming :=
  source.arrived ++ actions.flatMap (·.arrivals i)

section

variable {i : Nat} {history events : List Event}

theorem submittedBy_nil (i : Nat) : submittedBy i [] = [] := rfl

theorem submittedBy_append (i : Nat) (history events : List Event) :
    submittedBy i (history ++ events) = submittedBy i history ++ submittedBy i events :=
  List.filterMap_append

theorem submittedBy_map_hub (i : Nat) (events : List Hub.Event) :
    submittedBy i (events.map .hub) = [] := by
  rw [submittedBy, List.filterMap_map, List.filterMap_eq_nil_iff]
  intro e mem
  rfl

theorem submittedBy_of_other {j : Nat} (other : j ≠ i) (heard : List Hub.Event) :
    submittedBy i (heard.filterMap (submission? j)) = [] := by
  rw [submittedBy, List.filterMap_filterMap, List.filterMap_eq_nil_iff]
  intro e mem
  rw [submission?.eq_def]
  split
  · exact if_neg other
  · rfl

theorem submittedBy_submitted (i : Nat) (packet : Packet) (events : List Event) :
    submittedBy i (.submitted i packet :: events) = packet :: submittedBy i events :=
  List.filterMap_cons_some (if_pos rfl)

theorem arrivalsAt_nil (i : Nat) (source : Source) : arrivalsAt i source [] = source.arrived :=
  List.append_nil _

theorem arrivalsAt_concat (i : Nat) (source : Source) (actions : List Action) (action : Action) :
    arrivalsAt i source (actions ++ [action]) =
      arrivalsAt i source actions ++ action.arrivals i := by
  rw [arrivalsAt, List.flatMap_append, List.flatMap_singleton, arrivalsAt, List.append_assoc]

/-- What is seen of a call that hands over a packet.  It waits, unless the hub has stopped. -/
theorem submission_call (i : Nat) {h h' : Hub} {packet : Packet} {heard : List Hub.Event}
    (called : h.call (.packet packet) = (h', heard)) :
    ∃ more, heard = .called ⟨h.nextTicket, .packet packet⟩ :: more ∧
      heard.filterMap (submission? i) = [.submitted i packet] ∧
      (⟨h.nextTicket, .packet packet⟩ ∈ h'.waiting ∨
        ∃ reply, .returned h.nextTicket reply ∈ heard) := by
  obtain ⟨more, rfl, ⟨inLine, rfl⟩ | ⟨⟨reply, rfl⟩, -⟩⟩ := Hub.call_outcome called
  · exact ⟨[], rfl, rfl, .inl inLine⟩
  · exact ⟨_, rfl, rfl, .inr ⟨reply, List.mem_cons_of_mem _ List.mem_cons_self⟩⟩

end

end System

/-! ### Actions, as a session sees them -/

open VideoRelay.System VideoRelay.Hub

/-- What one action, with which the hub `h` becomes `h'`, is to producer `i`, which is `p` before
it. -/
inductive ProducerSession.Advance (h : Hub) (i : Nat) (p : ProducerSession) :
    System.Action → List System.Event → Hub → ProducerSession → Prop
  | waits {action : System.Action} {events : List System.Event} {h' : Hub}
      (other : action ≠ .produce i) (nothing : action.arrivals i = [])
      (silent : submittedBy i events = []) :
    Advance h i p action events h' (p.hear (hubEvents events))
  | receives (items : List Incoming) : Advance h i p (.arrive i items) [] h (p.arrive items)
  | works {p' : ProducerSession} {h' : Hub} {heard : List Hub.Event}
      (hs : p.step? h = some (p', h', heard)) :
    Advance h i p (.produce i) (heard.filterMap (submission? i) ++ heard.map .hub) h'
      (p'.hear heard)
  | aborts {p' : ProducerSession} {h' : Hub} {heard : List Hub.Event}
      (ha : p.abort h = (p', h', heard)) :
    Advance h i p (.abort i) (heard.map .hub) h' (p'.hear heard)

namespace System

theorem getElem?_producers_absorb (s : System) (hub : Hub) (heard : List Hub.Event) (i : Nat) :
    (s.absorb hub heard).1.producers[i]? = s.producers[i]?.map (·.hear heard) := by
  rw [absorb_fst, List.getElem?_map]

/-- A session goes on by what arrives and by its own steps, unless it is broken off, and is
told of calls that return. -/
theorem Step.producer_advance {s s' : System} {action : Action} {events : List Event}
    (st : Step s action events s') {i : Nat} {p : ProducerSession}
    (found : s.producers[i]? = some p) :
    ∃ p', s'.producers[i]? = some p' ∧ p.Advance s.hub i action events s'.hub p' := by
  have inRange := (List.getElem?_eq_some_iff.mp found).1
  -- Whoever else acts, the session is told.
  have waits (other : action ≠ .produce i) (nothing : action.arrivals i = [])
      (silent : submittedBy i events = [])
      (after : s'.producers[i]? = some (p.hear (hubEvents events))) :
      ∃ p', s'.producers[i]? = some p' ∧ p.Advance s.hub i action events s'.hub p' :=
    ⟨_, after, .waits other nothing silent⟩
  cases st with
  | hub permitted hs =>
    refine waits (by simp) rfl (submittedBy_map_hub i _) ?_
    rw [getElem?_producers_absorb, hubEvents_map_hub]
    exact congrArg _ found
  | startProducer => exact waits (by simp) rfl rfl ((List.getElem?_append_left inRange).trans found)
  | arrive j items =>
    by_cases own : j = i
    · subst own
      refine ⟨p.arrive items, ?_, .receives items⟩
      rw [List.getElem?_modify_eq, found]
      rfl
    · refine waits (by simp) (if_neg own) rfl ?_
      rw [List.getElem?_modify, found]
      exact congrArg some (if_neg own)
  | @produce j q q' hub heard atProducer hs =>
    by_cases own : j = i
    · subst own
      obtain rfl := Option.some.inj (found.symm.trans atProducer)
      refine ⟨q'.hear heard, ?_, ?_⟩
      · rw [getElem?_producers_absorb, List.getElem?_set_self inRange]
        rfl
      · rw [absorb_fst]
        exact .works hs
    · refine waits (fun same => own (by cases same; rfl)) rfl ?_ ?_
      · rw [submittedBy_append, submittedBy_map_hub, List.append_nil]
        exact submittedBy_of_other own heard
      · rw [getElem?_producers_absorb, List.getElem?_set_ne own, hubEvents_produce]
        exact congrArg _ found
  | @abort j q q' hub heard atProducer ha =>
    by_cases own : j = i
    · subst own
      obtain rfl := Option.some.inj (found.symm.trans atProducer)
      refine ⟨q'.hear heard, ?_, ?_⟩
      · rw [getElem?_producers_absorb, List.getElem?_set_self inRange]
        rfl
      · rw [absorb_fst]
        exact .aborts ha
    · refine waits (by simp) rfl (submittedBy_map_hub i _) ?_
      rw [getElem?_producers_absorb, List.getElem?_set_ne own, hubEvents_map_hub]
      exact congrArg _ found
  | startWriter => exact waits (by simp) rfl rfl found
  | write =>
    refine waits (by simp) rfl (submittedBy_map_hub i _) ?_
    rw [getElem?_producers_absorb, hubEvents_map_hub]
    exact congrArg _ found
  | connection atWriter hr =>
    refine waits (by simp) rfl ?_ ?_
    · rw [connectionEvents.eq_def]
      split <;> rfl
    · rw [hubEvents_connectionEvents]
      exact found
  | startTap => exact waits (by simp) rfl rfl found
  | @tap j t t' hub heard skipped? atTap hs =>
    refine waits (by simp) rfl ?_ ?_
    · rw [submittedBy_append, submittedBy_map_hub]
      cases skipped? <;> rfl
    · rw [getElem?_producers_absorb, hubEvents_tap]
      exact congrArg _ found
  | consumer => exact waits (by simp) rfl rfl found

end System

/-! ### Calls -/

namespace ProducerSession

theorem HasEnded.unique {p : ProducerSession} {result result' : Except Error SessionStats}
    (ended : p.HasEnded result) (ended' : p.HasEnded result') : result = result' := by
  rcases ended with ended | ended <;> rcases ended' with ended' | ended' <;>
    cases ended.symm.trans ended' <;> rfl

/-- What has become of the calls with which session `p` has submitted packets. -/
inductive Fate (history : List Hub.Event) (h : Hub) (p : ProducerSession) : List Request → Prop
  /-- All have been accepted: the session reads, or has ended with its stream. -/
  | clear {requests : List Request} (idle : p.phase = .reading ∨
        ∃ result, p.HasEnded result ∧ result ≠ .error (.hub .closed))
      (all : ∀ r ∈ requests, r ∈ accepted history) : Fate history h p requests
  /-- The last waits for room. -/
  | waits {earlier : List Request} {r : Request} (submitting : p.phase = .submitting r.ticket)
      (inLine : r ∈ h.waiting) (all : ∀ r ∈ earlier, r ∈ accepted history) :
    Fate history h p (earlier ++ [r])
  /-- The last has been refused. -/
  | refused {earlier : List Request} {r : Request} (ended : p.HasEnded (.error (.hub .closed)))
      (told : .returned r.ticket .closed ∈ history) (all : ∀ r ∈ earlier, r ∈ accepted history) :
    Fate history h p (earlier ++ [r])
  | aborted {requests : List Request} (aborted : p.phase = .aborted)
      (all : ∀ r ∈ requests.dropLast, r ∈ accepted history) : Fate history h p requests

namespace Fate

variable {config : HubConfig} {history heard : List Hub.Event} {h h' : Hub}
  {p p' : ProducerSession} {requests earlier : List Request} {r : Request}

theorem accepted_mono {l : List Request} (all : ∀ r ∈ l, r ∈ accepted history)
    (heard : List Hub.Event) : ∀ r ∈ l, r ∈ accepted (history ++ heard) := by
  intro r mem
  rw [accepted_append]
  exact List.mem_append_left _ (all r mem)

/-- All calls but the last have been accepted. -/
theorem earlier_accepted (fate : Fate history h p requests) :
    ∀ r ∈ requests.dropLast, r ∈ accepted history := by
  cases fate with
  | clear idle all => exact fun r mem => all r (List.dropLast_subset _ mem)
  | waits submitting inLine all => rwa [List.dropLast_concat]
  | refused ended told all => rwa [List.dropLast_concat]
  | aborted aborted all => exact all

/-- A session that waits for no call is told nothing. -/
theorem of_idle (fate : Fate history h p requests) (idle : ∀ ticket, p.phase ≠ .submitting ticket)
    (heard : List Hub.Event) (h' : Hub) : Fate (history ++ heard) h' (p.hear heard) requests := by
  have deaf : p.hear heard = p :=
    hear_eq_self fun ticket reply _ => answer_of_not_submitting (idle ticket) reply
  rw [deaf]
  cases fate with
  | clear idle all => exact .clear idle (accepted_mono all heard)
  | waits submitting => exact absurd submitting (idle _)
  | refused ended told all =>
    exact .refused ended (List.mem_append_left _ told) (accepted_mono all heard)
  | aborted aborted all => exact .aborted aborted (accepted_mono all heard)

/-- The last call waits for room, or the session is told how it has ended. -/
theorem of_submitting (run : Hub.Run config (history ++ heard) h')
    (submitting : p.phase = .submitting r.ticket) {packet : Packet}
    (isPacket : r.command = .packet packet) (called : r ∈ calls (history ++ heard))
    (waits : r ∈ h'.waiting ∨ ∃ reply, .returned r.ticket reply ∈ heard)
    (all : ∀ r ∈ earlier, r ∈ accepted (history ++ heard)) :
    Fate (history ++ heard) h' (p.hear heard) (earlier ++ [r]) := by
  obtain ⟨ticket, command⟩ := r
  subst isPacket
  rcases p.hear_replied heard with ⟨same, silent⟩ | ⟨own, reply, phase, mem, same⟩
  · rw [same]
    have inLine := waits.resolve_right fun ⟨reply, told⟩ => silent ticket submitting reply told
    exact .waits submitting inLine all
  · cases submitting.symm.trans phase
    have told := List.mem_append_right history mem
    rw [same]
    rcases run.reply_of_packet called told with ⟨rfl, inQueue⟩ | ⟨rfl, -⟩
    · rw [answer_of_submitting submitting (by simp)]
      have last : ∀ r ∈ [(⟨ticket, .packet packet⟩ : Request)], r ∈ accepted (history ++ heard) :=
        List.forall_mem_singleton.mpr inQueue
      exact .clear (.inl rfl) (List.forall_mem_append.mpr ⟨all, last⟩)
    · rw [answer_of_refused submitting]
      exact .refused (.inl rfl) told all

/-- What has become of the calls shows in what the session is at. -/
theorem of_phase (fate : Fate history h p requests) (same : p'.phase = p.phase) :
    Fate history h p' requests := by
  cases fate with
  | clear idle all =>
    refine .clear (idle.imp same.trans ?_) all
    rintro ⟨result, ended, live⟩
    exact ⟨result, ended.imp same.trans same.trans, live⟩
  | waits submitting inLine all => exact .waits (same.trans submitting) inLine all
  | refused ended told all => exact .refused (ended.imp same.trans same.trans) told all
  | aborted aborted all => exact .aborted (same.trans aborted) all

theorem of_reading (fate : Fate history h p requests) (reading : p.phase = .reading) :
    ∀ r ∈ requests, r ∈ accepted history := by
  cases fate with
  | clear idle all => exact all
  | waits submitting => cases reading.symm.trans submitting
  | refused ended => exact absurd (.inl reading) ended.not_isBusy
  | aborted aborted => cases reading.symm.trans aborted

/-- The last call of a session that waits for one. -/
theorem last (fate : Fate history h p requests) {ticket : Nat}
    (submitting : p.phase = .submitting ticket) :
    ∃ earlier r, requests = earlier ++ [r] ∧ r.ticket = ticket ∧ r ∈ h.waiting ∧
      ∀ r ∈ earlier, r ∈ accepted history := by
  have busy : p.IsBusy := .inr ⟨ticket, submitting⟩
  cases fate with
  | clear idle =>
    rcases idle with reading | ⟨result, ended, -⟩
    · cases submitting.symm.trans reading
    · exact absurd busy ended.not_isBusy
  | @waits earlier r own inLine all =>
    cases submitting.symm.trans own
    exact ⟨earlier, r, rfl, rfl, inLine, all⟩
  | refused ended => exact absurd busy ended.not_isBusy
  | aborted aborted => cases submitting.symm.trans aborted

/-- What has become of the calls of a session that has ended. -/
theorem of_ended (fate : Fate history h p requests) {result : Except Error SessionStats}
    (ended : p.HasEnded result) :
    result ≠ .error (.hub .closed) ∧ (∀ r ∈ requests, r ∈ accepted history) ∨
      result = .error (.hub .closed) ∧ ∃ earlier r, requests = earlier ++ [r] ∧
        .returned r.ticket .closed ∈ history ∧ ∀ r ∈ earlier, r ∈ accepted history := by
  cases fate with
  | clear idle all =>
    rcases idle with reading | ⟨result', ended', live⟩
    · exact absurd (.inl reading) ended.not_isBusy
    · exact .inl ⟨ended.unique ended' ▸ live, all⟩
  | waits submitting => exact absurd (.inr ⟨_, submitting⟩) ended.not_isBusy
  | @refused earlier r ended' told all =>
    exact .inr ⟨ended.unique ended', earlier, r, rfl, told, all⟩
  | aborted aborted => rcases ended with ended | ended <;> cases aborted.symm.trans ended

/-- A session that hands over no packet reads on, or ends with its stream. -/
theorem goOn (fate : Fate history h p requests) (h' : Hub)
    (now : p'.phase = .reading ∧ p.phase = .reading ∨ ∃ result, p'.HasEnded result ∧
      (p.HasEnded result ∨ p.phase = .reading ∧ result ≠ .error (.hub .closed))) :
    Fate history h' p' requests := by
  rcases now with ⟨reading, before⟩ | ⟨result, ended, before | ⟨before, live⟩⟩
  · exact .clear (.inl reading) (fate.of_reading before)
  · rcases fate.of_ended before with ⟨live, all⟩ | ⟨rfl, earlier, r, rfl, told, all⟩
    · exact .clear (.inr ⟨result, ended, live⟩) all
    · exact .refused ended told all
  · exact .clear (.inr ⟨result, ended, live⟩) (fate.of_reading before)

theorem abort (fate : Fate history h p requests) (ha : p.abort h = (p', h', heard)) :
    Fate (history ++ heard) h' (p'.hear heard) requests := by
  by_cases broken : p'.phase = .aborted
  · have fate' : Fate history h p' requests := .aborted broken fate.earlier_accepted
    exact fate'.of_idle (fun ticket => broken ▸ nofun) heard h'
  · obtain ⟨reader, stats, phase⟩ := p
    cases phase with
    | ended =>
      cases ha
      exact fate.of_idle (fun ticket => nofun) [] h
    | aborted =>
      cases ha
      exact absurd rfl broken
    | reading | leaving | submitting =>
      cases ha
      exact absurd rfl broken

end Fate

/-- With these calls producer `i`, which began after `before`, has submitted packets, if `past`
is what has happened since. -/
structure HasCalled (i : Nat) (before past : List System.Event) (h : Hub) (p : ProducerSession)
    (requests : List Request) : Prop where
  commands : requests.map (·.command) = (submittedBy i past).map .packet
  own : ∀ r ∈ requests, ∃ packet pre post, r.command = .packet packet ∧
    past = pre ++ .submitted i packet :: .hub (.called r) :: post
  inOrder : requests.Sublist (calls (hubEvents past))
  fate : Fate (hubEvents (before ++ past)) h p requests

variable {config : HubConfig} {arrivals : List Incoming} {before past events : List System.Event}
  {h h' : Hub} {i : Nat} {action : System.Action} {p p' : ProducerSession}
  {requests : List Request} {heard : List Hub.Event}

theorem Advance.submits (sub : p.Submits arrivals (submittedBy i past))
    (filled : AreFilled (action.arrivals i)) (adv : p.Advance h i action events h' p') :
    p'.Submits (arrivals ++ action.arrivals i) (submittedBy i (past ++ events)) := by
  rw [submittedBy_append]
  cases adv with
  | waits other nothing silent =>
    rw [nothing, silent, List.append_nil, List.append_nil]
    exact sub.hear _
  | receives items =>
    have own : Action.arrivals i (.arrive i items) = items := if_pos rfl
    rw [own] at filled ⊢
    rw [submittedBy_nil, List.append_nil]
    exact sub.arrive filled
  | works hs =>
    rw [submittedBy_append, submittedBy_map_hub, List.append_nil]
    show Submits (arrivals ++ []) _ _
    rw [List.append_nil]
    rcases sub.step?_cases hs with ⟨packet, called, -, -, sub'⟩ | ⟨-, rfl, sub', -⟩
    · obtain ⟨more, -, seen, -⟩ := submission_call i called
      rw [seen, submittedBy_submitted, submittedBy_nil]
      exact sub'.hear _
    · rw [List.filterMap_nil, submittedBy_nil, List.append_nil]
      exact sub'.hear _
  | aborts ha =>
    rw [submittedBy_map_hub, List.append_nil]
    show Submits (arrivals ++ []) _ _
    rw [List.append_nil]
    exact (sub.abort ha).hear _

theorem HasCalled.isPacket (c : HasCalled i before past h p requests) {r : Request}
    (mem : r ∈ requests) : ∃ packet, r.command = .packet packet := by
  obtain ⟨packet, -, -, isPacket, -⟩ := c.own r mem
  exact ⟨packet, isPacket⟩

theorem HasCalled.called (c : HasCalled i before past h p requests) {r : Request}
    (mem : r ∈ requests) : r ∈ calls (hubEvents (before ++ past)) := by
  rw [hubEvents_append, calls_append]
  exact List.mem_append_right _ (c.inOrder.subset mem)

theorem HasCalled.own_append (c : HasCalled i before past h p requests)
    (events : List System.Event) {r : Request} (mem : r ∈ requests) :
    ∃ packet pre post, r.command = .packet packet ∧
      past ++ events = pre ++ .submitted i packet :: .hub (.called r) :: post := by
  obtain ⟨packet, pre, post, isPacket, split⟩ := c.own r mem
  refine ⟨packet, pre, post ++ events, isPacket, ?_⟩
  rw [split, List.append_assoc]
  rfl

/-- Nothing is submitted. -/
theorem HasCalled.silent (c : HasCalled i before past h p requests)
    (silent : submittedBy i events = [])
    (fate : Fate (hubEvents (before ++ past) ++ hubEvents events) h' p' requests) :
    HasCalled i before (past ++ events) h' p' requests := by
  refine ⟨?_, fun r mem => c.own_append events mem, ?_, ?_⟩
  · rw [submittedBy_append, silent, List.append_nil]
    exact c.commands
  · rw [hubEvents_append, calls_append]
    exact c.inOrder.trans (List.sublist_append_left _ _)
  · rwa [← List.append_assoc, hubEvents_append]

/-- A packet is handed over. -/
theorem HasCalled.call (c : HasCalled i before past h p requests) {packet : Packet}
    {more : List System.Event} {r : Request} (isPacket : r.command = .packet packet)
    (hands : events = .submitted i packet :: .hub (.called r) :: more)
    (nothingElse : submittedBy i more = [])
    (fate : Fate (hubEvents (before ++ past) ++ hubEvents events) h' p' (requests ++ [r])) :
    HasCalled i before (past ++ events) h' p' (requests ++ [r]) := by
  refine ⟨?_, fun r' mem => ?_, ?_, ?_⟩
  · have seen : submittedBy i events = [packet] := by
      rw [hands, submittedBy_submitted]
      exact congrArg (packet :: ·) nothingElse
    rw [submittedBy_append, seen, List.map_append, List.map_append, c.commands,
      List.map_singleton, isPacket]
    rfl
  · rcases List.mem_append.mp mem with before | now
    · exact c.own_append events before
    · obtain rfl := List.mem_singleton.mp now
      exact ⟨packet, past, more, isPacket, by rw [hands]⟩
  · rw [hubEvents_append, calls_append]
    refine c.inOrder.append ?_
    rw [hands]
    exact List.singleton_sublist.mpr List.mem_cons_self
  · rwa [← List.append_assoc, hubEvents_append]

/-- A session that has ended has submitted everything, or the hub has refused its last packet. -/
theorem Submits.of_ended {packets : List Packet} {rest : Bytes}
    {result : Except Error SessionStats} (sub : p.Submits arrivals (submittedBy i past))
    (front : Front (bytesOf arrivals) packets rest) (c : HasCalled i before past h p requests)
    (run : Hub.Run config (hubEvents (before ++ past)) h) (ended : p.HasEnded result) :
    (submittedBy i past = packets ∧ Ends rest (tailOf arrivals) (verdict result) ∧
        (∀ stats, result = .ok stats → stats = .ofPackets packets) ∧
        ∀ r ∈ requests, r ∈ accepted (hubEvents (before ++ past))) ∨
      result = .error (.hub .closed) ∧ ∃ earlier r, requests = earlier ++ [r] ∧
        .returned r.ticket .closed ∈ hubEvents (before ++ past) ∧
        r ∉ accepted (hubEvents (before ++ past)) := by
  rcases c.fate.of_ended ended with ⟨live, all⟩ | ⟨closed, earlier, r, rfl, told, -⟩
  · left
    cases sub with
    | busy busy => exact absurd busy ended.not_isBusy
    | @finished result' rest' ended' front' ends counted =>
      obtain rfl := ended.unique ended'
      obtain ⟨same, rfl⟩ := front'.eq front
      rw [same] at counted
      exact ⟨same, ends, counted, all⟩
    | cut why =>
      rcases why with closed | aborted
      · exact absurd (ended.unique closed) live
      · rcases ended with ended | ended <;> cases aborted.symm.trans ended
  · refine .inr ⟨closed, earlier, r, rfl, told, ?_⟩
    have among : r ∈ earlier ++ [r] := List.mem_append_right _ List.mem_cons_self
    have called := c.called among
    obtain ⟨packet, isPacket⟩ := c.isPacket among
    obtain ⟨ticket, command⟩ := r
    subst isPacket
    rcases run.reply_of_packet called told with ⟨live, -⟩ | ⟨-, refused⟩
    · cases live
    · exact refused

/-! ### Steps -/

/-- How many steps a session may still make when nothing more arrives, besides one for each
packet that it submits. -/
def stepsLeft (p : ProducerSession) : Nat :=
  match p.phase with
  | .reading | .submitting _ => if p.reader.source.isExhausted then 2 else 3
  | .leaving _ => 1
  | .ended _ | .aborted => 0

theorem stepsLeft_of_isBusy (busy : p.IsBusy) :
    p.stepsLeft = if p.reader.source.isExhausted then 2 else 3 := by
  rcases busy with reading | ⟨ticket, submitting⟩
  · rw [stepsLeft, reading]
  · rw [stepsLeft, submitting]

theorem stepsLeft_bounds (busy : p.IsBusy) : 2 ≤ p.stepsLeft ∧ p.stepsLeft ≤ 3 := by
  rw [stepsLeft_of_isBusy busy]
  split <;> decide

theorem stepsLeft_hear (p : ProducerSession) (heard : List Hub.Event) :
    (p.hear heard).stepsLeft ≤ p.stepsLeft := by
  rcases p.hear_outcome heard with same | ⟨ticket, submitting, same | same⟩
  · rw [same]
  · rw [same, stepsLeft_of_isBusy (.inr ⟨ticket, submitting⟩)]
    exact Nat.le_refl _
  · rw [same]
    exact Nat.le_of_succ_le (stepsLeft_bounds (.inr ⟨ticket, submitting⟩)).1

theorem stepsLeft_arrive (p : ProducerSession) (items : List Incoming) :
    (p.arrive items).stepsLeft ≤ p.stepsLeft + items.length := by
  by_cases busy : p.IsBusy
  · cases items with
    | nil =>
      have same : p.arrive [] = p := by
        rw [arrive, List.append_nil]
      rw [same]
      exact Nat.le_refl _
    | cons item items =>
      have stillBusy : (p.arrive (item :: items)).IsBusy := busy
      have after := (stepsLeft_bounds stillBusy).2
      have now := (stepsLeft_bounds busy).1
      rw [List.length_cons]
      omega
  · obtain ⟨reader, stats, phase⟩ := p
    cases phase with
    | reading => exact absurd (.inl rfl) busy
    | submitting ticket => exact absurd (.inr ⟨ticket, rfl⟩) busy
    | leaving | ended | aborted => exact Nat.le_add_right _ _

/-- A step that submits nothing is one less to make. -/
theorem stepsLeft_step? (hs : p.step? h = some (p', h', heard)) :
    p'.stepsLeft < p.stepsLeft ∨ p'.stepsLeft ≤ p.stepsLeft ∧
      ∃ packet, h.call (.packet packet) = (h', heard) := by
  obtain ⟨reader, stats, phase⟩ := p
  cases phase with
  | submitting | ended | aborted => cases hs
  | leaving result =>
    cases hs
    exact .inl Nat.one_pos
  | reading =>
    rw [step?] at hs
    simp only at hs
    split at hs
    · cases hs
    · rename_i more
      have before : stepsLeft ⟨reader, stats, .reading⟩ = 3 := by
        rw [stepsLeft_of_isBusy (.inl rfl), if_neg more]
      rw [before]
      rcases came : reader.next with ⟨received, reader'⟩
      simp only [read, came] at hs
      cases received with
      | packet packet =>
        cases hs
        exact .inr ⟨(stepsLeft_bounds (.inr ⟨_, rfl⟩)).2, packet, rfl⟩
      | ended | failed =>
        cases hs
        exact .inl (Nat.lt_of_sub_eq_succ rfl)
      | starved =>
        cases hs
        left
        rw [stepsLeft_of_isBusy (.inl rfl), if_pos (Reader.isExhausted_of_starved came)]
        decide

theorem stepsLeft_abort (ha : p.abort h = (p', h', heard)) : p'.stepsLeft ≤ p.stepsLeft := by
  obtain ⟨reader, stats, phase⟩ := p
  cases phase <;>
  · cases ha
    exact Nat.zero_le _

/-- A step of its own, a packet and an arrival: what a session may still do is accounted for. -/
theorem Advance.stepsLeft (adv : p.Advance h i action events h' p') :
    [action].count (.produce i) + p'.stepsLeft ≤
      p.stepsLeft + (submittedBy i events).length + (action.arrivals i).length := by
  cases adv with
  | waits other nothing silent =>
    have told := p.stepsLeft_hear (hubEvents events)
    rw [List.count_singleton, if_neg (by simpa using other)]
    omega
  | receives items =>
    have own : Action.arrivals i (.arrive i items) = items := if_pos rfl
    have more := p.stepsLeft_arrive items
    rw [own, List.count_singleton, if_neg (by simp)]
    omega
  | @works p₁ h₁ heard hs =>
    have told := p₁.stepsLeft_hear heard
    rw [submittedBy_append, submittedBy_map_hub, List.append_nil, List.count_singleton,
      if_pos (by simp)]
    rcases stepsLeft_step? hs with fewer | ⟨fewer, packet, called⟩
    · omega
    · obtain ⟨-, -, seen, -⟩ := submission_call i called
      rw [seen, submittedBy_submitted, List.length_cons]
      omega
  | @aborts p₁ h₁ heard ha =>
    have told := p₁.stepsLeft_hear heard
    have fewer := stepsLeft_abort ha
    rw [List.count_singleton, if_neg (by simp)]
    omega

/-- Only an action of its own breaks a session off. -/
theorem Advance.aborted (sub : p.Submits arrivals (submittedBy i past))
    (adv : p.Advance h i action events h' p') (broken : p'.phase = .aborted) :
    p.phase = .aborted ∨ action = .abort i := by
  have hear (q : ProducerSession) (heard : List Hub.Event)
      (broken : (q.hear heard).phase = .aborted) : q.phase = .aborted := by
    rcases q.hear_outcome heard with same | ⟨ticket, submitting, same | same⟩
    · rwa [same] at broken
    · rw [same] at broken
      cases broken
    · rw [same] at broken
      cases broken
  cases adv with
  | waits => exact .inl (hear _ _ broken)
  | receives => exact .inl broken
  | @works p₁ h₁ heard hs =>
    have broken := hear _ _ broken
    rcases sub.step?_cases hs with ⟨packet, -, -, submitting, -⟩ | ⟨-, -, -, goesOn⟩
    · cases broken.symm.trans submitting
    · rcases goesOn with ⟨reading, -⟩ | ⟨result, ended | ended, -⟩
      · cases broken.symm.trans reading
      · cases broken.symm.trans ended
      · cases broken.symm.trans ended
  | aborts => exact .inr rfl

end ProducerSession

namespace System

variable {config : HubConfig} {before past events : List Event} {s s' : System} {action : Action}
  {i : Nat} {p p' : ProducerSession} {arrivals : List Incoming} {requests : List Hub.Request}

/-- With every action a session calls for the packet that it submits, and no call is lost. -/
theorem Run.hasCalled_step (run : Run config (before ++ past) s)
    (found : s.producers[i]? = some p) (sub : p.Submits arrivals (submittedBy i past))
    (c : p.HasCalled i before past s.hub requests) (hs : s.step? action = some (s', events))
    (found' : s'.producers[i]? = some p') (adv : p.Advance s.hub i action events s'.hub p') :
    ∃ requests', p'.HasCalled i before (past ++ events) s'.hub requests' := by
  have run' : Hub.Run config (hubEvents (before ++ past) ++ hubEvents events) s'.hub := by
    rw [← hubEvents_append]
    exact (run.step hs).sound.run
  have calledSoFar {r : Hub.Request} (called : r ∈ Hub.calls (hubEvents (before ++ past)) ∨
      r ∈ Hub.calls (hubEvents events)) :
      r ∈ Hub.calls (hubEvents (before ++ past) ++ hubEvents events) := by
    rw [Hub.calls_append]
    exact List.mem_append.mpr called
  generalize hub : s'.hub = h' at adv run'
  cases adv with
  | waits other nothing silent =>
    refine ⟨requests, c.silent silent ?_⟩
    by_cases idle : ∀ ticket, p.phase ≠ .submitting ticket
    · exact c.fate.of_idle idle _ _
    · obtain ⟨ticket, submitting⟩ := not_forall_not.mp idle
      obtain ⟨earlier, r, rfl, rfl, inLine, all⟩ := c.fate.last submitting
      have among : r ∈ earlier ++ [r] := List.mem_append_right _ List.mem_cons_self
      obtain ⟨packet, isPacket⟩ := c.isPacket among
      have holds : (p.hear (hubEvents events)).stake.holdsHandle = true := by
        rw [p.stake_hear, (p.stake.hear_keeps _).1, ProducerSession.stake, submitting]
      have waits := run.submission_waits found (ProducerSession.ticket?_eq_some.mpr submitting)
        isPacket inLine hs found' holds
      rw [hub] at waits
      exact .of_submitting run' submitting isPacket (calledSoFar (.inl (c.called among))) waits
        (ProducerSession.Fate.accepted_mono all _)
  | receives items =>
    refine ⟨requests, c.silent rfl ?_⟩
    rw [show hubEvents [] = [] from rfl, List.append_nil]
    exact c.fate.of_phase rfl
  | @works p₁ h₁ heard hs =>
    rcases sub.step?_cases hs with ⟨packet, called, reading, submitting, -⟩ | ⟨-, rfl, -, now⟩
    · obtain ⟨more, rfl, seen, waits⟩ := submission_call i called
      refine ⟨requests ++ [⟨s.hub.nextTicket, .packet packet⟩], c.call rfl
        (congrArg (· ++ _) seen) (submittedBy_map_hub i more) ?_⟩
      rw [hubEvents_produce] at run' calledSoFar ⊢
      exact .of_submitting run' submitting rfl (calledSoFar (.inr List.mem_cons_self)) waits
        (ProducerSession.Fate.accepted_mono (c.fate.of_reading reading) _)
    · refine ⟨requests, c.silent rfl ?_⟩
      rw [hubEvents_produce, List.append_nil]
      exact c.fate.goOn _ now
  | aborts ha =>
    refine ⟨requests, c.silent (submittedBy_map_hub i _) ?_⟩
    rw [hubEvents_map_hub]
    exact c.fate.abort ha

/-- How long a session may go on, and why it is broken off, when since its beginning these
actions have led to the events `past`. -/
structure HasActed (i : Nat) (actions : List Action) (arrivals : List Incoming)
    (past : List Event) (p : ProducerSession) : Prop where
  steps : actions.count (.produce i) + p.stepsLeft ≤
    (submittedBy i past).length + arrivals.length + 3
  aborted : p.phase = .aborted → .abort i ∈ actions

variable {more : List Event} {s₀ s₁ : System} {source : Source} {actions : List Action}

/-- A session in a run submits what arrives, from its beginning on. -/
theorem Run.submits (run : Run config before s₀) (empty : source.buffer = [])
    (attached : s₀.step? (.startProducer source) = some (s₁, []))
    (hp : s₁.perform? actions = some (s, more))
    (filled : AreFilled (arrivalsAt s₀.producers.length source actions)) :
    ∃ p requests, s.producers[s₀.producers.length]? = some p ∧
      p.Submits (arrivalsAt s₀.producers.length source actions)
        (submittedBy s₀.producers.length more) ∧
      p.HasCalled s₀.producers.length before more s.hub requests ∧
      HasActed s₀.producers.length actions (arrivalsAt s₀.producers.length source actions)
        more p := by
  have begun : s₁.producers = s₀.producers ++ [.start source] := by
    cases Step.of_step? attached
    rfl
  have run₁ : Run config before s₁ := by
    rw [← List.append_nil before]
    exact run.step attached
  refine System.perform?_induction run₁ (P := fun done past s =>
    AreFilled (arrivalsAt s₀.producers.length source done) →
      ∃ p requests, s.producers[s₀.producers.length]? = some p ∧
        p.Submits (arrivalsAt s₀.producers.length source done)
          (submittedBy s₀.producers.length past) ∧
        p.HasCalled s₀.producers.length before past s.hub requests ∧
        HasActed s₀.producers.length done (arrivalsAt s₀.producers.length source done)
          past p) ?_ ?_ hp filled
  · rw [arrivalsAt_nil]
    intro filled
    refine ⟨.start source, [], by rw [begun, List.getElem?_concat_length], .start empty filled,
      ⟨rfl, nofun, .slnil, .clear (.inl rfl) nofun⟩, ?_, nofun⟩
    have few := (ProducerSession.stepsLeft_bounds (p := .start source) (.inl rfl)).2
    rw [List.count_nil]
    omega
  · intro done past s₂ action events s₃ run ih hs
    rw [arrivalsAt_concat]
    intro filled
    obtain ⟨soFar, now⟩ := List.forall_mem_append.mp filled
    obtain ⟨p, requests, found, sub, c, acted⟩ := ih soFar
    obtain ⟨p', found', adv⟩ := (Step.of_step? hs).producer_advance found
    obtain ⟨requests', c'⟩ := run.hasCalled_step found sub c hs found' adv
    refine ⟨p', requests', found', adv.submits sub now, c', ?_, fun broken => ?_⟩
    · have before := acted.steps
      have accounted := adv.stepsLeft
      rw [List.count_append, submittedBy_append, List.length_append, List.length_append]
      omega
    · rcases adv.aborted sub broken with before | rfl
      · exact List.mem_append_left _ (acted.aborted before)
      · exact List.mem_append_right _ List.mem_cons_self

/-! ### What is forwarded -/

/-- What has come of producer `p`, number `i`, which began after `before`, when since then the
actions `actions` have led to the events `past` and to the system `s`.  Of what has arrived on its
connection the frames of `packets` are the front, and `rest` is behind them; the packets were
submitted with the calls `requests`. -/
structure Forwards (before : List Event) (actions : List Action) (past : List Event) (s : System)
    (i : Nat) (p : ProducerSession) (arrivals : List Incoming) (packets : List Packet)
    (rest : Bytes) (requests : List Hub.Request) : Prop where
  /-- What is submitted are the first packets of the stream, each once. -/
  inOrder : submittedBy i past <+: packets
  calls : requests.map (·.command) = (submittedBy i past).map .packet
  own : ∀ r ∈ requests, ∃ packet pre post, r.command = .packet packet ∧
    past = pre ++ .submitted i packet :: .hub (.called r) :: post
  once : requests.Pairwise (·.ticket < ·.ticket)
  /-- What was submitted before the last packet has entered the queue. -/
  stays : ∀ r ∈ requests.dropLast, r ∈ Hub.accepted (hubEvents (before ++ past))
  ok_iff : ∀ result, p.result? = some result → ((∃ stats, result = .ok stats) ↔
    (rest = [] ∧ ∃ later, tailOf arrivals = .endOfStream :: later) ∧
      ∀ r ∈ requests, r ∈ Hub.accepted (hubEvents (before ++ past)))
  ok : ∀ stats, p.result? = some (.ok stats) →
    submittedBy i past = packets ∧ stats = .ofPackets packets
  /-- A session that ends with an error has submitted everything, and the error is that of the
  stream, or the hub has refused its last packet. -/
  error : ∀ cause, p.result? = some (.error cause) →
    submittedBy i past = packets ∧ Ends rest (tailOf arrivals) (.failed cause) ∧
        (∀ r ∈ requests, r ∈ Hub.accepted (hubEvents (before ++ past))) ∨
      cause = .hub .closed ∧ ∃ earlier r, requests = earlier ++ [r] ∧
        .returned r.ticket .closed ∈ hubEvents (before ++ past) ∧
        r ∉ Hub.accepted (hubEvents (before ++ past))
  /-- The session goes on until it is over, unless it waits for room in the queue, or has
  submitted all that has arrived of a stream that goes on. -/
  goesOn : p.step? s.hub ≠ none ∨
    (∃ r ∈ requests, p.phase = .submitting r.ticket ∧ r ∈ s.hub.waiting) ∨
    (p.phase = .reading ∧ submittedBy i past = packets ∧ tailOf arrivals = [] ∧
      ¬ Violates rest) ∨
    (∃ result, p.result? = some result) ∨ .abort i ∈ actions
  /-- It does not go on for ever. -/
  steps : actions.count (.produce i) ≤ packets.length + arrivals.length + 3

/-- Whatever chunks arrive, the size of the buffer, the end of the stream and the hub: a session
submits the packets that are at the front of the stream, in order and each once, and ends as the
stream does, or with the first packet that the hub refuses. -/
theorem Run.producer_forwards (run : Run config before s₀) (empty : source.buffer = [])
    (attached : s₀.step? (.startProducer source) = some (s₁, []))
    (hp : s₁.perform? actions = some (s, more))
    (filled : AreFilled (arrivalsAt s₀.producers.length source actions)) :
    ∃ p packets rest requests, s.producers[s₀.producers.length]? = some p ∧
      Front (bytesOf (arrivalsAt s₀.producers.length source actions)) packets rest ∧
      Forwards before actions more s s₀.producers.length p
        (arrivalsAt s₀.producers.length source actions) packets rest requests := by
  obtain ⟨p, requests, found, sub, c, acted⟩ := run.submits empty attached hp filled
  obtain ⟨packets, rest, front⟩ :=
    exists_front (bytesOf (arrivalsAt s₀.producers.length source actions))
  have run' : Run config (before ++ more) s := by
    rw [← List.append_nil before]
    exact (run.step attached).perform? hp
  have inOrder : submittedBy s₀.producers.length more <+: packets :=
    front.isPrefix sub.isPrefix.2 sub.isPrefix.1
  have outcome {result : Except Error SessionStats} (came : p.result? = some result) :=
    sub.of_ended front c run'.sound.run (.inr (ProducerSession.phase_of_result? came))
  refine ⟨p, packets, rest, requests, found, front, inOrder, c.commands, c.own, ?_,
    c.fate.earlier_accepted, fun result came => ?_, fun stats came => ?_, fun cause came => ?_,
    ?_, ?_⟩
  · have ascending := run'.sound.run.tickets_ascend
    rw [hubEvents_append, Hub.calls_append] at ascending
    exact (ascending.sublist (List.sublist_append_right _ _)).sublist c.inOrder
  · rcases outcome came with ⟨-, ends, -, all⟩ | ⟨rfl, earlier, r, rfl, -, refused⟩
    · rw [← ends.ended_iff front]
      constructor
      · rintro ⟨stats, rfl⟩
        exact ⟨rfl, all⟩
      · rintro ⟨well, -⟩
        cases result with
        | ok stats => exact ⟨stats, rfl⟩
        | error cause => cases well
    · constructor
      · rintro ⟨stats, well⟩
        cases well
      · rintro ⟨-, all⟩
        exact absurd (all r (List.mem_append_right _ List.mem_cons_self)) refused
  · rcases outcome came with ⟨same, -, counted, -⟩ | ⟨closed, -⟩
    · exact ⟨same, counted stats rfl⟩
    · cases closed
  · rcases outcome came with ⟨same, ends, -, all⟩ | ⟨closed, refused⟩
    · exact .inl ⟨same, ends, all⟩
    · cases closed
      exact .inr ⟨rfl, refused⟩
  · by_cases moves : p.step? s.hub = none
    · right
      cases phase : p.phase with
      | reading =>
        obtain ⟨rest', front', goesOn, lawful⟩ := sub.of_waits phase moves
        obtain ⟨same, rfl⟩ := front'.eq front
        exact .inr (.inl ⟨rfl, same, goesOn, lawful⟩)
      | submitting ticket =>
        obtain ⟨earlier, r, rfl, rfl, inLine, -⟩ := c.fate.last phase
        exact .inl ⟨r, List.mem_append_right _ List.mem_cons_self, rfl, inLine⟩
      | leaving result =>
        rw [ProducerSession.step?, phase] at moves
        cases moves
      | ended result =>
        exact .inr (.inr (.inl ⟨result, by rw [ProducerSession.result?, phase]⟩))
      | aborted => exact .inr (.inr (.inr (acted.aborted phase)))
    · exact .inl moves
  · have bound := acted.steps
    have few := inOrder.length_le
    omega

/-- Two packets arrive in pieces, cut anywhere, through a small buffer, and both are accepted
though the queue has room for one. -/
theorem producer_forwards_pieces :
    ∃ (before more : List Event) (s₀ s₁ s : System) (p : ProducerSession),
      Run ⟨4, 1, .block, 1000⟩ before s₀ ∧
      s₀.step? (.startProducer ⟨3, [], [.chunk [2, 0]]⟩) = some (s₁, []) ∧
      s.producers[0]? = some p ∧ p.result? = some (.ok ⟨2, 3⟩) ∧
      submittedBy 0 more = [[9, 16], [65]] := by
  obtain ⟨s₁, attached, check⟩ :
      ∃ s₁, (System.start ⟨4, 1, .block, 1000⟩).step?
          (.startProducer ⟨3, [], [.chunk [2, 0]]⟩) = some (s₁, []) ∧
        (s₁.perform?
          [.produce 0, .arrive 0 [.chunk [0, 0, 9], .notReady, .chunk [16, 1, 0]], .produce 0,
            .hub .enqueue, .produce 0, .arrive 0 [.chunk [0, 0, 65], .endOfStream], .produce 0,
            .hub .work, .hub .work, .hub .enqueue, .produce 0, .produce 0]).any (fun result =>
          submittedBy 0 result.2 = [[9, 16], [65]] ∧
          (result.1.producers[0]?.bind (·.result?)).any (·.isOk)) = true := by
    refine ⟨_, rfl, ?_⟩
    decide +kernel
  obtain ⟨⟨s, more⟩, hp, facts⟩ := (Option.any_eq_true _ _).mp check
  obtain ⟨sent, finished⟩ := of_decide_eq_true facts
  have filled : AreFilled [.chunk [2, 0], .chunk [0, 0, 9], .notReady, .chunk [16, 1, 0],
      .chunk [0, 0, 65], .endOfStream] := by decide
  obtain ⟨p, packets, rest, requests, found, front, forwards⟩ :=
    Run.start.producer_forwards rfl attached hp filled
  obtain ⟨stats, ended⟩ : ∃ stats, p.result? = some (.ok stats) := by
    have found : s.producers[0]? = some p := found
    simp only [found, Option.bind_some] at finished
    obtain ⟨result, ended, isOk⟩ := (Option.any_eq_true _ _).mp finished
    cases result with
    | ok stats => exact ⟨stats, ended⟩
    | error cause => cases isOk
  obtain ⟨same, counted⟩ := forwards.ok stats ended
  rw [show (submittedBy 0 more) = packets from same] at sent
  rw [counted, sent] at ended
  exact ⟨[], more, _, s₁, s, p, .start, attached, found, ended, same.trans sent⟩

end System

end VideoRelay

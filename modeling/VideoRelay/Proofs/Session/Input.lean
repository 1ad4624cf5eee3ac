/-
What a producer's session makes of what arrives on its connection.

* `bytesOf`, `tailOf` — the bytes that arrive, and what comes behind them: nothing yet, the
  end of the stream or a failure to read;
* `Ends` — how a stream ends behind its last whole frame;
* `ProducerSession.Submits` — the session has submitted the first packets of what has arrived,
  and if it is over by itself all of them;
* `Submits.arrive`, `Submits.hear`, `Submits.step?_cases`, `Submits.abort` — whatever
  arrives, whatever it is told and whatever it does, a session submits these;
* `Submits.of_waits` — a session that waits for more has submitted all that has arrived.

Design notes: what the session holds of a frame, what its buffer holds and what has arrived
are one byte string, so nothing in the buffer is lost or used twice.  What arrives later adds
to that string or is behind the end, and in neither case does it change what was read.
-/
import VideoRelay.Proofs.Session.Producer

open VideoRelay.Frame

namespace VideoRelay

/-- The statistics of a session that has carried some packets. -/
def SessionStats.ofPackets (packets : List Packet) : SessionStats :=
  ⟨packets.length, total (packets.map List.length)⟩

theorem SessionStats.ofPackets_concat (packets : List Packet) (packet : Packet) :
    ofPackets (packets ++ [packet]) = (ofPackets packets).record packet.length := by
  simp [ofPackets, record, total_append, total]

/-! ### Arrivals -/

/-- The bytes that arrive before the end or a failure. -/
def bytesOf : List Incoming → Bytes
  | .chunk data :: rest => data ++ bytesOf rest
  | .notReady :: rest => bytesOf rest
  | _ => []

/-- What arrives behind these bytes. -/
def tailOf : List Incoming → List Incoming
  | .chunk _ :: rest | .notReady :: rest => tailOf rest
  | tail => tail

/-- No chunk is empty. -/
def AreFilled (arrivals : List Incoming) : Prop := ∀ item ∈ arrivals, item ≠ .chunk []

instance (arrivals : List Incoming) : Decidable (AreFilled arrivals) :=
  inferInstanceAs (Decidable (∀ item ∈ arrivals, item ≠ .chunk []))

section

variable {arrivals items : List Incoming}

theorem isTail_tailOf (arrivals : List Incoming) : IsTail (tailOf arrivals) := by
  induction arrivals with
  | nil => exact .nil
  | cons item arrivals ih =>
    cases item with
    | chunk | notReady => exact ih
    | endOfStream => exact .ended arrivals
    | failure cause => exact .failed cause arrivals

theorem carries_tailOf (filled : AreFilled arrivals) :
    Carries (tailOf arrivals) arrivals (bytesOf arrivals) := by
  induction arrivals with
  | nil => exact .done
  | cons item arrivals ih =>
    obtain ⟨here, later⟩ := List.forall_mem_cons.mp filled
    cases item with
    | chunk data =>
      cases data with
      | nil => exact absurd rfl here
      | cons b data => exact .chunk b data (ih later)
    | notReady => exact .pause (ih later)
    | endOfStream | failure => exact .done

/-- What arrives on a stream that goes on adds to it. -/
theorem tailOf_append_of_nil (goesOn : tailOf arrivals = []) (items : List Incoming) :
    tailOf (arrivals ++ items) = tailOf items ∧
      bytesOf (arrivals ++ items) = bytesOf arrivals ++ bytesOf items := by
  induction arrivals with
  | nil => exact ⟨rfl, rfl⟩
  | cons item arrivals ih =>
    cases item with
    | chunk data =>
      obtain ⟨tail, bytes⟩ := ih goesOn
      refine ⟨tail, ?_⟩
      show data ++ bytesOf (arrivals ++ items) = data ++ bytesOf arrivals ++ bytesOf items
      rw [bytes, List.append_assoc]
    | notReady => exact ih goesOn
    | endOfStream | failure => cases goesOn

/-- What arrives behind the end or a failure is behind it. -/
theorem tailOf_append_of_ne_nil (final : tailOf arrivals ≠ []) (items : List Incoming) :
    tailOf (arrivals ++ items) = tailOf arrivals ++ items ∧
      bytesOf (arrivals ++ items) = bytesOf arrivals := by
  induction arrivals with
  | nil => exact absurd rfl final
  | cons item arrivals ih =>
    cases item with
    | chunk data =>
      obtain ⟨tail, bytes⟩ := ih final
      exact ⟨tail, congrArg (data ++ ·) bytes⟩
    | notReady => exact ih final
    | endOfStream | failure => exact ⟨rfl, rfl⟩

theorem bytesOf_isPrefix (arrivals items : List Incoming) :
    bytesOf arrivals <+: bytesOf (arrivals ++ items) := by
  by_cases goesOn : tailOf arrivals = []
  · rw [(tailOf_append_of_nil goesOn items).2]
    exact List.prefix_append _ _
  · rw [(tailOf_append_of_ne_nil goesOn items).2]

/-- The source has still to give what arrives. -/
theorem Source.gives_append {source : Source} {s : Bytes}
    (g : source.Gives (tailOf arrivals) s) (filled : AreFilled items) :
    ∃ more, bytesOf (arrivals ++ items) = bytesOf arrivals ++ more ∧
      Gives { source with arrived := source.arrived ++ items } (tailOf (arrivals ++ items))
        (s ++ more) := by
  obtain ⟨later, rfl, c⟩ := g
  by_cases goesOn : tailOf arrivals = []
  · obtain ⟨tail, bytes⟩ := tailOf_append_of_nil goesOn items
    rw [goesOn] at c
    refine ⟨bytesOf items, bytes, later ++ bytesOf items, List.append_assoc .., ?_⟩
    rw [tail]
    exact (c.append items).trans (carries_tailOf filled)
  · obtain ⟨tail, bytes⟩ := tailOf_append_of_ne_nil goesOn items
    refine ⟨[], by rw [bytes, List.append_nil], later, List.append_nil _, ?_⟩
    rw [tail]
    exact c.append items

end

/-! ### The end of a stream -/

/-- How a stream ends that leaves `rest` behind its last whole frame, with `tail` behind
that. -/
inductive Ends (rest : Bytes) (tail : List Incoming) : Received → Prop
  | violated (violates : Violates rest) : Ends rest tail (ending rest)
  | ended {later : List Incoming} (atEnd : tail = .endOfStream :: later) :
    Ends rest tail (ending rest)
  | failed {cause : IoError} {later : List Incoming} (within : ¬ Violates rest)
      (fails : tail = .failure cause :: later) : Ends rest tail (.failed (.io cause))

theorem Ends.unique {rest : Bytes} {tail : List Incoming} {last last' : Received}
    (ends : Ends rest tail last) (ends' : Ends rest tail last') : last = last' := by
  cases ends with
  | violated violates =>
    cases ends' with
    | violated | ended => rfl
    | failed within => exact absurd violates within
  | ended atEnd =>
    cases ends' with
    | violated | ended => rfl
    | failed within fails => cases atEnd.symm.trans fails
  | failed within fails =>
    cases ends' with
    | violated violates => exact absurd violates within
    | ended atEnd => cases atEnd.symm.trans fails
    | failed within' fails' =>
      cases fails.symm.trans fails'
      rfl

/-- A stream ends well behind its last frame. -/
theorem Ends.ended_iff {s rest : Bytes} {packets : List Packet} {tail : List Incoming}
    {last : Received} (front : Front s packets rest) (ends : Ends rest tail last) :
    last = .ended ↔ rest = [] ∧ ∃ later, tail = .endOfStream :: later := by
  constructor
  · rintro rfl
    generalize well : Received.ended = last at ends
    cases ends with
    | violated violates => cases well.trans violates.ending_eq
    | ended atEnd => exact ⟨(ending_closes front.longest).ended.mp well.symm, _, atEnd⟩
    | failed => cases well
  · rintro ⟨rfl, later, atEnd⟩
    exact ends.unique (.ended atEnd)

/-- The session ends there, well or not. -/
theorem Ends.cases {rest : Bytes} {tail : List Incoming} {last : Received}
    (ends : Ends rest tail last) : last = .ended ∨ ∃ cause, last = .failed cause := by
  cases ends with
  | violated | ended => exact ending_cases rest
  | failed => exact .inr ⟨_, rfl⟩

theorem Ends.ne_closed {rest : Bytes} {tail : List Incoming} {last : Received}
    (ends : Ends rest tail last) : last ≠ .failed (.hub .closed) := by
  have never : ending rest ≠ .failed (.hub .closed) := by
    rw [ending]
    split
    · simp
    · split
      · simp
      · split <;> simp
  cases ends with
  | violated | ended => exact never
  | failed => simp

/-- What arrives later changes nothing of how a stream has ended. -/
theorem Frame.Front.arrive {arrivals : List Incoming} {packets : List Packet} {rest : Bytes}
    {last : Received} (front : Front (bytesOf arrivals) packets rest)
    (ends : Ends rest (tailOf arrivals) last) (items : List Incoming) :
    ∃ rest', Front (bytesOf (arrivals ++ items)) packets rest' ∧
      Ends rest' (tailOf (arrivals ++ items)) last := by
  by_cases goesOn : tailOf arrivals = []
  · obtain ⟨-, bytes⟩ := tailOf_append_of_nil goesOn items
    cases ends with
    | ended atEnd => cases goesOn.symm.trans atEnd
    | failed within fails => cases goesOn.symm.trans fails
    | violated v =>
      have same : ending rest = ending (rest ++ bytesOf items) := by
        rw [(v.append _).ending_eq, v.ending_eq, announced_append v.1]
      refine ⟨rest ++ bytesOf items, ⟨?_, front.legal, ?_⟩, ?_⟩
      · rw [bytes, front.split, List.append_assoc]
      · exact fun p legal => (v.append _).not_encode_isPrefix legal
      · rw [same]
        exact .violated (v.append _)
  · obtain ⟨tail, bytes⟩ := tailOf_append_of_ne_nil goesOn items
    refine ⟨rest, by rwa [bytes], ?_⟩
    rw [tail]
    cases ends with
    | violated v => exact .violated v
    | ended atEnd => exact .ended (congrArg (· ++ items) atEnd)
    | failed within fails => exact .failed within (congrArg (· ++ items) fails)

/-! ### Submissions -/

theorem Reader.not_violates {held : Bytes} {n : Nat} (lacks : demand held = .more n) :
    ¬ Violates held := by
  rintro ⟨whole, large⟩
  rcases demand_more lacks with ⟨pos, short | ⟨-, small, -⟩⟩ <;> omega

/-- A reader of what has arrived, of which `packets` have been read: it holds a part of the
next frame, and the rest is on its way. -/
structure Reader.Reads (arrivals : List Incoming) (packets : List Packet) (r : Reader) : Prop where
  gives : ∃ later, bytesOf arrivals = row packets ++ (r.held ++ later) ∧
    r.source.Gives (tailOf arrivals) later
  legal : ∀ p ∈ packets, p.length ≤ limit
  lacks : ∃ n, demand r.held = .more n
  within : Reader.Within r.held

namespace ProducerSession

/-- The session has submitted the packets `sent` of what has arrived. -/
inductive Submits (arrivals : List Incoming) (sent : List Packet) (p : ProducerSession) : Prop
  | busy (busy : p.IsBusy) (reads : p.reader.Reads arrivals sent)
      (counted : p.stats = .ofPackets sent)
  /-- It has come to the end of the stream. -/
  | finished {result : Except Error SessionStats} {rest : Bytes} (ended : p.HasEnded result)
      (front : Front (bytesOf arrivals) sent rest)
      (ends : Ends rest (tailOf arrivals) (verdict result))
      (counted : ∀ stats, result = .ok stats → stats = .ofPackets sent)
  /-- The hub has refused a packet, or the session was broken off. -/
  | cut (why : p.HasEnded (.error (.hub .closed)) ∨ p.phase = .aborted)
      (front : row sent <+: bytesOf arrivals) (legal : ∀ p ∈ sent, p.length ≤ limit)

namespace Submits

variable {arrivals items : List Incoming} {sent : List Packet} {p p' : ProducerSession}

theorem start {source : Source} (empty : source.buffer = []) (filled : AreFilled source.arrived) :
    (ProducerSession.start source).Submits source.arrived [] := by
  refine .busy (.inl rfl) ⟨⟨bytesOf source.arrived, rfl, bytesOf source.arrived, ?_,
    carries_tailOf filled⟩, List.forall_mem_nil _, ⟨_, rfl⟩, .nil⟩ rfl
  show bytesOf source.arrived = source.buffer ++ bytesOf source.arrived
  rw [empty, List.nil_append]

/-- What has been submitted are the first packets that have arrived. -/
theorem isPrefix (sub : p.Submits arrivals sent) :
    row sent <+: bytesOf arrivals ∧ ∀ q ∈ sent, q.length ≤ limit := by
  cases sub with
  | busy busy reads =>
    obtain ⟨later, split, -⟩ := reads.gives
    exact ⟨⟨_, split.symm⟩, reads.legal⟩
  | finished ended front => exact ⟨⟨_, front.split.symm⟩, front.legal⟩
  | cut why front legal => exact ⟨front, legal⟩

/-- More arrives. -/
theorem arrive (sub : p.Submits arrivals sent) (filled : AreFilled items) :
    (p.arrive items).Submits (arrivals ++ items) sent := by
  cases sub with
  | busy busy reads counted =>
    obtain ⟨later, split, gives⟩ := reads.gives
    obtain ⟨more, bytes, gives'⟩ := Source.gives_append gives filled
    refine .busy busy ⟨⟨later ++ more, ?_, gives'⟩, reads.legal, reads.lacks, reads.within⟩ counted
    rw [bytes, split, List.append_assoc, List.append_assoc]
    rfl
  | finished ended front ends counted =>
    obtain ⟨rest', front', ends'⟩ := front.arrive ends items
    exact .finished ended front' ends' counted
  | cut why front legal => exact .cut why (front.trans (bytesOf_isPrefix arrivals items)) legal

/-- A call that returns lets the session read on, or ends it. -/
theorem hear (sub : p.Submits arrivals sent) (events : List Hub.Event) :
    (p.hear events).Submits arrivals sent := by
  rcases p.hear_outcome events with same | ⟨ticket, submitting, same | same⟩
  · rwa [same]
  · rw [same]
    cases sub with
    | busy busy reads counted => exact .busy (.inl rfl) reads counted
    | finished ended => exact absurd (.inr ⟨ticket, submitting⟩) ended.not_isBusy
    | cut why =>
      rcases why with ended | aborted
      · exact absurd (.inr ⟨ticket, submitting⟩) ended.not_isBusy
      · cases submitting.symm.trans aborted
  · rw [same]
    obtain ⟨front, legal⟩ := sub.isPrefix
    exact .cut (.inl (.inl rfl)) front legal

/-- A session that reads on submits the next packet, waits for more, or ends as the stream
does. -/
theorem read (reads : p.reader.Reads arrivals sent) (counted : p.stats = .ofPackets sent)
    (h : Hub) :
    (∃ packet reader, p.read h = ({ p with
          reader, stats := p.stats.record packet.length, phase := .submitting h.nextTicket },
          h.call (.packet packet)) ∧ reader.Reads arrivals (sent ++ [packet])) ∨
      (∃ reader, p.read h = ({ p with reader }, h, []) ∧ reader.Reads arrivals sent) ∨
      ∃ reader result rest, p.read h = ({ p with reader, phase := .leaving result }, h, []) ∧
        Front (bytesOf arrivals) sent rest ∧ Ends rest (tailOf arrivals) (verdict result) ∧
        ∀ stats, result = .ok stats → stats = .ofPackets sent := by
  obtain ⟨s, split, gives⟩ := reads.gives
  have yields := Reader.complete_yields reads.within gives (isTail_tailOf arrivals)
  rw [← Reader.next] at yields
  rcases came : p.reader.next with ⟨received, reader⟩
  rw [came] at yields
  -- The session ends as the stream does.
  have leaves {received : Received} (came : p.reader.next = (received, reader))
      (longest : ∀ q : Packet, q.length ≤ limit → ¬ encode q <+: p.reader.held ++ s)
      (ends : Ends (p.reader.held ++ s) (tailOf arrivals) received) :
      ∃ reader result rest, p.read h = ({ p with reader, phase := .leaving result }, h, []) ∧
        Front (bytesOf arrivals) sent rest ∧ Ends rest (tailOf arrivals) (verdict result) ∧
        ∀ stats, result = .ok stats → stats = .ofPackets sent := by
    rcases ends.cases with rfl | ⟨cause, rfl⟩
    · refine ⟨reader, .ok p.stats, _, ?_, ⟨split, reads.legal, longest⟩, ends, ?_⟩
      · simp only [ProducerSession.read, came]
      · rintro stats ⟨⟩
        exact counted
    · refine ⟨reader, .error cause, _, ?_, ⟨split, reads.legal, longest⟩, ends, by simp⟩
      simp only [ProducerSession.read, came]
  cases yields with
  | @packet packet rest source legal here gives' =>
    refine .inl ⟨packet, ⟨[], source⟩, ?_, ⟨⟨rest, ?_, gives'⟩, ?_, ⟨_, rfl⟩, .nil⟩⟩
    · simp only [ProducerSession.read, came]
    · rw [split, here, row_append, row_cons, row_nil, List.append_nil, List.append_assoc]
      rfl
    · exact List.forall_mem_append.mpr ⟨reads.legal, List.forall_mem_singleton.mpr legal⟩
  | violated v =>
    exact .inr (.inr (leaves came (fun _ legal => v.not_encode_isPrefix legal) (.violated v)))
  | ended lacks atEnd =>
    refine .inr (.inr (leaves came (fun _ legal => ?_) (.ended atEnd)))
    exact Reader.not_encode_isPrefix lacks legal
  | failed lacks fails =>
    refine .inr (.inr (leaves came (fun _ legal => ?_) (.failed ?_ fails)))
    · exact Reader.not_encode_isPrefix lacks legal
    · exact Reader.not_violates lacks
  | @starved source n lacks within isOpen gives' =>
    refine .inr (.inl ⟨⟨p.reader.held ++ s, source⟩, ?_, ⟨⟨[], ?_, gives'⟩, reads.legal,
      ⟨_, lacks⟩, within⟩⟩)
    · simp only [ProducerSession.read, came]
    · rw [List.append_nil]
      exact split

/-- What the session does itself. -/
theorem step?_cases (sub : p.Submits arrivals sent) {h h' : Hub} {events : List Hub.Event}
    (hs : p.step? h = some (p', h', events)) :
    (∃ packet, h.call (.packet packet) = (h', events) ∧ p.phase = .reading ∧
        p'.phase = .submitting h.nextTicket ∧ p'.Submits arrivals (sent ++ [packet])) ∨
      (h' = h ∨ h' = h.dropHandle) ∧ events = [] ∧ p'.Submits arrivals sent ∧
        (p'.phase = .reading ∧ p.phase = .reading ∨ ∃ result, p'.HasEnded result ∧
          (p.HasEnded result ∨ p.phase = .reading ∧ result ≠ .error (.hub .closed))) := by
  obtain ⟨reader, stats, phase⟩ := p
  cases phase with
  | submitting ticket => cases hs
  | ended result => cases hs
  | aborted => cases hs
  | leaving result =>
    cases hs
    refine .inr ⟨.inr rfl, rfl, ?_, .inr ⟨result, .inr rfl, .inl (.inl rfl)⟩⟩
    cases sub with
    | busy busy => exact absurd busy (HasEnded.not_isBusy (.inl rfl))
    | finished ended front ends counted =>
      rcases ended with ended | ended <;> cases ended
      exact .finished (.inr rfl) front ends counted
    | cut why front legal =>
      rcases why with (ended | ended) | aborted
      · cases ended
        exact .cut (.inl (.inr rfl)) front legal
      · cases ended
      · cases aborted
  | reading =>
    cases sub with
    | finished ended => rcases ended with ended | ended <;> cases ended
    | cut why => rcases why with (ended | ended) | aborted <;> contradiction
    | busy busy reads counted =>
      simp only [step?] at hs
      split at hs
      · cases hs
      · rcases Submits.read reads counted h with ⟨packet, reader', does, reads'⟩ |
          ⟨reader', does, reads'⟩ | ⟨reader', result, rest, does, front, ends, counted'⟩
        · rw [does] at hs
          obtain ⟨rfl, called⟩ := Prod.mk.inj (Option.some.inj hs)
          refine .inl ⟨packet, called, rfl, rfl, .busy (.inr ⟨_, rfl⟩) reads' ?_⟩
          rw [SessionStats.ofPackets_concat, ← counted]
        · rw [does] at hs
          cases hs
          exact .inr ⟨.inl rfl, rfl, .busy (.inl rfl) reads' counted, .inl ⟨rfl, rfl⟩⟩
        · rw [does] at hs
          cases hs
          refine .inr ⟨.inl rfl, rfl, .finished (.inl rfl) front ends counted',
            .inr ⟨result, .inl rfl, .inr ⟨rfl, ?_⟩⟩⟩
          rintro rfl
          exact ends.ne_closed rfl

/-- A session that is broken off has submitted what it has submitted. -/
theorem abort (sub : p.Submits arrivals sent) {h h' : Hub} {events : List Hub.Event}
    (ha : p.abort h = (p', h', events)) : p'.Submits arrivals sent := by
  obtain ⟨front, legal⟩ := sub.isPrefix
  obtain ⟨reader, stats, phase⟩ := p
  cases phase with
  | reading | leaving =>
    cases ha
    exact .cut (.inr rfl) front legal
  | submitting ticket =>
    cases ha
    exact .cut (.inr rfl) front legal
  | ended | aborted =>
    cases ha
    exact sub

/-- A session that reads and can do nothing has submitted all packets that have arrived. -/
theorem of_waits (sub : p.Submits arrivals sent) (reading : p.phase = .reading) {h : Hub}
    (waits : p.step? h = none) :
    ∃ rest, Front (bytesOf arrivals) sent rest ∧ tailOf arrivals = [] ∧ ¬ Violates rest := by
  have exhausted : p.reader.source.isExhausted = true := by
    by_contra more
    simp [step?, reading, more] at waits
  cases sub with
  | finished ended => rcases ended with ended | ended <;> cases reading.symm.trans ended
  | cut why =>
    rcases why with (ended | ended) | aborted
    · cases reading.symm.trans ended
    · cases reading.symm.trans ended
    · cases reading.symm.trans aborted
  | busy busy reads counted =>
    obtain ⟨s, split, later, rfl, c⟩ := reads.gives
    obtain ⟨n, lacks⟩ := reads.lacks
    rw [Source.isExhausted, Bool.and_eq_true, List.isEmpty_iff, List.isEmpty_iff] at exhausted
    rw [exhausted.2] at c
    generalize tailOf arrivals = tail at c
    cases c with
    | done =>
      rw [exhausted.1, List.append_nil, List.append_nil] at split
      refine ⟨p.reader.held, ⟨split, reads.legal, fun q legal => ?_⟩, rfl, ?_⟩
      · exact Reader.not_encode_isPrefix lacks legal
      · exact Reader.not_violates lacks

end Submits

end ProducerSession

end VideoRelay

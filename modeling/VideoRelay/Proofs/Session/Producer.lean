/-
A producer's session and the stream that it reads.

* `Stream` — what has come on a connection so far;
* `Stream.Over` — the stream has ended, or violates the format, behind these packets, and
  nothing can come that changes them;
* `ProducerSession.Follows` — the session has submitted the first packets of the stream, or
  all that there are if it is over, and says then how the stream ends;
* `Follows.send`, `Follows.finish`, `Follows.hear`, `Follows.step?_cases` — whatever comes,
  and whatever it does, a session follows its stream;
* `Follows.front_of_waits` — with nothing left to do, it has submitted all packets with
  which the stream begins.
-/
import VideoRelay.Proofs.Frame.Pending
import VideoRelay.Proofs.System.News

open VideoRelay.Frame

namespace VideoRelay

/-! ### Streams -/

/-- What has come on a connection. -/
structure Stream where
  bytes : Bytes
  isFinished : Bool
  deriving DecidableEq, Repr

namespace Stream

def empty : Stream := ⟨[], false⟩

/-- More comes, unless the end has come. -/
def send (s : Stream) (data : Bytes) : Stream :=
  if s.isFinished then s else { s with bytes := s.bytes ++ data }

def finish (s : Stream) : Stream := { s with isFinished := true }

/-- The stream begins with the frames of `packets`, and `rest` is behind them, with which
it has ended or violates the format. -/
structure Over (s : Stream) (packets : List Packet) (rest : Bytes) : Prop where
  front : Front s.bytes packets rest
  final : s.isFinished = true ∨ Violates rest

/-- What comes later changes nothing in front of it, nor how it ends. -/
theorem Over.send {s : Stream} {packets : List Packet} {rest : Bytes}
    (settled : s.Over packets rest) (data : Bytes) :
    ∃ rest', (s.send data).Over packets rest' ∧ ending rest' = ending rest := by
  by_cases finished : s.isFinished = true
  · have same : s.send data = s := if_pos finished
    exact ⟨rest, by rwa [same], rfl⟩
  · have v : Violates rest := settled.final.resolve_left finished
    have sent : s.send data = { s with bytes := s.bytes ++ data } := if_neg finished
    refine ⟨rest ++ data, ⟨⟨?_, settled.front.legal, ?_⟩, .inr (v.append data)⟩, ?_⟩
    · rw [sent, ← List.append_assoc]
      exact congrArg (· ++ data) settled.front.split
    · exact fun p legal => (v.append data).not_encode_isPrefix legal
    · rw [(v.append data).ending_eq, v.ending_eq, announced_append v.1]

theorem Over.finish {s : Stream} {packets : List Packet} {rest : Bytes}
    (settled : s.Over packets rest) : s.finish.Over packets rest := ⟨settled.front, .inl rfl⟩

/-- Nothing can come any more that changes with which packets the stream begins. -/
def IsSettled (s : Stream) : Prop := ∃ packets rest, s.Over packets rest

/-- The source has still to give all of the stream that is behind `front`. -/
def Behind (s : Stream) (front : Bytes) (source : Source) : Prop :=
  ∃ later, s.bytes = front ++ later ∧ source.Brings s.isFinished later

theorem Behind.send {s : Stream} {front : Bytes} {source : Source} (b : s.Behind front source)
    {data : Bytes} (some_data : data ≠ []) :
    (s.send data).Behind front { source with arrived := source.arrived ++ [.chunk data] } := by
  obtain ⟨later, split, brings⟩ := b
  cases finished : s.isFinished with
  | true =>
    have same : s.send data = s := if_pos finished
    rw [same]
    rw [finished] at brings
    exact ⟨later, split, finished ▸ brings.ignore _⟩
  | false =>
    have sent : s.send data = { s with bytes := s.bytes ++ data } := if_neg (by simp [finished])
    rw [sent]
    rw [finished] at brings
    refine ⟨later ++ data, ?_, ?_⟩
    · rw [← List.append_assoc, ← split]
    · exact finished ▸ brings.send some_data

theorem Behind.finish {s : Stream} {front : Bytes} {source : Source} (b : s.Behind front source) :
    s.finish.Behind front { source with arrived := source.arrived ++ [.endOfStream] } := by
  obtain ⟨later, split, brings⟩ := b
  refine ⟨later, split, ?_⟩
  cases finished : s.isFinished with
  | true =>
    rw [finished] at brings
    exact brings.ignore _
  | false =>
    rw [finished] at brings
    exact brings.finish

end Stream

theorem row_append (packets more : List Packet) : row (packets ++ more) = row packets ++ row more :=
  List.flatMap_append

theorem ending_cases (rest : Bytes) :
    ending rest = .ended ∨ ∃ cause, ending rest = .failed cause := by
  rw [ending]
  split
  · exact .inl rfl
  · split
    · exact .inr ⟨_, rfl⟩
    · split <;> exact .inr ⟨_, rfl⟩

/-! ### Following a stream -/

/-- How a session ended, as the end of a row of frames. -/
def verdict : Except Error SessionStats → Received
  | .ok _ => .ended
  | .error cause => .failed cause

/-- A reader in the middle of a stream, of which `packets` have been read: it holds a part
of the next frame, and the rest is on its way. -/
structure Reader.Amid (stream : Stream) (packets : List Packet) (r : Reader) : Prop where
  rest : stream.Behind (row packets ++ r.held) r.source
  legal : ∀ p ∈ packets, p.length ≤ limit
  lacks : ∃ n, demand r.held = .more n
  within : Reader.Within r.held

namespace ProducerSession

/-- The session reads, or waits for its last packet to be accepted. -/
def IsBusy (p : ProducerSession) : Prop :=
  p.phase = .reading ∨ ∃ ticket, p.phase = .submitting ticket

/-- The session has come to an end of its own. -/
def HasEnded (p : ProducerSession) (result : Except Error SessionStats) : Prop :=
  p.phase = .leaving result ∨ p.phase = .ended result

theorem HasEnded.not_isBusy {p : ProducerSession} {result : Except Error SessionStats}
    (ended : p.HasEnded result) : ¬ p.IsBusy := by
  rintro (reading | ⟨ticket, submitting⟩)
  · rcases ended with ended | ended <;> cases reading.symm.trans ended
  · rcases ended with ended | ended <;> cases submitting.symm.trans ended

theorem phase_of_result? {p : ProducerSession} {result : Except Error SessionStats}
    (came : p.result? = some result) : p.phase = .ended result := by
  rw [result?] at came
  split at came
  · rename_i ended
    cases came
    exact ended
  · cases came

/-- The session has read of `stream` what has come, and `sent` is what it has submitted. -/
inductive Follows (stream : Stream) (sent : List Packet) (p : ProducerSession) : Prop
  | amid (busy : p.IsBusy) (amid : p.reader.Amid stream sent)
  | settled {result : Except Error SessionStats} {rest : Bytes} (ended : p.HasEnded result)
      (settled : stream.Over sent rest) (told : verdict result = ending rest)

theorem answer_of_not_submitting {p : ProducerSession} {ticket : Nat}
    (other : p.phase ≠ .submitting ticket) (reply : Hub.Reply) : p.answer ticket reply = p := by
  obtain ⟨reader, stats, phase⟩ := p
  cases phase with
  | submitting own => exact if_neg fun same => other (congrArg _ same)
  | _ => rfl

theorem answer_of_submitting {p : ProducerSession} {ticket : Nat}
    (submitting : p.phase = .submitting ticket) {reply : Hub.Reply} (live : reply ≠ .closed) :
    p.answer ticket reply = { p with phase := .reading } := by
  obtain ⟨reader, stats, phase⟩ := p
  cases submitting
  cases reply with
  | closed => exact absurd rfl live
  | _ => exact if_pos rfl

theorem answer_of_refused {p : ProducerSession} {ticket : Nat}
    (submitting : p.phase = .submitting ticket) :
    p.answer ticket .closed = { p with phase := .leaving (.error (.hub .closed)) } := by
  obtain ⟨reader, stats, phase⟩ := p
  cases submitting
  exact if_pos rfl

theorem hear_of_returned {p : ProducerSession} {ticket : Nat} {events : List Hub.Event}
    (submitting : p.phase = .submitting ticket) (ended : ∃ reply, .returned ticket reply ∈ events) :
    ∃ reply, .returned ticket reply ∈ events ∧ p.hear events = p.answer ticket reply := by
  induction events with
  | nil =>
    obtain ⟨reply, mem⟩ := ended
    cases mem
  | cons e events ih =>
    by_cases told : ∃ reply, e = .returned ticket reply
    · obtain ⟨reply, rfl⟩ := told
      refine ⟨reply, List.mem_cons_self, ?_⟩
      show ProducerSession.hear events (p.answer ticket reply) = _
      -- Whoever has been answered waits for no call.
      refine hear_eq_self fun other reply' _ => answer_of_not_submitting ?_ reply'
      obtain ⟨reader, stats, phase⟩ := p
      cases submitting
      simp only [answer, if_true]
      cases reply <;> simp
    · have deaf : p.hear [e] = p := by
        refine hear_eq_self fun other reply mem => answer_of_not_submitting ?_ reply
        intro own
        cases submitting.symm.trans own
        exact told ⟨reply, (List.mem_singleton.mp mem).symm⟩
      obtain ⟨reply, later, same⟩ := ih (ended.imp fun reply mem =>
        (List.mem_cons.mp mem).resolve_left fun here => told ⟨reply, here.symm⟩)
      refine ⟨reply, List.mem_cons_of_mem _ later, Eq.trans ?_ same⟩
      exact (hear_append _ [e] events p).trans (congrArg (ProducerSession.hear events) deaf)

/-- A session that waits for a call is told how it has ended; all others hear nothing. -/
theorem hear_replied (p : ProducerSession) (events : List Hub.Event) :
    (p.hear events = p ∧ ∀ ticket, p.phase = .submitting ticket →
        ∀ reply, .returned ticket reply ∉ events) ∨
      ∃ ticket reply, p.phase = .submitting ticket ∧ .returned ticket reply ∈ events ∧
        p.hear events = p.answer ticket reply := by
  by_cases told : ∃ ticket, p.phase = .submitting ticket ∧ ∃ reply, .returned ticket reply ∈ events
  · obtain ⟨ticket, submitting, ended⟩ := told
    obtain ⟨reply, mem, same⟩ := hear_of_returned submitting ended
    exact .inr ⟨ticket, reply, submitting, mem, same⟩
  · refine .inl ⟨hear_eq_self fun ticket reply mem => answer_of_not_submitting ?_ reply, ?_⟩
    · exact fun own => told ⟨ticket, own, reply, mem⟩
    · exact fun ticket own reply mem => told ⟨ticket, own, reply, mem⟩

/-- A session that is told of calls goes on as before, or reads on, or has been refused. -/
theorem hear_outcome (p : ProducerSession) (events : List Hub.Event) :
    p.hear events = p ∨ ∃ ticket, p.phase = .submitting ticket ∧
      (p.hear events = { p with phase := .reading } ∨
        p.hear events = { p with phase := .leaving (.error (.hub .closed)) }) := by
  refine (p.hear_replied events).imp And.left ?_
  rintro ⟨ticket, reply, submitting, -, same⟩
  refine ⟨ticket, submitting, ?_⟩
  by_cases closed : reply = .closed
  · rw [closed, answer_of_refused submitting] at same
    exact .inr same
  · rw [answer_of_submitting submitting closed] at same
    exact .inl same

/-- As long as the hub has not stopped, a session that is told of its call reads on. -/
theorem hear_cases (p : ProducerSession) {events : List Hub.Event}
    (live : ∀ ticket, .returned ticket .closed ∉ events) :
    p.hear events = p ∧ (∀ ticket, p.phase = .submitting ticket →
        ∀ reply, .returned ticket reply ∉ events) ∨
      ∃ ticket, p.phase = .submitting ticket ∧ p.hear events = { p with phase := .reading } := by
  refine (p.hear_replied events).imp_right ?_
  rintro ⟨ticket, reply, submitting, mem, same⟩
  refine ⟨ticket, submitting, same.trans (answer_of_submitting submitting ?_)⟩
  rintro rfl
  exact live ticket mem

namespace Follows

variable {stream : Stream} {sent : List Packet} {p p' : ProducerSession}

theorem start {source : Source} (rest : stream.Behind [] source) :
    (ProducerSession.start source).Follows stream [] :=
  .amid (.inl rfl) ⟨rest, List.forall_mem_nil _, ⟨_, rfl⟩, .nil⟩

/-- What comes on the connection of a session that is over changes nothing. -/
theorem send_of_ended (f : p.Follows stream sent) {result : Except Error SessionStats}
    (ended : p.HasEnded result) (data : Bytes) : p.Follows (stream.send data) sent := by
  cases f with
  | amid busy amid => exact absurd busy ended.not_isBusy
  | settled ended settled told =>
    obtain ⟨rest', settled', same⟩ := settled.send data
    exact .settled ended settled' (told.trans same.symm)

theorem finish_of_ended (f : p.Follows stream sent) {result : Except Error SessionStats}
    (ended : p.HasEnded result) : p.Follows stream.finish sent := by
  cases f with
  | amid busy amid => exact absurd busy ended.not_isBusy
  | settled ended settled told => exact .settled ended settled.finish told

/-- What a session has read is not in what comes later. -/
theorem arrive_of_ended (f : p.Follows stream sent) {result : Except Error SessionStats}
    (ended : p.HasEnded result) (items : List Incoming) : (p.arrive items).Follows stream sent := by
  cases f with
  | amid busy amid => exact absurd busy ended.not_isBusy
  | settled ended settled told => exact .settled ended settled told

theorem send (f : p.Follows stream sent) {data : Bytes} (some_data : data ≠ []) :
    (p.arrive [.chunk data]).Follows (stream.send data) sent := by
  cases f with
  | amid busy amid =>
    exact .amid busy ⟨amid.rest.send some_data, amid.legal, amid.lacks, amid.within⟩
  | settled ended settled told =>
    have f : p.Follows stream sent := .settled ended settled told
    exact (f.send_of_ended ended data).arrive_of_ended ended _

theorem finish (f : p.Follows stream sent) :
    (p.arrive [.endOfStream]).Follows stream.finish sent := by
  cases f with
  | amid busy amid => exact .amid busy ⟨amid.rest.finish, amid.legal, amid.lacks, amid.within⟩
  | settled ended settled told =>
    have f : p.Follows stream sent := .settled ended settled told
    exact (f.finish_of_ended ended).arrive_of_ended ended _

/-- A call that returns, with anything but that the hub has stopped, lets the session read
on. -/
theorem hear (f : p.Follows stream sent) {events : List Hub.Event}
    (live : ∀ ticket, .returned ticket .closed ∉ events) : (p.hear events).Follows stream sent := by
  rcases p.hear_cases live with ⟨same, -⟩ | ⟨ticket, submitting, same⟩
  · rwa [same]
  · rw [same]
    cases f with
    | amid busy amid => exact .amid (.inl rfl) amid
    | settled ended settled told => exact absurd (.inr ⟨ticket, submitting⟩) ended.not_isBusy

/-- What the session does itself: it submits a packet, or it waits for more or ends, as the
stream does. -/
theorem step?_cases (f : p.Follows stream sent) {h h' : Hub} {events : List Hub.Event}
    (hs : p.step? h = some (p', h', events)) :
    (∃ packet, h.call (.packet packet) = (h', events) ∧ p.phase = .reading ∧
        p'.phase = .submitting h.nextTicket ∧ p'.Follows stream (sent ++ [packet])) ∨
      (h' = h ∨ h' = h.dropHandle) ∧ events = [] ∧ (∀ ticket, p'.phase ≠ .submitting ticket) ∧
        p'.Follows stream sent := by
  obtain ⟨reader, stats, phase⟩ := p
  cases phase with
  | submitting ticket => cases hs
  | ended result => cases hs
  | aborted => cases hs
  | leaving result =>
    cases hs
    refine .inr ⟨.inr rfl, rfl, by simp, ?_⟩
    cases f with
    | amid busy amid => exact absurd busy (HasEnded.not_isBusy (.inl rfl))
    | settled ended settled told =>
      rcases ended with ended | ended <;> cases ended
      exact .settled (.inr rfl) settled told
  | reading =>
    cases f with
    | settled ended settled told => rcases ended with ended | ended <;> cases ended
    | amid busy amid =>
      obtain ⟨s, split, brings⟩ := amid.rest
      rw [List.append_assoc] at split
      simp only [step?] at hs
      split at hs
      · cases hs
      · have next := Reader.complete_next amid.within brings
        rw [← Reader.next] at next
        rcases came : reader.next with ⟨received, reader'⟩
        rw [came] at next
        simp only [read, came, Option.some.injEq] at hs
        -- The session ends as the stream does.
        have leaves (settled : stream.Over sent (reader.held ++ s))
            (last : received = ending (reader.held ++ s)) :
            (h' = h ∨ h' = h.dropHandle) ∧ events = [] ∧
              (∀ ticket, p'.phase ≠ .submitting ticket) ∧ p'.Follows stream sent := by
          rcases ending_cases (reader.held ++ s) with ended | ⟨cause, failed⟩
          · rw [last, ended] at hs
            cases hs
            refine ⟨.inl rfl, rfl, fun _ => Phase.noConfusion, ?_⟩
            exact .settled (.inl rfl) settled ended.symm
          · rw [last, failed] at hs
            cases hs
            refine ⟨.inl rfl, rfl, fun _ => Phase.noConfusion, ?_⟩
            exact .settled (.inl rfl) settled failed.symm
        cases next with
        | @packet packet rest source legal here brings' =>
          cases hs
          refine .inl ⟨packet, rfl, rfl, rfl, .amid (.inr ⟨_, rfl⟩) ⟨⟨rest, ?_, brings'⟩, ?_,
            ⟨_, rfl⟩, .nil⟩⟩
          · rw [split, here, row_append, row_cons, row_nil, List.append_nil, List.append_nil,
              List.append_assoc]
          · exact List.forall_mem_append.mpr ⟨amid.legal, List.forall_mem_singleton.mpr legal⟩
        | violated v =>
          have front : Front stream.bytes sent (reader.held ++ s) :=
            ⟨split, amid.legal, fun p legal => v.not_encode_isPrefix legal⟩
          exact .inr (leaves ⟨front, .inr v⟩ rfl)
        | ended lacks atEnd =>
          have front : Front stream.bytes sent (reader.held ++ s) :=
            ⟨split, amid.legal, fun p legal => Reader.not_encode_isPrefix lacks legal⟩
          exact .inr (leaves ⟨front, .inl atEnd⟩ rfl)
        | starved lacks within unfinished brings' =>
          cases hs
          refine .inr ⟨.inl rfl, rfl, fun _ => Phase.noConfusion, .amid (.inl rfl)
            ⟨⟨[], ?_, brings'⟩, amid.legal, ⟨_, lacks⟩, within⟩⟩
          rw [List.append_nil]
          exact split

/-- Where it takes no step and waits for no call, the session has submitted all packets
with which the stream begins: it is over, or it reads and more can come. -/
theorem front_of_waits (f : p.Follows stream sent) {h : Hub} (waits : p.step? h = none)
    (idle : ∀ ticket, p.phase ≠ .submitting ticket) :
    ∃ rest, Front stream.bytes sent rest ∧
      ((∃ result, p.phase = .ended result) ∧ stream.IsSettled ∨
        (∀ result, p.phase ≠ .ended result) ∧ ¬ stream.IsSettled) := by
  cases f with
  | @settled result rest ended settled told =>
    refine ⟨rest, settled.front, .inl ⟨⟨result, ended.resolve_left fun leaving => ?_⟩, ?_⟩⟩
    · rw [step?, leaving] at waits
      cases waits
    · exact ⟨sent, rest, settled⟩
  | amid busy amid =>
    have reading : p.phase = .reading := by
      rcases busy with reading | ⟨ticket, submitting⟩
      · exact reading
      · exact absurd submitting (idle ticket)
    have exhausted : p.reader.source.isExhausted = true := by
      by_contra more
      simp [step?, reading, more] at waits
    obtain ⟨later, split, brings⟩ := amid.rest
    obtain ⟨rfl, unfinished⟩ := brings.eq_nil_of_isExhausted exhausted
    obtain ⟨n, lacks⟩ := amid.lacks
    rw [List.append_nil] at split
    have front : Front stream.bytes sent p.reader.held :=
      ⟨split, amid.legal, fun q legal => Reader.not_encode_isPrefix lacks legal⟩
    refine ⟨p.reader.held, front, .inr ⟨fun result ended => ?_, ?_⟩⟩
    · cases reading.symm.trans ended
    · rintro ⟨packets, rest, settled⟩
      obtain ⟨-, rfl⟩ := front.eq settled.front
      rcases settled.final with finished | ⟨whole, large⟩
      · cases unfinished.symm.trans finished
      · -- A length that is too large would have been found.
        rcases Reader.demand_more lacks with ⟨pos, short | ⟨-, small, -⟩⟩ <;> omega

end Follows

end ProducerSession

end VideoRelay

/-
Sessions that nobody disturbs.

* `Attended` — every subscriber has a session of its own, and what its connection has
  taken, with what the session has still to write, are the frames of the packets taken;
* `Supplied` — producers' sessions follow their streams, one after the other;
* `ProducerSession.Follows.produced` — a step of such a session, seen from the hub.

Design notes: both are stated of lists, entry by entry, and each lemma is about what is
done to one entry, or to all by the news.
-/
import VideoRelay.Proofs.Hub.Calm
import VideoRelay.Proofs.Session.Producer
import VideoRelay.Proofs.Session.Subscriber
import VideoRelay.Proofs.System.Owners

open VideoRelay.Frame

namespace VideoRelay

theorem flatten_set_last {α : Type} {l : List (List α)} {i : Nat} {a : List α}
    (found : l[i]? = some a) (last : i + 1 = l.length) (new : List α) :
    (l.set i (a ++ new)).flatten = l.flatten ++ new := by
  rcases List.eq_nil_or_concat l with rfl | ⟨init, b, rfl⟩
  · cases found
  · rw [List.concat_eq_append] at found last ⊢
    rw [List.length_append, List.length_singleton] at last
    obtain rfl : i = init.length := by omega
    rw [List.getElem?_concat_length] at found
    cases found
    rw [List.set_append_right _ _ (Nat.le_refl _), Nat.sub_self, List.set_cons_zero]
    simp

/-! ### Subscribers -/

/-- Session `w` of subscriber `id` writes what was taken to a connection that takes
everything. -/
structure Attends (past : List Hub.Event) (id : Nat) (w : SubscriberSession) (l : Link) :
    Prop where
  id_eq : w.id = id
  working : w.IsWorking
  reading : l.IsReading
  bytes : l.connection.written ++ w.outstanding = row (Hub.takenBy id past)

theorem Attends.append {past events : List Hub.Event} {id : Nat} {w : SubscriberSession}
    {l : Link} (a : Attends past id w l) (noneTaken : Hub.takenBy id events = []) :
    Attends (past ++ events) id w l := by
  refine ⟨a.id_eq, a.working, a.reading, ?_⟩
  rw [Hub.takenBy_append, noneTaken, List.append_nil]
  exact a.bytes

/-- Every session attends to the subscriber of its number. -/
structure Attended (past : List Hub.Event) (writers : List SubscriberSession)
    (links : List Link) : Prop where
  counted : links.length = writers.length
  attends : ∀ i w l, writers[i]? = some w → links[i]? = some l → Attends past i w l

namespace Attended

variable {past events : List Hub.Event} {writers : List SubscriberSession} {links : List Link}
  {i : Nat} {w : SubscriberSession} {l : Link}

theorem link (a : Attended past writers links) (found : writers[i]? = some w) :
    ∃ l, links[i]? = some l ∧ Attends past i w l := by
  have known : i < links.length := a.counted ▸ (List.getElem?_eq_some_iff.mp found).1
  have there : links[i]? = some links[i] := List.getElem?_eq_getElem known
  exact ⟨_, there, a.attends i w _ found there⟩

/-- Nobody who works has to be told anything. -/
theorem hear (a : Attended past writers links) (heard : List Hub.Event) :
    writers.map (·.hear heard) = writers := by
  have deaf : ∀ w ∈ writers, w.hear heard = w := by
    intro w mem
    obtain ⟨i, found⟩ := List.mem_iff_getElem?.mp mem
    obtain ⟨l, -, attends⟩ := a.link found
    exact SubscriberSession.hear_of_isWorking attends.working heard
  rw [List.map_congr_left deaf]
  exact List.map_id _

theorem append (a : Attended past writers links)
    (noneTaken : ∀ i < writers.length, Hub.takenBy i events = []) :
    Attended (past ++ events) writers links := by
  refine ⟨a.counted, fun i w l found there => ?_⟩
  exact (a.attends i w l found there).append
    (noneTaken i (List.getElem?_eq_some_iff.mp found).1)

/-- One session and its connection go on. -/
theorem set (a : Attended past writers links) {w' : SubscriberSession} {l' : Link}
    (attends : Attends (past ++ events) i w' l')
    (others : ∀ j, j ≠ i → Hub.takenBy j events = []) :
    Attended (past ++ events) (writers.set i w') (links.set i l') := by
  refine ⟨by rw [List.length_set, List.length_set, a.counted], fun j w l found there => ?_⟩
  rcases eq_or_of_getElem?_set found with ⟨rfl, rfl⟩ | ⟨other, found⟩
  · rcases eq_or_of_getElem?_set there with ⟨-, rfl⟩ | ⟨other, -⟩
    · exact attends
    · exact absurd rfl other
  · rw [List.getElem?_set_ne other] at there
    exact (a.attends j w l found there).append (others j (Ne.symm other))

/-- A session begins for a subscriber from whom nothing has been taken. -/
theorem start (a : Attended past writers links) (capacity : Nat) (new : l.IsNew)
    (noneTaken : Hub.takenBy writers.length past = []) :
    Attended past (writers ++ [.start writers.length capacity]) (links ++ [l]) := by
  refine ⟨by simp [a.counted], fun j w l' found there => ?_⟩
  rcases eq_or_of_getElem?_concat found with ⟨rfl, rfl⟩ | found
  · rw [← a.counted, List.getElem?_concat_length] at there
    cases there
    refine ⟨rfl, rfl, new.toIsReading, ?_⟩
    rw [new.noneWritten, noneTaken]
    rfl
  · have known := (List.getElem?_eq_some_iff.mp found).1
    rw [List.getElem?_append_left (a.counted ▸ known)] at there
    exact a.attends j w l' found there

end Attended

/-! ### Producers -/

/-- What a session does at the hub is to call it with the packet that it has read, if it does
anything there. -/
theorem ProducerSession.Follows.produced {stream : Stream} {packets : List Packet}
    {p p' : ProducerSession} {h h' : Hub} {events : List Hub.Event}
    (f : p.Follows stream packets) (hs : p.step? h = some (p', h', events))
    (live : h.phase ≠ .stopped) :
    p'.Follows stream (packets ++ Hub.packetsOf (Hub.calls events)) ∧
      Hub.PlainStep h events h' ∧ Hub.joiners (Hub.calls events) = [] ∧
      (∀ ticket, p'.phase = .submitting ticket → ticket ∈ Hub.submitters h'.waiting) ∧
      ∀ ticket ∈ Hub.submitters h.waiting, ticket ∈ Hub.submitters h'.waiting := by
  rcases f.step?_cases hs with
    ⟨packet, called, -, submits, follows⟩ | ⟨handles, rfl, idle, follows⟩
  · have plain : (Hub.Command.packet packet).IsPlain := .packet packet
    rw [Hub.call_of_isPlain plain live] at called
    cases called
    refine ⟨follows, .call _ plain, rfl, ?_, ?_⟩
    · intro ticket submitting
      obtain rfl : h.nextTicket = ticket := by cases submits.symm.trans submitting; rfl
      rw [Hub.submitters_append]
      exact List.mem_append_right _ List.mem_cons_self
    · intro ticket mem
      rw [Hub.submitters_append]
      exact List.mem_append_left _ mem
  · refine ⟨?_, ?_, rfl, ?_, ?_⟩
    · have none : Hub.packetsOf (Hub.calls []) = [] := rfl
      rwa [none, List.append_nil]
    · rcases handles with rfl | rfl
      · exact .handles h'.handles
      · exact .handles _
    · exact fun ticket submitting => absurd submitting (idle ticket)
    · rcases handles with rfl | rfl <;> exact fun _ mem => mem

/-- Session `i` is over. -/
def IsOver (producers : List ProducerSession) (i : Nat) : Prop :=
  ∃ p result, producers[i]? = some p ∧ p.phase = .ended result

/-- Session `i` has submitted the packets `sent[i]` of the stream `streams[i]`; all but the
last session are over, and what a session waits for is among the calls `tickets`. -/
structure Supplied (streams : List Stream) (sent : List (List Packet))
    (producers : List ProducerSession) (tickets : List Nat) : Prop where
  counted : sent.length = producers.length
  follows : ∀ (i : Nat) (p : ProducerSession), producers[i]? = some p →
    ∃ (stream : Stream) (packets : List Packet),
      streams[i]? = some stream ∧ sent[i]? = some packets ∧ p.Follows stream packets
  serial : ∀ i p, producers[i]? = some p → i + 1 < producers.length →
    ∃ result, p.phase = .ended result
  waits : ∀ p ∈ producers, ∀ ticket, p.phase = .submitting ticket → ticket ∈ tickets

namespace Supplied

variable {streams : List Stream} {sent : List (List Packet)} {producers : List ProducerSession}
  {tickets tickets' : List Nat} {i : Nat} {p : ProducerSession}

theorem length_le (s : Supplied streams sent producers tickets) :
    producers.length ≤ streams.length := by
  by_contra more
  have found := List.getElem?_eq_getElem (Nat.not_le.mp more)
  obtain ⟨stream, packets, onStream, -⟩ := s.follows _ _ found
  exact absurd (List.getElem?_eq_some_iff.mp onStream).1 (Nat.lt_irrefl _)

/-- Whatever was submitted fits into a frame. -/
theorem legal (s : Supplied streams sent producers tickets) :
    ∀ packet ∈ sent.flatten, packet.length ≤ limit := by
  intro packet mem
  obtain ⟨packets, among, mem⟩ := List.mem_flatten.mp mem
  obtain ⟨i, here⟩ := List.mem_iff_getElem?.mp among
  have known : i < producers.length := s.counted ▸ (List.getElem?_eq_some_iff.mp here).1
  obtain ⟨stream, own, -, there, follows⟩ := s.follows i _ (List.getElem?_eq_getElem known)
  cases here.symm.trans there
  cases follows with
  | amid busy amid => exact amid.legal packet mem
  | settled ended settled told => exact settled.front.legal packet mem

/-- Calls return, and those that wait for them are told. -/
theorem hear (s : Supplied streams sent producers tickets) {events : List Hub.Event}
    (live : ∀ ticket, .returned ticket .closed ∉ events)
    (waiting : ∀ ticket ∈ tickets, ticket ∈ tickets' ∨ ∃ reply, .returned ticket reply ∈ events) :
    Supplied streams sent (producers.map (·.hear events)) tickets' := by
  refine ⟨by rw [List.length_map, s.counted], ?_, ?_, ?_⟩
  · intro i p' found
    rw [List.getElem?_map, Option.map_eq_some_iff] at found
    obtain ⟨p, found, rfl⟩ := found
    obtain ⟨stream, packets, onStream, here, follows⟩ := s.follows i p found
    exact ⟨stream, packets, onStream, here, follows.hear live⟩
  · intro i p' found notLast
    rw [List.getElem?_map, Option.map_eq_some_iff] at found
    obtain ⟨p, found, rfl⟩ := found
    obtain ⟨result, ended⟩ := s.serial i p found (by rwa [List.length_map] at notLast)
    refine ⟨result, ?_⟩
    rcases p.hear_cases live with ⟨same, -⟩ | ⟨ticket, submitting, -⟩
    · rw [same, ended]
    · cases ended.symm.trans submitting
  · intro p' mem ticket submitting
    obtain ⟨p, among, rfl⟩ := List.mem_map.mp mem
    rcases p.hear_cases live with ⟨same, untold⟩ | ⟨own, -, same⟩
    · rw [same] at submitting
      refine (waiting ticket (s.waits p among ticket submitting)).resolve_right ?_
      rintro ⟨reply, told⟩
      exact untold ticket submitting reply told
    · rw [same] at submitting
      cases submitting

/-- The last session goes on. -/
theorem set (s : Supplied streams sent producers tickets) (found : producers[i]? = some p)
    (last : i + 1 = producers.length) {p' : ProducerSession} {stream : Stream}
    {packets : List Packet} (onStream : streams[i]? = some stream)
    (follows : p'.Follows stream packets)
    (waits : ∀ ticket, p'.phase = .submitting ticket → ticket ∈ tickets')
    (waiting : ∀ ticket ∈ tickets, ticket ∈ tickets') :
    Supplied streams (sent.set i packets) (producers.set i p') tickets' := by
  refine ⟨by rw [List.length_set, List.length_set, s.counted], ?_, ?_, ?_⟩
  · intro j q there
    rcases eq_or_of_getElem?_set there with ⟨rfl, rfl⟩ | ⟨other, there⟩
    · have known := (List.getElem?_eq_some_iff.mp found).1
      exact ⟨stream, packets, onStream, List.getElem?_set_self (s.counted ▸ known), follows⟩
    · rw [List.getElem?_set_ne other]
      exact s.follows j q there
  · intro j q there notLast
    rw [List.length_set] at notLast
    rw [List.getElem?_set_ne (by omega)] at there
    exact s.serial j q there notLast
  · intro q mem ticket submitting
    rcases List.mem_or_eq_of_mem_set mem with mem | rfl
    · exact waiting ticket (s.waits q mem ticket submitting)
    · exact waits ticket submitting

/-- Something comes on a connection. -/
theorem modify (s : Supplied streams sent producers tickets)
    {f : ProducerSession → ProducerSession} {g : Stream → Stream}
    (follows : ∀ (p : ProducerSession) (stream : Stream) (packets : List Packet),
      producers[i]? = some p → p.Follows stream packets → (f p).Follows (g stream) packets)
    (same : ∀ p, (f p).phase = p.phase) :
    Supplied (streams.modify i g) sent (producers.modify i f) tickets := by
  have before (j : Nat) (q : ProducerSession) (there : (producers.modify i f)[j]? = some q) :
      ∃ p, producers[j]? = some p ∧ (if i = j then f p else p) = q := by
    rw [List.getElem?_modify] at there
    obtain ⟨p, found, set⟩ := Option.map_eq_some_iff.mp there
    exact ⟨p, found, set⟩
  refine ⟨by rw [List.length_modify, s.counted], ?_, ?_, ?_⟩
  · intro j q there
    obtain ⟨p, found, rfl⟩ := before j q there
    obtain ⟨stream, packets, onStream, here, following⟩ := s.follows j p found
    refine ⟨if i = j then g stream else stream, packets, ?_, here, ?_⟩
    · rw [List.getElem?_modify, onStream]
      rfl
    · split
      · rename_i mine
        exact follows p stream packets (mine ▸ found) following
      · exact following
  · intro j q there notLast
    rw [List.length_modify] at notLast
    obtain ⟨p, found, rfl⟩ := before j q there
    obtain ⟨result, ended⟩ := s.serial j p found notLast
    refine ⟨result, ?_⟩
    split
    · rw [same, ended]
    · exact ended
  · intro q mem ticket submitting
    obtain ⟨j, there⟩ := List.mem_iff_getElem?.mp mem
    obtain ⟨p, found, rfl⟩ := before j q there
    refine s.waits p (List.mem_of_getElem? found) ticket ?_
    split at submitting
    · rwa [same] at submitting
    · exact submitting

/-- A connection that nobody has accepted brings nothing new. -/
theorem connect (s : Supplied streams sent producers tickets) (stream : Stream) :
    Supplied (streams ++ [stream]) sent producers tickets := by
  refine ⟨s.counted, fun i p found => ?_, s.serial, s.waits⟩
  obtain ⟨own, packets, onStream, rest⟩ := s.follows i p found
  refine ⟨own, packets, ?_, rest⟩
  rw [List.getElem?_append_left (List.getElem?_eq_some_iff.mp onStream).1]
  exact onStream

/-- The next session begins, when all others are over. -/
theorem start (s : Supplied streams sent producers tickets)
    (allEnded : ∀ p ∈ producers, ∃ result, p.phase = .ended result) {stream : Stream}
    (onStream : streams[producers.length]? = some stream) (p : ProducerSession)
    (follows : p.Follows stream []) (reading : p.phase = .reading) :
    Supplied streams (sent ++ [[]]) (producers ++ [p]) tickets := by
  refine ⟨by simp [s.counted], ?_, ?_, ?_⟩
  · intro j q there
    rcases eq_or_of_getElem?_concat there with ⟨rfl, rfl⟩ | there
    · refine ⟨stream, [], onStream, ?_, follows⟩
      rw [← s.counted, List.getElem?_concat_length]
    · have known := (List.getElem?_eq_some_iff.mp there).1
      rw [List.getElem?_append_left (s.counted ▸ known)]
      exact s.follows j q there
  · intro j q there notLast
    rw [List.length_append, List.length_singleton] at notLast
    rw [getElem?_concat_ne _ (by omega)] at there
    exact allEnded q (List.mem_of_getElem? there)
  · intro q mem ticket submitting
    rcases List.mem_append.mp mem with mem | mem
    · exact s.waits q mem ticket submitting
    · rw [List.mem_singleton.mp mem, reading] at submitting
      cases submitting

end Supplied

end VideoRelay

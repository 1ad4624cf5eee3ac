/-
Writing and reading back, and what can be read at all.

* `Reader.all_recovers` — a row of packets, written as far as the connection goes, reads
  back as the packets that were reported as written, and then the end or what is torn;
* `Reader.all_accepts` — of any byte string the whole frames in front are read, and the
  clean end is reached by what writing produces and nothing else.

Design notes: the two halves meet in `Frame.Front`.  What a connection has taken is such
a front, because a frame that is torn contains no other frame.
-/
import VideoRelay.Proofs.Frame.Reading
import VideoRelay.Proofs.Frame.Writing

open VideoRelay.Frame

namespace VideoRelay

/-! ### Torn frames -/

section

variable {p : Packet} {torn : Bytes}

/-- A torn frame contains no whole frame. -/
theorem not_encode_isPrefix_of_torn (legal : p.length ≤ limit) (hfront : torn <+: encode p)
    (less : torn ≠ encode p) {q : Packet} (hq : q.length ≤ limit) : ¬ encode q <+: torn := by
  rintro ⟨between, rfl⟩
  obtain ⟨more, hmore⟩ := hfront
  rw [List.append_assoc] at hmore
  obtain ⟨rfl, hnone⟩ := eq_of_encode_append_eq hq legal (hmore.trans (List.append_nil _).symm)
  rw [(List.append_eq_nil_iff.mp hnone).1, List.append_nil] at less
  exact less rfl

theorem length_lt_of_torn (hfront : torn <+: encode p) (less : torn ≠ encode p) :
    torn.length < headSize + p.length := by
  rw [← length_encode]
  by_contra whole
  exact less (hfront.eq_of_length_le (Nat.not_lt.mp whole))

/-- Once its length is there, a torn frame announces what it should have been. -/
theorem announced_of_torn (legal : p.length ≤ limit) (hfront : torn <+: encode p)
    (whole : headSize ≤ torn.length) : announced torn = p.length := by
  obtain ⟨more, hmore⟩ := hfront
  rw [← announced_append whole more, hmore, ← List.append_nil (encode p),
    announced_encode_append legal]

end

/-- After the packets in `whole`, of all that are sent, only `torn` follows, which reads
as `last`. -/
inductive Tear (sent whole : List Packet) : Bytes → Received → Prop
  | none : Tear sent whole [] .ended
  | inHead {p : Packet} {later : List Packet} {torn : Bytes} :
    sent = whole ++ p :: later → torn <+: encode p → 1 ≤ torn.length → torn.length ≤ 3 →
      Tear sent whole torn (.failed (.protocol (.truncated 4 torn.length)))
  | inBody {p : Packet} {later : List Packet} {torn : Bytes} :
    sent = whole ++ p :: later → torn <+: encode p → 4 ≤ torn.length →
      torn.length - 4 < p.length →
        Tear sent whole torn (.failed (.protocol (.truncated p.length (torn.length - 4))))

theorem tear_ending {sent whole later : List Packet} {p : Packet} {torn : Bytes}
    (hsent : sent = whole ++ p :: later) (legal : p.length ≤ limit)
    (hfront : torn <+: encode p) (less : torn ≠ encode p) :
    Tear sent whole torn (ending torn) := by
  have hsize : headSize = 4 := rfl
  have hlt := length_lt_of_torn hfront less
  by_cases empty : torn = []
  · subst empty
    exact .none
  · have hpos := List.length_pos_iff.mpr empty
    rw [ending, if_neg empty]
    by_cases short : torn.length < headSize
    · rw [if_pos short]
      exact .inHead hsent hfront hpos (by omega)
    · have hann := announced_of_torn legal hfront (Nat.not_lt.mp short)
      rw [if_neg short, if_neg (by omega), hann]
      exact .inBody hsent hfront (by omega) (by omega)

/-- The end is clean exactly where the bytes stop between two frames. -/
theorem Frame.Front.ending_eq_ended_iff {s rest : Bytes} {packets sent : List Packet}
    (f : Front s packets rest) (hfront : packets <+: sent)
    (legal : ∀ p ∈ sent, p.length ≤ limit) :
    ending rest = .ended ↔ ∃ front, front <+: sent ∧ s = row front := by
  rw [(ending_closes f.longest).ended]
  constructor
  · rintro rfl
    exact ⟨packets, hfront, by rw [f.split, List.append_nil]⟩
  · rintro ⟨front, hfront, rfl⟩
    exact (f.eq (.of_row fun p hp => legal p (hfront.subset hp))).2

namespace Reader

/-! ### There and back -/

/-- **Torn writes are found out, and nothing else is lost.**  Packets of any sizes are
written one after the other, going on after errors, to a connection that takes what parts
it likes and fails for good once it has taken `limit?` bytes, if there is a limit.

* A packet over the limit is refused, and no byte of it is written.
* What is written is as much of the frames of the other packets as the connection takes.
* Each of these packets is reported as written exactly if its frame ends in there.
* However that arrives, the packets that were reported as written are read, and then the
  end, which is clean exactly if the bytes stop between two frames. -/
theorem all_recovers (grain : Nat → Option Nat) (limit? : Option Nat) (cause : IoError)
    (packets : List Packet) :
    let (results, c) := (Connection.limited grain limit? cause).writeFrames packets
    let whole := Connection.confirmed packets results
    results.length = packets.length ∧
    (∀ before p after, packets = before ++ p :: after → results[before.length]? = some
      (if 0xFFFFFF < p.length then
        .error (.protocol (.packetTooLarge (min p.length (2 ^ 32 - 1))))
      else if fits limit? (row (sendable (before ++ [p]))).length then .ok ()
      else .error (.io cause))) ∧
    c.written = takeUpTo limit? (row (sendable packets)) ∧
    ∃ torn last, c.written = row whole ++ torn ∧ Tear (sendable packets) whole torn last ∧
      (last = .ended ↔ ∃ front, front <+: sendable packets ∧ c.written = row front) ∧
      ∀ source : Source, source.Delivers c.written →
        (ofSource source).all = whole.map .packet ++ [last] := by
  have start := Connection.limited_offered grain limit? cause
  obtain ⟨o, hlen, hresults⟩ := Connection.writeFrames_offered start packets
  have room : fits limit? ([] : Bytes).length = true := by
    cases limit? with
    | none => rfl
    | some n => exact decide_eq_true (Nat.zero_le n)
  obtain ⟨torn, hwritten, hfront, htorn⟩ := Connection.writeFrames_torn start room packets
  rcases hsent : (Connection.limited grain limit? cause).writeFrames packets with ⟨results, c⟩
  rw [hsent] at o hlen hresults hwritten hfront htorn
  simp only [List.nil_append] at o hlen hresults hwritten hfront htorn ⊢
  have legal : ∀ p ∈ sendable packets, p.length ≤ limit := fun p hp => legal_of_mem_sendable hp
  have f : Front c.written (Connection.confirmed packets results) torn := by
    refine ⟨hwritten, fun p hp => legal p (hfront.subset hp), ?_⟩
    intro q hq
    rcases htorn with rfl | ⟨p, later, hsent, hp, less⟩
    · exact fun front => encode_ne_nil q (List.prefix_nil.mp front)
    · exact not_encode_isPrefix_of_torn (legal p (by simp [hsent])) hp less hq
  have tear : Tear (sendable packets) (Connection.confirmed packets results) torn
      (ending torn) := by
    rcases htorn with rfl | ⟨p, later, hsent, hp, less⟩
    · exact .none
    · exact tear_ending hsent (legal p (by simp [hsent])) hp less
  refine ⟨hlen, hresults, o.written, torn, ending torn, hwritten, tear, ?_, ?_⟩
  · exact f.ending_eq_ended_iff hfront legal
  · intro source d
    exact (all_delivers f d).1

/-- Of three packets the last is torn in its length; small pieces and pauses on the way
change nothing. -/
theorem torn_packet_recovered :
    let (results, c) := (Connection.limited (fun _ => some 3) (some 12)
      ⟨.brokenPipe, "gone"⟩).writeFrames [[1, 2], [], [3]]
    let source := Source.unbuffered [.chunk [2, 0], .notReady,
      .chunk [0, 0, 1, 2, 0, 0, 0, 0, 1], .chunk [0], .endOfStream]
    results = [.ok (), .ok (), .error (.io ⟨.brokenPipe, "gone"⟩)] ∧
      source.Delivers c.written ∧ (ofSource source).all =
        [.packet [1, 2], .packet [], .failed (.protocol (.truncated 4 2))] := by
  have hresults : ((Connection.limited (fun _ => some 3) (some 12)
      ⟨.brokenPipe, "gone"⟩).writeFrames [[1, 2], [], [3]]).1 =
        [.ok (), .ok (), .error (.io ⟨.brokenPipe, "gone"⟩)] := by decide +kernel
  have h := all_recovers (fun _ => some 3) (some 12) ⟨.brokenPipe, "gone"⟩ [[1, 2], [], [3]]
  rcases hsent : (Connection.limited (fun _ => some 3) (some 12)
    ⟨.brokenPipe, "gone"⟩).writeFrames [[1, 2], [], [3]] with ⟨results, c⟩
  rw [hsent] at h hresults
  simp only at h hresults ⊢
  obtain ⟨-, -, hwritten, torn, last, hsplit, tear, -, hread⟩ := h
  rw [hresults] at hsplit tear hread
  rw [hwritten] at hsplit hread
  have hsplit : row [[1, 2], []] ++ [1, 0] = row [[1, 2], []] ++ torn := hsplit
  have htorn : torn = [1, 0] := (List.append_cancel_left hsplit).symm
  have hlast : last = .failed (.protocol (.truncated 4 2)) := by
    subst htorn
    cases tear with
    | inHead => rfl
    | inBody _ _ whole _ => exact absurd whole (by decide)
  subst hlast
  have d : (Source.unbuffered [.chunk [2, 0], .notReady, .chunk [0, 0, 1, 2, 0, 0, 0, 0, 1],
      .chunk [0], .endOfStream]).Delivers [2, 0, 0, 0, 1, 2, 0, 0, 0, 0, 1, 0] :=
    ⟨_, rfl, .chunk _ _ (.pause (.chunk _ _ (.chunk _ _ (.ended _))))⟩
  exact ⟨hresults, hwritten ▸ d, hread _ d⟩

/-! ### What can be read -/

/-- The packets can all be written, and `s` is what that gives, in whatever parts. -/
def Writes (grain : Nat → Option Nat) (packets : List Packet) (s : Bytes) : Prop :=
  let (results, c) := (Connection.fresh grain none).writeFrames packets
  (∀ result ∈ results, result = .ok ()) ∧ c.written = s

theorem writes_iff (grain : Nat → Option Nat) (packets : List Packet) (s : Bytes) :
    Writes grain packets s ↔ (∀ p ∈ packets, p.length ≤ limit) ∧ s = row packets := by
  -- Without a limit nothing fails, so any cause will do.
  have start := Connection.limited_offered grain none ⟨.other, ""⟩
  obtain ⟨o, hlen, hresults⟩ := Connection.writeFrames_offered start packets
  rw [Writes, show Connection.fresh grain none = Connection.limited grain none ⟨.other, ""⟩ from rfl]
  rcases hsent : (Connection.limited grain none ⟨.other, ""⟩).writeFrames packets with ⟨results, c⟩
  rw [hsent] at o hlen hresults
  simp only at o hlen hresults ⊢
  have legal_iff : (∀ result ∈ results, result = .ok ()) ↔ ∀ p ∈ packets, p.length ≤ limit := by
    constructor
    · intro all_ok p hp
      obtain ⟨before, after, hsplit⟩ := List.append_of_mem hp
      have hp := hresults before p after hsplit
      by_contra oversize
      rw [if_pos (Nat.not_le.mp oversize)] at hp
      cases all_ok _ (List.mem_of_getElem? hp)
    · intro legal result hresult
      obtain ⟨i, hi, rfl⟩ := List.mem_iff_getElem.mp hresult
      have hi' : i < packets.length := hlen ▸ hi
      have hsplit : packets = packets.take i ++ packets[i] :: packets.drop (i + 1) := by
        rw [List.getElem_cons_drop, List.take_append_drop]
      have h := hresults _ _ _ hsplit
      rw [List.length_take_of_le (Nat.le_of_lt hi'), List.getElem?_eq_getElem hi] at h
      rw [if_neg (Nat.not_lt.mpr (legal _ (List.getElem_mem hi')))] at h
      exact Option.some.inj h
  rw [legal_iff, o.written]
  refine and_congr_right fun legal => ?_
  rw [sendable_eq_self legal]
  exact eq_comm

/-- **What can be read is a row of frames, and nothing else is.**  The calls give the
packets of the whole frames at the front of `s`, as many as there are, and each call takes
just its frame; then they give what is left to say of the rest.  The end is clean exactly
for what writing produces, and writing the packets again gives `s` back. -/
theorem all_accepts (s : Bytes) :
    ∃ packets rest, Front s packets rest ∧
      (∀ others : List Packet, (∀ p ∈ others, p.length ≤ 0xFFFFFF) → row others <+: s →
        others <+: packets) ∧
      Closes rest (ending rest) ∧
      ∀ source : Source, source.Delivers s →
        (ofSource source).all = packets.map .packet ++ [ending rest] ∧
        (∀ k ≤ packets.length, ∃ later : Source, (ofSource source).after k = ofSource later ∧
          later.Delivers (row (packets.drop k) ++ rest)) ∧
        ∀ grain, (.ended ∈ (ofSource source).all ↔ ∃ sent, Writes grain sent s) ∧
          (.ended ∈ (ofSource source).all → Writes grain packets s) := by
  obtain ⟨packets, rest, f⟩ := exists_front s
  refine ⟨packets, rest, f, fun others legal => f.isPrefix legal, ending_closes f.longest, ?_⟩
  intro source d
  obtain ⟨hall, hafter⟩ := all_delivers f d
  have clean : .ended ∈ (ofSource source).all ↔ rest = [] := by
    rw [hall, ← (ending_closes f.longest).ended]
    simp [eq_comm]
  refine ⟨hall, hafter, fun grain => ?_⟩
  have again (h : rest = []) : Writes grain packets s := by
    rw [writes_iff, f.split, h, List.append_nil]
    exact ⟨f.legal, rfl⟩
  rw [clean]
  refine ⟨⟨fun h => ⟨packets, again h⟩, ?_⟩, again⟩
  rintro ⟨sent, hsent⟩
  obtain ⟨legal, rfl⟩ := (writes_iff grain sent s).mp hsent
  exact (f.eq (.of_row legal)).2

/-- Behind one packet there is a length over the limit, and it does not matter what
follows it. -/
theorem oversize_behind_packet :
    let source := Source.unbuffered [.chunk [2, 0, 0, 0, 1], .notReady,
      .chunk [2, 255, 255, 255, 1, 7], .endOfStream]
    source.Delivers (encode [1, 2] ++ [255, 255, 255, 1, 7]) ∧
      (ofSource source).all =
        [.packet [1, 2], .failed (.protocol (.packetTooLarge 0x1FFFFFF))] := by
  obtain ⟨packets, rest, f, -, -, hread⟩ := all_accepts (encode [1, 2] ++ [255, 255, 255, 1, 7])
  have f' : Front (encode [1, 2] ++ [255, 255, 255, 1, 7]) [[1, 2]] [255, 255, 255, 1, 7] := by
    refine ⟨rfl, by decide, fun p legal front => ?_⟩
    have hann : 0x1FFFFFF = p.length := ((encode_isPrefix_iff legal).mp front).2.1
    exact absurd legal (by rw [← hann]; decide)
  obtain ⟨rfl, rfl⟩ := f.eq f'
  have d : (Source.unbuffered [.chunk [2, 0, 0, 0, 1], .notReady,
      .chunk [2, 255, 255, 255, 1, 7], .endOfStream]).Delivers
        (encode [1, 2] ++ [255, 255, 255, 1, 7]) :=
    ⟨_, rfl, .chunk _ _ (.pause (.chunk _ _ (.ended _)))⟩
  exact ⟨d, (hread _ d).1⟩

end Reader

end VideoRelay

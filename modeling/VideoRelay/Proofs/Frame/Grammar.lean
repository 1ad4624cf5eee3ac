/-
What a byte string says as a row of frames.

* `Frame.encode_isPrefix_iff`, `Frame.eq_encode_append` — a whole frame is a length
  within the limit and that many bytes, and nothing else;
* `Frame.Front` — the whole frames at the front of a byte string, as many as there are,
  and what is left;
* `Frame.exists_front`, `Frame.Front.eq` — every byte string has one front;
* `Frame.ending`, `Frame.Closes` — what the bytes that are left mean at the end.

Design notes: none of this mentions reading.  A frame is what writing makes of a packet,
so that the two directions meet in `Frame.encode` alone.
-/
import Mathlib.Data.List.Infix
import VideoRelay.Frame.Reader

namespace VideoRelay

/-- Four bytes are the number that they stand for, and likewise for any width. -/
theorem littleEndian_toNatLE (bytes : Bytes) :
    littleEndian bytes.length (Bytes.toNatLE bytes) = bytes := by
  induction bytes with
  | nil => rfl
  | cons b rest ih =>
    have hb := b.toNat_lt
    have hdiv : (b.toNat + 256 * Bytes.toNatLE rest) / 256 = Bytes.toNatLE rest := by omega
    have hbyte : UInt8.ofNat (b.toNat + 256 * Bytes.toNatLE rest) = b := by
      rw [← UInt8.toNat_inj, UInt8.toNat_ofNat']
      omega
    rw [List.length_cons, littleEndian, Bytes.toNatLE, hdiv, ih, hbyte]

namespace Frame

/-! ### One frame -/

theorem announced_append {held : Bytes} (whole : headSize ≤ held.length) (more : Bytes) :
    announced (held ++ more) = announced held := by
  rw [announced, announced, List.take_append_of_le_length whole]

theorem announced_encode_append {packet : Packet} (legal : packet.length ≤ limit)
    (more : Bytes) : announced (encode packet ++ more) = packet.length := by
  have hlt : packet.length < Nat.pow 256 headSize := Nat.lt_of_le_of_lt legal (by decide)
  rw [announced, encode, List.append_assoc, List.take_left' (length_head packet), head,
    toNatLE_littleEndian hlt]

/-- The bytes behind a length, as many as it says, make a frame together with it. -/
theorem eq_encode_append {s : Bytes} (whole : headSize + announced s ≤ s.length) :
    s = encode ((s.drop headSize).take (announced s)) ++ s.drop (headSize + announced s) := by
  have hbody : ((s.drop headSize).take (announced s)).length = announced s := by
    rw [List.length_take, List.length_drop]
    omega
  have htake : (s.take headSize).length = headSize := by
    rw [List.length_take]
    omega
  have hhead : head ((s.drop headSize).take (announced s)) = s.take headSize := by
    have h := littleEndian_toNatLE (s.take headSize)
    rw [htake] at h
    rw [head, hbody]
    exact h
  rw [encode, hhead, List.append_assoc, ← List.drop_drop, List.take_append_drop,
    List.take_append_drop]

/-- A byte string begins with the frame of `packet` if it announces its length and goes
on with its bytes. -/
theorem encode_isPrefix_iff {packet : Packet} (legal : packet.length ≤ limit) {s : Bytes} :
    encode packet <+: s ↔
      headSize ≤ s.length ∧ announced s = packet.length ∧ packet <+: s.drop headSize := by
  constructor
  · rintro ⟨rest, rfl⟩
    refine ⟨?_, announced_encode_append legal rest, rest, ?_⟩
    · rw [List.length_append, length_encode]
      omega
    · rw [encode, List.append_assoc, List.drop_left' (length_head packet)]
  · rintro ⟨whole, hann, more, hmore⟩
    have hlen := congrArg List.length hmore
    rw [List.length_append, List.length_drop] at hlen
    have heq := eq_encode_append (s := s) (by omega)
    rw [hann, ← hmore, List.take_left] at heq
    exact ⟨_, heq.symm⟩

/-- Two frames at the front of one byte string are the same. -/
theorem eq_of_encode_append_eq {p q : Packet} {s t : Bytes} (hp : p.length ≤ limit)
    (hq : q.length ≤ limit) (h : encode p ++ s = encode q ++ t) : p = q ∧ s = t := by
  have hlen : p.length = q.length := by
    rw [← announced_encode_append hp s, h, announced_encode_append hq t]
  obtain ⟨hframe, hrest⟩ := List.append_inj h (by rw [length_encode, length_encode, hlen])
  exact ⟨(List.append_inj hframe (by rw [length_head, length_head])).2, hrest⟩

theorem encode_ne_nil (packet : Packet) : encode packet ≠ [] := by
  have := length_encode packet
  intro h
  rw [h, List.length_nil, headSize] at this
  omega

/-! ### Rows of frames -/

/-- The frames of packets, one behind the other. -/
def row (packets : List Packet) : Bytes := packets.flatMap encode

@[simp] theorem row_nil : row [] = [] := rfl

@[simp] theorem row_cons (packet : Packet) (packets : List Packet) :
    row (packet :: packets) = encode packet ++ row packets := List.flatMap_cons

/-- The byte string `s` begins with the frames of `packets`, behind which `rest` is left,
and there is no whole frame behind them. -/
structure Front (s : Bytes) (packets : List Packet) (rest : Bytes) : Prop where
  split : s = row packets ++ rest
  legal : ∀ p ∈ packets, p.length ≤ limit
  longest : ∀ p : Packet, p.length ≤ limit → ¬ encode p <+: rest

theorem Front.cons {s rest : Bytes} {packet : Packet} {packets : List Packet}
    (f : Front s packets rest) (legal : packet.length ≤ limit) :
    Front (encode packet ++ s) (packet :: packets) rest where
  split := by rw [f.split, row_cons, List.append_assoc]
  legal := List.forall_mem_cons.mpr ⟨legal, f.legal⟩
  longest := f.longest

theorem Front.of_row {packets : List Packet} (legal : ∀ p ∈ packets, p.length ≤ limit) :
    Front (row packets) packets [] where
  split := (List.append_nil _).symm
  legal := legal
  longest p _ front := encode_ne_nil p (List.prefix_nil.mp front)

theorem exists_front (s : Bytes) : ∃ packets rest, Front s packets rest := by
  induction hn : s.length using Nat.strong_induction_on generalizing s with
  | h n ih =>
    by_cases front : ∃ p : Packet, p.length ≤ limit ∧ encode p <+: s
    · obtain ⟨p, legal, tail, rfl⟩ := front
      have hlen : tail.length < n := by
        rw [← hn, List.length_append, length_encode, headSize]
        omega
      obtain ⟨packets, rest, f⟩ := ih tail.length hlen tail rfl
      exact ⟨p :: packets, rest, f.cons legal⟩
    · exact ⟨[], s, rfl, List.forall_mem_nil _, fun p legal hp => front ⟨p, legal, hp⟩⟩

/-- No row of frames reaches further. -/
theorem Front.isPrefix {s rest : Bytes} {packets : List Packet} (f : Front s packets rest)
    {others : List Packet} (legal : ∀ p ∈ others, p.length ≤ limit) (h : row others <+: s) :
    others <+: packets := by
  obtain ⟨hsplit, hlegal, longest⟩ := f
  subst hsplit
  induction others generalizing packets with
  | nil => exact List.nil_prefix
  | cons q others ih =>
    obtain ⟨hq, hothers⟩ := List.forall_mem_cons.mp legal
    obtain ⟨tail, htail⟩ := h
    rw [row_cons, List.append_assoc] at htail
    cases packets with
    | nil => exact absurd ⟨_, htail⟩ (longest q hq)
    | cons p packets =>
      obtain ⟨hp, hpackets⟩ := List.forall_mem_cons.mp hlegal
      rw [row_cons, List.append_assoc] at htail
      obtain ⟨rfl, heq⟩ := eq_of_encode_append_eq hq hp htail
      exact List.cons_prefix_cons.mpr ⟨rfl, ih hothers hpackets ⟨tail, heq⟩⟩

/-- There is one front only. -/
theorem Front.eq {s rest rest' : Bytes} {packets packets' : List Packet}
    (f : Front s packets rest) (f' : Front s packets' rest') :
    packets = packets' ∧ rest = rest' := by
  have h : packets = packets' :=
    (f'.isPrefix f.legal ⟨rest, f.split.symm⟩).eq_of_length_le
      (f.isPrefix f'.legal ⟨rest', f'.split.symm⟩).length_le
  subst h
  exact ⟨rfl, List.append_cancel_left (f.split.symm.trans f'.split)⟩

/-! ### What is left -/

/-- What it means that `rest` is left, behind the last whole frame, at the end. -/
def ending (rest : Bytes) : Received :=
  if rest = [] then .ended
  else if rest.length < headSize then
    .failed (.protocol (.truncated headSize rest.length))
  else if limit < announced rest then .failed (.protocol (.packetTooLarge (announced rest)))
  else .failed (.protocol (.truncated (announced rest) (rest.length - headSize)))

/-- `last` tells exactly how the bytes in `rest` fall short of a frame. -/
structure Closes (rest : Bytes) (last : Received) : Prop where
  ended : last = .ended ↔ rest = []
  inHead : last = .failed (.protocol (.truncated 4 rest.length)) ↔
    1 ≤ rest.length ∧ rest.length ≤ 3
  oversize : ∀ n, last = .failed (.protocol (.packetTooLarge n)) ↔
    4 ≤ rest.length ∧ announced rest = n ∧ 0xFFFFFF < n
  inBody : ∀ n, last = .failed (.protocol (.truncated n (rest.length - 4))) ↔
    4 ≤ rest.length ∧ announced rest = n ∧ n ≤ 0xFFFFFF ∧ rest.length < 4 + n

theorem ending_closes {rest : Bytes}
    (longest : ∀ p : Packet, p.length ≤ limit → ¬ encode p <+: rest) :
    Closes rest (ending rest) := by
  have hsize : headSize = 4 := rfl
  have hlimit : limit = 0xFFFFFF := rfl
  rw [ending]
  split
  · rename_i empty
    subst empty
    refine ⟨?_, ?_, ?_, ?_⟩ <;> simp
  · rename_i some_left
    have hpos := List.length_pos_iff.mpr some_left
    split
    · refine ⟨?_, ?_, ?_, ?_⟩
      · simp [some_left]
      · simp
        omega
      · simp
        omega
      · simp
        omega
    · split
      · refine ⟨?_, ?_, ?_, ?_⟩
        · simp [some_left]
        · simp
          omega
        · simp
          omega
        · simp
          omega
      · -- A body that were all there would make a whole frame.
        have lacks : rest.length < 4 + announced rest := by
          by_contra whole
          have heq := eq_encode_append (s := rest) (by omega)
          refine longest _ ?_ ⟨_, heq.symm⟩
          rw [List.length_take]
          omega
        refine ⟨?_, ?_, ?_, ?_⟩
        · simp [some_left]
        · simp
          omega
        · simp
          omega
        · simp
          omega

end Frame

end VideoRelay

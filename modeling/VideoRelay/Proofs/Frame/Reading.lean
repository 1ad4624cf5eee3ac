/-
Reading a row of frames, however it arrives.

* `Delivers`, `Source.Delivers` — a byte string on its way: in chunks of any sizes, with
  any pauses, through a buffer of any size, and then the end;
* `Source.read_delivers` — what a read gives is the next part of it;
* `Reader.complete_delivers` — a call reads the next frame and no byte more, or what its
  absence means;
* `Reader.all_delivers` — all that is read is the front of the byte string.

Design notes: a reader stops in the middle of a frame only to wait for more of it, so
the induction is over the bytes to come: every read that is not the end brings one.
-/
import VideoRelay.Proofs.Frame.Grammar

open VideoRelay.Frame

namespace VideoRelay

/-! ### What arrives -/

/-- The arrivals bring `s`, piece by piece, and then the end; what comes later is not
seen. -/
inductive Delivers : List Incoming → Bytes → Prop
  | ended (later : List Incoming) : Delivers (.endOfStream :: later) []
  | pause {arrived : List Incoming} {s : Bytes} :
    Delivers arrived s → Delivers (.notReady :: arrived) s
  | chunk {arrived : List Incoming} {s : Bytes} (b : UInt8) (data : Bytes) :
    Delivers arrived s → Delivers (.chunk (b :: data) :: arrived) (b :: data ++ s)

/-- A source brings `s`: what its buffer holds and what is to arrive. -/
def Source.Delivers (source : Source) (s : Bytes) : Prop :=
  ∃ later, s = source.buffer ++ later ∧ VideoRelay.Delivers source.arrived later

theorem readArrived_delivers {arrived : List Incoming} {s : Bytes} (d : Delivers arrived s)
    {n : Nat} (hn : 0 < n) :
    ∃ bytes rest arrived', readArrived n arrived = (.data bytes, arrived') ∧
      s = bytes ++ rest ∧ Delivers arrived' rest ∧ bytes.length ≤ n ∧ (bytes = [] → s = []) := by
  induction d with
  | ended later => exact ⟨[], [], _, rfl, rfl, .ended later, Nat.zero_le n, fun _ => rfl⟩
  | pause d ih => exact ih
  | @chunk arrived s b data d ih =>
    have hlen : ((b :: data).take n).length ≤ n := by
      rw [List.length_take]
      exact Nat.min_le_left _ _
    have hne : (b :: data).take n ≠ [] := by
      rw [ne_eq, List.take_eq_nil_iff, not_or]
      exact ⟨by omega, List.cons_ne_nil b data⟩
    -- What is left of the chunk, if anything, is still to come.
    cases left : (b :: data).drop n with
    | nil =>
      refine ⟨(b :: data).take n, s, arrived, ?_, ?_, d, hlen, fun h => absurd h hne⟩
      · rw [readArrived, if_pos left]
      · rw [List.take_of_length_le (List.drop_eq_nil_iff.mp left)]
    | cons c more =>
      refine ⟨(b :: data).take n, c :: more ++ s, .chunk (c :: more) :: arrived, ?_, ?_,
        .chunk c more d, hlen, fun h => absurd h hne⟩
      · rw [readArrived, if_neg (by rw [left]; exact List.cons_ne_nil c more), left]
      · rw [← left, ← List.append_assoc, List.take_append_drop]

/-- A read gives the next bytes, as few as it likes; none only at the end. -/
theorem Source.read_delivers {source : Source} {s : Bytes} (d : source.Delivers s) {n : Nat}
    (hn : 0 < n) :
    ∃ bytes rest source', source.read n = (.data bytes, source') ∧
      s = bytes ++ rest ∧ source'.Delivers rest ∧ bytes.length ≤ n ∧ (bytes = [] → s = []) := by
  obtain ⟨later, rfl, arriving⟩ := d
  by_cases buffered : source.buffer = []
  · by_cases large : source.capacity ≤ n
    · obtain ⟨bytes, rest, arrived', hr, rfl, d', hlen, hend⟩ := readArrived_delivers arriving hn
      refine ⟨bytes, rest, { source with arrived := arrived' }, ?_, ?_, ⟨rest, ?_, d'⟩, hlen, ?_⟩
      · rw [read, if_neg (not_not.mpr buffered), if_pos large, hr]
      · rw [buffered, List.nil_append]
      · rw [buffered, List.nil_append]
      · rwa [buffered, List.nil_append]
    · -- The buffer is filled first, and what the read does not want stays there.
      obtain ⟨bytes, rest, arrived', hr, rfl, d', hlen, hend⟩ :=
        readArrived_delivers arriving (n := source.capacity) (by omega)
      refine ⟨bytes.take n, bytes.drop n ++ rest,
        { source with buffer := bytes.drop n, arrived := arrived' }, ?_, ?_, ⟨rest, rfl, d'⟩, ?_, ?_⟩
      · rw [read, if_neg (not_not.mpr buffered), if_neg large, hr]
      · rw [buffered, List.nil_append, ← List.append_assoc, List.take_append_drop]
      · rw [List.length_take]
        omega
      · intro none
        rw [List.take_eq_nil_iff] at none
        rw [buffered, List.nil_append]
        exact hend (none.resolve_left (by omega))
  · refine ⟨source.buffer.take n, source.buffer.drop n ++ later,
      { source with buffer := source.buffer.drop n }, ?_, ?_, ⟨later, rfl, arriving⟩, ?_, ?_⟩
    · rw [read, if_pos buffered]
    · rw [← List.append_assoc, List.take_append_drop]
    · rw [List.length_take]
      exact Nat.min_le_left _ _
    · intro none
      rw [List.take_eq_nil_iff] at none
      exact absurd (none.resolve_left (by omega)) buffered

/-! ### The next frame -/

namespace Reader

theorem complete_of_more {held bytes : Bytes} {source source' : Source} {n : Nat}
    (lacks : demand held = .more n) (hr : source.read n = (.data bytes, source')) :
    complete held source =
      if bytes = [] then (atEnd held, ⟨[], source'⟩) else complete (held ++ bytes) source' := by
  rw [complete, lacks]
  simp only
  split
  · rename_i heq
    rw [hr] at heq
    cases heq
  · rename_i heq
    rw [hr] at heq
    cases heq
  · rename_i heq
    rw [hr] at heq
    cases heq
    rfl
  · rename_i heq
    rw [hr] at heq
    cases heq
    rfl

theorem complete_of_complete {held : Bytes} {packet : Packet} (h : demand held = .complete packet)
    (source : Source) : complete held source = (.packet packet, ⟨[], source⟩) := by
  rw [complete, h]

theorem complete_of_oversize {held : Bytes} {n : Nat} (h : demand held = .oversize n)
    (source : Source) :
    complete held source = (.failed (.protocol (.packetTooLarge n)), ⟨[], source⟩) := by
  rw [complete, h]

theorem demand_more {held : Bytes} {n : Nat} (lacks : demand held = .more n) :
    0 < n ∧ (held.length + n = headSize ∨ headSize ≤ held.length ∧
      announced held ≤ limit ∧ held.length + n = headSize + announced held) := by
  rw [demand] at lacks
  split at lacks
  · cases lacks
    omega
  · split at lacks
    · cases lacks
    · split at lacks
      · cases lacks
        omega
      · cases lacks

theorem demand_oversize {held : Bytes} {n : Nat} (h : demand held = .oversize n) :
    headSize ≤ held.length ∧ limit < announced held ∧ n = announced held := by
  rw [demand] at h
  split at h
  · cases h
  · split at h
    · cases h
      exact ⟨by omega, by assumption, rfl⟩
    · split at h <;> cases h

theorem demand_complete {held : Bytes} {packet : Packet} (h : demand held = .complete packet) :
    announced held ≤ limit ∧ headSize + announced held ≤ held.length ∧
      packet = held.drop headSize := by
  rw [demand] at h
  split at h
  · cases h
  · split at h
    · cases h
    · split at h
      · cases h
      · cases h
        exact ⟨by omega, by omega, rfl⟩

/-- The bytes held are those of one frame at most. -/
def Within (held : Bytes) : Prop :=
  held.length ≤ headSize ∨ held.length ≤ headSize + announced held

theorem Within.nil : Within [] := .inl (Nat.zero_le _)

/-- What is demanded is part of the same frame. -/
theorem Within.append {held bytes : Bytes} {n : Nat} (lacks : demand held = .more n)
    (hlen : bytes.length ≤ n) : Within (held ++ bytes) := by
  rw [Within, List.length_append]
  rcases demand_more lacks with ⟨-, hn | ⟨whole, -, hn⟩⟩
  · exact .inl (by omega)
  · rw [announced_append whole]
    exact .inr (by omega)

theorem eq_encode_of_demand {held : Bytes} {packet : Packet} (within : Within held)
    (h : demand held = .complete packet) : held = encode packet ∧ packet.length ≤ limit := by
  obtain ⟨legal, whole, rfl⟩ := demand_complete h
  have hlen : held.length = headSize + announced held := by
    rcases within with short | short <;> omega
  have hbody : (held.drop headSize).length = announced held := by
    rw [List.length_drop]
    omega
  have heq := eq_encode_append whole
  rw [← hlen, List.drop_length, List.append_nil, List.take_of_length_le (by omega)] at heq
  exact ⟨heq, by omega⟩

/-- A frame that is lacking something is no whole frame. -/
theorem not_encode_isPrefix {held : Bytes} {n : Nat} (lacks : demand held = .more n)
    {p : Packet} (legal : p.length ≤ limit) : ¬ encode p <+: held := by
  intro front
  have hlen := front.length_le
  rw [length_encode] at hlen
  obtain ⟨whole, hann, -⟩ := (encode_isPrefix_iff legal).mp front
  rcases demand_more lacks with ⟨hpos, hn | ⟨-, -, hn⟩⟩ <;> omega

theorem atEnd_eq_ending {held : Bytes} {n : Nat} (lacks : demand held = .more n) :
    atEnd held = ending held := by
  rw [atEnd, ending]
  split
  · rfl
  · split
    · rfl
    · rcases demand_more lacks with ⟨hpos, hn | ⟨-, legal, -⟩⟩
      · omega
      · rw [if_neg (by omega)]

/-- With the bytes held and the bytes to come, the next frame is what is read, and
nothing behind it; without a whole frame in them, what is left decides. -/
theorem complete_delivers {held s : Bytes} {source : Source} (within : Within held)
    (d : source.Delivers s) :
    (∀ p rest, p.length ≤ limit → held ++ s = encode p ++ rest → ∃ source',
      complete held source = (.packet p, ⟨[], source'⟩) ∧ source'.Delivers rest) ∧
    ((∀ p : Packet, p.length ≤ limit → ¬ encode p <+: held ++ s) →
      (complete held source).1 = ending (held ++ s)) := by
  induction hm : s.length using Nat.strong_induction_on generalizing held s source with
  | h m ih =>
    cases lacks : demand held with
    | complete packet =>
      obtain ⟨rfl, legal⟩ := eq_encode_of_demand within lacks
      rw [complete_of_complete lacks]
      constructor
      · intro p rest hp heq
        obtain ⟨rfl, rfl⟩ := eq_of_encode_append_eq legal hp heq
        exact ⟨source, rfl, d⟩
      · intro none
        exact absurd ⟨s, rfl⟩ (none packet legal)
    | oversize n =>
      obtain ⟨whole, large, rfl⟩ := demand_oversize lacks
      have hann := announced_append whole s
      rw [complete_of_oversize lacks]
      constructor
      · intro p rest hp heq
        rw [heq, announced_encode_append hp] at hann
        omega
      · intro _
        have hlen : headSize ≤ (held ++ s).length := by
          rw [List.length_append]
          omega
        have hne : held ++ s ≠ [] := List.ne_nil_of_length_pos (Nat.lt_of_lt_of_le (by decide) hlen)
        rw [ending, if_neg hne, if_neg (by omega), if_pos (by omega), hann]
    | more n =>
      obtain ⟨bytes, rest, source', hr, rfl, d', hlen, hend⟩ :=
        Source.read_delivers d (demand_more lacks).1
      rw [complete_of_more lacks hr]
      by_cases atEnd : bytes = []
      · -- The end, in the middle of a frame or in front of one.
        obtain ⟨rfl, rfl⟩ := List.append_eq_nil_iff.mp (hend atEnd)
        rw [if_pos atEnd, List.append_nil, List.append_nil]
        constructor
        · intro p rest hp heq
          exact absurd ⟨rest, heq.symm⟩ (not_encode_isPrefix lacks hp)
        · intro _
          exact atEnd_eq_ending lacks
      · have hshort : rest.length < m := by
          have := List.length_pos_iff.mpr atEnd
          rw [List.length_append] at hm
          omega
        rw [if_neg atEnd, ← List.append_assoc]
        exact ih rest.length hshort (Within.append lacks hlen) d' rfl

/-! ### All frames -/

/-- The reader after so many calls. -/
def after : Nat → Reader → Reader
  | 0, r => r
  | calls + 1, r => r.next.2.after calls

theorem all_of_packet {r rest : Reader} {packet : Packet} (h : r.next = (.packet packet, rest)) :
    r.all = .packet packet :: rest.all := by
  rw [all]
  split
  · rename_i heq
    rw [h] at heq
    cases heq
    rfl
  · rename_i hne heq
    rw [h] at heq
    cases heq
    exact absurd rfl (hne packet)

theorem all_of_last {r : Reader} (h : ∀ packet, r.next.1 ≠ .packet packet) :
    r.all = [r.next.1] := by
  rw [all]
  split
  · rename_i packet rest heq
    rw [heq] at h
    exact absurd rfl (h packet)
  · rename_i heq
    rw [heq]

theorem ending_ne_packet (rest : Bytes) (packet : Packet) : ending rest ≠ .packet packet := by
  intro same
  rw [ending] at same
  split at same
  · cases same
  · split at same
    · cases same
    · split at same <;> cases same

/-- Call after call, all that is read are the frames at the front and what is left behind
them means; each call takes one frame and leaves the rest. -/
theorem all_delivers {s rest : Bytes} {packets : List Packet} (f : Front s packets rest)
    {source : Source} (d : source.Delivers s) :
    (ofSource source).all = packets.map .packet ++ [ending rest] ∧
      ∀ k ≤ packets.length, ∃ later : Source, (ofSource source).after k = ofSource later ∧
        later.Delivers (row (packets.drop k) ++ rest) := by
  obtain ⟨split, legal, longest⟩ := f
  induction packets generalizing s source with
  | nil =>
    rw [row_nil, List.nil_append] at split
    subst split
    have hlast : (ofSource source).next.1 = ending s :=
      (complete_delivers .nil d).2 longest
    refine ⟨?_, ?_⟩
    · rw [all_of_last fun packet => hlast ▸ ending_ne_packet s packet, hlast]
      rfl
    · intro k hk
      obtain rfl : k = 0 := Nat.le_zero.mp hk
      exact ⟨source, rfl, d⟩
  | cons p packets ih =>
    obtain ⟨hp, hpackets⟩ := List.forall_mem_cons.mp legal
    rw [row_cons, List.append_assoc] at split
    obtain ⟨source', hnext, d'⟩ :=
      (complete_delivers .nil d).1 p _ hp split
    have hnext : (ofSource source).next = (.packet p, ofSource source') := hnext
    obtain ⟨hall, hafter⟩ := ih d' rfl hpackets
    refine ⟨?_, ?_⟩
    · rw [all_of_packet hnext, hall]
      rfl
    · intro k hk
      cases k with
      | zero =>
        refine ⟨source, rfl, ?_⟩
        rw [List.drop_zero, row_cons, List.append_assoc, ← split]
        exact d
      | succ k =>
        rw [after, hnext]
        exact hafter k (Nat.le_of_succ_le_succ hk)

end Reader

end VideoRelay

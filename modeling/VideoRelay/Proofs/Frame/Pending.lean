/-
Reading a stream that has not come to its end.

* `Carries`, `Source.Gives`, `Source.Brings` — what is on its way: some bytes, and behind
  them nothing yet, the end of the stream, or a failure;
* `Source.read_gives` — a read gives the next of these bytes, or finds that there are none;
* `Yields`, `Reader.complete_yields` — a call gives the next whole frame, or says why there is
  none: a violation, the end, a failure, or that more has to come;
* `Reader.isExhausted_of_starved` — a call that has to wait has read all there is;
* `Next`, `Reader.complete_next` — the same for a stream that does not fail;
* `Violates` — what begins with a length over the limit does so whatever follows.

Design notes: a call that has to wait keeps the bytes of the frame in progress, so what is
held and what is on its way are one byte string all along; only where it is cut changes.
-/
import VideoRelay.Proofs.Frame.Reading

open VideoRelay.Frame

namespace VideoRelay

/-! ### What is on its way -/

/-- The arrivals bring `s`, piece by piece, and then what is in `tail`. -/
inductive Carries (tail : List Incoming) : List Incoming → Bytes → Prop
  | done : Carries tail tail []
  | pause {arrived : List Incoming} {s : Bytes} :
    Carries tail arrived s → Carries tail (.notReady :: arrived) s
  | chunk {arrived : List Incoming} {s : Bytes} (b : UInt8) (data : Bytes) :
    Carries tail arrived s → Carries tail (.chunk (b :: data) :: arrived) (b :: data ++ s)

/-- What is left when all bytes are read: nothing, or the end of a finished stream. -/
def Stops (finished : Bool) : List Incoming → Prop
  | [] => finished = false
  | .endOfStream :: _ => finished = true
  | _ => False

/-- All that the source has still to give are the bytes `s`, and the end behind them if
the stream is finished. -/
def Source.Brings (source : Source) (finished : Bool) (s : Bytes) : Prop :=
  ∃ tail later, s = source.buffer ++ later ∧ Carries tail source.arrived later ∧
    Stops finished tail

/-- Behind the bytes there is nothing yet, or the end, or a failure. -/
inductive IsTail : List Incoming → Prop
  | nil : IsTail []
  | ended (later : List Incoming) : IsTail (.endOfStream :: later)
  | failed (cause : IoError) (later : List Incoming) : IsTail (.failure cause :: later)

/-- The source has still to give the bytes `s`, and behind them what is in `tail`. -/
def Source.Gives (source : Source) (tail : List Incoming) (s : Bytes) : Prop :=
  ∃ later, s = source.buffer ++ later ∧ Carries tail source.arrived later

theorem Stops.isTail {finished : Bool} {tail : List Incoming} (stops : Stops finished tail) :
    IsTail tail := by
  cases tail with
  | nil => exact .nil
  | cons item tail =>
    cases item with
    | endOfStream => exact .ended tail
    | chunk | notReady | failure => cases stops

theorem Source.brings_iff {source : Source} {finished : Bool} {s : Bytes} :
    source.Brings finished s ↔ ∃ tail, source.Gives tail s ∧ Stops finished tail := by
  constructor
  · rintro ⟨tail, later, split, c, stops⟩
    exact ⟨tail, ⟨later, split, c⟩, stops⟩
  · rintro ⟨tail, ⟨later, split, c⟩, stops⟩
    exact ⟨tail, later, split, c, stops⟩

theorem Carries.append {tail arrived : List Incoming} {s : Bytes} (c : Carries tail arrived s)
    (more : List Incoming) : Carries (tail ++ more) (arrived ++ more) s := by
  induction c with
  | done => exact .done
  | pause _ ih => exact .pause ih
  | chunk b data _ ih => exact .chunk b data ih

theorem Carries.trans {tail middle arrived : List Incoming} {s t : Bytes}
    (c : Carries middle arrived s) (d : Carries tail middle t) :
    Carries tail arrived (s ++ t) := by
  induction c with
  | done => exact d
  | pause _ ih => exact .pause ih
  | chunk b data _ ih =>
    rw [List.append_assoc]
    exact .chunk b data ih

theorem carries_chunk {data : Bytes} (some_data : data ≠ []) :
    Carries [] [.chunk data] data := by
  obtain ⟨b, rest, rfl⟩ := List.exists_cons_of_ne_nil some_data
  have c : Carries [] [.chunk (b :: rest)] (b :: rest ++ []) := .chunk b rest .done
  rwa [List.append_nil] at c

namespace Source.Brings

variable {source : Source} {finished : Bool} {s : Bytes}

/-- More bytes come on a stream that is not finished. -/
theorem send (b : source.Brings false s) {data : Bytes} (some_data : data ≠ []) :
    Brings { source with arrived := source.arrived ++ [.chunk data] } false (s ++ data) := by
  obtain ⟨tail, later, rfl, c, stops⟩ := b
  cases tail with
  | cons item tail => cases item <;> cases stops
  | nil =>
    refine ⟨[], later ++ data, List.append_assoc .., ?_, rfl⟩
    exact (c.append _).trans (carries_chunk some_data)

theorem finish (b : source.Brings false s) :
    Brings { source with arrived := source.arrived ++ [.endOfStream] } true s := by
  obtain ⟨tail, later, rfl, c, stops⟩ := b
  cases tail with
  | cons item tail => cases item <;> cases stops
  | nil => exact ⟨[.endOfStream], later, rfl, c.append _, rfl⟩

/-- What comes behind the end is not seen. -/
theorem ignore (b : source.Brings true s) (items : List Incoming) :
    Brings { source with arrived := source.arrived ++ items } true s := by
  obtain ⟨tail, later, rfl, c, stops⟩ := b
  cases tail with
  | nil => cases stops
  | cons item tail =>
    cases item with
    | endOfStream => exact ⟨.endOfStream :: tail ++ items, later, rfl, c.append items, rfl⟩
    | chunk | notReady | failure => cases stops

/-- Where nothing has arrived that was not read, nothing is on its way. -/
theorem eq_nil_of_isExhausted (b : source.Brings finished s)
    (exhausted : source.isExhausted = true) : s = [] ∧ finished = false := by
  obtain ⟨tail, later, rfl, c, stops⟩ := b
  rw [Source.isExhausted, Bool.and_eq_true, List.isEmpty_iff, List.isEmpty_iff] at exhausted
  rw [exhausted.2] at c
  cases c with
  | done => exact ⟨by rw [exhausted.1, List.append_nil], stops⟩

end Source.Brings

/-! ### One read -/

theorem readArrived_carries {tail arrived : List Incoming} {s : Bytes}
    (c : Carries tail arrived s) (some_left : s ≠ []) {n : Nat} (hn : 0 < n) :
    ∃ bytes rest arrived', readArrived n arrived = (.data bytes, arrived') ∧ bytes ≠ [] ∧
      s = bytes ++ rest ∧ Carries tail arrived' rest ∧ bytes.length ≤ n := by
  induction c with
  | done => exact absurd rfl some_left
  | pause _ ih => exact ih some_left
  | @chunk arrived s b data c ih =>
    have hlen : ((b :: data).take n).length ≤ n := by
      rw [List.length_take]
      exact Nat.min_le_left _ _
    have hne : (b :: data).take n ≠ [] := by
      rw [ne_eq, List.take_eq_nil_iff, not_or]
      exact ⟨by omega, List.cons_ne_nil b data⟩
    cases left : (b :: data).drop n with
    | nil =>
      refine ⟨(b :: data).take n, s, arrived, ?_, hne, ?_, c, hlen⟩
      · rw [readArrived, if_pos left]
      · rw [List.take_of_length_le (List.drop_eq_nil_iff.mp left)]
    | cons d more =>
      refine ⟨(b :: data).take n, d :: more ++ s, .chunk (d :: more) :: arrived, ?_, hne, ?_,
        .chunk d more c, hlen⟩
      · rw [readArrived, if_neg (by rw [left]; exact List.cons_ne_nil d more), left]
      · rw [← left, ← List.append_assoc, List.take_append_drop]

/-- Behind the last byte a read finds what is in the tail. -/
theorem readArrived_tail {tail arrived : List Incoming} {s : Bytes} (c : Carries tail arrived s)
    (none_left : s = []) (n : Nat) : readArrived n arrived = readArrived n tail := by
  induction c with
  | done => rfl
  | pause _ ih => exact ih none_left
  | chunk => cases none_left

/-- A read gives the next bytes, as few as it likes. -/
theorem Source.read_gives {source : Source} {tail : List Incoming} {s : Bytes}
    (g : source.Gives tail s) (some_left : s ≠ []) {n : Nat} (hn : 0 < n) :
    ∃ bytes rest source', source.read n = (.data bytes, source') ∧ bytes ≠ [] ∧
      s = bytes ++ rest ∧ source'.Gives tail rest ∧ bytes.length ≤ n := by
  obtain ⟨later, rfl, c⟩ := g
  by_cases buffered : source.buffer = []
  · rw [buffered, List.nil_append] at some_left ⊢
    by_cases large : source.capacity ≤ n
    · obtain ⟨bytes, rest, arrived', hr, hne, rfl, c', hlen⟩ := readArrived_carries c some_left hn
      refine ⟨bytes, rest, { source with arrived := arrived' }, ?_, hne, rfl, ⟨rest, ?_, c'⟩, hlen⟩
      · rw [read, if_neg (not_not.mpr buffered), if_pos large, hr]
      · rw [buffered, List.nil_append]
    · -- The buffer is filled first, and what the read does not want stays there.
      obtain ⟨bytes, rest, arrived', hr, hne, rfl, c', hlen⟩ :=
        readArrived_carries c some_left (n := source.capacity) (by omega)
      refine ⟨bytes.take n, bytes.drop n ++ rest,
        { source with buffer := bytes.drop n, arrived := arrived' }, ?_, ?_, ?_,
        ⟨rest, rfl, c'⟩, ?_⟩
      · rw [read, if_neg (not_not.mpr buffered), if_neg large, hr]
      · rw [ne_eq, List.take_eq_nil_iff, not_or]
        exact ⟨by omega, hne⟩
      · rw [← List.append_assoc, List.take_append_drop]
      · rw [List.length_take]
        exact Nat.min_le_left _ _
  · refine ⟨source.buffer.take n, source.buffer.drop n ++ later,
      { source with buffer := source.buffer.drop n }, ?_, ?_, ?_, ⟨later, rfl, c⟩, ?_⟩
    · rw [read, if_pos buffered]
    · rw [ne_eq, List.take_eq_nil_iff, not_or]
      exact ⟨by omega, buffered⟩
    · rw [← List.append_assoc, List.take_append_drop]
    · rw [List.length_take]
      exact Nat.min_le_left _ _

/-- A read that finds no bytes finds what is behind them, whatever buffer there is. -/
theorem Source.read_tail {source : Source} {tail tail' : List Incoming}
    (g : source.Gives tail []) {result : ReadResult}
    (found : ∀ k, readArrived k tail = (result, tail'))
    (short : ∀ bytes, result = .data bytes → bytes = []) (n : Nat) :
    ∃ source', source.read n = (result, source') ∧ source'.Gives tail' [] := by
  obtain ⟨later, split, c⟩ := g
  obtain ⟨buffered, rfl⟩ := List.append_eq_nil_iff.mp split.symm
  refine ⟨{ source with arrived := tail' }, ?_, [], by simp [buffered], .done⟩
  rw [read, if_neg (not_not.mpr buffered), readArrived_tail c rfl, readArrived_tail c rfl, found,
    found]
  split
  · rfl
  · cases result with
    | data bytes =>
      obtain rfl := short bytes rfl
      simp [buffered]
    | failed | blocked => rfl

theorem readArrived_blocked {n : Nat} {arrived rest : List Incoming}
    (h : readArrived n arrived = (.blocked, rest)) : rest = [] := by
  induction arrived with
  | nil =>
    cases h
    rfl
  | cons item arrived ih =>
    cases item with
    | notReady => exact ih h
    | chunk | endOfStream | failure => cases h

/-- A read that has to wait has read all there is. -/
theorem Source.isExhausted_of_blocked {n : Nat} {source source' : Source}
    (h : source.read n = (.blocked, source')) : source'.isExhausted = true := by
  rw [read] at h
  split at h
  · cases h
  · rename_i unbuffered
    have unbuffered : source.buffer = [] := not_not.mp unbuffered
    split at h
    · rcases came : readArrived n source.arrived with ⟨result, arrived⟩
      rw [came] at h
      cases h
      rw [isExhausted, unbuffered, readArrived_blocked came]
      rfl
    · rcases came : readArrived source.capacity source.arrived with ⟨result, arrived⟩
      rw [came] at h
      cases result with
      | data bytes => cases h
      | failed cause => cases h
      | blocked =>
        cases h
        rw [isExhausted, unbuffered, readArrived_blocked came]
        rfl

/-! ### One call -/

/-- The bytes begin with a length over the limit. -/
def Violates (s : Bytes) : Prop := headSize ≤ s.length ∧ limit < announced s

theorem Violates.append {s : Bytes} (v : Violates s) (more : Bytes) : Violates (s ++ more) := by
  refine ⟨?_, ?_⟩
  · rw [List.length_append]
    exact Nat.le_add_right_of_le v.1
  · rw [announced_append v.1]
    exact v.2

/-- Whatever follows, there is no frame in front. -/
theorem Violates.not_encode_isPrefix {s : Bytes} (v : Violates s) {p : Packet}
    (legal : p.length ≤ limit) : ¬ encode p <+: s := by
  intro front
  obtain ⟨whole, hann, -⟩ := (encode_isPrefix_iff legal).mp front
  exact absurd v.2 (by omega)

theorem Violates.ending_eq {s : Bytes} (v : Violates s) :
    ending s = .failed (.protocol (.packetTooLarge (announced s))) := by
  have some_left : s ≠ [] := List.ne_nil_of_length_pos (Nat.lt_of_lt_of_le (by decide) v.1)
  rw [ending, if_neg some_left, if_neg (Nat.not_lt.mpr v.1), if_pos v.2]

namespace Reader

/-- What a call gives, and what reader is left, when `s` are the bytes held and those on
their way, and `tail` is behind them. -/
inductive Yields (tail : List Incoming) (s : Bytes) : Received × Reader → Prop
  | packet {p : Packet} {rest : Bytes} {source : Source} (legal : p.length ≤ limit)
      (split : s = encode p ++ rest) (gives : source.Gives tail rest) :
    Yields tail s (.packet p, ⟨[], source⟩)
  | violated {reader : Reader} (violates : Violates s) : Yields tail s (ending s, reader)
  | ended {reader : Reader} {n : Nat} (lacks : demand s = .more n) {later : List Incoming}
      (atEnd : tail = .endOfStream :: later) : Yields tail s (ending s, reader)
  | failed {reader : Reader} {n : Nat} (lacks : demand s = .more n) {cause : IoError}
      {later : List Incoming} (fails : tail = .failure cause :: later) :
    Yields tail s (.failed (.io cause), reader)
  | starved {source : Source} {n : Nat} (lacks : demand s = .more n) (within : Within s)
      (isOpen : tail = []) (gives : source.Gives tail []) :
    Yields tail s (.starved, ⟨s, source⟩)

theorem complete_of_blocked {held : Bytes} {source source' : Source} {n : Nat}
    (lacks : demand held = .more n) (hr : source.read n = (.blocked, source')) :
    complete held source = (.starved, ⟨held, source'⟩) := by
  rw [complete, lacks]
  simp only
  split <;> rename_i heq <;> rw [hr] at heq <;> cases heq
  rfl

theorem complete_of_failed {held : Bytes} {source source' : Source} {n : Nat} {cause : IoError}
    (lacks : demand held = .more n) (hr : source.read n = (.failed cause, source')) :
    complete held source = (.failed (.io cause), ⟨[], source'⟩) := by
  rw [complete, lacks]
  simp only
  split <;> rename_i heq <;> rw [hr] at heq <;> cases heq
  rfl

theorem complete_yields {held s : Bytes} {source : Source} {tail : List Incoming}
    (within : Within held) (g : source.Gives tail s) (isTail : IsTail tail) :
    Yields tail (held ++ s) (complete held source) := by
  induction hm : s.length using Nat.strong_induction_on generalizing held s source with
  | h m ih =>
    cases lacks : demand held with
    | complete packet =>
      obtain ⟨rfl, legal⟩ := eq_encode_of_demand within lacks
      rw [complete_of_complete lacks]
      exact .packet legal rfl g
    | oversize n =>
      obtain ⟨whole, large, rfl⟩ := demand_oversize lacks
      have v : Violates (held ++ s) := Violates.append ⟨whole, large⟩ s
      rw [complete_of_oversize lacks]
      have same := v.ending_eq
      rw [announced_append whole] at same
      rw [← same]
      exact .violated v
    | more n =>
      by_cases some_left : s = []
      · subst some_left
        rw [List.append_nil]
        cases isTail with
        | nil =>
          obtain ⟨source', hr, g'⟩ := Source.read_tail g (fun _ => rfl) nofun n
          rw [complete_of_blocked lacks hr]
          exact .starved lacks within rfl g'
        | ended later =>
          obtain ⟨source', hr, -⟩ :=
            Source.read_tail g (fun _ => rfl) (fun _ same => by cases same; rfl) n
          rw [complete_of_more lacks hr, if_pos rfl, atEnd_eq_ending lacks]
          exact .ended lacks rfl
        | failed cause later =>
          obtain ⟨source', hr, -⟩ := Source.read_tail g (fun _ => rfl) nofun n
          rw [complete_of_failed lacks hr]
          exact .failed lacks rfl
      · obtain ⟨bytes, rest, source', hr, hne, rfl, g', hlen⟩ :=
          Source.read_gives g some_left (demand_more lacks).1
        have hshort : rest.length < m := by
          have := List.length_pos_iff.mpr hne
          rw [List.length_append] at hm
          omega
        rw [complete_of_more lacks hr, if_neg hne, ← List.append_assoc]
        exact ih rest.length hshort (Within.append lacks hlen) g' rfl

/-- A call that has to wait has read all there is. -/
theorem isExhausted_of_starved {held : Bytes} {source : Source} {r : Reader}
    (h : complete held source = (.starved, r)) : r.source.isExhausted = true := by
  fun_induction complete held source with
  | case1 => cases h
  | case2 => cases h
  | case3 held source n lacks source' blocked =>
    cases h
    exact Source.isExhausted_of_blocked blocked
  | case4 => cases h
  | case5 held source n lacks source' =>
    rw [atEnd] at h
    split at h
    · cases h
    · split at h <;> cases h
  | case6 held source n lacks b bytes source' heq ih => exact ih h

/-- What a call gives, and what reader is left, when `s` are the bytes held and those on
their way. -/
inductive Next (finished : Bool) (s : Bytes) : Received × Reader → Prop
  | packet {p : Packet} {rest : Bytes} {source : Source} (legal : p.length ≤ limit)
      (split : s = encode p ++ rest) (brings : source.Brings finished rest) :
    Next finished s (.packet p, ⟨[], source⟩)
  | violated {reader : Reader} (violates : Violates s) : Next finished s (ending s, reader)
  | ended {reader : Reader} {n : Nat} (lacks : demand s = .more n) (atEnd : finished = true) :
    Next finished s (ending s, reader)
  | starved {source : Source} {n : Nat} (lacks : demand s = .more n) (within : Within s)
      (unfinished : finished = false) (brings : source.Brings finished []) :
    Next finished s (.starved, ⟨s, source⟩)

theorem complete_next {held s : Bytes} {source : Source} {finished : Bool}
    (within : Within held) (b : source.Brings finished s) :
    Next finished (held ++ s) (complete held source) := by
  obtain ⟨tail, g, stops⟩ := Source.brings_iff.mp b
  have yields := complete_yields within g stops.isTail
  generalize complete held source = result at yields ⊢
  cases yields with
  | packet legal split gives =>
    exact .packet legal split (Source.brings_iff.mpr ⟨tail, gives, stops⟩)
  | violated violates => exact .violated violates
  | ended lacks atEnd =>
    subst atEnd
    exact .ended lacks stops
  | failed lacks fails =>
    subst fails
    cases stops
  | starved lacks within isOpen gives =>
    subst isOpen
    exact .starved lacks within stops (Source.brings_iff.mpr ⟨[], gives, stops⟩)

end Reader

end VideoRelay

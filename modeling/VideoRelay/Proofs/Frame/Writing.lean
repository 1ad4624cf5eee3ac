/-
Writing a row of frames to a connection that may fail on the way.

* `Connection.Offered` — what a connection has taken of the bytes offered to it: all of
  them, or the first ones up to where it fails;
* `Connection.writeAll_offered`, `Connection.writeFrame_offered` — writes keep this,
  whatever parts they are taken in;
* `Connection.writeFrames_offered` — so it holds after any row of packets, of which each
  is reported by where its frame ends.

Design notes: a write after a failure offers nothing that could be taken, so the bytes
offered are counted on as if there had been no failure; a connection has failed exactly
when more was offered than it takes in all.
-/
import Mathlib.Algebra.Group.Nat.Defs
import VideoRelay.Frame.Connection
import VideoRelay.Proofs.Frame.Grammar

namespace VideoRelay

/-- Whether `n` bytes are within what is taken in all. -/
def fits : Option Nat → Nat → Bool
  | none, _ => true
  | some most, n => n ≤ most

theorem takeUpTo_isPrefix (limit? : Option Nat) (data : Bytes) : takeUpTo limit? data <+: data := by
  cases limit? with
  | none => exact List.prefix_refl data
  | some n => exact List.take_prefix n data

theorem takeUpTo_of_fits {limit? : Option Nat} {data : Bytes} (h : fits limit? data.length = true) :
    takeUpTo limit? data = data := by
  cases limit? with
  | none => rfl
  | some n => exact List.take_of_length_le (of_decide_eq_true h)

theorem takeUpTo_ne_of_not_fits {limit? : Option Nat} {data : Bytes}
    (h : fits limit? data.length = false) : takeUpTo limit? data ≠ data := by
  cases limit? with
  | none => cases h
  | some n =>
    intro heq
    have hlen := congrArg List.length heq
    have := of_decide_eq_false h
    rw [takeUpTo, List.length_take] at hlen
    omega

/-- What is offered in two parts is taken in two parts. -/
theorem takeUpTo_append (limit? : Option Nat) (data more : Bytes) :
    takeUpTo limit? (data ++ more) = takeUpTo limit? data ++
      takeUpTo (limit?.map (· - (takeUpTo limit? data).length)) more := by
  cases limit? with
  | none => rfl
  | some n =>
    simp only [takeUpTo, Option.map_some, List.take_append, List.length_take]
    congr 2
    omega

theorem takeUpTo_append_of_not_fits {limit? : Option Nat} {data : Bytes}
    (h : fits limit? data.length = false) (more : Bytes) :
    takeUpTo limit? (data ++ more) = takeUpTo limit? data := by
  cases limit? with
  | none => cases h
  | some n =>
    have := of_decide_eq_false h
    exact List.take_append_of_le_length (by omega)

theorem not_fits_append {limit? : Option Nat} {data : Bytes}
    (h : fits limit? data.length = false) (more : Bytes) :
    fits limit? (data ++ more).length = false := by
  cases limit? with
  | none => cases h
  | some n =>
    have := of_decide_eq_false h
    rw [List.length_append]
    exact decide_eq_false (by omega)

namespace Frame

/-- The packets within the limit, whose frames are offered to a connection. -/
def sendable (packets : List Packet) : List Packet :=
  packets.filter fun packet => packet.length ≤ limit

@[simp] theorem sendable_nil : sendable [] = [] := rfl

theorem sendable_cons {packet : Packet} (legal : packet.length ≤ limit) (packets : List Packet) :
    sendable (packet :: packets) = packet :: sendable packets :=
  List.filter_cons_of_pos (decide_eq_true legal)

theorem sendable_cons_of_oversize {packet : Packet} (oversize : limit < packet.length)
    (packets : List Packet) : sendable (packet :: packets) = sendable packets :=
  List.filter_cons_of_neg (by simpa using oversize)

theorem sendable_eq_self {packets : List Packet} (legal : ∀ p ∈ packets, p.length ≤ limit) :
    sendable packets = packets :=
  List.filter_eq_self.mpr fun p hp => decide_eq_true (legal p hp)

theorem legal_of_mem_sendable {packets : List Packet} {p : Packet} (h : p ∈ sendable packets) :
    p.length ≤ limit := of_decide_eq_true (List.mem_filter.mp h).2

end Frame

namespace Connection

/-- A connection that fails for `cause` once it has taken `limit?` bytes, if there is a
limit, and takes what parts it likes until then. -/
def limited (grain : Nat → Option Nat) (limit? : Option Nat) (cause : IoError) : Connection :=
  fresh grain (limit?.map fun n => ⟨.write, n, cause⟩)

/-- Of the bytes `data` offered to it the connection has taken the first ones. -/
structure Offered (limit? : Option Nat) (cause : IoError) (data : Bytes) (c : Connection) :
    Prop where
  fault : c.fault? = limit?.map fun n => ⟨.write, n, cause⟩
  size : c.size = c.written.length
  written : c.written = takeUpTo limit? data

theorem limited_offered (grain : Nat → Option Nat) (limit? : Option Nat) (cause : IoError) :
    Offered limit? cause [] (limited grain limit? cause) := by
  refine ⟨rfl, rfl, ?_⟩
  cases limit? with
  | none => rfl
  | some n => exact List.take_nil.symm

section

variable {limit? : Option Nat} {cause : IoError} {data : Bytes} {c : Connection}

theorem Offered.room_eq (o : Offered limit? cause data c) :
    c.room? = limit?.map (· - c.written.length) := by
  rw [room?, o.fault, ← o.size]
  cases limit? <;> rfl

theorem Offered.writeFailure_eq (o : Offered limit? cause data c) :
    c.writeFailure? = if fits limit? (c.written.length + 1) then none else some cause := by
  rw [writeFailure?, o.fault, ← o.size]
  cases limit? with
  | none => rfl
  | some n =>
    by_cases full : n ≤ c.size
    · have : ¬ c.size + 1 ≤ n := by omega
      simp [fits, full, this]
    · have : c.size + 1 ≤ n := by omega
      simp [fits, full, this]

theorem written_write (part : Bytes) (n : Nat) :
    written { c with taken := part :: c.taken, size := n } = c.written ++ part := by
  simp [written]

/-- A write takes some of the bytes, the first ones, if any more are taken. -/
theorem write_offered (o : Offered limit? cause data c) (more : Bytes) :
    (fits limit? (c.written.length + 1) = false ∧ c.write more = (.error cause, c)) ∨
      ∃ part rest c', more = part ++ rest ∧ c.write more = (.ok part.length, c') ∧
        c'.written = c.written ++ part ∧ Offered limit? cause (c.written ++ part) c' := by
  rw [write, o.writeFailure_eq]
  by_cases room : fits limit? (c.written.length + 1) = true
  · refine .inr ?_
    obtain ⟨rest, hrest⟩ : c.accepted more <+: more :=
      (takeUpTo_isPrefix _ _).trans (takeUpTo_isPrefix _ _)
    have hw := written_write (c := c) (c.accepted more) (c.size + (c.accepted more).length)
    refine ⟨c.accepted more, rest, _, hrest.symm, by rw [if_pos room], hw, o.fault, ?_, ?_⟩
    · rw [hw, List.length_append, ← o.size]
    · -- No more is accepted than there is room for.
      rw [hw, takeUpTo_of_fits]
      rw [accepted, o.room_eq]
      cases limit? with
      | none => rfl
      | some n =>
        have := of_decide_eq_true room
        simp [fits, takeUpTo]
        omega
  · have room : fits limit? (c.written.length + 1) = false := by simpa using room
    rw [room]
    exact .inl ⟨rfl, rfl⟩

theorem writeAll_of_error {more : Bytes} {c' : Connection} {e : IoError} (some_left : more ≠ [])
    (h : c.write more = (.error e, c')) : c.writeAll more = (.error e, c') := by
  rw [writeAll, dif_neg some_left]
  split
  · rename_i heq
    rw [h] at heq
    cases heq
    rfl
  · rename_i heq
    rw [h] at heq
    cases heq

theorem writeAll_of_ok {more : Bytes} {c' : Connection} {n : Nat} (some_left : more ≠ [])
    (h : c.write more = (.ok n, c')) : c.writeAll more = c'.writeAll (more.drop n) := by
  rw [writeAll, dif_neg some_left]
  split
  · rename_i heq
    rw [h] at heq
    cases heq
  · rename_i heq
    rw [h] at heq
    cases heq
    rfl

theorem Offered.fits_of_taken (o : Offered limit? cause c.written c) :
    fits limit? c.written.length = true := by
  have h := congrArg List.length o.written
  cases limit? with
  | none => rfl
  | some n =>
    rw [takeUpTo, List.length_take] at h
    exact decide_eq_true (by omega)

/-- Of what is taken already everything was offered. -/
theorem Offered.taken (o : Offered limit? cause data c) :
    Offered limit? cause c.written c where
  fault := o.fault
  size := o.size
  written := by
    cases limit? with
    | none => rfl
    | some n => rw [o.written, takeUpTo, takeUpTo, List.take_take, Nat.min_self]

/-- Writes until all is taken, in any parts, as far as there is room. -/
theorem writeAll_taken (o : Offered limit? cause c.written c) (more : Bytes) :
    Offered limit? cause (c.written ++ more) (c.writeAll more).2 ∧
      (c.writeAll more).1 =
        if fits limit? (c.written ++ more).length then .ok () else .error cause := by
  induction hm : more.length using Nat.strong_induction_on generalizing more c with
  | h m ih =>
    by_cases none_left : more = []
    · subst none_left
      rw [writeAll, dif_pos rfl, List.append_nil, if_pos o.fits_of_taken]
      exact ⟨o, rfl⟩
    · rcases write_offered o more with ⟨full, hw⟩ | ⟨part, rest, c', rfl, hw, hwritten, o'⟩
      · have hpos := List.length_pos_iff.mpr none_left
        have atLimit : fits limit? (c.written ++ more).length = false := by
          cases limit? with
          | none => cases full
          | some n =>
            have := of_decide_eq_false full
            rw [List.length_append]
            exact decide_eq_false (by omega)
        have same : takeUpTo limit? (c.written ++ more) = c.written := by
          cases limit? with
          | none => cases full
          | some n =>
            have := of_decide_eq_false full
            have := of_decide_eq_true o.fits_of_taken
            exact List.take_left' (by omega)
        rw [writeAll_of_error none_left hw, atLimit]
        exact ⟨⟨o.fault, o.size, same.symm⟩, rfl⟩
      · -- One write has taken `part`; the others go on with the rest.
        have hpos := pos_of_write none_left hw
        rw [writeAll_of_ok none_left hw, List.drop_left, ← List.append_assoc]
        have hshort : rest.length < m := by
          rw [List.length_append] at hm
          omega
        rw [← hwritten] at o' ⊢
        exact ih rest.length hshort o' rest rfl

/-- However much was offered before, more is taken as far as there is room. -/
theorem writeAll_offered (o : Offered limit? cause data c) (more : Bytes)
    (room : more ≠ [] ∨ fits limit? data.length = true) :
    Offered limit? cause (data ++ more) (c.writeAll more).2 ∧
      (c.writeAll more).1 =
        if fits limit? (data ++ more).length then .ok () else .error cause := by
  obtain ⟨o', result⟩ := writeAll_taken o.taken more
  by_cases inside : fits limit? data.length = true
  · rw [o.written, takeUpTo_of_fits inside] at o' result
    exact ⟨o', result⟩
  · -- Nothing more is taken, and all that was offered counts.
    have outside : fits limit? data.length = false := by simpa using inside
    have hpos := List.length_pos_iff.mpr (room.resolve_right inside)
    cases limit? with
    | none => cases outside
    | some n =>
      have hn := of_decide_eq_false outside
      have hlen : c.written.length = n := by
        rw [o.written, takeUpTo, List.length_take]
        omega
      have atLimit : fits (some n) (c.written ++ more).length = false := by
        rw [List.length_append]
        exact decide_eq_false (by omega)
      have atLimit' := not_fits_append outside more
      refine ⟨⟨o'.fault, o'.size, ?_⟩, ?_⟩
      · rw [o'.written, takeUpTo_append_of_not_fits outside, ← o.written]
        exact List.take_left' hlen
      · rw [result, atLimit, atLimit']

theorem Offered.more (o : Offered limit? cause data c)
    (outside : fits limit? data.length = false) (more : Bytes) :
    Offered limit? cause (data ++ more) c where
  fault := o.fault
  size := o.size
  written := by rw [o.written, takeUpTo_append_of_not_fits outside]

/-- A frame is written as a whole, or the connection fails in it or before it. -/
theorem writeFrame_offered (o : Offered limit? cause data c) {packet : Packet}
    (legal : packet.length ≤ Frame.limit) :
    Offered limit? cause (data ++ Frame.encode packet) (c.writeFrame packet).2 ∧
      (c.writeFrame packet).1 =
        if fits limit? (data ++ Frame.encode packet).length then .ok ()
        else .error (.io cause) := by
  have head_ne_nil : Frame.head packet ≠ [] := by
    refine List.ne_nil_of_length_pos ?_
    rw [Frame.length_head]
    decide
  obtain ⟨o', result⟩ := writeAll_offered o (Frame.head packet) (.inl head_ne_nil)
  rw [writeFrame, if_neg (Nat.not_lt.mpr legal), Frame.encode, ← List.append_assoc]
  rcases hhead : c.writeAll (Frame.head packet) with ⟨first, c'⟩
  rw [hhead] at o' result
  simp only at o' result ⊢
  by_cases inside : fits limit? (data ++ Frame.head packet).length = true
  · rw [if_pos inside] at result
    subst result
    obtain ⟨o'', result'⟩ := writeAll_offered o' packet (.inr inside)
    rcases hbody : c'.writeAll packet with ⟨second, c''⟩
    rw [hbody] at o'' result'
    simp only [hbody] at o'' result' ⊢
    by_cases whole : fits limit? (data ++ Frame.head packet ++ packet).length = true
    · rw [if_pos whole] at result' ⊢
      subst result'
      exact ⟨o'', rfl⟩
    · rw [if_neg whole] at result' ⊢
      subst result'
      exact ⟨o'', rfl⟩
  · -- Without its length in full, nothing of the packet is written.
    have outside : fits limit? (data ++ Frame.head packet).length = false := by
      simpa using inside
    rw [if_neg inside] at result
    subst result
    rw [not_fits_append outside packet]
    exact ⟨o'.more outside packet, rfl⟩

/-! ### Rows of frames -/

theorem writeFrame_of_oversize {packet : Packet} (oversize : Frame.limit < packet.length) :
    c.writeFrame packet =
      (.error (.protocol (.packetTooLarge (min packet.length (2 ^ 32 - 1)))), c) := by
  rw [writeFrame, if_pos oversize]
  rfl

theorem writeFrames_cons (packet : Packet) (packets : List Packet) :
    c.writeFrames (packet :: packets) =
      ((c.writeFrame packet).1 :: ((c.writeFrame packet).2.writeFrames packets).1,
        ((c.writeFrame packet).2.writeFrames packets).2) := rfl

/-- Of a row of packets the frames of those within the limit are offered, and each of
these is reported by whether its frame ends within what is taken. -/
theorem writeFrames_offered (o : Offered limit? cause data c) (packets : List Packet) :
    Offered limit? cause (data ++ Frame.row (Frame.sendable packets)) (c.writeFrames packets).2 ∧
      (c.writeFrames packets).1.length = packets.length ∧
      ∀ before p after, packets = before ++ p :: after →
        (c.writeFrames packets).1[before.length]? = some
          (if Frame.limit < p.length then
            .error (.protocol (.packetTooLarge (min p.length (2 ^ 32 - 1))))
          else if fits limit? (data ++ Frame.row (Frame.sendable (before ++ [p]))).length then .ok ()
          else .error (.io cause)) := by
  induction packets generalizing data c with
  | nil =>
    refine ⟨?_, rfl, fun before p after h => absurd h (by simp)⟩
    rw [Frame.sendable_nil, Frame.row_nil, List.append_nil]
    exact o
  | cons packet packets ih =>
    rw [writeFrames_cons]
    by_cases oversize : Frame.limit < packet.length
    · rw [writeFrame_of_oversize oversize, Frame.sendable_cons_of_oversize oversize]
      obtain ⟨o', hlen, hresults⟩ := ih o
      refine ⟨o', congrArg (· + 1) hlen, ?_⟩
      intro before p after h
      cases before with
      | nil =>
        obtain ⟨rfl, rfl⟩ := List.cons.inj h
        rw [if_pos oversize]
        rfl
      | cons q before =>
        obtain ⟨rfl, rfl⟩ := List.cons.inj h
        rw [List.cons_append, Frame.sendable_cons_of_oversize oversize]
        exact hresults before p after rfl
    · have legal := Nat.not_lt.mp oversize
      obtain ⟨o', result⟩ := writeFrame_offered o legal
      obtain ⟨o'', hlen, hresults⟩ := ih o'
      rw [Frame.sendable_cons legal, Frame.row_cons, ← List.append_assoc]
      refine ⟨o'', congrArg (· + 1) hlen, ?_⟩
      intro before p after h
      cases before with
      | nil =>
        obtain ⟨rfl, rfl⟩ := List.cons.inj h
        rw [if_neg oversize, List.nil_append, Frame.sendable_cons legal, Frame.sendable_nil,
          Frame.row_cons, Frame.row_nil, List.append_nil, ← result]
        rfl
      | cons q before =>
        obtain ⟨rfl, rfl⟩ := List.cons.inj h
        rw [List.cons_append, Frame.sendable_cons legal, Frame.row_cons, ← List.append_assoc]
        exact hresults before p after rfl

/-- The packets that were reported as written. -/
def confirmed (packets : List Packet) (results : List (Except Error Unit)) : List Packet :=
  (packets.zip results).filterMap fun (packet, result) =>
    match result with
    | .ok () => some packet
    | .error _ => none

theorem confirmed_cons_ok (packet : Packet) (packets : List Packet)
    (results : List (Except Error Unit)) :
    confirmed (packet :: packets) (.ok () :: results) = packet :: confirmed packets results := rfl

theorem confirmed_cons_error (packet : Packet) (packets : List Packet) (e : Error)
    (results : List (Except Error Unit)) :
    confirmed (packet :: packets) (.error e :: results) = confirmed packets results := rfl

/-- Once more is offered than is taken, no packet is reported as written. -/
theorem confirmed_of_not_fits (o : Offered limit? cause data c)
    (outside : fits limit? data.length = false) (packets : List Packet) :
    confirmed packets (c.writeFrames packets).1 = [] := by
  induction packets generalizing data c with
  | nil => rfl
  | cons packet packets ih =>
    rw [writeFrames_cons]
    by_cases oversize : Frame.limit < packet.length
    · rw [writeFrame_of_oversize oversize, confirmed_cons_error]
      exact ih o outside
    · obtain ⟨o', result⟩ := writeFrame_offered o (Nat.not_lt.mp oversize)
      have outside' := not_fits_append outside (Frame.encode packet)
      rw [outside'] at result
      rw [result]
      exact ih o' outside'

/-- What is taken of a row of packets are the frames of those that are reported as
written, and of the next frame less than all of it. -/
theorem writeFrames_torn (o : Offered limit? cause data c)
    (inside : fits limit? data.length = true) (packets : List Packet) :
    ∃ torn, (c.writeFrames packets).2.written =
        data ++ Frame.row (confirmed packets (c.writeFrames packets).1) ++ torn ∧
      confirmed packets (c.writeFrames packets).1 <+: Frame.sendable packets ∧
      (torn = [] ∨ ∃ p later, Frame.sendable packets =
          confirmed packets (c.writeFrames packets).1 ++ p :: later ∧
        torn <+: Frame.encode p ∧ torn ≠ Frame.encode p) := by
  induction packets generalizing data c with
  | nil =>
    refine ⟨[], ?_, List.nil_prefix, .inl rfl⟩
    rw [List.append_nil, confirmed, List.zip_nil_left, List.filterMap_nil, Frame.row_nil,
      List.append_nil, writeFrames, o.written, takeUpTo_of_fits inside]
  | cons packet packets ih =>
    rw [writeFrames_cons]
    by_cases oversize : Frame.limit < packet.length
    · rw [writeFrame_of_oversize oversize, confirmed_cons_error,
        Frame.sendable_cons_of_oversize oversize]
      exact ih o inside
    · have legal := Nat.not_lt.mp oversize
      obtain ⟨o', result⟩ := writeFrame_offered o legal
      rw [Frame.sendable_cons legal]
      by_cases inside' : fits limit? (data ++ Frame.encode packet).length = true
      · rw [if_pos inside'] at result
        rw [result, confirmed_cons_ok, Frame.row_cons, ← List.append_assoc data]
        obtain ⟨torn, hwritten, hfront, htorn⟩ := ih o' inside'
        refine ⟨torn, hwritten, List.cons_prefix_cons.mpr ⟨rfl, hfront⟩, ?_⟩
        rcases htorn with none | ⟨p, later, hsent, hp⟩
        · exact .inl none
        · exact .inr ⟨p, later, congrArg (packet :: ·) hsent, hp⟩
      · -- The connection fails within this frame, and takes nothing of the others.
        have outside : fits limit? (data ++ Frame.encode packet).length = false := by
          simpa using inside'
        rw [outside] at result
        rw [result, if_neg nofun, confirmed_cons_error, confirmed_of_not_fits o' outside]
        have hsplit : takeUpTo limit? (data ++ Frame.encode packet) =
            data ++ takeUpTo (limit?.map (· - data.length)) (Frame.encode packet) := by
          rw [takeUpTo_append, takeUpTo_of_fits inside]
        refine ⟨takeUpTo (limit?.map (· - data.length)) (Frame.encode packet), ?_,
          List.nil_prefix, .inr ⟨packet, Frame.sendable packets, rfl, takeUpTo_isPrefix _ _, ?_⟩⟩
        · rw [Frame.row_nil, List.append_nil, (writeFrames_offered o' packets).1.written,
            takeUpTo_append_of_not_fits outside, hsplit]
        · intro whole
          rw [whole] at hsplit
          exact takeUpTo_ne_of_not_fits outside hsplit

end

end Connection

end VideoRelay

/-
Nothing is lost between fragments and units.

* `fragmentsOf` — the fragments of a unit, piece by piece;
* `Delivers` — what arrivals come to, if every unit in them is completed;
* `Completes`, `completes_fragmentUnit` — the fragments of one unit complete that unit
  with the last of them, whatever was open before;
* `fragmentStream_delivers` — those of a buffer complete the units of the buffer,
  and the budget makes no difference.

Design notes: the position of a piece decides its marks, so a unit is fragmented by
`List.mapIdx`; for the reassembler what counts is whether a piece is the first and
whether one follows, and `fragmentsOf` is the same list by recursion.
-/
import Mathlib.Data.List.Forall2
import VideoRelay.Fragment.Reassembly
import VideoRelay.Fragment.Split
import VideoRelay.Proofs.Fragment.Wire

namespace VideoRelay

/-! ### The fragments of a unit -/

/-- The fragments for `pieces` of a unit; the first of them opens the unit if
`isStart` says so. -/
def fragmentsOf (header : NalHeader) : Bool → List Bytes → List Fragment
  | _, [] => []
  | isStart, piece :: rest =>
    pieceOf header isStart rest.isEmpty piece :: fragmentsOf header false rest

theorem mapIdx_pieceOf (header : NalHeader) (pieces : List Bytes) (k : Nat) :
    (pieces.mapIdx fun i piece =>
      pieceOf header (i + k = 0) (i + k + 1 = k + pieces.length) piece) =
        fragmentsOf header (k = 0) pieces := by
  induction pieces generalizing k with
  | nil => rfl
  | cons piece rest ih =>
    -- The last piece is the one with nothing behind it.
    have hlast : decide (0 + k + 1 = k + (piece :: rest).length) = rest.isEmpty := by
      cases rest with
      | nil => simp
      | cons next rest => simp
    rw [List.mapIdx_cons, fragmentsOf, hlast, Nat.zero_add]
    have hrest := ih (k + 1)
    rw [decide_eq_false (Nat.succ_ne_zero k)] at hrest
    rw [← hrest]
    congr 2
    funext i p
    have hi : i + 1 + k = i + (k + 1) := by omega
    have hl : k + (piece :: rest).length = k + 1 + rest.length := by
      rw [List.length_cons]
      omega
    rw [hi, hl]

theorem cutFrom_ne_nil (budget : Nat) (done : List Bytes) (data : Bytes) :
    cutFrom budget done data ≠ [] := by
  fun_induction cutFrom budget done data with
  | case1 done data => simp
  | case2 done data _ ih => exact ih

/-- A unit is fragmented if it has a header and the budget is not zero. -/
theorem fragmentUnit_eq_ok {budget : Nat} {unit : Bytes} {fragments : List Fragment} :
    fragmentUnit budget unit = .ok fragments ↔
      budget ≠ 0 ∧ ∃ first rest, unit = first :: rest ∧
        fragments = fragmentsOf (.ofByte first) true (cut budget rest) := by
  by_cases zero : budget = 0
  · simp [fragmentUnit, zero]
  · cases unit with
    | nil => simp [fragmentUnit, zero]
    | cons first rest =>
      have hpieces := mapIdx_pieceOf (.ofByte first) (cut budget rest) 0
      simp only [Nat.add_zero, Nat.zero_add, decide_true] at hpieces
      have hunit : fragmentUnit budget (first :: rest) =
          .ok (fragmentsOf (.ofByte first) true (cut budget rest)) := by
        rw [← hpieces]
        exact if_neg zero
      rw [hunit, Except.ok.injEq]
      constructor
      · rintro rfl
        exact ⟨zero, first, rest, rfl, rfl⟩
      · rintro ⟨-, first', rest', heq, rfl⟩
        obtain ⟨rfl, rfl⟩ := List.cons_eq_cons.mp heq
        rfl

namespace Reassembler

/-! ### Arrivals in order -/

/-- The reassembler after some arrivals. -/
def after (r : Reassembler) (arrivals : List Arrival) : Reassembler :=
  arrivals.foldl (fun r arrival => (r.receive arrival).1) r

theorem feed_cons (r : Reassembler) (arrival : Arrival) (rest : List Arrival) :
    r.feed (arrival :: rest) =
      ⟨(r.receive arrival).2, (r.receive arrival).1.inProgress⟩ ::
        (r.receive arrival).1.feed rest := rfl

theorem feed_append (r : Reassembler) (first rest : List Arrival) :
    r.feed (first ++ rest) = r.feed first ++ (r.after first).feed rest := by
  induction first generalizing r with
  | nil => rfl
  | cons arrival first ih =>
    rw [List.cons_append, feed_cons, feed_cons, ih]
    rfl

/-- No error, and no datagram without a fragment. -/
def Report.IsSound (report : Report) : Prop :=
  ∃ unit? discarded?, report.outcome = .pushed (.ok unit?) discarded?

/-- The arrivals complete exactly `units`, in this order and without an error, and
leave no unit open. -/
structure Delivers (r : Reassembler) (arrivals : List Arrival) (units : List Bytes) : Prop where
  units : (r.feed arrivals).filterMap (·.unit?) = units
  sound : ∀ report ∈ r.feed arrivals, report.IsSound
  closed : r.after arrivals = empty

namespace Delivers

theorem nil : Delivers empty [] [] := ⟨rfl, nofun, rfl⟩

theorem append {r : Reassembler} {first rest : List Arrival} {units more : List Bytes}
    (d : Delivers r first units) (d' : Delivers empty rest more) :
    Delivers r (first ++ rest) (units ++ more) := by
  refine ⟨?_, ?_, ?_⟩
  · rw [feed_append, List.filterMap_append, d.units, d.closed, d'.units]
  · rw [feed_append, d.closed]
    intro report mem
    rcases List.mem_append.mp mem with mem | mem
    · exact d.sound report mem
    · exact d'.sound report mem
  · rw [after, List.foldl_append]
    have hclosed := d.closed
    rw [after] at hclosed
    rw [hclosed]
    exact d'.closed

/-- A piece that is taken, and what comes of the others. -/
theorem cons {r next : Reassembler} {f : Fragment} {unit? : Option Bytes} {rest : List Arrival}
    {units : List Bytes} (taken : r.push f = (next, .ok unit?)) (d : Delivers next rest units) :
    Delivers r (.fragment f :: rest) (unit?.toList ++ units) := by
  have hr : r.receive (.fragment f) = (next, .pushed (.ok unit?) (r.discarded? f)) := by
    rw [receive, pushed, taken]
  refine ⟨?_, ?_, ?_⟩
  · rw [feed_cons, hr, List.filterMap_cons, d.units]
    cases unit? <;> rfl
  · rw [feed_cons, hr]
    intro report mem
    rcases List.mem_cons.mp mem with rfl | mem
    · exact ⟨unit?, r.discarded? f, rfl⟩
    · exact d.sound report mem
  · rw [after, List.foldl_cons, hr]
    exact d.closed

end Delivers

/-! ### One unit -/

/-- The pushes of `fragments` return neither a unit nor an error until the last of
them, which returns `unit` and leaves nothing open. -/
def Completes (r : Reassembler) (fragments : List Fragment) (unit : Bytes) : Prop :=
  ∃ init last, fragments = init ++ [last] ∧
    (∀ report ∈ r.feed (init.map .fragment),
      ∃ discarded?, report.outcome = .pushed (.ok none) discarded?) ∧
    (r.after (init.map .fragment)).push last = (empty, .ok (some unit))

namespace Completes

variable {r next : Reassembler} {f : Fragment} {rest : List Fragment} {unit : Bytes}

theorem single (last : r.push f = (empty, .ok (some unit))) : Completes r [f] unit :=
  ⟨[], f, rfl, nofun, last⟩

/-- A piece that is not the last, in front of the others. -/
theorem cons (taken : r.push f = (next, .ok none)) (c : Completes next rest unit) :
    Completes r (f :: rest) unit := by
  obtain ⟨init, last, rfl, silent, complete⟩ := c
  have hr : r.receive (.fragment f) = (next, .pushed (.ok none) (r.discarded? f)) := by
    rw [receive, pushed, taken]
  refine ⟨f :: init, last, rfl, ?_, ?_⟩
  · rw [List.map_cons, feed_cons, hr]
    intro report mem
    rcases List.mem_cons.mp mem with rfl | mem
    · exact ⟨r.discarded? f, rfl⟩
    · exact silent report mem
  · rw [List.map_cons, after, List.foldl_cons, hr]
    exact complete

/-- Fragments that complete a unit complete this one and no other. -/
theorem delivers {fragments : List Fragment} (c : Completes r fragments unit) :
    Delivers r (fragments.map .fragment) [unit] := by
  obtain ⟨init, last, rfl, silent, complete⟩ := c
  induction init generalizing r with
  | nil => exact Delivers.nil.cons complete
  | cons f init ih =>
    -- The first report tells what the push of `f` returned.
    obtain ⟨discarded?, taken⟩ := silent _ List.mem_cons_self
    have taken : (r.receive (.fragment f)).2 = .pushed (.ok none) discarded? := taken
    have hpush : r.push f = ((r.push f).1, .ok none) :=
      Prod.ext rfl (Outcome.pushed.inj taken).1
    have d := ih (r := (r.push f).1) (fun report mem => silent report (List.mem_cons_of_mem _ mem))
      complete
    exact d.cons hpush

end Completes

/-- The open unit of which `bytes` have arrived. -/
def opening (header : NalHeader) (bytes : Bytes) : OpenUnit := ⟨header.unitType &&& 0x1F, bytes⟩

/-- What a first piece leaves, whatever was open before. -/
theorem push_first (r : Reassembler) (header : NalHeader) (isEnd : Bool) (piece : Bytes) :
    r.push (pieceOf header true isEnd piece) =
      let bytes := longStartCode ++
        [NalHeader.toByte ⟨false, header.nri &&& 0x03, header.unitType &&& 0x1F⟩] ++ piece
      if isEnd then (empty, .ok (some bytes)) else (⟨some (opening header bytes)⟩, .ok none) := by
  cases isEnd <;> rfl

/-- What a further piece of the same unit adds to it. -/
theorem push_further (header : NalHeader) (bytes : Bytes) (isEnd : Bool) (piece : Bytes) :
    push ⟨some (opening header bytes)⟩ (pieceOf header false isEnd piece) =
      if isEnd then (empty, .ok (some (bytes ++ piece)))
      else (⟨some (opening header (bytes ++ piece))⟩, .ok none) := by
  have ht : target ⟨some (opening header bytes)⟩ (pieceOf header false isEnd piece) =
      .ok (opening header bytes) := if_pos rfl
  rw [push, ht]
  cases isEnd <;> rfl

/-- The further pieces of a unit complete it. -/
theorem completes_further (header : NalHeader) (bytes : Bytes) {pieces : List Bytes}
    (some_left : pieces ≠ []) :
    Completes ⟨some (opening header bytes)⟩ (fragmentsOf header false pieces)
      (bytes ++ pieces.flatten) := by
  induction pieces generalizing bytes with
  | nil => exact absurd rfl some_left
  | cons piece rest ih =>
    -- One piece is pushed; if it is the last the unit is complete.
    have hpush := push_further header bytes rest.isEmpty piece
    cases rest with
    | nil => simpa [fragmentsOf] using Completes.single hpush
    | cons next rest =>
      have c := (ih (bytes ++ piece) (by simp)).cons hpush
      simpa [fragmentsOf] using c

/-- The unit as it arrives: behind a start code, and without the forbidden bit. -/
def restored : Bytes → Bytes
  | [] => longStartCode
  | first :: rest => longStartCode ++ (first &&& 0x7F) :: rest

/-- The fragments of a unit complete it, whatever was open before. -/
theorem completes_fragmentUnit {budget : Nat} {unit : Bytes} {fragments : List Fragment}
    (cuts : fragmentUnit budget unit = .ok fragments) (r : Reassembler) :
    Completes r fragments (restored unit) := by
  obtain ⟨-, first, rest, rfl, rfl⟩ := fragmentUnit_eq_ok.mp cuts
  have whole := flatten_cut budget rest
  cases pieces : cut budget rest with
  | nil => exact absurd pieces (cutFrom_ne_nil budget [] rest)
  | cons piece others =>
    rw [pieces, List.flatten_cons] at whole
    -- The first piece opens the unit, whatever state it finds, and the others go on from there.
    have hpush := push_first r (.ofByte first) others.isEmpty piece
    have hbyte := header_byte first
    rw [restored, ← whole]
    cases others with
    | nil => simpa [fragmentsOf, hbyte] using Completes.single hpush
    | cons next others =>
      have someLeft : next :: others ≠ [] := by simp
      have c := (completes_further (.ofByte first) _ someLeft).cons hpush
      simpa [fragmentsOf, hbyte] using c

end Reassembler

/-! ### All units of a buffer -/

open Reassembler

/-- A list is mapped by a function that can fail if it fails on no element. -/
theorem mapM_eq_ok {α β ε : Type} {f : α → Except ε β} {l : List α} {l' : List β} :
    l.mapM f = .ok l' ↔ List.Forall₂ (fun a b => f a = .ok b) l l' := by
  induction l generalizing l' with
  | nil =>
    rw [List.mapM_nil, List.forall₂_nil_left_iff]
    exact ⟨fun h => (Except.ok.inj h).symm, fun h => by rw [h]; rfl⟩
  | cons a l ih =>
    rw [List.mapM_cons]
    constructor
    · intro h
      cases first : f a with
      | error e =>
        rw [first] at h
        cases h
      | ok b =>
        cases others : l.mapM f with
        | error e =>
          rw [first, others] at h
          cases h
        | ok rest =>
          rw [first, others] at h
          cases h
          exact .cons first (ih.mp others)
    · intro h
      cases h with
      | cons first others =>
        rw [first, ih.mpr others]
        rfl

theorem fragmentStream_eq_ok {budget : Nat} {data : Bytes} {fragments : List Fragment} :
    fragmentStream budget data = .ok fragments ↔
      ∃ parts, List.Forall₂ (fun unit part => fragmentUnit budget unit = .ok part)
        (nalUnits data) parts ∧ fragments = parts.flatten := by
  rw [fragmentStream]
  constructor
  · intro h
    cases all : (nalUnits data).mapM (fragmentUnit budget) with
    | error e =>
      rw [all] at h
      cases h
    | ok parts =>
      rw [all] at h
      cases h
      exact ⟨parts, mapM_eq_ok.mp all, rfl⟩
  · rintro ⟨parts, all, rfl⟩
    rw [mapM_eq_ok.mpr all]
    rfl

/-- Units that are not empty are fragmented one by one. -/
theorem exists_fragmentUnit_parts {budget : Nat} (positive : 1 ≤ budget) {units : List Bytes}
    (none_empty : [] ∉ units) :
    ∃ parts, List.Forall₂ (fun unit part => fragmentUnit budget unit = .ok part) units parts := by
  induction units with
  | nil => exact ⟨[], .nil⟩
  | cons unit units ih =>
    rw [List.mem_cons, not_or] at none_empty
    obtain ⟨first, rest, rfl⟩ := List.exists_cons_of_ne_nil (Ne.symm none_empty.1)
    obtain ⟨parts, others⟩ := ih none_empty.2
    exact ⟨_ :: parts, .cons
      (fragmentUnit_eq_ok.mpr ⟨Nat.ne_of_gt positive, first, rest, rfl, rfl⟩) others⟩

/-- Units that are fragmented are not empty. -/
theorem nil_not_mem_of_fragmentUnit {budget : Nat} {units : List Bytes}
    {parts : List (List Fragment)}
    (all : List.Forall₂ (fun unit part => fragmentUnit budget unit = .ok part) units parts) :
    [] ∉ units := by
  induction all with
  | nil => exact List.not_mem_nil
  | cons first _ ih =>
    obtain ⟨-, byte, rest, rfl, -⟩ := fragmentUnit_eq_ok.mp first
    rw [List.mem_cons, not_or]
    exact ⟨nofun, ih⟩

/-- Whether a unit can be fragmented is no matter of the budget. -/
theorem exists_fragmentUnit {budget other : Nat} (positive : 1 ≤ other) {units : List Bytes}
    {parts : List (List Fragment)}
    (all : List.Forall₂ (fun unit part => fragmentUnit budget unit = .ok part) units parts) :
    ∃ parts', List.Forall₂ (fun unit part => fragmentUnit other unit = .ok part) units parts' :=
  exists_fragmentUnit_parts positive (nil_not_mem_of_fragmentUnit all)

/-- A buffer without an empty unit is fragmented. -/
theorem fragmentStream_of_nil_not_mem {budget : Nat} (positive : 1 ≤ budget) {data : Bytes}
    (none_empty : [] ∉ nalUnits data) :
    ∃ parts, List.Forall₂ (fun unit part => fragmentUnit budget unit = .ok part)
        (nalUnits data) parts ∧ fragmentStream budget data = .ok parts.flatten := by
  obtain ⟨parts, all⟩ := exists_fragmentUnit_parts positive none_empty
  exact ⟨parts, all, fragmentStream_eq_ok.mpr ⟨parts, all, rfl⟩⟩

/-- The units are completed one after the other. -/
theorem delivers_parts {budget : Nat} {units : List Bytes} {parts : List (List Fragment)}
    (all : List.Forall₂ (fun unit part => fragmentUnit budget unit = .ok part) units parts) :
    Delivers empty (parts.flatten.map .fragment) (units.map restored) := by
  induction all with
  | nil => exact .nil
  | cons first _ ih =>
    have d := (completes_fragmentUnit first empty).delivers.append ih
    rw [List.flatten_cons, List.map_append]
    exact d

/-- Every fragment of a buffer survives its wire form. -/
theorem parse_serialize_of_fragmentStream {budget : Nat} {data : Bytes}
    {fragments : List Fragment} (cuts : fragmentStream budget data = .ok fragments) :
    ∀ f ∈ fragments, Fragment.parse f.serialize = .ok f := by
  obtain ⟨parts, all, rfl⟩ := fragmentStream_eq_ok.mp cuts
  -- Fragments made by splitting stay within the range of their fields.
  have pieces : ∀ header isStart (l : List Bytes), ∀ f ∈ fragmentsOf header isStart l,
      Fragment.parse f.serialize = .ok f := by
    intro header isStart l
    induction l generalizing isStart with
    | nil => exact nofun
    | cons piece rest ih =>
      intro f mem
      rcases List.mem_cons.mp mem with rfl | mem
      · exact Fragment.parse_serialize (pieceOf_inRange _ _ _ _)
      · exact ih false f mem
  clear cuts
  generalize nalUnits data = units at all
  induction all with
  | nil => exact nofun
  | cons first _ ih =>
    obtain ⟨-, byte, rest, rfl, rfl⟩ := fragmentUnit_eq_ok.mp first
    intro f mem
    rcases List.mem_append.mp mem with mem | mem
    · exact pieces _ _ _ f mem
    · exact ih f mem

/-- In wire form or not, the same arrives. -/
theorem Reassembler.Delivers.datagrams {r : Reassembler} {fragments : List Fragment}
    {units : List Bytes} (d : Delivers r (fragments.map .fragment) units)
    (stable : ∀ f ∈ fragments, Fragment.parse f.serialize = .ok f) :
    Delivers r (fragments.map fun f => .datagram f.serialize) units := by
  -- A fragment that survives its wire form is received like the fragment itself.
  have same : ∀ f ∈ fragments, ∀ r,
      receive r (.datagram f.serialize) = receive r (.fragment f) := by
    intro f mem r
    simp only [receive, stable f mem]
  have hfeed : ∀ r, feed r (fragments.map fun f => .datagram f.serialize) =
      feed r (fragments.map .fragment) := by
    clear d stable
    induction fragments with
    | nil => exact fun _ => rfl
    | cons f fragments ih =>
      intro r
      rw [List.map_cons, List.map_cons, feed_cons, feed_cons, same f List.mem_cons_self,
        ih fun f mem => same f (List.mem_cons_of_mem _ mem)]
  have hafter : ∀ r, after r (fragments.map fun f => .datagram f.serialize) =
      after r (fragments.map .fragment) := by
    clear d stable hfeed
    induction fragments with
    | nil => exact fun _ => rfl
    | cons f fragments ih =>
      intro r
      have := ih fun f mem => same f (List.mem_cons_of_mem _ mem)
      rw [after, after, List.map_cons, List.map_cons, List.foldl_cons, List.foldl_cons,
        same f List.mem_cons_self]
      exact this _
  refine ⟨?_, ?_, ?_⟩
  · rw [hfeed]
    exact d.units
  · rw [hfeed]
    exact d.sound
  · rw [hafter]
    exact d.closed

theorem delivers_fragmentStream {budget : Nat} {data : Bytes} {fragments : List Fragment}
    (cuts : fragmentStream budget data = .ok fragments) :
    Delivers empty (fragments.map fun f => .datagram f.serialize)
      ((nalUnits data).map restored) := by
  refine Delivers.datagrams ?_ (parse_serialize_of_fragmentStream cuts)
  obtain ⟨parts, all, rfl⟩ := fragmentStream_eq_ok.mp cuts
  exact delivers_parts all

/-- The fragments of a buffer, each sent in wire form and read back, complete the
units of the buffer one by one, each without its forbidden bit, with no error and
nothing left open.  The same units arrive whatever the budget. -/
theorem fragmentStream_delivers {budget : Nat} {data : Bytes} {fragments : List Fragment}
    (cuts : fragmentStream budget data = .ok fragments) :
    (∀ f ∈ fragments, Fragment.parse f.serialize = .ok f) ∧
      Delivers empty (fragments.map fun f => .datagram f.serialize)
        ((nalUnits data).map restored) ∧
      ∀ other, 1 ≤ other → ∃ fragments', fragmentStream other data = .ok fragments' ∧
        Delivers empty (fragments'.map fun f => .datagram f.serialize)
          ((nalUnits data).map restored) := by
  refine ⟨parse_serialize_of_fragmentStream cuts, delivers_fragmentStream cuts, ?_⟩
  intro other positive
  obtain ⟨parts, all, rfl⟩ := fragmentStream_eq_ok.mp cuts
  obtain ⟨parts', all'⟩ := exists_fragmentUnit positive all
  have cuts' := fragmentStream_eq_ok.mpr ⟨parts', all', rfl⟩
  exact ⟨_, cuts', delivers_fragmentStream cuts'⟩

/-- Two units in fragments of two bytes, the first of them with its forbidden bit set. -/
theorem two_units_delivered :
    ∃ fragments, fragmentStream 2 [0, 0, 1, 0xE5, 7, 8, 9, 0, 0, 0, 1, 0x41] = .ok fragments ∧
      fragments.length = 3 ∧
      (empty.feed (fragments.map fun f => .datagram f.serialize)).filterMap (·.unit?) =
        [[0, 0, 0, 1, 0x65, 7, 8, 9], [0, 0, 0, 1, 0x41]] := by
  obtain ⟨fragments, cuts, count⟩ : ∃ fragments,
      fragmentStream 2 [0, 0, 1, 0xE5, 7, 8, 9, 0, 0, 0, 1, 0x41] = .ok fragments ∧
      fragments.length = 3 :=
    ⟨fragmentsOf (.ofByte 0xE5) true [[7, 8], [9]] ++ fragmentsOf (.ofByte 0x41) true [[]],
      by decide +kernel, rfl⟩
  have units : nalUnits [0, 0, 1, 0xE5, 7, 8, 9, 0, 0, 0, 1, 0x41] =
      [[0xE5, 7, 8, 9], [0x41]] := by decide +kernel
  obtain ⟨-, delivers, -⟩ := fragmentStream_delivers cuts
  refine ⟨fragments, cuts, count, ?_⟩
  rw [delivers.units, units]
  decide

end VideoRelay

/-
What has been reassembled, taken as a buffer again.

* `cleared` — a unit without its forbidden bit;
* `isInfix_cleared_iff` — when that makes a marker;
* `transport_eq_ok` — the bytes that come out of a transport are a byte stream with long
  start codes;
* `reassembled_isNormal` — its units are the delivered ones, with one exception, and
  another transport changes nothing.

Design notes: the long start code that a reassembler writes takes no zero from the unit in
front of it, so only the cleared header byte can do harm: `80 00 01` becomes a marker.
-/
import VideoRelay.Fragment.Transport
import VideoRelay.Proofs.Fragment.Lossless
import VideoRelay.Proofs.Media.Joining

namespace VideoRelay

open Reassembler

/-! ### The forbidden bit -/

/-- A unit without its forbidden bit. -/
def cleared : Bytes → Bytes
  | [] => []
  | first :: rest => (first &&& 0x7F) :: rest

theorem restored_eq (unit : Bytes) : restored unit = longStartCode ++ cleared unit := by
  cases unit with
  | nil => rfl
  | cons first rest => rfl

theorem cleared_cleared (unit : Bytes) : cleared (cleared unit) = cleared unit := by
  cases unit with
  | nil => rfl
  | cons first rest => rw [cleared, cleared, and_mask_self]

theorem cleared_eq_nil_iff {unit : Bytes} : cleared unit = [] ↔ unit = [] := by
  cases unit with
  | nil => rfl
  | cons first rest => exact ⟨nofun, nofun⟩

theorem and_eq_zero_iff (b : UInt8) : b &&& 0x7F = 0 ↔ b = 0 ∨ b = 0x80 := by
  have all : ∀ n : Fin 256, UInt8.ofNat n &&& 0x7F = 0 ↔
      UInt8.ofNat n = 0 ∨ UInt8.ofNat n = 0x80 := by
    decide +kernel
  exact forall_byte (P := fun b => b &&& 0x7F = 0 ↔ b = 0 ∨ b = 0x80) all b b.toNat_lt

/-- Without the forbidden bit a unit has a marker only if the bit stood in its place. -/
theorem isInfix_cleared_iff {unit : Bytes} (free : ¬ marker <:+: unit) :
    marker <:+: cleared unit ↔ [0x80, 0, 1] <+: unit := by
  cases unit with
  | nil => exact iff_of_false free (by simp)
  | cons first rest =>
    have notZero : ¬ (first = 0 ∧ [0, 1] <+: rest) := by
      rintro ⟨rfl, here⟩
      exact free ((List.prefix_cons_inj 0).mpr here).isInfix
    rw [cleared, List.infix_cons_iff, or_iff_left (not_isInfix_of_cons free), marker, List.cons_prefix_cons,
      List.cons_prefix_cons, eq_comm, and_eq_zero_iff, eq_comm (a := (0x80 : UInt8))]
    constructor
    · rintro ⟨zero | set, here⟩
      · exact absurd ⟨zero, here⟩ notZero
      · exact ⟨set, here⟩
    · rintro ⟨set, here⟩
      exact ⟨.inr set, here⟩

/-! ### Transports -/

/-- A transport over a channel that disturbs nothing delivers every unit of the buffer. -/
theorem transport_eq_ok {budget : Nat} {data : Bytes} {fragments : List Fragment}
    (cuts : fragmentStream budget data = .ok fragments) :
    ∃ journey, transport budget data [] = .ok journey ∧
      journey.units = ((nalUnits data).map cleared).map (longStartCode ++ ·) := by
  have arrive := (delivers_fragmentStream cuts).units
  have written : restored = (longStartCode ++ ·) ∘ cleared := funext restored_eq
  rw [written, ← List.map_map] at arrive
  have sent : (fragments.map Fragment.serialize).map Arrival.datagram =
      fragments.map fun f => .datagram f.serialize := List.map_map
  rw [← sent] at arrive
  rw [transport, cuts]
  exact ⟨_, rfl, arrive⟩

theorem byteStream_long (units : List Bytes) :
    byteStream (units.map fun unit => (StartCode.long, unit)) =
      (units.map (longStartCode ++ ·)).flatten := by
  rw [byteStream, List.flatMap_map, List.flatMap_def]
  rfl

/-- Units behind long start codes are found again if clearing them makes no marker. -/
theorem nalUnits_reassembled {units : List Bytes} (none_empty : [] ∉ units)
    (free : ∀ unit ∈ units, ¬ marker <:+: cleared unit) :
    nalUnits ((units.map cleared).map (longStartCode ++ ·)).flatten = units.map cleared := by
  rw [← byteStream_long, ← List.nil_append (byteStream _)]
  apply nalUnits_of_long (by decide)
  · intro unit mem
    obtain ⟨unit, here, rfl⟩ := List.mem_map.mp mem
    exact free unit here
  · intro unit mem
    obtain ⟨unit, here, rfl⟩ := List.mem_map.mp (List.mem_of_mem_getLast? mem)
    rw [Ne, cleared_eq_nil_iff]
    rintro rfl
    exact none_empty here

/-- A buffer without an empty unit is carried over with any budget. -/
theorem transport_of_nalUnits {budget : Nat} (positive : 1 ≤ budget) {data : Bytes}
    (none_empty : [] ∉ nalUnits data) :
    ∃ journey, transport budget data [] = .ok journey ∧
      journey.units = ((nalUnits data).map cleared).map (longStartCode ++ ·) := by
  obtain ⟨parts, -, cuts⟩ := fragmentStream_of_nil_not_mem positive none_empty
  exact transport_eq_ok cuts

/-- The bytes that are put together from the fragments of a buffer have the delivered units
as their units, unless a unit begins with `80 00 01`.  If they have, they are carried over
unchanged with any budget. -/
theorem reassembled_isNormal {budget : Nat} {data : Bytes} {fragments : List Fragment}
    (cuts : fragmentStream budget data = .ok fragments) :
    ∃ journey, transport budget data [] = .ok journey ∧
      journey.units = ((nalUnits data).map cleared).map (longStartCode ++ ·) ∧
      (nalUnits journey.units.flatten = (nalUnits data).map cleared ↔
        ∀ unit ∈ nalUnits data, ¬ [0x80, 0, 1] <+: unit) ∧
      (nalUnits journey.units.flatten = (nalUnits data).map cleared →
        ∀ other, 1 ≤ other → ∃ again, transport other journey.units.flatten [] = .ok again ∧
          again.units.flatten = journey.units.flatten) := by
  obtain ⟨journey, carried, units⟩ := transport_eq_ok cuts
  obtain ⟨parts, all, -⟩ := fragmentStream_eq_ok.mp cuts
  have none_empty := nil_not_mem_of_fragmentUnit all
  have forged : ∀ unit ∈ nalUnits data, marker <:+: cleared unit ↔ [0x80, 0, 1] <+: unit :=
    fun unit mem => isInfix_cleared_iff (UnitCursor.not_isInfix_of_mem mem)
  refine ⟨journey, carried, units, ⟨?_, ?_⟩, ?_⟩
  · intro found unit mem begins
    -- A unit that is found has no marker inside.
    have inside : cleared unit ∈ nalUnits journey.units.flatten := by
      rw [found]
      exact List.mem_map_of_mem mem
    exact UnitCursor.not_isInfix_of_mem inside ((forged unit mem).mpr begins)
  · intro none
    rw [units]
    exact nalUnits_reassembled none_empty fun unit mem inside =>
      none unit mem ((forged unit mem).mp inside)
  · intro found other positive
    have still : [] ∉ nalUnits journey.units.flatten := by
      rw [found, List.mem_map]
      rintro ⟨unit, mem, empty⟩
      rw [cleared_eq_nil_iff.mp empty] at mem
      exact none_empty mem
    obtain ⟨again, carriedAgain, unitsAgain⟩ := transport_of_nalUnits positive still
    refine ⟨again, carriedAgain, ?_⟩
    have twice : ((nalUnits data).map cleared).map cleared = (nalUnits data).map cleared := by
      rw [List.map_map]
      exact List.map_congr_left fun unit _ => cleared_cleared unit
    rw [unitsAgain, found, twice, ← units]

/-- The exception, and next to it a unit that only looks like it and ends in zeros. -/
theorem forged_marker_reassembled :
    (∃ journey, transport 1 [0, 0, 1, 0x80, 0, 1, 0x65] [] = .ok journey ∧
      journey.units.flatten = [0, 0, 0, 1, 0, 0, 1, 0x65] ∧
      nalUnits journey.units.flatten ≠ [[0, 0, 1, 0x65]]) ∧
    ∃ journey, transport 2 [0, 0, 1, 0xE5, 0x80, 0, 1, 0, 0, 0, 0, 0, 1, 0x41] [] = .ok journey ∧
      nalUnits journey.units.flatten = [[0x65, 0x80, 0, 1, 0, 0], [0x41]] ∧
      ∃ again, transport 3 journey.units.flatten [] = .ok again ∧
        again.units.flatten = journey.units.flatten := by
  have forging : nalUnits [0, 0, 1, 0x80, 0, 1, 0x65] = [[0x80, 0, 1, 0x65]] := by decide +kernel
  have harmless : nalUnits [0, 0, 1, 0xE5, 0x80, 0, 1, 0, 0, 0, 0, 0, 1, 0x41] =
      [[0xE5, 0x80, 0, 1, 0, 0], [0x41]] := by decide +kernel
  constructor
  · have cuts : fragmentStream 1 [0, 0, 1, 0x80, 0, 1, 0x65] =
        .ok (fragmentsOf (.ofByte 0x80) true [[0], [1], [0x65]]) := by decide +kernel
    obtain ⟨journey, carried, units, normal, -⟩ := reassembled_isNormal cuts
    rw [forging] at units normal
    refine ⟨journey, carried, ?_, fun found => normal.mp found _ List.mem_cons_self (by decide)⟩
    rw [units]
    rfl
  · have cuts : fragmentStream 2 [0, 0, 1, 0xE5, 0x80, 0, 1, 0, 0, 0, 0, 0, 1, 0x41] =
        .ok (fragmentsOf (.ofByte 0xE5) true [[0x80, 0], [1, 0], [0]] ++
          fragmentsOf (.ofByte 0x41) true [[]]) := by decide +kernel
    obtain ⟨journey, carried, -, normal, stable⟩ := reassembled_isNormal cuts
    rw [harmless] at normal stable
    have found := normal.mpr (by decide)
    exact ⟨journey, carried, found, stable found 3 (by decide)⟩

end VideoRelay

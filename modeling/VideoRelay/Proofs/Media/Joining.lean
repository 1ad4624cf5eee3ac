/-
Units behind start codes of either form, and found again.

* `StartCode`, `byteStream` — a start code with or without the additional zero, and
  units written one after the other, each behind a start code of its own;
* `splitAtMarker?_append` — the first marker is the one behind bytes that have none;
* `Separable` — what lets the units be told apart;
* `nalUnits_byteStream` — the units of a byte stream are the units it was written from.

Design notes: a marker that begins in a unit and ends behind it ends with the last byte of
the start code, so it is the marker of the start code.  But the zero in front of a marker
is taken for part of the start code, and so it has to be.  In the long form it always is.
-/
import Mathlib.Data.List.Chain
import VideoRelay.Proofs.Media.Enumeration

namespace VideoRelay

/-! ### Markers behind other bytes -/

/-- The first marker is the one behind bytes that have none, even if they end in zeros. -/
theorem splitAtMarker?_append {before : Bytes} (free : ¬ marker <:+: before) (after : Bytes) :
    splitAtMarker? (before ++ (marker ++ after)) = some (before, after) := by
  induction before with
  | nil => exact splitAtMarker?_marker_append after
  | cons b rest ih =>
    -- With fewer than three bytes left, the third one is a zero of the marker behind them.
    have now : ¬ marker <+: b :: (rest ++ (marker ++ after)) := by
      rintro ⟨tail, h⟩
      match rest with
      | [] | [c] => simp [marker] at h
      | c :: d :: more =>
        simp only [marker, List.cons_append, List.nil_append, List.cons.injEq] at h
        obtain ⟨rfl, rfl, rfl, -⟩ := h
        exact free ⟨[], more, rfl⟩
    rw [List.cons_append, splitAtMarker?_cons now, ih (not_isInfix_of_cons free)]
    rfl

/-- A zero at the end completes no marker. -/
theorem not_isInfix_concat_zero {data : Bytes} (free : ¬ marker <:+: data) :
    ¬ marker <:+: data ++ [0] := by
  rw [List.infix_concat_iff]
  rintro (atEnd | inside)
  · obtain ⟨front, h⟩ := atEnd
    have last := congrArg List.getLast? h
    simp [marker] at last
  · exact free inside

/-! ### Start codes -/

/-- The two forms of a start code. -/
inductive StartCode
  | short
  /-- With one more zero in front of the marker. -/
  | long
  deriving DecidableEq, Repr

namespace StartCode

/-- What stands in front of the marker. -/
def zero : StartCode → Bytes
  | short => []
  | long => [0]

def bytes (code : StartCode) : Bytes := code.zero ++ marker

theorem not_isInfix_zero {data : Bytes} (free : ¬ marker <:+: data) (code : StartCode) :
    ¬ marker <:+: data ++ code.zero := by
  cases code with
  | short =>
    rw [zero, List.append_nil]
    exact free
  | long => exact not_isInfix_concat_zero free

theorem splitAtMarker?_bytes {before : Bytes} (free : ¬ marker <:+: before) (code : StartCode)
    (after : Bytes) :
    splitAtMarker? (before ++ (code.bytes ++ after)) = some (before ++ code.zero, after) := by
  rw [bytes, List.append_assoc, ← List.append_assoc before]
  exact splitAtMarker?_append (code.not_isInfix_zero free) after

/-- The zero of a start code is the one that is cut from the unit in front of it. -/
theorem trimZero_append_zero {unit : Bytes} {code : StartCode}
    (apart : code = short → unit.getLast? ≠ some 0) : trimZero (unit ++ code.zero) = unit := by
  cases code with
  | short => rw [zero, List.append_nil, trimZero, if_neg (apart rfl)]
  | long => rw [zero, trimZero, if_pos List.getLast?_concat, List.dropLast_concat]

end StartCode

/-! ### Byte streams -/

/-- Units one after the other, each behind a start code. -/
def byteStream (coded : List (StartCode × Bytes)) : Bytes :=
  coded.flatMap fun u => u.1.bytes ++ u.2

theorem byteStream_cons (code : StartCode) (unit : Bytes) (rest : List (StartCode × Bytes)) :
    byteStream ((code, unit) :: rest) = code.bytes ++ (unit ++ byteStream rest) := by
  rw [byteStream, List.flatMap_cons, List.append_assoc]
  rfl

/-- No unit has a marker inside, the last one is not empty, and a unit in front of a short
start code does not end with a zero. -/
structure Separable (coded : List (StartCode × Bytes)) : Prop where
  free : ∀ u ∈ coded, ¬ marker <:+: u.2
  last : ∀ u ∈ coded.getLast?, u.2 ≠ []
  apart : coded.IsChain fun u next => next.1 = .short → u.2.getLast? ≠ some 0

/-- Without its first unit the rest of the list is separable. -/
theorem Separable.tail {u : StartCode × Bytes} {next : StartCode × Bytes}
    {rest : List (StartCode × Bytes)} (s : Separable (u :: next :: rest)) :
    Separable (next :: rest) where
  free v mem := s.free v (List.mem_cons_of_mem u mem)
  last v mem := s.last v (by rwa [List.getLast?_cons_cons])
  apart := (List.isChain_cons_cons.mp s.apart).2

namespace UnitCursor

/-- From behind the first start code on, the cursor gives the units of the stream. -/
theorem toList_byteStream {code : StartCode} {unit : Bytes} {rest : List (StartCode × Bytes)}
    (s : Separable ((code, unit) :: rest)) :
    toList ⟨some (unit ++ byteStream rest)⟩ = unit :: rest.map (·.2) := by
  have free : ¬ marker <:+: unit := s.free (code, unit) List.mem_cons_self
  induction rest generalizing code unit with
  | nil =>
    have left : unit ≠ [] := s.last (code, unit) rfl
    have none : splitAtMarker? unit = none :=
      splitAtMarker?_eq_none_iff.mpr (markers_eq_nil_iff.mpr free)
    rw [byteStream, List.flatMap_nil, List.append_nil,
      toList_of_next (next_of_splitAtMarker?_none left none), toList_exhausted]
    rfl
  | cons following others ih =>
    obtain ⟨code', unit'⟩ := following
    have apart := (List.isChain_cons_cons.mp s.apart).1
    have hnext := next_of_splitAtMarker?
      (code'.splitAtMarker?_bytes free (unit' ++ byteStream others))
    rw [StartCode.trimZero_append_zero apart] at hnext
    rw [byteStream_cons, toList_of_next hnext,
      ih s.tail (s.tail.free (code', unit') List.mem_cons_self)]
    rfl

end UnitCursor

theorem nalUnits_of_separable {leading : Bytes} (free : ¬ marker <:+: leading)
    {coded : List (StartCode × Bytes)} (s : Separable coded) :
    nalUnits (leading ++ byteStream coded) = coded.map (·.2) := by
  rw [nalUnits, UnitCursor.ofData]
  cases coded with
  | nil =>
    rw [byteStream, List.flatMap_nil, List.append_nil,
      splitAtMarker?_eq_none_iff.mpr (markers_eq_nil_iff.mpr free)]
    exact UnitCursor.toList_exhausted
  | cons first rest =>
    obtain ⟨code, unit⟩ := first
    rw [byteStream_cons, code.splitAtMarker?_bytes free]
    exact UnitCursor.toList_byteStream s

/-- With long start codes throughout, units may end in zeros. -/
theorem separable_long {units : List Bytes} (free : ∀ unit ∈ units, ¬ marker <:+: unit)
    (last : ∀ unit ∈ units.getLast?, unit ≠ []) :
    Separable (units.map fun unit => (StartCode.long, unit)) where
  free u mem := by
    obtain ⟨unit, here, rfl⟩ := List.mem_map.mp mem
    exact free unit here
  last u mem := by
    rw [List.getLast?_map] at mem
    obtain ⟨unit, here, rfl⟩ := Option.map_eq_some_iff.mp mem
    exact last unit here
  apart := by
    rw [List.isChain_map, List.isChain_iff_getElem]
    exact fun _ _ => nofun

theorem nalUnits_of_long {leading : Bytes} (leadingFree : ¬ marker <:+: leading)
    {units : List Bytes} (free : ∀ unit ∈ units, ¬ marker <:+: unit)
    (last : ∀ unit ∈ units.getLast?, unit ≠ []) :
    nalUnits (leading ++ byteStream (units.map fun unit => (StartCode.long, unit))) = units := by
  rw [nalUnits_of_separable leadingFree (separable_long free last), List.map_map]
  exact List.map_id units

/-- Splitting undoes joining: the units of a stream are the units it was written from, if
they are separable and no marker lies in front of them.  With long start codes throughout
every list of units without markers will do whose last unit is not empty. -/
theorem nalUnits_byteStream {leading : Bytes} (free : ¬ marker <:+: leading) :
    (∀ coded, Separable coded → nalUnits (leading ++ byteStream coded) = coded.map (·.2)) ∧
      ∀ units : List Bytes, (∀ unit ∈ units, ¬ marker <:+: unit) →
        (∀ unit ∈ units.getLast?, unit ≠ []) →
        nalUnits (leading ++ byteStream (units.map fun unit => (StartCode.long, unit))) =
          units :=
  ⟨fun _ s => nalUnits_of_separable free s,
    fun _ unitsFree last => nalUnits_of_long free unitsFree last⟩

/-- Zeros in front of the first start code, at the ends of units and next to an empty one. -/
theorem mixed_start_codes_split :
    nalUnits ([7, 0, 0] ++ byteStream [(.short, [0x65, 0, 0]), (.long, []), (.short, [0x41, 1]),
      (.short, [9, 0])]) = [[0x65, 0, 0], [], [0x41, 1], [9, 0]] :=
  (nalUnits_byteStream (by decide)).1 _ ⟨by decide, by decide, by decide⟩

end VideoRelay

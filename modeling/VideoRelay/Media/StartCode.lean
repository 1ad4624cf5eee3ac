/-
Start codes, and the NAL units between them.

A buffer in the byte-stream format holds its units behind start codes: the
marker `00 00 01`, which may be written with one more zero in front of it.

* `splitAtMarker?` — the bytes before and after the first marker;
* `startCode?` — where the first start code begins;
* `UnitCursor.next` — one unit after the other;
* `nalUnits` — the units of a buffer, in order;
* `splitAtMarker?_eq_some` — a split loses nothing.

Design notes: the zero in front of a marker belongs to the start code, so it is
cut from the end of the unit before it, one zero and no more.  A marker at the
very end of the buffer begins no unit; two adjacent markers have an empty unit
between them.
-/
import VideoRelay.Bytes

namespace VideoRelay

/-- The marker that every start code ends with. -/
def marker : Bytes := [0, 0, 1]

/-- The bytes after a marker at the front of `data`. -/
def afterMarker? : Bytes → Option Bytes
  | a :: b :: c :: rest => if a = 0 ∧ b = 0 ∧ c = 1 then some rest else none
  | _ => none

theorem afterMarker?_eq_some {data rest : Bytes} :
    afterMarker? data = some rest ↔ data = marker ++ rest := by
  constructor
  · intro h
    match data, h with
    | a :: b :: c :: tail, h =>
      simp only [afterMarker?] at h
      split at h
      · rename_i hm
        obtain ⟨rfl, rfl, rfl⟩ := hm
        simpa [marker] using h
      · simp at h
  · rintro rfl
    simp [marker, afterMarker?]

/-- Search for the first marker, with the bytes passed so far in reverse. -/
def searchMarker (passed : Bytes) : Bytes → Option (Bytes × Bytes)
  | [] => none
  | b :: rest =>
    match afterMarker? (b :: rest) with
    | some after => some (passed.reverse, after)
    | none => searchMarker (b :: passed) rest

/-- The bytes before and after the first marker of `data`. -/
def splitAtMarker? (data : Bytes) : Option (Bytes × Bytes) := searchMarker [] data

theorem searchMarker_eq_some {passed data before after : Bytes}
    (h : searchMarker passed data = some (before, after)) :
    passed.reverse ++ data = before ++ marker ++ after := by
  induction data generalizing passed with
  | nil => simp [searchMarker] at h
  | cons b rest ih =>
    simp only [searchMarker] at h
    split at h
    · rename_i tail hm
      obtain ⟨rfl, rfl⟩ := by simpa using h
      rw [afterMarker?_eq_some.mp hm, List.append_assoc]
    · simpa using ih h

/-- A split loses nothing. -/
theorem splitAtMarker?_eq_some {data before after : Bytes}
    (h : splitAtMarker? data = some (before, after)) :
    data = before ++ marker ++ after := by
  simpa using searchMarker_eq_some h

theorem length_lt_of_splitAtMarker? {data before after : Bytes}
    (h : splitAtMarker? data = some (before, after)) : after.length < data.length := by
  rw [splitAtMarker?_eq_some h]
  simp [marker]
  omega

/-- `data` without the zero that belongs to the start code behind it. -/
def trimZero (data : Bytes) : Bytes :=
  if data.getLast? = some 0 then data.dropLast else data

/-- The position of the first start code of `data`. -/
def startCode? (data : Bytes) : Option Nat :=
  (splitAtMarker? data).map fun (before, _) => (trimZero before).length

/-- A place in a buffer: what lies behind the last marker passed, or nothing
once the units are exhausted. -/
structure UnitCursor where
  behind? : Option Bytes
  deriving DecidableEq, Repr

namespace UnitCursor

/-- Before the first unit of `data`. -/
def ofData (data : Bytes) : UnitCursor := ⟨(splitAtMarker? data).map (·.2)⟩

/-- No units are left. -/
def exhausted : UnitCursor := ⟨none⟩

/-- How much is still to be searched. -/
def size (c : UnitCursor) : Nat := c.behind?.elim 0 List.length

/-- The next unit, if there is one, and the place behind it. -/
def next (c : UnitCursor) : Option Bytes × UnitCursor :=
  match c.behind? with
  | none | some [] => (none, exhausted)
  | some (b :: rest) =>
    match splitAtMarker? (b :: rest) with
    | none => (some (b :: rest), exhausted)
    | some (before, after) => (some (trimZero before), ⟨some after⟩)

theorem size_next_lt {c c' : UnitCursor} {unit : Bytes} (h : c.next = (some unit, c')) :
    c'.size < c.size := by
  obtain ⟨behind?⟩ := c
  match behind?, h with
  | some (b :: rest), h =>
    simp only [next] at h
    split at h
    · obtain ⟨-, rfl⟩ := by simpa using h
      simp [size, exhausted]
    · rename_i before after hs
      obtain ⟨-, rfl⟩ := by simpa using h
      simpa [size] using length_lt_of_splitAtMarker? hs

/-- All units from here on. -/
def toList (c : UnitCursor) : List Bytes :=
  match _h : c.next with
  | (none, _) => []
  | (some unit, rest) => unit :: rest.toList
termination_by c.size
decreasing_by exact size_next_lt _h

end UnitCursor

/-- The NAL units of `data`, in order.  What comes before the first start code
is ignored. -/
def nalUnits (data : Bytes) : List Bytes := (UnitCursor.ofData data).toList

end VideoRelay

/-
The format of fragments, in both directions.

* `Fragment.parse_eq_ok` — data is read as a fragment if it is the wire form of one in
  range, and as that one;
* `Fragment.parse_eq_tooShort`, `Fragment.parse_eq_notFuA` — otherwise it is too short, or
  its first byte has another type;
* `Fragment.parse_serialize_eq_ok` — what is read back of a fragment, whatever is stored in it;
* `Fragment.foldl_appendTo` — the wire forms of several fragments, one behind the other;
* `Fragment.format_isExact` — all of it.

Design notes: a mask of low bits is a remainder, so that a field out of range can be told
from its number alone.
-/
import Mathlib.Data.Nat.Bitwise
import VideoRelay.Proofs.Fragment.Wire

namespace VideoRelay

/-! ### Masks as remainders -/

theorem and_three_eq_mod (n : UInt8) : n &&& 0x03 = n % 4 := by
  apply UInt8.toNat_inj.mp
  rw [UInt8.toNat_and, UInt8.toNat_mod]
  exact Nat.and_two_pow_sub_one_eq_mod n.toNat 2

theorem and_thirtyOne_eq_mod (n : UInt8) : n &&& 0x1F = n % 32 := by
  apply UInt8.toNat_inj.mp
  rw [UInt8.toNat_and, UInt8.toNat_mod]
  exact Nat.and_two_pow_sub_one_eq_mod n.toNat 5

theorem mod_eq_self_iff {n k : UInt8} (pos : 0 < k) : n % k = n ↔ n < k := by
  rw [← UInt8.toNat_inj, UInt8.toNat_mod, UInt8.lt_iff_toNat_lt]
  exact Nat.mod_eq_iff_lt (Nat.ne_of_gt (UInt8.lt_iff_toNat_lt.mp pos))

namespace Fragment

/-- The numbers that fit into the fields. -/
theorem inRange_iff {f : Fragment} :
    f.InRange ↔ f.indicator.nri < 4 ∧ f.indicator.unitType = 28 ∧ f.header.unitType < 32 := by
  rw [← mod_eq_self_iff (k := 4) (by decide), ← mod_eq_self_iff (k := 32) (by decide),
    ← and_three_eq_mod, ← and_thirtyOne_eq_mod]
  exact ⟨fun r => ⟨r.nri, r.fuA, r.unitType⟩, fun ⟨nri, fuA, unitType⟩ => ⟨nri, fuA, unitType⟩⟩

/-! ### Reading -/

section Reading

variable {data : Bytes} {f : Fragment}

theorem parse_cons_cons (first second : UInt8) (payload : Bytes) :
    parse (first :: second :: payload) =
      if first &&& 0x1F = 28 then .ok ⟨.ofByte first, .ofByte second, payload⟩
      else .error (.notFuA (first &&& 0x1F)) := rfl

/-- What is read is in range, and nothing of the data is lost. -/
theorem of_parse_eq_ok (read : parse data = .ok f) : f.InRange ∧ f.serialize = data := by
  match data with
  | [] | [_] => cases read
  | first :: second :: payload =>
    rw [parse_cons_cons] at read
    split at read
    · rename_i fuA
      cases read
      refine ⟨⟨and_mask_self _ _, fuA, and_mask_self _ _⟩, ?_⟩
      rw [serialize, NalHeader.toByte_ofByte, FragmentHeader.toByte_ofByte]
    · cases read

/-- Data is read as a fragment if it is the wire form of one in range. -/
theorem parse_eq_ok : parse data = .ok f ↔ f.InRange ∧ f.serialize = data := by
  constructor
  · exact of_parse_eq_ok
  · rintro ⟨r, rfl⟩
    exact parse_serialize r

theorem parse_eq_tooShort {n : Nat} :
    parse data = .error (.fragmentTooShort n) ↔ data.length < overhead ∧ n = data.length := by
  match data with
  | [] | [_] => simp [parse, overhead, eq_comm]
  | first :: second :: payload =>
    have long : ¬(first :: second :: payload).length < overhead := by simp [overhead]
    rw [parse_cons_cons, iff_false_right (mt And.left long)]
    split <;> simp

theorem parse_eq_notFuA {t : UInt8} :
    parse data = .error (.notFuA t) ↔
      overhead ≤ data.length ∧ ∃ first, data.head? = some first ∧ first &&& 0x1F ≠ 28 ∧
        t = first &&& 0x1F := by
  match data with
  | [] | [_] => simp [parse, overhead]
  | first :: second :: payload =>
    have long : overhead ≤ (first :: second :: payload).length := by simp [overhead]
    rw [parse_cons_cons, and_iff_right long]
    by_cases fuA : first &&& 0x1F = 28
    · simp [fuA]
    · have other : 28 ≠ first &&& 0x1F := Ne.symm fuA
      simp [fuA, other, eq_comm]

theorem exists_parse_eq_ok :
    (∃ f, parse data = .ok f) ↔
      overhead ≤ data.length ∧ ∃ first, data.head? = some first ∧ first &&& 0x1F = 28 := by
  match data with
  | [] | [_] => simp [parse, overhead]
  | first :: second :: payload =>
    have long : overhead ≤ (first :: second :: payload).length := by simp [overhead]
    rw [parse_cons_cons, and_iff_right long]
    by_cases fuA : first &&& 0x1F = 28
    · simp [fuA]
    · simp [fuA]

end Reading

/-! ### Writing -/

/-- The fragment with every field cut to its width. -/
def reduced (f : Fragment) : Fragment where
  indicator := { f.indicator with
    nri := f.indicator.nri % 4
    unitType := f.indicator.unitType % 32 }
  header := { f.header with unitType := f.header.unitType % 32 }
  payload := f.payload

theorem truncated_eq_reduced (f : Fragment) : f.truncated = f.reduced := by
  rw [truncated, reduced, and_three_eq_mod, and_thirtyOne_eq_mod, and_thirtyOne_eq_mod]

/-- What is read back of a fragment: itself, cut to its fields, if the type that is left
says that it is one. -/
theorem parse_serialize_eq_ok {f g : Fragment} :
    parse f.serialize = .ok g ↔ f.indicator.unitType % 32 = 28 ∧ g = f.reduced := by
  rw [← and_thirtyOne_eq_mod, ← truncated_eq_reduced]
  by_cases fuA : f.indicator.unitType &&& 0x1F = 28
  · rw [parse_serialize_truncated fuA]
    simp [fuA, eq_comm]
  · have refused : parse f.serialize = .error (.notFuA (f.indicator.unitType &&& 0x1F)) := by
      rw [serialize, parse, NalHeader.ofByte_toByte]
      exact if_neg fuA
    rw [refused]
    simp [fuA]

/-- Fragments written one after the other. -/
theorem foldl_appendTo (buffer : Bytes) (fragments : List Fragment) :
    fragments.foldl appendTo buffer = buffer ++ fragments.flatMap serialize := by
  induction fragments generalizing buffer with
  | nil => exact (List.append_nil buffer).symm
  | cons f fragments ih =>
    rw [List.foldl_cons, ih, appendTo, List.flatMap_cons, List.append_assoc]

/-! ### The format -/

/-- What reading `data` comes to, and when. -/
structure IsReadExactly (data : Bytes) : Prop where
  tooShort : ∀ n, parse data = .error (.fragmentTooShort n) ↔
    data.length < 2 ∧ n = data.length
  notFuA : ∀ t, parse data = .error (.notFuA t) ↔
    2 ≤ data.length ∧ ∃ first, data.head? = some first ∧ first &&& 31 ≠ 28 ∧ t = first &&& 31
  succeeds : (∃ f, parse data = .ok f) ↔
    2 ≤ data.length ∧ ∃ first, data.head? = some first ∧ first &&& 31 = 28
  /-- A fragment has one wire form, and no two in range have the same. -/
  wireForm : ∀ f, parse data = .ok f ↔ f.InRange ∧ f.serialize = data

/-- What is read back of `f`, and when. -/
structure IsReadBack (f : Fragment) : Prop where
  succeeds : (∃ g, parse f.serialize = .ok g) ↔ f.indicator.unitType % 32 = 28
  reduced : ∀ g, parse f.serialize = .ok g ↔
    f.indicator.unitType % 32 = 28 ∧ g =
      ⟨⟨f.indicator.forbidden, f.indicator.nri % 4, f.indicator.unitType % 32⟩,
        ⟨f.header.isStart, f.header.isEnd, f.header.reserved, f.header.unitType % 32⟩,
        f.payload⟩
  same : parse f.serialize = .ok f ↔
    f.indicator.nri < 4 ∧ f.indicator.unitType = 28 ∧ f.header.unitType < 32

theorem isReadBack (f : Fragment) : IsReadBack f where
  succeeds := by
    constructor
    · rintro ⟨g, read⟩
      exact (parse_serialize_eq_ok.mp read).1
    · intro fuA
      exact ⟨f.reduced, parse_serialize_eq_ok.mpr ⟨fuA, rfl⟩⟩
  reduced := fun _ => parse_serialize_eq_ok
  same := by rw [parse_eq_ok, and_iff_left rfl, inRange_iff]

/-- Reading accepts exactly the wire forms of fragments, refuses all else for the reason
that applies, and loses of what was written only what does not fit into its field; and
fragments are written behind what there is, each in as many bytes as it says. -/
theorem format_isExact :
    (∀ data, IsReadExactly data) ∧
      (∀ f, IsReadBack f ∧ f.serialize.length = f.serializedLength) ∧
      ∀ (buffer : Bytes) (fragments : List Fragment),
        fragments.foldl appendTo buffer = buffer ++ fragments.flatMap serialize := by
  refine ⟨fun data => ?_, fun f => ⟨isReadBack f, length_serialize f⟩, foldl_appendTo⟩
  exact ⟨fun _ => parse_eq_tooShort, fun _ => parse_eq_notFuA, exists_parse_eq_ok,
    fun _ => parse_eq_ok⟩

/-- Fields out of range come back without what does not fit. -/
example : parse (serialize ⟨⟨true, 7, 60⟩, ⟨true, false, true, 37⟩, [1]⟩) =
    .ok ⟨⟨true, 3, 28⟩, ⟨true, false, true, 5⟩, [1]⟩ := by decide

end Fragment

end VideoRelay

/-
The wire form of fragments.

* `NalHeader.ofByte_toByte`, `FragmentHeader.ofByte_toByte` — a header read back is
  the header cut to its fields;
* `Fragment.parse_serialize` — so a fragment in range is read back as it was;
* `header_byte` — the first byte of a unit and what of it comes back.

Design notes: the bytes are looked at one by one, 256 of them at most: a field cut to
its width is one of 4 or of 32 values.
-/
import VideoRelay.Fragment.Basic

namespace VideoRelay

/-! ### Fields and their widths -/

theorem and_three_lt (n : UInt8) : (n &&& 0x03).toNat < 4 := by
  rw [UInt8.toNat_and]
  exact Nat.lt_of_le_of_lt Nat.and_le_right (by decide)

theorem and_thirtyOne_lt (n : UInt8) : (n &&& 0x1F).toNat < 32 := by
  rw [UInt8.toNat_and]
  exact Nat.lt_of_le_of_lt Nat.and_le_right (by decide)

/-- What holds of all bytes below `2 ^ 8` named by numbers holds of all bytes. -/
theorem forall_byte {P : UInt8 → Prop} {m : Nat} (h : ∀ n : Fin m, P (UInt8.ofNat n)) (b : UInt8)
    (lt : b.toNat < m) : P b := by
  have := h ⟨b.toNat, lt⟩
  simpa using this

namespace NalHeader

/-- The header byte is the fields side by side, and each is read from its place. -/
theorem ofByte_toByte (h : NalHeader) :
    ofByte h.toByte = ⟨h.forbidden, h.nri &&& 0x03, h.unitType &&& 0x1F⟩ := by
  obtain ⟨forbidden, nri, unitType⟩ := h
  have all : ∀ (f : Bool) (n : Fin 4) (t : Fin 32),
      ofByte (bit f 0x80 ||| (UInt8.ofNat n <<< 5) ||| UInt8.ofNat t) =
        ⟨f, UInt8.ofNat n, UInt8.ofNat t⟩ := by
    decide +kernel
  -- First the type takes any value of its field, then the importance of its own.
  have types : ∀ n : Fin 4,
      ofByte (bit forbidden 0x80 ||| (UInt8.ofNat n <<< 5) ||| (unitType &&& 0x1F)) =
        ⟨forbidden, UInt8.ofNat n, unitType &&& 0x1F⟩ := by
    intro n
    exact forall_byte (P := fun t =>
        ofByte (bit forbidden 0x80 ||| (UInt8.ofNat n <<< 5) ||| t) =
          ⟨forbidden, UInt8.ofNat n, t⟩)
      (all forbidden n) _ (and_thirtyOne_lt unitType)
  exact forall_byte (P := fun n => ofByte (bit forbidden 0x80 ||| (n <<< 5) |||
      (unitType &&& 0x1F)) = ⟨forbidden, n, unitType &&& 0x1F⟩) types _ (and_three_lt nri)

end NalHeader

namespace FragmentHeader

theorem ofByte_toByte (h : FragmentHeader) :
    ofByte h.toByte = ⟨h.isStart, h.isEnd, h.reserved, h.unitType &&& 0x1F⟩ := by
  obtain ⟨isStart, isEnd, reserved, unitType⟩ := h
  have all : ∀ (s e r : Bool) (t : Fin 32),
      ofByte (bit s 0x80 ||| bit e 0x40 ||| bit r 0x20 ||| UInt8.ofNat t) =
        ⟨s, e, r, UInt8.ofNat t⟩ := by
    decide +kernel
  exact forall_byte (P := fun t =>
      ofByte (bit isStart 0x80 ||| bit isEnd 0x40 ||| bit reserved 0x20 ||| t) =
        ⟨isStart, isEnd, reserved, t⟩)
    (all isStart isEnd reserved) _ (and_thirtyOne_lt unitType)

end FragmentHeader

/-! ### Fragments -/

namespace Fragment

/-- The fragment as far as its wire form tells. -/
def truncated (f : Fragment) : Fragment where
  indicator := ⟨f.indicator.forbidden, f.indicator.nri &&& 0x03, f.indicator.unitType &&& 0x1F⟩
  header := { f.header with unitType := f.header.unitType &&& 0x1F }
  payload := f.payload

/-- Every field within its width, and the type that of a fragment. -/
structure InRange (f : Fragment) : Prop where
  nri : f.indicator.nri &&& 0x03 = f.indicator.nri
  fuA : f.indicator.unitType = NalUnitType.fuA.value
  unitType : f.header.unitType &&& 0x1F = f.header.unitType

theorem InRange.truncated_eq {f : Fragment} (r : InRange f) : f.truncated = f := by
  obtain ⟨⟨forbidden, nri, fuA⟩, ⟨isStart, isEnd, reserved, unitType⟩, payload⟩ := f
  obtain ⟨hn, hf, ht⟩ := r
  have hf : fuA = NalUnitType.fuA.value := hf
  subst hf
  have ht : unitType &&& 0x1F = unitType := ht
  have hn : nri &&& 0x03 = nri := hn
  simp only [truncated, hn, ht]
  rfl

/-- What is read back of a fragment that says it is one. -/
theorem parse_serialize_truncated {f : Fragment}
    (fuA : f.indicator.unitType &&& 0x1F = NalUnitType.fuA.value) :
    parse f.serialize = .ok f.truncated := by
  simp only [serialize, parse, NalHeader.ofByte_toByte, FragmentHeader.ofByte_toByte, fuA, if_true]
  rw [truncated, fuA]

/-- A fragment in range is read back as it was. -/
theorem parse_serialize {f : Fragment} (r : InRange f) : parse f.serialize = .ok f := by
  have fuA : f.indicator.unitType &&& 0x1F = NalUnitType.fuA.value := by
    rw [r.fuA]
    rfl
  rw [parse_serialize_truncated fuA, r.truncated_eq]

end Fragment

/-! ### The header byte of a unit -/

theorem and_mask_self (b mask : UInt8) : b &&& mask &&& mask = b &&& mask := by
  rw [UInt8.and_assoc, UInt8.and_self]

/-- A piece of a unit with the header `header`. -/
def pieceOf (header : NalHeader) (isStart isEnd : Bool) (payload : Bytes) : Fragment where
  indicator := .fragmentIndicator header.nri
  header := .make isStart isEnd header.unitType
  payload := payload

theorem pieceOf_inRange (header : NalHeader) (isStart isEnd : Bool) (payload : Bytes) :
    (pieceOf header isStart isEnd payload).InRange where
  nri := and_mask_self _ _
  fuA := rfl
  unitType := and_mask_self _ _

/-- The header byte that comes back is that of the unit, without the forbidden bit. -/
theorem header_byte (b : UInt8) :
    NalHeader.toByte ⟨false, (NalHeader.ofByte b).nri &&& 0x03,
      (NalHeader.ofByte b).unitType &&& 0x1F⟩ = b &&& 0x7F := by
  have all : ∀ n : Fin 256, NalHeader.toByte
      ⟨false, (NalHeader.ofByte (.ofNat n)).nri &&& 0x03,
        (NalHeader.ofByte (.ofNat n)).unitType &&& 0x1F⟩ = UInt8.ofNat n &&& 0x7F := by
    decide +kernel
  exact forall_byte (P := fun b => NalHeader.toByte ⟨false, (NalHeader.ofByte b).nri &&& 0x03,
    (NalHeader.ofByte b).unitType &&& 0x1F⟩ = b &&& 0x7F) all b b.toNat_lt

end VideoRelay

/-
Fragments of NAL units.

A unit too long for one datagram travels as fragments.  A fragment has two
header bytes and a piece of the unit.  The first byte, the indicator, has the
form of a unit header whose type says "fragment"; the second carries the type
of the unit and marks the first and the last piece.

* `Fragment.serialize`, `Fragment.parse` — the wire form and its reader;
* `FragmentHeader.toByte_ofByte` — a byte is its own header.

Fields out of range can be stored; the wire form cuts them to their width.
-/
import VideoRelay.Error
import VideoRelay.Media.NalUnit

namespace VideoRelay

/-- The second header byte of a fragment. -/
structure FragmentHeader where
  isStart : Bool
  isEnd : Bool
  reserved : Bool
  unitType : UInt8
  deriving DecidableEq, Repr

namespace FragmentHeader

/-- The header of a piece of a unit of the given type. -/
def make (isStart isEnd : Bool) (unitType : UInt8) : FragmentHeader :=
  ⟨isStart, isEnd, false, unitType &&& 0x1F⟩

def ofByte (b : UInt8) : FragmentHeader :=
  ⟨b &&& 0x80 ≠ 0, b &&& 0x40 ≠ 0, b &&& 0x20 ≠ 0, b &&& 0x1F⟩

/-- The header byte; a type out of range loses its upper bits. -/
def toByte (h : FragmentHeader) : UInt8 :=
  bit h.isStart 0x80 ||| bit h.isEnd 0x40 ||| bit h.reserved 0x20 ||| (h.unitType &&& 0x1F)

theorem toByte_ofByte (b : UInt8) : (ofByte b).toByte = b := by
  have h : ∀ n : Fin 256, (ofByte (UInt8.ofNat n)).toByte = UInt8.ofNat n := by decide +kernel
  simpa using h ⟨b.toNat, b.toNat_lt⟩

end FragmentHeader

/-- The indicator of fragments of a unit of importance `nri`. -/
def NalHeader.fragmentIndicator (nri : UInt8) : NalHeader :=
  ⟨false, nri &&& 0x03, NalUnitType.fuA.value⟩

/-- One piece of a unit. -/
structure Fragment where
  indicator : NalHeader
  header : FragmentHeader
  payload : Bytes
  deriving DecidableEq, Repr

namespace Fragment

/-- The two header bytes. -/
def overhead : Nat := 2

def serializedLength (f : Fragment) : Nat := overhead + f.payload.length

/-- The wire form. -/
def serialize (f : Fragment) : Bytes :=
  f.indicator.toByte :: f.header.toByte :: f.payload

/-- The wire form behind what a buffer holds already. -/
def appendTo (buffer : Bytes) (f : Fragment) : Bytes := buffer ++ f.serialize

/-- The fragment that `data` is the wire form of. -/
def parse : Bytes → Except FormatError Fragment
  | first :: second :: payload =>
    let indicator := NalHeader.ofByte first
    if indicator.unitType = NalUnitType.fuA.value then
      .ok ⟨indicator, .ofByte second, payload⟩
    else .error (.notFuA indicator.unitType)
  | data => .error (.fragmentTooShort data.length)

@[simp] theorem length_serialize (f : Fragment) : f.serialize.length = f.serializedLength := by
  simp only [serialize, serializedLength, overhead, List.length_cons]
  omega

end Fragment

end VideoRelay

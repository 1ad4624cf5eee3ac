/-
The header byte of a NAL unit.

The byte holds the forbidden bit, two bits of importance (`nri`) and five bits
of type.  A header read from a byte is in range; a header made by hand may hold
wider numbers, which `NalHeader.toByte` cuts to their fields.

* `NalHeader.toByte_ofByte` — a byte is its own header.
-/
import VideoRelay.Bytes

namespace VideoRelay

/-! ### Types of units -/

/-- The types of units that have a name. -/
inductive NalUnitType
  | slice
  | slicePartA
  | slicePartB
  | slicePartC
  /-- A picture that decoding can start from. -/
  | idr
  | sei
  | sps
  | pps
  | aud
  | endSeq
  | endStream
  | filler
  /-- A fragment of another unit. -/
  | fuA
  deriving DecidableEq, Repr

namespace NalUnitType

/-- The number of a type. -/
def value : NalUnitType → UInt8
  | slice => 1
  | slicePartA => 2
  | slicePartB => 3
  | slicePartC => 4
  | idr => 5
  | sei => 6
  | sps => 7
  | pps => 8
  | aud => 9
  | endSeq => 10
  | endStream => 11
  | filler => 12
  | fuA => 28

/-- All types that have a name. -/
def all : List NalUnitType :=
  [slice, slicePartA, slicePartB, slicePartC, idr, sei, sps, pps, aud, endSeq, endStream, filler,
    fuA]

/-- The type that the low five bits of a byte name. -/
def ofByte? (b : UInt8) : Option NalUnitType :=
  all.find? fun t => t.value = b &&& 0x1F

/-- Whether decoding can start from units of this type. -/
def isKeyframe (t : NalUnitType) : Bool := t = idr

/-- Whether units of this type hold parameters for the decoder. -/
def isParameterSet (t : NalUnitType) : Bool := t = sps || t = pps

theorem ofByte?_value (t : NalUnitType) : ofByte? t.value = some t := by
  cases t <;> decide

end NalUnitType

/-! ### Headers -/

/-- The fields of a header byte, as stored: `nri` and `unitType` may be out of
range in a header made by hand. -/
structure NalHeader where
  forbidden : Bool
  nri : UInt8
  unitType : UInt8
  deriving DecidableEq, Repr

/-- One bit at a place of its own. -/
def bit (isSet : Bool) (place : UInt8) : UInt8 := if isSet then place else 0

namespace NalHeader

def ofByte (b : UInt8) : NalHeader :=
  ⟨b &&& 0x80 ≠ 0, (b >>> 5) &&& 0x03, b &&& 0x1F⟩

/-- The header of a unit, which an empty unit lacks. -/
def ofUnit? : Bytes → Option NalHeader
  | [] => none
  | b :: _ => some (ofByte b)

/-- The header byte; fields out of range lose their upper bits. -/
def toByte (h : NalHeader) : UInt8 :=
  bit h.forbidden 0x80 ||| ((h.nri &&& 0x03) <<< 5) ||| (h.unitType &&& 0x1F)

/-- The named type of a header. -/
def namedType? (h : NalHeader) : Option NalUnitType := NalUnitType.ofByte? h.unitType

theorem toByte_ofByte (b : UInt8) : (ofByte b).toByte = b := by
  have h : ∀ n : Fin 256, (ofByte (UInt8.ofNat n)).toByte = UInt8.ofNat n := by decide +kernel
  simpa using h ⟨b.toNat, b.toNat_lt⟩

end NalHeader

end VideoRelay

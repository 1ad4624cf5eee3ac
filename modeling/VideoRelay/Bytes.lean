/-
Byte strings, and the digits of numbers.

A byte string is a list of bytes, so that it can be taken apart by matching
and reasoned about by induction.

* `littleEndian w n` — the number `n` in `w` bytes, least significant first;
* `Bytes.toNatLE` — the number a byte string stands for in that order;
* `toNatLE_littleEndian` — reading back what was written gives the number;
* `Bytes.hasAtLeast` — a comparison with the length that stops early;
* `total` — the sum of some numbers;
* `hexadecimal n` — the digits of `n`, for messages and addresses.
-/

namespace VideoRelay

/-- A string of bytes. -/
abbrev Bytes := List UInt8

/-- The number `n` in `w` bytes, least significant first. -/
def littleEndian : Nat → Nat → Bytes
  | 0, _ => []
  | w + 1, n => UInt8.ofNat n :: littleEndian w (n / 256)

/-- The number that a byte string stands for, least significant byte first. -/
def Bytes.toNatLE : Bytes → Nat
  | [] => 0
  | b :: rest => b.toNat + 256 * Bytes.toNatLE rest

@[simp] theorem length_littleEndian (w n : Nat) : (littleEndian w n).length = w := by
  induction w generalizing n with
  | zero => rfl
  | succ w ih => simp [littleEndian, ih]

theorem toNatLE_littleEndian {w n : Nat} (h : n < Nat.pow 256 w) :
    Bytes.toNatLE (littleEndian w n) = n := by
  induction w generalizing n with
  | zero =>
    have hzero : n = 0 := Nat.lt_one_iff.mp h
    simp [littleEndian, Bytes.toNatLE, hzero]
  | succ w ih =>
    have hdiv : n / 256 < Nat.pow 256 w := Nat.div_lt_of_lt_mul (Nat.mul_comm _ _ ▸ h)
    have hbyte : (UInt8.ofNat n).toNat = n % 256 := by
      simp [UInt8.toNat_ofNat']
    simp only [littleEndian, Bytes.toNatLE, ih hdiv, hbyte]
    omega

/-- Whether there are at least `n` bytes; looks at no more than `n` of them. -/
def Bytes.hasAtLeast : Nat → Bytes → Bool
  | 0, _ => true
  | _ + 1, [] => false
  | n + 1, _ :: rest => Bytes.hasAtLeast n rest

@[simp] theorem hasAtLeast_iff {n : Nat} {data : Bytes} :
    Bytes.hasAtLeast n data = true ↔ n ≤ data.length := by
  induction n generalizing data with
  | zero => simp [Bytes.hasAtLeast]
  | succ n ih =>
    cases data with
    | nil => simp [Bytes.hasAtLeast]
    | cons b rest => simp [Bytes.hasAtLeast, ih]

/-- The sum of some numbers. -/
def total : List Nat → Nat
  | [] => 0
  | n :: rest => n + total rest

theorem total_append (l l' : List Nat) : total (l ++ l') = total l + total l' := by
  induction l with
  | nil => exact (Nat.zero_add _).symm
  | cons n l ih => rw [List.cons_append, total, total, ih, Nat.add_assoc]

/-- A number in lower-case hexadecimal digits. -/
def hexadecimal (n : Nat) : String :=
  String.ofList (Nat.toDigits 16 n)

end VideoRelay

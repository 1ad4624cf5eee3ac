/-
The pieces that a unit is cut into, and the offsets they lie at.

* `cut_eq_map` — piece number `i` is what lies at `i` times the budget;
* `IsFragmentation` — how many fragments a unit makes, of which sizes and with which
  header bytes;
* `fragmentUnitByOffsets?` — the same fragments found by offsets, in numbers of limited
  size and by slices that have to lie within the unit;
* `fragmentUnit_specified` — what comes of every unit and every budget, and that numbers
  as large as the unit is long are enough for all offsets.

Design notes: cutting goes through what is left of a unit and knows no offsets, so it is
right for any budget.  With offsets a multiplication or an addition could run out of
numbers.  The limit is a parameter of `fragmentUnitByOffsets?`, which gives nothing at all
where a number passes it: that the unit's own length will do as the limit says that every
number on the way is within that length.
-/
import Mathlib.Algebra.Order.Floor.Div
import VideoRelay.Proofs.Fragment.Lossless

namespace VideoRelay

/-! ### Pieces by number -/

/-- How many pieces of `budget` bytes it takes for `length` bytes; no bytes are one piece
as well. -/
def pieceCount (budget length : Nat) : Nat := max 1 (length ⌈/⌉ budget)

/-- All pieces but the first begin within the bytes to be cut. -/
theorem lt_pieceCount_iff {budget length i : Nat} (positive : 0 < budget) :
    i < pieceCount budget length ↔ i = 0 ∨ i * budget < length := by
  have reaches : length ⌈/⌉ budget ≤ i ↔ length ≤ budget * i := ceilDiv_le_iff_le_mul positive
  rw [pieceCount, Nat.mul_comm i]
  omega

theorem pieceCount_of_le {budget length : Nat} (positive : 0 < budget) (fits : length ≤ budget) :
    pieceCount budget length = 1 := by
  have one : 0 < pieceCount budget length := (lt_pieceCount_iff positive).mpr (.inl rfl)
  have two : 1 < pieceCount budget length ↔ 1 = 0 ∨ 1 * budget < length :=
    lt_pieceCount_iff positive
  omega

theorem pieceCount_of_lt {budget length : Nat} (positive : 0 < budget) (longer : budget < length) :
    pieceCount budget length = pieceCount budget (length - budget) + 1 := by
  have shift : length + budget - 1 = length - budget + budget - 1 + budget := by omega
  have up : length ⌈/⌉ budget = (length - budget) ⌈/⌉ budget + 1 := by
    rw [Nat.ceilDiv_eq_add_pred_div, Nat.ceilDiv_eq_add_pred_div, shift,
      Nat.add_div_right _ positive]
  have more : 0 < (length - budget) ⌈/⌉ budget := by
    rw [← not_le, ceilDiv_le_iff_le_mul positive]
    omega
  rw [pieceCount, pieceCount, up]
  omega

/-- The piece number `i`. -/
def pieceAt (budget : Nat) (data : Bytes) (i : Nat) : Bytes := (data.drop (i * budget)).take budget

theorem cutFrom_eq_map {budget : Nat} (positive : 0 < budget) (done : List Bytes) (data : Bytes) :
    cutFrom budget done data =
      done.reverse ++ (List.range (pieceCount budget data.length)).map (pieceAt budget data) := by
  fun_induction cutFrom budget done data with
  | case1 done data last =>
    have fits : data.length ≤ budget := by
      rcases last with zero | nothing
      · omega
      · exact List.drop_eq_nil_iff.mp nothing
    have whole : pieceAt budget data 0 = data := by
      rw [pieceAt, Nat.zero_mul, List.drop_zero, List.take_of_length_le fits]
    rw [pieceCount_of_le positive fits, List.range_one, List.map_singleton, whole,
      List.reverse_cons]
  | case2 done data more ih =>
    have longer : budget < data.length := by
      rw [not_or, List.drop_eq_nil_iff] at more
      omega
    have first : pieceAt budget data 0 = data.take budget := by
      rw [pieceAt, Nat.zero_mul, List.drop_zero]
    -- A piece of the rest is the next piece of the whole.
    have others : pieceAt budget (data.drop budget) = pieceAt budget data ∘ Nat.succ := by
      funext i
      rw [Function.comp, pieceAt, pieceAt, List.drop_drop, Nat.succ_mul, Nat.add_comm]
    rw [ih, pieceCount_of_lt positive longer, List.range_succ_eq_map, List.map_cons, List.map_map,
      first, ← others, List.length_drop, List.reverse_cons, List.append_assoc]
    rfl

theorem cut_eq_map {budget : Nat} (positive : 0 < budget) (data : Bytes) :
    cut budget data = (List.range (pieceCount budget data.length)).map (pieceAt budget data) :=
  cutFrom_eq_map positive [] data

theorem length_pieceAt (budget : Nat) (data : Bytes) (i : Nat) :
    (pieceAt budget data i).length = min budget (data.length - i * budget) := by
  rw [pieceAt, List.length_take, List.length_drop]

/-! ### The fragments of a unit -/

/-- Fragment number `i` of the unit `first :: rest`. -/
def fragmentAt (budget : Nat) (first : UInt8) (rest : Bytes) (i : Nat) : Fragment :=
  pieceOf (.ofByte first) (i = 0) (i + 1 = pieceCount budget rest.length) (pieceAt budget rest i)

def numberedFragments (budget : Nat) (first : UInt8) (rest : Bytes) : List Fragment :=
  (List.range (pieceCount budget rest.length)).map (fragmentAt budget first rest)

theorem length_numberedFragments (budget : Nat) (first : UInt8) (rest : Bytes) :
    (numberedFragments budget first rest).length = pieceCount budget rest.length := by
  rw [numberedFragments, List.length_map, List.length_range]

/-- A fragment is known by its number; the first one may be of no bytes, and all others begin
within the unit. -/
theorem numberedFragments_of_getElem? {budget : Nat} (positive : 0 < budget) {first : UInt8}
    {rest : Bytes} {i : Nat} {f : Fragment}
    (found : (numberedFragments budget first rest)[i]? = some f) :
    f = fragmentAt budget first rest i ∧ (i = 0 ∨ i * budget < rest.length) := by
  obtain ⟨inside, rfl⟩ := List.getElem?_eq_some_iff.mp found
  rw [length_numberedFragments] at inside
  refine ⟨?_, (lt_pieceCount_iff positive).mp inside⟩
  simp [numberedFragments]

theorem fragmentUnit_zero (unit : Bytes) : fragmentUnit 0 unit = .error .zeroFragmentSize := rfl

theorem fragmentUnit_nil {budget : Nat} (positive : 0 < budget) :
    fragmentUnit budget [] = .error (.nalUnitTooShort 0) := if_neg (Nat.ne_of_gt positive)

theorem fragmentUnit_cons {budget : Nat} (positive : 0 < budget) (first : UInt8) (rest : Bytes) :
    fragmentUnit budget (first :: rest) = .ok (numberedFragments budget first rest) := by
  have pieces := cut_eq_map positive rest
  have count : (cut budget rest).length = pieceCount budget rest.length := by
    rw [pieces, List.length_map, List.length_range]
  have same : ((cut budget rest).mapIdx fun i piece =>
      pieceOf (.ofByte first) (i = 0) (i + 1 = (cut budget rest).length) piece) =
        numberedFragments budget first rest := by
    rw [count, pieces, numberedFragments]
    apply List.ext_getElem
    · simp
    · intro i _ _
      simp [fragmentAt]
  rw [← same]
  exact if_neg (Nat.ne_of_gt positive)

/-- What the fragments of a unit with the header byte `first` and the bytes `rest` behind
it are, if no more than `budget` bytes may go into one. -/
structure IsFragmentation (budget : Nat) (first : UInt8) (rest : Bytes)
    (fragments : List Fragment) : Prop where
  count : fragments.length = max 1 (rest.length ⌈/⌉ budget)
  payloads : (fragments.map (·.payload)).flatten = rest
  /-- All but the last are filled. -/
  full : ∀ i f, fragments[i]? = some f → i + 1 < fragments.length → f.payload.length = budget
  /-- The last one is empty only if there is nothing behind the header byte. -/
  last : ∀ f ∈ fragments.getLast?, f.payload.length ≤ budget ∧ (f.payload = [] ↔ rest = [])
  marks : ∀ i f, fragments[i]? = some f →
    (f.header.isStart ↔ i = 0) ∧ (f.header.isEnd ↔ i + 1 = fragments.length)
  indicator : ∀ f ∈ fragments, f.indicator = ⟨false, (NalHeader.ofByte first).nri, 28⟩
  header : ∀ f ∈ fragments,
    f.header.reserved = false ∧ f.header.unitType = (NalHeader.ofByte first).unitType
  size : ∀ f ∈ fragments, f.serialize.length ≤ budget + 2

theorem isFragmentation {budget : Nat} (positive : 0 < budget) (first : UInt8) (rest : Bytes) :
    IsFragmentation budget first rest (numberedFragments budget first rest) where
  count := length_numberedFragments budget first rest
  payloads := by
    have whole := flatten_cut budget rest
    rw [cut_eq_map positive] at whole
    rw [numberedFragments, List.map_map]
    exact whole
  full i f found notLast := by
    obtain ⟨rfl, -⟩ := numberedFragments_of_getElem? positive found
    rw [length_numberedFragments, lt_pieceCount_iff positive, Nat.succ_mul] at notLast
    have piece := length_pieceAt budget rest i
    have more := notLast.resolve_left (Nat.succ_ne_zero i)
    show (pieceAt budget rest i).length = budget
    omega
  last f found := by
    rw [List.getLast?_eq_getElem?] at found
    obtain ⟨rfl, begins⟩ := numberedFragments_of_getElem? positive found
    generalize (numberedFragments budget first rest).length - 1 = i at begins
    have piece := length_pieceAt budget rest i
    show (pieceAt budget rest i).length ≤ budget ∧ (pieceAt budget rest i = [] ↔ rest = [])
    rw [← List.length_eq_zero_iff, ← List.length_eq_zero_iff]
    rcases begins with rfl | begins
    · omega
    · omega
  marks i f found := by
    obtain ⟨rfl, -⟩ := numberedFragments_of_getElem? positive found
    rw [length_numberedFragments]
    exact ⟨decide_eq_true_iff, decide_eq_true_iff⟩
  indicator f mem := by
    obtain ⟨i, -, rfl⟩ := List.mem_map.mp mem
    show (⟨false, (NalHeader.ofByte first).nri &&& 0x03, 28⟩ : NalHeader) = _
    rw [NalHeader.ofByte, and_mask_self]
  header f mem := by
    obtain ⟨i, -, rfl⟩ := List.mem_map.mp mem
    exact ⟨rfl, and_mask_self first 0x1F⟩
  size f mem := by
    obtain ⟨i, -, rfl⟩ := List.mem_map.mp mem
    have piece := length_pieceAt budget rest i
    rw [Fragment.length_serialize]
    show 2 + (pieceAt budget rest i).length ≤ budget + 2
    omega

/-! ### Pieces by offsets -/

/-- A number that is no larger than `largest`. -/
def within? (largest n : Nat) : Option Nat := if n ≤ largest then some n else none

theorem within?_of_le {largest n : Nat} (h : n ≤ largest) : within? largest n = some n := if_pos h

/-- What is left of `m` without `n`, if `n` is no larger. -/
def difference? (m n : Nat) : Option Nat := if n ≤ m then some (m - n) else none

theorem difference?_of_le {m n : Nat} (h : n ≤ m) : difference? m n = some (m - n) := if_pos h

/-- The quotient, rounded up by an addition. -/
def quotientUp? (largest m n : Nat) : Option Nat :=
  if 0 < m % n then within? largest (m / n + 1) else some (m / n)

/-- The bytes from one offset up to another one. -/
def slice? (data : Bytes) (start stop : Nat) : Option Bytes :=
  if start ≤ stop ∧ stop ≤ data.length then some (data.extract start stop) else none

/-- Piece number `i` of a unit, behind its header byte. -/
def pieceByOffsets? (largest budget : Nat) (unit : Bytes) (i : Nat) : Option Bytes := do
  let passed ← within? largest (i * budget)
  let start ← within? largest (1 + passed)
  let left ← difference? unit.length start
  let stop ← within? largest (start + min left budget)
  slice? unit start stop

/-- Fragment number `i` of the `count` fragments of a unit. -/
def fragmentByOffsets? (largest budget count : Nat) (header : NalHeader) (unit : Bytes) (i : Nat) :
    Option Fragment := do
  let next ← within? largest (i + 1)
  let piece ← pieceByOffsets? largest budget unit i
  return pieceOf header (i = 0) (next = count) piece

/-- The fragments of a unit by offsets, in numbers up to `largest`; nothing if one of them
passes the limit or a slice does not lie within the unit. -/
def fragmentUnitByOffsets? (largest budget : Nat) (unit : Bytes) :
    Option (Except FormatError (List Fragment)) :=
  if budget = 0 then some (.error .zeroFragmentSize)
  else
    match unit with
    | [] => some (.error (.nalUnitTooShort 0))
    | first :: _ => do
      let carried ← difference? unit.length 1
      let filled ← quotientUp? largest carried budget
      let count := max filled 1
      let fragments ← (List.range count).mapM
        (fragmentByOffsets? largest budget count (.ofByte first) unit)
      return .ok fragments

theorem quotientUp?_eq {largest m n : Nat} (positive : 0 < n) (fits : m ≤ largest) :
    quotientUp? largest m n = some (m ⌈/⌉ n) := by
  have below : (n - 1) / n = 0 := Nat.div_eq_of_lt (by omega)
  have rest : (n - 1) % n = n - 1 := Nat.mod_eq_of_lt (by omega)
  have up : m ⌈/⌉ n = m / n + if 0 < m % n then 1 else 0 := by
    rw [Nat.ceilDiv_eq_add_pred_div, Nat.add_sub_assoc positive, Nat.add_div positive, below, rest]
    congr 1
    have : n ≤ m % n + (n - 1) ↔ 0 < m % n := by omega
    simp only [this]
  rw [quotientUp?, up]
  split
  · rename_i remainder
    -- With a remainder the quotient is smaller than the dividend.
    have whole := Nat.div_add_mod m n
    have : m / n ≤ n * (m / n) := Nat.le_mul_of_pos_left _ positive
    exact within?_of_le (by omega)
  · rfl

/-- All offsets of a piece that begins within the unit are within it. -/
theorem pieceByOffsets?_eq {largest budget i : Nat} {first : UInt8} {rest : Bytes}
    (fits : rest.length + 1 ≤ largest) (begins : i * budget ≤ rest.length) :
    pieceByOffsets? largest budget (first :: rest) i = some (pieceAt budget rest i) := by
  have length : (first :: rest).length = rest.length + 1 := rfl
  have passed : within? largest (i * budget) = some (i * budget) := within?_of_le (by omega)
  have start : within? largest (1 + i * budget) = some (1 + i * budget) :=
    within?_of_le (by omega)
  have left : difference? (first :: rest).length (1 + i * budget) =
      some (rest.length - i * budget) := by
    rw [difference?_of_le (by omega), length]
    congr 1
    omega
  have stop : within? largest (1 + i * budget + min (rest.length - i * budget) budget) =
      some (1 + i * budget + min (rest.length - i * budget) budget) := within?_of_le (by omega)
  have slice : slice? (first :: rest) (1 + i * budget)
      (1 + i * budget + min (rest.length - i * budget) budget) = some (pieceAt budget rest i) := by
    rw [slice?, if_pos (by omega), List.extract_eq_take_drop, Nat.add_sub_cancel_left,
      Nat.add_comm 1, List.drop_succ_cons, pieceAt, Option.some.injEq, List.take_eq_take_iff,
      List.length_drop]
    omega
  simp only [pieceByOffsets?, passed, start, left, stop, slice, Option.bind_eq_bind,
    Option.bind_some]

theorem fragmentByOffsets?_eq {largest budget i : Nat} (positive : 0 < budget) {first : UInt8}
    {rest : Bytes} (fits : rest.length + 1 ≤ largest) (inside : i < pieceCount budget rest.length) :
    fragmentByOffsets? largest budget (pieceCount budget rest.length) (.ofByte first)
      (first :: rest) i = some (fragmentAt budget first rest i) := by
  have begins : i = 0 ∨ i ≤ i * budget ∧ i * budget < rest.length :=
    ((lt_pieceCount_iff positive).mp inside).imp_right
      fun begins => ⟨Nat.le_mul_of_pos_right i positive, begins⟩
  have within : i + 1 ≤ largest ∧ i * budget ≤ rest.length := by
    rcases begins with rfl | begins
    · omega
    · omega
  rw [fragmentByOffsets?, within?_of_le within.1, pieceByOffsets?_eq fits within.2]
  rfl

/-- What succeeds for each element of a list succeeds for the list. -/
theorem mapM_eq_some_map {α β : Type} {f : α → Option β} {g : α → β} {l : List α}
    (h : ∀ a ∈ l, f a = some (g a)) : l.mapM f = some (l.map g) := by
  induction l with
  | nil => rfl
  | cons a l ih =>
    rw [List.mapM_cons, h a List.mem_cons_self, ih fun b mem => h b (List.mem_cons_of_mem a mem)]
    rfl

/-- By offsets the same comes of a unit, if numbers go as far as the unit is long. -/
theorem fragmentUnitByOffsets?_eq {largest : Nat} {unit : Bytes} (fits : unit.length ≤ largest)
    (budget : Nat) :
    fragmentUnitByOffsets? largest budget unit = some (fragmentUnit budget unit) := by
  rcases Nat.eq_zero_or_pos budget with rfl | positive
  · rfl
  · cases unit with
    | nil => rw [fragmentUnitByOffsets?, if_neg (Nat.ne_of_gt positive), fragmentUnit_nil positive]
    | cons first rest =>
      have carried : difference? (first :: rest).length 1 = some rest.length :=
        difference?_of_le (Nat.le_add_left 1 rest.length)
      have filled : quotientUp? largest rest.length budget = some (rest.length ⌈/⌉ budget) :=
        quotientUp?_eq positive (Nat.le_of_succ_le fits)
      have count : max (rest.length ⌈/⌉ budget) 1 = pieceCount budget rest.length :=
        Nat.max_comm _ _
      have all : (List.range (pieceCount budget rest.length)).mapM
          (fragmentByOffsets? largest budget (pieceCount budget rest.length) (.ofByte first)
            (first :: rest)) = some (numberedFragments budget first rest) :=
        mapM_eq_some_map fun i mem => fragmentByOffsets?_eq positive fits (List.mem_range.mp mem)
      rw [fragmentUnitByOffsets?, if_neg (Nat.ne_of_gt positive), fragmentUnit_cons positive]
      simp only [carried, filled, count, all, Option.bind_eq_bind, Option.bind_some]
      rfl

/-- A smaller limit can be too small: the last piece ends where the unit does. -/
example : fragmentUnitByOffsets? 2 1 [0x65, 7, 8] = none := rfl

/-- Every unit and every budget: without a budget nothing is fragmented, without a header
byte neither, and all else makes fragments, which are what `IsFragmentation` says.  By
offsets the same comes of it in numbers that go as far as the unit is long, so no offset
leaves the unit and none is too large for a number that can hold the unit's length. -/
theorem fragmentUnit_specified (budget : Nat) (unit : Bytes) :
    (budget = 0 → fragmentUnit budget unit = .error .zeroFragmentSize) ∧
      (0 < budget → unit = [] → fragmentUnit budget unit = .error (.nalUnitTooShort 0)) ∧
      (0 < budget → ∀ first rest, unit = first :: rest →
        ∃ fragments, fragmentUnit budget unit = .ok fragments ∧
          IsFragmentation budget first rest fragments) ∧
      ∀ largest, unit.length ≤ largest →
        fragmentUnitByOffsets? largest budget unit = some (fragmentUnit budget unit) := by
  refine ⟨?_, ?_, ?_, fun largest fits => fragmentUnitByOffsets?_eq fits budget⟩
  · rintro rfl
    exact fragmentUnit_zero unit
  · rintro positive rfl
    exact fragmentUnit_nil positive
  · rintro positive first rest rfl
    exact ⟨_, fragmentUnit_cons positive first rest, isFragmentation positive first rest⟩

/-- No budget, no header byte, and a budget that no offset could be added to in 64 bits. -/
theorem largest_budget_specified :
    fragmentUnit 0 [] = .error .zeroFragmentSize ∧
      fragmentUnit 7 [] = .error (.nalUnitTooShort 0) ∧
      ∃ fragments, fragmentUnit (2 ^ 64 - 1) [0xE5, 7, 8] = .ok fragments ∧
        IsFragmentation (2 ^ 64 - 1) 0xE5 [7, 8] fragments ∧
        fragmentUnitByOffsets? (2 ^ 64 - 1) (2 ^ 64 - 1) [0xE5, 7, 8] = some (.ok fragments) := by
  refine ⟨(fragmentUnit_specified 0 []).1 rfl,
    (fragmentUnit_specified 7 []).2.1 (by decide) rfl, ?_⟩
  obtain ⟨-, -, cuts, offsets⟩ := fragmentUnit_specified (2 ^ 64 - 1) [0xE5, 7, 8]
  obtain ⟨fragments, made, is⟩ := cuts (by decide) 0xE5 [7, 8] rfl
  have byOffsets := offsets (2 ^ 64 - 1) (by decide)
  rw [made] at byOffsets
  exact ⟨fragments, made, is, byOffsets⟩

end VideoRelay

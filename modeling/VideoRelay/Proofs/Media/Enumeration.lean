/-
The units of a buffer, by the positions of its markers.

* `unitsBehind` — what lies behind each marker, up to the next one or to the end;
* `nalUnits_eq_unitsBehind` — the search from marker to marker gives just these;
* `call_eq_getElem?` — one unit with each call, and none from then on;
* `nalUnits_enumerated` — both together, and what follows for the units.

Design notes: a cursor knows only what lies behind the last marker, and a position is
one of the whole buffer.  So the buffer is fixed, and the induction is over what is left
of it: `data.drop (q + 3)` is what lies behind the marker at `q`.
-/
import VideoRelay.Proofs.Media.Markers

namespace VideoRelay

/-! ### Units by position -/

/-- Where the unit that begins at `start` ends, if the next marker is at `next?`: a
zero in front of the marker belongs to the start code. -/
def unitEnd (data : Bytes) (start : Nat) : Option Nat → Nat
  | none => data.length
  | some q => if start < q ∧ data[q - 1]? = some 0 then q - 1 else q

/-- The unit behind the marker at `q`; none if the buffer ends with the marker. -/
def unitBehind? (data : Bytes) (q : Nat) (next? : Option Nat) : Option Bytes :=
  if q + 3 < data.length then some (data.extract (q + 3) (unitEnd data (q + 3) next?)) else none

/-- The units behind the markers at these positions. -/
def unitsBehind (data : Bytes) : List Nat → List Bytes
  | [] => []
  | q :: rest => (unitBehind? data q rest.head?).toList ++ unitsBehind data rest

theorem unitBehind?_last {data after : Bytes} {q : Nat} (h : data.drop (q + 3) = after) :
    unitBehind? data q none = if after = [] then none else some after := by
  have hlen := congrArg List.length h
  rw [List.length_drop] at hlen
  by_cases empty : after = []
  · have : after.length = 0 := by rw [empty, List.length_nil]
    rw [unitBehind?, if_neg (by omega), if_pos empty]
  · have := List.length_pos_iff.mpr empty
    rw [unitBehind?, if_pos (by omega), if_neg empty, unitEnd, List.extract_eq_take_drop, h,
      List.take_of_length_le (by omega)]

/-- The zero in front of a marker, if there is one, is not part of the unit. -/
theorem unitBehind?_between {data before after : Bytes} {q : Nat}
    (h : data.drop (q + 3) = before ++ marker ++ after) :
    unitBehind? data q (some (q + 3 + before.length)) = some (trimZero before) := by
  have hlen := congrArg List.length h
  simp only [List.length_drop, List.length_append, length_marker] at hlen
  have htake : ∀ n ≤ before.length, (data.drop (q + 3)).take n = before.take n := by
    intro n hn
    rw [h, List.append_assoc, List.take_append_of_le_length hn]
  rw [unitBehind?, if_pos (by omega), unitEnd, List.extract_eq_take_drop]
  rcases List.eq_nil_or_concat' before with rfl | ⟨init, last, rfl⟩
  · have : ¬ q + 3 < q + 3 + ([] : Bytes).length := by simp
    rw [if_neg fun both => this both.1, htake _ (by simp), List.take_nil]
    rfl
  · have hinit : (init ++ [last]).length = init.length + 1 := by simp
    -- The byte in front of the marker is the last one of the unit's bytes.
    have hget : data[q + 3 + (init ++ [last]).length - 1]? = some last := by
      have : q + 3 + (init ++ [last]).length - 1 = q + 3 + init.length := by omega
      rw [this, ← List.getElem?_drop, h]
      simp
    by_cases zero : last = 0
    · have : q + 3 + (init ++ [last]).length - 1 - (q + 3) = init.length := by omega
      rw [hget, if_pos ⟨by omega, by rw [zero]⟩, this, htake _ (by omega), List.take_left,
        trimZero, if_pos (by simp [zero]), List.dropLast_concat]
    · have : q + 3 + (init ++ [last]).length - (q + 3) = (init ++ [last]).length := by omega
      rw [hget, if_neg (by simp [zero]), this, htake _ (by omega), List.take_length, trimZero,
        if_neg (by simp [zero])]

/-! ### The cursor -/

namespace UnitCursor

theorem toList_of_next {c rest : UnitCursor} {unit : Bytes} (h : c.next = (some unit, rest)) :
    c.toList = unit :: rest.toList := by
  rw [toList]
  split
  · rename_i heq
    rw [h] at heq
    cases heq
  · rename_i heq
    rw [h] at heq
    cases heq
    rfl

theorem toList_of_next_none {c rest : UnitCursor} (h : c.next = (none, rest)) :
    c.toList = [] := by
  rw [toList]
  split
  · rfl
  · rename_i heq
    rw [h] at heq
    cases heq

theorem toList_exhausted : exhausted.toList = [] := toList_of_next_none rfl

theorem toList_nil : toList ⟨some []⟩ = [] := by
  have ended : next ⟨some []⟩ = (none, exhausted) := rfl
  exact toList_of_next_none ended

theorem next_of_splitAtMarker? {behind before after : Bytes}
    (h : splitAtMarker? behind = some (before, after)) :
    next ⟨some behind⟩ = (some (trimZero before), ⟨some after⟩) := by
  cases behind with
  | nil => cases h
  | cons b rest => simp only [next, h]

theorem next_of_splitAtMarker?_none {behind : Bytes} (left : behind ≠ [])
    (h : splitAtMarker? behind = none) : next ⟨some behind⟩ = (some behind, exhausted) := by
  cases behind with
  | nil => exact absurd rfl left
  | cons b rest => simp only [next, h]

/-- A cursor behind the marker at `q` gives the units from that marker on. -/
theorem toList_eq_unitsBehind {data after : Bytes} {q : Nat} (h : data.drop (q + 3) = after) :
    toList ⟨some after⟩ = unitsBehind data (q :: (markers after).map (· + (q + 3))) := by
  induction hn : after.length using Nat.strong_induction_on generalizing q after with
  | h n ih =>
    cases after with
    | nil =>
      rw [toList_nil, markers_nil, List.map_nil, unitsBehind, List.head?_nil,
        unitBehind?_last h]
      rfl
    | cons b rest =>
      cases split : splitAtMarker? (b :: rest) with
      | none =>
        -- No marker is left, so this is the last unit.
        have hnext := next_of_splitAtMarker?_none (List.cons_ne_nil b rest) split
        rw [toList_of_next hnext, toList_exhausted, splitAtMarker?_eq_none_iff.mp split,
          List.map_nil, unitsBehind, List.head?_nil, unitBehind?_last h]
        rfl
      | some parts =>
        obtain ⟨before, tail⟩ := parts
        have hdata := splitAtMarker?_eq_some split
        have hshort := length_lt_of_splitAtMarker? split
        -- The next marker is that of the split, and the search goes on behind it.
        have htail : data.drop (q + 3 + before.length + 3) = tail := by
          rw [Nat.add_assoc (q + 3), ← List.drop_drop, h]
          exact drop_of_splitAtMarker? split
        have hmarkers : (markers (b :: rest)).map (· + (q + 3)) =
            (q + 3 + before.length) ::
              (markers tail).map (· + (q + 3 + before.length + 3)) := by
          rw [markers_of_splitAtMarker? split, List.map_cons, List.map_map]
          congr 1
          · omega
          · apply List.map_congr_left
            intro p _
            show p + (before.length + 3) + (q + 3) = p + (q + 3 + before.length + 3)
            omega
        rw [toList_of_next (next_of_splitAtMarker? split), hmarkers, unitsBehind, List.head?_cons,
          unitBehind?_between (h.trans hdata), ih tail.length (hn ▸ hshort) htail rfl]
        rfl

/-- What call number `n` gives, the first one being number 0. -/
def call : Nat → UnitCursor → Option Bytes
  | 0, c => c.next.1
  | n + 1, c => c.next.2.call n

theorem call_exhausted (n : Nat) : call n exhausted = none := by
  induction n with
  | zero => rfl
  | succ n ih => exact ih

/-- A call that gives nothing leaves nothing to give. -/
theorem next_eq_none {c rest : UnitCursor} (h : c.next = (none, rest)) : rest = exhausted := by
  obtain ⟨behind?⟩ := c
  match behind?, h with
  | none, h | some [], h => exact (Prod.mk.inj h).2.symm
  | some (b :: tail), h =>
    simp only [next] at h
    split at h <;> cases h

/-- The calls give the units one by one, and nothing when there are no more. -/
theorem call_eq_getElem? (c : UnitCursor) (n : Nat) : c.call n = c.toList[n]? := by
  induction n generalizing c with
  | zero =>
    rcases h : c.next with ⟨_ | unit, rest⟩
    · rw [call, h, toList_of_next_none h]
      rfl
    · rw [call, h, toList_of_next h]
      rfl
  | succ n ih =>
    rcases h : c.next with ⟨_ | unit, rest⟩
    · rw [call, h, next_eq_none h, toList_of_next_none h]
      exact call_exhausted n
    · rw [call, h, toList_of_next h, List.getElem?_cons_succ]
      exact ih rest

end UnitCursor

/-! ### Enumeration -/

/-- The units are what lies behind the markers. -/
theorem nalUnits_eq_unitsBehind (data : Bytes) :
    nalUnits data = unitsBehind data (markers data) := by
  rw [nalUnits, UnitCursor.ofData]
  cases split : splitAtMarker? data with
  | none =>
    rw [splitAtMarker?_eq_none_iff.mp split]
    exact UnitCursor.toList_exhausted
  | some parts =>
    obtain ⟨before, after⟩ := parts
    rw [markers_of_splitAtMarker? split]
    exact UnitCursor.toList_eq_unitsBehind (drop_of_splitAtMarker? split)

/-- What is in front of the first marker is no part of a unit. -/
theorem nalUnits_drop {data : Bytes} {q : Nat} (first : (markers data).head? = some q) :
    nalUnits (data.drop q) = nalUnits data := by
  obtain ⟨rest, hrest⟩ := mem_markers.mp (List.mem_of_mem_head? first)
  rw [nalUnits, nalUnits, UnitCursor.ofData, UnitCursor.ofData, ← hrest,
    splitAtMarker?_marker_append]
  cases split : splitAtMarker? data with
  | none =>
    rw [splitAtMarker?_eq_none_iff.mp split] at first
    cases first
  | some parts =>
    obtain ⟨before, after⟩ := parts
    rw [markers_of_splitAtMarker? split] at first
    obtain rfl := Option.some.inj first
    have hdata := splitAtMarker?_eq_some split
    rw [hdata, List.append_assoc, List.drop_left] at hrest
    rw [List.append_cancel_left hrest]
    rfl

theorem trimZero_isPrefix (data : Bytes) : trimZero data <+: data := by
  rw [trimZero]
  split
  · exact List.dropLast_prefix data
  · exact List.prefix_refl data

namespace UnitCursor

theorem not_isInfix_of_next {c rest : UnitCursor} {unit : Bytes}
    (h : c.next = (some unit, rest)) : ¬ marker <:+: unit := by
  obtain ⟨behind?⟩ := c
  match behind?, h with
  | some (b :: tail), h =>
    simp only [next] at h
    split at h
    · rename_i split
      cases h
      exact markers_eq_nil_iff.mp (splitAtMarker?_eq_none_iff.mp split)
    · rename_i before after split
      cases h
      intro inside
      exact not_isInfix_of_splitAtMarker? split
        (inside.trans (trimZero_isPrefix before).isInfix)

theorem not_isInfix_of_mem {c : UnitCursor} {unit : Bytes} (mem : unit ∈ c.toList) :
    ¬ marker <:+: unit := by
  fun_induction toList c with
  | case1 => cases mem
  | case2 c first rest h ih =>
    rcases List.mem_cons.mp mem with rfl | mem
    · exact not_isInfix_of_next h
    · exact ih mem

end UnitCursor

/-- One unit after the other lies behind the markers, which are all places that there are
in their order; the calls give just these, and nothing from then on.  Only a marker at the
very end has no unit, no unit has a marker inside, and what is in front of the first marker
does not count. -/
theorem nalUnits_enumerated (data : Bytes) :
    (markers data).Pairwise (· < ·) ∧ (∀ q, q ∈ markers data ↔ marker <+: data.drop q) ∧
      nalUnits data = unitsBehind data (markers data) ∧
      (∀ n, (UnitCursor.ofData data).call n = (unitsBehind data (markers data))[n]?) ∧
      (∀ q ∈ markers data, ∀ next?, unitBehind? data q next? = none ↔ q + 3 = data.length) ∧
      (∀ unit ∈ nalUnits data, ¬ marker <:+: unit) ∧
      ∀ q, (markers data).head? = some q → nalUnits (data.drop q) = nalUnits data := by
  refine ⟨pairwise_markers data, fun q => mem_markers, nalUnits_eq_unitsBehind data, ?_, ?_, ?_,
    fun q => nalUnits_drop⟩
  · intro n
    rw [UnitCursor.call_eq_getElem?, ← nalUnits_eq_unitsBehind]
    rfl
  · intro q mem next?
    have := add_three_le_of_mem_markers mem
    rw [unitBehind?]
    split
    · simp
      omega
    · simp
      omega
  · intro unit mem
    exact UnitCursor.not_isInfix_of_mem mem

/-- A run of zeros of which one belongs to the start code, two adjacent start codes, and
one at the end. -/
theorem three_units_enumerated :
    nalUnits [9, 0, 0, 0, 1, 0x65, 0, 0, 0, 0, 1, 0, 0, 1, 7, 0, 0, 1] = [[0x65, 0], [], [7]] ∧
      (UnitCursor.ofData [9, 0, 0, 0, 1, 0x65, 0, 0, 0, 0, 1, 0, 0, 1, 7, 0, 0, 1]).call 3 =
        none := by
  obtain ⟨-, -, units, calls, -⟩ :=
    nalUnits_enumerated [9, 0, 0, 0, 1, 0x65, 0, 0, 0, 0, 1, 0, 0, 1, 7, 0, 0, 1]
  rw [units, calls]
  exact ⟨rfl, rfl⟩

end VideoRelay

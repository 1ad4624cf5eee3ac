/-
Which buffers cannot be fragmented.

* `nil_mem_nalUnits_iff` — a buffer has an empty unit if one start code is right behind
  another;
* `nalUnits_eq_nil_iff` — it has no units if nothing is behind any marker;
* `mapM_eq_error` — one failure fails the list, with the only error there is;
* `fragmentStream_outcome` — what comes of every buffer with and without a budget.

Design notes: start codes side by side are a pattern in the bytes of the whole buffer,
and an empty unit is found by a cursor that knows what lies behind the last marker only.
Between the two stands the list of all markers: the induction is over the search, and
each split takes the first marker off that list.
-/
import VideoRelay.Proofs.Fragment.Pieces
import VideoRelay.Proofs.Media.Joining

namespace VideoRelay

/-! ### Patterns behind markers -/

/-- A marker with `pattern` behind it is found at one of the markers. -/
theorem marker_append_isInfix_iff {pattern data : Bytes} :
    marker ++ pattern <:+: data ↔ ∃ q ∈ markers data, pattern <+: data.drop (q + 3) := by
  constructor
  · rintro ⟨front, back, rfl⟩
    refine ⟨front.length, ?_, back, ?_⟩
    · rw [mem_markers, List.append_assoc, List.drop_left, List.append_assoc]
      exact List.prefix_append _ _
    · rw [← List.drop_drop, List.append_assoc, List.drop_left, List.append_assoc]
      rfl
  · rintro ⟨q, mem, here⟩
    obtain ⟨rest, hrest⟩ := mem_markers.mp mem
    have behind : data.drop (q + 3) = rest := by
      rw [← List.drop_drop, ← hrest]
      rfl
    rw [behind] at here
    have found : marker ++ pattern <+: data.drop q := by
      rw [← hrest]
      exact List.prefix_append_right_inj marker |>.mpr here
    exact found.isInfix.trans (List.drop_suffix q data).isInfix

/-- What lies behind the markers lies behind the first of them, or behind the others. -/
theorem exists_mem_markers_of_splitAtMarker? {data before after : Bytes}
    (h : splitAtMarker? data = some (before, after)) (P : Bytes → Prop) :
    (∃ q ∈ markers data, P (data.drop (q + 3))) ↔
      P after ∨ ∃ q ∈ markers after, P (after.drop (q + 3)) := by
  have behind := drop_of_splitAtMarker? h
  have later : ∀ q, data.drop (q + (before.length + 3) + 3) = after.drop (q + 3) := by
    intro q
    rw [← behind, List.drop_drop]
    congr 1
    omega
  rw [markers_of_splitAtMarker? h]
  simp only [List.mem_cons, exists_eq_or_imp, behind, List.mem_map, exists_exists_and_eq_and,
    later]

/-! ### Empty units -/

/-- A start code of either form stands at the front. -/
def BeginsWithCode (data : Bytes) : Prop := ∃ code : StartCode, code.bytes <+: data

/-- Nothing is left of bytes that are at most the zero of a start code. -/
theorem trimZero_eq_nil_iff {before : Bytes} :
    trimZero before = [] ↔ ∃ code : StartCode, before = code.zero := by
  constructor
  · intro h
    rw [trimZero] at h
    split at h
    · rename_i zero
      obtain ⟨init, rfl⟩ := List.getLast?_eq_some_iff.mp zero
      rw [List.dropLast_concat] at h
      exact ⟨.long, by rw [h]; rfl⟩
    · exact ⟨.short, h⟩
  · rintro ⟨code, rfl⟩
    cases code with
    | short => rfl
    | long => rfl

theorem BeginsWithCode.split {data : Bytes} (begins : BeginsWithCode data) :
    ∃ (code : StartCode) (after : Bytes), splitAtMarker? data = some (code.zero, after) := by
  obtain ⟨code, after, rfl⟩ := begins
  have nothingBefore : ¬ marker <:+: [] := by decide
  exact ⟨code, after, code.splitAtMarker?_bytes nothingBefore after⟩

/-- The unit in front of the first marker is empty if a start code comes right away. -/
theorem trimZero_eq_nil_iff_beginsWithCode {data before after : Bytes}
    (h : splitAtMarker? data = some (before, after)) :
    trimZero before = [] ↔ BeginsWithCode data := by
  rw [trimZero_eq_nil_iff]
  constructor
  · rintro ⟨code, rfl⟩
    exact ⟨code, after, (splitAtMarker?_eq_some h).symm⟩
  · intro begins
    obtain ⟨code, after', split⟩ := begins.split
    rw [h] at split
    cases split
    exact ⟨code, rfl⟩

/-- From behind a marker on, a unit is empty if a start code comes right behind that marker or
right behind a later one. -/
theorem UnitCursor.nil_mem_toList_iff (behind : Bytes) :
    [] ∈ toList ⟨some behind⟩ ↔
      BeginsWithCode behind ∨ ∃ q ∈ markers behind, BeginsWithCode (behind.drop (q + 3)) := by
  induction hn : behind.length using Nat.strong_induction_on generalizing behind with
  | h n ih =>
    cases split : splitAtMarker? behind with
    | none =>
      -- No marker is left: the last unit is not empty, and no start code can begin.
      have noCode : ¬ BeginsWithCode behind := by
        intro begins
        obtain ⟨code, after, found⟩ := begins.split
        rw [split] at found
        cases found
      have noUnit : [] ∉ toList ⟨some behind⟩ := by
        cases behind with
        | nil =>
          rw [toList_nil]
          exact List.not_mem_nil
        | cons b rest =>
          rw [toList_of_next (next_of_splitAtMarker?_none (List.cons_ne_nil b rest) split),
            toList_exhausted, List.mem_singleton]
          exact nofun
      rw [splitAtMarker?_eq_none_iff.mp split]
      simp [noCode, noUnit]
    | some parts =>
      obtain ⟨before, after⟩ := parts
      have shorter := length_lt_of_splitAtMarker? split
      rw [toList_of_next (next_of_splitAtMarker? split), List.mem_cons, eq_comm,
        trimZero_eq_nil_iff_beginsWithCode split, ih after.length (hn ▸ shorter) after rfl,
        exists_mem_markers_of_splitAtMarker? split BeginsWithCode]

theorem nil_mem_nalUnits_iff_beginsWithCode {data : Bytes} :
    [] ∈ nalUnits data ↔ ∃ q ∈ markers data, BeginsWithCode (data.drop (q + 3)) := by
  rw [nalUnits, UnitCursor.ofData]
  cases split : splitAtMarker? data with
  | none =>
    have ended : UnitCursor.toList ⟨none⟩ = [] := UnitCursor.toList_exhausted
    rw [splitAtMarker?_eq_none_iff.mp split]
    simp [ended]
  | some parts =>
    obtain ⟨before, after⟩ := parts
    rw [exists_mem_markers_of_splitAtMarker? split BeginsWithCode]
    exact UnitCursor.nil_mem_toList_iff after

/-- A unit is empty if its start code has the next one right behind it, in either form. -/
theorem nil_mem_nalUnits_iff {data : Bytes} :
    [] ∈ nalUnits data ↔
      [0, 0, 1, 0, 0, 1] <:+: data ∨ [0, 0, 1, 0, 0, 0, 1] <:+: data := by
  rw [nil_mem_nalUnits_iff_beginsWithCode]
  constructor
  · rintro ⟨q, mem, code, here⟩
    have inside := marker_append_isInfix_iff.mpr ⟨q, mem, here⟩
    cases code with
    | short => exact .inl inside
    | long => exact .inr inside
  · rintro (inside | inside)
    · have short : marker ++ StartCode.short.bytes <:+: data := inside
      obtain ⟨q, mem, here⟩ := marker_append_isInfix_iff.mp short
      exact ⟨q, mem, .short, here⟩
    · have long : marker ++ StartCode.long.bytes <:+: data := inside
      obtain ⟨q, mem, here⟩ := marker_append_isInfix_iff.mp long
      exact ⟨q, mem, .long, here⟩

/-! ### No units -/

theorem unitsBehind_eq_nil_iff {data : Bytes} {positions : List Nat} :
    unitsBehind data positions = [] ↔ ∀ q ∈ positions, data.length ≤ q + 3 := by
  induction positions with
  | nil => simp [unitsBehind]
  | cons q rest ih =>
    have here : (unitBehind? data q rest.head?).toList = [] ↔ data.length ≤ q + 3 := by
      rw [unitBehind?]
      split
      · simp
        omega
      · simp
        omega
    rw [unitsBehind, List.append_eq_nil_iff, ih, here, List.forall_mem_cons]

/-- There are no units if a marker can be found at the very end only. -/
theorem nalUnits_eq_nil_iff {data : Bytes} :
    nalUnits data = [] ↔ ∀ before after, data = before ++ marker ++ after → after = [] := by
  rw [nalUnits_eq_unitsBehind, unitsBehind_eq_nil_iff]
  constructor
  · rintro atEnd before after rfl
    have mem : before.length ∈ markers (before ++ marker ++ after) := by
      rw [mem_markers, List.append_assoc, List.drop_left]
      exact List.prefix_append marker after
    have short := atEnd before.length mem
    simp only [List.length_append, length_marker] at short
    exact List.length_eq_zero_iff.mp (by omega)
  · intro nothing q mem
    obtain ⟨after, hafter⟩ := mem_markers.mp mem
    have whole : data = data.take q ++ marker ++ after := by
      rw [List.append_assoc, hafter, List.take_append_drop]
    have hlen := congrArg List.length hafter
    rw [nothing _ after whole, List.append_nil, List.length_drop, length_marker] at hlen
    omega

/-! ### Failures -/

/-- If only one error can occur and it does, it is the error of the list. -/
theorem mapM_eq_error {α β ε : Type} {f : α → Except ε β} {l : List α} {e : ε}
    (only : ∀ a ∈ l, f a = .error e ∨ ∃ b, f a = .ok b) (fails : ∃ a ∈ l, f a = .error e) :
    l.mapM f = .error e := by
  induction l with
  | nil =>
    obtain ⟨a, mem, -⟩ := fails
    cases mem
  | cons a l ih =>
    rw [List.mapM_cons]
    rcases only a List.mem_cons_self with now | ⟨b, ok⟩
    · rw [now]
      rfl
    · -- The first element succeeds, so another one fails.
      obtain ⟨a', mem, failed⟩ := fails
      have later : a' ∈ l := by
        rcases List.mem_cons.mp mem with rfl | later
        · rw [ok] at failed
          cases failed
        · exact later
      rw [ok, ih (fun c mem => only c (List.mem_cons_of_mem a mem)) ⟨a', later, failed⟩]
      rfl

theorem fragmentStream_eq_error {budget : Nat} {data : Bytes} {e : FormatError}
    (only : ∀ unit ∈ nalUnits data,
      fragmentUnit budget unit = .error e ∨ ∃ part, fragmentUnit budget unit = .ok part)
    (fails : ∃ unit ∈ nalUnits data, fragmentUnit budget unit = .error e) :
    fragmentStream budget data = .error e := by
  rw [fragmentStream, mapM_eq_error only fails]
  rfl

theorem fragmentStream_of_nil_mem {budget : Nat} (positive : 1 ≤ budget) {data : Bytes}
    (empty : [] ∈ nalUnits data) : fragmentStream budget data = .error (.nalUnitTooShort 0) := by
  refine fragmentStream_eq_error ?_ ⟨[], empty, fragmentUnit_nil positive⟩
  intro unit _
  cases unit with
  | nil => exact .inl (fragmentUnit_nil positive)
  | cons first rest => exact .inr ⟨_, fragmentUnit_cons positive first rest⟩

theorem fragmentStream_zero {data : Bytes} (some_unit : nalUnits data ≠ []) :
    fragmentStream 0 data = .error .zeroFragmentSize := by
  obtain ⟨unit, mem⟩ := List.exists_mem_of_ne_nil _ some_unit
  exact fragmentStream_eq_error (fun unit _ => .inl (fragmentUnit_zero unit))
    ⟨unit, mem, fragmentUnit_zero unit⟩

/-- Every unit makes a fragment. -/
theorem flatten_parts_eq_nil_iff {budget : Nat} {units : List Bytes}
    {parts : List (List Fragment)}
    (all : List.Forall₂ (fun unit part => fragmentUnit budget unit = .ok part) units parts) :
    parts.flatten = [] ↔ units = [] := by
  cases all with
  | nil => simp
  | cons first _ =>
    obtain ⟨-, byte, rest, -, rfl⟩ := fragmentUnit_eq_ok.mp first
    cases pieces : cut budget rest with
    | nil => exact absurd pieces (cutFrom_ne_nil budget [] rest)
    | cons piece others => simp [fragmentsOf]

/-- With a budget, the buffers that have one start code right behind another fail, and
fail with the same error; all others make the fragments of their units, and none at all if
a marker can be found at the very end only.  Without a budget every buffer that has a unit
fails. -/
theorem fragmentStream_outcome {budget : Nat} (positive : 1 ≤ budget) (data : Bytes) :
    (fragmentStream budget data = .error (.nalUnitTooShort 0) ↔
        [0, 0, 1, 0, 0, 1] <:+: data ∨ [0, 0, 1, 0, 0, 0, 1] <:+: data) ∧
      (¬ ([0, 0, 1, 0, 0, 1] <:+: data ∨ [0, 0, 1, 0, 0, 0, 1] <:+: data) →
        ∃ parts, List.Forall₂ (fun unit part => fragmentUnit budget unit = .ok part)
            (nalUnits data) parts ∧
          fragmentStream budget data = .ok parts.flatten ∧
          (parts.flatten = [] ↔
            ∀ before after, data = before ++ [0, 0, 1] ++ after → after = [])) ∧
      (fragmentStream 0 data = .error .zeroFragmentSize ↔ nalUnits data ≠ []) ∧
      (nalUnits data = [] → fragmentStream 0 data = .ok []) := by
  have nothing : nalUnits data = [] → fragmentStream 0 data = .ok [] := fun none =>
    fragmentStream_eq_ok.mpr ⟨[], none ▸ .nil, rfl⟩
  rw [← nil_mem_nalUnits_iff]
  refine ⟨⟨?_, fragmentStream_of_nil_mem positive⟩, ?_, ⟨?_, fragmentStream_zero⟩, nothing⟩
  · intro failed
    by_contra none_empty
    obtain ⟨parts, -, ok⟩ := fragmentStream_of_nil_not_mem positive none_empty
    rw [failed] at ok
    cases ok
  · intro none_empty
    obtain ⟨parts, all, ok⟩ := fragmentStream_of_nil_not_mem positive none_empty
    exact ⟨parts, all, ok, (flatten_parts_eq_nil_iff all).trans nalUnits_eq_nil_iff⟩
  · intro failed none
    rw [nothing none] at failed
    cases failed

/-- The empty unit fails the whole buffer; without it the marker at the end does no harm. -/
theorem empty_unit_rejected :
    fragmentStream 1100 [9, 0, 0, 1, 0x65, 0, 0, 1, 0, 0, 0, 1, 0x41] =
        .error (.nalUnitTooShort 0) ∧
      (∃ fragments, fragmentStream 1100 [9, 0, 0, 1, 0x65, 0, 0, 1] = .ok fragments ∧
        fragments ≠ []) ∧
      fragmentStream 0 [9, 0, 0, 1, 0x65, 0, 0, 1] = .error .zeroFragmentSize := by
  have positive : 1 ≤ 1100 := by decide
  obtain ⟨fails, -, -, -⟩ := fragmentStream_outcome positive
    [9, 0, 0, 1, 0x65, 0, 0, 1, 0, 0, 0, 1, 0x41]
  obtain ⟨-, succeeds, withoutBudget, -⟩ := fragmentStream_outcome positive
    [9, 0, 0, 1, 0x65, 0, 0, 1]
  obtain ⟨parts, -, ok, none⟩ := succeeds (by decide)
  refine ⟨fails.mpr (by decide), ⟨_, ok, fun h => ?_⟩, withoutBudget.mpr (by decide +kernel)⟩
  have := none.mp h [9] [0x65, 0, 0, 1] rfl
  cases this

end VideoRelay

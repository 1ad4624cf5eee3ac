/-
Where the markers of a buffer are.

* `markers` — all positions of a buffer at which a marker begins, in order;
* `markers_marker_append` — markers do not overlap;
* `splitAtMarker?_eq_none_iff`, `markers_of_splitAtMarker?` — splitting finds the
  first of them, and leaves the others.

Design notes: `markers` looks at every position of the buffer, so it knows nothing of
the search; that a search from behind a marker finds the next one, and none that is not
there, is a theorem about both.
-/
import Mathlib.Data.List.Infix
import VideoRelay.Media.StartCode

namespace VideoRelay

@[simp] theorem length_marker : marker.length = 3 := rfl

theorem not_isInfix_of_cons {b : UInt8} {rest : Bytes} (free : ¬ marker <:+: b :: rest) :
    ¬ marker <:+: rest := fun inside => free (inside.trans (List.suffix_cons b rest).isInfix)

/-- The positions at which a marker begins. -/
def markers (data : Bytes) : List Nat :=
  (List.range data.length).filter fun q => marker.isPrefixOf (data.drop q)

theorem mem_markers {data : Bytes} {q : Nat} : q ∈ markers data ↔ marker <+: data.drop q := by
  rw [markers, List.mem_filter, List.mem_range, List.isPrefixOf_iff_prefix, and_iff_right_iff_imp]
  intro h
  have hlen := h.length_le
  rw [List.length_drop, length_marker] at hlen
  omega

theorem add_three_le_of_mem_markers {data : Bytes} {q : Nat} (mem : q ∈ markers data) :
    q + 3 ≤ data.length := by
  have hlen := (mem_markers.mp mem).length_le
  rw [List.length_drop, length_marker] at hlen
  omega

theorem pairwise_markers (data : Bytes) : (markers data).Pairwise (· < ·) :=
  List.pairwise_lt_range.filter _

@[simp] theorem markers_nil : markers [] = [] := rfl

theorem markers_cons (b : UInt8) (rest : Bytes) :
    markers (b :: rest) =
      (if marker.isPrefixOf (b :: rest) then [0] else []) ++ (markers rest).map (· + 1) := by
  rw [markers, List.length_cons, List.range_succ_eq_map, List.filter_cons, List.filter_map,
    List.drop_zero]
  split
  · rfl
  · rfl

/-- Behind a marker the search goes on: no other marker begins inside it. -/
theorem markers_marker_append (after : Bytes) :
    markers (marker ++ after) = 0 :: (markers after).map (· + 3) := by
  have h₂ : markers (1 :: after) = (markers after).map (· + 1) := markers_cons 1 after
  have h₁ : markers (0 :: 1 :: after) = (markers after).map (· + 2) := by
    rw [markers_cons, h₂, List.map_map]
    rfl
  have h₀ : markers (0 :: 0 :: 1 :: after) = 0 :: (markers after).map (· + 3) := by
    rw [markers_cons, h₁, List.map_map]
    rfl
  exact h₀

theorem markers_eq_nil_iff {data : Bytes} : markers data = [] ↔ ¬ marker <:+: data := by
  rw [List.eq_nil_iff_forall_not_mem]
  constructor
  · rintro none ⟨before, after, rfl⟩
    refine none before.length (mem_markers.mpr ⟨after, ?_⟩)
    rw [List.append_assoc, List.drop_left]
  · intro notInfix q mem
    exact notInfix ((mem_markers.mp mem).isInfix.trans (List.drop_suffix q data).isInfix)

/-! ### Splitting at the first marker -/

theorem searchMarker_eq (passed data : Bytes) :
    searchMarker passed data =
      (splitAtMarker? data).map fun (before, after) => (passed.reverse ++ before, after) := by
  suffices h : ∀ data passed more, searchMarker (passed ++ more) data =
      (searchMarker passed data).map fun (before, after) => (more.reverse ++ before, after) from
    h data [] passed
  intro data
  induction data with
  | nil => exact fun _ _ => rfl
  | cons b rest ih =>
    intro passed more
    rw [searchMarker, searchMarker]
    cases afterMarker? (b :: rest) with
    | some after => simp
    | none => exact ih (b :: passed) more

theorem splitAtMarker?_marker_append (after : Bytes) :
    splitAtMarker? (marker ++ after) = some ([], after) := by
  have h : afterMarker? (marker ++ after) = some after := afterMarker?_eq_some.mpr rfl
  rw [splitAtMarker?, marker, List.cons_append, searchMarker, ← List.cons_append, ← marker, h]
  rfl

theorem splitAtMarker?_cons {b : UInt8} {rest : Bytes} (h : ¬ marker <+: b :: rest) :
    splitAtMarker? (b :: rest) =
      (splitAtMarker? rest).map fun (before, after) => (b :: before, after) := by
  have none : afterMarker? (b :: rest) = none := by
    rw [Option.eq_none_iff_forall_ne_some]
    intro after hafter
    exact h ⟨after, (afterMarker?_eq_some.mp hafter).symm⟩
  rw [splitAtMarker?, searchMarker, none]
  exact searchMarker_eq [b] rest

/-- There is a marker, with the markers behind it, or there is none. -/
theorem splitAtMarker?_cases (data : Bytes) :
    (splitAtMarker? data = none ∧ markers data = []) ∨
      ∃ before after, splitAtMarker? data = some (before, after) ∧
        markers data = before.length :: (markers after).map (· + (before.length + 3)) := by
  induction data with
  | nil => exact .inl ⟨rfl, rfl⟩
  | cons b rest ih =>
    by_cases now : marker <+: b :: rest
    · obtain ⟨after, hafter⟩ := now
      refine .inr ⟨[], after, ?_, ?_⟩
      · rw [← hafter, splitAtMarker?_marker_append]
      · rw [← hafter, markers_marker_append]
        rfl
    · have hm : markers (b :: rest) = (markers rest).map (· + 1) := by
        rw [markers_cons, if_neg (by rwa [List.isPrefixOf_iff_prefix]), List.nil_append]
      rw [splitAtMarker?_cons now, hm]
      rcases ih with ⟨none, noMarker⟩ | ⟨before, after, split, later⟩
      · rw [none, noMarker]
        exact .inl ⟨rfl, rfl⟩
      · refine .inr ⟨b :: before, after, ?_, ?_⟩
        · rw [split]
          rfl
        · rw [later, List.map_cons, List.map_map, List.length_cons]
          rfl

theorem splitAtMarker?_eq_none_iff {data : Bytes} :
    splitAtMarker? data = none ↔ markers data = [] := by
  rcases splitAtMarker?_cases data with ⟨none, noMarker⟩ | ⟨before, after, split, found⟩
  · simp [none, noMarker]
  · simp [split, found]

/-- The split is at the first marker, and the others are those of what is behind it. -/
theorem markers_of_splitAtMarker? {data before after : Bytes}
    (h : splitAtMarker? data = some (before, after)) :
    markers data = before.length :: (markers after).map (· + (before.length + 3)) := by
  rcases splitAtMarker?_cases data with ⟨none, -⟩ | ⟨before', after', split, found⟩
  · rw [none] at h
    cases h
  · rw [split] at h
    cases h
    exact found

theorem drop_of_splitAtMarker? {data before after : Bytes}
    (h : splitAtMarker? data = some (before, after)) :
    data.drop (before.length + 3) = after := by
  have hlength : before.length + 3 = (before ++ marker).length := by
    rw [List.length_append, length_marker]
  rw [hlength, splitAtMarker?_eq_some h, List.drop_left]

theorem not_isInfix_of_splitAtMarker? {data before after : Bytes}
    (h : splitAtMarker? data = some (before, after)) : ¬ marker <:+: before := by
  rintro ⟨front, back, rfl⟩
  have hdata := splitAtMarker?_eq_some h
  -- A marker in front of the split would be an earlier one.
  have early : front.length ∈ markers data := by
    rw [mem_markers, hdata, List.append_assoc, List.append_assoc, List.append_assoc,
      List.drop_left]
    exact ⟨back ++ (marker ++ after), rfl⟩
  rw [markers_of_splitAtMarker? h, List.mem_cons, List.mem_map] at early
  simp only [List.length_append, length_marker] at early
  rcases early with early | ⟨q, -, early⟩ <;> omega

end VideoRelay

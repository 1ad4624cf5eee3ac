/-
Loss does not spread between units.

A channel that keeps the order may lose fragments at the beginning of a unit, in the
middle of it or at its end, and leaves the reassembler in any state there is when the
next unit begins.  The first fragment of a unit opens it in every state.

* `sublist_flatten_iff_survivors` — whatever arrives in order is left of the units, one
  by one;
* `intact` — the units of which nothing is lost;
* `intact_units_delivered` — they are completed, each with its last fragment, in their
  order and with whatever else in between.

Design notes: two units can have equal fragments, so what arrives does not tell which
of them were lost; losses are therefore stated unit by unit.
-/
import VideoRelay.Proofs.Fragment.Lossless

namespace VideoRelay

open Reassembler

/-- What arrives in order of the fragments `parts` of some units is what is left of
each. -/
theorem sublist_flatten_iff_survivors {parts : List (List Fragment)} {arriving : List Fragment} :
    arriving.Sublist parts.flatten ↔
      ∃ kept, List.Forall₂ List.Sublist kept parts ∧ kept.flatten = arriving := by
  constructor
  · intro sub
    induction parts generalizing arriving with
    | nil => exact ⟨[], .nil, (List.sublist_nil.mp sub).symm⟩
    | cons part parts ih =>
      obtain ⟨first, others, rfl, left, right⟩ := List.sublist_append_iff.mp sub
      obtain ⟨kept, all, rfl⟩ := ih right
      exact ⟨first :: kept, .cons left all, rfl⟩
  · rintro ⟨kept, all, rfl⟩
    induction all with
    | nil => exact List.Sublist.refl _
    | cons left _ ih => exact left.append ih

/-- The units of which nothing is lost: of their fragments `parts`, `kept` are left. -/
def intact : List Bytes → List (List Fragment) → List (List Fragment) → List Bytes
  | unit :: units, part :: parts, kept :: others =>
    if kept = part then unit :: intact units parts others else intact units parts others
  | _, _, _ => []

/-- A list around one of its elements. -/
theorem flatten_eq_of_getElem? {α : Type} {l : List (List α)} {i : Nat} {part : List α}
    (at_i : l[i]? = some part) :
    l.flatten = (l.take i).flatten ++ part ++ (l.drop (i + 1)).flatten := by
  obtain ⟨known, rfl⟩ := List.getElem?_eq_some_iff.mp at_i
  have split : l = l.take i ++ l[i] :: l.drop (i + 1) := by
    rw [List.getElem_cons_drop, List.take_append_drop]
  conv_lhs => rw [split]
  rw [List.flatten_append, List.flatten_cons, List.append_assoc]

/-- Intact units are delivered in their order. -/
theorem intact_sublist {units : List (Nat × Bytes)} {parts kept : List (List Fragment)}
    (cuts : List.Forall₂ (fun u part => fragmentUnit u.1 u.2 = .ok part) units parts)
    (r : Reassembler) :
    ((intact (units.map (·.2)) parts kept).map restored).Sublist
      ((r.feed (kept.flatten.map .fragment)).filterMap (·.unit?)) := by
  induction cuts generalizing kept r with
  | nil => simp [intact]
  | @cons u part units parts cut cuts ih =>
    cases kept with
    | nil => simp [intact]
    | cons first others =>
      rw [List.flatten_cons, List.map_append, feed_append, List.filterMap_append, List.map_cons,
        intact]
      have rest := @ih others (r.after (first.map .fragment))
      split
      · rename_i whole
        subst whole
        -- Its fragments complete the unit, and what follows finds nothing open.
        rw [(completes_fragmentUnit cut r).delivers.units]
        exact rest.cons_cons _
      · exact rest.trans (List.sublist_append_right _ _)

/-- Whatever is lost of the fragments of some units, each cut with a budget of its own,
and whatever the reassembler has open before: a unit of which nothing is lost is
returned by the push of its last fragment, no push of it before returns anything or
fails, and nothing is open behind it.  So these units are delivered in their order. -/
theorem intact_units_delivered {units : List (Nat × Bytes)}
    (valid : ∀ u ∈ units, 1 ≤ u.1 ∧ u.2 ≠ []) :
    ∃ parts, units.mapM (fun u => fragmentUnit u.1 u.2) = .ok parts ∧
      ∀ arriving : List Fragment, arriving.Sublist parts.flatten →
        (∃ kept, List.Forall₂ List.Sublist kept parts ∧ kept.flatten = arriving) ∧
        ∀ kept, List.Forall₂ List.Sublist kept parts → kept.flatten = arriving →
          ∀ r : Reassembler,
            (∀ i budget unit part, units[i]? = some (budget, unit) → parts[i]? = some part →
              kept[i]? = some part →
                ∃ earlier later, arriving = earlier ++ part ++ later ∧
                  earlier = (kept.take i).flatten ∧
                  Completes (r.after (earlier.map .fragment)) part (restored unit)) ∧
            ((intact (units.map (·.2)) parts kept).map restored).Sublist
              ((r.feed (arriving.map .fragment)).filterMap (·.unit?)) := by
  -- Every unit has a header and every budget is positive, so all of them are cut.
  have cuts : ∃ parts,
      List.Forall₂ (fun u part => fragmentUnit u.1 u.2 = .ok part) units parts := by
    induction units with
    | nil => exact ⟨[], .nil⟩
    | cons u units ih =>
      obtain ⟨positive, hasHeader⟩ := valid u List.mem_cons_self
      obtain ⟨byte, rest, whole⟩ := List.exists_cons_of_ne_nil hasHeader
      obtain ⟨parts, all⟩ := ih fun v mem => valid v (List.mem_cons_of_mem _ mem)
      exact ⟨_ :: parts, .cons (fragmentUnit_eq_ok.mpr
        ⟨Nat.ne_of_gt positive, byte, rest, whole, rfl⟩) all⟩
  obtain ⟨parts, cuts⟩ := cuts
  refine ⟨parts, mapM_eq_ok.mpr cuts, fun arriving sub => ?_⟩
  refine ⟨sublist_flatten_iff_survivors.mp sub, ?_⟩
  rintro kept - rfl r
  refine ⟨?_, intact_sublist cuts r⟩
  intro i budget unit part unitAt partAt keptAt
  have cut := (List.forall₂_iff_get.mp cuts).2 i (List.getElem?_eq_some_iff.mp unitAt).1
    (List.getElem?_eq_some_iff.mp partAt).1
  rw [List.get_eq_getElem, List.get_eq_getElem, (List.getElem?_eq_some_iff.mp unitAt).2,
    (List.getElem?_eq_some_iff.mp partAt).2] at cut
  exact ⟨_, _, flatten_eq_of_getElem? keptAt, rfl, completes_fragmentUnit cut _⟩

/-- Of three units the first loses its end and the last its beginning; a reassembler with
something else open completes the one between them. -/
theorem unit_between_losses :
    ∃ parts kept : List (List Fragment),
      [(1, [0x65, 1, 2]), (2, [0xC1, 7, 8, 9]), (1, [0x61, 5, 6])].mapM
        (fun u : Nat × Bytes => fragmentUnit u.1 u.2) = .ok parts ∧
      kept.map List.length = [1, 2, 1] ∧
      Completes (after ⟨some ⟨7, [0, 0]⟩⟩ ((kept.take 1).flatten.map .fragment)) (parts[1]?.getD [])
        [0, 0, 0, 1, 0x41, 7, 8, 9] ∧
      [[0, 0, 0, 1, 0x41, 7, 8, 9]].Sublist
        ((feed ⟨some ⟨7, [0, 0]⟩⟩ (kept.flatten.map .fragment)).filterMap (·.unit?)) := by
  obtain ⟨parts, cuts, delivered⟩ := @intact_units_delivered
    [(1, [0x65, 1, 2]), (2, [0xC1, 7, 8, 9]), (1, [0x61, 5, 6])] (by decide)
  have pieces : [(1, [0x65, 1, 2]), (2, [0xC1, 7, 8, 9]), (1, [0x61, 5, 6])].mapM
      (fun u : Nat × Bytes => fragmentUnit u.1 u.2) =
        .ok [fragmentsOf (.ofByte 0x65) true [[1], [2]],
          fragmentsOf (.ofByte 0xC1) true [[7, 8], [9]],
          fragmentsOf (.ofByte 0x61) true [[5], [6]]] := by decide +kernel
  obtain rfl := Except.ok.inj (cuts.symm.trans pieces)
  let kept := [(fragmentsOf (.ofByte 0x65) true [[1], [2]]).take 1,
    fragmentsOf (.ofByte 0xC1) true [[7, 8], [9]],
    (fragmentsOf (.ofByte 0x61) true [[5], [6]]).drop 1]
  have left : List.Forall₂ List.Sublist kept _ :=
    .cons (List.take_sublist _ _) (.cons (List.Sublist.refl _) (.cons (List.drop_sublist _ _) .nil))
  obtain ⟨-, found⟩ := delivered _ (sublist_flatten_iff_survivors.mpr ⟨kept, left, rfl⟩)
  obtain ⟨units, inOrder⟩ := found kept left rfl ⟨some ⟨7, [0, 0]⟩⟩
  obtain ⟨earlier, later, -, rfl, completes⟩ := units 1 2 [0xC1, 7, 8, 9] _ rfl rfl rfl
  exact ⟨_, kept, cuts, rfl, completes, inOrder⟩

end VideoRelay

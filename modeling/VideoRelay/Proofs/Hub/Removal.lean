/-
Removing subscribers.

The loops that remove subscribers at the end of a broadcast have closed forms.

* `Hub.without` — the hub with some subscribers removed, all at once;
* `removeAll_fst`, `removals_removeAll` — removing them one after the other comes
  to that, and tells of each of them once;
* `finish_fst`, `removals_finish` — the end of a broadcast.
-/
import VideoRelay.Proofs.Hub.History

namespace VideoRelay

namespace Hub

/-- The hub with the subscribers in `ids` removed. -/
def without (h : Hub) (ids : List Nat) : Hub :=
  { h with
    subscribers := h.subscribers.mapIdx fun i s =>
      if i ∈ ids then { s with isRegistered := false } else s }

theorem getElem?_without (h : Hub) (ids : List Nat) (i : Nat) :
    (h.without ids).subscribers[i]? =
      h.subscribers[i]?.map fun s => if i ∈ ids then { s with isRegistered := false } else s := by
  simp [without]

theorem without_append (h : Hub) (ids more : List Nat) :
    h.without (ids ++ more) = (h.without ids).without more := by
  have hs : (h.without (ids ++ more)).subscribers =
      ((h.without ids).without more).subscribers := by
    apply List.ext_getElem?
    intro i
    rw [getElem?_without, getElem?_without, getElem?_without]
    cases h.subscribers[i]? with
    | none => rfl
    | some s => by_cases h1 : i ∈ ids <;> by_cases h2 : i ∈ more <;> simp [h1, h2]
  have hl : h.without (ids ++ more) =
      { (h.without ids).without more with
        subscribers := (h.without (ids ++ more)).subscribers } := rfl
  rw [hl, hs]

theorem isRegistered_iff {h : Hub} {id : Nat} :
    h.isRegistered id = true ↔ ∃ s, h.subscribers[id]? = some s ∧ s.isRegistered = true := by
  rw [isRegistered, Option.any_eq_true]

/-- Removing those who are not registered changes nothing. -/
theorem without_eq_self {h : Hub} {ids : List Nat} (hn : ∀ id ∈ ids, h.isRegistered id = false) :
    h.without ids = h := by
  have hs : (h.without ids).subscribers = h.subscribers := by
    apply List.ext_getElem?
    intro i
    rw [getElem?_without]
    cases hi : h.subscribers[i]? with
    | none => rfl
    | some s =>
      by_cases mem : i ∈ ids
      · have hr := hn i mem
        simp only [isRegistered, hi, Option.any_some] at hr
        simp [mem, ← hr]
      · simp [mem]
  have hl : h.without ids = { h with subscribers := (h.without ids).subscribers } := rfl
  rw [hl, hs]

theorem remove_of_not_registered {h : Hub} {id : Nat} (hn : h.isRegistered id = false)
    (reason : Removal) : h.remove id reason = (h, []) := by
  rw [remove]
  cases hi : h.subscribers[id]? with
  | none => rfl
  | some s =>
    simp only [isRegistered, hi, Option.any_some] at hn
    simp [hn]

theorem remove_of_registered {h : Hub} {id : Nat} {s : Subscriber}
    (found : h.subscribers[id]? = some s) (hr : s.isRegistered = true) (reason : Removal) :
    h.remove id reason = (h.without [id],
      [.removed id reason s.queued s.skipped (h.without [id]).registeredCount]) := by
  have hs : h.subscribers.set id { s with isRegistered := false } =
      (h.without [id]).subscribers := by
    apply List.ext_getElem?
    intro i
    rw [getElem?_without, List.getElem?_set]
    by_cases heq : id = i
    · subst heq
      have known : id < h.subscribers.length := (List.getElem?_eq_some_iff.mp found).1
      rw [if_pos rfl, if_pos known, found]
      simp
    · cases hi : h.subscribers[i]? <;> simp [heq, Ne.symm heq]
  have hl : h.without [id] = { h with subscribers := (h.without [id]).subscribers } := rfl
  rw [remove, found]
  simp only [hr, if_true]
  rw [hs, ← hl]

theorem remove_fst (h : Hub) (id : Nat) (reason : Removal) :
    (h.remove id reason).1 = h.without [id] := by
  cases hr : h.isRegistered id with
  | false =>
    rw [remove_of_not_registered hr, without_eq_self (by simpa using hr)]
  | true =>
    obtain ⟨s, found, registered⟩ := isRegistered_iff.mp hr
    rw [remove_of_registered found registered]

/-- What holds of every removal holds of all that a removal tells. -/
theorem forall_mem_remove {P : Event → Prop} (hP : ∀ id r q k l, P (.removed id r q k l))
    (h : Hub) (id : Nat) (reason : Removal) : ∀ e ∈ (h.remove id reason).2, P e := by
  cases hr : h.isRegistered id with
  | false =>
    rw [remove_of_not_registered hr]
    intro e mem
    cases mem
  | true =>
    obtain ⟨s, found, registered⟩ := isRegistered_iff.mp hr
    rw [remove_of_registered found registered]
    intro e mem
    rw [List.mem_singleton.mp mem]
    exact hP _ _ _ _ _

theorem remove_quiet (h : Hub) (id : Nat) (reason : Removal) :
    Quiet (h.remove id reason).2 := forall_mem_remove (fun _ _ _ _ _ => rfl) h id reason

theorem remove_uncalled (h : Hub) (id : Nat) (reason : Removal) :
    Uncalled (h.remove id reason).2 := forall_mem_remove (fun _ _ _ _ _ => rfl) h id reason

theorem removals_remove (h : Hub) (id : Nat) (reason : Removal) :
    removals (h.remove id reason).2 = if h.isRegistered id then [(id, reason)] else [] := by
  cases hr : h.isRegistered id with
  | false => rw [remove_of_not_registered hr]; rfl
  | true =>
    obtain ⟨s, found, registered⟩ := isRegistered_iff.mp hr
    rw [remove_of_registered found registered]
    rfl

theorem isRegistered_without (h : Hub) (ids : List Nat) (id : Nat) :
    (h.without ids).isRegistered id = (h.isRegistered id && decide (id ∉ ids)) := by
  rw [isRegistered, getElem?_without, isRegistered]
  cases h.subscribers[id]? with
  | none => rfl
  | some s => by_cases mem : id ∈ ids <;> simp [mem]

/-- Remove subscribers one after the other. -/
def removeAll (h : Hub) (reason : Removal) : List Nat → Hub × List Event
  | [] => (h, [])
  | id :: rest =>
    let (h, first) := h.remove id reason
    let (h, others) := h.removeAll reason rest
    (h, first ++ others)

theorem removeAll_cons_snd (h : Hub) (reason : Removal) (id : Nat) (ids : List Nat) :
    (h.removeAll reason (id :: ids)).2 =
      (h.remove id reason).2 ++ ((h.remove id reason).1.removeAll reason ids).2 := rfl

theorem removeAll_fst (h : Hub) (reason : Removal) (ids : List Nat) :
    (h.removeAll reason ids).1 = h.without ids := by
  induction ids generalizing h with
  | nil => exact (without_eq_self (by simp)).symm
  | cons id ids ih =>
    rw [show id :: ids = [id] ++ ids from rfl, without_append, ← remove_fst h id reason]
    exact ih _

theorem forall_mem_removeAll {P : Event → Prop} (hP : ∀ id r q k l, P (.removed id r q k l))
    (h : Hub) (reason : Removal) (ids : List Nat) :
    ∀ e ∈ (h.removeAll reason ids).2, P e := by
  induction ids generalizing h with
  | nil => exact fun e mem => by cases mem
  | cons id ids ih =>
    intro e mem
    rw [removeAll_cons_snd, List.mem_append] at mem
    rcases mem with mem | mem
    · exact forall_mem_remove hP h id reason e mem
    · exact ih _ e mem

/-- Each of several registered subscribers is removed once. -/
theorem removals_removeAll {h : Hub} {ids : List Nat} (reason : Removal) (nodup : ids.Nodup)
    (registered : ∀ id ∈ ids, h.isRegistered id = true) :
    removals (h.removeAll reason ids).2 = ids.map fun id => (id, reason) := by
  induction ids generalizing h with
  | nil => rfl
  | cons id ids ih =>
    obtain ⟨notMem, nodup⟩ := List.nodup_cons.mp nodup
    have still : ∀ other ∈ ids, (h.remove id reason).1.isRegistered other = true := by
      intro other mem
      rw [remove_fst, isRegistered_without, registered other (List.mem_cons_of_mem _ mem)]
      have : other ≠ id := fun heq => notMem (heq ▸ mem)
      simpa using this
    have hfirst := removals_remove h id reason
    rw [registered id List.mem_cons_self, if_pos rfl] at hfirst
    rw [removeAll_cons_snd, removals_append, hfirst, ih nodup still]
    rfl

/-- The hub with `n` more subscribers counted as disconnected. -/
def counting (h : Hub) (n : Nat) : Hub :=
  { h with tally := { h.tally with disconnected := h.tally.disconnected + n } }

theorem remove_counting (h : Hub) (n id : Nat) (reason : Removal) :
    (h.counting n).remove id reason =
      ((h.remove id reason).1.counting n, (h.remove id reason).2) := by
  have same : (h.counting n).isRegistered id = h.isRegistered id := rfl
  cases hr : h.isRegistered id with
  | false => rw [remove_of_not_registered hr, remove_of_not_registered (same.trans hr)]
  | true =>
    obtain ⟨s, found, registered⟩ := isRegistered_iff.mp hr
    rw [remove_of_registered found registered,
      remove_of_registered (h := h.counting n) found registered]
    rfl

theorem removeClosed_eq (h : Hub) (ids : List Nat) :
    h.removeClosed ids = h.removeAll .closed ids := by
  induction ids generalizing h with
  | nil => rfl
  | cons id ids ih =>
    rw [removeClosed, removeAll]
    simp only [ih]

theorem removeOverflowed_eq (h : Hub) (ids : List Nat) :
    h.removeOverflowed ids = (h.counting ids.length).removeAll .overflow ids := by
  induction ids generalizing h with
  | nil => rfl
  | cons id ids ih =>
    have hc : h.counting (id :: ids).length = (h.counting 1).counting ids.length := by
      simp [counting, Nat.add_assoc, Nat.add_comm 1]
    rw [hc, removeOverflowed, removeAll, remove_counting]
    simp only [ih]
    rfl

/-- The hub when everybody has had a turn. -/
theorem finish_fst (h : Hub) (b : Broadcast) :
    (h.finish b).1 =
      { (h.without (b.closed ++ b.overflowed)).counting b.overflowed.length with
        phase := .ready } := by
  have hf : (h.finish b).1 =
      { ((h.removeClosed b.closed).1.removeOverflowed b.overflowed).1 with phase := .ready } := rfl
  rw [hf, removeOverflowed_eq, removeClosed_eq, removeAll_fst, removeAll_fst, without_append]
  rfl

theorem finish_snd (h : Hub) (b : Broadcast) :
    (h.finish b).2 = (h.removeAll .closed b.closed).2 ++
      (((h.without b.closed).counting b.overflowed.length).removeAll .overflow
        b.overflowed).2 := by
  have hf : (h.finish b).2 = (h.removeClosed b.closed).2 ++
      ((h.removeClosed b.closed).1.removeOverflowed b.overflowed).2 := rfl
  rw [hf, removeOverflowed_eq, removeClosed_eq, removeAll_fst]

theorem forall_mem_finish {P : Event → Prop} (hP : ∀ id r q k l, P (.removed id r q k l))
    (h : Hub) (b : Broadcast) : ∀ e ∈ (h.finish b).2, P e := by
  intro e mem
  rw [finish_snd, List.mem_append] at mem
  rcases mem with mem | mem <;> exact forall_mem_removeAll hP _ _ _ e mem

/-- The end of a broadcast tells of removals only. -/
theorem finish_quiet (h : Hub) (b : Broadcast) : Quiet (h.finish b).2 :=
  forall_mem_finish (fun _ _ _ _ _ => rfl) h b

theorem finish_uncalled (h : Hub) (b : Broadcast) : Uncalled (h.finish b).2 :=
  forall_mem_finish (fun _ _ _ _ _ => rfl) h b

/-- Who was found closed or full is removed at the end of the broadcast. -/
theorem removals_finish {h : Hub} {b : Broadcast} (nodup : (b.closed ++ b.overflowed).Nodup)
    (registered : ∀ id ∈ b.closed ++ b.overflowed, h.isRegistered id = true) :
    removals (h.finish b).2 =
      (b.closed.map fun id => (id, .closed)) ++ b.overflowed.map fun id => (id, .overflow) := by
  obtain ⟨nodup₁, nodup₂, disjoint⟩ := List.nodup_append.mp nodup
  have still : ∀ id ∈ b.overflowed,
      ((h.without b.closed).counting b.overflowed.length).isRegistered id = true := by
    intro id mem
    have notClosed : id ∉ b.closed := fun hc => disjoint id hc id mem rfl
    show (h.without b.closed).isRegistered id = true
    rw [isRegistered_without, registered id (List.mem_append_right _ mem)]
    simpa using notClosed
  have hclosed := removals_removeAll .closed nodup₁ fun id mem =>
    registered id (List.mem_append_left _ mem)
  have hover := removals_removeAll .overflow nodup₂ still
  rw [finish_snd, removals_append, hclosed, hover]

end Hub

end VideoRelay

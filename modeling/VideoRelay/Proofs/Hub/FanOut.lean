/-
Fan-out without gaps.

Under the blocking and the disconnecting policy a subscriber gets the packets since
its registration one after the other, from the first one on.

* `Run.queuedFor_isPrefix` — what was queued begins like the packets that began to be
  handed round after the registration;
* `Run.queuedFor_eq` — between broadcasts, and as long as the subscriber is
  registered, it is all of them;
* `Run.takenBy_eq` — so a subscriber that waits then has taken all of them;
* `Run.fanOut` — the same of what was taken and what can still be taken.
-/
import VideoRelay.Proofs.Hub.Turns

namespace VideoRelay

namespace Hub

/-- If all but the last have a property, those that have it are the first ones. -/
theorem filter_prefix_of_dropLast {α : Type} {p : α → Bool} {l : List α}
    (h : ∀ a ∈ l.dropLast, p a = true) : l.filter p <+: l := by
  rcases List.eq_nil_or_concat l with rfl | ⟨init, last, rfl⟩
  · exact List.nil_prefix
  · rw [List.concat_eq_append, List.dropLast_concat] at h
    rw [List.concat_eq_append, List.filter_append, List.filter_eq_self.mpr h]
    by_cases hl : p last = true
    · simp [hl]
    · simp [hl]

variable {config : HubConfig} {history : List Event} {h : Hub}

/-- Where nothing is left out, a turn that does not end the subscription ends with
the packet in the queue. -/
theorem Run.queued_of_isKept (run : Run config history h) (policy : config.policy ≠ .dropNewest)
    {id : Nat} {t : Turn} (mem : t ∈ turnsOf id history) (kept : t.outcome.isKept = true) :
    t.outcome = .queued := by
  obtain ⟨s, fits⟩ := run.turn_fits (List.mem_filter.mp mem).1
  cases outcome : t.outcome with
  | queued => rfl
  | skipped =>
    rw [outcome] at fits
    exact absurd fits.2.2 policy
  | refused | overflowed =>
    rw [outcome] at kept
    cases kept

theorem Run.queuedFor_isPrefix (run : Run config history h) (policy : config.policy ≠ .dropNewest)
    (id : Nat) : queuedFor id history <+: packetsSince id history := by
  have v := run.served id
  rw [queuedFor_eq]
  refine List.IsPrefix.trans (List.IsPrefix.map _ (filter_prefix_of_dropLast ?_)) v.inOrder
  intro t mem
  exact decide_eq_true (run.queued_of_isKept policy (List.dropLast_subset _ mem) (v.kept t mem))

theorem packetsSince_sublist (id : Nat) (history : List Event) :
    (packetsSince id history).Sublist (begunPackets history) :=
  (List.dropWhile_sublist _).filterMap _

/-- What was taken is the first of it. -/
theorem Run.takenBy_isPrefix (run : Run config history h) (policy : config.policy ≠ .dropNewest)
    {id : Nat} (known : id < h.nextId) : takenBy id history <+: packetsSince id history := by
  have a := run.account_of_found (List.getElem?_eq_getElem known)
  exact ((List.prefix_append _ _).trans a.taken).trans (run.queuedFor_isPrefix policy id)

theorem Run.queuedFor_eq (run : Run config history h) (policy : config.policy ≠ .dropNewest)
    {id : Nat} (ready : h.phase = .ready) (registered : h.isRegistered id = true) :
    queuedFor id history = packetsSince id history := by
  have v := run.served id
  have live : h.phase ≠ .stopped := by simp [ready]
  rw [← v.complete registered live, due_of_ready ready, List.append_nil, Hub.queuedFor_eq]
  congr 1
  rw [List.filter_eq_self]
  intro t mem
  have kept := v.faultless registered live (isFaultless_of_ready ready id) t mem
  exact decide_eq_true (run.queued_of_isKept policy mem kept)

/-- Between broadcasts a subscriber that waits has taken all there was. -/
theorem Run.takenBy_eq (run : Run config history h) (policy : config.policy ≠ .dropNewest)
    {id : Nat} (ready : h.phase = .ready) (waits : h.available id = .waiting) :
    takenBy id history = packetsSince id history := by
  obtain ⟨s, found, queue, attached⟩ : ∃ s, h.subscribers[id]? = some s ∧ s.queue = [] ∧
      h.isAttached s = true := by
    rw [available] at waits
    split at waits
    · cases waits
    · rename_i s found
      refine ⟨s, found, ?_⟩
      split at waits
      · cases waits
      · rename_i queue
        split at waits
        · rename_i attached
          exact ⟨queue, attached⟩
        · cases waits
  simp only [isAttached, Bool.and_eq_true] at attached
  have account := run.account_of_found found
  have registered : h.isRegistered id = true := isRegistered_iff.mpr ⟨s, found, attached.1.2⟩
  have all := account.intact (account.not_mem_drops attached.1.1)
  rw [queue, List.append_nil] at all
  rw [← all]
  exact run.queuedFor_eq policy ready registered

/-- At every moment, what a subscriber has taken and what is queued for it are the
first of the packets that the hub took up since its registration, and nothing is
missing between broadcasts while the subscriber is registered.  The receiving end
finds that nothing more will come only when it has taken all that was queued. -/
theorem Run.fanOut (run : Run config history h)
    (policy : config.policy = .block ∨ config.policy = .disconnect) {id : Nat}
    (known : id ∈ registrations history) :
    ∃ s, h.subscribers[id]? = some s ∧
      takenBy id history ++ s.queue <+: packetsSince id history ∧
      (h.phase = .ready → id ∉ removed history → id ∉ drops history →
        takenBy id history ++ s.queue = packetsSince id history) ∧
      (h.available id = .ended → id ∉ drops history →
        takenBy id history = queuedFor id history) := by
  have notDropping : config.policy ≠ .dropNewest := by
    rcases policy with policy | policy <;> simp [policy]
  rw [run.registrations_eq, List.mem_range] at known
  obtain ⟨s, found⟩ : ∃ s, h.subscribers[id]? = some s :=
    ⟨_, List.getElem?_eq_getElem known⟩
  have a := run.account_of_found found
  refine ⟨s, found, ?_, ?_, ?_⟩
  · exact a.taken.trans (run.queuedFor_isPrefix notDropping id)
  · intro ready notRemoved kept
    have registered : h.isRegistered id = true :=
      isRegistered_iff.mpr ⟨s, found, a.isRegistered.mpr notRemoved⟩
    rw [← a.intact kept]
    exact run.queuedFor_eq notDropping ready registered
  · intro ended kept
    -- The end is seen only with an empty queue.
    have empty : s.queue = [] := by
      cases queue : s.queue with
      | nil => rfl
      | cons p rest => simp [available, found, queue] at ended
    rw [a.intact kept, empty, List.append_nil]

/-- A subscriber with room for one packet, disconnected by the second, still takes
the first before it finds the end. -/
theorem fanOut_overflow :
    ∃ history h, Run ⟨1, 1, .disconnect, 1000⟩ history h ∧
      packetsSince 0 history = [[1], [2]] ∧ removed history = [0] ∧
      takenBy 0 history = [[1]] ∧ h.available 0 = .ended ∧
      takenBy 0 history <+: packetsSince 0 history ∧
      takenBy 0 history = queuedFor 0 history := by
  obtain ⟨h, history, hp, hs, hr, ht, ha, hreg, hq, hd⟩ : ∃ h history,
      (start ⟨1, 1, .disconnect, 1000⟩).perform?
        [.call .register, .enqueue, .work, .call (.packet [1]), .enqueue, .work, .work, .work,
          .call (.packet [2]), .enqueue, .work, .work, .work, .take 0] = some (h, history) ∧
      packetsSince 0 history = [[1], [2]] ∧ removed history = [0] ∧
      takenBy 0 history = [[1]] ∧ h.available 0 = .ended ∧ 0 ∈ registrations history ∧
      h.subscribers[0]?.map (·.queue) = some [] ∧ 0 ∉ drops history :=
    ⟨_, _, rfl, rfl, rfl, rfl, rfl, by decide, rfl, by decide⟩
  have run := run_iff_perform?.mpr ⟨_, hp⟩
  obtain ⟨s, found, first, -, all⟩ := run.fanOut (.inr rfl) hreg
  have empty : s.queue = [] := by
    rw [found] at hq
    exact Option.some.inj hq
  rw [empty, List.append_nil] at first
  exact ⟨history, h, run, hs, hr, ht, ha, first, all ha hd⟩

end Hub

end VideoRelay

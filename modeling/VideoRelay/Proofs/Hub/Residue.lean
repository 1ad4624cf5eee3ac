/-
What is left of calls that are given up.

* `Abandoned`, `Run.abandoned` — a registration whose caller has gone uses up a number, and
  everything else is as it would be without it;
* `LeavesNoResidue`, `leavesNoResidue` — calls given up before their command was accepted,
  afterwards, and before a registration was answered.
-/
import VideoRelay.Proofs.Hub.Cancellation
import VideoRelay.Proofs.Hub.Renumbering

namespace VideoRelay

namespace Hub

/-- What it comes to when a registration is taken up, in front of the commands `rest`, for whose
answer the caller of `t` does not wait any more. -/
structure Abandoned (t : Nat) (rest : List Request) (history : List Event) (h : Hub)
    (events : List Event) (h' : Hub) : Prop where
  told : events = [.began ⟨t, .register⟩, .registered t h.nextId,
    .removed h.nextId .abandoned 0 0 h.registeredCount]
  /-- A number is used up, and counted. -/
  nextId : h'.nextId = h.nextId + 1
  tally : h'.tally = { h.tally with totalSubscribers := h.tally.totalSubscribers + 1 }
  /-- The register, the other entries and everything else are the same, but for the command. -/
  registeredIds : h'.registeredIds = h.registeredIds
  registeredCount : h'.registeredCount = h.registeredCount
  others : ∀ id, id ≠ h.nextId → h'.subscribers[id]? = h.subscribers[id]?
  outcome : h' = { h with commands := rest, subscribers := h'.subscribers, tally := h'.tally }
  /-- Nothing is ever queued for the number, -/
  nothing : ∀ {more last later}, h'.perform? more = some (last, later) →
    queuedFor h.nextId (history ++ events ++ later) = []
  /-- and whatever is done later comes to the same as if the command had not been there.  Nobody
  has the receiving end, so nobody closes it or gives it up. -/
  asIf : ∀ {more last later m}, h'.perform? more = some (last, later) →
    .close h.nextId ∉ more → .discard h.nextId ∉ more → last.nextId ≤ m →
    { h with
      commands := rest.map (Request.omitting h.nextId m)
      waiting := h.waiting.map (Request.omitting h.nextId m) }.perform?
        (more.map (Action.omitting h.nextId m)) =
      some (last.omitting h.nextId m, later.map (Event.omitting h.nextId m))

section Runs

variable {config : HubConfig} {history : List Event} {h : Hub} {t : Nat} {rest : List Request}

theorem Run.turnsOf_nextId (run : Run config history h) : turnsOf h.nextId history = [] := by
  rw [turnsOf, List.filter_eq_nil_iff]
  intro turn mem own
  exact absurd (run.id_lt_nextId mem) (by simpa using (of_decide_eq_true own).ge)

/-- An entry more that is not registered. -/
theorem registeredIds_append {h' : Hub} {s : Subscriber}
    (subscribers : h'.subscribers = h.subscribers ++ [s]) (unregistered : s.isRegistered = false) :
    h'.registeredIds = h.registeredIds := by
  have next : h'.nextId = h.nextId + 1 := by simp [nextId, subscribers]
  have last : h'.isRegistered h.nextId = false := by
    simp [isRegistered, subscribers, nextId, unregistered]
  rw [registeredIds, next, List.range_succ, List.filter_append,
    List.filter_cons_of_neg (by simp [last]), List.filter_nil, List.append_nil, registeredIds]
  refine List.filter_congr fun id mem => ?_
  have other : id ≠ h.nextId := Nat.ne_of_lt (List.mem_range.mp mem)
  rw [isRegistered, subscribers, isRegistered_append other]

/-- The hub after it has registered a subscriber and removed it at once. -/
def afterAbandoned (h : Hub) (rest : List Request) : Hub :=
  { h with
    commands := rest
    subscribers := h.subscribers ++ [{ Subscriber.fresh with isRegistered := false }]
    tally := { h.tally with totalSubscribers := h.tally.totalSubscribers + 1 } }

/-- Without the number the hub is as it would be without the command. -/
theorem afterAbandoned_omitting (ready : h.phase = .ready) (rest : List Request) (m : Nat) :
    (h.afterAbandoned rest).omitting h.nextId m = { h with
      commands := rest.map (Request.omitting h.nextId m)
      waiting := h.waiting.map (Request.omitting h.nextId m) } := by
  have phase : h.phase.omitting h.nextId m = h.phase := by rw [ready]; rfl
  have shorter (s : Subscriber) : (h.subscribers ++ [s]).eraseIdx h.nextId = h.subscribers := by
    rw [nextId, List.eraseIdx_append_of_length_le (Nat.le_refl _), Nat.sub_self]
    exact List.append_nil _
  rw [omitting, afterAbandoned, phase, shorter]
  rfl

theorem Run.abandoned (run : Run config history h) (ready : h.phase = .ready)
    (inTime : h.isOverdue = false) (front : h.commands = ⟨t, .register⟩ :: rest)
    (gone : .cancelled t ∈ history) :
    ∃ h' events, h.step? .work = some (h', events) ∧ Abandoned t rest history h events h' := by
  have notOwed : t ∉ h.unanswered := by
    intro owed
    have l := run.ledger
    refine (l.pending t (l.lt_of_unanswered owed)).mpr (.inr owed) ?_
    exact List.mem_filterMap.mpr ⟨_, gone, rfl⟩
  have s : WorkStep h _ (h.afterAbandoned rest) :=
    .begin _ rest _ _ ready inTime front (.abandon t notOwed)
  have hs : h.step? .work = some (h.afterAbandoned rest, _) := s.work?
  have run' := run.step hs
  have sameIds : (h.afterAbandoned rest).registeredIds = h.registeredIds :=
    registeredIds_append rfl rfl
  -- The number has had no turn when it is removed, and has none later.
  have removed : h.nextId ∈ removed (history ++ [.began ⟨t, .register⟩, .registered t h.nextId,
      .removed h.nextId .abandoned 0 0 h.registeredCount]) := by
    simp [Hub.removed]
  have noTurn : turnsOf h.nextId (history ++ [.began ⟨t, .register⟩, .registered t h.nextId,
      .removed h.nextId .abandoned 0 0 h.registeredCount]) = [] := by
    rw [turnsOf_append, run.turnsOf_nextId]
    rfl
  refine ⟨_, _, hs, rfl, List.length_append, rfl, sameIds, ?_, fun id other => ?_, rfl,
    fun hp => ?_, fun {more last later m} hp noClose noDiscard within => ?_⟩
  · rw [← length_registeredIds, sameIds, length_registeredIds]
  · show (h.subscribers ++ [_])[id]? = _
    rcases Nat.lt_or_gt_of_ne other with below | above
    · exact List.getElem?_append_left below
    · rw [List.getElem?_eq_none (by simpa [nextId] using Nat.succ_le_of_lt above),
        List.getElem?_eq_none (Nat.le_of_lt above)]
  · refine queuedFor_of_turnsOf ?_
    rw [turnsOf_append, noTurn, (run'.perform? hp).turnsOf_of_removed removed]
    rfl
  · rw [← afterAbandoned_omitting ready]
    exact run'.perform?_omitting removed noTurn hp noClose noDiscard within

end Runs

/-! ### All calls -/

/-- What is left of calls that are given up, at a hub that started with `config` and was `h`
after `actions`, of which `history` tells. -/
structure LeavesNoResidue (config : HubConfig) (actions : List Action) (history : List Event)
    (h : Hub) : Prop where
  /-- A call given up before its command was accepted might as well not have been made. -/
  inLine : ∀ {t h' events}, h.step? (.cancel t) = some (h', events) →
    t ∉ (accepted history).map (·.ticket) →
    events = [.cancelled t] ∧ NeverMade config t actions history h h'
  /-- A command that was accepted is applied when its turn comes. -/
  inQueue : ∀ r ∈ accepted history, StaysAccepted history h r
  /-- A registration for which nobody waits when its turn comes uses up its number, and is
  undone at once. -/
  inTurn : ∀ {t rest}, h.phase = .ready → h.isOverdue = false →
    h.commands = ⟨t, .register⟩ :: rest → .cancelled t ∈ history →
    ∃ h' events, h.step? .work = some (h', events) ∧ Abandoned t rest history h events h'

/-- Calls that are given up leave nothing behind: before their command was accepted they might
as well not have been made, afterwards it is applied all the same, and a registration that nobody
waits for any more is undone. -/
theorem leavesNoResidue {config : HubConfig} {actions : List Action} {history : List Event}
    {h : Hub} (hp : (start config).perform? actions = some (h, history)) :
    LeavesNoResidue config actions history h where
  inLine hs notYet := neverMade hp hs notYet
  inQueue _ mem := (run_iff_perform?.mpr ⟨_, hp⟩).staysAccepted mem
  inTurn ready inTime front gone := (run_iff_perform?.mpr ⟨_, hp⟩).abandoned ready inTime front gone

/-- A packet was accepted, the registration behind it is given up while it is delivered, and a
shutdown while it waits for room.  Of the shutdown the time is left, of the registration the
number 1. -/
theorem leavesNoResidue_behind_packet :
    ∃ actions history h h₁ h₂, (start ⟨1, 1, .block, 1000⟩).perform? actions = some (h, history) ∧
      h.step? (.cancel 1) = none ∧
      h.step? (.cancel 3) = some (h₁, [.cancelled 3]) ∧ h₁.waiting = [] ∧
      h₁.requestedAt? = some 5 ∧
      h.step? .work = some (h₂, [.began ⟨2, .register⟩, .registered 2 1,
        .removed 1 .abandoned 0 0 1]) ∧
      h₂.nextId = 2 ∧ h₂.tally.totalSubscribers = 2 ∧ h₂.registeredIds = [0] ∧
      ∀ more last later, h₂.perform? more = some (last, later) →
        queuedFor 1 (history ++ [.began ⟨2, .register⟩, .registered 2 1,
          .removed 1 .abandoned 0 0 1] ++ later) = [] := by
  obtain ⟨h, history, actions, hp, ready, inTime, front, gone, packet, line, requested, notYet,
    next, count, ids, total⟩ : ∃ h history actions,
      (start ⟨1, 1, .block, 1000⟩).perform? actions = some (h, history) ∧
      h.phase = .ready ∧ h.isOverdue = false ∧ h.commands = [⟨2, .register⟩] ∧
      .cancelled 2 ∈ history ∧ ⟨1, .packet [1]⟩ ∈ accepted history ∧
      h.waiting = [⟨3, .shutdown⟩] ∧ h.requestedAt? = some 5 ∧
      3 ∉ (accepted history).map (·.ticket) ∧ h.nextId = 1 ∧ h.registeredCount = 1 ∧
      h.registeredIds = [0] ∧ h.tally.totalSubscribers = 1 :=
    ⟨_, _, [.call .register, .enqueue, .work, .call (.packet [1]), .enqueue, .work,
      .call .register, .enqueue, .cancel 2, .advance 5, .call .shutdown, .work, .work],
      rfl, rfl, rfl, rfl, by decide, by decide, rfl, rfl, by decide, rfl, rfl, rfl, rfl⟩
  have residue := leavesNoResidue hp
  obtain ⟨h₁, events, hc⟩ : ∃ h₁ events, h.step? (.cancel 3) = some (h₁, events) := by
    simp [step?, cancel?, line]
  obtain ⟨rfl, never⟩ := residue.inLine hc notYet
  obtain ⟨h₂, events, hs, undone⟩ := residue.inTurn ready inTime front gone
  have told := undone.told
  rw [next, count] at told
  subst told
  refine ⟨actions, history, h, h₁, h₂, hp, (residue.inQueue _ packet).returned rfl, hc, ?_, ?_, hs,
    undone.nextId.trans (by rw [next]), ?_, undone.registeredIds.trans ids, ?_⟩
  · rw [never.alone, line]
    rfl
  · rw [never.alone]
    exact requested
  · rw [undone.tally, total]
  · intro more last later hm
    have nothing := undone.nothing hm
    rwa [next] at nothing

end Hub

end VideoRelay

/-
What one action does to a system.

* `hubEvents` — what a history of a system tells of its hub;
* `Acts`, `step?_acts` — whoever acts does something itself, and something at the hub, and
  then everybody is told;
* `Acts.holders` — handles are counted alike by the hub and by those who hold them;
* `Sound`, `Run.sound` — what a system does is a run of its hub;
* `System.perform?` — actions one after the other.

Design notes: a session that acts is told of what it has done like everybody else, so
there are two parts only, the change of the one and the news for all.
-/
import VideoRelay.Proofs.System.News

namespace VideoRelay

namespace System

/-! ### Histories -/

/-- What is an event of the hub. -/
@[simp] def Event.hub? : Event → Option Hub.Event
  | .hub event => some event
  | _ => none

/-- What a history of a system tells of its hub. -/
def hubEvents (history : List Event) : List Hub.Event := history.filterMap Event.hub?

theorem hubEvents_append (history events : List Event) :
    hubEvents (history ++ events) = hubEvents history ++ hubEvents events := List.filterMap_append

theorem hubEvents_map_hub (events : List Hub.Event) : hubEvents (events.map .hub) = events := by
  rw [hubEvents, List.filterMap_map]
  exact List.filterMap_some

theorem hubEvents_eq_nil {events : List Event} (h : ∀ e ∈ events, e.hub? = none) :
    hubEvents events = [] := List.filterMap_eq_nil_iff.mpr h

/-! ### Actions -/

/-- What a client or a session does itself, and what it does at the hub; nobody has been
told of it yet. -/
inductive Acts (s : System) : List Hub.Action → System → Prop
  | client (action : Hub.Action) (permitted : s.permits action = true) :
    Acts s [action] { s with clientHandles := s.handlesAfter action }
  | nothing : Acts s [] s
  | producer {i : Nat} {p p' : ProducerSession} {actions : List Hub.Action}
      (found : s.producers[i]? = some p) (m : p.stake.Move s.hub.nextTicket actions p'.stake) :
    Acts s actions { s with producers := s.producers.set i p' }
  | writer {i : Nat} {w w' : SubscriberSession} {actions : List Hub.Action}
      (found : s.writers[i]? = some w) (m : w.stake.Move s.hub.nextTicket actions w'.stake) :
    Acts s actions { s with writers := s.writers.set i w' }
  | tap {i : Nat} {t t' : TapSession} {actions : List Hub.Action}
      (found : s.taps[i]? = some t) (m : t.stake.Move s.hub.nextTicket actions t'.stake) :
    Acts s actions { s with taps := s.taps.set i t' }
  | startProducer (source : Source) (client : 0 < s.clientHandles) :
    Acts s [.cloneHandle] { s with producers := s.producers ++ [.start source] }
  | startWriter (id capacity : Nat) (attach : s.mayAttach id = true) :
    Acts s [.cloneHandle] { s with writers := s.writers ++ [.start id capacity] }
  | startTap (id : Nat) (config : TapConfig) (attach : s.mayAttach id = true) :
    Acts s [.cloneHandle] { s with taps := s.taps ++ [.start id config] }

/-- Every session that holds a handle can use it, and knows its subscription. -/
structure Provided (s : System) : Prop where
  client : 0 < s.clientHandles → 0 < s.hub.handles
  producers : ∀ p ∈ s.producers, p.stake.holdsHandle = true → 0 < s.hub.handles
  writers : ∀ w ∈ s.writers, (w.stake.holdsHandle = true → 0 < s.hub.handles) ∧
    w.id < s.hub.nextId
  taps : ∀ t ∈ s.taps, (t.stake.holdsHandle = true → 0 < s.hub.handles) ∧ t.id < s.hub.nextId

theorem hubEvents_submission? (i : Nat) (events : List Hub.Event) :
    hubEvents (events.filterMap (submission? i)) = [] := by
  refine hubEvents_eq_nil fun e mem => ?_
  obtain ⟨e', -, he⟩ := List.mem_filterMap.mp mem
  rw [submission?.eq_def] at he
  split at he <;> cases he
  rfl

theorem hubEvents_connectionEvents (i : Nat) (errand? : Option Errand) (answer : Answer) :
    hubEvents (connectionEvents i errand? answer) = [] := by
  rw [connectionEvents.eq_def]
  split <;> rfl

theorem mayAttach_iff {s : System} {id : Nat} :
    s.mayAttach id = true ↔
      0 < s.clientHandles ∧ id < s.hub.nextId ∧ s.isOwned id = false := by
  simp [mayAttach, and_assoc]

/-- Somebody acts, and everybody is told. -/
theorem step?_acts {s s' : System} {action : Action} {events : List Event} (ready : s.Provided)
    (hs : s.step? action = some (s', events)) :
    ∃ actions s₁ hub heard, s.Acts actions s₁ ∧ s.hub.perform? actions = some (hub, heard) ∧
      s' = (s₁.absorb hub heard).1 ∧ hubEvents events = heard := by
  have clone (client : 0 < s.clientHandles) :
      s.hub.perform? [.cloneHandle] = some (s.hub.cloneHandle, []) := by
    rw [Hub.perform?_singleton]
    exact if_pos (ready.client client)
  cases action with
  | hub action =>
    simp only [step?, stepHub?] at hs
    split at hs
    · rename_i permitted
      obtain ⟨⟨hub, heard⟩, hstep, heq⟩ := Option.map_eq_some_iff.mp hs
      cases heq
      refine ⟨_, _, hub, heard, .client action permitted, ?_, rfl, hubEvents_map_hub heard⟩
      rw [Hub.perform?_singleton, hstep]
    · cases hs
  | startProducer source =>
    simp only [step?] at hs
    split at hs
    · rename_i client
      cases hs
      exact ⟨_, _, _, _, .startProducer source client, clone client, rfl, rfl⟩
    · cases hs
  | arrive i items =>
    cases hs
    cases found : s.producers[i]? with
    | none =>
      refine ⟨[], s, s.hub, [], .nothing, rfl, ?_, rfl⟩
      rw [List.modify_eq_self (List.getElem?_eq_none_iff.mp found)]
      rfl
    | some p =>
      have m : p.stake.Move s.hub.nextTicket [] (p.arrive items).stake := .silent
      refine ⟨[], _, s.hub, [], .producer found m, rfl, ?_, rfl⟩
      rw [List.modify_eq_set_getElem?, found]
      rfl
  | produce i =>
    simp only [step?, produce?] at hs
    split at hs
    · cases hs
    · rename_i p found
      obtain ⟨⟨p', hub, heard⟩, hstep, heq⟩ := Option.map_eq_some_iff.mp hs
      cases heq
      obtain ⟨actions, m, hp⟩ := ProducerSession.step?_move hstep
      have told : hubEvents (heard.filterMap (submission? i) ++ heard.map .hub) = heard := by
        rw [hubEvents_append, hubEvents_submission?, hubEvents_map_hub, List.nil_append]
      have hp := hp (ready.producers p (List.mem_of_getElem? found))
      exact ⟨actions, _, hub, heard, .producer found m, hp, rfl, told⟩
  | abort i =>
    simp only [step?, abort?] at hs
    split at hs
    · cases hs
    · rename_i p found
      rcases aborted : p.abort s.hub with ⟨p', hub, heard⟩
      simp only [aborted] at hs
      cases hs
      obtain ⟨actions, m, hp⟩ := ProducerSession.abort_move aborted
      have hp := hp (ready.producers p (List.mem_of_getElem? found))
      exact ⟨actions, _, hub, heard, .producer found m, hp, rfl, hubEvents_map_hub heard⟩
  | startWriter id capacity =>
    simp only [step?] at hs
    split at hs
    · rename_i attach
      cases hs
      exact ⟨_, _, _, _, .startWriter id capacity attach, clone (mayAttach_iff.mp attach).1, rfl, rfl⟩
    · cases hs
  | write i =>
    simp only [step?, write?] at hs
    split at hs
    · cases hs
    · rename_i w found
      obtain ⟨⟨w', hub, heard⟩, hstep, heq⟩ := Option.map_eq_some_iff.mp hs
      cases heq
      obtain ⟨actions, m, hp⟩ := SubscriberSession.step?_move hstep
      obtain ⟨handle, known⟩ := ready.writers w (List.mem_of_getElem? found)
      exact ⟨actions, _, hub, heard, .writer found m, hp handle known, rfl,
        hubEvents_map_hub heard⟩
  | connection i answer =>
    simp only [step?, answerConnection?] at hs
    split at hs
    · cases hs
    · rename_i w found
      obtain ⟨w', answered, heq⟩ := Option.map_eq_some_iff.mp hs
      cases heq
      exact ⟨[], _, s.hub, [], .writer found (w.respond?_move answered _), rfl, rfl,
        hubEvents_connectionEvents i _ answer⟩
  | startTap id config =>
    simp only [step?] at hs
    split at hs
    · rename_i attach
      cases hs
      exact ⟨_, _, _, _, .startTap id config attach, clone (mayAttach_iff.mp attach).1, rfl, rfl⟩
    · cases hs
  | tap i =>
    simp only [step?, tap?] at hs
    split at hs
    · cases hs
    · rename_i t found
      obtain ⟨⟨t', hub, heard, skipped?⟩, hstep, heq⟩ := Option.map_eq_some_iff.mp hs
      cases heq
      obtain ⟨actions, m, hp⟩ := TapSession.step?_move hstep
      obtain ⟨handle, known⟩ := ready.taps t (List.mem_of_getElem? found)
      have told : hubEvents (heard.map .hub ++ (skipped?.map Event.skipped).toList) = heard := by
        have none : hubEvents (skipped?.map Event.skipped).toList = [] := by
          cases skipped? <;> rfl
        rw [hubEvents_append, hubEvents_map_hub, none, List.append_nil]
      exact ⟨actions, _, hub, heard, .tap found m, hp handle known, rfl, told⟩
  | consumer i failure? =>
    simp only [step?, answerConsumer?] at hs
    split at hs
    · cases hs
    · rename_i t found
      split at hs
      · rename_i payload t' offered answered
        cases hs
        exact ⟨[], _, s.hub, [], .tap found (t.respond?_move answered _), rfl, rfl, rfl⟩
      · cases hs

end System

/-! ### Handles -/

namespace Hub

/-- How many handles there are after an action, of `n` before. -/
def Action.handlesAfter (n : Nat) : Action → Nat
  | .cloneHandle => n + 1
  | .dropHandle => n - 1
  | _ => n

theorem WorkStep.handles {h h' : Hub} {events : List Event} (s : WorkStep h events h') :
    h'.handles = h.handles := by
  cases s with
  | finish b => rw [finish_fst]; rfl
  | «begin» request rest events h' ready inTime front s => cases s <;> rfl
  | _ => rfl

theorem Transition.handles {h h' : Hub} {action : Action} {events : List Event}
    (tr : Transition h action events h') : h'.handles = action.handlesAfter h.handles := by
  cases tr with
  | caller s => cases s <;> rfl
  | reader s => cases s <;> rfl
  | work own s =>
    rw [own, s.handles]
    rfl

theorem perform?_handles {h h' : Hub} {actions : List Action} {events : List Event}
    (hp : h.perform? actions = some (h', events)) :
    h'.handles = actions.foldl Action.handlesAfter h.handles := by
  induction actions generalizing h events with
  | nil =>
    obtain ⟨rfl, rfl⟩ := by simpa [Hub.perform?] using hp
    rfl
  | cons action actions ih =>
    obtain ⟨mid, first, others, hs, hr, rfl⟩ := perform?_cons.mp hp
    rw [List.foldl_cons, ih hr, (Transition.of_step? hs).handles]

end Hub

theorem Stake.Move.id_eq {ticket : Nat} {k k' : Stake} {actions : List Hub.Action}
    (m : k.Move ticket actions k') : k'.id = k.id := by
  cases m <;> rfl

/-- A session that gives its handle up is one that held it. -/
theorem Stake.Move.handles {ticket : Nat} {k k' : Stake} {actions : List Hub.Action}
    (m : k.Move ticket actions k') {n : Nat} (enough : k.holdsHandle = true → 0 < n) :
    actions.foldl Hub.Action.handlesAfter n + k.holdsHandle.toNat = n + k'.holdsHandle.toNat := by
  cases m with
  | silent => rfl
  | take => rfl
  | fail cause actions healthy atMost =>
    rcases atMost with rfl | rfl <;> rfl
  | withdraw => rfl
  | leave holds =>
    have := enough holds
    simp only [List.foldl_cons, List.foldl_nil, Hub.Action.handlesAfter, holds, Bool.toNat_true,
      Bool.toNat_false]
    omega

theorem ProducerStake.Move.handles {ticket : Nat} {k k' : ProducerStake}
    {actions : List Hub.Action} (m : k.Move ticket actions k') {n : Nat}
    (enough : k.holdsHandle = true → 0 < n) :
    actions.foldl Hub.Action.handlesAfter n + k.holdsHandle.toNat = n + k'.holdsHandle.toNat := by
  cases m with
  | silent => rfl
  | submit => rfl
  | leave holds =>
    have := enough holds
    simp only [List.foldl_cons, List.foldl_nil, Hub.Action.handlesAfter, holds, Bool.toNat_true,
      Bool.toNat_false]
    omega
  | giveUp own submitted holds =>
    have := enough holds
    simp only [List.foldl_cons, List.foldl_nil, Hub.Action.handlesAfter, holds, Bool.toNat_true,
      Bool.toNat_false]
    omega

section

variable {α : Type} {l : List α} {i : Nat} {a : α}

theorem countP_set_add (p : α → Bool) (found : l[i]? = some a) (a' : α) :
    (l.set i a').countP p + (p a).toNat = l.countP p + (p a').toNat := by
  obtain ⟨known, rfl⟩ := List.getElem?_eq_some_iff.mp found
  have counted : p l[i] = true → 0 < l.countP p := fun h =>
    List.countP_pos_iff.mpr ⟨_, List.getElem_mem known, h⟩
  rw [List.countP_set known]
  cases h : p l[i] with
  | false => cases p a' <;> simp
  | true =>
    have := counted h
    cases p a' <;> simp <;> omega

theorem getElem?_set_cases (found : l[i]? = some a) (a' : α) (j : Nat) :
    (l.set i a')[j]? = l[j]? ∨ l[j]? = some a ∧ (l.set i a')[j]? = some a' := by
  by_cases same : i = j
  · subst same
    exact .inr ⟨found, List.getElem?_set_self (List.getElem?_eq_some_iff.mp found).1⟩
  · exact .inl (List.getElem?_set_ne same)

theorem getElem?_concat_cases (l : List α) (a : α) (j : Nat) :
    (l ++ [a])[j]? = l[j]? ∨ l[j]? = none ∧ (l ++ [a])[j]? = some a := by
  rcases Nat.lt_trichotomy j l.length with before | rfl | behind
  · exact .inl (List.getElem?_append_left before)
  · exact .inr ⟨List.getElem?_eq_none (Nat.le_refl _), List.getElem?_concat_length⟩
  · refine .inl ?_
    rw [List.getElem?_eq_none (Nat.le_of_lt behind), List.getElem?_eq_none]
    rw [List.length_append, List.length_singleton]
    exact behind

end

namespace System

/-- How many sessions hold a handle. -/
def holders (s : System) : Nat :=
  s.producers.countP (·.stake.holdsHandle) + s.writers.countP (·.stake.holdsHandle) +
    s.taps.countP (·.stake.holdsHandle)

theorem handlesAfter_eq (s : System) (action : Hub.Action) :
    s.handlesAfter action = action.handlesAfter s.clientHandles := by
  cases action <;> rfl

/-- Handles are counted on both sides: what a session or a client gains or loses, the hub
has more or less. -/
theorem Acts.holders {s s₁ : System} {actions : List Hub.Action} (acts : s.Acts actions s₁)
    (ready : s.Provided) (handles : s.hub.handles = s.clientHandles + s.holders) :
    actions.foldl Hub.Action.handlesAfter s.hub.handles = s₁.clientHandles + s₁.holders := by
  cases acts with
  | client action permitted =>
    show action.handlesAfter s.hub.handles = s.handlesAfter action + s.holders
    rw [handlesAfter_eq, handles]
    cases action with
    | cloneHandle =>
      show s.clientHandles + s.holders + 1 = s.clientHandles + 1 + s.holders
      omega
    | dropHandle =>
      have : 0 < s.clientHandles := of_decide_eq_true permitted
      show s.clientHandles + s.holders - 1 = s.clientHandles - 1 + s.holders
      omega
    | _ => rfl
  | nothing => exact handles
  | @producer i p p' actions found m =>
    have hm := m.handles (ready.producers p (List.mem_of_getElem? found))
    have hc := countP_set_add (fun p : ProducerSession => p.stake.holdsHandle) found p'
    simp only [System.holders] at handles ⊢
    omega
  | @writer i w w' actions found m =>
    have hm := m.handles (ready.writers w (List.mem_of_getElem? found)).1
    have hc := countP_set_add (fun w : SubscriberSession => w.stake.holdsHandle) found w'
    simp only [System.holders] at handles ⊢
    omega
  | @tap i t t' actions found m =>
    have hm := m.handles (ready.taps t (List.mem_of_getElem? found)).1
    have hc := countP_set_add (fun t : TapSession => t.stake.holdsHandle) found t'
    simp only [System.holders] at handles ⊢
    omega
  | startProducer source client =>
    have new : (ProducerSession.start source).stake.holdsHandle = true := rfl
    simp only [System.holders, List.countP_append, List.countP_singleton, new, if_true,
      List.foldl_cons, List.foldl_nil, Hub.Action.handlesAfter] at handles ⊢
    omega
  | startWriter id capacity attach =>
    have new : (SubscriberSession.start id capacity).stake.holdsHandle = true := rfl
    simp only [System.holders, List.countP_append, List.countP_singleton, new, if_true,
      List.foldl_cons, List.foldl_nil, Hub.Action.handlesAfter] at handles ⊢
    omega
  | startTap id config attach =>
    have new : (TapSession.start id config).stake.holdsHandle = true := rfl
    simp only [System.holders, List.countP_append, List.countP_singleton, new, if_true,
      List.foldl_cons, List.foldl_nil, Hub.Action.handlesAfter] at handles ⊢
    omega

/-! ### Consumers -/

/-- A session that consumes a subscription. -/
inductive Consumer
  | writer (i : Nat)
  | tap (i : Nat)
  deriving DecidableEq, Repr

def stake? (s : System) : Consumer → Option Stake
  | .writer i => s.writers[i]?.map (·.stake)
  | .tap i => s.taps[i]?.map (·.stake)

/-- With each action one consumer moves at most, and one begins at most. -/
theorem Acts.stake? {s s₁ : System} {actions : List Hub.Action} (acts : s.Acts actions s₁)
    (c : Consumer) :
    s₁.stake? c = s.stake? c ∨
      (∃ k k', s.stake? c = some k ∧ s₁.stake? c = some k' ∧
        k.Move s.hub.nextTicket actions k') ∨
      (s.stake? c = none ∧ ∃ id < s.hub.nextId, s₁.stake? c = some ⟨id, true, none⟩) := by
  cases acts with
  | client => exact .inl rfl
  | nothing => exact .inl rfl
  | producer => exact .inl rfl
  | startProducer => exact .inl rfl
  | @writer i w w' actions found m =>
    cases c with
    | tap j => exact .inl rfl
    | writer j =>
      rcases getElem?_set_cases found w' j with same | ⟨before, after⟩
      · exact .inl (congrArg (Option.map _) same)
      · exact .inr (.inl ⟨w.stake, w'.stake, congrArg (Option.map _) before,
          congrArg (Option.map _) after, m⟩)
  | @tap i t t' actions found m =>
    cases c with
    | writer j => exact .inl rfl
    | tap j =>
      rcases getElem?_set_cases found t' j with same | ⟨before, after⟩
      · exact .inl (congrArg (Option.map _) same)
      · exact .inr (.inl ⟨t.stake, t'.stake, congrArg (Option.map _) before,
          congrArg (Option.map _) after, m⟩)
  | startWriter id capacity attach =>
    cases c with
    | tap j => exact .inl rfl
    | writer j =>
      rcases getElem?_concat_cases s.writers (.start id capacity) j with same | ⟨before, after⟩
      · exact .inl (congrArg (Option.map _) same)
      · exact .inr (.inr ⟨congrArg (Option.map _) before, id, (mayAttach_iff.mp attach).2.1,
          congrArg (Option.map _) after⟩)
  | startTap id config attach =>
    cases c with
    | writer j => exact .inl rfl
    | tap j =>
      rcases getElem?_concat_cases s.taps (.start id config) j with same | ⟨before, after⟩
      · exact .inl (congrArg (Option.map _) same)
      · exact .inr (.inr ⟨congrArg (Option.map _) before, id, (mayAttach_iff.mp attach).2.1,
          congrArg (Option.map _) after⟩)

/-! ### The hub of a system -/

theorem stake?_absorb (s : System) (hub : Hub) (heard : List Hub.Event) (c : Consumer) :
    (s.absorb hub heard).1.stake? c = (s.stake? c).map (·.hear heard) := by
  rw [absorb_fst]
  cases c with
  | writer i =>
    simp only [stake?, List.getElem?_map, Option.map_map]
    congr 1
    funext w
    exact w.stake_hear heard
  | tap i =>
    simp only [stake?, List.getElem?_map, Option.map_map]
    congr 1
    funext t
    exact t.stake_hear heard

theorem holders_absorb (s : System) (hub : Hub) (heard : List Hub.Event) :
    (s.absorb hub heard).1.holders = s.holders := by
  have hp (p : ProducerSession) : (p.hear heard).stake.holdsHandle = p.stake.holdsHandle := by
    rw [p.stake_hear]
    exact (p.stake.hear_keeps heard).1
  have hw (w : SubscriberSession) : (w.hear heard).stake.holdsHandle = w.stake.holdsHandle := by
    rw [w.stake_hear, Stake.hear_holdsHandle]
  have ht (t : TapSession) : (t.hear heard).stake.holdsHandle = t.stake.holdsHandle := by
    rw [t.stake_hear, Stake.hear_holdsHandle]
  rw [absorb_fst]
  simp only [holders, List.countP_map, Function.comp_def, hp, hw, ht]

/-- What holds of a system between two actions: its hub has had a run of its own, and
every session has what it needs. -/
structure Sound (config : HubConfig) (history : List Hub.Event) (s : System) : Prop where
  run : Hub.Run config history s.hub
  handles : s.hub.handles = s.clientHandles + s.holders
  known : ∀ c k, s.stake? c = some k → k.id < s.hub.nextId

theorem Sound.provided {config : HubConfig} {history : List Hub.Event} {s : System}
    (sound : Sound config history s) : s.Provided := by
  have handles := sound.handles
  rw [holders] at handles
  refine ⟨fun client => by omega, ?_, ?_, ?_⟩
  · intro p mem holds
    have : 0 < s.producers.countP (·.stake.holdsHandle) := List.countP_pos_iff.mpr ⟨p, mem, holds⟩
    omega
  · intro w mem
    obtain ⟨i, found⟩ := List.mem_iff_getElem?.mp mem
    refine ⟨fun holds => ?_, sound.known (.writer i) w.stake (congrArg (Option.map _) found)⟩
    have : 0 < s.writers.countP (·.stake.holdsHandle) := List.countP_pos_iff.mpr ⟨w, mem, holds⟩
    omega
  · intro t mem
    obtain ⟨i, found⟩ := List.mem_iff_getElem?.mp mem
    refine ⟨fun holds => ?_, sound.known (.tap i) t.stake (congrArg (Option.map _) found)⟩
    have : 0 < s.taps.countP (·.stake.holdsHandle) := List.countP_pos_iff.mpr ⟨t, mem, holds⟩
    omega

theorem Sound.step {config : HubConfig} {history : List Hub.Event} {s s' : System}
    {action : Action} {events : List Event} (sound : Sound config history s)
    (hs : s.step? action = some (s', events)) :
    Sound config (history ++ hubEvents events) s' := by
  obtain ⟨actions, s₁, hub, heard, acts, hp, rfl, rfl⟩ := step?_acts sound.provided hs
  refine ⟨?_, ?_, ?_⟩
  · rw [absorb_fst]
    exact sound.run.perform? hp
  · rw [holders_absorb, absorb_fst]
    exact (Hub.perform?_handles hp).trans (acts.holders sound.provided sound.handles)
  · intro c k found
    rw [stake?_absorb] at found
    obtain ⟨k₁, found₁, rfl⟩ := Option.map_eq_some_iff.mp found
    rw [Stake.hear_id, absorb_fst]
    refine Nat.lt_of_lt_of_le ?_ (Hub.perform?_nextId_le hp)
    rcases acts.stake? c with same | ⟨k, k', before, after, m⟩ | ⟨-, id, known, after⟩
    · exact sound.known c k₁ (same ▸ found₁)
    · obtain rfl := Option.some.inj (after.symm.trans found₁)
      rw [m.id_eq]
      exact sound.known c k before
    · obtain rfl := Option.some.inj (after.symm.trans found₁)
      exact known

/-- What a system does is a run of its hub. -/
theorem Run.sound {config : HubConfig} {history : List Event} {s : System}
    (run : Run config history s) : Sound config (hubEvents history) s := by
  induction run with
  | start => exact ⟨.start, rfl, fun c k found => by cases c <;> cases found⟩
  | step run hs ih =>
    rw [hubEvents_append]
    exact ih.step hs

/-! ### Several actions -/

/-- Actions one after the other; nothing if one of them is not possible. -/
def perform? (s : System) : List Action → Option (System × List Event)
  | [] => some (s, [])
  | action :: rest => do
    let (s, first) ← s.step? action
    let (s, others) ← s.perform? rest
    return (s, first ++ others)

theorem perform?_cons {s s' : System} {action : Action} {actions : List Action}
    {history : List Event} :
    s.perform? (action :: actions) = some (s', history) ↔
      ∃ mid first events, s.step? action = some (mid, first) ∧
        mid.perform? actions = some (s', events) ∧ history = first ++ events := by
  simp only [perform?, Option.pure_def, Option.bind_eq_bind, Option.bind_eq_some_iff,
    Option.some.injEq, Prod.mk.injEq, Prod.exists]
  constructor
  · rintro ⟨mid, first, hs, last, events, hr, rfl, rfl⟩
    exact ⟨mid, first, events, hs, hr, rfl⟩
  · rintro ⟨mid, first, events, hs, hr, rfl⟩
    exact ⟨mid, first, hs, s', events, hr, rfl, rfl⟩

theorem Run.perform? {config : HubConfig} {history events : List Event} {s s' : System}
    {actions : List Action} (run : Run config history s)
    (hp : s.perform? actions = some (s', events)) : Run config (history ++ events) s' := by
  induction actions generalizing s history events with
  | nil =>
    obtain ⟨rfl, rfl⟩ := by simpa [System.perform?] using hp
    rwa [List.append_nil]
  | cons action actions ih =>
    obtain ⟨mid, first, others, hs, hr, rfl⟩ := perform?_cons.mp hp
    rw [← List.append_assoc]
    exact ih (.step run hs) hr

end System

end VideoRelay

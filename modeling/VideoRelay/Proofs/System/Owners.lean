/-
A system as one of its sessions sees it.

* `Step`, `Step.of_step?` — what each action does, session by session;
* `Apart`, `Run.apart` — no two sessions consume the same subscription;
* `Foreign`, `Step.foreign` — so nothing is taken from a subscription, and nobody closes
  or gives it up, but the session that consumes it;
* `perform?_induction` — what every step keeps holds after many.

Design notes: the actions of a session at the hub are the moves of its stake, and a move
concerns the session's own subscription only; clients may not touch what is owned.
-/
import VideoRelay.Proofs.System.Runs

namespace VideoRelay

/-! ### What a hub does for others -/

namespace Hub

/-- Whether the action takes from subscription `id`, or closes it or gives it up. -/
def Action.concerns (id : Nat) : Action → Bool
  | .take i | .close i | .discard i => i = id
  | _ => false

/-- Nothing is taken from subscription `id`, and nobody closes it or gives it up. -/
structure Foreign (id : Nat) (events : List Event) : Prop where
  noneTaken : takenBy id events = []
  notClosed : id ∉ closings events
  notDropped : id ∉ drops events

namespace Foreign

variable {id : Nat} {events more : List Event}

theorem nil : Foreign id [] := ⟨rfl, List.not_mem_nil, List.not_mem_nil⟩

theorem append (f : Foreign id events) (f' : Foreign id more) : Foreign id (events ++ more) := by
  constructor
  · rw [takenBy_append, f.noneTaken, f'.noneTaken, List.append_nil]
  · rw [closings_append, List.mem_append]
    exact fun mem => mem.elim f.notClosed f'.notClosed
  · rw [drops_append, List.mem_append]
    exact fun mem => mem.elim f.notDropped f'.notDropped

end Foreign

theorem Quiet.foreign {events : List Event} (q : Quiet events) (id : Nat) : Foreign id events :=
  ⟨q.takenBy id, by simp [q.closings], by simp [q.drops]⟩

theorem foreign_turn (id : Nat) (t : Turn) : Foreign id [t.event] := by
  obtain ⟨i, packet, outcome⟩ := t
  cases outcome <;> exact ⟨rfl, List.not_mem_nil, List.not_mem_nil⟩

theorem Transition.foreign {h h' : Hub} {action : Action} {events : List Event}
    (tr : Transition h action events h') {id : Nat} (other : action.concerns id = false) :
    Foreign id events := by
  cases tr with
  | caller s => exact s.quiet.foreign id
  | reader s =>
    cases s with
    | take i s packet rest found front =>
      have other : i ≠ id := of_decide_eq_false other
      exact ⟨by simp [other], List.not_mem_nil, List.not_mem_nil⟩
    | close i s found =>
      have other : i ≠ id := of_decide_eq_false other
      exact ⟨rfl, by simpa using Ne.symm other, List.not_mem_nil⟩
    | discard i s found =>
      have other : i ≠ id := of_decide_eq_false other
      exact ⟨rfl, by simpa using Ne.symm other, by simpa using Ne.symm other⟩
  | work own s =>
    cases s with
    | turn b i rest s outcome delivering front found fits => exact foreign_turn id _
    | pass b i rest delivering front unknown => exact .nil
    | finish b delivering noneLeft => exact (finish_quiet h b).foreign id
    | «begin» request rest events h' ready inTime front s =>
      cases s with
      | unregister ticket i => exact Quiet.foreign (.cons rfl (remove_quiet _ _ _)) id
      | _ => exact ⟨rfl, List.not_mem_nil, List.not_mem_nil⟩
    | stop cause why => exact Quiet.foreign (why.quiet.append (stop_quiet h)) id

theorem perform?_foreign {h h' : Hub} {actions : List Action} {events : List Event} {id : Nat}
    (hp : h.perform? actions = some (h', events))
    (others : ∀ action ∈ actions, action.concerns id = false) : Foreign id events := by
  induction actions generalizing h events with
  | nil =>
    obtain ⟨rfl, rfl⟩ := by simpa [Hub.perform?] using hp
    exact .nil
  | cons action actions ih =>
    obtain ⟨mid, first, rest, hs, hr, rfl⟩ := perform?_cons.mp hp
    exact ((Transition.of_step? hs).foreign (others action List.mem_cons_self)).append
      (ih hr fun action mem => others action (List.mem_cons_of_mem _ mem))

end Hub

theorem Stake.Move.others {ticket : Nat} {k k' : Stake} {actions : List Hub.Action}
    (m : k.Move ticket actions k') {id : Nat} (other : k.id ≠ id) :
    ∀ action ∈ actions, action.concerns id = false := by
  have own : decide (k.id = id) = false := decide_eq_false other
  cases m with
  | silent => exact nofun
  | take => simpa [Hub.Action.concerns] using own
  | fail cause actions healthy atMost =>
    rcases atMost with rfl | rfl
    · exact nofun
    · simpa [Hub.Action.concerns] using own
  | withdraw => simpa [Hub.Action.concerns] using own
  | leave => simp [Hub.Action.concerns]

theorem ProducerStake.Move.others {ticket : Nat} {k k' : ProducerStake}
    {actions : List Hub.Action} (m : k.Move ticket actions k') (id : Nat) :
    ∀ action ∈ actions, action.concerns id = false := by
  cases m <;> simp [Hub.Action.concerns]

theorem getElem?_concat_ne {α : Type} {l : List α} {i : Nat} (a : α) (other : i ≠ l.length) :
    (l ++ [a])[i]? = l[i]? := by
  rcases Nat.lt_or_ge i l.length with before | behind
  · exact List.getElem?_append_left before
  · rw [List.getElem?_eq_none behind, List.getElem?_eq_none]
    rw [List.length_append, List.length_singleton]
    omega

/-- What is found behind another was found before, or is the last. -/
theorem eq_or_of_getElem?_concat {α : Type} {l : List α} {i : Nat} {a b : α}
    (found : (l ++ [a])[i]? = some b) : i = l.length ∧ b = a ∨ l[i]? = some b := by
  by_cases last : i = l.length
  · subst last
    rw [List.getElem?_concat_length] at found
    exact .inl ⟨rfl, (Option.some.inj found).symm⟩
  · exact .inr ((getElem?_concat_ne a last).symm.trans found)

/-- What is found where one was replaced was found before, or is the new one. -/
theorem eq_or_of_getElem?_set {α : Type} {l : List α} {i j : Nat} {a b : α}
    (found : (l.set i a)[j]? = some b) : i = j ∧ b = a ∨ i ≠ j ∧ l[j]? = some b := by
  by_cases same : i = j
  · subst same
    have known := (List.getElem?_eq_some_iff.mp found).1
    rw [List.length_set] at known
    rw [List.getElem?_set_self known] at found
    exact .inl ⟨rfl, (Option.some.inj found).symm⟩
  · exact .inr ⟨same, (List.getElem?_set_ne same).symm.trans found⟩

namespace System

/-! ### Steps -/

/-- What one action does, and what is seen of it. -/
inductive Step (s : System) : Action → List Event → System → Prop
  | hub {action : Hub.Action} {hub : Hub} {heard : List Hub.Event}
      (permitted : s.permits action = true) (hs : s.hub.step? action = some (hub, heard)) :
    Step s (.hub action) (heard.map .hub)
      ({ s with clientHandles := s.handlesAfter action }.absorb hub heard).1
  | startProducer (source : Source) (client : 0 < s.clientHandles) :
    Step s (.startProducer source) []
      { s with hub := s.hub.cloneHandle, producers := s.producers ++ [.start source] }
  | arrive (i : Nat) (items : List Incoming) :
    Step s (.arrive i items) [] { s with producers := s.producers.modify i (·.arrive items) }
  | produce {i : Nat} {p p' : ProducerSession} {hub : Hub} {heard : List Hub.Event}
      (found : s.producers[i]? = some p) (hs : p.step? s.hub = some (p', hub, heard)) :
    Step s (.produce i) (heard.filterMap (submission? i) ++ heard.map .hub)
      ({ s with producers := s.producers.set i p' }.absorb hub heard).1
  | abort {i : Nat} {p p' : ProducerSession} {hub : Hub} {heard : List Hub.Event}
      (found : s.producers[i]? = some p) (ha : p.abort s.hub = (p', hub, heard)) :
    Step s (.abort i) (heard.map .hub)
      ({ s with producers := s.producers.set i p' }.absorb hub heard).1
  | startWriter (id capacity : Nat) (attach : s.mayAttach id = true) :
    Step s (.startWriter id capacity) []
      { s with hub := s.hub.cloneHandle, writers := s.writers ++ [.start id capacity] }
  | write {i : Nat} {w w' : SubscriberSession} {hub : Hub} {heard : List Hub.Event}
      (found : s.writers[i]? = some w) (hs : w.step? s.hub = some (w', hub, heard)) :
    Step s (.write i) (heard.map .hub)
      ({ s with writers := s.writers.set i w' }.absorb hub heard).1
  | connection {i : Nat} {w w' : SubscriberSession} {answer : Answer}
      (found : s.writers[i]? = some w) (hr : w.respond? answer = some w') :
    Step s (.connection i answer) (connectionEvents i w.errand? answer)
      { s with writers := s.writers.set i w' }
  | startTap (id : Nat) (config : TapConfig) (attach : s.mayAttach id = true) :
    Step s (.startTap id config) []
      { s with hub := s.hub.cloneHandle, taps := s.taps ++ [.start id config] }
  | tap {i : Nat} {t t' : TapSession} {hub : Hub} {heard : List Hub.Event}
      {skipped? : Option SkippedFrame} (found : s.taps[i]? = some t)
      (hs : t.step? s.hub = some (t', hub, heard, skipped?)) :
    Step s (.tap i) (heard.map .hub ++ (skipped?.map .skipped).toList)
      ({ s with taps := s.taps.set i t' }.absorb hub heard).1
  | consumer {i : Nat} {t t' : TapSession} {payload : Payload} {failure? : Option Error}
      (found : s.taps[i]? = some t) (offered : t.offer? = some payload)
      (hr : t.respond? failure? = some t') :
    Step s (.consumer i failure?) [.offered i payload failure?] { s with taps := s.taps.set i t' }

theorem Step.of_step? {s s' : System} {action : Action} {events : List Event}
    (hs : s.step? action = some (s', events)) : Step s action events s' := by
  cases action with
  | hub action =>
    simp only [System.step?, stepHub?] at hs
    split at hs
    · rename_i permitted
      obtain ⟨⟨hub, heard⟩, hstep, heq⟩ := Option.map_eq_some_iff.mp hs
      cases heq
      exact .hub permitted hstep
    · cases hs
  | startProducer source =>
    simp only [System.step?] at hs
    split at hs
    · rename_i client
      cases hs
      exact .startProducer source client
    · cases hs
  | arrive i items =>
    cases hs
    exact .arrive i items
  | produce i =>
    simp only [System.step?, produce?] at hs
    split at hs
    · cases hs
    · rename_i p found
      obtain ⟨⟨p', hub, heard⟩, hstep, heq⟩ := Option.map_eq_some_iff.mp hs
      cases heq
      exact .produce found hstep
  | abort i =>
    simp only [System.step?, abort?] at hs
    split at hs
    · cases hs
    · rename_i p found
      rcases aborted : p.abort s.hub with ⟨p', hub, heard⟩
      simp only [aborted] at hs
      cases hs
      exact .abort found aborted
  | startWriter id capacity =>
    simp only [System.step?] at hs
    split at hs
    · rename_i attach
      cases hs
      exact .startWriter id capacity attach
    · cases hs
  | write i =>
    simp only [System.step?, write?] at hs
    split at hs
    · cases hs
    · rename_i w found
      obtain ⟨⟨w', hub, heard⟩, hstep, heq⟩ := Option.map_eq_some_iff.mp hs
      cases heq
      exact .write found hstep
  | connection i answer =>
    simp only [System.step?, answerConnection?] at hs
    split at hs
    · cases hs
    · rename_i w found
      obtain ⟨w', answered, heq⟩ := Option.map_eq_some_iff.mp hs
      cases heq
      exact .connection found answered
  | startTap id config =>
    simp only [System.step?] at hs
    split at hs
    · rename_i attach
      cases hs
      exact .startTap id config attach
    · cases hs
  | tap i =>
    simp only [System.step?, tap?] at hs
    split at hs
    · cases hs
    · rename_i t found
      obtain ⟨⟨t', hub, heard, skipped?⟩, hstep, heq⟩ := Option.map_eq_some_iff.mp hs
      cases heq
      exact .tap found hstep
  | consumer i failure? =>
    simp only [System.step?, answerConsumer?] at hs
    split at hs
    · cases hs
    · rename_i t found
      split at hs
      · rename_i payload t' offered answered
        cases hs
        exact .consumer found offered answered
      · cases hs

/-! ### Owners -/

/-- The subscription that a session consumes. -/
def idOf? (s : System) (c : Consumer) : Option Nat := (s.stake? c).map (·.id)

/-- No two sessions consume the same subscription. -/
def Apart (s : System) : Prop :=
  ∀ c c' id, s.idOf? c = some id → s.idOf? c' = some id → c = c'

theorem idOf?_writer (s : System) (i : Nat) :
    s.idOf? (.writer i) = s.writers[i]?.map (·.id) := Option.map_map ..

theorem idOf?_tap (s : System) (i : Nat) : s.idOf? (.tap i) = s.taps[i]?.map (·.id) :=
  Option.map_map ..

theorem isOwned_iff {s : System} {id : Nat} :
    s.isOwned id = true ↔ ∃ c, s.idOf? c = some id := by
  rw [isOwned, Bool.or_eq_true, List.any_eq_true, List.any_eq_true]
  constructor
  · rintro (⟨w, mem, own⟩ | ⟨t, mem, own⟩)
    · obtain ⟨i, found⟩ := List.mem_iff_getElem?.mp mem
      refine ⟨.writer i, ?_⟩
      rw [idOf?_writer, found]
      exact congrArg some (of_decide_eq_true own)
    · obtain ⟨i, found⟩ := List.mem_iff_getElem?.mp mem
      refine ⟨.tap i, ?_⟩
      rw [idOf?_tap, found]
      exact congrArg some (of_decide_eq_true own)
  · rintro ⟨c, own⟩
    cases c with
    | writer i =>
      rw [idOf?_writer, Option.map_eq_some_iff] at own
      obtain ⟨w, found, own⟩ := own
      exact .inl ⟨w, List.mem_of_getElem? found, decide_eq_true own⟩
    | tap i =>
      rw [idOf?_tap, Option.map_eq_some_iff] at own
      obtain ⟨t, found, own⟩ := own
      exact .inr ⟨t, List.mem_of_getElem? found, decide_eq_true own⟩

/-- A consumer keeps its subscription; whoever begins takes one that nobody had. -/
theorem Acts.idOf? {s s₁ : System} {actions : List Hub.Action} (acts : s.Acts actions s₁) :
    (∀ c, s₁.idOf? c = s.idOf? c) ∨
      ∃ new id, s.isOwned id = false ∧ s₁.idOf? new = some id ∧
        ∀ c, c ≠ new → s₁.idOf? c = s.idOf? c := by
  cases acts with
  | client => exact .inl fun _ => rfl
  | nothing => exact .inl fun _ => rfl
  | producer => exact .inl fun _ => rfl
  | startProducer => exact .inl fun _ => rfl
  | @writer i w w' actions found m =>
    refine .inl fun c => ?_
    cases c with
    | tap j => rfl
    | writer j =>
      rw [idOf?_writer, idOf?_writer]
      rcases getElem?_set_cases found w' j with same | ⟨before, after⟩
      · rw [same]
      · rw [before, after]
        exact congrArg some m.id_eq
  | @tap i t t' actions found m =>
    refine .inl fun c => ?_
    cases c with
    | writer j => rfl
    | tap j =>
      rw [idOf?_tap, idOf?_tap]
      rcases getElem?_set_cases found t' j with same | ⟨before, after⟩
      · rw [same]
      · rw [before, after]
        exact congrArg some m.id_eq
  | startWriter id capacity attach =>
    refine .inr ⟨.writer s.writers.length, id, (mayAttach_iff.mp attach).2.2, ?_, fun c other => ?_⟩
    · rw [idOf?_writer, List.getElem?_concat_length]
      rfl
    · cases c with
      | tap j => rfl
      | writer j =>
        have known : j ≠ s.writers.length := fun same => other (congrArg _ same)
        rw [idOf?_writer, idOf?_writer]
        exact congrArg _ (getElem?_concat_ne _ known)
  | startTap id config attach =>
    refine .inr ⟨.tap s.taps.length, id, (mayAttach_iff.mp attach).2.2, ?_, fun c other => ?_⟩
    · rw [idOf?_tap, List.getElem?_concat_length]
      rfl
    · cases c with
      | writer j => rfl
      | tap j =>
        have known : j ≠ s.taps.length := fun same => other (congrArg _ same)
        rw [idOf?_tap, idOf?_tap]
        exact congrArg _ (getElem?_concat_ne _ known)

theorem idOf?_absorb (s : System) (hub : Hub) (heard : List Hub.Event) (c : Consumer) :
    (s.absorb hub heard).1.idOf? c = s.idOf? c := by
  rw [idOf?, stake?_absorb, Option.map_map, idOf?]
  congr 1
  funext k
  exact k.hear_id heard

theorem Apart.step {s s' : System} {action : Action} {events : List Event} (apart : s.Apart)
    (ready : s.Provided) (hs : s.step? action = some (s', events)) : s'.Apart := by
  obtain ⟨actions, s₁, hub, heard, acts, -, rfl, -⟩ := step?_acts ready hs
  intro c c' id own own'
  rw [idOf?_absorb] at own own'
  rcases acts.idOf? with same | ⟨new, id', free, attached, same⟩
  · exact apart c c' id (same c ▸ own) (same c' ▸ own')
  · -- Whoever has begun shares its subscription with nobody.
    have alone : ∀ c, s₁.idOf? c = some id' → c = new := by
      intro c own
      by_contra other
      rw [same c other] at own
      rw [isOwned_iff.mpr ⟨c, own⟩] at free
      cases free
    by_cases mine : c = new
    · subst mine
      obtain rfl := Option.some.inj (attached.symm.trans own)
      exact (alone c' own').symm
    · by_cases mine' : c' = new
      · subst mine'
        obtain rfl := Option.some.inj (attached.symm.trans own')
        exact alone c own
      · exact apart c c' id (same c mine ▸ own) (same c' mine' ▸ own')

theorem Run.apart {config : HubConfig} {history : List Event} {s : System}
    (run : Run config history s) : s.Apart := by
  induction run with
  | start =>
    intro c c' id own
    cases c <;> cases own
  | step run hs ih => exact ih.step run.sound.provided hs

/-! ### What others do -/

/-- The session whose action it is. -/
def Action.consumer? : Action → Option Consumer
  | .write i | .connection i _ => some (.writer i)
  | .tap i | .consumer i _ => some (.tap i)
  | _ => none

theorem hubEvents_tap (heard : List Hub.Event) (skipped? : Option SkippedFrame) :
    hubEvents (heard.map .hub ++ (skipped?.map Event.skipped).toList) = heard := by
  have none : hubEvents (skipped?.map Event.skipped).toList = [] := by
    cases skipped? <;> rfl
  rw [hubEvents_append, hubEvents_map_hub, none, List.append_nil]

theorem hubEvents_produce (i : Nat) (heard : List Hub.Event) :
    hubEvents (heard.filterMap (submission? i) ++ heard.map .hub) = heard := by
  rw [hubEvents_append, hubEvents_submission?, hubEvents_map_hub, List.nil_append]

section Steps

variable {s s' : System} {action : Action} {events : List Event} {id : Nat}

/-- What is owned is left alone by all others. -/
theorem Step.foreign (st : Step s action events s') (ready : s.Provided) (apart : s.Apart)
    {c : Consumer} (owner : s.idOf? c = some id) (other : action.consumer? ≠ some c) :
    Hub.Foreign id (hubEvents events) := by
  -- Another consumer has another subscription.
  have another {c' : Consumer} {k : Stake} (found : s.stake? c' = some k) (ne : c' ≠ c) :
      k.id ≠ id := by
    rintro rfl
    exact ne (apart c' c k.id (by rw [idOf?, found]; rfl) owner)
  cases st with
  | @hub action hub heard permitted hs =>
    rw [hubEvents_map_hub]
    refine (Hub.Transition.of_step? hs).foreign (Bool.eq_false_iff.mpr fun concerned => ?_)
    have owned := isOwned_iff.mpr ⟨c, owner⟩
    cases action with
    | take i | close i | discard i =>
      obtain rfl : i = id := of_decide_eq_true concerned
      rw [permits, owned] at permitted
      cases permitted
    | _ => cases concerned
  | startProducer => exact .nil
  | arrive => exact .nil
  | @produce i p p' hub heard found hs =>
    rw [hubEvents_produce]
    obtain ⟨actions, m, hp⟩ := ProducerSession.step?_move hs
    exact Hub.perform?_foreign (hp (ready.producers p (List.mem_of_getElem? found))) (m.others id)
  | @abort i p p' hub heard found ha =>
    rw [hubEvents_map_hub]
    obtain ⟨actions, m, hp⟩ := ProducerSession.abort_move ha
    exact Hub.perform?_foreign (hp (ready.producers p (List.mem_of_getElem? found))) (m.others id)
  | startWriter => exact .nil
  | @write i w w' hub heard found hs =>
    rw [hubEvents_map_hub]
    obtain ⟨actions, m, hp⟩ := SubscriberSession.step?_move hs
    obtain ⟨handle, known⟩ := ready.writers w (List.mem_of_getElem? found)
    have held : s.stake? (.writer i) = some w.stake := by rw [stake?, found]; rfl
    exact Hub.perform?_foreign (hp handle known)
      (m.others (another held fun same => other (congrArg _ same)))
  | @connection i w w' answer found hr =>
    rw [hubEvents_connectionEvents]
    exact .nil
  | startTap => exact .nil
  | @tap i t t' hub heard skipped? found hs =>
    rw [hubEvents_tap]
    obtain ⟨actions, m, hp⟩ := TapSession.step?_move hs
    obtain ⟨handle, known⟩ := ready.taps t (List.mem_of_getElem? found)
    have held : s.stake? (.tap i) = some t.stake := by rw [stake?, found]; rfl
    exact Hub.perform?_foreign (hp handle known)
      (m.others (another held fun same => other (congrArg _ same)))
  | consumer => exact .nil

end Steps

/-- What holds before some actions and is kept by each step holds after them. -/
theorem perform?_induction {config : HubConfig} {past : List Event} {s : System}
    (run : Run config past s) {P : List Action → List Event → System → Prop} (first : P [] [] s)
    (step : ∀ {done more s₀ action events s₁}, Run config (past ++ more) s₀ → P done more s₀ →
      s₀.step? action = some (s₁, events) → P (done ++ [action]) (more ++ events) s₁)
    {actions : List Action} {more : List Event} {s' : System}
    (hp : s.perform? actions = some (s', more)) : P actions more s' := by
  suffices ∀ (done : List Action) (earlier : List Event) (s₀ : System),
      Run config (past ++ earlier) s₀ → P done earlier s₀ →
      ∀ more, s₀.perform? actions = some (s', more) → P (done ++ actions) (earlier ++ more) s' from
    this [] [] s (by rwa [List.append_nil]) first more hp
  clear run first hp
  intro done earlier s₀ run holds more hp
  induction actions generalizing done earlier s₀ more with
  | nil =>
    obtain ⟨rfl, rfl⟩ := by simpa [System.perform?] using hp
    rwa [List.append_nil, List.append_nil]
  | cons action actions ih =>
    obtain ⟨mid, events, others, hs, hr, rfl⟩ := perform?_cons.mp hp
    rw [← List.append_assoc, List.append_cons]
    refine ih (done ++ [action]) (earlier ++ events) mid ?_ (step run holds hs) others hr
    rw [← List.append_assoc]
    exact .step run hs

end System

end VideoRelay

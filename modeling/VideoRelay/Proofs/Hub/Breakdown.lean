/-
Hubs on a runtime that may not have what they ask for.

* `performOn?` — actions one after the other on a runtime;
* `performOn?_cases` — either they come to what they come to where the runtime has everything,
  or the hub breaks down with one of them;
* `Breakdown`, `breakdown_of_breaksDown` — what it has asked for then;
* `Runtime.Suffices`, `performOn?_of_suffices` — where there is room for the queues and the
  end of the grace can be told, no hub breaks down;
* `silent_of_breaksDown` — a hub that has broken down is as silent as one that has stopped.

Design notes: up to its last step a hub that breaks down is like any other, and afterwards like
one that has stopped.  So what holds of all runs is used for the part before, and the rest is
silence.
-/
import VideoRelay.Hub.Runtime
import VideoRelay.Proofs.Hub.Stopping

namespace VideoRelay

namespace Hub

variable {r : Runtime} {config : HubConfig} {actions : List Action} {h h' last : Hub}
  {history events : List Event}

/-! ### Single steps -/

/-- A hub that breaks down was at work, and either the end of the grace cannot be told or a
queue would be too long. -/
theorem breaksDown_cases (breaks : h.breaksDown r = true) :
    h.phase ≠ .stopped ∧ (h.isBeyondTime r = true ∨
      h.phase = .ready ∧ r.queueLimit < h.config.queueRoom ∧
        ∃ ticket rest, h.commands = ⟨ticket, .register⟩ :: rest) := by
  rw [breaksDown] at breaks
  split at breaks
  · cases breaks
  · rename_i b delivering
    refine ⟨by simp [delivering], .inl ?_⟩
    split at breaks
    · cases breaks
    · split at breaks
      · cases breaks
      · exact (Bool.and_eq_true_iff.mp breaks).2
  · rename_i ready
    refine ⟨by simp [ready], ?_⟩
    rcases Bool.or_eq_true_iff.mp breaks with beyond | breaks
    · exact .inl beyond
    · split at breaks
      · rename_i ticket rest front
        obtain ⟨-, long⟩ := Bool.and_eq_true_iff.mp breaks
        exact .inr ⟨ready, of_decide_eq_true long, ticket, rest, front⟩
      · cases breaks

theorem breaksDown_of_stopped (stopped : h.phase = .stopped) : h.breaksDown r = false :=
  Bool.eq_false_iff.mpr fun breaks => (breaksDown_cases breaks).1 stopped

/-- With room for a queue and no shutdown asked for, no hub breaks down. -/
theorem breaksDown_of_unasked (room : h.config.queueRoom ≤ r.queueLimit)
    (unasked : h.requestedAt? = none) : h.breaksDown r = false := by
  rw [Bool.eq_false_iff]
  intro breaks
  obtain ⟨-, beyond | ⟨-, long, -⟩⟩ := breaksDown_cases breaks
  · rw [isBeyondTime, unasked] at beyond
    cases beyond
  · exact absurd room (Nat.not_le.mpr long)

theorem workOn?_of_holds (holds : h.breaksDown r = false) : h.workOn? r = h.work? := by
  rw [workOn?, holds]
  rfl

theorem stepOn?_of_holds (holds : h.breaksDown r = false) (action : Action) :
    h.stepOn? r action = h.step? action := by
  cases action with
  | work => exact workOn?_of_holds holds
  | _ => rfl

/-- Only by a step of its own a hub breaks down. -/
theorem stepOn?_cases (r : Runtime) (h : Hub) (action : Action) :
    h.stepOn? r action = h.step? action ∨
      action = .work ∧ h.breaksDown r = true ∧ h.stepOn? r action = some h.breakDown := by
  cases breaks : h.breaksDown r with
  | false => exact .inl (stepOn?_of_holds breaks action)
  | true =>
    cases action with
    | work => exact .inr ⟨rfl, rfl, if_pos breaks⟩
    | _ => exact .inl rfl

/-- Where nothing proceeds on a runtime, nothing would on another. -/
theorem isStuck_of_isStuckOn (stuck : h.isStuckOn r = true) : h.isStuck = true := by
  rw [isStuckOn, Bool.and_eq_true] at stuck
  rw [isStuck, Bool.and_eq_true]
  refine ⟨?_, stuck.2⟩
  cases breaks : h.breaksDown r with
  | false => exact workOn?_of_holds breaks ▸ stuck.1
  | true =>
    have broken : h.workOn? r = some h.breakDown := if_pos breaks
    rw [broken] at stuck
    cases stuck.1

/-! ### Courses of actions -/

/-- Actions one after the other on a runtime; nothing if one of them is not possible. -/
def performOn? (r : Runtime) (h : Hub) : List Action → Option (Hub × List Event)
  | [] => some (h, [])
  | action :: rest => do
    let (h, first) ← h.stepOn? r action
    let (h, others) ← h.performOn? r rest
    return (h, first ++ others)

theorem performOn?_cons {action : Action} :
    h.performOn? r (action :: actions) = some (last, history) ↔
      ∃ mid first events, h.stepOn? r action = some (mid, first) ∧
        mid.performOn? r actions = some (last, events) ∧ history = first ++ events := by
  simp only [performOn?, Option.pure_def, Option.bind_eq_bind, Option.bind_eq_some_iff,
    Option.some.injEq, Prod.mk.injEq, Prod.exists]
  constructor
  · rintro ⟨mid, first, hs, last, events, hr, rfl, rfl⟩
    exact ⟨mid, first, events, hs, hr, rfl⟩
  · rintro ⟨mid, first, events, hs, hr, rfl⟩
    exact ⟨mid, first, hs, last, events, hr, rfl, rfl⟩

/-- Actions come to what they come to on any runtime, and so do the first of them, or the hub
breaks down with one. -/
theorem performOn?_cases (hp : h.performOn? r actions = some (last, history)) :
    (h.perform? actions = some (last, history) ∧
      ∀ before after, actions = before ++ after → h.performOn? r before = h.perform? before) ∨
    ∃ before after h₀ past rest, actions = before ++ .work :: after ∧
      h.performOn? r before = some (h₀, past) ∧ h.perform? before = some (h₀, past) ∧
      h₀.breaksDown r = true ∧ h₀.breakDown.1.performOn? r after = some (last, rest) ∧
      history = past ++ (h₀.breakDown.2 ++ rest) := by
  induction actions generalizing h history with
  | nil =>
    refine .inl ⟨hp, fun before after split => ?_⟩
    obtain ⟨rfl, -⟩ := List.nil_eq_append_iff.mp split
    rfl
  | cons action actions ih =>
    obtain ⟨mid, first, others, hs, hr, rfl⟩ := performOn?_cons.mp hp
    rcases stepOn?_cases r h action with same | ⟨rfl, breaks, broken⟩
    · have hs' := same ▸ hs
      rcases ih hr with ⟨whole, prefixes⟩ | ⟨before, after, h₀, past, rest, rfl, hb, hb', rest'⟩
      · refine .inl ⟨perform?_cons.mpr ⟨mid, first, others, hs', whole, rfl⟩, ?_⟩
        intro before after split
        cases before with
        | nil => rfl
        | cons action' before =>
          obtain ⟨rfl, tail⟩ := List.cons_eq_cons.mp split
          simp only [performOn?, perform?, hs, hs', prefixes before after tail,
            Option.bind_eq_bind, Option.bind_some]
      · obtain ⟨breaks, ha, rfl⟩ := rest'
        refine .inr ⟨action :: before, after, h₀, first ++ past, rest, rfl, ?_, ?_, breaks, ha,
          (List.append_assoc _ _ _).symm⟩
        · exact performOn?_cons.mpr ⟨mid, first, past, hs, hb, rfl⟩
        · exact perform?_cons.mpr ⟨mid, first, past, hs', hb', rfl⟩
    · have broken : h.breakDown = (mid, first) := Option.some.inj (broken.symm.trans hs)
      refine .inr ⟨[], actions, h, [], others, rfl, rfl, rfl, breaks, ?_, ?_⟩
      · rwa [broken]
      · rw [broken, List.nil_append]

/-- A stopped hub asks for nothing. -/
theorem performOn?_of_stopped (o : Orderly h) (stopped : h.phase = .stopped) :
    h.performOn? r actions = h.perform? actions := by
  induction actions generalizing h with
  | nil => rfl
  | cons action actions ih =>
    rw [performOn?, perform?, stepOn?_of_holds (breaksDown_of_stopped stopped)]
    cases hs : h.step? action with
    | none => rfl
    | some result =>
      obtain ⟨mid, first⟩ := result
      have tr := Transition.of_step? hs
      simp only [Option.bind_eq_bind, Option.bind_some,
        ih (tr.orderly o) (tr.of_stopped o stopped).1]

/-! ### What was asked for -/

/-- What a hub has asked for in vain when it breaks down after `actions`, which had the events
`history`. -/
inductive Breakdown (r : Runtime) (config : HubConfig) (actions : List Action)
    (history : List Event) : Prop
  /-- The end of the grace since the first request. -/
  | time (t : Nat) (requested : firstRequest? actions = some t)
      (beyond : r.lastMoment < t + config.grace)
  /-- A queue for the subscriber whose registration's turn has come. -/
  | room (ticket : Nat) (later : List Request)
      (next : accepted history = begun history ++ ⟨ticket, .register⟩ :: later)
      (beyond : r.queueLimit < config.queueRoom)

theorem perform?_isBeyondTime (hp : (start config).perform? actions = some (h, history))
    (beyond : h.isBeyondTime r = true) :
    ∃ t, firstRequest? actions = some t ∧ r.lastMoment < t + config.grace := by
  have same := (run_iff_perform?.mpr ⟨_, hp⟩).config_eq
  rw [isBeyondTime, perform?_requestedAt? hp, same] at beyond
  cases requested : firstRequest? actions with
  | none => simp [requested] at beyond
  | some t =>
    rw [requested] at beyond
    exact ⟨t, rfl, of_decide_eq_true beyond⟩

/-- A hub that breaks down has asked for something in vain. -/
theorem breakdown_of_breaksDown (hp : (start config).perform? actions = some (h, history))
    (breaks : h.breaksDown r = true) : Breakdown r config actions history := by
  have run := run_iff_perform?.mpr ⟨_, hp⟩
  obtain ⟨live, beyond | ⟨-, long, ticket, rest, front⟩⟩ := breaksDown_cases breaks
  · obtain ⟨t, requested, beyond⟩ := perform?_isBeyondTime hp beyond
    exact .time t requested beyond
  · have all := run.intake.queue live
    rw [front] at all
    exact .room ticket rest all (run.config_eq ▸ long)

end Hub

/-- Whether a runtime has all that a hub may ask for in the course of `actions`: room for
every queue, and a number for the end of the grace if a shutdown is asked for. -/
structure Runtime.Suffices (r : Runtime) (config : HubConfig) (actions : List Hub.Action) :
    Prop where
  room : config.queueRoom ≤ r.queueLimit
  time : ∀ t, Hub.firstRequest? actions = some t → t + config.grace ≤ r.lastMoment

namespace Hub

variable {r : Runtime} {config : HubConfig} {actions before after : List Action} {h h₀ : Hub}
  {history past events : List Event}

/-- The first request stays the first. -/
theorem firstRequest?_append {t : Nat} (requested : firstRequest? before = some t)
    (after : List Action) : firstRequest? (before ++ after) = some t := by
  induction after using List.reverseRecOn with
  | nil => rwa [List.append_nil]
  | append_singleton after action ih =>
    rw [← List.append_assoc, firstRequest?_concat, ih]
    rfl

theorem Breakdown.not_suffices (b : Breakdown r config before past) (after : List Action) :
    ¬r.Suffices config (before ++ after) := by
  intro enough
  cases b with
  | time t requested beyond =>
    exact absurd (enough.time t (firstRequest?_append requested after)) (Nat.not_le.mpr beyond)
  | room ticket later next beyond => exact absurd enough.room (Nat.not_le.mpr beyond)

/-- On a runtime that suffices actions come to what they come to on any such: all that holds of
runs holds there. -/
theorem performOn?_of_suffices (hp : (start config).performOn? r actions = some (h, history))
    (enough : r.Suffices config actions) :
    (start config).perform? actions = some (h, history) := by
  rcases performOn?_cases hp with ⟨whole, -⟩ | ⟨before, after, h₀, past, rest, rfl, broken⟩
  · exact whole
  · obtain ⟨-, hb, breaks, -⟩ := broken
    exact absurd enough ((breakdown_of_breaksDown hb breaks).not_suffices _)

/-! ### Afterwards -/

/-- A stopped hub finds no reason to stop. -/
theorem perform?_no_cause_of_stopped (o : Orderly h) (stopped : h.phase = .stopped)
    {last : Hub} (hp : h.perform? actions = some (last, events)) :
    ∀ e ∈ events, e.isCause = false := by
  intro e mem
  by_contra reason
  rw [Bool.not_eq_false] at reason
  obtain ⟨before, h₀, earlier, action, h₁, now, hb, hs, inNow⟩ := perform?_of_mem hp mem
  obtain ⟨-, why, -⟩ := (Transition.of_step? hs).of_isCause inNow reason
  have stopped₀ := (perform?_of_stopped hb o stopped).1
  exact why.live stopped₀

theorem begun_eq_nil (silent : ∀ e ∈ events, e.isEffect = false) : begun events = [] := by
  refine List.filterMap_eq_nil_iff.mpr fun e mem => ?_
  have none := silent e mem
  cases e with
  | began request => cases none
  | _ => rfl

theorem accepted_eq_nil (silent : ∀ e ∈ events, e.isEffect = false) : accepted events = [] := by
  refine List.filterMap_eq_nil_iff.mpr fun e mem => ?_
  have none := silent e mem
  cases e with
  | accepted request => cases none
  | _ => rfl

/-- What a stop itself tells is no effect and no reason. -/
theorem stop_silent (h : Hub) : ∀ e ∈ h.stop.2, e.isEffect = false ∧ e.isCause = false :=
  forall_mem_stop (P := fun e => e.isEffect = false ∧ e.isCause = false)
    (fun _ _ => ⟨rfl, rfl⟩) (fun _ _ => ⟨rfl, rfl⟩) h

/-- A hub that breaks down after `past` is like one that has stopped: nothing has an effect
any more, and nothing is a reason to stop. -/
theorem silent_of_breaksDown (hb : (start config).perform? before = some (h₀, past))
    (ha : h₀.breakDown.1.performOn? r after = some (h, events)) :
    h.phase = .stopped ∧
      ∀ e ∈ h₀.breakDown.2 ++ events, e.isEffect = false ∧ e.isCause = false := by
  have run := run_iff_perform?.mpr ⟨_, hb⟩
  have o : Orderly h₀.breakDown.1 := stop_orderly run.orderly
  rw [performOn?_of_stopped o rfl] at ha
  obtain ⟨stopped, silent⟩ := perform?_of_stopped ha o rfl
  refine ⟨stopped, fun e mem => ?_⟩
  rcases List.mem_append.mp mem with mem | mem
  · exact stop_silent h₀ e (List.mem_of_mem_tail mem)
  · exact ⟨silent e mem, perform?_no_cause_of_stopped o rfl ha e mem⟩

end Hub

end VideoRelay

/-
What sessions are told.

* `hear` — a session is told of all calls that return, one by one;
* `Stake.hear_cases` — a session that gives up its subscription waits on, or is told that
  its removal is accepted;
* `System.absorb_fst` — all sessions of a system are told the same.

Design notes: what matters of a session is a view of it (`Stake`, `ProducerStake`), and
`hear_comm` takes the news from the session to the view.
-/
import VideoRelay.Proofs.System.Stakes

namespace VideoRelay

/-- What becomes of a session that is told of the calls that return. -/
def hear {α : Type} (answer : α → Nat → Hub.Reply → α) (events : List Hub.Event) (a : α) : α :=
  events.foldl (fun a e =>
    match e with
    | .returned ticket reply => answer a ticket reply
    | _ => a) a

theorem hear_append {α : Type} (answer : α → Nat → Hub.Reply → α) (events more : List Hub.Event)
    (a : α) : hear answer (events ++ more) a = hear answer more (hear answer events a) :=
  List.foldl_append

/-- Two views of a session agree if they agree on every call. -/
theorem hear_comm {α β : Type} {answer : α → Nat → Hub.Reply → α}
    {answer' : β → Nat → Hub.Reply → β} {view : α → β}
    (agree : ∀ a ticket reply, view (answer a ticket reply) = answer' (view a) ticket reply)
    (events : List Hub.Event) (a : α) :
    view (hear answer events a) = hear answer' events (view a) := by
  induction events generalizing a with
  | nil => rfl
  | cons e events ih =>
    cases e with
    | returned ticket reply =>
      show view (hear answer events (answer a ticket reply)) =
        hear answer' events (answer' (view a) ticket reply)
      rw [ih, agree]
    | _ => exact ih a

/-- A call that is not told of changes nothing. -/
theorem hear_eq_self {α : Type} {answer : α → Nat → Hub.Reply → α} {events : List Hub.Event}
    {a : α} (deaf : ∀ ticket reply, .returned ticket reply ∈ events → answer a ticket reply = a) :
    hear answer events a = a := by
  induction events with
  | nil => rfl
  | cons e events ih =>
    have ih := ih fun ticket reply mem => deaf ticket reply (List.mem_cons_of_mem _ mem)
    cases e with
    | returned ticket reply =>
      show hear answer events (answer a ticket reply) = a
      rw [deaf ticket reply List.mem_cons_self, ih]
    | _ => exact ih

/-- What every answer keeps holds after all of them. -/
theorem hear_keeps {α : Type} {answer : α → Nat → Hub.Reply → α} {P : α → Prop}
    (keeps : ∀ a ticket reply, P a → P (answer a ticket reply)) (events : List Hub.Event) {a : α}
    (h : P a) : P (hear answer events a) := by
  induction events generalizing a with
  | nil => exact h
  | cons e events ih =>
    cases e with
    | returned ticket reply => exact ih (keeps a ticket reply h)
    | _ => exact ih h

def ProducerSession.hear : List Hub.Event → ProducerSession → ProducerSession :=
  VideoRelay.hear ProducerSession.answer

def SubscriberSession.hear : List Hub.Event → SubscriberSession → SubscriberSession :=
  VideoRelay.hear fun w ticket _ => w.answer ticket

def TapSession.hear : List Hub.Event → TapSession → TapSession :=
  VideoRelay.hear fun t ticket _ => t.answer ticket

def Stake.hear : List Hub.Event → Stake → Stake :=
  VideoRelay.hear fun k ticket _ => k.answer ticket

def ProducerStake.hear : List Hub.Event → ProducerStake → ProducerStake :=
  VideoRelay.hear fun k ticket _ => k.answer ticket

theorem SubscriberSession.stake_hear (events : List Hub.Event) (w : SubscriberSession) :
    (w.hear events).stake = w.stake.hear events :=
  hear_comm (fun w ticket _ => w.stake_answer ticket) events w

theorem TapSession.stake_hear (events : List Hub.Event) (t : TapSession) :
    (t.hear events).stake = t.stake.hear events :=
  hear_comm (fun t ticket _ => t.stake_answer ticket) events t

theorem ProducerSession.stake_hear (events : List Hub.Event) (p : ProducerSession) :
    (p.hear events).stake = p.stake.hear events :=
  hear_comm (fun p ticket reply => p.stake_answer ticket reply) events p

theorem Stake.answer_of_not_awaits {k : Stake} {ticket : Nat} (deaf : ¬ k.awaits ticket) :
    k.answer ticket = k := by
  rw [answer]
  split
  · rename_i cause own waits
    refine if_neg ?_
    rintro rfl
    exact deaf ⟨cause, waits⟩
  · rfl

theorem Stake.hear_of_returned {events : List Hub.Event} {k : Stake} {cause : Error}
    {ticket : Nat} {reply : Hub.Reply} (waits : k.withdrawal? = some (cause, .unregistering ticket))
    (mem : .returned ticket reply ∈ events) :
    k.hear events = { k with withdrawal? := some (cause, .withdrawn) } := by
  induction events with
  | nil => cases mem
  | cons e events ih =>
    have later (mem : .returned ticket reply ∈ events) (same : k.hear [e] = k) :
        k.hear (e :: events) = { k with withdrawal? := some (cause, .withdrawn) } := by
      refine (hear_append _ [e] events k).trans ?_
      exact (congrArg (Stake.hear events) same).trans (ih mem)
    cases e with
    | returned ended reply' =>
      by_cases mine : ended = ticket
      · subst mine
        have told : k.answer ended = { k with withdrawal? := some (cause, .withdrawn) } := by
          simp [answer, waits]
        show Stake.hear events (k.answer ended) = _
        rw [told]
        -- Whoever is withdrawn waits for no call.
        refine hear_eq_self fun t r _ => answer_of_not_awaits ?_
        rintro ⟨c, h⟩
        cases h
      · refine later ?_ (answer_of_not_awaits ?_)
        · exact (List.mem_cons.mp mem).resolve_left fun h => mine (by cases h; rfl)
        · rintro ⟨c, h⟩
          rw [waits] at h
          cases h
          exact mine rfl
    | _ => exact later ((List.mem_cons.mp mem).resolve_left (by simp)) rfl

/-- A session waits on, or is told that its removal is accepted. -/
theorem Stake.hear_cases (events : List Hub.Event) (k : Stake) :
    k.hear events = k ∧ (∀ ticket, k.awaits ticket → ∀ reply, .returned ticket reply ∉ events) ∨
      ∃ cause ticket reply, k.withdrawal? = some (cause, .unregistering ticket) ∧
        .returned ticket reply ∈ events ∧
        k.hear events = { k with withdrawal? := some (cause, .withdrawn) } := by
  by_cases told : ∃ ticket reply, k.awaits ticket ∧ .returned ticket reply ∈ events
  · obtain ⟨ticket, reply, ⟨cause, waits⟩, mem⟩ := told
    exact .inr ⟨cause, ticket, reply, waits, mem, hear_of_returned waits mem⟩
  · refine .inl ⟨hear_eq_self fun ticket reply mem => ?_, fun ticket waits reply mem => ?_⟩
    · exact answer_of_not_awaits fun waits => told ⟨ticket, reply, waits, mem⟩
    · exact told ⟨ticket, reply, waits, mem⟩

theorem Stake.hear_id (events : List Hub.Event) (k : Stake) : (k.hear events).id = k.id := by
  rcases k.hear_cases events with ⟨same, -⟩ | ⟨cause, ticket, reply, -, -, same⟩ <;> rw [same]

theorem Stake.hear_holdsHandle (events : List Hub.Event) (k : Stake) :
    (k.hear events).holdsHandle = k.holdsHandle := by
  rcases k.hear_cases events with ⟨same, -⟩ | ⟨cause, ticket, reply, -, -, same⟩ <;> rw [same]

/-- A producer's session waits for the same call still, or for none. -/
theorem ProducerStake.hear_keeps (events : List Hub.Event) (k : ProducerStake) :
    (k.hear events).holdsHandle = k.holdsHandle ∧
      ∀ ticket, (k.hear events).ticket? = some ticket → k.ticket? = some ticket := by
  refine VideoRelay.hear_keeps (P := fun k' : ProducerStake => k'.holdsHandle = k.holdsHandle ∧
    ∀ ticket, k'.ticket? = some ticket → k.ticket? = some ticket) ?_ events ⟨rfl, fun _ h => h⟩
  rintro k' ended reply ⟨holds, same⟩
  rw [answer]
  split
  · exact ⟨holds, fun _ h => by cases h⟩
  · exact ⟨holds, same⟩

namespace System

theorem foldl_observe (s : System) (events : List Hub.Event) :
    events.foldl observe s =
      { s with
        producers := s.producers.map (·.hear events)
        writers := s.writers.map (·.hear events)
        taps := s.taps.map (·.hear events) } := by
  induction events generalizing s with
  | nil =>
    have hp : s.producers.map (·.hear []) = s.producers := List.map_id _
    have hw : s.writers.map (·.hear []) = s.writers := List.map_id _
    have ht : s.taps.map (·.hear []) = s.taps := List.map_id _
    rw [hp, hw, ht]
    rfl
  | cons e events ih =>
    rw [List.foldl_cons, ih]
    cases e with
    | returned ticket reply =>
      simp only [observe, tell, List.map_map]
      rfl
    | _ => rfl

/-- What a session is told, all sessions are. -/
theorem absorb_fst (s : System) (hub : Hub) (heard : List Hub.Event) :
    (s.absorb hub heard).1 =
      { s with
        hub := hub
        producers := s.producers.map (·.hear heard)
        writers := s.writers.map (·.hear heard)
        taps := s.taps.map (·.hear heard) } := foldl_observe { s with hub := hub } heard

end System

end VideoRelay

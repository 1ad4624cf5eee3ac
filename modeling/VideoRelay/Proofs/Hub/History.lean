/-
What a history tells.

A history is the list of a hub's events in order.  Everything that is said of a
run is said through the views defined here, which look at the events alone and
never at the hub:

* `accepted`, `begun` — commands, as they enter the queue and as they are taken up;
* `pendingCalls` — calls that have begun and not ended;
* `registrations`, `removals`, `removed`, `members` — who was and who is registered;
* `turns`, `turnsOf` — the turns of subscribers in broadcasts, with their outcome;
* `queuedFor`, `takenBy` — what went into a subscriber's queue and out of it;
* `packetsSince` — the packets taken up since a subscriber's registration.

Each view of a longer history is the view of the first part followed by the view
of the rest (`packetsSince_append` for the one that has a beginning of its own,
`viewFrom_append` for those that look back).
-/
import Mathlib.Data.List.TakeWhile
import VideoRelay.Hub.Step

namespace VideoRelay

namespace Hub

/-! ### Turns -/

/-- How a subscriber's turn in a broadcast ends. -/
inductive Outcome
  | queued
  /-- Left out for a full queue. -/
  | skipped
  /-- The queue was closed. -/
  | refused
  /-- The queue was full, and the subscriber is to be removed for it. -/
  | overflowed
  deriving DecidableEq, Repr

/-- Whether the subscriber goes on to the next broadcast. -/
def Outcome.isKept : Outcome → Bool
  | .queued | .skipped => true
  | .refused | .overflowed => false

/-- A subscriber's turn in a broadcast. -/
structure Turn where
  id : Nat
  packet : Packet
  outcome : Outcome
  deriving DecidableEq, Repr

/-- The event of a turn. -/
def Turn.event : Turn → Event
  | ⟨id, packet, .queued⟩ => .queued id packet
  | ⟨id, packet, .skipped⟩ => .skipped id packet
  | ⟨id, packet, .refused⟩ => .refused id packet
  | ⟨id, packet, .overflowed⟩ => .overflowed id packet

/-! ### What an event tells -/

namespace Event

/-- The ticket of a call that begins. -/
@[simp] def opened? : Event → Option Nat
  | .called request => some request.ticket
  | _ => none

/-- The ticket of a call that ends, answered or given up. -/
@[simp] def ended? : Event → Option Nat
  | .returned ticket _ => some ticket
  | .cancelled ticket => some ticket
  | _ => none

@[simp] def accepted? : Event → Option Request
  | .accepted request => some request
  | _ => none

@[simp] def begun? : Event → Option Request
  | .began request => some request
  | _ => none

/-- The packet that begins to be handed round. -/
@[simp] def begunPacket? : Event → Option Packet
  | .began ⟨_, .packet packet⟩ => some packet
  | _ => none

@[simp] def registered? : Event → Option Nat
  | .registered _ id => some id
  | _ => none

@[simp] def removal? : Event → Option (Nat × Removal)
  | .removed id reason _ _ _ => some (id, reason)
  | _ => none

@[simp] def closed? : Event → Option Nat
  | .closed id => some id
  | _ => none

@[simp] def dropped? : Event → Option Nat
  | .dropped id => some id
  | _ => none

@[simp] def turn? : Event → Option Turn
  | .queued id packet => some ⟨id, packet, .queued⟩
  | .skipped id packet => some ⟨id, packet, .skipped⟩
  | .refused id packet => some ⟨id, packet, .refused⟩
  | .overflowed id packet => some ⟨id, packet, .overflowed⟩
  | _ => none

@[simp] def queuedFor? (id : Nat) : Event → Option Packet
  | .queued other packet => if other = id then some packet else none
  | _ => none

@[simp] def takenBy? (id : Nat) : Event → Option Packet
  | .took other packet => if other = id then some packet else none
  | _ => none

/-- Whether the event is a command's way into the queue or through the hub, or
anything that the hub does to a subscriber. -/
@[simp] def isEffect : Event → Bool
  | .accepted _ | .began _ | .registered _ _ | .removed .. | .queued .. | .skipped ..
  | .refused .. | .overflowed .. => true
  | .called _ | .cancelled _ | .returned _ _ | .took .. | .closed _ | .dropped _
  | .expired _ | .stopped .. => false

end Event

@[simp] theorem turn?_event (t : Turn) : t.event.turn? = some t := by
  obtain ⟨id, packet, outcome⟩ := t
  cases outcome <;> rfl

theorem turn?_eq_some {e : Event} {t : Turn} : e.turn? = some t ↔ e = t.event := by
  constructor
  · intro h
    cases e <;> simp only [Event.turn?, Option.some.injEq, reduceCtorEq] at h <;>
      subst h <;> rfl
  · rintro rfl
    exact turn?_event t

/-! ### Views of a history -/

def accepted (history : List Event) : List Request := history.filterMap Event.accepted?

def begun (history : List Event) : List Request := history.filterMap Event.begun?

def openedCalls (history : List Event) : List Nat := history.filterMap Event.opened?

def endedCalls (history : List Event) : List Nat := history.filterMap Event.ended?

/-- The calls that have begun and have neither been answered nor given up. -/
def pendingCalls (history : List Event) : List Nat :=
  (openedCalls history).filter (· ∉ endedCalls history)

/-- The numbers given to subscribers. -/
def registrations (history : List Event) : List Nat := history.filterMap Event.registered?

/-- The subscribers removed, each with the reason. -/
def removals (history : List Event) : List (Nat × Removal) :=
  history.filterMap Event.removal?

def removed (history : List Event) : List Nat := (removals history).map (·.1)

/-- The subscribers registered and not removed, in the order of registration. -/
def members (history : List Event) : List Nat :=
  (registrations history).filter (· ∉ removed history)

/-- The subscriptions whose receiving end takes no more deliveries. -/
def closings (history : List Event) : List Nat := history.filterMap Event.closed?

/-- The subscriptions whose receiving end was given up. -/
def drops (history : List Event) : List Nat := history.filterMap Event.dropped?

def turns (history : List Event) : List Turn := history.filterMap Event.turn?

def turnsOf (id : Nat) (history : List Event) : List Turn := (turns history).filter (·.id = id)

def queuedFor (id : Nat) (history : List Event) : List Packet :=
  history.filterMap (Event.queuedFor? id)

def takenBy (id : Nat) (history : List Event) : List Packet :=
  history.filterMap (Event.takenBy? id)

def begunPackets (history : List Event) : List Packet := history.filterMap Event.begunPacket?

/-- The packets that began to be handed round after `id` was registered. -/
def packetsSince (id : Nat) (history : List Event) : List Packet :=
  begunPackets (history.dropWhile fun e => e.registered? ≠ some id)

/-- What each of `events` tells in the light of all that came before, which for the first
of them is `past`. -/
def viewFrom {α : Type} (f : List Event → Event → Option α) (past : List Event) :
    List Event → List α
  | [] => []
  | e :: rest => (f past e).toList ++ viewFrom f (past ++ [e]) rest

theorem filterMap_cons_toList {α : Type} (f : Event → Option α) (e : Event)
    (history : List Event) :
    (e :: history).filterMap f = (f e).toList ++ history.filterMap f := by
  rw [List.filterMap_cons]
  cases f e <;> rfl

section Append

variable (history events : List Event)

@[simp] theorem accepted_append :
    accepted (history ++ events) = accepted history ++ accepted events :=
  List.filterMap_append

@[simp] theorem begun_append : begun (history ++ events) = begun history ++ begun events :=
  List.filterMap_append

@[simp] theorem openedCalls_append :
    openedCalls (history ++ events) = openedCalls history ++ openedCalls events :=
  List.filterMap_append

@[simp] theorem endedCalls_append :
    endedCalls (history ++ events) = endedCalls history ++ endedCalls events :=
  List.filterMap_append

@[simp] theorem registrations_append :
    registrations (history ++ events) = registrations history ++ registrations events :=
  List.filterMap_append

@[simp] theorem removals_append :
    removals (history ++ events) = removals history ++ removals events :=
  List.filterMap_append

@[simp] theorem removed_append :
    removed (history ++ events) = removed history ++ removed events := by
  simp [removed]

@[simp] theorem closings_append :
    closings (history ++ events) = closings history ++ closings events :=
  List.filterMap_append

@[simp] theorem drops_append : drops (history ++ events) = drops history ++ drops events :=
  List.filterMap_append

@[simp] theorem turns_append : turns (history ++ events) = turns history ++ turns events :=
  List.filterMap_append

@[simp] theorem turnsOf_append (id : Nat) :
    turnsOf id (history ++ events) = turnsOf id history ++ turnsOf id events := by
  simp [turnsOf]

@[simp] theorem queuedFor_append (id : Nat) :
    queuedFor id (history ++ events) = queuedFor id history ++ queuedFor id events :=
  List.filterMap_append

@[simp] theorem takenBy_append (id : Nat) :
    takenBy id (history ++ events) = takenBy id history ++ takenBy id events :=
  List.filterMap_append

@[simp] theorem begunPackets_append :
    begunPackets (history ++ events) = begunPackets history ++ begunPackets events :=
  List.filterMap_append

end Append

section Cons

variable (e : Event) (history : List Event)

@[simp] theorem accepted_cons :
    accepted (e :: history) = e.accepted?.toList ++ accepted history :=
  filterMap_cons_toList _ e history

@[simp] theorem begun_cons :
    begun (e :: history) = e.begun?.toList ++ begun history :=
  filterMap_cons_toList _ e history

@[simp] theorem openedCalls_cons :
    openedCalls (e :: history) = e.opened?.toList ++ openedCalls history :=
  filterMap_cons_toList _ e history

@[simp] theorem endedCalls_cons :
    endedCalls (e :: history) = e.ended?.toList ++ endedCalls history :=
  filterMap_cons_toList _ e history

@[simp] theorem registrations_cons :
    registrations (e :: history) = e.registered?.toList ++ registrations history :=
  filterMap_cons_toList _ e history

@[simp] theorem removals_cons :
    removals (e :: history) = e.removal?.toList ++ removals history :=
  filterMap_cons_toList _ e history

@[simp] theorem closings_cons :
    closings (e :: history) = e.closed?.toList ++ closings history :=
  filterMap_cons_toList _ e history

@[simp] theorem drops_cons :
    drops (e :: history) = e.dropped?.toList ++ drops history :=
  filterMap_cons_toList _ e history

@[simp] theorem turns_cons :
    turns (e :: history) = e.turn?.toList ++ turns history :=
  filterMap_cons_toList _ e history

@[simp] theorem queuedFor_cons (id : Nat) :
    queuedFor id (e :: history) = (e.queuedFor? id).toList ++ queuedFor id history :=
  filterMap_cons_toList _ e history

@[simp] theorem takenBy_cons (id : Nat) :
    takenBy id (e :: history) = (e.takenBy? id).toList ++ takenBy id history :=
  filterMap_cons_toList _ e history

@[simp] theorem begunPackets_cons :
    begunPackets (e :: history) = e.begunPacket?.toList ++ begunPackets history :=
  filterMap_cons_toList _ e history

end Cons

section Nil

@[simp] theorem accepted_nil : accepted [] = [] := rfl

@[simp] theorem begun_nil : begun [] = [] := rfl

@[simp] theorem openedCalls_nil : openedCalls [] = [] := rfl

@[simp] theorem endedCalls_nil : endedCalls [] = [] := rfl

@[simp] theorem registrations_nil : registrations [] = [] := rfl

@[simp] theorem removals_nil : removals [] = [] := rfl

@[simp] theorem closings_nil : closings [] = [] := rfl

@[simp] theorem drops_nil : drops [] = [] := rfl

@[simp] theorem turns_nil : turns [] = [] := rfl

@[simp] theorem queuedFor_nil (id : Nat) : queuedFor id [] = [] := rfl

@[simp] theorem takenBy_nil (id : Nat) : takenBy id [] = [] := rfl

@[simp] theorem begunPackets_nil : begunPackets [] = [] := rfl

end Nil

@[simp] theorem mem_pendingCalls {ticket : Nat} {history : List Event} :
    ticket ∈ pendingCalls history ↔
      ticket ∈ openedCalls history ∧ ticket ∉ endedCalls history := by
  simp [pendingCalls]

/-- A subscriber without turns in `events` has the turns that it had before. -/
theorem turnsOf_eq_nil {events : List Event} (h : turns events = []) (id : Nat) :
    turnsOf id events = [] := by
  simp [turnsOf, h]

/-- What was queued is what the turns that ended with it were about. -/
theorem queuedFor_eq (id : Nat) (history : List Event) :
    queuedFor id history =
      ((turnsOf id history).filter (·.outcome = .queued)).map (·.packet) := by
  induction history with
  | nil => rfl
  | cons e history ih =>
    cases e with
    | queued other packet =>
      by_cases h : other = id <;> simp_all [turnsOf, turns, queuedFor]
    | skipped other packet | refused other packet | overflowed other packet =>
      by_cases h : other = id <;> simp_all [turnsOf, turns, queuedFor, List.filterMap_cons]
    | _ => simpa [turnsOf, turns, queuedFor, List.filterMap_cons] using ih

/-! ### Views that look back -/

section ViewFrom

variable {α : Type} {f : List Event → Event → Option α}

theorem viewFrom_append (past events more : List Event) :
    viewFrom f past (events ++ more) =
      viewFrom f past events ++ viewFrom f (past ++ events) more := by
  induction events generalizing past with
  | nil => rw [List.append_nil]; rfl
  | cons e events ih =>
    rw [List.cons_append, viewFrom, viewFrom, ih, List.append_assoc, List.append_assoc,
      List.singleton_append]

/-- Events that tell nothing, whatever came before. -/
theorem viewFrom_eq_nil {events : List Event} (none : ∀ e ∈ events, ∀ past, f past e = none)
    (past : List Event) : viewFrom f past events = [] := by
  induction events generalizing past with
  | nil => rfl
  | cons e events ih =>
    rw [viewFrom, none e List.mem_cons_self, ih fun e mem => none e (List.mem_cons_of_mem _ mem)]
    rfl

/-- What is told is told by one of the events. -/
theorem mem_viewFrom {past events : List Event} {a : α} :
    a ∈ viewFrom f past events ↔
      ∃ pre e post, events = pre ++ e :: post ∧ f (past ++ pre) e = some a := by
  induction events generalizing past with
  | nil => simp [viewFrom]
  | cons e events ih =>
    rw [viewFrom, List.mem_append, Option.mem_toList, ih]
    constructor
    · rintro (now | ⟨pre, e', post, rfl, later⟩)
      · exact ⟨[], e, events, rfl, by rwa [List.append_nil]⟩
      · exact ⟨e :: pre, e', post, rfl, by rwa [List.append_cons]⟩
    · rintro ⟨pre, e', post, split, told⟩
      cases pre with
      | nil =>
        obtain ⟨rfl, rfl⟩ := List.cons_eq_cons.mp split
        exact .inl (by rwa [List.append_nil] at told)
      | cons first pre =>
        obtain ⟨rfl, rfl⟩ := List.cons_eq_cons.mp split
        exact .inr ⟨pre, e', post, rfl, by rwa [List.append_cons] at told⟩

end ViewFrom

/-! ### Histories of one kind of events -/

/-- All events are of the kind `p`. -/
def Only (p : Event → Bool) (events : List Event) : Prop := ∀ e ∈ events, p e = true

namespace Only

variable {p : Event → Bool} {events more : List Event}

theorem nil : Only p [] := fun _ mem => absurd mem List.not_mem_nil

theorem cons {e : Event} (h : p e = true) (o : Only p events) : Only p (e :: events) := by
  intro e' mem
  rcases List.mem_cons.mp mem with rfl | mem
  · exact h
  · exact o e' mem

theorem append (o : Only p events) (o' : Only p more) : Only p (events ++ more) := by
  intro e mem
  rcases List.mem_append.mp mem with mem | mem
  · exact o e mem
  · exact o' e mem

/-- A view of other events only is empty. -/
theorem filterMap {α : Type} {f : Event → Option α} (o : Only p events)
    (other : ∀ e a, f e = some a → p e = false) : events.filterMap f = [] := by
  refine List.filterMap_eq_nil_iff.mpr fun e mem => Option.eq_none_iff_forall_ne_some.mpr ?_
  intro a told
  exact Bool.noConfusion ((o e mem).symm.trans (other e a told))

end Only

/-- Whether the event is about calls, removals and the hub only: nothing happens to
a queue, and no packet begins to be handed round. -/
def Event.isQuiet : Event → Bool
  | .called _ | .accepted _ | .cancelled _ | .returned _ _ | .expired _ | .stopped ..
  | .removed .. => true
  | .began ⟨_, .packet _⟩ => false
  | .began _ => true
  | .registered _ _ | .queued .. | .skipped .. | .refused .. | .overflowed .. | .took ..
  | .closed _ | .dropped _ => false

abbrev Quiet (events : List Event) : Prop := Only Event.isQuiet events

namespace Quiet

variable {events : List Event}

theorem registrations (q : Quiet events) : registrations events = [] := by
  refine q.filterMap fun e _ told => ?_
  cases e with
  | registered => rfl
  | _ => cases told

theorem closings (q : Quiet events) : closings events = [] := by
  refine q.filterMap fun e _ told => ?_
  cases e with
  | closed => rfl
  | _ => cases told

theorem drops (q : Quiet events) : drops events = [] := by
  refine q.filterMap fun e _ told => ?_
  cases e with
  | dropped => rfl
  | _ => cases told

theorem turns (q : Quiet events) : turns events = [] := by
  refine q.filterMap fun e _ told => ?_
  cases e with
  | queued | skipped | refused | overflowed => rfl
  | _ => cases told

theorem queuedFor (q : Quiet events) (id : Nat) : queuedFor id events = [] := by
  refine q.filterMap fun e _ told => ?_
  cases e with
  | queued => rfl
  | _ => cases told

theorem takenBy (q : Quiet events) (id : Nat) : takenBy id events = [] := by
  refine q.filterMap fun e _ told => ?_
  cases e with
  | took => rfl
  | _ => cases told

theorem begunPackets (q : Quiet events) : begunPackets events = [] := by
  refine q.filterMap fun e _ told => ?_
  cases e with
  | began request =>
    obtain ⟨ticket, command⟩ := request
    cases command with
    | packet => rfl
    | _ => cases told
  | _ => cases told

end Quiet

/-- Whether the event has nothing to do with a call or its command. -/
def Event.isUncalled : Event → Bool
  | .called _ | .accepted _ | .cancelled _ | .returned _ _ | .began _ => false
  | .registered _ _ | .queued .. | .skipped .. | .refused .. | .overflowed .. | .took ..
  | .closed _ | .dropped _ | .removed .. | .expired _ | .stopped .. => true

abbrev Uncalled (events : List Event) : Prop := Only Event.isUncalled events

namespace Uncalled

variable {events : List Event}

theorem accepted (u : Uncalled events) : accepted events = [] := by
  refine u.filterMap fun e _ told => ?_
  cases e with
  | accepted => rfl
  | _ => cases told

theorem begun (u : Uncalled events) : begun events = [] := by
  refine u.filterMap fun e _ told => ?_
  cases e with
  | began => rfl
  | _ => cases told

theorem openedCalls (u : Uncalled events) : openedCalls events = [] := by
  refine u.filterMap fun e _ told => ?_
  cases e with
  | called => rfl
  | _ => cases told

theorem endedCalls (u : Uncalled events) : endedCalls events = [] := by
  refine u.filterMap fun e _ told => ?_
  cases e with
  | cancelled | returned => rfl
  | _ => cases told

end Uncalled

/-! ### The event of a turn -/

section Turn

variable (t : Turn)

theorem turn_uncalled : Uncalled [t.event] := by
  obtain ⟨i, packet, outcome⟩ := t
  cases outcome <;> exact .cons rfl .nil

theorem registrations_turn : registrations [t.event] = [] := by
  obtain ⟨i, packet, outcome⟩ := t
  cases outcome <;> rfl

theorem removals_turn : removals [t.event] = [] := by
  obtain ⟨i, packet, outcome⟩ := t
  cases outcome <;> rfl

theorem removed_turn : removed [t.event] = [] := by
  rw [removed, removals_turn]
  rfl

theorem begunPackets_turn : begunPackets [t.event] = [] := by
  obtain ⟨i, packet, outcome⟩ := t
  cases outcome <;> rfl

theorem turns_turn (pre post : List Event) :
    turns (pre ++ t.event :: post) = turns pre ++ t :: turns post := by
  rw [turns_append, turns_cons, turn?_event]
  rfl

theorem turnsOf_turn (id : Nat) : turnsOf id [t.event] = if t.id = id then [t] else [] := by
  rw [turnsOf, turns_cons, turn?_event]
  by_cases heq : t.id = id <;> simp [heq]

end Turn

/-! ### Packets since a registration -/

theorem dropWhile_registered_ne_nil {id : Nat} {history : List Event}
    (h : id ∈ registrations history) :
    history.dropWhile (fun e => e.registered? ≠ some id) ≠ [] := by
  obtain ⟨e, he, hid⟩ := List.mem_filterMap.mp h
  intro hnil
  rw [List.dropWhile_eq_nil_iff] at hnil
  exact of_decide_eq_true (hnil e he) hid

/-- Once `id` is registered every packet taken up counts. -/
theorem packetsSince_append {id : Nat} {history : List Event}
    (h : id ∈ registrations history) (events : List Event) :
    packetsSince id (history ++ events) = packetsSince id history ++ begunPackets events := by
  have hne := dropWhile_registered_ne_nil h
  rw [packetsSince, packetsSince, List.dropWhile_append, if_neg (by simpa using hne)]
  exact begunPackets_append _ _

/-- What happened before the registration does not count. -/
theorem packetsSince_append_of_not_mem {id : Nat} {history : List Event}
    (h : id ∉ registrations history) (events : List Event) :
    packetsSince id (history ++ events) = packetsSince id events := by
  have hnil : history.dropWhile (fun e => e.registered? ≠ some id) = [] := by
    rw [List.dropWhile_eq_nil_iff]
    intro e he
    exact decide_eq_true fun hid => h (List.mem_filterMap.mpr ⟨e, he, hid⟩)
  rw [packetsSince, packetsSince, List.dropWhile_append, hnil]
  rfl

theorem packetsSince_of_not_mem {id : Nat} {history : List Event}
    (h : id ∉ registrations history) : packetsSince id history = [] := by
  have := packetsSince_append_of_not_mem h []
  rwa [List.append_nil] at this

theorem packetsSince_eq_nil {events : List Event} (noPacket : begunPackets events = [])
    (id : Nat) : packetsSince id events = [] := by
  rw [begunPackets, List.filterMap_eq_nil_iff] at noPacket
  rw [packetsSince, begunPackets, List.filterMap_eq_nil_iff]
  intro e mem
  exact noPacket e ((List.dropWhile_sublist _).subset mem)

/-- The packets since a registration do not become fewer. -/
theorem packetsSince_isPrefix (id : Nat) (history events : List Event) :
    packetsSince id history <+: packetsSince id (history ++ events) := by
  by_cases mem : id ∈ registrations history
  · rw [packetsSince_append mem]
    exact List.prefix_append _ _
  · rw [packetsSince_of_not_mem mem]
    exact List.nil_prefix

/-- Events without packets and without the registration leave the packets as they are. -/
theorem packetsSince_append_eq {events : List Event} (id : Nat)
    (notRegistered : id ∉ registrations events) (noPacket : begunPackets events = [])
    (history : List Event) : packetsSince id (history ++ events) = packetsSince id history := by
  by_cases mem : id ∈ registrations history
  · rw [packetsSince_append mem, noPacket, List.append_nil]
  · rw [packetsSince_append_of_not_mem mem, packetsSince_of_not_mem mem]
    exact packetsSince_of_not_mem notRegistered

end Hub

end VideoRelay

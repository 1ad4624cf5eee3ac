/-
Shutdown.

* `AbandonedFor` — whom a packet reached that was given up while the hub waited for
  one subscriber;
* `Run.abandonedFor` — when the grace runs out during a broadcast, exactly those
  before the one that the hub waited for have the packet, unless they had closed
  their queue;
* `Run.applied_before_shutdown` — when the turn of a shutdown comes, everything that
  was accepted before it has been applied to the end;
* `EndsInOrder`, `shutdown_inOrder` — shutting down takes no longer than the grace,
  goes in the order of acceptance, and where the runtime suffices it never comes without
  a reason;
* `broken_without_reason` — elsewhere it may.
-/
import Mathlib.Data.List.Nodup
import VideoRelay.Proofs.Hub.Breakdown
import VideoRelay.Proofs.Hub.Rounds
import VideoRelay.Proofs.Hub.Stopping
import VideoRelay.Proofs.Hub.Turns

namespace VideoRelay

namespace Hub

/-! ### The part of a round before a turn -/

/-- What happens until the turn of `id`. -/
def untilTurn (id : Nat) (during : List Event) : List Event :=
  during.takeWhile fun e => e.turn?.map (·.id) ≠ some id

/-- A turn of `id` splits the round. -/
theorem untilTurn_split {id : Nat} {during : List Event}
    (mem : id ∈ (turns during).map (·.id)) :
    ∃ (t : Turn) (after : List Event), t.id = id ∧
      during = untilTurn id during ++ t.event :: after := by
  induction during with
  | nil => cases mem
  | cons e during ih =>
    by_cases now : e.turn?.map (·.id) = some id
    · obtain ⟨t, turn, hid⟩ := Option.map_eq_some_iff.mp now
      refine ⟨t, during, hid, ?_⟩
      have stop : ¬decide (e.turn?.map (·.id) ≠ some id) = true := by
        rw [decide_eq_true_eq, not_not]
        exact now
      rw [untilTurn, List.takeWhile_cons, if_neg stop, turn?_eq_some.mp turn]
      rfl
    -- The first event is no turn of `id`, so the turn comes later.
    · have later : id ∈ (turns during).map (·.id) := by
        rw [turns_cons, List.map_append, List.mem_append] at mem
        refine mem.resolve_left fun first => now ?_
        obtain ⟨t, ht, hid⟩ := List.mem_map.mp first
        rw [Option.mem_toList] at ht
        rw [ht, Option.map_some, hid]
      obtain ⟨t, after, hid, split⟩ := ih later
      refine ⟨t, after, hid, ?_⟩
      rw [untilTurn, List.takeWhile_cons, if_pos (decide_eq_true now), List.cons_append]
      exact congrArg _ split

theorem filter_lt_eq_left {l r : List Nat} {k : Nat} (h : (l ++ k :: r).Pairwise (· < ·)) :
    (l ++ k :: r).filter (· < k) = l := by
  obtain ⟨-, right, across⟩ := List.pairwise_append.mp h
  have hl : l.filter (· < k) = l := by
    rw [List.filter_eq_self]
    intro a mem
    exact decide_eq_true (across a mem k List.mem_cons_self)
  have hr : (k :: r).filter (· < k) = [] := by
    rw [List.filter_eq_nil_iff]
    intro a mem
    rcases List.mem_cons.mp mem with rfl | mem
    · simp
    · have := (List.pairwise_cons.mp right).1 a mem
      simp
      omega
  rw [List.filter_append, hl, hr, List.append_nil]

/-! ### An abandoned broadcast -/

/-- At the end of `past` a packet is being handed round, and it is the turn of `k`,
whose queue is full. -/
def AbandonedFor (config : HubConfig) (k : Nat) (past : List Event) : Prop :=
  ∃ before ticket packet during,
    past = before ++ .began ⟨ticket, .packet packet⟩ :: during ∧ begun during = [] ∧
    k ∈ members past ∧ k ∉ closings past ∧
    (queuedFor k past).length = (takenBy k past).length + max config.queueCapacity 1 ∧
    (turns during).map (·.id) = (members before).filter (· < k) ∧
    ∀ id p, .queued id p ∈ during ↔
      p = packet ∧ id ∈ members before ∧ id < k ∧
        id ∉ closings (before ++ .began ⟨ticket, .packet packet⟩ :: untilTurn id during)

variable {config : HubConfig} {actions : List Action} {past rest history : List Event} {h : Hub}

/-- In a round of the blocking policy whoever has had its turn has the packet, unless
its queue had been closed. -/
theorem Run.queued_iff {before during : List Event} {ticket : Nat} {b : Broadcast}
    (run : Run config (before ++ .began ⟨ticket, .packet b.packet⟩ :: during) h)
    (policy : config.policy = .block) (r : Round before during b)
    (nodup : ((turns during).map (·.id)).Nodup) (id : Nat) (p : Packet) :
    .queued id p ∈ during ↔ p = b.packet ∧ id ∈ (turns during).map (·.id) ∧
      id ∉ closings (before ++ .began ⟨ticket, .packet b.packet⟩ :: untilTurn id during) := by
  -- The turn of `id`, in its place.
  have place : id ∈ (turns during).map (·.id) → ∃ t ∈ turns during, t.id = id ∧
      (t.outcome = .refused ↔ id ∈ closings
        (before ++ .began ⟨ticket, .packet b.packet⟩ :: untilTurn id during)) := by
    intro mem
    obtain ⟨t, after, rfl, split⟩ := untilTurn_split mem
    refine ⟨t, ?_, rfl, ?_⟩
    · rw [split, turns_turn]
      exact List.mem_append_right _ List.mem_cons_self
    · have whole : before ++ .began ⟨ticket, .packet b.packet⟩ :: during =
          (before ++ .began ⟨ticket, .packet b.packet⟩ :: untilTurn t.id during) ++
            t.event :: after := by
        rw [List.append_assoc, List.cons_append, ← split]
      rw [whole] at run
      exact run.refused_iff
  constructor
  · intro queued
    have mem : (⟨id, p, .queued⟩ : Turn) ∈ turns during := List.mem_filterMap.mpr ⟨_, queued, rfl⟩
    have had : id ∈ (turns during).map (·.id) := List.mem_map.mpr ⟨_, mem, rfl⟩
    obtain ⟨t, ht, hid, refused⟩ := place had
    obtain rfl : t = ⟨id, p, .queued⟩ := List.inj_on_of_nodup_map nodup ht mem hid
    exact ⟨r.packet _ mem, had, fun closed => by cases refused.mpr closed⟩
  · rintro ⟨rfl, had, notClosed⟩
    obtain ⟨t, ht, rfl, refused⟩ := place had
    -- Under this policy nothing else can have happened.
    have outcome : t.outcome = .queued := by
      have inHistory : t ∈ turns (before ++ .began ⟨ticket, .packet b.packet⟩ :: during) := by
        rw [turns_append, turns_cons]
        exact List.mem_append_right _ (List.mem_append_right _ ht)
      obtain ⟨s, fits⟩ := run.turn_fits inHistory
      cases outcome : t.outcome with
      | queued => rfl
      | refused => exact absurd (refused.mp outcome) notClosed
      | skipped | overflowed =>
        rw [outcome] at fits
        have := fits.2.2
        rw [policy] at this
        cases this
    obtain ⟨e, mem, turn⟩ := List.mem_filterMap.mp ht
    obtain rfl := turn?_eq_some.mp turn
    have hp := r.packet t ht
    obtain ⟨i, q, o⟩ := t
    cases outcome
    cases hp
    exact mem

/-- When the grace runs out during a broadcast, the packet has reached those before
the one that the hub waits for. -/
theorem Run.abandonedFor (run : Run config past h)
    (why : StopCause h [.expired .delivery]) : ∃ k, AbandonedFor config k past := by
  cases why with
  | abandoned b k rest s delivering front found waits overdue =>
    obtain ⟨before, ticket, during, rfl, r⟩ := run.round b delivering
    have sorted := run.pairwise_members
    rw [← r.turns, front] at sorted
    -- Turns are in the order of registration: those who had theirs are those before `k`.
    have before_k : (turns during).map (·.id) = (members before).filter (· < k) := by
      rw [← r.turns, front, filter_lt_eq_left sorted]
    have nodup : ((turns during).map (·.id)).Nodup :=
      (List.pairwise_append.mp sorted).1.imp Nat.ne_of_lt
    have policy : config.policy = .block := run.config_eq ▸ waits.policy
    have a := run.account_of_found found
    have registered := (run.orderly.underWay b delivering).isRegistered
      (front ▸ List.mem_cons_self)
    refine ⟨k, before, ticket, b.packet, during, rfl, r.noneBegun, ?_, ?_, ?_, before_k, ?_⟩
    · rw [run.members_eq]
      exact mem_registeredIds.mpr registered
    · exact a.isOpen.mp waits.isOpen
    · rw [a.intact (a.not_mem_drops waits.isOpen), List.length_append,
        run.length_of_waitsFor found waits]
      rfl
    · intro id p
      rw [run.queued_iff policy r nodup id p, before_k, List.mem_filter, decide_eq_true_eq,
        and_assoc]

/-! ### Shutdown -/

/-- When the turn of a shutdown comes, all that was accepted before it has been
applied to the end. -/
theorem Run.applied_before_shutdown (run : Run config past h) {ticket : Nat}
    (why : StopCause h [.began ⟨ticket, .shutdown⟩]) :
    (∃ later, accepted past = begun past ++ ⟨ticket, .shutdown⟩ :: later) ∧
      ∀ r ∈ begun past, Applied past r := by
  cases why with
  | asked ticket rest ready inTime front =>
    have all := run.intake.queue (by simp [ready])
    exact ⟨⟨rest, front ▸ all⟩, run.progress.all ready⟩

/-- In the course of `actions`, which had the events `history`, a step of the hub's own ended it
for good.  What was told then, and what had been done and had happened before, is as `why`
says. -/
def EndsBy (r : Runtime) (config : HubConfig) (actions : List Action) (history : List Event)
    (why : List Action → List Event → Hub → List Event → Prop) : Prop :=
  ∃ before after h₀ past told rest, actions = before ++ .work :: after ∧
    (start config).performOn? r before = some (h₀, past) ∧ h₀.phase ≠ .stopped ∧
    why before past h₀ told ∧ history = past ++ told ++ rest ∧ ∀ e ∈ rest, e.isEffect = false

/-- The hub has stopped for a reason. -/
def EndsWithReason (r : Runtime) (config : HubConfig) (actions : List Action)
    (history : List Event) : Prop :=
  EndsBy r config actions history fun before past h₀ told =>
    ∃ cause, StopReason config before past h₀ cause ∧ told = cause ++ h₀.stop.2

/-- The hub has broken down. -/
def EndsBroken (r : Runtime) (config : HubConfig) (actions : List Action)
    (history : List Event) : Prop :=
  EndsBy r config actions history fun before past h₀ told =>
    Breakdown r config before past ∧ told = h₀.breakDown.2

/-- What has happened to a hub on the runtime `r` after `actions`, which had the events
`history`: shutting down takes no longer than the grace, goes by the order of acceptance and
has a reason. -/
structure EndsInOrder (r : Runtime) (config : HubConfig) (actions : List Action)
    (history : List Event) (h : Hub) : Prop where
  /-- Where nothing proceeds and the grace since the first request has run out, the
  hub has stopped. -/
  bounded : h.isStuckOn r = true → ∀ t, firstRequest? actions = some t →
    t + config.grace ≤ elapsed actions → h.phase = .stopped
  /-- The commands taken up are the first of those accepted. -/
  inOrder : begun history <+: accepted history
  /-- All of them but the last have been applied to the end. -/
  earlier : ∀ r ∈ (begun history).dropLast, Applied history r
  /-- When the turn of a shutdown comes, all that was accepted before it has been
  applied to the end. -/
  asked : ∀ past ticket rest, history = past ++ .began ⟨ticket, .shutdown⟩ :: rest →
    (∃ later, accepted past = begun past ++ ⟨ticket, .shutdown⟩ :: later) ∧
      (∀ r ∈ begun past, Applied past r) ∧ ∀ e ∈ rest, e.isEffect = false
  /-- When the grace runs out during a broadcast, those before the one that the hub
  waits for have the packet, and nothing has an effect any more. -/
  abandoned : ∀ past rest, history = past ++ .expired .delivery :: rest →
    (∃ k, AbandonedFor config k past) ∧ ∀ e ∈ rest, e.isEffect = false
  /-- Where the runtime has room and numbers enough, the hub does not stop without a
  reason, -/
  reason : r.Suffices config actions → h.phase = .stopped →
    EndsWithReason r config actions history
  /-- and elsewhere it stops for a reason too, or else breaks down. -/
  otherwise : h.phase = .stopped →
    EndsWithReason r config actions history ∨ EndsBroken r config actions history

theorem perform?_bounded (hp : (start config).perform? actions = some (h, history))
    (stuck : h.isStuck = true) {t : Nat} (requested : firstRequest? actions = some t)
    (late : t + config.grace ≤ elapsed actions) : h.phase = .stopped := by
  have overdue := (perform?_isOverdue hp).mpr ⟨t, requested, late⟩
  rw [isStuck, Bool.and_eq_true, Option.isNone_iff_eq_none] at stuck
  -- A hub that can do nothing is in time, or has stopped.
  rcases work?_eq_none stuck.1 with
    stopped | ⟨-, inTime, -⟩ | ⟨b, id, rest, s, -, -, -, -, inTime⟩
  · exact stopped
  · rw [overdue] at inTime
    cases inTime
  · rw [overdue] at inTime
    cases inTime

/-- Where there was a reason to stop there is no more to a run. -/
theorem perform?_of_cause {e : Event}
    (hp : (start config).perform? actions = some (h, past ++ e :: rest))
    (reason : e.isCause = true) :
    (∃ h₀, Run config past h₀ ∧ StopCause h₀ [e]) ∧ h.phase = .stopped ∧
      ∀ e' ∈ rest, e'.isEffect = false := by
  obtain ⟨before, after, h₀, later, -, hb, why, ha, rfl⟩ := perform?_at_cause hp reason
  have run := run_iff_perform?.mpr ⟨_, hb⟩
  obtain ⟨stopped, silent⟩ := perform?_of_stopped ha (stop_orderly run.orderly) rfl
  refine ⟨⟨h₀, run, why⟩, stopped, fun e' mem => ?_⟩
  -- Either the stop itself tells of it, or it comes after the stop.
  rcases List.mem_append.mp mem with mem | mem
  · exact (stop_silent h₀ e' mem).1
  · exact silent e' mem

/-- A hub that does not break down ends in order. -/
theorem endsInOrder_of_perform? {r : Runtime}
    (hp : (start config).perform? actions = some (h, history))
    (same : ∀ before after, actions = before ++ after →
      (start config).performOn? r before = (start config).perform? before) :
    EndsInOrder r config actions history h := by
  have run := run_iff_perform?.mpr ⟨_, hp⟩
  have ends (stopped : h.phase = .stopped) : EndsWithReason r config actions history := by
    obtain ⟨before, after, h₀, past, cause, rest, split, hb, live, why, told, silent⟩ :=
      perform?_stopped hp stopped
    exact ⟨before, after, h₀, past, _, rest, split, (same _ _ split).trans hb, live,
      ⟨cause, why, rfl⟩, told, silent⟩
  refine ⟨fun stuck t requested late => ?_, run.intake.inOrder, run.progress.earlier, ?_, ?_,
    fun _ => ends, fun stopped => .inl (ends stopped)⟩
  · exact perform?_bounded hp (isStuck_of_isStuckOn stuck) requested late
  · rintro past ticket rest rfl
    obtain ⟨⟨h₀, run₀, why⟩, -, silent⟩ := perform?_of_cause hp rfl
    obtain ⟨next, applied⟩ := run₀.applied_before_shutdown why
    exact ⟨next, applied, silent⟩
  · rintro past rest rfl
    obtain ⟨⟨h₀, run₀, why⟩, -, silent⟩ := perform?_of_cause hp rfl
    exact ⟨run₀.abandonedFor why, silent⟩

/-- A hub that breaks down has not found a reason to stop before, and finds none later. -/
theorem endsInOrder_of_breaksDown {r : Runtime} {before after : List Action} {h₀ : Hub}
    {events : List Event} (hb : (start config).performOn? r before = some (h₀, past))
    (hb' : (start config).perform? before = some (h₀, past)) (breaks : h₀.breaksDown r = true)
    (ha : h₀.breakDown.1.performOn? r after = some (h, events)) :
    EndsInOrder r config (before ++ .work :: after) (past ++ (h₀.breakDown.2 ++ events)) h := by
  have run := run_iff_perform?.mpr ⟨_, hb'⟩
  obtain ⟨live, -⟩ := breaksDown_cases breaks
  have broken := breakdown_of_breaksDown hb' breaks
  obtain ⟨stopped, silent⟩ := silent_of_breaksDown hb' ha
  have noneBegun : begun (h₀.breakDown.2 ++ events) = [] :=
    begun_eq_nil fun e mem => (silent e mem).1
  have noneAccepted : accepted (h₀.breakDown.2 ++ events) = [] :=
    accepted_eq_nil fun e mem => (silent e mem).1
  have sameBegun : begun (past ++ (h₀.breakDown.2 ++ events)) = begun past := by
    rw [begun_append, noneBegun, List.append_nil]
  -- While it was at work there was no reason, and there is none in what follows.
  have noCause : ∀ e ∈ past ++ (h₀.breakDown.2 ++ events), e.isCause = false := by
    intro e mem
    rcases List.mem_append.mp mem with earlier | later
    · by_contra reason
      obtain ⟨pre, post, rfl⟩ := List.append_of_mem earlier
      exact live (perform?_of_cause hb' (Bool.not_eq_false _ ▸ reason)).2.1
    · exact (silent e later).2
  refine ⟨fun _ _ _ _ => stopped, ?_, ?_, ?_, ?_, ?_, fun _ => .inr ?_⟩
  · rw [sameBegun, accepted_append, noneAccepted, List.append_nil]
    exact run.intake.inOrder
  · rw [sameBegun]
    exact fun r mem => (run.progress.earlier r mem).append _
  · intro past' ticket rest split
    cases noCause (.began ⟨ticket, .shutdown⟩) (by simp [split])
  · intro past' rest split
    cases noCause (.expired .delivery) (by simp [split])
  · exact fun enough => absurd enough (broken.not_suffices _)
  · exact ⟨before, after, h₀, past, _, events, rfl, hb, live, ⟨broken, rfl⟩,
      (List.append_assoc _ _ _).symm, fun e mem => (silent e (List.mem_append_right _ mem)).1⟩

/-- However a hub is used, it ends in order, and on a runtime that has what its configuration
asks for it ends for a reason. -/
theorem shutdown_inOrder {r : Runtime}
    (hp : (start config).performOn? r actions = some (h, history)) :
    EndsInOrder r config actions history h := by
  rcases performOn?_cases hp with ⟨whole, same⟩ |
    ⟨before, after, h₀, past, rest, rfl, hb, hb', breaks, ha, rfl⟩
  · exact endsInOrder_of_perform? whole same
  · exact endsInOrder_of_breaksDown hb hb' breaks ha

/-- Subscriber 0 has taken its first packet and gets the second, for which subscriber
1 has no room until the grace is over. -/
theorem shutdown_while_stalled :
    ∃ actions past rest h, (start ⟨1, 1, .block, 10⟩).performOn? .standard actions =
        some (h, past ++ .expired .delivery :: rest) ∧
      queuedFor 0 past = [[1], [2]] ∧ queuedFor 1 past = [[1]] ∧
      (∃ k, AbandonedFor ⟨1, 1, .block, 10⟩ k past) ∧ (∀ e ∈ rest, e.isEffect = false) ∧
      Runtime.standard.Suffices ⟨1, 1, .block, 10⟩ actions ∧
      EndsWithReason .standard ⟨1, 1, .block, 10⟩ actions (past ++ .expired .delivery :: rest) := by
  obtain ⟨h, history, actions, hp, split, q₀, q₁, requested, stopped⟩ : ∃ h history actions,
      (start ⟨1, 1, .block, 10⟩).performOn? .standard actions = some (h, history) ∧
      history = history.take 23 ++ .expired .delivery :: history.drop 24 ∧
      queuedFor 0 (history.take 23) = [[1], [2]] ∧ queuedFor 1 (history.take 23) = [[1]] ∧
      firstRequest? actions = some 0 ∧ h.phase = .stopped :=
    ⟨_, _, [.call .register, .enqueue, .work, .call .register, .enqueue, .work,
      .call (.packet [1]), .enqueue, .work, .work, .work, .work, .take 0,
      .call (.packet [2]), .enqueue, .work, .work, .call .shutdown, .advance 10, .work,
      .close 1], rfl, rfl, rfl, rfl, rfl, rfl⟩
  have inOrder := shutdown_inOrder hp
  have enough : Runtime.standard.Suffices ⟨1, 1, .block, 10⟩ actions := by
    refine ⟨by decide, fun t first => ?_⟩
    obtain rfl := Option.some.inj (requested.symm.trans first)
    decide
  obtain ⟨given, silent⟩ := inOrder.abandoned _ _ split
  exact ⟨actions, _, _, h, split ▸ hp, q₀, q₁, given, silent, enough,
    split ▸ inOrder.reason enough stopped⟩

/-- Whose turn it is when the hub takes its one step decides whether it may stop: while another
command than a shutdown is next, and the grace has not run out, there is no reason to. -/
theorem not_endsWithReason {r : Runtime} {before : List Action} {h₀ : Hub}
    (noWork : .work ∉ before) (hb : (start config).performOn? r before = some (h₀, past))
    {next : Request} {later : List Request} (line : accepted past = begun past ++ next :: later)
    (other : next.command ≠ .shutdown)
    (inTime : ∀ t, firstRequest? before = some t → elapsed before < t + config.grace) :
    ¬EndsWithReason r config (before ++ [.work]) history := by
  rintro ⟨before', after, h₁, past', told, rest, split, hb', -, ⟨cause, why, -⟩, -⟩
  obtain ⟨rfl, -, rfl⟩ :=
    (List.append_cons_inj_of_notMem noWork List.not_mem_nil).mp split
  cases hb.symm.trans hb'
  cases why with
  | asked ticket later' ready next' =>
    obtain ⟨rfl, -⟩ := List.cons_eq_cons.mp (List.append_cancel_left (line.symm.trans next'))
    exact other rfl
  | deadline place t requested late => exact absurd late (Nat.not_le.mpr (inTime t requested))
  | unreachable ready noHandle noCall allBegun =>
    rw [allBegun] at line
    simp at line

/-- A queue for so many packets cannot be made, and the hub ends with the registration of its
first subscriber, who is told that it is closed.  So long a grace has no end that can be told,
and the hub ends with the request for a shutdown, before it takes up the packet that was
accepted earlier. -/
theorem broken_without_reason :
    (∃ h history, (start ⟨UInt64.size - 1, 30, .block, 1000⟩).performOn? .standard
        [.call .register, .enqueue, .work] = some (h, history) ∧
      h.phase = .stopped ∧ .returned 0 .closed ∈ history ∧
      ¬EndsWithReason .standard ⟨UInt64.size - 1, 30, .block, 1000⟩
        [.call .register, .enqueue, .work] history) ∧
    ∃ h history, (start ⟨30, 30, .block, UInt64.size * 1000 - 1⟩).performOn? .standard
        [.call (.packet [1]), .enqueue, .call .shutdown, .work] = some (h, history) ∧
      h.phase = .stopped ∧ accepted history = [⟨0, .packet [1]⟩] ∧ begun history = [] ∧
      ¬EndsWithReason .standard ⟨30, 30, .block, UInt64.size * 1000 - 1⟩
        [.call (.packet [1]), .enqueue, .call .shutdown, .work] history := by
  constructor
  · refine ⟨_, _, rfl, rfl, by decide, ?_⟩
    show ¬EndsWithReason .standard _ ([.call .register, .enqueue] ++ [.work]) _
    exact not_endsWithReason (by decide) rfl rfl (by decide) (by decide)
  · refine ⟨_, _, rfl, rfl, rfl, rfl, ?_⟩
    show ¬EndsWithReason .standard _ ([.call (.packet [1]), .enqueue, .call .shutdown] ++ [.work]) _
    exact not_endsWithReason (by decide) rfl rfl (by decide) (by decide)

end Hub

end VideoRelay

/-
Calls that are given up.

* `withoutCaller`, `Transition.withoutCaller` — as long as a caller waits in the line, every
  action comes to the same as it would without it;
* `Run.as_if_not_called` — so a call that is given up there might as well not have been made;
* `Run.never_accepted` — its command is never taken up;
* `Run.applied_of_begun` — a command that was accepted is applied when its turn comes, whoever
  waits for it.

Design notes: the caller in the line has an effect on those behind it as long as it is there,
since they have to wait for it.  What is compared is therefore a course of actions and its
result: whatever was possible with the caller in the line was possible without it.
-/
import VideoRelay.Proofs.Hub.Answers
import VideoRelay.Proofs.Hub.Correspondence
import VideoRelay.Proofs.Hub.Rounds

namespace VideoRelay

namespace Hub

/-- The hub without the caller of `t` in the line. -/
def withoutCaller (t : Nat) (h : Hub) : Hub :=
  { h with waiting := h.waiting.filter fun r => r.ticket ≠ t }

/-! ### Without a caller in the line -/

section Steps

variable {h h' : Hub} {action : Action} {events : List Event} {t : Nat}

/-- Whoever is in the line has been there before, or has just called. -/
theorem Transition.waited (tr : Transition h action events h')
    (waits : t ∈ h'.waiting.map (·.ticket)) :
    t ∈ h.waiting.map (·.ticket) ∨ t = h.nextTicket := by
  cases tr with
  | caller s =>
    cases s with
    | call command live =>
      rw [List.map_append, List.mem_append] at waits
      exact waits.imp_right List.mem_singleton.mp
    | cancelWaiting ticket mem => exact .inl ((List.filter_sublist.map _).subset waits)
    | accept request rest front room wants =>
      rw [front]
      exact .inl (List.mem_cons_of_mem _ waits)
    | acceptAndReturn request rest front room wants =>
      rw [front]
      exact .inl (List.mem_cons_of_mem _ waits)
    | _ => exact .inl waits
  | reader s =>
    rw [s.frame] at waits
    exact .inl waits
  | work own s => exact .inl ((s.line.2.2.map _).subset waits)

theorem Transition.nextTicket_le (tr : Transition h action events h') :
    h.nextTicket ≤ h'.nextTicket := by
  cases tr with
  | caller s => cases s <;> simp [cloneHandle, dropHandle]
  | reader s => rw [s.frame]
  | work own s =>
    cases s with
    | «begin» request rest events h' ready inTime front s => rw [s.calls.1]
    | finish b => rw [finish_fst]; exact Nat.le_refl _
    | _ => exact Nat.le_refl _

theorem perform?_waited {actions : List Action} (hp : h.perform? actions = some (h', events))
    (known : t < h.nextTicket) (waits : t ∈ h'.waiting.map (·.ticket)) :
    t ∈ h.waiting.map (·.ticket) := by
  induction actions generalizing h events with
  | nil =>
    obtain ⟨rfl, rfl⟩ := by simpa [perform?] using hp
    exact waits
  | cons action actions ih =>
    obtain ⟨mid, first, others, hs, hr, rfl⟩ := perform?_cons.mp hp
    have tr := Transition.of_step? hs
    have waited := ih hr (Nat.lt_of_lt_of_le known tr.nextTicket_le)
    exact (tr.waited waited).resolve_right (Nat.ne_of_lt known)

/-- Whoever stands behind is accepted in the same way. -/
theorem withoutCaller_front {request : Request} {rest : List Request}
    (front : h.waiting = request :: rest) (nodup : (h.waiting.map (·.ticket)).Nodup)
    (waits : t ∈ rest.map (·.ticket)) :
    (h.withoutCaller t).waiting = request :: rest.filter fun r => r.ticket ≠ t := by
  rw [front, List.map_cons, List.nodup_cons] at nodup
  have other : request.ticket ≠ t := fun heq => nodup.1 (heq ▸ waits)
  rw [withoutCaller, front, List.filter_cons_of_pos (by simpa using other)]

theorem CallerStep.withoutCaller (s : CallerStep h action events h') (known : t < h.nextTicket)
    (nodup : (h.waiting.map (·.ticket)).Nodup) (waits : t ∈ h'.waiting.map (·.ticket)) :
    CallerStep (h.withoutCaller t) action events (h'.withoutCaller t) := by
  cases s with
  | call command live =>
    have new : h.nextTicket ≠ t := Nat.ne_of_gt known
    show CallerStep (h.withoutCaller t) _ _ { h.withoutCaller t with
      nextTicket := h.nextTicket + 1
      requestedAt? := h.requestedAfter command
      waiting := (h.waiting ++ [(⟨h.nextTicket, command⟩ : Request)]).filter
        fun r => r.ticket ≠ t }
    rw [List.filter_append, List.filter_cons_of_pos (by simpa using new)]
    exact .call command live
  | refuse command stopped => exact .refuse command stopped
  | cancelWaiting ticket mem =>
    obtain ⟨r, kept, rfl⟩ := List.mem_map.mp waits
    obtain ⟨-, other⟩ := List.mem_filter.mp kept
    have mem' : ticket ∈ (h.withoutCaller r.ticket).waiting.map (·.ticket) := by
      obtain ⟨q, inLine, rfl⟩ := List.mem_map.mp mem
      have other' : q.ticket ≠ r.ticket := Ne.symm (of_decide_eq_true other)
      exact List.mem_map_of_mem (List.mem_filter.mpr ⟨inLine, decide_eq_true other'⟩)
    have s : CallerStep (h.withoutCaller r.ticket) _ _ _ := .cancelWaiting ticket mem'
    show CallerStep (h.withoutCaller r.ticket) _ _ { h.withoutCaller r.ticket with
      waiting := (h.waiting.filter fun q => q.ticket ≠ ticket).filter
        fun q => q.ticket ≠ r.ticket }
    rw [List.filter_filter, List.filter_congr fun _ _ => Bool.and_comm _ _, ← List.filter_filter]
    exact s
  | cancelAnswer ticket mem => exact .cancelAnswer ticket mem
  | accept request rest front room wants =>
    exact .accept request _ (withoutCaller_front front nodup waits) room wants
  | acceptAndReturn request rest front room wants =>
    exact .acceptAndReturn request _ (withoutCaller_front front nodup waits) room wants
  | cloneHandle => exact .cloneHandle
  | dropHandle => exact .dropHandle
  | advance milliseconds => exact .advance milliseconds

theorem ReaderStep.withoutCaller (t : Nat) (s : ReaderStep h action events h') :
    ReaderStep (h.withoutCaller t) action events (h'.withoutCaller t) := by
  cases s with
  | take id s packet rest found front => exact .take id s packet rest found front
  | close id s found => exact .close id s found
  | discard id s found => exact .discard id s found

/-- As long as somebody waits in the line the hub goes on. -/
theorem WorkStep.withoutCaller (s : WorkStep h events h')
    (waits : t ∈ h'.waiting.map (·.ticket)) :
    WorkStep (h.withoutCaller t) events (h'.withoutCaller t) := by
  have live : h'.phase ≠ .stopped := by
    rcases s.stops_or_live with ⟨cause, why, rfl, rfl⟩ | live
    · cases waits
    · exact live
  have tr : Transition h .work events h' := .work rfl s
  have same : h'.refit h.config (h.waiting.filter fun r => r.ticket ≠ t) =
      h'.withoutCaller t := by
    rw [← s.waiting_eq live, ← tr.config_eq]
    rfl
  exact same ▸ s.refit h.config _ live rfl rfl (.inl rfl)

/-- What an action does while the caller of `t` is in the line, it does without it. -/
theorem step?_withoutCaller {history : List Event} (l : Ledger history h)
    (hs : h.step? action = some (h', events)) (known : t < h.nextTicket)
    (waits : t ∈ h'.waiting.map (·.ticket)) :
    (h.withoutCaller t).step? action = some (h'.withoutCaller t, events) := by
  have held : action.needsHandle = true → 0 < h.handles := needsHandle_of_step? hs
  have apart : (h.withoutCaller t).IsApart := fun ticket mem inLine =>
    l.not_waiting mem ((List.filter_sublist.map _).subset inLine)
  have nodup : (h.waiting.map (·.ticket)).Nodup :=
    l.nodup.sublist ((List.sublist_append_left _ _).map _)
  refine Transition.step? ?_ apart held
  cases Transition.of_step? hs with
  | caller s => exact .caller (s.withoutCaller known nodup waits)
  | reader s => exact .reader (s.withoutCaller t)
  | work own s => exact .work own (s.withoutCaller waits)

end Steps

section Runs

variable {config : HubConfig} {history events : List Event} {h h' : Hub} {t : Nat}

/-- A course at whose end the caller of `t` still waits for room comes to the same without
it. -/
theorem Run.perform?_withoutCaller (run : Run config history h) {actions : List Action}
    (hp : h.perform? actions = some (h', events)) (known : t < h.nextTicket)
    (waits : t ∈ h'.waiting.map (·.ticket)) :
    (h.withoutCaller t).perform? actions = some (h'.withoutCaller t, events) := by
  have seen := perform?_seen (f := Hub.withoutCaller t) (α := id) (ε := id)
    (I := fun h => (∃ history, Run config history h) ∧ t < h.nextTicket) ?_ ⟨⟨_, run⟩, known⟩ hp
  · rwa [List.map_id, List.map_id] at seen
  · rintro h action mid events rest others ⟨⟨history, run⟩, known⟩ - hs hr
    have known' := Nat.lt_of_lt_of_le known (Transition.of_step? hs).nextTicket_le
    have waits' := perform?_waited hr known' waits
    rw [List.map_id]
    exact ⟨step?_withoutCaller run.ledger hs known waits', ⟨_, run.step hs⟩, known'⟩

/-- The call of whoever is in the line. -/
theorem Transition.of_call {action : Action} {r : Request} (tr : Transition h action events h')
    (called : r ∈ calls events) (live : h'.phase ≠ .stopped) :
    action = .call r.command ∧ r.ticket = h.nextTicket ∧ events = [.called r] ∧
      h' = { h with
        nextTicket := h.nextTicket + 1
        requestedAt? := h.requestedAfter r.command
        waiting := h.waiting ++ [r] } := by
  cases tr with
  | caller s =>
    cases s with
    | call command live =>
      obtain rfl : r = ⟨h.nextTicket, command⟩ := by simpa [calls] using called
      exact ⟨rfl, rfl, rfl, rfl⟩
    | refuse command stopped => exact absurd stopped live
    | _ => cases called
  | reader s =>
    rw [calls_eq_nil s.uncalled.openedCalls] at called
    cases called
  | work own s =>
    rw [s.line.1] at called
    cases called

/-- The hub with a call begun whose caller is not in the line: what is left of it are its
ticket and the time of the first request for a shutdown. -/
def afterCall (h : Hub) (command : Command) : Hub :=
  { h with
    nextTicket := h.nextTicket + 1
    requestedAt? := h.requestedAfter command }

/-- A caller that waits for room might as well not have called. -/
theorem as_if_not_called {actions : List Action}
    (hp : (start config).perform? actions = some (h, history))
    (waits : t ∈ h.waiting.map (·.ticket)) :
    ∃ before command between h₀ earlier during, actions = before ++ .call command :: between ∧
      (start config).perform? before = some (h₀, earlier) ∧ h₀.nextTicket = t ∧
      history = earlier ++ .called ⟨t, command⟩ :: during ∧
      (h₀.afterCall command).perform? between = some (h.withoutCaller t, during) := by
  have run := run_iff_perform?.mpr ⟨_, hp⟩
  obtain ⟨r, inLine, rfl⟩ := List.mem_map.mp waits
  have called := run.mem_calls (List.mem_append_left _ inLine)
  obtain ⟨e, mem, told⟩ := List.mem_filterMap.mp called
  obtain rfl : e = .called r := by
    cases e with
    | called request => rw [Option.some.inj told]
    | _ => cases told
  obtain ⟨past, rest, rfl⟩ := List.append_of_mem mem
  obtain ⟨before, action, between, h₀, h₁, earlier, pre, post, later, rfl, hb, hs, ha, rfl, rfl⟩ :=
    perform?_split hp
  have run₀ := run_iff_perform?.mpr ⟨_, hb⟩
  have run₁ := run₀.step hs
  have tr := Transition.of_step? hs
  have now : r ∈ calls (pre ++ .called r :: post) :=
    List.mem_filterMap.mpr ⟨_, List.mem_append_right _ List.mem_cons_self, rfl⟩
  have known : r.ticket < h₁.nextTicket := by
    rw [← List.mem_range, ← run₁.ledger.opened, ← map_ticket_calls, calls_append]
    exact List.mem_map_of_mem (List.mem_append_right _ now)
  -- It waits still, so the hub was not stopped when it called.
  have live : h₁.phase ≠ .stopped := by
    intro stopped
    have waited := perform?_waited ha known waits
    rw [(run₁.orderly.stopped stopped).2.1] at waited
    cases waited
  obtain ⟨rfl, new, alone, rfl⟩ := tr.of_call now live
  obtain ⟨rfl, -, rfl⟩ := first_of_step (f := Event.called?) rfl rfl alone
  have same : Hub.withoutCaller r.ticket { h₀ with
      nextTicket := h₀.nextTicket + 1
      requestedAt? := h₀.requestedAfter r.command
      waiting := h₀.waiting ++ [r] } = h₀.afterCall r.command := by
    have others : h₀.waiting.filter (fun q => q.ticket ≠ r.ticket) = h₀.waiting := by
      refine List.filter_eq_self.mpr fun q mem => decide_eq_true ?_
      rw [new]
      exact Nat.ne_of_lt (run₀.ledger.known q (List.mem_append_left _ mem))
    rw [Hub.withoutCaller, List.filter_append, others,
      List.filter_cons_of_neg (by simp), List.filter_nil, List.append_nil, afterCall]
  refine ⟨before, r.command, between, h₀, earlier, later, rfl, hb, new.symm, by simp, ?_⟩
  rw [← same]
  exact run₁.perform?_withoutCaller ha known waits

/-- A command whose caller gave up in the line never enters the queue. -/
theorem Run.never_accepted (run : Run config history h) {actions : List Action}
    (hp : h.perform? actions = some (h', events)) (gone : .cancelled t ∈ history)
    (notYet : t ∉ (accepted history).map (·.ticket)) :
    t ∉ (accepted (history ++ events)).map (·.ticket) := by
  rw [accepted_append, List.map_append, List.mem_append]
  refine not_or.mpr ⟨notYet, fun later => ?_⟩
  obtain ⟨r, mem, rfl⟩ := List.mem_map.mp later
  obtain ⟨e, inEvents, told⟩ := List.mem_filterMap.mp mem
  obtain ⟨before, h₀, earlier, action, h₁, now, hb, hs, inNow⟩ := perform?_of_mem hp inEvents
  have enters : r ∈ accepted now := List.mem_filterMap.mpr ⟨e, inNow, told⟩
  have waits := ((Transition.of_step? hs).of_accepted enters).1
  -- Whoever has given up does not wait.
  have l := (run.perform? hb).ledger
  have inLine : r.ticket ∈ h₀.waiting.map (·.ticket) := List.mem_map_of_mem waits
  refine (l.pending _ (l.lt_of_waiting inLine)).mpr (.inl inLine) ?_
  exact List.mem_filterMap.mpr ⟨_, List.mem_append_left _ gone, rfl⟩

/-- A command taken up, if it is not a packet, is applied at once. -/
theorem Run.applied_of_begun (run : Run config history h) {r : Request} (mem : r ∈ begun history)
    (notPacket : ∀ packet, r.command ≠ .packet packet) : Applied history r := by
  induction run with
  | start => cases mem
  | @step history events h h' action run hs ih =>
    rw [begun_append, List.mem_append] at mem
    rcases mem with before | now
    · exact (ih before).append events
    · have tr := Transition.of_step? hs
      cases tr with
      | caller s =>
        rw [s.begun] at now
        cases now
      | reader s =>
        rw [s.uncalled.begun] at now
        cases now
      | work own s =>
        cases s with
        | turn b id rest s outcome =>
          rw [(turn_uncalled _).begun] at now
          cases now
        | pass => cases now
        | finish b =>
          rw [(finish_uncalled h b).begun] at now
          cases now
        | «begin» request rest events h' ready inTime front s =>
          obtain ⟨-, -, -, -, -, none, -⟩ := s.calls
          rw [begun_cons, none] at now
          obtain rfl : r = request := by simpa using now
          refine s.applied run.ledger run.members_eq front ?_
          cases s with
          | packet ticket packet => exact absurd rfl (notPacket packet)
          | _ => exact ready
        | stop cause why =>
          rw [begun_append, begun_stop, List.append_nil] at now
          cases why with
          | asked ticket rest ready inTime front =>
            obtain rfl : r = ⟨ticket, .shutdown⟩ := by simpa using now
            exact ⟨history, h.stop.2, [], by simp, begun_stop h, _, _, List.mem_cons_self⟩
          | expired | abandoned | unreachable => cases now

end Runs

/-! ### What becomes of a call that is given up -/

/-- What is left of the call with the ticket `t` after it was given up by an action that led
from `h` to `h'`, and before its command was in the queue.  The hub was `h` after `actions`,
of which `history` tells. -/
structure NeverMade (config : HubConfig) (t : Nat) (actions : List Action) (history : List Event)
    (h h' : Hub) : Prop where
  /-- The others in the line and in the queue are where they were. -/
  alone : h' = { h with waiting := h.waiting.filter fun r => r.ticket ≠ t }
  /-- The actions before the call and those after it would have led to the same hub if the call
  had not been made, but for its ticket and the time of the first request for a shutdown. -/
  asIf : ∃ before command between h₀ earlier during,
    actions = before ++ .call command :: between ∧
    (start config).perform? before = some (h₀, earlier) ∧ h₀.nextTicket = t ∧
    history = earlier ++ .called ⟨t, command⟩ :: during ∧
    (h₀.afterCall command).perform? between = some (h', during)
  /-- Whatever is done later, the command neither enters the queue nor is taken up. -/
  never : ∀ {more last later}, h'.perform? more = some (last, later) →
    t ∉ (accepted (history ++ .cancelled t :: later)).map (·.ticket) ∧
      t ∉ (begun (history ++ .cancelled t :: later)).map (·.ticket)

/-- What becomes of a command in the queue, whoever waits for its answer or does not. -/
structure StaysAccepted (history : List Event) (h : Hub) (r : Request) : Prop where
  /-- Whoever wants no answer has been told, and has nothing to give up any more. -/
  returned : r.command.wantsAnswer = false → h.step? (.cancel r.ticket) = none
  /-- To give up the answer changes nothing else. -/
  answer : ∀ {h' events}, h.step? (.cancel r.ticket) = some (h', events) →
    h' = { h with unanswered := h.unanswered.filter (· ≠ r.ticket) }
  /-- Commands are taken up in the order in which they were accepted, none is left out, -/
  inTurn : ∀ {more last later}, h.perform? more = some (last, later) →
    begun (history ++ later) <+: accepted (history ++ later) ∧
      (last.phase ≠ .stopped → r ∈ begun (history ++ later) ∨ r ∈ last.commands)
  /-- and what is taken up is applied, a packet when its broadcast is over. -/
  applied : ∀ {more last later}, h.perform? more = some (last, later) →
    r ∈ begun (history ++ later) →
    last.phase = .ready ∨ (∀ packet, r.command ≠ .packet packet) → Applied (history ++ later) r

section GivenUp

variable {config : HubConfig} {history events : List Event} {h h' : Hub} {t : Nat}

theorem Run.accepted_of_commands (run : Run config history h) {r : Request} (mem : r ∈ h.commands) :
    r ∈ accepted history := by
  have live : h.phase ≠ .stopped := by
    intro stopped
    rw [(run.orderly.stopped stopped).1] at mem
    cases mem
  rw [run.intake.queue live]
  exact List.mem_append_right _ mem

theorem neverMade {actions : List Action}
    (hp : (start config).perform? actions = some (h, history))
    (hs : h.step? (.cancel t) = some (h', events))
    (notYet : t ∉ (accepted history).map (·.ticket)) :
    events = [.cancelled t] ∧ NeverMade config t actions history h h' := by
  have run := run_iff_perform?.mpr ⟨_, hp⟩
  have l := run.ledger
  have run' := run.step hs
  cases cancel?_callerStep hs with
  | cancelAnswer ticket mem =>
    -- Whoever waits for an answer has its command in the queue.
    obtain ⟨r, inQueue, rfl, -⟩ := l.awaited t mem
    exact absurd (List.mem_map_of_mem (run.accepted_of_commands inQueue)) notYet
  | cancelWaiting ticket waits =>
    refine ⟨rfl, rfl, as_if_not_called hp waits, fun {more last later} hm => ?_⟩
    have notYet' : t ∉ (accepted (history ++ [.cancelled t])).map (·.ticket) := by
      simpa using notYet
    have never := run'.never_accepted hm
      (List.mem_append_right _ List.mem_cons_self) notYet'
    have run'' := run'.perform? hm
    rw [List.append_assoc] at never run''
    exact ⟨never, fun mem => never ((run''.intake.inOrder.sublist.map _).subset mem)⟩

theorem Run.staysAccepted (run : Run config history h) {r : Request}
    (inQueue : r ∈ accepted history) : StaysAccepted history h r where
  returned wants := by
    obtain ⟨notInLine, notOwed, -⟩ := run.not_due inQueue wants
    rw [step?, cancel?, if_neg (by simpa using notInLine), if_neg notOwed]
  answer {h' events} hs := by
    cases cancel?_callerStep hs with
    | cancelAnswer ticket mem => rfl
    | cancelWaiting ticket waits => exact absurd waits (run.not_in_line inQueue)
  inTurn {more last later} hp := by
    have intake := (run.perform? hp).intake
    refine ⟨intake.inOrder, fun live => ?_⟩
    rw [← List.mem_append, ← intake.queue live, accepted_append]
    exact List.mem_append_left _ inQueue
  applied {more last later} hp mem finished := by
    have run' := run.perform? hp
    rcases finished with ready | notPacket
    · exact run'.progress.all ready r mem
    · exact run'.applied_of_begun mem notPacket

end GivenUp

end Hub

end VideoRelay

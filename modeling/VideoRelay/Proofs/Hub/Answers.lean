/-
What callers are told.

* `Answer`, `Transition.answer` — the replies that a step can bring, each with what
  happens besides;
* `Run.accepted_of_returned` — whoever is told that its command was accepted has it in
  the queue, unless it asked for a shutdown;
* `Run.registered_of_returned` — whoever is told a number has a subscriber registered;
* `Run.reply_of_packet` — a packet is accepted or refused, and its caller is told which.
-/
import VideoRelay.Proofs.Hub.Lineup

namespace VideoRelay

namespace Hub

/-- Why a step that brings `events` tells the caller of `ticket` the reply. -/
inductive Answer (h : Hub) (events : List Event) (ticket : Nat) : Reply → Prop
  | accepted (command : Command) (mem : ⟨ticket, command⟩ ∈ Hub.accepted events) :
    Answer h events ticket .accepted
  | subscribed (id : Nat)
      (alone : events = [.began ⟨ticket, .register⟩, .registered ticket id,
        .returned ticket (.subscribed id)]) :
    Answer h events ticket (.subscribed id)
  | report (ready : h.phase = .ready)
      (alone : events = [.began ⟨ticket, .stats⟩, .returned ticket (.report h.report)]) :
    Answer h events ticket (.report h.report)
  /-- The hub has stopped, or stops now. -/
  | stopped (command : Command)
      (known : ⟨ticket, command⟩ ∈ h.waiting ∨ ⟨ticket, command⟩ ∈ calls events) :
    Answer h events ticket command.whenStopped
  | closed : Answer h events ticket .closed

section Steps

variable {h h' : Hub} {events : List Event} {ticket : Nat} {reply : Reply}

theorem CallerStep.answer {action : Action} (s : CallerStep h action events h')
    (mem : .returned ticket reply ∈ events) : Answer h events ticket reply := by
  cases s with
  | refuse command stopped =>
    obtain ⟨rfl, rfl⟩ := by simpa using mem
    exact .stopped command (.inr List.mem_cons_self)
  | acceptAndReturn request rest front room wants =>
    obtain ⟨rfl, rfl⟩ := by simpa using mem
    exact .accepted request.command List.mem_cons_self
  | _ => simp at mem

theorem BeginStep.answer {request : Request} {rest : List Request} (ready : h.phase = .ready)
    (s : BeginStep h rest request events h') (mem : .returned ticket reply ∈ events) :
    Answer h (.began request :: events) ticket reply := by
  cases s with
  | register asked awaited =>
    obtain ⟨rfl, rfl⟩ := by simpa using mem
    exact .subscribed _ rfl
  | stats asked awaited =>
    obtain ⟨rfl, rfl⟩ := by simpa using mem
    exact .report ready rfl
  | unregister asked id =>
    have never : ∀ e ∈ ({ h with commands := rest }.remove id .unregistered).2,
        e ≠ .returned ticket reply :=
      forall_mem_remove (fun _ _ _ _ _ => by simp) _ id .unregistered
    exact absurd rfl (never _ mem)
  | _ => simp at mem

/-- Every reply has its reason. -/
theorem Transition.answer {action : Action} (tr : Transition h action events h')
    (mem : .returned ticket reply ∈ events) : Answer h events ticket reply := by
  cases tr with
  | caller s => exact s.answer mem
  | reader s => cases s <;> simp at mem
  | work own s =>
    cases s with
    | turn b id rest s outcome delivering front found fits =>
      cases outcome <;> simp [Turn.event] at mem
    | pass b id rest delivering front unknown => cases mem
    | finish b delivering noneLeft =>
      have never : ∀ e ∈ (h.finish b).2, e ≠ .returned ticket reply :=
        forall_mem_finish (fun _ _ _ _ _ => by simp) h b
      exact absurd rfl (never _ mem)
    | «begin» request rest events h' ready inTime front s =>
      exact s.answer ready ((List.mem_cons.mp mem).resolve_left (by simp))
    | stop cause why =>
      rw [List.mem_append, stop, List.mem_append, List.mem_cons, List.mem_map, List.mem_map] at mem
      rcases mem with told | (told | ⟨r, waits, told⟩) | ⟨t, -, told⟩
      · cases why <;> simp at told
      · cases told
      · cases told
        exact .stopped r.command (.inl waits)
      · cases told
        exact .closed

end Steps

variable {config : HubConfig} {history : List Event} {h : Hub} {ticket : Nat}

/-- Whoever is told that its command was accepted has it in the queue, or asked for a
shutdown. -/
theorem Run.accepted_or_shutdown (run : Run config history h)
    (mem : .returned ticket .accepted ∈ history) :
    (∃ command, ⟨ticket, command⟩ ∈ accepted history) ∨ ⟨ticket, .shutdown⟩ ∈ calls history := by
  generalize told : Reply.accepted = reply at mem
  induction run with
  | start => cases mem
  | step run hs ih =>
    rw [accepted_append, calls_append]
    rcases List.mem_append.mp mem with before | now
    · refine (ih before).imp ?_ (List.mem_append_left _)
      rintro ⟨command, mem⟩
      exact ⟨command, List.mem_append_left _ mem⟩
    · cases (Transition.of_step? hs).answer now with
      | accepted command inQueue => exact .inl ⟨command, List.mem_append_right _ inQueue⟩
      | stopped command known =>
        -- Only a shutdown has what it wants when the hub stops.
        obtain rfl : command = .shutdown := by
          cases command with
          | shutdown => rfl
          | _ => cases told
        refine .inr (List.mem_append.mpr (known.imp_left fun waits => ?_))
        exact run.mem_calls (List.mem_append_left _ waits)
      | _ => cases told

theorem Run.accepted_of_returned (run : Run config history h)
    (mem : .returned ticket .accepted ∈ history) {command : Command}
    (called : ⟨ticket, command⟩ ∈ calls history) (notShutdown : command ≠ .shutdown) :
    ⟨ticket, command⟩ ∈ accepted history := by
  rcases run.accepted_or_shutdown mem with ⟨other, inQueue⟩ | asked
  · have same := run.call_unique called (run.accepted_sublist.subset inQueue) rfl
    exact same ▸ inQueue
  · have same := run.call_unique called asked rfl
    exact absurd (congrArg Request.command same) notShutdown

/-- Whoever is told a number has a subscriber registered. -/
theorem Run.registered_of_returned (run : Run config history h) {id : Nat}
    (mem : .returned ticket (.subscribed id) ∈ history) : id ∈ registrations history := by
  generalize told : Reply.subscribed id = reply at mem
  induction run with
  | start => cases mem
  | step run hs ih =>
    rw [registrations_append, List.mem_append]
    rcases List.mem_append.mp mem with before | now
    · exact .inl (ih before)
    · cases (Transition.of_step? hs).answer now with
      | subscribed id' alone =>
        cases told
        exact .inr (alone ▸ List.mem_cons_self)
      | stopped command known => cases command <;> cases told
      | _ => cases told

/-! ### Packets -/

section Steps

variable {h h' : Hub} {action : Action} {events : List Event}

/-- A command that enters the queue was the first in the line, and nobody else is told
anything. -/
theorem Transition.of_accepted (tr : Transition h action events h') {r : Request}
    (mem : r ∈ accepted events) : r ∈ h.waiting ∧
      (events = [.accepted r] ∨ events = [.accepted r, .returned r.ticket .accepted]) := by
  cases tr with
  | caller s =>
    cases s with
    | accept request rest front =>
      obtain rfl : r = request := by simpa [accepted] using mem
      exact ⟨front ▸ List.mem_cons_self, .inl rfl⟩
    | acceptAndReturn request rest front =>
      obtain rfl : r = request := by simpa [accepted] using mem
      exact ⟨front ▸ List.mem_cons_self, .inr rfl⟩
    | _ => cases mem
  | reader s =>
    rw [s.uncalled.accepted] at mem
    cases mem
  | work own s =>
    rw [s.line.2.1] at mem
    cases mem

/-- A call that ends has waited until then, for room or for an answer, or has just begun. -/
theorem Transition.due_of_ended (tr : Transition h action events h') {ticket : Nat}
    (mem : ticket ∈ endedCalls events) :
    ticket ∈ h.waiting.map (·.ticket) ∨ ticket ∈ h.unanswered ∨ ticket = h.nextTicket := by
  cases tr with
  | caller s =>
    cases s with
    | refuse command stopped =>
      obtain rfl : h.nextTicket = ticket := by simpa [endedCalls] using mem
      exact .inr (.inr rfl)
    | cancelWaiting own waits =>
      obtain rfl : ticket = own := by simpa [endedCalls] using mem
      exact .inl waits
    | cancelAnswer own waits =>
      obtain rfl : ticket = own := by simpa [endedCalls] using mem
      exact .inr (.inl waits)
    | acceptAndReturn request rest front =>
      obtain rfl : request.ticket = ticket := by simpa [endedCalls] using mem
      refine .inl ?_
      rw [front]
      exact List.mem_cons_self
    | _ => cases mem
  | reader s =>
    rw [s.uncalled.endedCalls] at mem
    cases mem
  | work own s =>
    cases s with
    | turn b id rest s outcome =>
      rw [(turn_uncalled ⟨id, b.packet, outcome⟩).endedCalls] at mem
      cases mem
    | pass => cases mem
    | finish b =>
      rw [(finish_uncalled h b).endedCalls] at mem
      cases mem
    | «begin» request rest events h' ready inTime front s =>
      rw [endedCalls_cons] at mem
      obtain ⟨-, -, -, -, -, -, ⟨-, -, none⟩ | ⟨waits, -, one⟩⟩ := s.calls
      · rw [none] at mem
        cases mem
      · rw [one] at mem
        obtain rfl : ticket = request.ticket := by simpa using mem
        exact .inr (.inl waits)
    | stop cause why =>
      have told : endedCalls (cause ++ h.stop.2) = h.waiting.map (·.ticket) ++ h.unanswered := by
        rw [endedCalls_append, endedCalls_stop]
        cases why <;> rfl
      rw [told] at mem
      exact (List.mem_append.mp mem).imp_right .inl

end Steps

/-- The calls in the line and those in the queue are different calls. -/
theorem Run.not_in_line (run : Run config history h) {r : Request} (inQueue : r ∈ accepted history) :
    r.ticket ∉ h.waiting.map (·.ticket) := by
  intro waits
  have apart : ((accepted history ++ h.waiting).map (·.ticket)).Nodup := by
    refine List.Nodup.sublist (run.lineup.map _) ?_
    rw [map_ticket_calls, run.ledger.opened]
    exact List.nodup_range
  rw [List.map_append, List.nodup_append] at apart
  exact apart.2.2 _ (List.mem_map_of_mem inQueue) _ waits rfl

/-- Whoever has its command in the queue and wants no answer waits for nothing any more. -/
theorem Run.not_due (run : Run config history h) {r : Request} (inQueue : r ∈ accepted history)
    (wants : r.command.wantsAnswer = false) :
    r.ticket ∉ h.waiting.map (·.ticket) ∧ r.ticket ∉ h.unanswered ∧ r.ticket ≠ h.nextTicket := by
  have called := run.accepted_sublist.subset inQueue
  have l := run.ledger
  refine ⟨run.not_in_line inQueue, fun owed => ?_, fun new => ?_⟩
  · obtain ⟨r', among, same, wants'⟩ := l.awaited _ owed
    obtain rfl := run.call_unique (run.mem_calls (List.mem_append_right _ among)) called same
    rw [wants] at wants'
    cases wants'
  · have known : r.ticket ∈ openedCalls history := by
      rw [← map_ticket_calls]
      exact List.mem_map_of_mem called
    rw [l.opened, List.mem_range] at known
    omega

/-- A packet is accepted or refused, and its caller is told which. -/
theorem Run.reply_of_packet (run : Run config history h) {packet : Packet} {reply : Reply}
    (called : ⟨ticket, .packet packet⟩ ∈ calls history)
    (mem : .returned ticket reply ∈ history) :
    reply = .accepted ∧ ⟨ticket, .packet packet⟩ ∈ accepted history ∨
      reply = .closed ∧ ⟨ticket, .packet packet⟩ ∉ accepted history := by
  induction run with
  | start => cases mem
  | @step history events h h' action run hs ih =>
    have tr := Transition.of_step? hs
    have run' := run.step hs
    -- The ticket is that of the packet alone.
    have only {command : Command} (other : ⟨ticket, command⟩ ∈ calls (history ++ events)) :
        command = .packet packet :=
      congrArg Request.command (run'.call_unique other called rfl)
    rw [accepted_append, List.mem_append]
    rcases List.mem_append.mp mem with before | now
    · have ended : ticket ∈ endedCalls history := List.mem_filterMap.mpr ⟨_, before, rfl⟩
      have earlier : ⟨ticket, .packet packet⟩ ∈ calls history := by
        rw [calls_append] at called
        refine (List.mem_append.mp called).resolve_right fun now => ?_
        have known := run.ledger.ended _ ended
        have new : ticket = h.nextTicket := (tr.of_called now).1
        omega
      refine (ih earlier before).imp (And.imp_right .inl) (And.imp_right fun not inQueue => ?_)
      refine inQueue.elim not fun now => ?_
      exact run.not_returned_of_waiting (tr.of_accepted now).1 before
    · have endsNow : ticket ∈ endedCalls events := List.mem_filterMap.mpr ⟨_, now, rfl⟩
      have due := tr.due_of_ended endsNow
      have notBefore : ⟨ticket, .packet packet⟩ ∉ accepted history := by
        intro inQueue
        obtain ⟨notInLine, notOwed, notNew⟩ := run.not_due inQueue rfl
        exact due.elim notInLine (·.elim notOwed notNew)
      have refused (closed : reply = .closed) : ¬ (⟨ticket, .packet packet⟩ ∈ accepted history ∨
          ⟨ticket, .packet packet⟩ ∈ accepted events) := by
        rintro (before | inQueue)
        · exact notBefore before
        · obtain ⟨-, alone | both⟩ := tr.of_accepted inQueue
          · simp [alone] at now
          · simp [both, closed] at now
      -- No answer but these two is one to a packet.
      have notBegun {command : Command} {more : List Event}
          (first : events = .began ⟨ticket, command⟩ :: more) : command = .packet packet := by
        refine only (run'.begun_subset ?_)
        rw [begun_append, first, begun_cons]
        exact List.mem_append_right _ List.mem_cons_self
      cases tr.answer now with
      | accepted command inQueue =>
        have among : ⟨ticket, command⟩ ∈ accepted (history ++ events) := by
          rw [accepted_append]
          exact List.mem_append_right _ inQueue
        obtain rfl := only (run'.accepted_sublist.subset among)
        exact .inl ⟨rfl, .inr inQueue⟩
      | subscribed id alone => cases notBegun alone
      | report ready alone => cases notBegun alone
      | stopped command known =>
        obtain rfl : command = .packet packet := by
          refine only ?_
          rw [calls_append, List.mem_append]
          exact known.imp_left fun waits => run.mem_calls (List.mem_append_left _ waits)
        exact .inr ⟨rfl, refused rfl⟩
      | closed => exact .inr ⟨rfl, refused rfl⟩

end Hub

end VideoRelay

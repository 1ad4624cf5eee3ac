/-
The calls and their commands, in the state and in the history.

* `Ledger`, `Run.ledger` — tickets are given in order, and the calls under way are
  those of callers that wait for room and of callers that wait for an answer;
* `Run.mem_pendingCalls` — so these are the pending calls of the history;
* `Intake`, `Run.intake` — commands are taken up in the order in which they entered
  the queue, and the queue is what has not been taken up yet.

Design notes: whoever waits for an answer has its command in the queue still
(`Ledger.awaited`).  An idle hub with an empty queue owes no answer, for that reason
alone.
-/
import VideoRelay.Proofs.Hub.Registry

namespace VideoRelay

namespace Hub

/-! ### Tickets -/

/-- What the hub knows of the calls made so far. -/
structure Ledger (history : List Event) (h : Hub) : Prop where
  opened : openedCalls history = List.range h.nextTicket
  ended : ∀ t ∈ endedCalls history, t < h.nextTicket
  known : ∀ r ∈ h.waiting ++ h.commands, r.ticket < h.nextTicket
  nodup : ((h.waiting ++ h.commands).map (·.ticket)).Nodup
  /-- Who waits for an answer has its command in the queue. -/
  awaited : ∀ t ∈ h.unanswered, ∃ r ∈ h.commands, r.ticket = t ∧ r.command.wantsAnswer = true
  /-- A call that has not ended waits for room or for an answer. -/
  pending : ∀ t < h.nextTicket,
    t ∉ endedCalls history ↔ t ∈ h.waiting.map (·.ticket) ∨ t ∈ h.unanswered

namespace Ledger

variable {history events : List Event} {h h' : Hub}

/-- Nobody waits for room and for an answer at once. -/
theorem not_waiting (l : Ledger history h) {t : Nat} (mem : t ∈ h.unanswered) :
    t ∉ h.waiting.map (·.ticket) := by
  intro waits
  obtain ⟨r, inQueue, rfl, -⟩ := l.awaited t mem
  have nodup := l.nodup
  rw [List.map_append, List.nodup_append] at nodup
  exact nodup.2.2 r.ticket waits r.ticket (List.mem_map_of_mem inQueue) rfl

theorem lt_of_waiting (l : Ledger history h) {t : Nat} (mem : t ∈ h.waiting.map (·.ticket)) :
    t < h.nextTicket := by
  obtain ⟨r, inLine, rfl⟩ := List.mem_map.mp mem
  exact l.known r (List.mem_append_left _ inLine)

theorem lt_of_unanswered (l : Ledger history h) {t : Nat} (mem : t ∈ h.unanswered) :
    t < h.nextTicket := by
  obtain ⟨r, inQueue, rfl, -⟩ := l.awaited t mem
  exact l.known r (List.mem_append_right _ inQueue)

/-- An answer that is awaited is that to the first command, or to one behind it. -/
theorem awaited_rest (l : Ledger history h) {request : Request} {rest : List Request}
    (front : h.commands = request :: rest) {t : Nat} (mem : t ∈ h.unanswered)
    (hne : t ≠ request.ticket) :
    ∃ r ∈ rest, r.ticket = t ∧ r.command.wantsAnswer = true := by
  obtain ⟨r, inQueue, heq, wants⟩ := l.awaited t mem
  rw [front] at inQueue
  rcases List.mem_cons.mp inQueue with rfl | inQueue
  · exact absurd heq.symm hne
  · exact ⟨r, inQueue, heq, wants⟩

theorem wantsAnswer_of_unanswered (l : Ledger history h) {request : Request}
    {rest : List Request} (front : h.commands = request :: rest)
    (mem : request.ticket ∈ h.unanswered) : request.command.wantsAnswer = true := by
  obtain ⟨r, inQueue, heq, wants⟩ := l.awaited _ mem
  rw [front] at inQueue
  rcases List.mem_cons.mp inQueue with rfl | inQueue
  · exact wants
  · -- No other command has this ticket.
    have nodup := l.nodup
    rw [front, List.map_append, List.map_cons, List.nodup_append, List.nodup_cons] at nodup
    exact absurd (heq ▸ List.mem_map_of_mem inQueue) nodup.2.1.1

/-- A step that calls have no part in. -/
theorem congr (l : Ledger history h) (u : Uncalled events)
    (nextTicket : h'.nextTicket = h.nextTicket) (waiting : h'.waiting = h.waiting)
    (commands : h'.commands = h.commands) (unanswered : h'.unanswered = h.unanswered) :
    Ledger (history ++ events) h' := by
  refine ⟨?_, ?_, ?_, ?_, ?_, ?_⟩
  · rw [openedCalls_append, u.openedCalls, List.append_nil, nextTicket]
    exact l.opened
  · rw [endedCalls_append, u.endedCalls, List.append_nil, nextTicket]
    exact l.ended
  · rw [waiting, commands, nextTicket]
    exact l.known
  · rw [waiting, commands]
    exact l.nodup
  · rw [unanswered, commands]
    exact l.awaited
  · rw [endedCalls_append, u.endedCalls, List.append_nil, nextTicket, waiting, unanswered]
    exact l.pending

/-- A step in which calls end, those of `tickets` and no others. -/
theorem ending (l : Ledger history h) (tickets : List Nat) (noCall : openedCalls events = [])
    (endings : endedCalls events = tickets) (nextTicket : h'.nextTicket = h.nextTicket)
    (subset : h'.waiting ++ h'.commands ⊆ h.waiting ++ h.commands)
    (nodup : ((h'.waiting ++ h'.commands).map (·.ticket)).Nodup)
    (awaited : ∀ t ∈ h'.unanswered,
      ∃ r ∈ h'.commands, r.ticket = t ∧ r.command.wantsAnswer = true)
    (wereOpen : ∀ t ∈ tickets, t < h.nextTicket)
    (left : ∀ t, t ∈ h'.waiting.map (·.ticket) ∨ t ∈ h'.unanswered ↔
      (t ∈ h.waiting.map (·.ticket) ∨ t ∈ h.unanswered) ∧ t ∉ tickets) :
    Ledger (history ++ events) h' := by
  refine ⟨?_, ?_, ?_, nodup, awaited, ?_⟩
  · rw [openedCalls_append, noCall, List.append_nil, nextTicket]
    exact l.opened
  · intro t mem
    rw [endedCalls_append, endings, List.mem_append] at mem
    rw [nextTicket]
    rcases mem with mem | mem
    · exact l.ended t mem
    · exact wereOpen t mem
  · intro r mem
    rw [nextTicket]
    exact l.known r (subset mem)
  · intro t lt
    rw [nextTicket] at lt
    rw [endedCalls_append, endings, List.mem_append, not_or, l.pending t lt, left t]

end Ledger

/-- A new call, which waits for room. -/
theorem Ledger.call {history : List Event} {h : Hub} (l : Ledger history h)
    (command : Command) (requestedAt? : Option Nat) :
    Ledger (history ++ [.called ⟨h.nextTicket, command⟩])
      { h with
        nextTicket := h.nextTicket + 1
        requestedAt? := requestedAt?
        waiting := h.waiting ++ [⟨h.nextTicket, command⟩] } := by
  have hended : endedCalls (history ++ [.called ⟨h.nextTicket, command⟩]) =
      endedCalls history := by simp
  refine ⟨?_, ?_, ?_, ?_, l.awaited, ?_⟩
  · simp [l.opened, List.range_succ]
  · rw [hended]
    intro t mem
    exact Nat.lt_succ_of_lt (l.ended t mem)
  · intro r mem
    have hk := l.known r
    simp only [List.mem_append, List.mem_singleton] at mem hk
    show r.ticket < h.nextTicket + 1
    rcases mem with (mem | rfl) | mem
    · exact Nat.lt_succ_of_lt (hk (.inl mem))
    · exact Nat.lt_succ_self _
    · exact Nat.lt_succ_of_lt (hk (.inr mem))
  · have hperm : (h.waiting ++ [(⟨h.nextTicket, command⟩ : Request)] ++ h.commands).Perm
        ((⟨h.nextTicket, command⟩ : Request) :: (h.waiting ++ h.commands)) := by
      rw [List.append_assoc]
      exact List.perm_middle
    refine (hperm.map (·.ticket)).nodup_iff.mpr ?_
    rw [List.map_cons, List.nodup_cons]
    refine ⟨fun mem => ?_, l.nodup⟩
    -- No ticket in use is the next one.
    obtain ⟨r, mem, heq⟩ := List.mem_map.mp mem
    exact Nat.ne_of_lt (l.known r mem) heq
  · intro t lt
    show t ∉ endedCalls (history ++ _) ↔
      t ∈ (h.waiting ++ [(⟨h.nextTicket, command⟩ : Request)]).map (·.ticket) ∨ t ∈ h.unanswered
    rw [hended]
    rcases Nat.lt_succ_iff_lt_or_eq.mp lt with lt | rfl
    · rw [l.pending t lt]
      simp [Nat.ne_of_lt lt]
    · have : h.nextTicket ∉ endedCalls history :=
        fun mem => Nat.lt_irrefl _ (l.ended _ mem)
      simp [this]

/-- A new call at a stopped hub, answered at once. -/
theorem Ledger.refuse {history : List Event} {h : Hub} (l : Ledger history h)
    (command : Command) (reply : Reply) (requestedAt? : Option Nat) :
    Ledger (history ++ [.called ⟨h.nextTicket, command⟩, .returned h.nextTicket reply])
      { h with
        nextTicket := h.nextTicket + 1
        requestedAt? := requestedAt? } := by
  have hended : endedCalls (history ++ [.called ⟨h.nextTicket, command⟩,
      .returned h.nextTicket reply]) = endedCalls history ++ [h.nextTicket] := by simp
  refine ⟨?_, ?_, ?_, l.nodup, l.awaited, ?_⟩
  · simp [l.opened, List.range_succ]
  · intro t mem
    rw [hended, List.mem_append, List.mem_singleton] at mem
    rcases mem with mem | rfl
    · exact Nat.lt_succ_of_lt (l.ended t mem)
    · exact Nat.lt_succ_self _
  · intro r mem
    exact Nat.lt_succ_of_lt (l.known r mem)
  · intro t lt
    rw [hended, List.mem_append, List.mem_singleton, not_or]
    rcases Nat.lt_succ_iff_lt_or_eq.mp lt with lt | rfl
    · rw [and_iff_left (Nat.ne_of_lt lt)]
      exact l.pending t lt
    · constructor
      · intro both
        exact absurd rfl both.2
      · rintro (mem | mem)
        · exact absurd (l.lt_of_waiting mem) (Nat.lt_irrefl _)
        · exact absurd (l.lt_of_unanswered mem) (Nat.lt_irrefl _)

/-- A caller gives up before its command has entered the queue. -/
theorem Ledger.cancelWaiting {history : List Event} {h : Hub} (l : Ledger history h)
    {ticket : Nat} (mem : ticket ∈ h.waiting.map (·.ticket)) :
    Ledger (history ++ [.cancelled ticket])
      { h with waiting := h.waiting.filter fun r => r.ticket ≠ ticket } := by
  have sub : ((h.waiting.filter fun r => r.ticket ≠ ticket) ++ h.commands).Sublist
      (h.waiting ++ h.commands) := List.filter_sublist.append (List.Sublist.refl _)
  refine l.ending [ticket] rfl rfl rfl sub.subset ((sub.map _).nodup l.nodup)
    l.awaited ?_ ?_
  · intro t ht
    rw [List.mem_singleton.mp ht]
    exact l.lt_of_waiting mem
  · intro t
    -- Nobody who waits for an answer is given up with it.
    have notOwed : t ∈ h.unanswered → t ≠ ticket := by
      rintro owed rfl
      exact l.not_waiting owed mem
    simp only [List.mem_map, List.mem_filter, List.mem_singleton]
    grind

/-- A caller gives up waiting for an answer; its command stays in the queue. -/
theorem Ledger.cancelAnswer {history : List Event} {h : Hub} (l : Ledger history h)
    {ticket : Nat} (mem : ticket ∈ h.unanswered) :
    Ledger (history ++ [.cancelled ticket])
      { h with unanswered := h.unanswered.filter (· ≠ ticket) } := by
  refine l.ending [ticket] rfl rfl rfl (List.Subset.refl _) l.nodup ?_ ?_ ?_
  · intro t ht
    exact l.awaited t (List.mem_filter.mp ht).1
  · intro t ht
    rw [List.mem_singleton.mp ht]
    exact l.lt_of_unanswered mem
  · intro t
    have notInLine : t ∈ h.waiting.map (·.ticket) → t ≠ ticket := by
      rintro waits rfl
      exact l.not_waiting mem waits
    simp only [List.mem_filter, List.mem_singleton]
    grind

/-- The command that enters goes from the line of callers to the end of the queue. -/
theorem perm_accept {h : Hub} {request : Request} {rest : List Request}
    (front : h.waiting = request :: rest) :
    (rest ++ (h.commands ++ [request])).Perm (h.waiting ++ h.commands) := by
  rw [front, ← List.append_assoc, List.cons_append]
  exact List.perm_append_singleton _ _

/-- A command enters the queue whose caller goes on to wait for an answer. -/
theorem Ledger.accept {history : List Event} {h : Hub} (l : Ledger history h)
    {request : Request} {rest : List Request} (front : h.waiting = request :: rest)
    (wants : request.command.wantsAnswer = true) :
    Ledger (history ++ [.accepted request])
      { h with
        waiting := rest
        commands := h.commands ++ [request]
        unanswered := h.unanswered ++ [request.ticket] } := by
  have perm := perm_accept front
  refine l.ending [] rfl rfl rfl perm.subset
    ((perm.map _).nodup_iff.mpr l.nodup) ?_ (fun t mem => by cases mem) ?_
  · intro t mem
    rcases List.mem_append.mp mem with mem | mem
    · obtain ⟨r, inQueue, heq⟩ := l.awaited t mem
      exact ⟨r, List.mem_append_left _ inQueue, heq⟩
    · rw [List.mem_singleton.mp mem]
      exact ⟨request, List.mem_append_right _ List.mem_cons_self, rfl, wants⟩
  · intro t
    simp [front, or_assoc, or_comm, or_left_comm]

/-- A command enters the queue whose caller wants no more. -/
theorem Ledger.acceptAndReturn {history : List Event} {h : Hub} (l : Ledger history h)
    {request : Request} {rest : List Request} (front : h.waiting = request :: rest) :
    Ledger (history ++ [.accepted request, .returned request.ticket .accepted])
      { h with
        waiting := rest
        commands := h.commands ++ [request] } := by
  have perm := perm_accept front
  have inLine : request.ticket ∈ h.waiting.map (·.ticket) := by simp [front]
  have nodup := (perm.map (·.ticket)).nodup_iff.mpr l.nodup
  refine l.ending [request.ticket] rfl rfl rfl perm.subset nodup ?_ ?_ ?_
  · intro t mem
    obtain ⟨r, inQueue, heq⟩ := l.awaited t mem
    exact ⟨r, List.mem_append_left _ inQueue, heq⟩
  · intro t mem
    rw [List.mem_singleton.mp mem]
    exact l.lt_of_waiting inLine
  · intro t
    -- The ticket is nobody else's, who waits for room or for an answer.
    have notRest : request.ticket ∉ rest.map (·.ticket) := by
      intro mem
      rw [List.map_append, List.nodup_append] at nodup
      exact nodup.2.2 _ mem request.ticket (by simp) rfl
    have notOwed : request.ticket ∉ h.unanswered := fun owed => l.not_waiting owed inLine
    rw [front, List.map_cons, List.mem_cons, List.mem_singleton]
    grind

theorem CallerStep.ledger {h h' : Hub} {action : Action} {history events : List Event}
    (l : Ledger history h) (s : CallerStep h action events h') :
    Ledger (history ++ events) h' := by
  cases s with
  | call command live => exact l.call command _
  | refuse command stopped => exact l.refuse command _ _
  | cancelWaiting ticket mem => exact l.cancelWaiting mem
  | cancelAnswer ticket mem => exact l.cancelAnswer mem
  | accept request rest front room wants => exact l.accept front wants
  | acceptAndReturn request rest front room wants => exact l.acceptAndReturn front
  | cloneHandle => exact l.congr .nil rfl rfl rfl rfl
  | dropHandle => exact l.congr .nil rfl rfl rfl rfl
  | advance milliseconds => exact l.congr .nil rfl rfl rfl rfl

/-- What becomes of the call whose command is taken up. -/
theorem BeginStep.calls {h h' : Hub} {request : Request} {rest : List Request}
    {events : List Event} (s : BeginStep h rest request events h') :
    h'.nextTicket = h.nextTicket ∧ h'.waiting = h.waiting ∧ h'.commands = rest ∧
      openedCalls events = [] ∧ accepted events = [] ∧ begun events = [] ∧
      ((request.command.wantsAnswer = true → request.ticket ∉ h.unanswered) ∧
          h'.unanswered = h.unanswered ∧ endedCalls events = [] ∨
        request.ticket ∈ h.unanswered ∧
          h'.unanswered = h.unanswered.filter (· ≠ request.ticket) ∧
          endedCalls events = [request.ticket]) := by
  cases s with
  | packet ticket packet =>
    exact ⟨rfl, rfl, rfl, rfl, rfl, rfl, .inl ⟨nofun, rfl, rfl⟩⟩
  | register ticket awaited =>
    exact ⟨rfl, rfl, rfl, rfl, rfl, rfl, .inr ⟨awaited, rfl, rfl⟩⟩
  | abandon ticket gone =>
    exact ⟨rfl, rfl, rfl, rfl, rfl, rfl, .inl ⟨fun _ => gone, rfl, rfl⟩⟩
  | unregister ticket id =>
    have u := remove_uncalled { h with commands := rest } id .unregistered
    exact ⟨rfl, rfl, rfl, u.openedCalls, u.accepted, u.begun,
      .inl ⟨nofun, rfl, u.endedCalls⟩⟩
  | stats ticket awaited =>
    exact ⟨rfl, rfl, rfl, rfl, rfl, rfl, .inr ⟨awaited, rfl, rfl⟩⟩
  | statsUnread ticket gone =>
    exact ⟨rfl, rfl, rfl, rfl, rfl, rfl, .inl ⟨fun _ => gone, rfl, rfl⟩⟩

theorem BeginStep.ledger {h h' : Hub} {request : Request} {rest : List Request}
    {history events : List Event} (l : Ledger history h) (front : h.commands = request :: rest)
    (s : BeginStep h rest request events h') :
    Ledger (history ++ .began request :: events) h' := by
  obtain ⟨nextTicket, waiting, commands, noCall, -, -, outcome⟩ := s.calls
  have noCall' : openedCalls (.began request :: events) = [] := by
    rw [openedCalls_cons, noCall]
    rfl
  have sub : (h'.waiting ++ h'.commands).Sublist (h.waiting ++ h.commands) := by
    rw [waiting, commands, front]
    exact (List.Sublist.refl _).append (List.sublist_cons_self _ _)
  have nodup := (sub.map (·.ticket)).nodup l.nodup
  rcases outcome with ⟨nobody, unanswered, noneEnded⟩ | ⟨waits, unanswered, ended⟩
  · have noneEnded' : endedCalls (.began request :: events) = [] := by
      rw [endedCalls_cons, noneEnded]
      rfl
    refine l.ending [] noCall' noneEnded' nextTicket sub.subset nodup ?_
      (fun t mem => by cases mem) ?_
    · intro t mem
      rw [unanswered] at mem
      rw [commands]
      -- Nobody waits for an answer to the command taken up.
      refine l.awaited_rest front mem ?_
      rintro rfl
      exact nobody (l.wantsAnswer_of_unanswered front mem) mem
    · intro t
      rw [waiting, unanswered]
      simp
  · have ended' : endedCalls (.began request :: events) = [request.ticket] := by
      rw [endedCalls_cons, ended]
      rfl
    refine l.ending _ noCall' ended' nextTicket sub.subset nodup ?_ ?_ ?_
    · intro t mem
      rw [unanswered, List.mem_filter] at mem
      rw [commands]
      exact l.awaited_rest front mem.1 (of_decide_eq_true mem.2)
    · intro t mem
      rw [List.mem_singleton.mp mem]
      exact l.lt_of_unanswered waits
    · intro t
      -- The call that ends now is not one that waits for room.
      have notInLine : t ∈ h.waiting.map (·.ticket) → t ≠ request.ticket := by
        rintro mem rfl
        exact l.not_waiting waits mem
      rw [waiting, unanswered, List.mem_filter, List.mem_singleton, decide_eq_true_eq]
      grind

theorem endedCalls_stop (h : Hub) :
    endedCalls h.stop.2 = h.waiting.map (·.ticket) ++ h.unanswered := by
  have hw : ∀ l : List Request,
      endedCalls (l.map fun r => .returned r.ticket r.command.whenStopped) = l.map (·.ticket) := by
    intro l
    induction l with
    | nil => rfl
    | cons r l ih => simp [ih]
  have hu : ∀ l : List Nat, endedCalls (l.map fun ticket => .returned ticket .closed) = l := by
    intro l
    induction l with
    | nil => rfl
    | cons t l ih => simp [ih]
  rw [stop, endedCalls_append, endedCalls_cons, hw, hu]
  rfl

theorem stop_ledger {history cause : List Event} {h : Hub} (l : Ledger history h)
    (why : StopCause h cause) : Ledger (history ++ (cause ++ h.stop.2)) h.stop.1 := by
  have hopened : openedCalls (cause ++ h.stop.2) = [] := by
    rw [openedCalls_append, openedCalls_stop, List.append_nil]
    cases why <;> rfl
  have hended : endedCalls (cause ++ h.stop.2) = h.waiting.map (·.ticket) ++ h.unanswered := by
    rw [endedCalls_append, endedCalls_stop]
    cases why <;> rfl
  -- All calls under way end, and nothing is left to wait for.
  refine l.ending _ hopened hended rfl (List.nil_subset _) List.nodup_nil nofun ?_ ?_
  · intro t mem
    rcases List.mem_append.mp mem with mem | mem
    · exact l.lt_of_waiting mem
    · exact l.lt_of_unanswered mem
  · intro t
    rw [List.mem_append, and_not_self_iff]
    simp [stop]

theorem WorkStep.ledger {h h' : Hub} {history events : List Event} (l : Ledger history h)
    (s : WorkStep h events h') : Ledger (history ++ events) h' := by
  cases s with
  | turn b id rest s outcome delivering front found fits =>
    exact l.congr (turn_uncalled _) rfl rfl rfl rfl
  | pass b id rest delivering front unknown => exact l.congr .nil rfl rfl rfl rfl
  | finish b delivering noneLeft =>
    rw [finish_fst]
    exact l.congr (finish_uncalled h b) rfl rfl rfl rfl
  | «begin» request rest events h' ready inTime front s => exact s.ledger l front
  | stop cause why => exact stop_ledger l why

theorem Transition.ledger {h h' : Hub} {action : Action} {history events : List Event}
    (l : Ledger history h) (t : Transition h action events h') :
    Ledger (history ++ events) h' := by
  cases t with
  | caller s => exact s.ledger l
  | reader s =>
    have same := s.frame
    exact l.congr s.uncalled (by rw [same]) (by rw [same]) (by rw [same]) (by rw [same])
  | work own s => exact s.ledger l

theorem Run.ledger {config : HubConfig} {history : List Event} {h : Hub}
    (run : Run config history h) : Ledger history h := by
  induction run with
  | start =>
    refine ⟨rfl, nofun, nofun, List.nodup_nil, nofun, ?_⟩
    intro t lt
    exact absurd lt (Nat.not_lt_zero t)
  | step _ hs ih => exact (Transition.of_step? hs).ledger ih

/-- The pending calls are those of callers that wait, for room or for an answer. -/
theorem Run.mem_pendingCalls {config : HubConfig} {history : List Event} {h : Hub}
    (run : Run config history h) {t : Nat} :
    t ∈ pendingCalls history ↔ t ∈ h.waiting.map (·.ticket) ∨ t ∈ h.unanswered := by
  have l := run.ledger
  rw [Hub.mem_pendingCalls, l.opened, List.mem_range]
  constructor
  · rintro ⟨lt, notEnded⟩
    exact (l.pending t lt).mp notEnded
  · intro waits
    have lt : t < h.nextTicket := waits.elim l.lt_of_waiting l.lt_of_unanswered
    exact ⟨lt, (l.pending t lt).mpr waits⟩

/-- No call is pending when nobody waits. -/
theorem Run.pendingCalls_eq_nil {config : HubConfig} {history : List Event} {h : Hub}
    (run : Run config history h) (noneWaits : h.waiting = []) (noneOwed : h.unanswered = []) :
    pendingCalls history = [] := by
  rw [List.eq_nil_iff_forall_not_mem]
  intro t mem
  have := run.mem_pendingCalls.mp mem
  rw [noneWaits, noneOwed] at this
  simp at this

/-! ### The queue of commands -/

/-- What became of the commands that entered the queue. -/
structure Intake (history : List Event) (h : Hub) : Prop where
  /-- They are taken up in the order in which they entered. -/
  inOrder : begun history <+: accepted history
  queue : h.phase ≠ .stopped → accepted history = begun history ++ h.commands

namespace Intake

variable {history events : List Event} {h h' : Hub}

/-- A step in which nothing enters the queue or leaves it. -/
theorem congr (i : Intake history h) (accepted : accepted events = []) (begun : begun events = [])
    (phase : h'.phase ≠ .stopped → h.phase ≠ .stopped) (commands : h'.commands = h.commands) :
    Intake (history ++ events) h' := by
  refine ⟨?_, fun live => ?_⟩
  · rw [accepted_append, accepted, begun_append, begun, List.append_nil, List.append_nil]
    exact i.inOrder
  · rw [accepted_append, accepted, begun_append, begun, List.append_nil, List.append_nil,
      commands]
    exact i.queue (phase live)

/-- A command enters. -/
theorem accept (i : Intake history h) (o : Orderly h) {request : Request} {rest : List Request}
    (front : h.waiting = request :: rest) (accepted : accepted events = [request])
    (begun : begun events = []) (commands : h'.commands = h.commands ++ [request]) :
    Intake (history ++ events) h' := by
  have live : h.phase ≠ .stopped := by
    intro stopped
    rw [(o.stopped stopped).2.1] at front
    cases front
  refine ⟨?_, fun _ => ?_⟩
  · rw [accepted_append, accepted, begun_append, begun, List.append_nil]
    exact i.inOrder.trans (List.prefix_append _ _)
  · rw [accepted_append, accepted, begun_append, begun, List.append_nil, commands,
      i.queue live, List.append_assoc]

/-- The first command is taken up. -/
theorem begin (i : Intake history h) (live : h.phase ≠ .stopped) {request : Request}
    {rest : List Request} (front : h.commands = request :: rest)
    (accepted : accepted events = []) (begun : begun events = [request])
    (commands : h'.phase ≠ .stopped → h'.commands = rest) : Intake (history ++ events) h' := by
  have all := i.queue live
  rw [front, ← List.singleton_append, ← List.append_assoc] at all
  refine ⟨?_, fun live' => ?_⟩
  · rw [accepted_append, accepted, begun_append, begun, List.append_nil, all]
    exact List.prefix_append _ _
  · rw [accepted_append, accepted, begun_append, begun, List.append_nil, all, commands live']

end Intake

theorem CallerStep.intake {h h' : Hub} {action : Action} {history events : List Event}
    (o : Orderly h) (i : Intake history h) (s : CallerStep h action events h') :
    Intake (history ++ events) h' := by
  cases s with
  | accept request rest front room wants => exact i.accept o front rfl rfl rfl
  | acceptAndReturn request rest front room wants => exact i.accept o front rfl rfl rfl
  | _ => exact i.congr rfl rfl id rfl

theorem WorkStep.intake {h h' : Hub} {history events : List Event} (i : Intake history h)
    (s : WorkStep h events h') : Intake (history ++ events) h' := by
  cases s with
  | turn b id rest s outcome delivering front found fits =>
    have u := turn_uncalled ⟨id, b.packet, outcome⟩
    exact i.congr u.accepted u.begun (fun _ => by simp [delivering]) rfl
  | pass b id rest delivering front unknown =>
    exact i.congr rfl rfl (fun _ => by simp [delivering]) rfl
  | finish b delivering noneLeft =>
    have u := finish_uncalled h b
    rw [finish_fst]
    exact i.congr u.accepted u.begun (fun _ => by simp [delivering]) rfl
  | «begin» request rest events h' ready inTime front s =>
    obtain ⟨-, -, commands, -, noneAccepted, noneBegun, -⟩ := s.calls
    refine i.begin (by simp [ready]) front ?_ ?_ fun _ => commands
    · rw [accepted_cons, noneAccepted]
      rfl
    · rw [begun_cons, noneBegun]
      rfl
  | stop cause why =>
    have ha := accepted_stop h
    have hb := begun_stop h
    have stopped : h.stop.1.phase ≠ .stopped → False := fun live => live rfl
    cases why with
    | asked ticket rest ready inTime front =>
      refine i.begin (by simp [ready]) front ?_ ?_ fun live => (stopped live).elim
      · rw [accepted_append, ha]
        rfl
      · rw [begun_append, hb]
        rfl
    | expired | abandoned | unreachable =>
      -- No command is taken up, and those in the queue never will be.
      refine ⟨?_, fun live => (stopped live).elim⟩
      rw [accepted_append, accepted_append, ha, begun_append, begun_append, hb]
      simpa using i.inOrder

/-- Commands are taken up in the order in which they entered the queue. -/
theorem Run.intake {config : HubConfig} {history : List Event} {h : Hub}
    (run : Run config history h) : Intake history h := by
  induction run with
  | start => exact ⟨List.prefix_refl _, fun _ => rfl⟩
  | step run hs ih =>
    cases Transition.of_step? hs with
    | caller s => exact s.intake run.orderly ih
    | reader s =>
      have same := s.frame
      exact ih.congr s.uncalled.accepted s.uncalled.begun (by rw [same]; exact id) (by rw [same])
    | work own s => exact s.intake ih

end Hub

end VideoRelay

/-
Broadcasts and commands as the history tells them.

* `Round`, `Run.round` — the broadcast under way is that of the last command taken
  up, and whoever was registered then has had a turn in it or is still to have one;
* `Complete`, `Applied` — what the history tells of a command that was applied to
  the end;
* `Progress`, `Run.progress` — every command taken up but the last was applied to the end, and
  the last one too when the hub is ready for the next.
-/
import VideoRelay.Proofs.Hub.Calls

namespace VideoRelay

namespace Hub

/-! ### Rounds -/

/-- The subscribers whose turns ended with `outcome`. -/
def endedWith (outcome : Outcome) (during : List Event) : List Nat :=
  ((turns during).filter (·.outcome = outcome)).map (·.id)

theorem endedWith_append (outcome : Outcome) (history events : List Event) :
    endedWith outcome (history ++ events) =
      endedWith outcome history ++ endedWith outcome events := by
  rw [endedWith, turns_append, List.filter_append, List.map_append]
  rfl

theorem endedWith_eq_nil {events : List Event} (noTurn : turns events = []) (outcome : Outcome) :
    endedWith outcome events = [] := by
  rw [endedWith, noTurn]
  rfl

theorem endedWith_turn (outcome : Outcome) (t : Turn) :
    endedWith outcome [t.event] = if t.outcome = outcome then [t.id] else [] := by
  rw [endedWith, turns_cons, turn?_event]
  by_cases heq : t.outcome = outcome <;> simp [heq]

/-- The broadcast `b`, of a packet taken up after `before`, has come about with what
`during` tells. -/
structure Round (before during : List Event) (b : Broadcast) : Prop where
  noneBegun : begun during = []
  noneRegistered : registrations during = []
  noneRemoved : removals during = []
  turns : (turns during).map (·.id) ++ b.remaining = members before
  packet : ∀ t ∈ Hub.turns during, t.packet = b.packet
  closed : b.closed = endedWith .refused during
  overflowed : b.overflowed = endedWith .overflowed during

/-- A step that the broadcast has no part in. -/
theorem Round.append {before during events : List Event} {b : Broadcast}
    (r : Round before during b) (noTurn : Hub.turns events = []) (noneBegun : begun events = [])
    (noneRegistered : registrations events = []) (noneRemoved : removals events = []) :
    Round before (during ++ events) b := by
  have ht : Hub.turns (during ++ events) = Hub.turns during := by
    rw [turns_append, noTurn, List.append_nil]
  refine ⟨?_, ?_, ?_, ?_, ?_, ?_, ?_⟩
  · rw [begun_append, r.noneBegun, noneBegun]
    rfl
  · rw [registrations_append, r.noneRegistered, noneRegistered]
    rfl
  · rw [removals_append, r.noneRemoved, noneRemoved]
    rfl
  · rw [ht]
    exact r.turns
  · rw [ht]
    exact r.packet
  · rw [endedWith, ht]
    exact r.closed
  · rw [endedWith, ht]
    exact r.overflowed

/-- The turn of the next subscriber. -/
theorem Round.turn {before during : List Event} {b : Broadcast} {id : Nat} {rest : List Nat}
    (r : Round before during b) (front : b.remaining = id :: rest) (outcome : Outcome) :
    Round before (during ++ [Turn.event ⟨id, b.packet, outcome⟩]) (b.afterOutcome id outcome) := by
  have ht : Hub.turns (during ++ [Turn.event ⟨id, b.packet, outcome⟩]) =
      Hub.turns during ++ [⟨id, b.packet, outcome⟩] := by
    rw [turns_append, turns_cons, turn?_event]
    rfl
  -- Of the lists by outcome, only that of this outcome grows.
  have he : ∀ o, endedWith o (during ++ [Turn.event ⟨id, b.packet, outcome⟩]) =
      endedWith o during ++ if outcome = o then [id] else [] := by
    intro o
    rw [endedWith_append, endedWith_turn]
  refine ⟨?_, ?_, ?_, ?_, ?_, ?_, ?_⟩
  · rw [begun_append, r.noneBegun, (turn_uncalled _).begun]
    rfl
  · rw [registrations_append, r.noneRegistered, registrations_turn]
    rfl
  · rw [removals_append, r.noneRemoved, removals_turn]
    rfl
  · rw [ht, remaining_afterOutcome, List.map_append, List.append_assoc, ← r.turns, front]
    rfl
  · intro t mem
    rw [packet_afterOutcome]
    rw [ht, List.mem_append, List.mem_singleton] at mem
    rcases mem with mem | rfl
    · exact r.packet t mem
    · rfl
  · rw [he]
    cases outcome <;> simp [Broadcast.afterOutcome, Broadcast.afterTurn, r.closed]
  · rw [he]
    cases outcome <;> simp [Broadcast.afterOutcome, Broadcast.afterTurn, r.overflowed]

/-- The broadcast `b` is under way, for the command taken up last. -/
def InRound (history : List Event) (b : Broadcast) : Prop :=
  ∃ before ticket during, history = before ++ .began ⟨ticket, .packet b.packet⟩ :: during ∧
    Round before during b

theorem InRound.append {history events : List Event} {b : Broadcast} (i : InRound history b)
    (noTurn : turns events = []) (noneBegun : begun events = [])
    (noneRegistered : registrations events = []) (noneRemoved : removals events = []) :
    InRound (history ++ events) b := by
  obtain ⟨before, ticket, during, rfl, r⟩ := i
  exact ⟨before, ticket, during ++ events, by simp,
    r.append noTurn noneBegun noneRegistered noneRemoved⟩

theorem WorkStep.inRound {h h' : Hub} {history events : List Event} (o : Orderly h)
    (members_eq : members history = h.registeredIds)
    (i : ∀ b, h.phase = .delivering b → InRound history b) (s : WorkStep h events h') :
    ∀ b, h'.phase = .delivering b → InRound (history ++ events) b := by
  cases s with
  | turn b id rest s outcome delivering front found fits =>
    rintro b' ⟨⟩
    obtain ⟨before, ticket, during, rfl, r⟩ := i b delivering
    refine ⟨before, ticket, during ++ [Turn.event ⟨id, b.packet, outcome⟩], ?_, ?_⟩
    · simp
    · exact r.turn front outcome
  | pass b id rest delivering front unknown =>
    obtain ⟨s, found⟩ := (o.underWay b delivering).found (front ▸ List.mem_cons_self)
    rw [unknown] at found
    cases found
  | finish b delivering noneLeft =>
    rw [finish_fst]
    rintro b' ⟨⟩
  | «begin» request rest events h' ready inTime front s =>
    have notYet : ∀ b, h.phase ≠ .delivering b := by simp [ready]
    cases s with
    | packet ticket packet =>
      rintro b ⟨⟩
      -- Nobody has had a turn, and everybody registered is to have one.
      have none : ∀ t ∈ turns [], t.packet = packet := fun t mem => absurd mem List.not_mem_nil
      exact ⟨history, ticket, [], rfl, rfl, rfl, rfl, members_eq.symm, none, rfl, rfl⟩
    | _ => exact fun b delivering => absurd delivering (notYet b)
  | stop cause why => rintro b ⟨⟩

/-- The broadcast under way is that of the last command taken up. -/
theorem Run.round {config : HubConfig} {history : List Event} {h : Hub}
    (run : Run config history h) : ∀ b, h.phase = .delivering b → InRound history b := by
  induction run with
  | start => rintro b ⟨⟩
  | step run hs ih =>
    cases Transition.of_step? hs with
    | caller s =>
      intro b delivering
      rw [s.frame.2.1] at delivering
      exact (ih b delivering).append s.quiet.turns s.begun s.quiet.registrations s.removals
    | reader s =>
      intro b delivering
      rw [s.frame] at delivering
      exact (ih b delivering).append (by cases s <;> rfl) s.uncalled.begun (by cases s <;> rfl)
        (by cases s <;> rfl)
    | work own s => exact s.inRound run.orderly run.members_eq ih

/-! ### Commands applied to the end -/

/-- What `during` tells of the command `request`, taken up after `before`, if it was
applied to the end. -/
def Complete (before during : List Event) : Request → Prop
  | ⟨_, .packet packet⟩ =>
    (turns during).map (·.id) = members before ∧ (∀ t ∈ turns during, t.packet = packet) ∧
      removals during = (endedWith .refused during).map (·, .closed) ++
        (endedWith .overflowed during).map (·, .overflow)
  | ⟨ticket, .register⟩ =>
    ∃ id, registrations during = [id] ∧
      (.returned ticket (.subscribed id) ∈ during ∧ removals during = [] ∨
        ticket ∈ endedCalls before ∧ removals during = [(id, .abandoned)])
  | ⟨_, .unregister id⟩ =>
    removals during = if id ∈ members before then [(id, .unregistered)] else []
  | ⟨ticket, .stats⟩ =>
    ticket ∈ endedCalls before ∨ ∃ stats, .returned ticket (.report stats) ∈ during
  | ⟨_, .shutdown⟩ => ∃ subscribers packets, .stopped subscribers packets ∈ during

/-- The command `request` was taken up and applied to the end, before the next. -/
def Applied (history : List Event) (request : Request) : Prop :=
  ∃ before during after, history = before ++ .began request :: (during ++ after) ∧
    begun during = [] ∧ Complete before during request

theorem Applied.append {history : List Event} {request : Request} (a : Applied history request)
    (events : List Event) : Applied (history ++ events) request := by
  obtain ⟨before, during, after, rfl, none, complete⟩ := a
  exact ⟨before, during, after ++ events, by simp, none, complete⟩

/-- Commands other than packets are applied in one step. -/
theorem BeginStep.applied {h h' : Hub} {request : Request} {rest : List Request}
    {history events : List Event} (l : Ledger history h)
    (members_eq : members history = h.registeredIds) (front : h.commands = request :: rest)
    (s : BeginStep h rest request events h') (ready : h'.phase = .ready) :
    Applied (history ++ .began request :: events) request := by
  obtain ⟨-, -, -, -, -, noneBegun, -⟩ := s.calls
  refine ⟨history, events, [], by simp, noneBegun, ?_⟩
  -- A call whose command is taken up no longer waits for room.
  have ended : request.ticket ∉ h.unanswered → request.ticket ∈ endedCalls history := by
    intro notOwed
    have inQueue : request ∈ h.waiting ++ h.commands := by simp [front]
    have notWaiting : request.ticket ∉ h.waiting.map (·.ticket) := by
      have nodup := l.nodup
      rw [front, List.map_append, List.map_cons, List.nodup_append] at nodup
      intro mem
      exact nodup.2.2 _ mem _ List.mem_cons_self rfl
    by_contra notEnded
    rcases (l.pending _ (l.known _ inQueue)).mp notEnded with waits | owed
    · exact notWaiting waits
    · exact notOwed owed
  cases s with
  | packet ticket packet => cases ready
  | register ticket awaited => exact ⟨h.nextId, rfl, .inl ⟨by simp, rfl⟩⟩
  | abandon ticket gone => exact ⟨h.nextId, rfl, .inr ⟨ended gone, rfl⟩⟩
  | unregister ticket id =>
    have hr := removals_remove { h with commands := rest } id .unregistered
    have same : Hub.isRegistered { h with commands := rest } id = h.isRegistered id := rfl
    show removals _ = _
    simp only [hr, same, members_eq, mem_registeredIds]
  | stats ticket awaited => exact .inr ⟨h.report, by simp⟩
  | statsUnread ticket gone => exact .inl (ended gone)

/-- Whoever was found closed or full is removed when the round is over. -/
theorem Round.complete {h : Hub} {before during : List Event} {b : Broadcast}
    (r : Round before during b) (u : UnderWay h b) (noneLeft : b.remaining = []) (ticket : Nat) :
    Complete before (during ++ (h.finish b).2) ⟨ticket, .packet b.packet⟩ := by
  have q := finish_quiet h b
  have ht : Hub.turns (during ++ (h.finish b).2) = Hub.turns during := by
    rw [turns_append, q.turns, List.append_nil]
  refine ⟨?_, ?_, ?_⟩
  · rw [ht, ← r.turns, noneLeft, List.append_nil]
  · rw [ht]
    exact r.packet
  · rw [removals_append, r.noneRemoved, u.removals_finish noneLeft, endedWith, endedWith, ht,
      List.nil_append]
    congr 1
    · rw [r.closed]
      rfl
    · rw [r.overflowed]
      rfl

/-- How far the commands taken up have come. -/
structure Progress (history : List Event) (h : Hub) : Prop where
  earlier : ∀ r ∈ (begun history).dropLast, Applied history r
  all : h.phase = .ready → ∀ r ∈ begun history, Applied history r

namespace Progress

variable {history events : List Event} {h h' : Hub}

/-- A step that takes up no command and does not end a broadcast. -/
theorem congr (p : Progress history h) (noneBegun : begun events = [])
    (phase : h'.phase = .ready → h.phase = .ready) : Progress (history ++ events) h' := by
  have same : begun (history ++ events) = begun history := by
    rw [begun_append, noneBegun, List.append_nil]
  refine ⟨?_, ?_⟩
  · rw [same]
    intro r mem
    exact (p.earlier r mem).append events
  · rw [same]
    intro ready r mem
    exact (p.all (phase ready) r mem).append events

/-- A step in which the last command taken up has been applied to the end. -/
theorem concat (p : Progress history h) {init : List Request} {last : Request}
    (split : begun (history ++ events) = init ++ [last])
    (before : init = begun history ∧ h.phase = .ready ∨ init = (begun history).dropLast)
    (applied : h'.phase = .ready → Applied (history ++ events) last) :
    Progress (history ++ events) h' := by
  have earlier : ∀ r ∈ init, Applied (history ++ events) r := by
    intro r mem
    rcases before with ⟨rfl, ready⟩ | rfl
    · exact (p.all ready r mem).append events
    · exact (p.earlier r mem).append events
  refine ⟨?_, fun ready => ?_⟩
  · rw [split, List.dropLast_concat]
    exact earlier
  · intro r mem
    rw [split, List.mem_append, List.mem_singleton] at mem
    rcases mem with mem | rfl
    · exact earlier r mem
    · exact applied ready

end Progress

theorem WorkStep.progress {h h' : Hub} {history events : List Event} (o : Orderly h)
    (l : Ledger history h) (members_eq : members history = h.registeredIds)
    (round : ∀ b, h.phase = .delivering b → InRound history b) (p : Progress history h)
    (s : WorkStep h events h') : Progress (history ++ events) h' := by
  cases s with
  | turn b id rest s outcome delivering front found fits =>
    exact p.congr (turn_uncalled _).begun fun ready => by cases ready
  | pass b id rest delivering front unknown => exact p.congr rfl fun ready => by cases ready
  | finish b delivering noneLeft =>
    obtain ⟨before, ticket, during, rfl, r⟩ := round b delivering
    have hb : begun (before ++ .began ⟨ticket, .packet b.packet⟩ :: during) =
        begun before ++ [⟨ticket, .packet b.packet⟩] := by
      rw [begun_append, begun_cons, r.noneBegun]
      rfl
    -- The end of a broadcast takes up nothing, so its packet is still the last command.
    have split : begun ((before ++ .began ⟨ticket, .packet b.packet⟩ :: during) ++
        (h.finish b).2) = begun before ++ [⟨ticket, .packet b.packet⟩] := by
      rw [begun_append, hb, (finish_uncalled h b).begun, List.append_nil]
    refine p.concat split (.inr ?_) fun _ => ?_
    · rw [hb, List.dropLast_concat]
    · refine ⟨before, during ++ (h.finish b).2, [], by simp, ?_, ?_⟩
      · rw [begun_append, r.noneBegun, (finish_uncalled h b).begun]
        rfl
      · exact r.complete (o.underWay b delivering) noneLeft ticket
  | «begin» request rest events h' ready inTime front s =>
    have hb : begun (.began request :: events) = [request] := by
      obtain ⟨-, -, -, -, -, noneBegun, -⟩ := s.calls
      rw [begun_cons, noneBegun]
      rfl
    refine p.concat ?_ (.inl ⟨rfl, ready⟩) fun ready' => s.applied l members_eq front ready'
    rw [begun_append, hb]
  | stop cause why =>
    have hs := begun_stop h
    -- A shutdown is applied by the stop itself; other reasons come without a command.
    cases why with
    | asked ticket rest ready inTime front =>
      have split : begun (history ++ ([.began ⟨ticket, .shutdown⟩] ++ h.stop.2)) =
          begun history ++ [⟨ticket, .shutdown⟩] := by
        rw [begun_append, begun_append, hs]
        rfl
      exact p.concat split (.inl ⟨rfl, ready⟩) fun ready => by cases ready
    | expired | abandoned | unreachable =>
      refine p.congr ?_ fun ready => by cases ready
      rw [begun_append, hs]
      rfl

theorem Run.progress {config : HubConfig} {history : List Event} {h : Hub}
    (run : Run config history h) : Progress history h := by
  induction run with
  | start => exact ⟨nofun, fun _ => nofun⟩
  | step run hs ih =>
    cases Transition.of_step? hs with
    | caller s => exact ih.congr s.begun fun ready => s.frame.2.1 ▸ ready
    | reader s =>
      refine ih.congr s.uncalled.begun fun ready => ?_
      rw [s.frame] at ready
      exact ready
    | work own s => exact s.progress run.orderly run.ledger run.members_eq run.round ih

end Hub

end VideoRelay

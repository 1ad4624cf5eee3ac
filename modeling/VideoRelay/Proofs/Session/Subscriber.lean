/-
A subscriber's session whose connection takes all that it is given.

* `SubscriberSession.outstanding` — the bytes that the session has still to write;
* `IsWorking` — the session is not about to end;
* `step?_working` — of what it does itself only a packet that it takes adds to these bytes;
* `Link.IsReading`, `serve_working` — what the connection takes is the first of them;
* `proceeds`, `IsWorking.proceeds` — the session can go on, or its connection can, unless it
  waits for a packet or for its removal, or is over.
-/
import VideoRelay.Proofs.Frame.Grammar
import VideoRelay.Proofs.Frame.Writing
import VideoRelay.Proofs.System.News
import VideoRelay.Simulation.Basic

open VideoRelay.Frame

namespace VideoRelay

namespace SubscriberSession

/-- What the session has still to write: behind what is being sent comes what is in the
buffer, and then what is left of the packet's frame. -/
def outstanding (w : SubscriberSession) : Bytes :=
  match w.phase with
  | .receiving | .draining => w.buffer
  | .writing _ pieces => w.buffer ++ pieces.flatten
  | .spilling rest _ pieces => rest ++ w.buffer ++ pieces.flatten
  | .flushing rest _ => rest ++ w.buffer
  | _ => []

/-- The session goes on taking packets; while it waits for one it has written all. -/
def IsWorking (w : SubscriberSession) : Prop :=
  match w.phase with
  | .receiving => w.buffer = []
  | .flushing _ isLast => w.buffer = [] ∧ isLast = false
  | .writing _ _ | .spilling _ _ _ | .draining => True
  | _ => False

variable {w w' : SubscriberSession}

/-- A session that works waits for no call. -/
theorem hear_of_isWorking (working : w.IsWorking) (events : List Hub.Event) :
    w.hear events = w := by
  refine hear_eq_self fun ticket reply _ => ?_
  obtain ⟨id, capacity, buffer, stats, phase⟩ := w
  cases phase with
  | unregistering => cases working
  | _ => rfl

theorem begin_working {packet : Packet} (legal : packet.length ≤ limit)
    (here : w.outstanding = w.buffer) :
    (w.begin packet).IsWorking ∧ (w.begin packet).outstanding = w.outstanding ++ encode packet := by
  rw [begin, if_neg (Nat.not_lt.mpr legal), here]
  refine ⟨trivial, ?_⟩
  show w.buffer ++ [head packet, packet].flatten = w.buffer ++ encode packet
  rw [List.flatten_cons, List.flatten_singleton, encode]

theorem beginFlush_working (w : SubscriberSession) :
    (w.beginFlush false).IsWorking ∧ (w.beginFlush false).outstanding = w.buffer :=
  ⟨⟨rfl, rfl⟩, List.append_nil _⟩

/-- With pieces to write, what is outstanding only changes its place. -/
theorem place?_working {packet : Packet} {pieces : List Bytes}
    (hp : w.place? packet pieces = some w') :
    w'.IsWorking ∧ w'.outstanding = w.buffer ++ pieces.flatten := by
  rw [place?.eq_def] at hp
  split at hp
  · cases hp
    exact ⟨trivial, (List.append_nil _).symm⟩
  · cases hp
    exact ⟨trivial, rfl⟩
  · rename_i b piece pieces
    split at hp
    · cases hp
      refine ⟨trivial, ?_⟩
      show w.buffer ++ [] ++ ((b :: piece) :: pieces).flatten = _
      rw [List.append_nil]
    · split at hp
      · cases hp
      · cases hp
        exact ⟨trivial, List.append_assoc ..⟩

/-- What a working session does itself: it takes a packet, whose frame is outstanding from
then on, or nothing that matters. -/
theorem step?_working {h h' : Hub} {events : List Hub.Event} (working : w.IsWorking)
    (attached : h.available w.id ≠ .ended) (hs : w.step? h = some (w', h', events)) :
    (∃ packet, h.take? w.id = some (h', events) ∧ events = [.took w.id packet] ∧ w'.id = w.id ∧
        (packet.length ≤ limit →
          w'.IsWorking ∧ w'.outstanding = w.outstanding ++ encode packet)) ∨
      h' = h ∧ events = [] ∧ w'.id = w.id ∧ w'.IsWorking ∧ w'.outstanding = w.outstanding := by
  have taking {packet : Packet} (there : h.available w.id = .packet packet) {h₁ : Hub}
      {events₁ : List Hub.Event} (taken : h.take? w.id = some (h₁, events₁)) :
      events₁ = [.took w.id packet] := by
    obtain ⟨h₂, same⟩ := Hub.take?_of_available there
    cases taken.symm.trans same
    rfl
  have began (packet : Packet) : (w.begin packet).id = w.id := by
    rw [begin]
    split <;> rfl
  obtain ⟨id, capacity, buffer, stats, phase⟩ := w
  cases phase with
  | receiving =>
    simp only [step?] at hs
    split at hs
    · rename_i packet h₁ events₁ there taken
      cases hs
      exact .inl ⟨packet, taken, taking there taken, began packet,
        fun legal => begin_working legal rfl⟩
    · rename_i ended
      exact absurd ended attached
    · cases hs
  | draining =>
    simp only [step?] at hs
    split at hs
    · rename_i packet h₁ events₁ there taken
      cases hs
      exact .inl ⟨packet, taken, taking there taken, began packet,
        fun legal => begin_working legal rfl⟩
    · cases hs
      exact .inr ⟨rfl, rfl, rfl, beginFlush_working _⟩
  | writing packet pieces =>
    simp only [step?, Option.map_eq_some_iff] at hs
    obtain ⟨next, placed, heq⟩ := hs
    cases heq
    refine .inr ⟨rfl, rfl, ?_, place?_working placed⟩
    exact congrArg Stake.id (place?_stake placed)
  | spilling rest packet pieces =>
    cases rest with
    | nil =>
      cases hs
      exact .inr ⟨rfl, rfl, rfl, trivial, rfl⟩
    | cons b rest => cases hs
  | flushing rest isLast => cases hs
  | _ => cases working

end SubscriberSession

/-! ### A connection that takes everything -/

/-- The connection takes whatever it is given, in pieces of any sizes. -/
structure Link.IsReading (l : Link) : Prop where
  faultless : l.connection.fault? = none
  unlimited : l.credit? = none

/-- It has not taken anything yet. -/
structure Link.IsNew (l : Link) : Prop extends Link.IsReading l where
  noneWritten : l.connection.written = []

/-- A piece of what is given is taken, from the first byte on. -/
theorem Link.answer?_write {l : Link} (reading : l.IsReading) {data : Bytes}
    (some_data : data ≠ []) :
    ∃ n l', l.answer? (.write data) = some (.accepted n, l') ∧ l'.IsReading ∧ 0 < n ∧
      n ≤ data.length ∧ l'.connection.written = l.connection.written ++ data.take n := by
  obtain ⟨c, credit?⟩ := l
  obtain ⟨faultless, rfl⟩ := reading
  simp only at faultless
  have healthy : c.writeFailure? = none := by rw [Connection.writeFailure?, faultless]
  have front : c.accepted data <+: data :=
    (takeUpTo_isPrefix _ _).trans (takeUpTo_isPrefix _ _)
  let c' : Connection :=
    { c with taken := c.accepted data :: c.taken, size := c.size + (c.accepted data).length }
  have hw : c.write data = (.ok (c.accepted data).length, c') := by
    rw [Connection.write, healthy]
  refine ⟨(c.accepted data).length, ⟨c', none⟩, ?_, ⟨faultless, rfl⟩,
    Connection.pos_of_write some_data hw, front.length_le, ?_⟩
  · have credited : ¬ (c.writeFailure? = none ∧ (none : Option Nat) = some 0) := by simp
    rw [Link.answer?, if_neg credited]
    simp only [takeUpTo, hw, Option.map_none]
  · rw [← List.prefix_iff_eq_take.mp front]
    exact Connection.written_write _ _

theorem Link.answer?_flush {l : Link} (reading : l.IsReading) :
    l.answer? .flush = some (.done, l) := by
  rw [Link.answer?, Link.answerPlain, Connection.failure?, reading.faultless]

namespace SubscriberSession

variable {w : SubscriberSession} {l : Link}

/-- What a session asks of a connection that takes everything is done, and what is written
thereby is no longer outstanding. -/
theorem serve_working (working : w.IsWorking) (reading : l.IsReading) {errand : Errand}
    (asked : w.errand? = some errand) :
    ∃ answer l' w', l.answer? errand = some (answer, l') ∧ w.respond? answer = some w' ∧
      l'.IsReading ∧ w'.IsWorking ∧ w'.id = w.id ∧
      l'.connection.written ++ w'.outstanding = l.connection.written ++ w.outstanding := by
  -- Whatever is to be written, some of it is.
  have writes {data : Bytes} (some_data : data ≠ []) (isWrite : errand = .write data)
      (next : Nat → SubscriberSession)
      (answered : ∀ n, 0 < n → n ≤ data.length → w.respond? (.accepted n) = some (next n))
      (same : ∀ n, (next n).IsWorking ∧ (next n).id = w.id ∧
        data.take n ++ (next n).outstanding = w.outstanding) :
      ∃ answer l' w', l.answer? errand = some (answer, l') ∧ w.respond? answer = some w' ∧
        l'.IsReading ∧ w'.IsWorking ∧ w'.id = w.id ∧
        l'.connection.written ++ w'.outstanding = l.connection.written ++ w.outstanding := by
    obtain ⟨n, l', hl, reading', pos, atMost, written⟩ := Link.answer?_write reading some_data
    obtain ⟨working', sameId, out⟩ := same n
    refine ⟨.accepted n, l', next n, isWrite ▸ hl, answered n pos atMost, reading', working',
      sameId, ?_⟩
    rw [written, List.append_assoc, out]
  obtain ⟨id, capacity, buffer, stats, phase⟩ := w
  cases phase with
  | receiving => cases asked
  | draining => cases asked
  | writing packet pieces =>
    cases pieces with
    | nil => cases asked
    | cons piece pieces =>
      cases piece with
      | nil => cases asked
      | cons b piece =>
        simp only [errand?] at asked
        split at asked
        · rename_i direct
          obtain ⟨rfl, large⟩ := direct
          cases asked
          refine writes (List.cons_ne_nil b piece) rfl
            (fun n => ⟨id, capacity, [], stats, .writing packet ((b :: piece).drop n :: pieces)⟩)
            (fun n pos atMost => ?_) (fun n => ⟨trivial, rfl, ?_⟩)
          · have enough : Bytes.hasAtLeast n (b :: piece) = true := hasAtLeast_iff.mpr atMost
            simp [respond?, errand?, large, pos, enough]
          · simp only [outstanding, List.nil_append, List.flatten_cons]
            rw [← List.append_assoc, List.take_append_drop]
        · cases asked
  | spilling rest packet pieces =>
    cases rest with
    | nil => cases asked
    | cons b rest =>
      cases asked
      refine writes (List.cons_ne_nil b rest) rfl
        (fun n => ⟨id, capacity, buffer, stats, .spilling ((b :: rest).drop n) packet pieces⟩)
        (fun n pos atMost => ?_) (fun n => ⟨trivial, rfl, ?_⟩)
      · have enough : Bytes.hasAtLeast n (b :: rest) = true := hasAtLeast_iff.mpr atMost
        simp [respond?, errand?, pos, enough]
      · simp only [outstanding]
        rw [← List.append_assoc, ← List.append_assoc, List.take_append_drop]
  | flushing rest isLast =>
    obtain ⟨rfl, rfl⟩ := working
    cases rest with
    | nil =>
      cases asked
      exact ⟨.done, l, _, Link.answer?_flush reading, rfl, reading, rfl, rfl, rfl⟩
    | cons b rest =>
      cases asked
      refine writes (List.cons_ne_nil b rest) rfl
        (fun n => ⟨id, capacity, [], stats, .flushing ((b :: rest).drop n) false⟩)
        (fun n pos atMost => ?_) (fun n => ⟨⟨rfl, rfl⟩, rfl, ?_⟩)
      · have enough : Bytes.hasAtLeast n (b :: rest) = true := hasAtLeast_iff.mpr atMost
        simp [respond?, errand?, pos, enough]
      · simp only [outstanding]
        rw [← List.append_assoc, List.take_append_drop]
  | _ => cases working

/-- A session goes on, or asks something of its connection, or waits for a packet or for its
removal, or is over. -/
theorem proceeds (w : SubscriberSession) (h : Hub) :
    w.step? h ≠ none ∨ (∃ errand, w.errand? = some errand) ∨
      w.phase = .receiving ∧ h.available w.id = .waiting ∨
      (∃ ticket cause, w.phase = .unregistering ticket cause) ∨
      ∃ result, w.result? = some result := by
  obtain ⟨id, capacity, buffer, stats, phase⟩ := w
  cases phase with
  | receiving =>
    cases there : h.available id with
    | packet packet =>
      obtain ⟨h', taken⟩ := Hub.take?_of_available there
      refine .inl ?_
      simp [step?, there, taken]
    | waiting => exact .inr (.inr (.inl ⟨rfl, rfl⟩))
    | ended =>
      refine .inl ?_
      simp [step?, there]
  | draining =>
    refine .inl ?_
    simp only [step?]
    split <;> exact Option.some_ne_none _
  | writing packet pieces =>
    cases pieces with
    | nil => exact .inl (Option.some_ne_none _)
    | cons piece pieces =>
      cases piece with
      | nil => exact .inl (Option.some_ne_none _)
      | cons b piece =>
        let w : SubscriberSession :=
          ⟨id, capacity, buffer, stats, .writing packet ((b :: piece) :: pieces)⟩
        by_cases spills : buffer ≠ [] ∧ w.overflows (b :: piece) = true
        · refine .inl ?_
          simp only [step?, place?, ne_eq]
          rw [if_pos spills]
          exact Option.some_ne_none _
        · by_cases large : w.isLarge (b :: piece) = true
          · -- A piece as large as the buffer does not fit behind anything.
            have empty : buffer = [] := by
              by_contra some_bytes
              have pos := List.length_pos_iff.mpr some_bytes
              have atLeast : capacity ≤ (b :: piece).length := hasAtLeast_iff.mp large
              refine spills ⟨some_bytes, hasAtLeast_iff.mpr ?_⟩
              show capacity + 1 - buffer.length ≤ (b :: piece).length
              omega
            refine .inr (.inl ⟨.write (b :: piece), ?_⟩)
            exact if_pos ⟨empty, large⟩
          · refine .inl ?_
            simp only [step?, place?, ne_eq]
            rw [if_neg spills, if_neg large]
            exact Option.some_ne_none _
  | spilling rest packet pieces =>
    cases rest with
    | nil => exact .inl (Option.some_ne_none _)
    | cons b rest => exact .inr (.inl ⟨_, rfl⟩)
  | flushing rest isLast =>
    cases rest with
    | nil => exact .inr (.inl ⟨_, rfl⟩)
    | cons b rest => exact .inr (.inl ⟨_, rfl⟩)
  | closing => exact .inr (.inl ⟨_, rfl⟩)
  | failing cause => exact .inl (Option.some_ne_none _)
  | unregistering ticket cause => exact .inr (.inr (.inr (.inl ⟨ticket, cause, rfl⟩)))
  | leaving result => exact .inl (Option.some_ne_none _)
  | ended result => exact .inr (.inr (.inr (.inr ⟨result, rfl⟩)))

/-- A working session goes on, or asks something of its connection, or waits for a packet. -/
theorem IsWorking.proceeds (working : w.IsWorking) (h : Hub) :
    w.step? h ≠ none ∨ (∃ errand, w.errand? = some errand) ∨
      w.phase = .receiving ∧ h.available w.id = .waiting := by
  rcases w.proceeds h with goes | asks | waits | ⟨ticket, cause, phase⟩ | ⟨result, ended⟩
  · exact .inl goes
  · exact .inr (.inl asks)
  · exact .inr (.inr waits)
  · rw [IsWorking, phase] at working
    exact working.elim
  · rw [result?] at ended
    split at ended
    · rename_i result' phase
      rw [IsWorking, phase] at working
      exact working.elim
    · cases ended

end SubscriberSession

end VideoRelay

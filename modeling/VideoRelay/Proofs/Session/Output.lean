/-
What a subscriber's session has made of the packets that it has taken.

* `SubscriberSession.inHand` — the packet that the session is busy with;
* `Conveys` — what the phase of a session says of the packets taken and of the bytes that its
  connection has accepted;
* `Conveys.step`, `Conveys.respond`, `Conveys.hear` — the session's own steps, answers of its
  connection and calls that return keep it so, wherever the buffer is full and whatever fails.

Design notes: bytes are in three places, with the connection, in the buffer and in the pieces
of the frame in hand, and a step only moves them.  So their sum is the row of frames at all
times, and what the connection has is its front.  Once the session fails the rest is lost, and
only the front is left to speak of.
-/
import VideoRelay.Proofs.Session.Input
import VideoRelay.Proofs.Session.Subscriber

open VideoRelay.Frame

namespace VideoRelay

namespace SubscriberSession

/-- Why the session gives up, if it does. -/
def failure? (w : SubscriberSession) : Option Error := w.stake.withdrawal?.map (·.1)

/-- The packet whose frame has not all been given away. -/
def inHand (w : SubscriberSession) : List Packet :=
  match w.phase with
  | .writing packet _ | .spilling _ packet _ => [packet]
  | _ => []

/-- What else a phase says: where the buffer is empty, where everything has been flushed, and
where the session has found the end of its queue. -/
def Rests (w : SubscriberSession) (flushed ended : Prop) : Prop :=
  match w.phase with
  | .receiving => w.buffer = [] ∧ flushed
  | .flushing _ isLast => w.buffer = [] ∧ (isLast = true → ended)
  | .closing => flushed ∧ ended
  | .leaving (.ok stats) | .ended (.ok stats) => stats = w.stats ∧ flushed ∧ ended
  | _ => True

/-- The session has taken the packets `taken`, and its connection has accepted the bytes
`written`. -/
structure Conveys (w : SubscriberSession) (taken : List Packet) (written : Bytes)
    (flushed ended : Prop) : Prop where
  legal : w.failure? = none → ∀ p ∈ taken, p.length ≤ limit
  whole : w.failure? = none → written ++ w.outstanding = row taken
  counted : w.failure? = none → ∃ done, taken = done ++ w.inHand ∧ w.stats = .ofPackets done
  rests : w.Rests flushed ended
  named : ∀ e, w.failure? = some e → ∃ cause, e = .connection w.id cause
  legalBefore : ∀ e, w.failure? = some e → ∀ p ∈ taken.dropLast, p.length ≤ limit
  front : ∀ e, w.failure? = some e → written <+: row (taken.takeWhile (·.length ≤ limit))

variable {w w' : SubscriberSession} {taken : List Packet} {written : Bytes}
  {flushed flushed' ended ended' : Prop}

theorem Rests.mono (rests : w.Rests flushed ended) (hf : flushed → flushed')
    (he : ended → ended') : w.Rests flushed' ended' := by
  obtain ⟨id, capacity, buffer, stats, phase⟩ := w
  cases phase with
  | receiving => exact ⟨rests.1, hf rests.2⟩
  | flushing rest isLast => exact ⟨rests.1, fun last => he (rests.2 last)⟩
  | closing => exact ⟨hf rests.1, he rests.2⟩
  | leaving result | ended result =>
    cases result with
    | ok stats => exact ⟨rests.1, hf rests.2.1, he rests.2.2⟩
    | error cause => trivial
  | _ => trivial

theorem takeWhile_legal (legal : ∀ p ∈ taken, p.length ≤ limit) :
    taken.takeWhile (·.length ≤ limit) = taken :=
  List.takeWhile_eq_self_iff.mpr fun p mem => decide_eq_true (legal p mem)

namespace Conveys

/-- What a session has to show that has not failed. -/
theorem of_healthy (healthy : w.failure? = none) (legal : ∀ p ∈ taken, p.length ≤ limit)
    (whole : written ++ w.outstanding = row taken)
    (counted : ∃ done, taken = done ++ w.inHand ∧ w.stats = .ofPackets done)
    (rests : w.Rests flushed ended) : w.Conveys taken written flushed ended where
  legal := fun _ => legal
  whole := fun _ => whole
  counted := fun _ => counted
  rests := rests
  named := by simp [healthy]
  legalBefore := by simp [healthy]
  front := by simp [healthy]

/-- What a session has to show that has failed. -/
theorem of_failed {e : Error} (fails : w.failure? = some e) (rests : w.Rests flushed ended)
    (named : ∃ cause, e = .connection w.id cause)
    (legalBefore : ∀ p ∈ taken.dropLast, p.length ≤ limit)
    (front : written <+: row (taken.takeWhile (·.length ≤ limit))) :
    w.Conveys taken written flushed ended where
  legal := by simp [fails]
  whole := by simp [fails]
  counted := by simp [fails]
  rests := rests
  named := fun _ same => Option.some.inj (fails.symm.trans same) ▸ named
  legalBefore := fun _ _ => legalBefore
  front := fun _ _ => front

theorem start (id capacity : Nat) (here : flushed) :
    (SubscriberSession.start id capacity).Conveys [] [] flushed ended :=
  of_healthy rfl (List.forall_mem_nil _) rfl ⟨[], rfl, rfl⟩ ⟨rfl, here⟩

theorem mono (c : w.Conveys taken written flushed ended) (hf : flushed → flushed')
    (he : ended → ended') : w.Conveys taken written flushed' ended' :=
  ⟨c.legal, c.whole, c.counted, c.rests.mono hf he, c.named, c.legalBefore, c.front⟩

/-- A packet is taken, and written or refused. -/
theorem begin (c : w.Conveys taken written flushed ended)
    (looks : w.phase = .receiving ∨ w.phase = .draining) (packet : Packet) :
    (w.begin packet).Conveys (taken ++ [packet]) written flushed' ended' := by
  have healthy : w.failure? = none := by
    rw [failure?, stake]
    rcases looks with phase | phase <;> rw [phase] <;> rfl
  have here : w.outstanding = w.buffer := by
    rw [outstanding]
    rcases looks with phase | phase <;> rw [phase]
  have nothing : w.inHand = [] := by
    rw [inHand]
    rcases looks with phase | phase <;> rw [phase]
  have legal := c.legal healthy
  have whole := c.whole healthy
  obtain ⟨done, split, stats⟩ := c.counted healthy
  rw [nothing, List.append_nil] at split
  by_cases tooLarge : limit < packet.length
  · have failing : w.begin packet = { w with phase := .failing (oversize packet) } :=
      if_pos tooLarge
    rw [failing]
    refine of_failed rfl trivial ⟨_, rfl⟩ ?_ ?_
    · rwa [List.dropLast_concat]
    · -- The packet is the first that is too long.
      have before : (taken ++ [packet]).takeWhile (·.length ≤ limit) = taken := by
        rw [List.takeWhile_append_of_pos fun p mem => decide_eq_true (legal p mem),
          List.takeWhile_cons_of_neg (by simpa using tooLarge), List.append_nil]
      rw [before, ← whole]
      exact List.prefix_append _ _
  · have fits : packet.length ≤ limit := Nat.not_lt.mp tooLarge
    obtain ⟨-, out⟩ := begin_working fits here
    have writing : w.begin packet = { w with phase := .writing packet [head packet, packet] } :=
      if_neg tooLarge
    rw [writing] at out ⊢
    refine of_healthy rfl (fun p mem => ?_) ?_ ⟨done, ?_, stats⟩ trivial
    · rcases List.mem_append.mp mem with mem | mem
      · exact legal p mem
      · rwa [List.mem_singleton.mp mem]
    · rw [out, ← List.append_assoc, whole, row_append, row_cons, row_nil, List.append_nil]
    · rw [split]
      rfl

/-- Bytes are moved, and nothing else. -/
theorem move {written' : Bytes} (c : w.Conveys taken written flushed ended)
    (healthy : w.failure? = none) (healthy' : w'.failure? = none)
    (out : written' ++ w'.outstanding = written ++ w.outstanding) (inHand : w'.inHand = w.inHand)
    (stats : w'.stats = w.stats) (rests : w'.Rests flushed' ended') :
    w'.Conveys taken written' flushed' ended' := by
  refine of_healthy healthy' (c.legal healthy) (out.trans (c.whole healthy)) ?_ rests
  rw [inHand, stats]
  exact c.counted healthy

/-- A session that has found nothing more to write, for now or for good. -/
theorem beginFlush (c : w.Conveys taken written flushed ended)
    (looks : w.phase = .receiving ∨ w.phase = .draining) {isLast : Bool}
    (last : isLast = true → ended') :
    (w.beginFlush isLast).Conveys taken written flushed' ended' := by
  obtain ⟨id, capacity, buffer, stats, phase⟩ := w
  have out : written ++ (buffer ++ []) = written ++ buffer := by rw [List.append_nil]
  rcases looks with rfl | rfl
  · exact c.move rfl rfl out rfl rfl ⟨rfl, last⟩
  · exact c.move rfl rfl out rfl rfl ⟨rfl, last⟩

/-- What there is to write of a frame changes its place, or the frame is done. -/
theorem place {packet : Packet} {pieces : List Bytes} (c : w.Conveys taken written flushed ended)
    (phase : w.phase = .writing packet pieces) (hp : w.place? packet pieces = some w') :
    w'.Conveys taken written flushed' ended' := by
  obtain ⟨-, out⟩ := place?_working hp
  obtain ⟨id, capacity, buffer, stats, phase'⟩ := w
  cases phase
  rw [place?.eq_def] at hp
  split at hp
  · cases hp
    obtain ⟨done, split, counted⟩ := c.counted rfl
    refine of_healthy rfl (c.legal rfl) ?_ ⟨taken, ?_, ?_⟩ trivial
    · rw [out]
      exact c.whole rfl
    · exact (List.append_nil taken).symm
    · have all : taken = done ++ [packet] := split
      rw [all, SessionStats.ofPackets_concat, ← counted]
  · cases hp
    exact c.move rfl rfl (congrArg (written ++ ·) out) rfl rfl trivial
  · split at hp
    · cases hp
      exact c.move rfl rfl (congrArg (written ++ ·) out) rfl rfl trivial
    · split at hp
      · cases hp
      · cases hp
        exact c.move rfl rfl (congrArg (written ++ ·) out) rfl rfl trivial

/-- The session's own step. -/
theorem step {h h' : Hub} {events : List Hub.Event}
    (c : w.Conveys taken written flushed (h.available w.id = .ended))
    (hs : w.step? h = some (w', h', events)) :
    w'.Conveys (taken ++ Hub.takenBy w.id events) written flushed (h.available w.id = .ended) := by
  have nothing : taken ++ [] = taken := List.append_nil taken
  have taking {packet : Packet} (there : h.available w.id = .packet packet) {h₁ : Hub}
      {events₁ : List Hub.Event} (took : h.take? w.id = some (h₁, events₁)) :
      Hub.takenBy w.id events₁ = [packet] := by
    obtain ⟨h₂, same⟩ := Hub.take?_of_available there
    cases took.symm.trans same
    simp
  obtain ⟨id, capacity, buffer, stats, phase⟩ := w
  cases phase with
  | receiving =>
    simp only [step?] at hs
    split at hs
    · rename_i packet h₁ events₁ there took
      cases hs
      rw [taking there took]
      exact c.begin (.inl rfl) packet
    · rename_i found
      cases hs
      show Conveys _ (taken ++ []) _ _ _
      rw [nothing]
      exact c.beginFlush (.inl rfl) fun _ => found
    · cases hs
  | draining =>
    simp only [step?] at hs
    split at hs
    · rename_i packet h₁ events₁ there took
      cases hs
      rw [taking there took]
      exact c.begin (.inr rfl) packet
    · cases hs
      show Conveys _ (taken ++ []) _ _ _
      rw [nothing]
      exact c.beginFlush (.inr rfl) (by simp)
  | writing packet pieces =>
    simp only [step?, Option.map_eq_some_iff] at hs
    obtain ⟨next, placed, heq⟩ := hs
    cases heq
    show Conveys _ (taken ++ []) _ _ _
    rw [nothing]
    exact c.place rfl placed
  | spilling rest packet pieces =>
    cases rest with
    | cons b rest => cases hs
    | nil =>
      cases hs
      show Conveys _ (taken ++ []) _ _ _
      rw [nothing]
      exact c.move rfl rfl rfl rfl rfl trivial
  | failing cause =>
    simp only [step?, Option.some.injEq, Prod.mk.injEq] at hs
    obtain ⟨rfl, rfl, rfl⟩ := hs
    have noneTaken : Hub.takenBy id (h.close id).2 = [] := by
      rw [Hub.close]
      split <;> rfl
    have q := (Hub.call_callerStep (h.close id).1 (.unregister id)).quiet
    rw [Hub.takenBy_append, noneTaken, q.takenBy, List.append_nil, nothing]
    exact of_failed rfl trivial (c.named _ rfl) (c.legalBefore _ rfl) (c.front _ rfl)
  | leaving result =>
    cases hs
    show Conveys _ (taken ++ []) _ _ _
    rw [nothing]
    cases result with
    | ok stats => exact ⟨c.legal, c.whole, c.counted, c.rests, c.named, c.legalBefore, c.front⟩
    | error cause =>
      exact ⟨c.legal, c.whole, c.counted, trivial, c.named, c.legalBefore, c.front⟩
  | flushing rest isLast => cases hs
  | closing => cases hs
  | unregistering ticket cause => cases hs
  | ended result => cases hs

/-- The session gives up, with what it has written so far. -/
theorem fail (c : w.Conveys taken written flushed ended) (healthy : w.failure? = none)
    (cause : IoError) :
    ({ w with phase := .failing cause } : SubscriberSession).Conveys taken written flushed'
      ended' := by
  have legal := c.legal healthy
  refine of_failed rfl trivial ⟨_, rfl⟩ (fun p mem => ?_) ?_
  · exact legal p ((List.dropLast_sublist taken).subset mem)
  · rw [takeWhile_legal legal, ← c.whole healthy]
    exact List.prefix_append _ _

end Conveys

/-- The bytes that a connection accepts with an answer. -/
def acceptedBytes : Option Errand → Answer → Bytes
  | some (.write data), .accepted n => data.take n
  | _, _ => []

namespace Conveys

/-- The connection answers to a write: what it accepts is the first of what is outstanding. -/
theorem respond_write {answer : Answer} {data : Bytes} (c : w.Conveys taken written flushed ended)
    (healthy : w.failure? = none) (asked : w.errand? = some (.write data))
    (hr : w.respond? answer = some w')
    (next : ∀ n, answer = .accepted n → w'.failure? = none ∧
      w.outstanding = data.take n ++ w'.outstanding ∧ w'.inHand = w.inHand ∧
      w'.stats = w.stats ∧ w'.Rests flushed' ended) :
    w'.Conveys taken (written ++ acceptedBytes w.errand? answer) flushed' ended := by
  rw [asked]
  cases answer with
  | done => simp [respond?, asked] at hr
  | failed cause =>
    obtain rfl : { w with phase := .failing cause } = w' := by simpa [respond?, asked] using hr
    show Conveys _ taken (written ++ []) flushed' ended
    rw [List.append_nil]
    exact c.fail healthy cause
  | accepted n =>
    obtain ⟨healthy', out, inHand, stats, rests⟩ := next n rfl
    refine c.move healthy healthy' ?_ inHand stats rests
    show written ++ data.take n ++ w'.outstanding = written ++ w.outstanding
    rw [out, List.append_assoc]

/-- The connection answers to whatever it was asked. -/
theorem respond {answer : Answer} (c : w.Conveys taken written flushed ended)
    (hr : w.respond? answer = some w') (done : w.errand? = some .flush → answer = .done → flushed')
    (kept : w.errand? = some .shutDown → flushed → flushed') :
    w'.Conveys taken (written ++ acceptedBytes w.errand? answer) flushed' ended := by
  obtain ⟨id, capacity, buffer, stats, phase⟩ := w
  cases phase with
  | writing packet pieces =>
    cases pieces with
    | nil => cases hr
    | cons piece pieces =>
      cases piece with
      | nil => cases hr
      | cons b piece =>
        let w : SubscriberSession :=
          ⟨id, capacity, buffer, stats, .writing packet ((b :: piece) :: pieces)⟩
        by_cases direct : buffer = [] ∧ w.isLarge (b :: piece) = true
        · have asked : w.errand? = some (.write (b :: piece)) := if_pos direct
          refine c.respond_write rfl asked hr ?_
          rintro n rfl
          simp only [w] at asked
          simp only [respond?, asked] at hr
          split at hr
          · cases hr
            refine ⟨rfl, ?_, rfl, rfl, trivial⟩
            obtain ⟨rfl, -⟩ := direct
            simp only [outstanding, List.nil_append, List.flatten_cons]
            rw [← List.append_assoc, List.take_append_drop]
          · cases hr
        · have asked : w.errand? = none := if_neg direct
          simp only [w] at asked
          simp [respond?, asked] at hr
  | spilling rest packet pieces =>
    cases rest with
    | nil => cases hr
    | cons b rest =>
      refine c.respond_write rfl rfl hr ?_
      rintro n rfl
      simp only [respond?, errand?] at hr
      split at hr
      · cases hr
        refine ⟨rfl, ?_, rfl, rfl, trivial⟩
        simp only [outstanding]
        rw [← List.append_assoc, ← List.append_assoc, List.take_append_drop]
      · cases hr
  | flushing rest isLast =>
    obtain ⟨empty, last⟩ := c.rests
    cases rest with
    | nil =>
      cases answer with
      | accepted n => cases hr
      | failed cause =>
        cases hr
        show Conveys _ taken (written ++ []) flushed' ended
        rw [List.append_nil]
        exact c.fail rfl cause
      | done =>
        have now := done rfl rfl
        show Conveys _ taken (written ++ []) flushed' ended
        rw [List.append_nil]
        cases isLast with
        | true =>
          cases hr
          refine c.move rfl rfl ?_ rfl rfl ⟨now, last rfl⟩
          show written ++ [] = written ++ ([] ++ buffer)
          rw [List.nil_append, show buffer = [] from empty]
        | false =>
          cases hr
          exact c.move rfl rfl rfl rfl rfl ⟨empty, now⟩
    | cons b rest =>
      refine c.respond_write rfl rfl hr ?_
      rintro n rfl
      simp only [respond?, errand?] at hr
      split at hr
      · cases hr
        refine ⟨rfl, ?_, rfl, rfl, empty, last⟩
        simp only [outstanding]
        rw [← List.append_assoc, List.take_append_drop]
      · cases hr
  | closing =>
    -- A connection that fails to shut down has accepted everything all the same.
    obtain ⟨here, last⟩ := c.rests
    have finished : ({ id, capacity, buffer, stats, phase := .leaving (.ok stats) } :
        SubscriberSession).Conveys taken (written ++ []) flushed' ended := by
      rw [List.append_nil]
      exact c.move rfl rfl rfl rfl rfl ⟨rfl, kept rfl here, last⟩
    cases answer with
    | accepted n => cases hr
    | done | failed cause =>
      cases hr
      exact finished
  | receiving => cases hr
  | draining => cases hr
  | failing cause => cases hr
  | unregistering ticket cause => cases hr
  | leaving result => cases hr
  | ended result => cases hr

/-- Of a call that returns the session learns that it may leave, if it has given up. -/
theorem hear (c : w.Conveys taken written flushed ended) (heard : List Hub.Event) :
    (w.hear heard).Conveys taken written flushed ended := by
  refine hear_keeps (P := fun w : SubscriberSession => w.Conveys taken written flushed ended) ?_
    heard c
  rintro ⟨id, capacity, buffer, stats, phase⟩ ticket reply c
  cases phase with
  | unregistering own cause =>
    by_cases mine : own = ticket
    · have told : SubscriberSession.answer ⟨id, capacity, buffer, stats, .unregistering own cause⟩
          ticket = ⟨id, capacity, buffer, stats, .leaving (.error (.connection id cause))⟩ :=
        if_pos mine
      rw [told]
      exact of_failed rfl trivial (c.named _ rfl) (c.legalBefore _ rfl) (c.front _ rfl)
    · have deaf : SubscriberSession.answer ⟨id, capacity, buffer, stats, .unregistering own cause⟩
          ticket = ⟨id, capacity, buffer, stats, .unregistering own cause⟩ := if_neg mine
      rw [deaf]
      exact c
  | _ => exact c

/-! ### What it comes to -/

/-- Nothing is left to be written. -/
theorem settled (c : w.Conveys taken written flushed ended) (healthy : w.failure? = none)
    (nothing : w.inHand = []) (empty : w.outstanding = []) :
    written = row taken ∧ w.stats = .ofPackets taken := by
  have whole := c.whole healthy
  obtain ⟨done, split, stats⟩ := c.counted healthy
  rw [empty, List.append_nil] at whole
  rw [nothing, List.append_nil] at split
  exact ⟨whole, split ▸ stats⟩

theorem inOrder (c : w.Conveys taken written flushed ended) :
    written <+: row (taken.takeWhile (·.length ≤ limit)) := by
  cases fails : w.failure? with
  | some cause => exact c.front cause fails
  | none =>
    rw [takeWhile_legal (c.legal fails), ← c.whole fails]
    exact List.prefix_append _ _

theorem idle (c : w.Conveys taken written flushed ended) (receiving : w.phase = .receiving) :
    written = row taken ∧ flushed := by
  obtain ⟨id, capacity, buffer, stats, phase⟩ := w
  cases receiving
  obtain ⟨empty, flushed⟩ := c.rests
  exact ⟨(c.settled rfl rfl empty).1, flushed⟩

/-- However the connection is shut down, the session ends well. -/
theorem lastAnswer {answer : Answer} (c : w.Conveys taken written flushed ended)
    (asked : w.errand? = some .shutDown) (hr : w.respond? answer = some w') :
    w'.phase = .leaving (.ok (.ofPackets taken)) := by
  have closing : w.phase = .closing := by
    rw [errand?.eq_def] at asked
    split at asked
    · cases asked
    · split at asked <;> cases asked
    · cases asked
    · cases asked
    · assumption
    · cases asked
  obtain ⟨id, capacity, buffer, stats, phase⟩ := w
  cases closing
  have counted := (c.settled rfl rfl rfl).2
  cases answer with
  | accepted n => cases hr
  | done | failed cause =>
    cases hr
    exact congrArg (fun stats => Phase.leaving (.ok stats)) counted

theorem ok {stats : SessionStats} (c : w.Conveys taken written flushed ended)
    (finished : w.phase = .ended (.ok stats)) :
    ended ∧ written = row taken ∧ flushed ∧ stats = .ofPackets taken := by
  obtain ⟨id, capacity, buffer, stats', phase⟩ := w
  cases finished
  obtain ⟨rfl, flushed, ended⟩ := c.rests
  obtain ⟨all, counted⟩ := c.settled rfl rfl rfl
  exact ⟨ended, all, flushed, counted⟩

end Conveys

/-! ### Results -/

theorem phase_of_result? {result : Except Error SessionStats} (ended : w.result? = some result) :
    w.phase = .ended result := by
  rw [result?] at ended
  split at ended
  · cases ended
    assumption
  · cases ended

/-- The session's failure is its result. -/
theorem failure?_of_result? {result : Except Error SessionStats}
    (ended : w.result? = some result) :
    w.failure? = match result with
      | .ok _ => none
      | .error cause => some cause := by
  rw [failure?, stake, phase_of_result? ended]
  cases result <;> rfl

end SubscriberSession

end VideoRelay

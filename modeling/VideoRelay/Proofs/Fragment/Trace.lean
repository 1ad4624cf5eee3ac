/-
What the arrivals so far say about a reassembler.

* `LeavesOpen past first further` — the arrivals `past` leave a unit open, of which
  `first` and then `further` have arrived; this is said of the arrivals alone;
* `current?_of_leavesOpen`, `leavesOpen_of_current?` — a unit is open if and only if
  they do, and its bytes are those of these fragments;
* `report_explained` — so every report is told by the arrivals up to it.

Design notes: a unit is open from a first piece on, as long as only pieces of its type
arrive that are neither first nor last.  One arrival either begins a unit or leaves the
open one as it is, longer by a piece (`leavesOpen_concat`); both directions are by
induction on the arrivals from their end.
-/
import Mathlib.Data.List.Induction
import VideoRelay.Proofs.Fragment.Lossless

namespace VideoRelay

namespace Reassembler

/-- The fragment that an arrival pushes. -/
def Arrival.pushed? : Arrival → Option Fragment
  | .clear => none
  | .fragment f => some f
  | .datagram data => (Fragment.parse data).toOption

/-- A unit is open behind the arrivals `past`: the fragment `first` began it, `further`
are the fragments pushed since then, none of them begins or ends a unit or is of another
type, and nothing was cleared. -/
structure LeavesOpen (past : List Arrival) (first : Fragment) (further : List Fragment) :
    Prop where
  begun : ∃ before opening since, past = before ++ opening :: since ∧
    opening.pushed? = some first ∧ .clear ∉ since ∧ since.filterMap (·.pushed?) = further
  isStart : first.header.isStart = true
  noStart : ∀ f ∈ further, f.header.isStart = false
  sameType : ∀ f ∈ further, f.header.unitType = first.header.unitType
  noEnd : ∀ f ∈ first :: further, f.header.isEnd = false

/-- The unit that `first` begins and `further` continue: a start code, the header byte
with the forbidden bit and the importance of the first indicator and the type of the
first header, and what the fragments carry. -/
def unitOf (first : Fragment) (further : List Fragment) : Bytes :=
  longStartCode ++
    [NalHeader.toByte ⟨first.indicator.forbidden, first.indicator.nri, first.header.unitType⟩] ++
    ((first :: further).map (·.payload)).flatten

theorem unitOf_concat (first : Fragment) (further : List Fragment) (f : Fragment) :
    unitOf first (further ++ [f]) = unitOf first further ++ f.payload := by
  simp [unitOf]

/-! ### One arrival -/

section Push

variable {r : Reassembler} {f : Fragment}

theorem receive_of_pushed? {a : Arrival} (pushes : a.pushed? = some f) :
    r.receive a = r.pushed f := by
  cases a with
  | clear => cases pushes
  | fragment g =>
    obtain rfl := Option.some.inj pushes
    rfl
  | datagram data =>
    rw [Arrival.pushed?] at pushes
    cases parsed : Fragment.parse data with
    | error e =>
      rw [parsed] at pushes
      cases pushes
    | ok g =>
      rw [parsed] at pushes
      obtain rfl := Option.some.inj pushes
      rw [receive, parsed]

/-- What is neither pushed nor clears changes nothing. -/
theorem receive_fst_of_idle {a : Arrival} (idle : a.pushed? = none) (kept : a ≠ .clear) :
    (r.receive a).1 = r := by
  cases a with
  | clear => exact absurd rfl kept
  | fragment g => cases idle
  | datagram data =>
    rw [Arrival.pushed?] at idle
    cases parsed : Fragment.parse data with
    | error e => rw [receive, parsed]
    | ok g =>
      rw [parsed] at idle
      cases idle

theorem push_of_isStart (starts : f.header.isStart = true) :
    r.push f = if f.header.isEnd then (empty, .ok (some (unitOf f [])))
      else (⟨some ⟨f.header.unitType, unitOf f []⟩⟩, .ok none) := by
  have bytes : (opened f).bytes ++ f.payload = unitOf f [] := by simp [opened, unitOf]
  rw [push, target, if_pos starts]
  simp only [bytes]
  rfl

theorem push_of_closed (starts : f.header.isStart = false) (closed : r.current? = none) :
    r.push f = (empty, .error .unexpectedContinuation) := by
  simp only [push, target, starts, closed, Bool.false_eq_true, if_false]

variable {unit : OpenUnit} (isOpen : r.current? = some unit)
include isOpen

theorem push_of_sameType (starts : f.header.isStart = false)
    (same : f.header.unitType = unit.unitType) :
    r.push f = if f.header.isEnd then (empty, .ok (some (unit.bytes ++ f.payload)))
      else (⟨some ⟨unit.unitType, unit.bytes ++ f.payload⟩⟩, .ok none) := by
  simp only [push, target, starts, isOpen, same, Bool.false_eq_true, if_false, if_true]

theorem push_of_otherType (starts : f.header.isStart = false)
    (other : f.header.unitType ≠ unit.unitType) :
    r.push f = (empty, .error (.typeMismatch unit.unitType f.header.unitType)) := by
  simp only [push, target, starts, isOpen, if_neg other.symm, Bool.false_eq_true, if_false]

end Push

theorem filterMap_concat_pushed? (since : List Arrival) (a : Arrival) :
    (since ++ [a]).filterMap (·.pushed?) = since.filterMap (·.pushed?) ++ a.pushed?.toList := by
  rw [List.filterMap_append, List.filterMap_cons, List.filterMap_nil]
  cases a.pushed? <;> rfl

/-- An arrival leaves a unit open if it begins one, or if one was open before and it does
not end it. -/
theorem leavesOpen_concat {past : List Arrival} {a : Arrival} {first : Fragment}
    {further : List Fragment} :
    LeavesOpen (past ++ [a]) first further ↔
      (a.pushed? = some first ∧ first.header.isStart = true ∧ first.header.isEnd = false ∧
        further = []) ∨
      (a ≠ .clear ∧ ∃ earlier, LeavesOpen past first earlier ∧
        further = earlier ++ a.pushed?.toList ∧ ∀ f, a.pushed? = some f →
          f.header.isStart = false ∧ f.header.unitType = first.header.unitType ∧
            f.header.isEnd = false) := by
  constructor
  · rintro ⟨⟨before, opening, since, split, pushes, uncleared, rfl⟩, starts, noStart, same, noEnd⟩
    rcases List.eq_nil_or_concat since with rfl | ⟨since, b, rfl⟩
    · obtain ⟨-, rfl⟩ := List.append_singleton_inj.mp split
      exact .inl ⟨pushes, starts, noEnd first List.mem_cons_self, rfl⟩
    · rw [List.concat_eq_append] at split uncleared noStart same noEnd ⊢
      rw [← List.cons_append, ← List.append_assoc] at split
      obtain ⟨rfl, rfl⟩ := List.append_singleton_inj.mp split
      rw [List.mem_append, not_or, List.mem_singleton] at uncleared
      rw [filterMap_concat_pushed?] at noStart same noEnd ⊢
      refine .inr ⟨Ne.symm uncleared.2, since.filterMap (·.pushed?),
        ⟨⟨before, opening, since, rfl, pushes, uncleared.1, rfl⟩, starts, ?_, ?_, ?_⟩, rfl, ?_⟩
      · exact fun f mem => noStart f (List.mem_append_left _ mem)
      · exact fun f mem => same f (List.mem_append_left _ mem)
      · exact fun f mem => noEnd f (List.cons_subset_cons _ (List.subset_append_left _ _) mem)
      · intro f pushed
        have mem : f ∈ since.filterMap (·.pushed?) ++ a.pushed?.toList := by simp [pushed]
        exact ⟨noStart f mem, same f mem, noEnd f (List.mem_cons_of_mem _ mem)⟩
  · rintro (⟨pushes, starts, noEnd, rfl⟩ | ⟨kept, earlier, unit, rfl, continues⟩)
    · exact ⟨⟨past, a, [], rfl, pushes, nofun, rfl⟩, starts, nofun, nofun,
        fun f mem => List.mem_singleton.mp mem ▸ noEnd⟩
    · obtain ⟨⟨before, opening, since, rfl, pushes, uncleared, rfl⟩, starts, noStart, same,
        noEnd⟩ := unit
      have mem_cases : ∀ {f}, f ∈ since.filterMap (·.pushed?) ++ a.pushed?.toList →
          f ∈ since.filterMap (·.pushed?) ∨ a.pushed? = some f := by
        intro f mem
        simpa using mem
      refine ⟨⟨before, opening, since ++ [a], by simp, pushes, ?_, filterMap_concat_pushed? _ _⟩,
        starts, ?_, ?_, ?_⟩
      · simpa [uncleared] using Ne.symm kept
      · intro f mem
        exact (mem_cases mem).elim (noStart f) fun pushed => (continues f pushed).1
      · intro f mem
        exact (mem_cases mem).elim (same f) fun pushed => (continues f pushed).2.1
      · intro f mem
        rcases List.mem_cons.mp mem with rfl | mem
        · exact noEnd _ List.mem_cons_self
        · exact (mem_cases mem).elim (fun old => noEnd f (List.mem_cons_of_mem _ old))
            fun pushed => (continues f pushed).2.2

/-! ### All arrivals -/

theorem after_concat (r : Reassembler) (past : List Arrival) (a : Arrival) :
    r.after (past ++ [a]) = ((r.after past).receive a).1 := by
  rw [after, List.foldl_append]
  rfl

/-- What is open behind some arrivals is made of the fragments that they say. -/
theorem current?_of_leavesOpen {past : List Arrival} {first : Fragment}
    {further : List Fragment} (unit : LeavesOpen past first further) :
    (empty.after past).current? = some ⟨first.header.unitType, unitOf first further⟩ := by
  induction past using List.reverseRecOn generalizing further with
  | nil =>
    obtain ⟨before, opening, since, split, -⟩ := unit.begun
    simp at split
  | append_singleton past a ih =>
    rw [after_concat]
    rcases leavesOpen_concat.mp unit with
      ⟨pushes, starts, noEnd, rfl⟩ | ⟨kept, earlier, before, rfl, continues⟩
    · rw [receive_of_pushed? pushes, pushed, push_of_isStart starts, noEnd]
      rfl
    · cases pushes : a.pushed? with
      | none =>
        rw [receive_fst_of_idle pushes kept, ih before, Option.toList_none, List.append_nil]
      | some f =>
        obtain ⟨starts, same, noEnd⟩ := continues f pushes
        rw [receive_of_pushed? pushes, pushed, push_of_sameType (ih before) starts same, noEnd,
          Option.toList_some, unitOf_concat]
        rfl

/-- If a unit is open, some arrivals say so. -/
theorem leavesOpen_of_current? {past : List Arrival} {unit : OpenUnit}
    (isOpen : (empty.after past).current? = some unit) :
    ∃ first further, LeavesOpen past first further := by
  induction past using List.reverseRecOn generalizing unit with
  | nil => cases isOpen
  | append_singleton past a ih =>
    rw [after_concat] at isOpen
    simp only [leavesOpen_concat]
    cases pushes : a.pushed? with
    | none =>
      -- Only clearing closes a unit without a push, and it leaves none open.
      have kept : a ≠ .clear := by
        rintro rfl
        cases isOpen
      rw [receive_fst_of_idle pushes kept] at isOpen
      obtain ⟨first, further, unit⟩ := ih isOpen
      exact ⟨first, further, .inr ⟨kept, further, unit, by simp, nofun⟩⟩
    | some f =>
      rw [receive_of_pushed? pushes, pushed] at isOpen
      cases starts : f.header.isStart with
      | true =>
        rw [push_of_isStart starts] at isOpen
        cases ends : f.header.isEnd with
        | true =>
          rw [ends] at isOpen
          cases isOpen
        | false => exact ⟨f, [], .inl ⟨rfl, starts, ends, rfl⟩⟩
      | false =>
        cases before : (empty.after past).current? with
        | none =>
          rw [push_of_closed starts before] at isOpen
          cases isOpen
        | some old =>
          obtain ⟨first, further, unit⟩ := ih before
          have known := current?_of_leavesOpen unit
          by_cases same : f.header.unitType = first.header.unitType
          · rw [push_of_sameType known starts same] at isOpen
            cases ends : f.header.isEnd with
            | true =>
              rw [ends] at isOpen
              cases isOpen
            | false =>
              have kept : a ≠ .clear := by
                rintro rfl
                cases pushes
              refine ⟨first, further ++ [f], .inr ⟨kept, further, unit, rfl, ?_⟩⟩
              rintro g ⟨⟩
              exact ⟨starts, same, ends⟩
          · rw [push_of_otherType known starts same] at isOpen
            cases isOpen

/-- What can be said of the open unit is what the arrivals say. -/
theorem exists_leavesOpen_iff (past : List Arrival) (fits : UInt8 → Bytes → Prop) :
    (∃ first further, LeavesOpen past first further ∧
        fits first.header.unitType (unitOf first further)) ↔
      ∃ unit, (empty.after past).current? = some unit ∧ fits unit.unitType unit.bytes := by
  constructor
  · rintro ⟨first, further, unit, said⟩
    exact ⟨_, current?_of_leavesOpen unit, said⟩
  · rintro ⟨unit, isOpen, said⟩
    obtain ⟨first, further, arrived⟩ := leavesOpen_of_current? isOpen
    obtain rfl := Option.some.inj (isOpen.symm.trans (current?_of_leavesOpen arrived))
    exact ⟨first, further, arrived, said⟩

theorem inProgress_after (past : List Arrival) :
    (empty.after past).inProgress ↔ ∃ first further, LeavesOpen past first further := by
  have known := exists_leavesOpen_iff past fun _ _ => True
  simp only [and_true] at known
  rw [inProgress, Option.isSome_iff_exists, known]

/-- What the push of `f` behind the arrivals `past` returns, and how many bytes it makes the
reassembler give up. -/
structure Answers (past : List Arrival) (f : Fragment)
    (result : Except FormatError (Option Bytes)) (discarded? : Option Nat) : Prop where
  unexpected : result = .error .unexpectedContinuation ↔
    f.header.isStart = false ∧ ¬∃ first further, LeavesOpen past first further
  mismatch : ∀ expected actual, result = .error (.typeMismatch expected actual) ↔
    f.header.isStart = false ∧ ∃ first further, LeavesOpen past first further ∧
      first.header.unitType ≠ f.header.unitType ∧
      first.header.unitType = expected ∧ f.header.unitType = actual
  completes : ∀ unit, result = .ok (some unit) ↔ f.header.isEnd = true ∧
    (f.header.isStart = true ∧ unitOf f [] = unit ∨
      f.header.isStart = false ∧ ∃ first further, LeavesOpen past first further ∧
        first.header.unitType = f.header.unitType ∧ unitOf first (further ++ [f]) = unit)
  silent : result = .ok none ↔ f.header.isEnd = false ∧
    (f.header.isStart = true ∨ ∃ first further, LeavesOpen past first further ∧
      first.header.unitType = f.header.unitType)
  givenUp : ∀ count, discarded? = some count ↔ f.header.isStart = true ∧
    ∃ first further, LeavesOpen past first further ∧ (unitOf first further).length = count

theorem answers_push (past : List Arrival) (f : Fragment) :
    Answers past f ((empty.after past).push f).2 ((empty.after past).discarded? f) := by
  -- Of the unit that the arrivals leave open only its type and its bytes matter.
  have isOpen := exists_leavesOpen_iff past fun _ _ => True
  have other := fun expected actual => exists_leavesOpen_iff past fun type _ =>
    type ≠ f.header.unitType ∧ type = expected ∧ f.header.unitType = actual
  have continued := fun unit => exists_leavesOpen_iff past fun type bytes =>
    type = f.header.unitType ∧ bytes ++ f.payload = unit
  have same := exists_leavesOpen_iff past fun type _ => type = f.header.unitType
  have size := fun count => exists_leavesOpen_iff past fun _ bytes =>
    bytes.length = count
  simp only [and_true] at isOpen
  simp only [← unitOf_concat] at continued
  constructor
  case givenUp =>
    intro count
    rw [size, discarded?]
    cases f.header.isStart <;> simp
  all_goals
    simp only [isOpen, other, continued, same]
    generalize empty.after past = r
    cases starts : f.header.isStart with
    | true =>
      rw [push_of_isStart starts]
      cases f.header.isEnd <;> simp
    | false =>
      cases before : r.current? with
      | none =>
        rw [push_of_closed starts before]
        simp
      | some unit =>
        by_cases alike : unit.unitType = f.header.unitType
        · rw [push_of_sameType before starts alike.symm]
          cases f.header.isEnd <;> simp [alike]
        · rw [push_of_otherType before starts (Ne.symm alike)]
          simp [alike]

/-- Every report is told by the arrivals up to it: whether a unit is open behind the arrival,
and, if the arrival pushes a fragment, what the push returns. -/
theorem report_explained (past : List Arrival) (a : Arrival) (rest : List Arrival) :
    ∃ report, (empty.feed (past ++ a :: rest))[past.length]? = some report ∧
      (report.inProgress ↔ ∃ first further, LeavesOpen (past ++ [a]) first further) ∧
      match a.pushed? with
      | some f => ∃ result discarded?, report.outcome = .pushed result discarded? ∧
          Answers past f result discarded?
      | none => a = .clear ∧ report.outcome = .cleared ∨
          ∃ data cause, a = .datagram data ∧ Fragment.parse data = .error cause ∧
            report.outcome = .unparsed cause := by
  have length : ∀ r : Reassembler, (r.feed past).length = past.length := by
    induction past with
    | nil => exact fun _ => rfl
    | cons first past ih => exact fun r => congrArg (· + 1) (ih _)
  refine ⟨⟨((empty.after past).receive a).2, ((empty.after past).receive a).1.inProgress⟩, ?_,
    ?_, ?_⟩
  · rw [feed_append, List.getElem?_append_right (Nat.le_of_eq (length _)), length, Nat.sub_self,
      feed_cons]
    rfl
  · rw [← after_concat]
    exact inProgress_after _
  · cases pushes : a.pushed? with
    | some f =>
      refine ⟨_, _, ?_, answers_push past f⟩
      rw [receive_of_pushed? pushes]
      rfl
    | none =>
      cases a with
      | clear => exact .inl ⟨rfl, rfl⟩
      | fragment f => cases pushes
      | datagram data =>
        cases parsed : Fragment.parse data with
        | ok f =>
          rw [Arrival.pushed?, parsed] at pushes
          cases pushes
        | error cause => exact .inr ⟨data, cause, rfl, parsed, by simp only [receive, parsed]⟩

end Reassembler

end VideoRelay

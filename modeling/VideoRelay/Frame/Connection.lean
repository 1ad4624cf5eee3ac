/-
Writing packets to a connection.

A connection takes as many bytes of a write as it likes, but at least one; it
may fail once it has taken a certain number, and it may fail to flush or to shut
down (`Fault`).

* `Connection.write` — one write;
* `Connection.writeAll` — writes until all is taken;
* `Connection.writeFrame` — the frame of a packet, or nothing of it if the packet
  is too long;
* `Connection.pos_of_write` — a write that succeeds takes something.

Design notes: what a connection has taken is held write by write, latest first,
so that many small writes stay cheap; `Connection.written` puts it together.
-/
import VideoRelay.Error
import VideoRelay.Frame.Basic

namespace VideoRelay

/-- What a connection is asked to do. -/
inductive Operation
  | write
  | flush
  | shutdown
  deriving DecidableEq, Repr

/-- One operation that fails: flushing and shutting down always, writing from
the moment `after` bytes have been taken. -/
structure Fault where
  operation : Operation
  after : Nat
  cause : IoError
  deriving DecidableEq, Repr

/-- The receiving end of what the relay writes. -/
structure Connection where
  /-- The most bytes that the next write takes, by the number taken before;
  without a number, any. -/
  grain : Nat → Option Nat
  fault? : Option Fault
  /-- The bytes taken, write by write, latest first. -/
  taken : List Bytes
  size : Nat
  isShutDown : Bool

/-- The first `n` bytes, or all of them without a limit. -/
def takeUpTo (limit? : Option Nat) (data : Bytes) : Bytes :=
  match limit? with
  | none => data
  | some n => data.take n

namespace Connection

/-- A connection that has taken nothing yet. -/
def fresh (grain : Nat → Option Nat) (fault? : Option Fault) : Connection :=
  ⟨grain, fault?, [], 0, false⟩

/-- All bytes taken, in order. -/
def written (c : Connection) : Bytes := c.taken.reverse.flatten

/-- Why an operation other than a write fails. -/
def failure? (c : Connection) (operation : Operation) : Option IoError :=
  match c.fault? with
  | some fault => if fault.operation = operation then some fault.cause else none
  | none => none

/-- Why the next write fails. -/
def writeFailure? (c : Connection) : Option IoError :=
  match c.fault? with
  | some fault =>
    if fault.operation = .write ∧ fault.after ≤ c.size then some fault.cause else none
  | none => none

/-- How many bytes are left until writes fail. -/
def room? (c : Connection) : Option Nat :=
  match c.fault? with
  | some fault => if fault.operation = .write then some (fault.after - c.size) else none
  | none => none

/-- The part of `data` that the next write takes, if it does not fail. -/
def accepted (c : Connection) (data : Bytes) : Bytes :=
  takeUpTo c.room? (takeUpTo ((c.grain c.size).map (max 1)) data)

/-- One write; its result is the number of bytes taken. -/
def write (c : Connection) (data : Bytes) : Except IoError Nat × Connection :=
  match c.writeFailure? with
  | some cause => (.error cause, c)
  | none =>
    let part := c.accepted data
    (.ok part.length, { c with taken := part :: c.taken, size := c.size + part.length })

theorem takeUpTo_ne_nil {limit? : Option Nat} {data : Bytes}
    (hl : ∀ n, limit? = some n → 0 < n) (hd : data ≠ []) : takeUpTo limit? data ≠ [] := by
  cases limit? with
  | none => exact hd
  | some n =>
    have := hl n rfl
    simp only [takeUpTo, ne_eq, List.take_eq_nil_iff, not_or]
    exact ⟨by omega, hd⟩

/-- A write that succeeds takes something. -/
theorem pos_of_write {c next : Connection} {data : Bytes} {n : Nat} (hd : data ≠ [])
    (h : c.write data = (.ok n, next)) : 0 < n := by
  unfold write at h
  split at h
  · simp at h
  · rename_i hf
    simp only [Prod.mk.injEq, Except.ok.injEq] at h
    obtain ⟨rfl, -⟩ := h
    refine List.length_pos_iff.mpr (takeUpTo_ne_nil ?_ (takeUpTo_ne_nil ?_ hd))
    · intro n hn
      unfold room? at hn
      unfold writeFailure? at hf
      split at hn
      · rename_i fault hfault
        rw [hfault] at hf
        split at hn
        · rename_i hw
          simp only [hw, true_and, ite_eq_right_iff, reduceCtorEq, imp_false, Nat.not_le] at hf
          simp only [Option.some.injEq] at hn
          omega
        · simp at hn
      · simp at hn
    · intro n hn
      obtain ⟨m, -, rfl⟩ := Option.map_eq_some_iff.mp hn
      omega

/-- Write until all of `data` is taken or a write fails. -/
def writeAll (c : Connection) (data : Bytes) : Except IoError Unit × Connection :=
  if _hd : data = [] then (.ok (), c)
  else
    match _h : c.write data with
    | (.error cause, next) => (.error cause, next)
    | (.ok n, next) => next.writeAll (data.drop n)
termination_by data.length
decreasing_by
  have := pos_of_write _hd _h
  have := List.length_pos_iff.mpr _hd
  simp only [List.length_drop]
  omega

/-- Write the frame of a packet.  A packet over the limit is refused before
anything is written. -/
def writeFrame (c : Connection) (packet : Packet) : Except Error Unit × Connection :=
  if Frame.limit < packet.length then
    (.error (.protocol (.packetTooLarge (Frame.tellable packet))), c)
  else
    match c.writeAll (Frame.head packet) with
    | (.error cause, c) => (.error (.io cause), c)
    | (.ok (), c) =>
      match c.writeAll packet with
      | (.error cause, c) => (.error (.io cause), c)
      | (.ok (), c) => (.ok (), c)

/-- Write packets one after the other, going on after errors. -/
def writeFrames (c : Connection) : List Packet → List (Except Error Unit) × Connection
  | [] => ([], c)
  | packet :: rest =>
    let (result, c) := c.writeFrame packet
    let (results, c) := c.writeFrames rest
    (result :: results, c)

end Connection

end VideoRelay

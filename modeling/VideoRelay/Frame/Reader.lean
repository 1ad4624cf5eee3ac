/-
Reading packets from a byte stream.

The stream arrives in chunks of any sizes, with pauses, failures and in the end
its end (`Incoming`).  A reader takes what it needs for one frame at a time,
through a buffer that may read ahead.

* `Source.read` — one read of at most `n` bytes;
* `Reader.next` — the next packet, the end, or what is wrong;
* `Reader.all` — everything there is to read, up to the end or an error;
* `Source.read_size` — a read takes no more from a source than it gives.

Design notes: a frame may arrive in many pieces, so a reader holds the bytes of
the frame in progress.  After an error these bytes are gone, and reading goes on
behind them.
-/
import VideoRelay.Error
import VideoRelay.Frame.Basic

namespace VideoRelay

/-! ### Sources -/

/-- What can arrive on a stream. -/
inductive Incoming
  /-- Some bytes; no bytes at all look like the end to one read. -/
  | chunk (data : Bytes)
  | notReady
  /-- The end of the stream, for good. -/
  | endOfStream
  | failure (cause : IoError)
  deriving DecidableEq, Repr

/-- How much of a stream an arrival is. -/
def Incoming.size : Incoming → Nat
  | .chunk data => data.length + 1
  | _ => 1

/-- A stream behind a buffer of `capacity` bytes.  A read of that many bytes or
more goes past the buffer, so capacity zero is no buffer. -/
structure Source where
  capacity : Nat
  buffer : Bytes
  arrived : List Incoming
  deriving DecidableEq, Repr

/-- What one read gives. -/
inductive ReadResult
  /-- Some bytes; none at the end of the stream. -/
  | data (bytes : Bytes)
  | failed (cause : IoError)
  | blocked
  deriving DecidableEq, Repr

/-- One read of at most `n` bytes past any buffer. -/
def readArrived (n : Nat) : List Incoming → ReadResult × List Incoming
  | [] => (.blocked, [])
  | .notReady :: rest => readArrived n rest
  | .endOfStream :: rest => (.data [], .endOfStream :: rest)
  | .failure cause :: rest => (.failed cause, rest)
  -- What is left of a chunk stays in front.
  | .chunk data :: rest =>
    (.data (data.take n), if data.drop n = [] then rest else .chunk (data.drop n) :: rest)

/-- How much there is to read, pauses included. -/
def arrivedSize (arrived : List Incoming) : Nat := total (arrived.map Incoming.size)

theorem readArrived_size {n : Nat} {arrived rest : List Incoming} {bytes : Bytes}
    (h : readArrived n arrived = (.data bytes, rest)) :
    arrivedSize rest + bytes.length ≤ arrivedSize arrived := by
  induction arrived with
  | nil => simp [readArrived] at h
  | cons a as ih =>
    cases a with
    | notReady =>
      have := ih (by simpa [readArrived] using h)
      simp only [arrivedSize, List.map_cons, total, Incoming.size] at *
      omega
    | failure cause => simp [readArrived] at h
    | endOfStream =>
      simp only [readArrived, Prod.mk.injEq, ReadResult.data.injEq] at h
      obtain ⟨rfl, rfl⟩ := h
      simp
    | chunk data =>
      simp only [readArrived, Prod.mk.injEq, ReadResult.data.injEq] at h
      obtain ⟨rfl, rfl⟩ := h
      split
      · simp only [arrivedSize, List.map_cons, total, Incoming.size, List.length_take]
        omega
      · rename_i hd
        have : n < data.length := by simpa using hd
        simp only [arrivedSize, List.map_cons, total, Incoming.size, List.length_take,
          List.length_drop]
        omega

namespace Source

/-- A stream without a buffer. -/
def unbuffered (arrived : List Incoming) : Source := ⟨0, [], arrived⟩

/-- Whether there is nothing to read. -/
def isExhausted (s : Source) : Bool := s.buffer.isEmpty && s.arrived.isEmpty

/-- How much there is to read, pauses included. -/
def size (s : Source) : Nat := s.buffer.length + arrivedSize s.arrived

/-- One read of at most `n` bytes: from the buffer if it holds any, else past
it if `n` bytes fill it, else through it. -/
def read (n : Nat) (s : Source) : ReadResult × Source :=
  if s.buffer ≠ [] then (.data (s.buffer.take n), { s with buffer := s.buffer.drop n })
  else if s.capacity ≤ n then
    let (result, arrived) := readArrived n s.arrived
    (result, { s with arrived })
  else
    -- The buffer is filled as far as it goes, and read from.
    match readArrived s.capacity s.arrived with
    | (.data bytes, arrived) => (.data (bytes.take n), { s with buffer := bytes.drop n, arrived })
    | (result, arrived) => (result, { s with arrived })

/-- A read takes no more from a source than it gives. -/
theorem read_size {n : Nat} {s rest : Source} {bytes : Bytes}
    (h : s.read n = (.data bytes, rest)) : rest.size + bytes.length ≤ s.size := by
  unfold read at h
  split at h
  · simp only [Prod.mk.injEq, ReadResult.data.injEq] at h
    obtain ⟨rfl, rfl⟩ := h
    simp only [size, List.length_take, List.length_drop]
    omega
  · rename_i hb
    have hb : s.buffer = [] := by simpa using hb
    split at h
    · rcases hr : readArrived n s.arrived with ⟨result, arrived⟩
      rw [hr] at h
      simp only [Prod.mk.injEq] at h
      obtain ⟨rfl, rfl⟩ := h
      have := readArrived_size hr
      simp only [size, hb, List.length_nil]
      omega
    · split at h
      · rename_i got arrived heq
        simp only [Prod.mk.injEq, ReadResult.data.injEq] at h
        obtain ⟨rfl, rfl⟩ := h
        have := readArrived_size heq
        simp only [size, hb, List.length_nil, List.length_take, List.length_drop]
        omega
      · rename_i result arrived hne heq
        simp only [Prod.mk.injEq] at h
        exact absurd h.1 (hne bytes)

end Source

/-! ### Readers -/

/-- A reader of packets. -/
structure Reader where
  /-- The bytes of the frame in progress. -/
  held : Bytes
  source : Source
  deriving DecidableEq, Repr

/-- What the next packet turns out to be. -/
inductive Received
  | packet (packet : Packet)
  /-- The stream ended between two frames. -/
  | ended
  | failed (cause : Error)
  /-- More has to arrive first. -/
  | starved
  deriving DecidableEq, Repr

namespace Reader

def ofSource (source : Source) : Reader := ⟨[], source⟩

/-- How much is held or there to read. -/
def size (r : Reader) : Nat := r.held.length + r.source.size

/-- What the end of the stream means after the bytes `held` of a frame. -/
def atEnd (held : Bytes) : Received :=
  if held = [] then .ended
  else if held.length < Frame.headSize then
    .failed (.protocol (.truncated Frame.headSize held.length))
  else .failed (.protocol (.truncated (Frame.announced held) (held.length - Frame.headSize)))

/-- Read until the frame that begins with `held` is complete. -/
def complete (held : Bytes) (source : Source) : Received × Reader :=
  match Frame.demand held with
  | .complete packet => (.packet packet, ⟨[], source⟩)
  | .oversize announced => (.failed (.protocol (.packetTooLarge announced)), ⟨[], source⟩)
  | .more n =>
    match _h : source.read n with
    | (.blocked, source) => (.starved, ⟨held, source⟩)
    | (.failed cause, source) => (.failed (.io cause), ⟨[], source⟩)
    -- No bytes at all are the end of the stream.
    | (.data [], source) => (atEnd held, ⟨[], source⟩)
    | (.data (b :: bytes), source) => complete (held ++ b :: bytes) source
termination_by source.size
decreasing_by
  have := Source.read_size _h
  simp only [List.length_cons] at this
  omega

/-- The next packet of the stream. -/
def next (r : Reader) : Received × Reader := complete r.held r.source

theorem size_complete_packet {held : Bytes} {source : Source} {packet : Packet} {r : Reader}
    (h : complete held source = (.packet packet, r)) :
    r.size + packet.length + Frame.headSize ≤ held.length + source.size := by
  fun_induction complete held source with
  | case1 held source body hd =>
    simp only [Prod.mk.injEq, Received.packet.injEq] at h
    obtain ⟨rfl, rfl⟩ := h
    have hlen : Frame.headSize + body.length = held.length := by
      unfold Frame.demand at hd
      split at hd
      · simp at hd
      · split at hd
        · simp at hd
        · split at hd
          · simp at hd
          · obtain rfl := by simpa using hd
            simp only [List.length_drop]
            omega
    simp only [size, List.length_nil]
    omega
  | case2 => simp at h
  | case3 => simp at h
  | case4 => simp at h
  | case5 held source n hd source' heq =>
    simp only [atEnd] at h
    split at h
    · simp at h
    · split at h <;> simp at h
  | case6 held source n hd b bytes source' heq ih =>
    have h1 := ih h
    have h2 := Source.read_size heq
    simp only [List.length_append] at h1
    omega

theorem size_next_packet {r rest : Reader} {packet : Packet}
    (h : r.next = (.packet packet, rest)) : rest.size < r.size := by
  have := size_complete_packet h
  simp only [size, Frame.headSize] at *
  omega

/-- All that can be read, up to the end or the first error. -/
def all (r : Reader) : List Received :=
  match _h : r.next with
  | (.packet packet, rest) => .packet packet :: rest.all
  | (last, _) => [last]
termination_by r.size
decreasing_by exact size_next_packet _h

/-- What `calls` reads in a row give, errors or not. -/
def times (calls : Nat) (r : Reader) : List Received :=
  match calls with
  | 0 => []
  | calls + 1 =>
    let (received, rest) := r.next
    received :: rest.times calls

end Reader

end VideoRelay

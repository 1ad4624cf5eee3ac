/-
The relay on standard streams: standard input is the one producer, standard
output the one subscriber.

Packets are read and written as frames.  What the hub does in between is set by
the options; an error that ends the producer or the server goes to standard
error.
-/
import VideoRelay.Relay.Options
import VideoRelay.Relay.Script

namespace VideoRelay

/-- All of a stream, behind the bytes read so far. -/
partial def readToEnd (input : IO.FS.Stream) (sofar : ByteArray) : IO ByteArray := do
  let bytes ← input.read 65536
  if bytes.isEmpty then return sofar else readToEnd input (sofar ++ bytes)

/-- One producer that sends `data`, for one subscriber. -/
def streamScript (data : Bytes) : List Relay.Command :=
  [.subscribe, .connect, .send 0 data, .finish 0, .wait 0]

/-- Relay standard input to standard output. -/
def relayStreams (config : ServerConfig) : IO UInt32 := do
  let data ← readToEnd (← IO.getStdin) ByteArray.empty
  match Relay.perform .loopback config (streamScript data.toList) with
  | some (.ok report) =>
    let frames := report.received.flatten.flatMap Frame.encode
    (← IO.getStdout).write ⟨frames.toArray⟩
    match report.ending with
    | .ok () => return 0
    | .error cause =>
      IO.eprintln cause.message
      return 1
  | some (.error cause) =>
    IO.eprintln cause.message
    return 1
  | none => return 1

end VideoRelay

open VideoRelay

def main (arguments : List String) : IO UInt32 := do
  match Options.parse .standard arguments with
  | .ok config => relayStreams config
  | .error cause =>
    IO.eprintln cause.message
    return 2

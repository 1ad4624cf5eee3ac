/-
Errors, as causes.

Each layer has its own type: what a connection reports (`IoError`), what a
byte stream may violate (`ProtocolError`), what a media payload may violate
(`FormatError`) and what a caller of the hub may meet (`HubError`).  `Error`
joins them.  The wording is in the `message` functions and nowhere else.

* `Error.isConnectionScoped` — whether an error concerns one connection only,
  so that the server goes on without it.
-/
import VideoRelay.SocketAddress

namespace VideoRelay

/-! ### Input and output -/

/-- The kinds of failure a connection reports. -/
inductive IoErrorKind
  | notFound
  | permissionDenied
  | connectionRefused
  | connectionReset
  | hostUnreachable
  | networkUnreachable
  | connectionAborted
  | notConnected
  | addrInUse
  | addrNotAvailable
  | networkDown
  | brokenPipe
  | alreadyExists
  | wouldBlock
  | invalidInput
  | invalidData
  | timedOut
  | writeZero
  | storageFull
  | interrupted
  | unsupported
  | unexpectedEof
  | outOfMemory
  | other
  deriving DecidableEq, Repr

/-- A failure of a read, a write, a flush, a shutdown or a listener.  Its
text is all that is said about it. -/
structure IoError where
  kind : IoErrorKind
  text : String
  deriving DecidableEq, Repr

/-! ### Media formats -/

/-- Why bytes are no fragment, or cannot be fragmented or reassembled. -/
inductive FormatError
  /-- A NAL unit needs at least its header byte. -/
  | nalUnitTooShort (size : Nat)
  /-- A fragment needs its indicator and its header. -/
  | fragmentTooShort (size : Nat)
  | notFuA (unitType : UInt8)
  /-- No unit can be cut into pieces of no bytes. -/
  | zeroFragmentSize
  | unexpectedContinuation
  /-- A continuation arrived for another type than the open unit's. -/
  | typeMismatch (expected actual : UInt8)
  deriving DecidableEq, Repr

def FormatError.message : FormatError → String
  | .nalUnitTooShort size => s!"NAL unit too short: {size} bytes"
  | .fragmentTooShort size => s!"FU-A fragment too short: {size} bytes"
  | .notFuA unitType => s!"Not an FU-A fragment: indicator type {unitType.toNat}"
  | .zeroFragmentSize => "Fragment payload size must be non-zero"
  | .unexpectedContinuation => "FU-A continuation without start fragment"
  | .typeMismatch expected actual =>
    s!"FU-A type mismatch: expected {expected.toNat}, got {actual.toNat}"

/-! ### The packet stream -/

/-- How a stream of length-prefixed packets can be violated. -/
inductive ProtocolError
  | packetTooLarge (size : Nat)
  /-- The stream ended inside a prefix or a body. -/
  | truncated (expected received : Nat)
  deriving DecidableEq, Repr

def ProtocolError.message : ProtocolError → String
  | .packetTooLarge size => "Invalid packet size 0x" ++ hexadecimal size
  | .truncated expected received =>
    s!"Truncated packet: expected {expected} bytes, received {received}"

/-! ### The hub -/

/-- Why a call to the hub fails. -/
inductive HubError
  /-- The hub has stopped, or stopped before it served the call. -/
  | closed
  deriving DecidableEq, Repr

def HubError.message : HubError → String
  | .closed => "Broadcast hub closed"

/-! ### All of them -/

/-- Any error of the relay. -/
inductive Error
  | io (cause : IoError)
  | protocol (cause : ProtocolError)
  | format (cause : FormatError)
  | hub (cause : HubError)
  | connection (subscriber : Nat) (cause : IoError)
  /-- A listener could not be bound or could not accept. -/
  | listener (address : SocketAddress) (cause : IoError)
  | sinkClosed
  deriving DecidableEq, Repr

/-- What the wrapped error says by itself. -/
def Error.cause? : Error → Option String
  | .io cause => some cause.text
  | .protocol cause => some cause.message
  | .format cause => some cause.message
  | .hub cause => some cause.message
  | .connection _ cause => some cause.text
  | .listener _ cause => some cause.text
  | .sinkClosed => none

def Error.message : Error → String
  | .io cause => "IO error: " ++ cause.text
  | .protocol cause => "Protocol error: " ++ cause.message
  | .format cause => "Format error: " ++ cause.message
  | .hub cause => "Hub error: " ++ cause.message
  | .connection subscriber cause =>
    s!"Connection error on subscriber {subscriber}: {cause.text}"
  | .listener address cause => s!"Listener error on {address.text}: {cause.text}"
  | .sinkClosed => "Payload sink closed"

/-- Whether the error ends one connection and leaves the server running. -/
def Error.isConnectionScoped : Error → Bool
  | .io _ | .protocol _ | .connection .. => true
  | .format _ | .hub _ | .listener .. | .sinkClosed => false

end VideoRelay

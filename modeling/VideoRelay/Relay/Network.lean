/-
The network that a relay server finds itself in: which addresses can be bound,
and whether anybody can connect.
-/
import VideoRelay.Error

namespace VideoRelay

/-- A network, as far as a server meets it. -/
structure Network where
  /-- Why an address cannot be bound. -/
  bindFailure? : SocketAddress → Option IoError
  /-- Producers and subscribers can connect. -/
  isReachable : Bool

namespace Network

/-- No interface of this machine has the address. -/
def addressNotAvailable : IoError where
  kind := .addrNotAvailable
  text := "Cannot assign requested address (os error 99)"

/-- Whether an address lies in the block that is reserved for documentation. -/
def isDocumentation : SocketAddress → Bool
  | .v4 a b c _ _ => a = 192 && b = 0 && c = 2
  | .v6 _ _ _ => false

/-- The machine's own network: everybody on it can connect, and documentation
addresses belong to nobody. -/
def loopback : Network where
  bindFailure? address := if isDocumentation address then some addressNotAvailable else none
  isReachable := true

/-- No network behind the sockets: any address can be bound, and nobody can
connect. -/
def isolated : Network where
  bindFailure? _ := none
  isReachable := false

end Network

end VideoRelay

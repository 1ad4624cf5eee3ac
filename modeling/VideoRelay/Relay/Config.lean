/-
Configuration of a relay server: where it listens, how it reads and writes, and
its hub.
-/
import VideoRelay.Hub.Config
import VideoRelay.SocketAddress

namespace VideoRelay

/-- Configuration of a relay server. -/
structure ServerConfig where
  /-- Where producers connect. -/
  ingest : SocketAddress
  /-- Where subscribers connect. -/
  broadcast : SocketAddress
  /-- Small writes are sent at once. -/
  noDelay : Bool
  readBuffer : Nat
  writeBuffer : Nat
  hub : HubConfig
  deriving DecidableEq, Repr

namespace ServerConfig

/-- Listens at the two given addresses. -/
def ofAddresses (ingest broadcast : SocketAddress) : ServerConfig where
  ingest
  broadcast
  noDelay := true
  readBuffer := 4096
  writeBuffer := 65536
  hub := .standard

/-- Listens on all interfaces. -/
def standard : ServerConfig := ofAddresses (.v4 0 0 0 0 1337) (.v4 0 0 0 0 1338)

def withIngestAddress (c : ServerConfig) (a : SocketAddress) : ServerConfig :=
  { c with ingest := a }

def withBroadcastAddress (c : ServerConfig) (a : SocketAddress) : ServerConfig :=
  { c with broadcast := a }

def withNoDelay (c : ServerConfig) (noDelay : Bool) : ServerConfig := { c with noDelay }

def withQueueCapacity (c : ServerConfig) (n : Nat) : ServerConfig :=
  { c with hub := c.hub.withQueueCapacity n }

def withPolicy (c : ServerConfig) (policy : OverflowPolicy) : ServerConfig :=
  { c with hub := c.hub.withPolicy policy }

def withGrace (c : ServerConfig) (milliseconds : Nat) : ServerConfig :=
  { c with hub := c.hub.withGrace milliseconds }

/-- All settings of the hub at once. -/
def withHub (c : ServerConfig) (hub : HubConfig) : ServerConfig := { c with hub }

end ServerConfig

end VideoRelay

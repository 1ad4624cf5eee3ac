/-
Configuration of a hub.

* `OverflowPolicy` — what happens to a packet when a subscriber's queue is full;
* `HubConfig` — capacities, policy and grace;
* `HubConfig.queueRoom`, `HubConfig.commandRoom` — the capacities in force, which
  are at least one whatever is configured.
-/

namespace VideoRelay

/-- What the hub does when a subscriber's queue is full. -/
inductive OverflowPolicy
  /-- Wait for room; meanwhile nobody is served. -/
  | block
  /-- Leave the packet out for this subscriber. -/
  | dropNewest
  /-- Remove the subscriber, which keeps what is queued for it. -/
  | disconnect
  deriving DecidableEq, Repr

namespace OverflowPolicy

/-- The policy unless another is chosen. -/
def standard : OverflowPolicy := block

/-- The word for a policy. -/
def text : OverflowPolicy → String
  | block => "block"
  | dropNewest => "drop-newest"
  | disconnect => "disconnect"

/-- No policy has this word. -/
structure Unknown where
  word : String
  deriving DecidableEq, Repr

def Unknown.message (e : Unknown) : String :=
  s!"unknown overflow policy '{e.word}' (expected block, drop-newest or disconnect)"

/-- The policy that a word stands for. -/
def ofText (word : String) : Except Unknown OverflowPolicy :=
  if word = block.text then .ok block
  else if word = dropNewest.text then .ok dropNewest
  else if word = disconnect.text then .ok disconnect
  else .error ⟨word⟩

theorem ofText_text (policy : OverflowPolicy) : ofText policy.text = .ok policy := by
  cases policy <;> simp [ofText, text]

end OverflowPolicy

/-- Configuration of a hub.  The fields can hold any number; the setters keep
capacities at one or more.  Not every capacity and grace can be had of a runtime: those that
can are what `Runtime.Suffices` asks for. -/
structure HubConfig where
  /-- Packets that a subscriber's queue holds. -/
  queueCapacity : Nat
  /-- Commands that the hub's queue holds. -/
  commandCapacity : Nat
  policy : OverflowPolicy
  /-- Milliseconds from a shutdown request until delivery is abandoned. -/
  grace : Nat
  deriving DecidableEq, Repr

namespace HubConfig

def standard : HubConfig := ⟨30, 30, .standard, 1000⟩

def withQueueCapacity (c : HubConfig) (n : Nat) : HubConfig := { c with queueCapacity := max n 1 }

def withCommandCapacity (c : HubConfig) (n : Nat) : HubConfig :=
  { c with commandCapacity := max n 1 }

def withPolicy (c : HubConfig) (policy : OverflowPolicy) : HubConfig := { c with policy }

def withGrace (c : HubConfig) (milliseconds : Nat) : HubConfig := { c with grace := milliseconds }

/-- Packets that a subscriber's queue really holds. -/
def queueRoom (c : HubConfig) : Nat := max c.queueCapacity 1

/-- Commands that the hub's queue really holds. -/
def commandRoom (c : HubConfig) : Nat := max c.commandCapacity 1

end HubConfig

end VideoRelay

/-
Command-line options of a relay server.

* `Options.parse` — the configuration that a row of arguments asks for;
* `OptionError` — why arguments are refused.

A later option overrides an earlier one.
-/
import VideoRelay.Relay.Config

namespace VideoRelay

/-- Why arguments are refused. -/
inductive OptionError
  | unknown (argument : String)
  | missingValue (option : String)
  | notAnAddress (option value : String)
  | notANumber (option value : String)
  | notAPolicy (option : String) (cause : OverflowPolicy.Unknown)
  deriving DecidableEq, Repr

def OptionError.message : OptionError → String
  | .unknown argument => s!"unexpected argument '{argument}'"
  | .missingValue option => s!"a value is required for '{option}'"
  | .notAnAddress option value => s!"invalid value '{value}' for '{option}': not an address"
  | .notANumber option value => s!"invalid value '{value}' for '{option}': not a number"
  | .notAPolicy option cause => s!"invalid value '{cause.word}' for '{option}': {cause.message}"

namespace Options

/-- Numbers of 64 bits, in decimal digits. -/
def number : SocketAddress.Numeral := ⟨10, 0xFFFFFFFFFFFFFFFF, none, true⟩

def readNumber (option value : String) : Except OptionError Nat :=
  match SocketAddress.readNumber number value.toList with
  | some (n, []) => .ok n
  | _ => .error (.notANumber option value)

def readAddress (option value : String) : Except OptionError SocketAddress :=
  match SocketAddress.ofText? value with
  | some address => .ok address
  | none => .error (.notAnAddress option value)

def readPolicy (option value : String) : Except OptionError OverflowPolicy :=
  match OverflowPolicy.ofText value with
  | .ok policy => .ok policy
  | .error cause => .error (.notAPolicy option cause)

/-- One option and its value. -/
def set (c : ServerConfig) (option value : String) : Except OptionError ServerConfig :=
  match option with
  | "--ingest-addr" => (readAddress option value).map c.withIngestAddress
  | "--broadcast-addr" => (readAddress option value).map c.withBroadcastAddress
  | "--queue-capacity" => (readNumber option value).map c.withQueueCapacity
  | "--overflow-policy" => (readPolicy option value).map c.withPolicy
  | "--shutdown-grace-ms" => (readNumber option value).map c.withGrace
  | _ => .error (.unknown option)

/-- Whether a value follows the option. -/
def takesValue (option : String) : Bool :=
  ["--ingest-addr", "--broadcast-addr", "--queue-capacity", "--overflow-policy",
    "--shutdown-grace-ms"].contains option

/-- The configuration that the arguments ask for, on top of `c`. -/
def parse (c : ServerConfig) : List String → Except OptionError ServerConfig
  | [] => .ok c
  | [option] =>
    if option = "--no-nodelay" then .ok (c.withNoDelay false)
    else if takesValue option then .error (.missingValue option)
    else .error (.unknown option)
  | option :: value :: rest =>
    if option = "--no-nodelay" then parse (c.withNoDelay false) (value :: rest)
    else
      match set c option value with
      | .ok c => parse c rest
      | .error cause => .error cause

end Options

end VideoRelay

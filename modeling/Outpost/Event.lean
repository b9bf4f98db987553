import Outpost.Json

/-!
# Lifecycle events

The entries of the event log. An entry says when something happened, what it was, in which
deployment and on which machine; the other fields are present where they apply.

## Contents

* `Event.Kind`, `Event`, `Event.ofJson?`: the schema that lines of a log are read by.
* `Event.Details`, `Event.entry`: what a deployment records.
-/

namespace Outpost

/-- What happened in the life of a deployment, in the order of `all`. -/
inductive Event.Kind where
  /-- The deployment was set up, by `create`. -/
  | created
  /-- The remote directory, the code tree and the script are in place, by `stage`. -/
  | staged
  /-- The script was launched, by `launch`. -/
  | spawned
  /-- The port line was read, by `handshake`. -/
  | handshake
  /-- A local port is forwarded to the listener, over a tunnel. -/
  | tunnelOpened
  /-- The `start` completed. -/
  | ready
  /-- The `start` failed; what it acquired is left for `close`. -/
  | startFailed
  /-- A bounded wait of `close` expired. -/
  | teardownTimeout
  /-- The whole of `close` completed, and everything is released. -/
  | closed
deriving DecidableEq, Repr

namespace Event

/-- Every kind, in the order of a life. -/
def Kind.all : List Kind :=
  [.created, .staged, .spawned, .handshake, .tunnelOpened, .ready, .startFailed, .teardownTimeout,
    .closed]

/-- The name of a kind in a log, in the field `event`. -/
def Kind.name : Kind → String
  | .created => "created"
  | .staged => "staged"
  | .spawned => "spawned"
  | .handshake => "handshake"
  | .tunnelOpened => "tunnel_opened"
  | .ready => "ready"
  | .startFailed => "start_failed"
  | .teardownTimeout => "teardown_timeout"
  | .closed => "closed"

/-- The kind of a `name`, among `all`. -/
def Kind.ofName? (name : String) : Option Kind := Kind.all.find? fun kind => kind.name = name

/-- What a kind of event tells beside the deployment and the machine: ports, a `reason`, and an
`exitCode`. -/
structure Details where
  remotePort : Option Nat := none
  localPort : Option Nat := none
  reason : Option String := none
  /-- An exit code, where one applies; `null` if the process was not seen to exit. -/
  exitCode : Option Json := none
deriving BEq

end Event

/-- An entry of the event log, as `ofJson?` reads it. -/
structure Event where
  time : Number
  kind : Event.Kind
  deployment : Text.Loose
  machine : Text.Loose
  remotePort : Option Int
  localPort : Option Int
  reason : Option Text.Loose
  exitCode : Option (Option Int)
deriving DecidableEq

namespace Event

/-! ## Reading -/

/-- An integer that may be absent: `none` if the value is something else. -/
def optionalInteger : Option Json → Option (Option Int)
  | none => some none
  | some (.number n) => n.toInt?.map some
  | some _ => none

/-- The text that a value is, as a `Loose` one. -/
def textOf? : Json → Option Text.Loose
  | .string s => some (.ofString s)
  | .loose text => some text
  | _ => none

/-- A text that may be absent: `none` if the value is something else. -/
def optionalText : Option Json → Option (Option Text.Loose)
  | none => some none
  | some value => (textOf? value).map some

/-- An exit code that may be absent or null: `none` if the value is something else. -/
def optionalExitCode : Option Json → Option (Option (Option Int))
  | none => some none
  | some .null => some (some none)
  | some (.number n) => n.toInt?.map fun code => some (some code)
  | some _ => none

/-- The number that a value is. -/
def numberOf? : Json → Option Number
  | .number n => some n
  | _ => none

/-- The entry that a JSON value is, if it fits the schema: `ts`, `event`, `deploymentId` and
`machine` have to be there, the others may be absent, and fields beside them are ignored. -/
def ofJson? (value : Json) : Option Event := do
  let time ← numberOf? (← value.field? "ts")
  let kind ← Kind.ofName? (← (← textOf? (← value.field? "event")).whole?)
  let deployment ← textOf? (← value.field? "deploymentId")
  let machine ← textOf? (← value.field? "machine")
  let remotePort ← optionalInteger (value.field? "remotePort")
  let localPort ← optionalInteger (value.field? "localPort")
  let reason ← optionalText (value.field? "reason")
  let exitCode ← optionalExitCode (value.field? "exitCode")
  return { time, kind, deployment, machine, remotePort, localPort, reason, exitCode }

/-! ## Writing -/

/-- The entry that a `deployment` records, its fields in the order in which it sets them. -/
def entry (deployment : String) (machine : Option Json) (kind : Kind) (details : Details) : Json :=
  Json.mkObject <|
    [("deploymentId", .string deployment)]
    ++ Json.fieldOf "machine" machine
    ++ [("event", .string kind.name)]
    ++ Json.fieldOf "remotePort" (details.remotePort.map Json.nat)
    ++ Json.fieldOf "localPort" (details.localPort.map Json.nat)
    ++ Json.fieldOf "reason" (details.reason.map Json.string)
    ++ Json.fieldOf "exitCode" details.exitCode

/-- An entry as a JSON value, its fields in the order of the schema, as `ofJson?` reads them. -/
def toJson (event : Event) : Json :=
  .object ([("ts", .number event.time), ("event", .string event.kind.name),
    ("deploymentId", .ofLoose event.deployment), ("machine", .ofLoose event.machine)]
    ++ Json.fieldOf "remotePort" (event.remotePort.map Json.int)
    ++ Json.fieldOf "localPort" (event.localPort.map Json.int)
    ++ Json.fieldOf "reason" (event.reason.map Json.ofLoose)
    ++ Json.fieldOf "exitCode" (event.exitCode.map fun code => Json.shown (code.map Json.int)))

end Event

end Outpost

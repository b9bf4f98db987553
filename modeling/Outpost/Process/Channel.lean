import Outpost.Process.Child
import Outpost.Shell

/-!
# Remote processes on channels

A remote command runs on a channel that opens some time after it was asked for. A request to stop
that comes before then is remembered, the latest one only, and carried out when the channel opens.

## Contents

* `Channel`, `Channel.Event.stimuli`.
* `Channel.terminate`, `Channel.kill`, `Channel.attach`.
-/

namespace Outpost

/-- A process on a channel, with its `buffer`. -/
structure Channel where
  buffer : Buffer := {}
  /-- The channel, once it is open. -/
  channel : Option Nat := none
  /-- The `Signal` that waits for the channel. -/
  pending : Option Signal := none

/-- Something that is reported of a channel. -/
inductive Channel.Event where
  | output (chunk : Bytes)
  | errors (chunk : Bytes)
  | outputEnded
  /-- The command exited; what is reported, `report`, need not be a code. -/
  | exited (report : Json)
  | closed
  /-- The channel could not be opened, because of `fault`. -/
  | refused (fault : Fault)

namespace Channel

/-- The exit code in a report: one that is no number holds none, and gives `null`. -/
def exitCode : Json → Json
  | .number n => .number n
  | _ => .null

/-- The message of a refusal. A value that is no error has one to show only if it is an object with
a field `message`. -/
def refusalMessage : Fault → String
  | .value value => Json.textOf (value.bind (Json.field? "message"))
  | fault => fault.message

/-- What an event means for the `Buffer`. What `refused` a channel is kept with standard error and
closes the process. -/
def Event.stimuli : Channel.Event → List Stimulus
  | .output chunk => [.output chunk]
  | .errors chunk => [.errors chunk]
  | .outputEnded => [.ended]
  | .exited report => [.exited (exitCode report)]
  | .closed => [.closed]
  | .refused fault => [.errors (Text.encodeUtf8 (refusalMessage fault ++ "\n")), .closed]

/-- The requests that stopping a remote process makes of its channel. -/
inductive Request where
  | endInput (channel : Nat)
  | signal (channel : Nat) (signal : Signal)
  | close (channel : Nat)

/-- The replies: any of it may fail with a `Fault`. -/
def interface : Interface where
  Request := Request
  Reply _ := Except Fault Unit

/-- Makes one request of a channel. -/
private def tell (request : Request) : Attempt Channel interface Unit :=
  ExceptT.mk (.ask request .done)

/-- Asks the process to stop: ends its input and signals it, or leaves that `pending`. -/
def terminate : Attempt Channel interface Unit := do
  let process ← get
  if process.buffer.closed then return
  match process.channel with
  | none => set { process with pending := some .terminate }
  | some channel =>
    tell (.endInput channel)
    tell (.signal channel .terminate)

/-- Stops the process at once: signals it and closes its channel, or leaves that `pending`. -/
def kill : Attempt Channel interface Unit := do
  let process ← get
  if process.buffer.closed then return
  match process.channel with
  | none => set { process with pending := some .kill }
  | some channel =>
    tell (.signal channel .kill)
    tell (.close channel)

/-- Takes the `channel` into use and carries out what was `pending`. -/
def attach (channel : Nat) : Attempt Channel interface Unit := do
  let process ← get
  set { process with channel := some channel, pending := none }
  match process.pending with
  | none => return
  | some .terminate => terminate
  | some .kill => kill

/-- The command line of a remote process, by `joinValues`. -/
def commandLine (argv : List Json) : String := Shell.joinValues argv

end Channel

end Outpost

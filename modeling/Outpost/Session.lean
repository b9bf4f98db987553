import Outpost.Connection
import Outpost.Console
import Outpost.Event
import Outpost.Options

/-!
# Deployment sessions

One short-lived listener on one machine. A session holds what it has acquired in four slots: the
temporary directory, the process of the script, the tunnel to its port, and the machine itself.
Starting fills the slots one by one, each before the next step, so what a failed start acquired is
still there to be released. Closing empties them.

A session is created, starts, and is then ready or failed; closing ends it in every state.

## Contents

* `Session.State`, `Session`, `Session.holdsResources`.
* `Session.Request`, `Session.interface`, `Session.report`, `Session.record`.
* `Session.create`.
-/

namespace Outpost

/-- Where a session is in its life. -/
inductive Session.State where
  | created
  | starting
  | ready
  | failed
  | closed
deriving DecidableEq, Repr

/-- The name of a state. -/
def Session.State.name : Session.State → String
  | .created => "created"
  | .starting => "starting"
  | .ready => "ready"
  | .failed => "failed"
  | .closed => "closed"

/-- A deployment on one machine, known by its `id`. -/
structure Session where
  id : String
  machineName : Option Json
  mode : Connectivity
  options : Options
  /-- The machine, until `close` gives it up. -/
  machine : Option Machine
  tempDirectory : Option Machine.Directory := none
  process : Option Machine.Running := none
  tunnel : Option Machine.Forward := none
  /-- The port that the listener reported, which `handshake` reads. -/
  remotePort : Option Nat := none
  /-- The local end of the `tunnel`. -/
  localPort : Option Nat := none
  state : Session.State := .created

namespace Session

/-- Whether a session still holds anything: a `process`, a `tunnel`, a `machine` or a
`tempDirectory`. -/
def holdsResources (session : Session) : Bool :=
  session.process.isSome || session.tunnel.isSome || session.machine.isSome
    || session.tempDirectory.isSome

/-! ## Requests -/

/-- What a session asks for. -/
inductive Request where
  /-- Something of its `machine`. -/
  | machine (request : Machine.Request)
  /-- Something of what runs on its machine, as `Machine.Control` has it. -/
  | control (request : Machine.Control.Request)
  /-- A new session name. -/
  | freshId
  /-- A local port that nobody uses. -/
  | freePort
  /-- A stream to the local `port`. -/
  | connectLocal (port : Nat)
  /-- Something for a `Connection`. -/
  | connection (request : Connection.Request)
  /-- A line on the console. -/
  | report (line : Console.Line)
  /-- An entry in the event log `log`, as `Event.entry` has it. -/
  | record (log deployment : String) (machine : Option Json) (kind : Event.Kind)
    (details : Event.Details)

/-- The replies, each as the one to whom the request is made has it. -/
def interface : Interface where
  Request := Request
  Reply
    | .machine request => Machine.interface.Reply request
    | .control request => Machine.Control.interface.Reply request
    | .freshId => String
    | .freePort => Except Fault Nat
    | .connectLocal _ => Except Fault Machine.Socket
    | .connection request => Connection.setup.Reply request
    | .report _ => Unit
    | .record .. => Unit

section

variable {σ : Type}

/-- Connections that are set up make their requests through the session's, as `connection`. -/
def connectionEmbedding : Interface.Embedding Connection.setup Session.interface where
  request := .connection
  reply _ reply := reply

/-- A line of this component on the console. -/
def report (level : Console.Level) (text : String) : Attempt σ interface Unit :=
  ExceptT.lift (.ask (.report ⟨level, "DeploymentSession", text⟩) .done)

/-- An entry of the given `kind` in the event log of the session, if its options have one. -/
def record (session : Session) (kind : Event.Kind) (details : Event.Details := {}) :
    Attempt σ interface Unit :=
  match session.options.eventLog with
  | none => return
  | some log =>
    ExceptT.lift (.ask (.record log session.id session.machineName kind details) .done)

/-! ## Creation -/

/-- A new session on a machine, which it holds from the start: `resolve` is asked for its options,
and `created` is recorded. -/
def create (machine : Machine) (input : Options.Input) : Attempt σ interface Session := do
  let options ← Attempt.ofExcept (Options.resolve input)
  let id ← ExceptT.lift (.ask .freshId .done)
  let session : Session :=
    { id, machineName := machine.name, mode := machine.connectivity, options,
      machine := some machine }
  record session .created
  return session

end

end Session

end Outpost

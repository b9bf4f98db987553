import Outpost.Json.Access
import Outpost.Settings
import Outpost.Process.Buffer
import Outpost.Program

/-!
# Machines

A machine is a host that files can be put on, that commands can be found and run on, and that has
ports to connect to. How a port is reached is part of what a machine is: directly, or only through a
local port that is forwarded to it. Whatever a machine holds for its user (a directory, a process,
a forward, the connection to the host itself) is asked to stop, waited for and released through the
machine.

## Contents

* `Connectivity`: how the ports of a machine are reached.
* `Machine`, and the things it hands out: `Directory`, `Running`, `Forward`, `Socket`, `Command`.
* `Machine.SpawnOptions`: how a command is run.
* `Machine.Request`, `Machine.interface`: what can be asked of a machine, and the replies.
* `Machine.Control.Request`, `Machine.Control.interface`: what can be asked of something that runs
  on it, or of the connection to it.
-/

namespace Outpost

/-- How the ports of a machine are reached. -/
inductive Connectivity where
  /-- The machine connects to any of its ports, by `connect`. -/
  | direct
  /-- The machine can only forward a local port, by `openTunnel`, whatever `name` it has for
  that. -/
  | tunnel (name : Json)
deriving BEq

/-- The name of a kind of connectivity: `direct`, or what the machine has for its tunnels. -/
def Connectivity.name : Connectivity → Json
  | .direct => .string "direct"
  | .tunnel name => name

/-- The kind of connectivity that has a `name`: all but `direct` are kinds of `tunnel`. -/
def Connectivity.ofName (name : Json) : Connectivity :=
  if name == .string "direct" then .direct else .tunnel name

/-- What a machine is known by. Its `name` may be any value, or have been left out. -/
structure Machine where
  name : Option Json
  connectivity : Connectivity
deriving BEq

namespace Machine

/-- The name of a machine inside a message, by `Json.textOf`. -/
def label (machine : Machine) : String := Json.textOf machine.name

/-- A temporary directory on a machine, by its `path`. -/
structure Directory where
  path : String
deriving DecidableEq, Repr

/-- A running process on a machine, with its `argv`. -/
structure Running where
  id : Nat
  argv : List Json
deriving BEq

/-- A local port that is forwarded to a port of a machine, as `openTunnel` does it. -/
structure Forward where
  id : Nat
  localPort : Port
  remotePort : Port
deriving BEq

/-- A stream of bytes to a port. -/
structure Socket where
  id : Nat
deriving DecidableEq, Repr

/-- A command that can be run on a machine. -/
inductive Command where
  /-- A command that the machine has `found`, by `which`. -/
  | found (argv : List Json)
  /-- A command that the caller brought, which runs as the caller made it. -/
  | given (argv : List Json)
deriving BEq

/-- The words `argv` of a command. -/
def Command.argv : Command → List Json
  | .found argv | .given argv => argv

/-- What is said about how a command is run, by the names of the settings, as it was `given`, if
anything is. -/
structure SpawnOptions where
  given : Option Json := none

/-- The settings of a command that runs in a session of its own. -/
def SpawnOptions.ownSession : SpawnOptions := ⟨some (.object [("newSession", .bool true)])⟩

/-- What is said about a session of its own for a command, as `newSession`. -/
def SpawnOptions.newSession (options : SpawnOptions) : Json :=
  (options.given.bind fun settings => settings.given? "newSession").getD (.bool false)

/-- The directory that a command starts in, as `cwd`. -/
def SpawnOptions.directory (options : SpawnOptions) : Option Json :=
  options.given.bind fun settings => settings.field? "cwd"

/-- The variables of the environment of a command, as `env`. -/
def SpawnOptions.environment (options : SpawnOptions) : Option Json :=
  options.given.bind fun settings => settings.field? "env"

/-- What can be asked of a machine. -/
inductive Request where
  /-- Makes a temporary `Directory`. -/
  | tempDirectory
  /-- Copies the local directory tree `source` into the directory `destination` of the machine. -/
  | upload (source destination : String)
  /-- Joins `parts` of a path as the machine's system does. -/
  | joinPath (parts : List String)
  | writeFile (path content : String)
  /-- Finds a command by its `name`. -/
  | which (name : String)
  /-- Runs a `command` with further `arguments`. -/
  | spawn (command : Command) (arguments : List Json) (options : SpawnOptions)
  /-- Connects to a `port` of a machine that is reached directly. -/
  | connect (port : Port)
  /-- Forwards `localPort` to the port `remotePort` of a machine that is reached through a
  tunnel. -/
  | openTunnel (localPort remotePort : Port)
  | closeTunnel (forward : Forward)
  | removeDirectory (directory : Directory)
  /-- Gives up the machine. -/
  | close

/-- The replies: everything that involves the machine may fail with a `Fault`. -/
def interface : Interface where
  Request := Request
  Reply
    | .tempDirectory => Except Fault Directory
    | .upload .. => Except Fault Unit
    | .joinPath _ => Except Fault String
    | .writeFile .. => Except Fault Unit
    | .which _ => Except Fault Command
    | .spawn .. => Except Fault Running
    | .connect _ => Except Fault Socket
    | .openTunnel .. => Except Fault Forward
    | .closeTunnel _ => Except Fault Unit
    | .removeDirectory _ => Except Fault Unit
    | .close => Except Fault Unit

/-- The fault of a request that needs the other kind of `Connectivity`. -/
def unreachable (machine : Machine) : Fault :=
  .ofMessage ("Ports of " ++ machine.label ++ " are reached in mode "
    ++ machine.connectivity.name.display)

/-! ## Things that run -/

/-- What can be asked to stop and then be waited for. -/
inductive Stoppable where
  | process (running : Running)
  | tunnel (forward : Forward)
  /-- The connection to the machine itself, its `transport`. -/
  | transport

namespace Control

/-- What can be asked of something that runs. -/
inductive Request where
  /-- Asks the `target` to stop. -/
  | terminate (target : Stoppable)
  /-- Stops the `target` at once. -/
  | kill (target : Stoppable)
  /-- Waits for the end of the `target`, for a limited time if there is a `timeout`, and collects
  unread output. -/
  | communicate (target : Stoppable) (timeout : Option Timeout)
  /-- Reads a line of standard output, waiting for a limited time if there is a `timeout`; the reply
  is `none` if the time ran out first. -/
  | readLine (running : Running) (timeout : Option Timeout)
  /-- Stops keeping output. -/
  | discardOutput (running : Running)
  | exitCode (running : Running)
  /-- The standard output that readers took. -/
  | consumedOutput (running : Running)

/-- The replies: everything but a look at what is known already may fail with a `Fault`. -/
def interface : Interface where
  Request := Request
  Reply
    | .terminate _ => Except Fault Unit
    | .kill _ => Except Fault Unit
    | .communicate .. => Except Fault Output
    | .readLine .. => Option (Except Fault (Option String))
    | .discardOutput _ => Except Fault Unit
    | .exitCode _ => Json
    | .consumedOutput _ => Bytes

end Control

end Machine

end Outpost

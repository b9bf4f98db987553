import Outpost.Machine
import Outpost.Path
import Outpost.Process.Child

/-!
# The local machine

The host that deployments are made from, as a machine of its own. Commands are looked up along the
search path of its environment, and its ports are reached directly. There is no connection to it
that could be stopped.

## Contents

* `LocalMachine`, `LocalMachine.interface`.
* `LocalMachine.answer`: what the local machine does about each request.
-/

namespace Outpost

/-- The local machine. -/
structure LocalMachine where
  /-- Where temporary directories are made, by `tempDirectory`. -/
  tempRoot : String
  environment : Environment
  /-- The search path for commands, `PATH`; empty if there is none. -/
  searchPath : String

namespace LocalMachine

/-- What the local machine is known by. -/
def machine : Machine := ⟨some (.string "localhost"), .direct⟩

/-- What is asked of the local system. -/
inductive Request where
  /-- Makes a new directory whose path starts with `stem`. -/
  | makeTemporary (stem : String)
  /-- Removes the directory tree `path`, if it is there. -/
  | removeTree (path : String)
  | copyTree (source destination : String)
  | writeFile (path content : String)
  /-- Whether `path` is an executable file. -/
  | isExecutable (path : String)
  | spawn (launch : Launch)
  /-- Connects to the local `port`. -/
  | connect (port : Port)

/-- The replies: everything but `isExecutable` may fail with a `Fault`. -/
def interface : Interface where
  Request := Request
  Reply
    | .makeTemporary _ => Except Fault String
    | .removeTree _ => Except Fault Unit
    | .copyTree .. => Except Fault Unit
    | .writeFile .. => Except Fault Unit
    | .isExecutable _ => Bool
    | .spawn _ => Except Fault Child
    | .connect _ => Except Fault Machine.Socket

/-- Makes a temporary directory in `tempRoot`, by `makeTemporary`. -/
def tempDirectory (host : LocalMachine) : Attempt Unit interface Machine.Directory := do
  let path ← (ExceptT.mk (.ask (.makeTemporary (Path.join [host.tempRoot, "ephemeral-deploy-"]))
    .done) : Attempt Unit interface String)
  return ⟨path⟩

/-- Removes a temporary directory, by `removeTree`. -/
def removeDirectory (directory : Machine.Directory) : Attempt Unit interface Unit :=
  ExceptT.mk (.ask (.removeTree directory.path) .done)

/-- Copies a directory tree, by `copyTree`. -/
def upload (source destination : String) : Attempt Unit interface Unit :=
  ExceptT.mk (.ask (.copyTree source destination) .done)

/-- Writes a file. -/
def writeFile (path content : String) : Attempt Unit interface Unit :=
  ExceptT.mk (.ask (.writeFile path content) .done)

/-- The paths where the command `name` may be: itself if it names a place, else its name in each
directory of the `searchPath`, empty entries left out. -/
def places (host : LocalMachine) (name : String) : List String :=
  if Path.isAbsolute name || '/' ∈ name.toList then [name]
  else
    ((Text.split ':' host.searchPath.toList).filter (· ≠ [])).map fun directory =>
      Path.join [String.ofList directory, name]

/-- The first path that `isExecutable`, asking for one after another. -/
def firstExecutable : List String → Program Unit interface (Option String)
  | [] => return none
  | path :: rest => do
    if ← (.ask (.isExecutable path) .done : Program Unit interface Bool) then return some path
    firstExecutable rest

/-- Finds a command: the `firstExecutable` of its `places`. -/
def which (host : LocalMachine) (name : String) : Attempt Unit interface Machine.Command := do
  match ← ExceptT.lift (firstExecutable (host.places name)) with
  | some path => return .found [.string path]
  | none => throw (.ofCommand name machine.name)

/-- Runs a command with further `arguments`. The `environment` is that of the machine in any
case. -/
def spawn (host : LocalMachine) (command : Machine.Command) (arguments : List Json)
    (options : Machine.SpawnOptions) : Attempt Unit interface Machine.Running := do
  let runnable ← Attempt.ofExcept (LocalCommand.ofArgv command.argv host.environment)
  let launch := runnable.launch arguments options.newSession options.directory
  let child ← (ExceptT.mk (.ask (.spawn launch) .done) : Attempt Unit interface Child)
  return ⟨child.id, child.argv⟩

/-- Connects to a port. -/
def connect (port : Port) : Attempt Unit interface Machine.Socket :=
  ExceptT.mk (.ask (.connect port) .done)

/-- What the local machine does about a `request`. -/
def answer (host : LocalMachine) :
    (request : Machine.Request) → Program Unit interface (Machine.interface.Reply request)
  | .tempDirectory => host.tempDirectory.outcome
  | .upload source destination => (upload source destination).outcome
  | .joinPath parts => .done (.ok (Path.join parts))
  | .writeFile path content => (writeFile path content).outcome
  | .which name => (host.which name).outcome
  | .spawn command arguments options => (host.spawn command arguments options).outcome
  | .connect port => (connect port).outcome
  | .openTunnel .. => .done (.error machine.unreachable)
  | .closeTunnel _ => .done (.error machine.unreachable)
  | .removeDirectory directory => (removeDirectory directory).outcome
  | .close => .done (.ok ())

end LocalMachine

end Outpost

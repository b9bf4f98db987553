import Outpost.Console
import Outpost.Json.Access
import Outpost.Machine.Finished
import Outpost.Path
import Outpost.Process.Child

/-!
# Machines reached through the OpenSSH client

One `ssh` process, the control master, is the connection to the host; every command, upload and file
goes through its control socket. Ports of the host are reached through forwards only, each of which
is an `ssh` process of its own.

Two things are waited for by asking again and again: the control master, until it accepts commands,
and a forward, until its local port accepts connections. A pause between two questions is answered
with the time at which it ended. However coarse the clock is, that is a millisecond later at least,
so each wait ends after a bounded number of questions.

## Contents

* `OpenSsh.Config`, `OpenSsh`, `OpenSsh.interface`.
* `OpenSsh.connect`, `OpenSsh.tunnel`.
* `OpenSsh.answer`: what such a machine does about each request.
-/

namespace Outpost

/-- How a host is reached. -/
structure OpenSsh.Config where
  host : Option Json
  user : Option Json := none
  port : Port := none
  identityFile : Option Json := none
  /-- Further settings for every `ssh` process. -/
  sshOptions : List Json := []
  /-- How long a connection may take to come up, in seconds, as `ConnectTimeout` is told it. -/
  connectTimeout : Json := .nat 10
  /-- The `ssh` program. -/
  program : Json := .string "ssh"

/-- The configuration that the object `config` describes; what it leaves out has its default, and a
user or an identity file that says nothing counts as left out. -/
def OpenSsh.Config.ofJson (config : Json) : OpenSsh.Config :=
  let base : OpenSsh.Config := { host := config.field? "host" }
  let telling (key : String) : Option Json := (config.field? key).filter fun value => !value.isVoid
  { base with
    user := telling "user"
    port := config.field? "port"
    identityFile := telling "identityFile"
    sshOptions := ((config.given? "sshOptions").map Json.elements).getD []
    connectTimeout := (config.given? "connectTimeoutSec").getD base.connectTimeout
    program := (config.given? "sshPath").getD base.program }

/-- A host with its control `master`. -/
structure OpenSsh where
  config : OpenSsh.Config
  master : Child
  controlDirectory : String

namespace OpenSsh

/-- How long `awaitMaster` and `awaitForward` wait, in milliseconds. -/
def readyTimeout : Nat := 15000

/-- The `pause` between two questions whether it has come up, in milliseconds. -/
def pollPause : Nat := 100

/-! ## Requests -/

/-- What is asked of the local system. Children go by their numbers in the order of launches. -/
inductive Request where
  /-- The time, in milliseconds. -/
  | clock
  /-- Waits for some milliseconds, after the clock has shown `since`. -/
  | pause (since : Number) (milliseconds : Nat)
  /-- Makes a new directory whose path starts with `stem`. -/
  | makeDirectory (stem : String)
  /-- Removes the directory tree `path`, if it is there. -/
  | removeDirectory (path : String)
  | spawn (launch : Launch)
  /-- Starts a child as `launch` has it, without an input. -/
  | spawnSource (launch : Launch)
  /-- Passes the output of the child `source` on to the input of `destination`. -/
  | pipe (source destination : Nat)
  /-- Ends the input of a `child` after the value `last`. -/
  | feed (child : Nat) (last : Json)
  | terminate (child : Nat)
  | kill (child : Nat)
  /-- Waits for a `child` to close and collects its output. -/
  | communicate (child : Nat)
  /-- Waits for the children `first` and `second` at once. -/
  | communicateBoth (first second : Nat)
  | isClosed (child : Nat)
  | exitCode (child : Nat)
  /-- Connects to the local `port`. -/
  | connect (port : Port)
  | destroy (socket : Machine.Socket)
  /-- A line on the console. -/
  | report (line : Console.Line)

/-- The replies: what changes anything outside this process may fail with a `Fault`. -/
def interface : Interface where
  Request := Request
  Reply
    | .clock => Number
    | .pause since _ => { ended : Number // since.Advances ended }
    | .makeDirectory _ => Except Fault String
    | .removeDirectory _ => Except Fault Unit
    | .spawn _ => Except Fault Child
    | .spawnSource _ => Except Fault Child
    | .pipe .. => Unit
    | .feed .. => Except Fault Unit
    | .terminate _ => Except Fault Unit
    | .kill _ => Except Fault Unit
    | .communicate _ => Output
    | .communicateBoth .. => Output × Output
    | .isClosed _ => Bool
    | .exitCode _ => Json
    | .connect _ => Except Fault Machine.Socket
    | .destroy _ => Unit
    | .report _ => Unit

section

variable {σ : Type}

/-- Starts a child as `launch` has it. -/
def spawn (launch : Launch) : Attempt σ interface Child :=
  ExceptT.mk (.ask (.spawn launch) .done)

/-- Waits for a `child` to close and collects its output. -/
def communicate (child : Nat) : Attempt σ interface Output :=
  ExceptT.lift (.ask (.communicate child) .done)

/-- Asks a `child` to stop. -/
def terminate (child : Nat) : Attempt σ interface Unit :=
  ExceptT.mk (.ask (.terminate child) .done)

/-- Stops a `child` at once. -/
def kill (child : Nat) : Attempt σ interface Unit :=
  ExceptT.mk (.ask (.kill child) .done)

/-- Ends the input of a `child` after the value `last`. -/
def feed (child : Nat) (last : Json) : Attempt σ interface Unit :=
  ExceptT.mk (.ask (.feed child last) .done)

/-- Whether a child is closed. -/
def isClosed (child : Nat) : Attempt σ interface Bool :=
  ExceptT.lift (.ask (.isClosed child) .done)

/-- The exit code of a `child`, `null` if it was not seen to exit. -/
def exitCode (child : Nat) : Attempt σ interface Json :=
  ExceptT.lift (.ask (.exitCode child) .done)

/-- The time. -/
def clock : Attempt σ interface Number := ExceptT.lift (.ask .clock .done)

/-- Waits for some `milliseconds`; the clock shows more than `since` then. -/
def pause (since : Number) (milliseconds : Nat) :
    Attempt σ interface { ended : Number // since.Advances ended } :=
  ExceptT.lift (.ask (.pause since milliseconds) .done)

/-- Removes the directory tree `path`. -/
def removeTree (path : String) : Attempt σ interface Unit :=
  ExceptT.mk (.ask (.removeDirectory path) .done)

/-! ## Command lines -/

/-- The host as `ssh` is told it. -/
def Config.target (config : Config) : Option Json :=
  match config.user with
  | none => config.host
  | some user => some (.string (user.display ++ "@" ++ Json.textOf config.host))

/-- The host as the last argument of an `ssh` process that runs nothing, or as the one before the
command line. -/
def Config.targetArgument (config : Config) : Json := Json.shown config.target

/-- The arguments of every `ssh` process. -/
def Config.baseArguments (config : Config) : List Json :=
  [.string "-o", .string "BatchMode=yes", .string "-o",
    .string ("ConnectTimeout=" ++ config.connectTimeout.display)]
    ++ (match config.port with
      | some port => [.string "-p", .string port.display]
      | none => [])
    ++ (match config.identityFile with
      | some file => [.string "-i", file]
      | none => [])
    ++ config.sshOptions.flatMap fun setting => [.string "-o", setting]

/-- The control socket `ctl` in a control directory. -/
def controlPath (controlDirectory : String) : String := Path.join [controlDirectory, "ctl"]

/-- The arguments of an `ssh` process that goes through a control socket. -/
def Config.sharedArguments (config : Config) (controlDirectory : String) : List Json :=
  config.baseArguments
    ++ [.string "-o", .string ("ControlPath=" ++ controlPath controlDirectory)]

/-- The launch of a control master, an `ssh` process that runs nothing. -/
def masterLaunch (config : Config) (controlDirectory : String) : Launch where
  file := config.program
  arguments := config.baseArguments
    ++ ["-M", "-N", "-o", "ControlPath=" ++ controlPath controlDirectory, "-o",
      "ControlPersist=no"].map Json.string
    ++ [config.targetArgument]

/-- The launch of a `request` to a control master, as `check` and `exit` are. -/
def controlLaunch (host : OpenSsh) (request : String) : Launch where
  file := host.config.program
  arguments := host.config.sharedArguments host.controlDirectory
    ++ [.string "-O", .string request, host.config.targetArgument]

/-- The launch of a command line on the host. What is said about how the command is run applies to
the `ssh` process. -/
def remoteLaunch (host : OpenSsh) (commandLine : String) (options : Machine.SpawnOptions := {}) :
    Launch where
  file := host.config.program
  arguments := host.config.sharedArguments host.controlDirectory
    ++ [host.config.targetArgument, .string commandLine]
  newSession := options.newSession
  directory := options.directory
  environment := .ofVariables options.environment

/-- The launch of a forward, an `ssh` process with `-L`. -/
def forwardLaunch (host : OpenSsh) (localPort remotePort : Port) : Launch where
  file := host.config.program
  arguments := host.config.baseArguments
    ++ ["-N", "-o", "ExitOnForwardFailure=yes", "-L",
      "127.0.0.1:" ++ localPort.text ++ ":127.0.0.1:" ++ remotePort.text].map Json.string
    ++ [host.config.targetArgument]

/-- What a host is known by: its `target`, and that it is reached through a tunnel. -/
def machine (host : OpenSsh) : Machine := ⟨host.config.target, .tunnel (.string "tunnel")⟩

/-- The name of a host inside a message, its `Machine.label`. -/
def label (host : OpenSsh) : String := host.machine.label

/-! ## Commands on the host -/

/-- Runs a child to its end, with an `input` if there is one for it, by `feed` and `communicate`. -/
def runToEnd (launch : Launch) (input : Option Json) :
    Attempt σ interface Machine.Finished := do
  let child ← spawn launch
  match input with
  | some last =>
    if child.hasInput then feed child.id last
  | none => pure ()
  let output ← communicate child.id
  let code ← exitCode child.id
  return ⟨Text.decodeUtf8 output.stdout, Text.decodeUtf8 output.stderr, code⟩

/-- Runs a command line on the host, by `remoteLaunch`. -/
def run (host : OpenSsh) (commandLine : String) (input : Option Json) :
    Attempt σ interface Machine.Finished :=
  runToEnd (host.remoteLaunch commandLine) input

/-- Runs a command line on the host that has to succeed, and returns its output: `run`, and
`Finished.require`. -/
def runChecked (host : OpenSsh) (commandLine : String) (input : Option Json) :
    Attempt σ interface String := do
  let result ← host.run commandLine input
  Attempt.ofExcept (result.require host.label commandLine)

/-! ## Connecting -/

/-- Asks whether the master accepts commands until it does, has exited, or the `deadline` has
come. -/
def awaitMaster (host : OpenSsh) (deadline now : Number) : Attempt σ interface Unit := do
  if _ : now.gap deadline = 0 then
    throw (.timedOut ("ssh master for " ++ host.label) (.ofNat readyTimeout))
  else
    if ← isClosed host.master.id then
      let code ← exitCode host.master.id
      throw (.ofMessage ("ssh master exited with code " ++ Fault.exitText code))
    let check ← runToEnd (host.controlLaunch "check") none
    if check.succeeded then return
    let ⟨later, _⟩ ← pause now pollPause
    awaitMaster host deadline later
termination_by now.gap deadline
decreasing_by exact Number.gap_lt_gap ‹_› ‹_›

/-- Releases what a connection that did not come up had acquired, with `kill` and `removeTree`, and
says why it did not. -/
def abandon {α : Type} (host : OpenSsh) (fault : Fault) : Attempt σ interface α := do
  kill host.master.id
  let output ← communicate host.master.id
  removeTree host.controlDirectory
  let detail := Text.trim (Text.decodeUtf8 output.stderr)
  throw (.error
    ("Failed to connect to " ++ host.label ++ ": " ++ fault.message
      ++ (if detail = "" then "" else " (" ++ detail ++ ")"))
    none (some fault))

/-- Starts the control master of a host and waits until it accepts commands, by `awaitMaster`. -/
def connect (config : Config) (systemTemp : String) : Attempt σ interface OpenSsh := do
  let controlDirectory ← (ExceptT.mk (.ask
    (.makeDirectory (Path.join [systemTemp, "ephemeral-deploy-ssh-"])) .done) :
      Attempt σ interface String)
  let master ← spawn (masterLaunch config controlDirectory)
  let host : OpenSsh := { config, master, controlDirectory }
  let now ← clock
  tryCatch (awaitMaster host (now.add (.ofNat readyTimeout)) now) host.abandon
  ExceptT.lift (.ask (.report ⟨.info, "SshMachine", "Connected to " ++ host.label⟩) .done)
  return host

/-! ## Files -/

/-- Makes a temporary directory on the host, by `makeDirectoryLine`. -/
def tempDirectory (host : OpenSsh) : Attempt σ interface Machine.Directory := do
  let output ← host.runChecked Machine.makeDirectoryLine none
  return ⟨Text.trim output⟩

/-- Removes a temporary `directory` of the host, by `removeDirectoryLine`. -/
def removeDirectory (host : OpenSsh) (directory : Machine.Directory) :
    Attempt σ interface Unit := do
  let _ ← host.runChecked (Machine.removeDirectoryLine directory) none

/-- The arguments of `tar` that pack the local directory tree `source`. -/
def packArguments (source : String) : List Json :=
  ["-C", source, "-cf", "-", "."].map Json.string

/-- The command that unpacks a tree into the directory `destination` of the host. -/
def unpackCommand (destination : String) : List String := ["tar", "-C", destination, "-xf", "-"]

/-- Packs a local directory tree and unpacks it on the host as it comes: a child with
`packArguments` is passed on by `pipe`. -/
def upload (host : OpenSsh) (source destination : String) : Attempt σ interface Unit := do
  let pack ← (ExceptT.mk
    (.ask (.spawnSource { file := .string "tar", arguments := packArguments source }) .done) :
      Attempt σ interface Child)
  let unpack ← spawn (host.remoteLaunch (Shell.join (unpackCommand destination)))
  if !(pack.hasOutput && unpack.hasInput) then
    throw (.ofMessage "tar pipes are not available")
  ExceptT.lift (.ask (.pipe pack.id unpack.id) .done)
  let (packed, unpacked) ← (ExceptT.lift (.ask (.communicateBoth pack.id unpack.id) .done) :
    Attempt σ interface (Output × Output))
  let packCode ← exitCode pack.id
  if !Machine.isSuccess packCode then
    throw (.ofMessage ("Local tar failed (exit " ++ packCode.display ++ "): "
      ++ Text.trim (Text.decodeUtf8 packed.stderr)))
  let unpackCode ← exitCode unpack.id
  if !Machine.isSuccess unpackCode then
    throw (.ofMessage ("Remote tar failed (exit " ++ unpackCode.display ++ "): "
      ++ Text.trim (Text.decodeUtf8 unpacked.stderr)))

/-- Writes a file on the host, by `writeFileLine`, with its content as the input. -/
def writeFile (host : OpenSsh) (path content : String) : Attempt σ interface Unit := do
  let _ ← host.runChecked (Machine.writeFileLine path) (some (.string content))

/-! ## Processes -/

/-- Finds a `command` on the host, by `lookupLine`. -/
def which (host : OpenSsh) (command : String) : Attempt σ interface Machine.Command := do
  let result ← host.run (Machine.lookupLine command) none
  Attempt.ofExcept (result.command host.machine.name command)

/-- Runs a `command` with further `arguments` on the host, by `remoteLaunch`. -/
def spawnCommand (host : OpenSsh) (command : Machine.Command) (arguments : List Json)
    (options : Machine.SpawnOptions) : Attempt σ interface Machine.Running := do
  let child ← spawn (host.remoteLaunch (Shell.joinValues (command.argv ++ arguments)) options)
  return ⟨child.id, child.argv⟩

/-! ## Forwards -/

/-- Tries to `connect` to the local port of a forward until that works, its process has exited, or
the `deadline` has come; the process of a forward that does not come up is stopped by `kill`. -/
def awaitForward (host : OpenSsh) (child : Nat) (localPort remotePort : Port)
    (deadline now : Number) : Attempt σ interface Unit := do
  if _ : now.gap deadline = 0 then
    kill child
    let _ ← communicate child
    throw (.timedOut ("tunnel " ++ localPort.text ++ " → " ++ host.label ++ ":" ++ remotePort.text)
      (.ofNat readyTimeout))
  else
    if ← isClosed child then
      let output ← communicate child
      throw (.ofMessage ("ssh tunnel to " ++ host.label ++ ":" ++ remotePort.text ++ " exited: "
        ++ Text.trim (Text.decodeUtf8 output.stderr)))
    match ← (ExceptT.lift (.ask (.connect localPort) .done) :
        Attempt σ interface (Except Fault Machine.Socket)) with
    | .ok probe => ExceptT.lift (.ask (.destroy probe) .done)
    | .error _ =>
      let ⟨later, _⟩ ← pause now pollPause
      awaitForward host child localPort remotePort deadline later
termination_by now.gap deadline
decreasing_by exact Number.gap_lt_gap ‹_› ‹_›

/-- Forwards `localPort` to the port `remotePort` of the host. The process that does so, by
`forwardLaunch`, gives the forward its number. -/
def tunnel (host : OpenSsh) (localPort remotePort : Port) :
    Attempt σ interface Machine.Forward := do
  let child ← spawn (host.forwardLaunch localPort remotePort)
  let now ← clock
  awaitForward host child.id localPort remotePort (now.add (.ofNat readyTimeout)) now
  return ⟨child.id, localPort, remotePort⟩

/-- Stops a forward with `terminate` and waits for it, unless it has stopped already. -/
def closeTunnel (forward : Machine.Forward) : Attempt σ interface Unit := do
  if ← isClosed forward.id then return
  terminate forward.id
  let _ ← communicate forward.id

end

/-! ## Closing -/

/-- Asks the master to `exit`, waits for it, and removes the control directory. The state says
whether that was done already, in which case nothing is. -/
def close (host : OpenSsh) : Attempt Bool interface Unit := do
  if ← get then return
  set true
  let stopMaster : Attempt Bool interface Unit := do
    if ← isClosed host.master.id then return
    let _ ← runToEnd (host.controlLaunch "exit") none
    terminate host.master.id
    let _ ← communicate host.master.id
  stopMaster.thenAlways (removeTree host.controlDirectory)

/-- What the machine does about a `request`. The state says whether it was closed. -/
def answer (host : OpenSsh) :
    (request : Machine.Request) → Program Bool interface (Machine.interface.Reply request)
  | .tempDirectory => host.tempDirectory.outcome
  | .upload source destination => (host.upload source destination).outcome
  | .joinPath parts => .done (.ok (Path.join parts))
  | .writeFile path content => (host.writeFile path content).outcome
  | .which name => (host.which name).outcome
  | .spawn command arguments options => (host.spawnCommand command arguments options).outcome
  | .connect _ => .done (.error host.machine.unreachable)
  | .openTunnel localPort remotePort => (host.tunnel localPort remotePort).outcome
  | .closeTunnel forward => (closeTunnel forward).outcome
  | .removeDirectory directory => (host.removeDirectory directory).outcome
  | .close => host.close.outcome

end OpenSsh

end Outpost

import Outpost.Console
import Outpost.Json.Access
import Outpost.Machine.Finished
import Outpost.Path
import Outpost.Process.Channel

/-!
# Machines reached through a client of our own

One client connection to the host carries everything: commands run on channels, files travel through
a file session, and each connection to a port of the host is a channel, too.

The output of a command arrives in chunks, each of which is decoded on its own, so a character that
is cut by a chunk boundary is not put together again.

A directory tree is copied as it is listed. Every directory in a listing comes with a height, which
is less than that of the directory listed, so the walk through a tree ends.

## Contents

* `SshClient.Dial`: what happens while a connection comes up.
* `SshClient.Link`: the connection as something to stop and to wait for.
* `SshClient`, `SshClient.interface`.
* `SshClient.answer`: what such a machine does about each request.
-/

namespace Outpost

/-- A host that is reached through a client, known by its `name`. -/
structure SshClient where
  name : String
deriving DecidableEq, Repr

namespace SshClient

/-! ## Coming up -/

/-- How long a connection may take to come up where the configuration has no `readyTimeout`. -/
def defaultReadyTimeout : Timeout := .ofNat 30000

/-- How often a connection is kept alive where nothing is said, in milliseconds. -/
def keepaliveInterval : Nat := 10000

/-- The time that a configuration gives a connection to come up, as `readyTimeout`. -/
def readyTimeout (config : Json) : Timeout :=
  ((config.given? "readyTimeout").map Timeout.mk).getD defaultReadyTimeout

/-- The name of the host of a configuration, its `host`. -/
def hostName (config : Json) : String :=
  let user :=
    match config.field? "username" with
    | some user => if user.isVoid then "" else user.display ++ "@"
    | none => ""
  user ++ ((config.given? "host").map Json.display).getD "localhost"

/-- The settings that the client is given: those of the configuration, with `keepaliveInterval` and
`readyTimeout` by default. -/
def clientSettings (config : Json) : Json :=
  Json.mkObject ([("keepaliveInterval", .nat keepaliveInterval)] ++ config.spread
    ++ [("readyTimeout", (readyTimeout config).given)])

/-- A connection that is coming up, or has come up, or has not. -/
structure Dial where
  name : String
  timeout : Timeout
  /-- Whether the first report that the connection is up, `Event.ready`, is still to come. -/
  awaitsReady : Bool := true
  /-- Whether the first failure is still to come. -/
  awaitsFailure : Bool := true
  /-- Whether the timer is running. -/
  armed : Bool := true
  /-- Whether the host is in use. -/
  up : Bool := false
deriving BEq

/-- Something that happens while a connection comes up, which `Dial.react` has to do with. -/
inductive Dial.Event where
  | ready
  | failed (message : String)
  | expired

/-- What has to be done about an `Event`. -/
inductive Dial.Effect where
  | stopTimer
  | endClient
  | report (line : Console.Line)
  /-- The attempt has ended with `result`, unless it had ended before. -/
  | settle (result : Except Fault Unit)

/-- What an event leads to. The first report and the first failure stop the timer; a failure of a
host that is `up` is also reported. A client that is ended may still report something, which then
decides how the attempt ended. -/
def Dial.react (dial : Dial) : Dial.Event → Dial × List Dial.Effect
  | .ready =>
    if dial.awaitsReady then
      ({ dial with awaitsReady := false, armed := false, up := true },
        [.stopTimer, .report ⟨.info, "Ssh2Machine", "Connected to " ++ dial.name⟩,
          .settle (.ok ())])
    else (dial, [])
  | .failed message =>
    let warning : List Dial.Effect :=
      if dial.up then
        [.report ⟨.warn, "Ssh2Machine",
          "Connection to " ++ dial.name ++ " reported: " ++ message⟩]
      else []
    if dial.awaitsFailure then
      ({ dial with awaitsFailure := false, armed := false },
        .stopTimer :: .settle (.error (.ofMessage message)) :: warning)
    else (dial, warning)
  | .expired =>
    if dial.armed then
      ({ dial with armed := false },
        [.endClient,
          .settle (.error (.timedOut ("ssh connection to " ++ dial.name) dial.timeout))])
    else (dial, [])

/-! ## Requests -/

/-- Something in a directory. Directories come with a height of type `Height`. -/
inductive Entry (Height : Type) where
  | directory (name : String) (height : Height)
  | file (name : String)
  /-- Neither a directory nor a regular file. -/
  | other (name : String)

/-- What a command left behind, as `execute` replies with it. -/
structure Execution where
  stdout : List Bytes
  stderr : List Bytes
  /-- What was reported when the command exited, if that was. -/
  report : Option Json

/-- An `Execution` of a command that has not written anything. -/
def Execution.silent : Execution := ⟨[], [], none⟩

/-- A command after one more event of its channel, whose chunks are kept one by one. -/
def Execution.after (execution : Execution) : Channel.Event → Execution
  | .output chunk => { execution with stdout := execution.stdout ++ [chunk] }
  | .errors chunk => { execution with stderr := execution.stderr ++ [chunk] }
  | .exited report => { execution with report := some report }
  | .outputEnded | .closed | .refused _ => execution

/-- What is asked of the client, and of the local system for files to copy. -/
inductive Request where
  /-- Ends the connection, as `terminate` does. -/
  | endClient
  /-- Ends the connection at once, as `kill` does. -/
  | destroyClient
  /-- Waits until the connection is closed. -/
  | awaitClosed
  /-- Runs `commandLine` to its end, which is an `Execution`. -/
  | execute (commandLine : String)
  /-- Runs a command, `argv`, on a channel of its own. -/
  | spawn (argv : List Json)
  /-- Opens a channel to a `port` of the host. -/
  | forward (port : Port)
  | openFiles
  | closeFiles
  | makeDirectory (path : String)
  | putFile (source destination : String)
  | putText (path content : String)
  /-- Lists the local directory `path`. -/
  | list (path : String)
  /-- Lists the local directory `path`, which is of a given `height`. -/
  | listBelow (path : String) (height : Nat)

/-- The replies: everything but waiting and `closeFiles` may fail with a `Fault`. -/
def interface : Interface where
  Request := Request
  Reply
    | .endClient => Except Fault Unit
    | .destroyClient => Except Fault Unit
    | .awaitClosed => Unit
    | .execute _ => Except Fault Execution
    | .spawn _ => Except Fault Machine.Running
    | .forward _ => Except Fault Machine.Socket
    | .openFiles => Except Fault Unit
    | .closeFiles => Unit
    | .makeDirectory _ => Except Fault Unit
    | .putFile .. => Except Fault Unit
    | .putText .. => Except Fault Unit
    | .list _ => Except Fault (List (Entry Nat))
    | .listBelow _ height => Except Fault (List (Entry (Fin height)))

/-! ## The connection -/

/-- The connection itself, and whether it is `closed`. -/
structure Link where
  closed : Bool := false
deriving DecidableEq, Repr

/-- The client has reported that the connection is closed. -/
def Link.close (link : Link) : Link := { link with closed := true }

/-- The fault of a wait for the connection to close that took longer than `timeout`. -/
def overdue (timeout : Timeout) : Fault := .timedOut "ssh connection to close" timeout

/-- Ends the connection, by `endClient`, unless it is `closed`. -/
def terminate : Attempt Link interface Unit := do
  if (← get).closed then return
  ExceptT.mk (.ask .endClient .done)

/-- Ends the connection at once, by `destroyClient`, unless it is `closed`. -/
def kill : Attempt Link interface Unit := do
  if (← get).closed then return
  ExceptT.mk (.ask .destroyClient .done)

/-- Ends the connection and waits until it is closed, by `awaitClosed`, unless it is. -/
def close : Attempt Link interface Unit := do
  if (← get).closed then return
  terminate
  ExceptT.lift (.ask .awaitClosed .done)

section

variable {σ : Type}

/-- What a host is known by: its `name`, and that it is reached directly. -/
def machine (host : SshClient) : Machine := ⟨some (.string host.name), .direct⟩

/-! ## Commands on the host -/

/-- The text of `chunks`, each decoded on its own by `decodeUtf8`. -/
def decodeChunks (chunks : List Bytes) : String := String.join (chunks.map Text.decodeUtf8)

/-- Runs `commandLine` on the host, by `execute`, and decodes what it has written by
`decodeChunks`. -/
def run (commandLine : String) : Attempt σ interface Machine.Finished := do
  let execution ← (ExceptT.mk (.ask (.execute commandLine) .done) :
    Attempt σ interface Execution)
  return ⟨decodeChunks execution.stdout, decodeChunks execution.stderr,
    Channel.exitCode (Json.shown execution.report)⟩

/-- Runs `commandLine` on the host, which has to succeed, and returns its output: `run`, and
`Finished.require`. -/
def runChecked (host : SshClient) (commandLine : String) : Attempt σ interface String := do
  let result ← run commandLine
  Attempt.ofExcept (result.require host.name commandLine)

/-- Finds a `command` on the host, by `lookupLine`. -/
def which (host : SshClient) (command : String) : Attempt σ interface Machine.Command := do
  let result ← run (Machine.lookupLine command)
  Attempt.ofExcept (result.command host.machine.name command)

/-- A channel to a `port` of the host, by `forward`. -/
def connect (host : SshClient) (port : Port) : Attempt σ interface Machine.Socket := do
  match ← (ExceptT.lift (.ask (.forward port) .done) :
      Attempt σ interface (Except Fault Machine.Socket)) with
  | .ok socket => return socket
  | .error fault =>
    throw (.error ("Cannot reach " ++ host.name ++ ":" ++ port.text ++ ": " ++ fault.message)
      none (some fault))

/-! ## Files -/

/-- Makes a temporary directory on the host, by `makeDirectoryLine`. -/
def tempDirectory (host : SshClient) : Attempt σ interface Machine.Directory := do
  let output ← host.runChecked Machine.makeDirectoryLine
  return ⟨Text.trim output⟩

/-- Removes a temporary `directory` of the host, by `removeDirectoryLine`. -/
def removeDirectory (host : SshClient) (directory : Machine.Directory) :
    Attempt σ interface Unit := do
  let _ ← host.runChecked (Machine.removeDirectoryLine directory)

/-- Does some `work` with a file session, by `openFiles`, that is closed afterwards whatever
happens, by `closeFiles`. -/
def withFiles (work : Attempt σ interface Unit) : Attempt σ interface Unit := do
  (ExceptT.mk (.ask .openFiles .done) : Attempt σ interface Unit)
  work.thenAlways (ExceptT.lift (.ask .closeFiles .done))

/-- Copies what was listed of a directory: each directory is made and then entered, by `enter`, each
regular file is copied, and anything else is left out. -/
def copyEntries {Height : Type} (enter : Height → String → String → Attempt σ interface Unit)
    (source destination : String) : List (Entry Height) → Attempt σ interface Unit
  | [] => return
  | .directory name height :: rest => do
    let target := Path.join [destination, name]
    (ExceptT.mk (.ask (.makeDirectory target) .done) : Attempt σ interface Unit)
    enter height (Path.join [source, name]) target
    copyEntries enter source destination rest
  | .file name :: rest => do
    (ExceptT.mk (.ask (.putFile (Path.join [source, name]) (Path.join [destination, name])) .done) :
      Attempt σ interface Unit)
    copyEntries enter source destination rest
  | .other _ :: rest => copyEntries enter source destination rest

/-- Copies what is in a directory of a given `height`, by `listBelow` and `copyEntries`. -/
def copyBelow (height : Nat) (source destination : String) : Attempt σ interface Unit := do
  let entries ← (ExceptT.mk (.ask (.listBelow source height) .done) :
    Attempt σ interface (List (Entry (Fin height))))
  copyEntries (fun lower source destination => copyBelow lower.val source destination)
    source destination entries
termination_by height
decreasing_by exact lower.isLt

/-- Copies a local directory tree into a directory of the host, `withFiles`. -/
def upload (source destination : String) : Attempt σ interface Unit :=
  withFiles do
    let entries ← (ExceptT.mk (.ask (.list source) .done) :
      Attempt σ interface (List (Entry Nat)))
    copyEntries copyBelow source destination entries

/-- Writes a file on the host, `withFiles`. -/
def writeFile (path content : String) : Attempt σ interface Unit :=
  withFiles (ExceptT.mk (.ask (.putText path content) .done))

end

/-- What the machine does about a `request`. The state is that of the `Link`. A process ends with
its channel, so there is no session of its own to give it. -/
def answer (host : SshClient) :
    (request : Machine.Request) → Program Link interface (Machine.interface.Reply request)
  | .tempDirectory => host.tempDirectory.outcome
  | .upload source destination => (upload source destination).outcome
  | .joinPath parts => .done (.ok (Path.join parts))
  | .writeFile path content => (writeFile path content).outcome
  | .which name => (host.which name).outcome
  | .spawn command arguments _ => .ask (.spawn (command.argv ++ arguments)) .done
  | .connect port => (host.connect port).outcome
  | .openTunnel .. => .done (.error host.machine.unreachable)
  | .closeTunnel _ => .done (.error host.machine.unreachable)
  | .removeDirectory directory => (host.removeDirectory directory).outcome
  | .close => close.outcome

end SshClient

end Outpost

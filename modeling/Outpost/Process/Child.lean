import Outpost.Process.Buffer
import Outpost.Program

/-!
# Child processes

Processes of the local system, with pipes for their input and output. A child that leads a process
group of its own is signalled together with its group, and alone where that fails.

## Contents

* `Child`, `Child.Event`, `Child.Event.stimuli`: what is known of a child, and what its
  events mean for its buffer.
* `Child.terminate`, `Child.kill`.
* `Launch`: how a child is started.
-/

namespace Outpost

/-- How hard a process is asked to stop, by `terminate` or `kill`. -/
inductive Signal where
  | terminate
  | kill
deriving DecidableEq, Repr

/-- The short name of a signal. -/
def Signal.name : Signal → String
  | .terminate => "TERM"
  | .kill => "KILL"

/-- The environment that a child is given. -/
inductive Environment where
  /-- The environment of this process, because nothing else was said. -/
  | inherited
  /-- The environment of this process, by name. -/
  | ours
  /-- These variables. -/
  | variables (bindings : Json)

/-- The environment of a child for which variables may have been given, otherwise `inherited`. -/
def Environment.ofVariables : Option Json → Environment
  | some bindings => .variables bindings
  | none => .inherited

/-- How a child is started: its `file` with its `arguments`. -/
structure Launch where
  file : Json
  arguments : List Json
  /-- What is said about a session of its own: it leads one, and a process group of its own, unless
  this says nothing, as `isVoid` has it. -/
  newSession : Json := .bool false
  /-- The directory it starts in, if not that of this process. -/
  directory : Option Json := none
  environment : Environment := .inherited

/-- The words of a launch, its `file` first. -/
def Launch.argv (launch : Launch) : List Json := launch.file :: launch.arguments

/-- Whether a child leads a process group of its own, as `newSession` says. -/
def Launch.leads (launch : Launch) : Bool := !launch.newSession.isVoid

/-- What is known of a child since its `Launch`. -/
structure Child where
  /-- Its number in the order of launches. -/
  id : Nat
  /-- Its process number; a launch that failed has none. -/
  pid : Option Json
  argv : List Json
  /-- Whether signals go to its process group, by `signalGroup`. -/
  groupKill : Bool
  /-- Whether there is a pipe to its input. -/
  hasInput : Bool
  /-- Whether there is a pipe from its output. -/
  hasOutput : Bool

/-- Something that the system reports of a `Child`. -/
inductive Child.Event where
  | output (chunk : Bytes)
  | errors (chunk : Bytes)
  | outputEnded
  | exited (code : Json)
  | closed
  /-- The child could not be started, signalled or reached, for the reason `message`. -/
  | failed (message : String)
  /-- Its input could not be written. -/
  | inputFailed (message : String)

/-- What an event means for the `Buffer` of a child. Messages are kept with standard error. A child
that has `failed` without ever having a `pid` counts as closed, since nothing more may come. -/
def Child.Event.stimuli (pid : Option Json) : Child.Event → List Stimulus
  | .output chunk => [.output chunk]
  | .errors chunk => [.errors chunk]
  | .outputEnded => [.ended]
  | .exited code => [.exited code]
  | .closed => [.closed]
  | .failed message =>
    .errors (Text.encodeUtf8 (message ++ "\n")) :: (if pid.isNone then [.closed] else [])
  | .inputFailed message => [.errors (Text.encodeUtf8 ("stdin: " ++ message ++ "\n"))]

namespace Child

/-- The buffer of a child at its launch: without a pipe its output has `ended`. -/
def buffer (child : Child) : Buffer := { ended := !child.hasOutput }

/-- The requests that stopping a child makes of the system. -/
inductive Request where
  /-- Ends the input of the `child`. -/
  | endInput (child : Nat)
  /-- Signals the process group that the process number `leader` leads. -/
  | signalGroup (leader : Json) (signal : Signal)
  /-- Signals the `child` alone. -/
  | signal (child : Nat) (signal : Signal)

/-- The replies: any of it may fail with a `Fault`. -/
def interface : Interface where
  Request := Request
  Reply _ := Except Fault Unit

/-- Makes one request of the system. -/
private def send (request : Request) : Attempt Buffer interface Unit :=
  ExceptT.mk (.ask request .done)

/-- Signals the child with its group where it leads one, as `groupKill` says, and alone where it
does not or where the group cannot be signalled. -/
def signal (child : Child) (signal : Signal) : Attempt Buffer interface Unit := do
  match child.groupKill, child.pid with
  | true, some leader =>
    tryCatch (send (.signalGroup leader signal)) fun _ => send (.signal child.id signal)
  | _, _ => send (.signal child.id signal)

/-- Asks a child to stop: ends its input and signals it with `Signal.terminate`. A closed child is
left alone. -/
def terminate (child : Child) : Attempt Buffer interface Unit := do
  if (← get).closed then return
  if child.hasInput then send (.endInput child.id)
  child.signal .terminate

/-- Stops a child at once, with `Signal.kill`. A closed child is left alone. -/
def kill (child : Child) : Attempt Buffer interface Unit := do
  if (← get).closed then return
  child.signal .kill

end Child

/-- A local command: a program, `file`, with `fixed` first arguments, and the environment for it. -/
structure LocalCommand where
  file : Json
  fixed : List Json
  environment : Environment

/-- The words of a local command, its `file` first. -/
def LocalCommand.argv (command : LocalCommand) : List Json := command.file :: command.fixed

/-- The local command of the words `argv`, of which there must be one at least. -/
def LocalCommand.ofArgv (argv : List Json) (environment : Environment) :
    Except Fault LocalCommand :=
  match argv with
  | [] => .error (.ofMessage "LocalCommand needs at least the executable")
  | file :: fixed => .ok ⟨file, fixed, environment⟩

/-- The launch of a local command with further `arguments`. -/
def LocalCommand.launch (command : LocalCommand) (arguments : List Json) (newSession : Json)
    (directory : Option Json := none) : Launch where
  file := command.file
  arguments := command.fixed ++ arguments
  newSession := newSession
  directory := directory
  environment := command.environment

end Outpost

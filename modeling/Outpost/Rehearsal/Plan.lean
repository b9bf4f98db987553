import Outpost.Connection
import Outpost.EventLog
import Outpost.Listener
import Outpost.Loopback
import Outpost.Machine.Local
import Outpost.Machine.OpenSsh
import Outpost.Machine.SshClient

/-!
# Plans of rehearsals

A plan says how the surroundings behave while programs are tried out: what processes, channels and
the client do at which time and in reaction to what, which requests fail, and what is there to be
found. Whatever is done to the surroundings is a `Deed`, and a plan can make it fail.

## Contents

* `Cue`, `Reaction`, `Behaviour`: what something does, and when.
* `Deed`: what was done to the surroundings.
* `HostPlan`, `Plan`.
-/

namespace Outpost

namespace Rehearsal

/-! ## Behaviour -/

/-- What a process, a channel or a client does of its own accord. An actor carries its cues out by
`act`. -/
inductive Cue where
  | output (chunk : Bytes)
  | errors (chunk : Bytes)
  | outputEnded
  | exited (report : Json)
  | closed
  /-- `finished`: output ends, the process exits and is closed, unless it is gone already. -/
  | finished (report : Json)
  | failed (message : String)
  | inputFailed (message : String)
  /-- A local port starts to accept connections. -/
  | listens (port : Port)
  /-- The client is connected. -/
  | ready
  /-- The call that led to this fails. -/
  | raises (fault : Fault)
  /-- Nothing that anybody hears of. -/
  | nothing

/-- One item of a `Plan`'s reactions: at once, or as an event of its own after a delay. -/
structure Reaction where
  delay : Option Number := none
  cue : Cue

/-- A reaction as an event of its own, the next one unless it has a `delay`. -/
def Reaction.asEvent (reaction : Reaction) : Reaction :=
  { reaction with delay := some (reaction.delay.getD (.ofNat 0)) }

/-- The reaction of what stops as soon as it is told to: it is `finished`. -/
def stopsAtOnce : List Reaction := [{ cue := .finished .null }]

/-- How a process or a channel behaves: its reactions to its start, to the signals and to the end of
its input. -/
structure Behaviour where
  /-- The process number of the process that is launched as the `k`-th one. -/
  pid : Nat → Option Json := fun _ => none
  hasInput : Bool := true
  hasOutput : Bool := true
  hasErrors : Bool := true
  /-- Whether it leads a process group. -/
  grouped : Bool := true
  /-- Why it cannot be launched or opened, if it cannot: the fault of `launch` or of
  `openChannel`. -/
  refusal : Option Fault := none
  /-- How long it takes to open. -/
  opensAfter : Number := .ofNat 0
  atStart : List Reaction := []
  onTerminate : List Reaction := stopsAtOnce
  onKill : List Reaction := stopsAtOnce
  onInputEnd : List Reaction := []

/-- The reaction to a `Signal`. -/
def Behaviour.onSignal (behaviour : Behaviour) : Signal → List Reaction
  | .terminate => behaviour.onTerminate
  | .kill => behaviour.onKill

/-! ## Deeds -/

/-- What was done to the surroundings. A `Trial` accounts for a call by the deeds that it led to. -/
inductive Deed where
  | console (stream : Console.Stream) (text : String)
  | system (request : LocalMachine.Request)
  | openSsh (request : OpenSsh.Request)
  | client (request : SshClient.Request)
  /-- A client was told to connect under these settings. -/
  | dial (settings : Json)
  | log (request : EventLog.Request)
  | connection (request : Connection.Request)
  | listener (request : Listener.Request)
  /-- A child was launched, with or without an input. -/
  | launch (number : Nat) (launch : Launch) (input : Bool)
  /-- The input of a child was ended, after a last text if there is one. -/
  | endInput (child : Nat) (last : Json)
  | writeInput (child : Nat) (chunk : Bytes)
  | signal (child : Nat) (signal : Signal)
  | signalGroup (leader : Json) (signal : Signal)
  | channel (request : Channel.Request)
  | connect (port : Port)
  | bind (port : Port) (host : Json)
  | unbind
  /-- Something was asked of a simulated machine, by the name of its host. -/
  | host (name : String) (request : Machine.Request)
  /-- Something simulated was told to stop. -/
  | stop (label : String) (signal : Signal)
  /-- A remark that belongs to the rehearsal. -/
  | remark (name : String) (details : List Json)

/-! ## Plans -/

/-- How a simulated machine behaves: its answers to each `Machine.Request`. -/
structure HostPlan where
  machine : Machine
  /-- The words of a command, if the machine has it: the answer to `Machine.Request.which`. -/
  command : String → Option (List Json)
  /-- The path of every temporary directory, where it is fixed. -/
  tempPath : Option String := none
  process : Behaviour := {}
  transport : Behaviour := {}
  tunnel : Behaviour := {}
  /-- Whether the local ports of tunnels accept connections. -/
  reachable : Bool := true
  /-- What happens to a request of this kind that comes after so many others of it. It raises the
  fault if there is one. -/
  fault? : Machine.Request → Nat → Option Fault := fun _ _ => none

/-- How the client behaves that `SshClient.connect` dials with. -/
structure ClientPlan where
  /-- What it does when it is told to connect, to end and to end at once. -/
  behaviour : Behaviour
  /-- How the `Channel` for a command line behaves that comes after so many others for it. -/
  response : String → Nat → Behaviour

/-- How the surroundings behave: all that a `World` cannot know by itself. -/
structure Plan where
  /-- The time at which the clock starts. -/
  epoch : Number
  debugSetting : Option String := none
  home : String := "/home/user"
  tempRoot : String := "/tmp"
  searchPath : String
  /-- The kind of a `Deed`, by which deeds are counted. -/
  kind : Deed → String
  /-- What happens to a deed of a `kind` that comes after so many others of it. -/
  fault? : String → Nat → Option Fault
  /-- What a bound server is said to be bound to, where that is no port. -/
  address : Option String := none
  /-- How the `k`-th child behaves. -/
  child : Nat → Behaviour
  executable : String → Bool
  /-- What is in a local directory, if it is there: the answer to `SshClient.Request.list`. -/
  listing : String → Option (List (SshClient.Entry Unit))
  /-- More than the number of directories that lie inside one another. -/
  depth : Nat
  client : ClientPlan
  /-- Why a service fails when it is told of its connection by `made` or `opened`, if it does. -/
  service : Connection.Request → Option Fault := fun _ => none
  /-- The name of the session that is the `k`-th one. -/
  sessionName : Nat → String

end Rehearsal

end Outpost

import Outpost.Fault.Report
import Outpost.Options
import Outpost.Rehearsal.Plan

/-!
# Described behaviour

Plans can be described by JSON values: reactions as lists of objects that each name one cue and, for
an event of its own, its delay under `t`; behaviours as objects that give what differs from the
default; faults as reports, one for every call or one for each.

## Contents

* `Cue.named?`, `Reaction.described?`, `reactionsIn`.
* `Behaviour.ofChild`, `Behaviour.ofSimulated`, `Behaviour.ofChannel`, `ClientPlan.described`.
* `HostPlan.described`, `entryIn?`, `depthIn`.
* `faultIn?`: what a table says about a call.
* `Plan.described`, `Plan.localMachine`, `optionsIn`.
-/

namespace Outpost

namespace Rehearsal

/-- The part of a `description` under `key`; one that is missing says nothing. -/
def part (description : Json) (key : String) : Json := (description.given? key).getD .null

/-! ## Reactions -/

/-- The delay that a value stands for, by `numeric?`; what counts as no number stands for none. -/
def delayOf (value : Json) : Number := value.numeric?.getD (.ofNat 0)

/-- The `Cue` that a field of a description names. -/
def Cue.named? (key : String) (value : Json) : Option Cue :=
  match key with
  | "out" => some (.output value.toBytes)
  | "err" => some (.errors value.toBytes)
  | "eof" => some .outputEnded
  | "exited" => some (.exited value)
  | "closed" => some .closed
  | "exit" => some (.finished value)
  | "error" => some (.failed value.display)
  | "stdinError" => some (.inputFailed value.display)
  | "listen" => some (.listens (some value))
  | "ready" => some .ready
  | "throw" => some (.raises (Fault.ofJson value))
  | _ => none

/-- The reaction that an item of a description stands for. An object that names no `Cue` still takes
its time. -/
def Reaction.described? : Json → Option Reaction
  | .object fields => some {
      delay := (Json.lookup "t" fields).map delayOf
      cue := (fields.findSome? fun (key, value) => Cue.named? key value).getD .nothing }
  | _ => none

/-- The reactions under a name, or `others` where none are described. -/
def reactionsIn (description : Json) (key : String) (others : List Reaction) : List Reaction :=
  match description.items? key with
  | some items => items.filterMap Reaction.described?
  | none => others

/-- A `cue` as the next event. -/
def next (cue : Cue) : List Reaction := [{ delay := some (.ofNat 0), cue }]

/-! ## Behaviours -/

/-- The process number in a description; `null` is none. -/
def pidIn (description : Json) (other : Nat) : Option Json :=
  match description.field? "pid" with
  | none => some (.nat other)
  | some .null => none
  | given => given

/-- How a child behaves, as its `description` has it. -/
def Behaviour.ofChild (description : Json) : Behaviour where
  pid k := pidIn description (5000 + k)
  hasInput := !description.flag "noStdin"
  hasOutput := !description.flag "noStdout"
  hasErrors := !description.flag "noStderr"
  grouped := !description.flag "noGroup"
  refusal := (description.given? "spawnThrow").map Fault.ofJson
  atStart := reactionsIn description "events" []
  onTerminate := reactionsIn (part description "on") "SIGTERM" stopsAtOnce
  onKill := reactionsIn (part description "on") "SIGKILL" stopsAtOnce
  onInputEnd := reactionsIn description "onStdinEnd" []

/-- A child that exits at once without a fault, with the code `0`. -/
def Behaviour.succeeds : Behaviour := { ofChild .null with atStart := next (.finished (.nat 0)) }

/-- How a simulated process behaves, as its `description` has it. -/
def Behaviour.ofSimulated (description : Json) : Behaviour where
  pid _ := pidIn description 4242
  atStart := reactionsIn description "events" []
  onTerminate := reactionsIn description "onTerminate" stopsAtOnce
  onKill := reactionsIn description "onKill" stopsAtOnce

/-- How a channel behaves, as its `description` has it. -/
def Behaviour.ofChannel (description : Json) : Behaviour where
  refusal := (description.given? "error").map Fault.ofJson
  opensAfter := delayOf (part description "openAfter")
  atStart := reactionsIn description "events" (next (.finished (.nat 0)))
  onTerminate := reactionsIn (part description "on") "TERM" stopsAtOnce
  onKill := reactionsIn (part description "on") "KILL" stopsAtOnce

/-- A channel for a command that the host does not have. -/
def Behaviour.notFound : Behaviour where
  atStart := next (.errors (Text.encodeUtf8 "sh: not found\n")) ++ next (.finished (.nat 127))

/-- How the client behaves, as its `description` has it. Of several responses to a command line each
is used once, and the last one from then on. -/
def ClientPlan.described (description : Json) : ClientPlan where
  behaviour :=
    { atStart := reactionsIn description "connect" (next .ready)
      onTerminate := reactionsIn description "onEnd" (next .closed)
      onKill := reactionsIn description "onDestroy" (next .closed) }
  response line k :=
    let response? :=
      match (part description "exec").given? line with
      | some (.array responses) => responses[min k (responses.length - 1)]?
      | found => found
    match response?, description.given? "execDefault" with
    | some response, _ => .ofChannel response
    | none, some response => .ofChannel response
    | none, none => .notFound

/-! ## Machines and directories -/

/-- The commands that a machine has where none are described. -/
def usualCommands : List Json := [.string "node"]

/-- The words of the command `name` in a description: of commands that are only named, a path in the
usual place. -/
def commandIn? (commands : Option Json) (name : String) : Option (List Json) :=
  let named (known : List Json) : Option (List Json) :=
    if known.contains (.string name) then some [.string ("/usr/bin/" ++ name)] else none
  match commands with
  | some (.object known) => (Json.lookup name known).map fun
    | .array argv => argv
    | _ => []
  | some (.array known) => named known
  | _ => named usualCommands

/-- How a simulated machine behaves, as its `description` has it. -/
def HostPlan.described (description : Json) (fault? : Machine.Request → Nat → Option Fault) :
    HostPlan where
  machine :=
    { name := some ((description.given? "name").getD (.string "host"))
      connectivity := ((description.given? "connectivity").map .ofName).getD .direct }
  command := commandIn? (description.given? "commands")
  tempPath := description.text? "tempPath"
  process := .ofSimulated (part description "process")
  transport := .ofSimulated (part description "session")
  tunnel := .ofSimulated (part description "tunnelSession")
  reachable := !description.flag "deadTunnel"
  fault? := fault?

/-- Something in a directory, as a pair of its name and of what it is, `dir` or `file`. -/
def entryIn? : Json → Option (SshClient.Entry Unit)
  | .array [.string name, .string "dir"] => some (.directory name ())
  | .array [.string name, .string "file"] => some (.file name)
  | .array [.string name, _] => some (.other name)
  | _ => none

/-- A bound for walks through described directories. A walk that enters a directory inside itself
has made a call in the meantime that a table of faults speaks of, or it would not end, and between
two such calls it enters no directory twice. -/
def depthIn (tree faults : Json) : Nat :=
  let calls := faults.members.foldl (fun sum (key, _) => sum + (faults.items key).length) 0
  (tree.members.length + 1) * (calls + 1)

/-! ## Faults -/

/-- What a table of faults says about a call of some name that comes after `k` others. -/
def faultIn? (table : Json) (name : String) (k : Nat) : Option Fault :=
  match table.given? name with
  | none => none
  | some (.array faults) =>
    match faults[k]? with
    | none | some .null => none
    | some fault => some (.ofJson fault)
  | some fault => some (.ofJson fault)

/-! ## The whole -/

/-- The time at which described clocks start. -/
def firstTime : Nat := 1700000000000

/-- How the surroundings behave; `kind` tells the kinds of deeds. -/
def Plan.described (description : Json) (kind : Deed → String) : Plan where
  epoch := .ofNat firstTime
  debugSetting :=
    match description.field? "debug" with
    | some (.bool true) => some "1"
    | _ => description.text? "debug"
  searchPath := (description.text? "PATH").getD "/usr/bin:/bin"
  kind := kind
  fault? := faultIn? (part description "fail")
  address := (description.field? "address").map Json.display
  child k :=
    let child? :=
      ((description.items "procs")[k]?.filter (· != .null)) <|> description.given? "procDefault"
    (child?.map Behaviour.ofChild).getD .succeeds
  executable path := (description.items "executables").contains (.string path)
  listing path := ((part description "tree").items? path).map (·.filterMap entryIn?)
  depth := depthIn (part description "tree") (part description "fail")
  client := .described (part description "client")
  sessionName k := "session " ++ toString k

/-- The local machine as an object describes it; what it leaves out is as the `plan` says. -/
def Plan.localMachine (plan : Plan) (description : Json) : LocalMachine :=
  let tempRoot := (description.text? "tempRoot").getD plan.tempRoot
  match description.given? "env" with
  | some bindings =>
    { tempRoot, environment := .variables bindings, searchPath := bindings.text "PATH" }
  | none => { tempRoot, environment := .ours, searchPath := plan.searchPath }

/-- The options that an object describes, with an event log at `log` if it asks for one. A command
for an interpreter is described by what stands in place of it. -/
def optionsIn (log : String) : Option Json → Options.Input
  | none => .fields []
  | some (.object fields) => .fields <| fields.map fun (key, value) =>
    if key = "eventLog" && value == .bool true then (key, .eventLog log)
    else
      match key, value.field? "$command" with
      | "interpreter", some command => (key, .command (command.field? "argv"))
      | _, _ => (key, .json value)
  | some other => .other other

end Rehearsal

end Outpost

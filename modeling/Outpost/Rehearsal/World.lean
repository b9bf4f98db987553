import Outpost.EventLog.Queue
import Outpost.Json.Access
import Outpost.Rehearsal.Plan
import Outpost.Rehearsal.Schedule

/-!
# The world of a rehearsal

What a plan has led to so far: the deeds that were done, the files, ports and streams that there
are, and everybody who acts in it or runs in it. A state of type `τ` that belongs to the rehearsal
and not to the surroundings lies on the `desk`.

Something that is waited for arrives as a letter under the ticket of whoever waits. A letter that
comes first is kept, and a wait that is given up leaves its letter unread.

## Contents

* `Actor`, `Running`, `Host`, `World`, `Play`.
* `note`, `deed`: what was done, and whether it fails.
* `post`, `await`: letters.
* `perform`, `react`: cues and reactions.
-/

namespace Outpost

namespace Rehearsal

/-! ## Those who act -/

/-- What an `Actor` is. -/
inductive Role where
  | child
  | channel
  | client
  | simulated
deriving DecidableEq, Repr

/-- Who hears what an `Actor` does. -/
inductive Ear where
  | nobody
  /-- A child process or a simulated process, the one at the index `running`. -/
  | process (running : Nat)
  /-- A process on a `Channel`, the one at the index `running`. -/
  | channel (running : Nat)
  /-- Whoever waits for a command to end, under a `ticket`. -/
  | command (ticket : Nat)
  /-- A machine whose connection comes up, under the `ticket` of whoever waits for it. -/
  | dial (host ticket timer : Nat)
  /-- A machine that is connected. -/
  | link (host : Nat)
deriving DecidableEq, Repr

/-- A child process, a channel, a client or a simulated process, as the other side of it is, with
its `Behaviour`. -/
structure Actor where
  role : Role
  /-- Its number among those of its `role`. -/
  number : Nat
  behaviour : Behaviour
  /-- Whether it was closed, by a cue that `isLast`. -/
  gone : Bool := false
  ear : Ear := .nobody
  /-- The child whose input its output is passed on to. -/
  pipe : Option Nat := none

/-- How something that is `Running` is stopped. -/
inductive Runner where
  | child (child : Child) (actor : Nat)
  | simulated (label : String) (actor : Nat)
  | channel
  | link (host : Nat)

/-- Something that runs, as this side of it is, with how its `runner` stops it. -/
structure Running where
  argv : List Json
  pid : Option Json
  runner : Runner
  process : Channel := {}
  /-- Whether those who wait for it are about to be served. -/
  serving : Bool := false

/-- What a machine is made of. -/
inductive Host.Kind where
  | simulated (plan : HostPlan)
  | localhost (machine : LocalMachine)
  | openSsh (host : OpenSsh)
  | client (host : SshClient) (actor : Nat)

/-- A machine, with what it is made of, its `Kind`. -/
structure Host where
  machine : Machine
  kind : Host.Kind
  /-- The connection to it, if there is one. -/
  transport : Option Nat := none
  /-- Whether it was given up. -/
  closed : Bool := false
  link : SshClient.Link := {}
  dial : SshClient.Dial := { name := "", timeout := .ofNat 0 }
  /-- The processes that were launched on it, if it is simulated. -/
  launched : List Nat := []

/-- Whether a machine is simulated, after a `HostPlan`. -/
def Host.isSimulated (host : Host) : Bool :=
  match host.kind with
  | .simulated _ => true
  | _ => false

/-- What somebody waits for, under a ticket, in `await`. -/
inductive Letter where
  | answer (answer : Answer)
  | result (result : Except Fault Unit)
  | execution (left : SshClient.Execution)

/-- An `EventLog` with the ticket of its latest job. -/
structure Logbook where
  queue : EventLog.Queue
  latest : Nat := 0

/-- The state of a rehearsal. -/
structure World (τ : Type) where
  plan : Plan
  desk : τ
  /-- What was done, the latest first, as `note` has it. -/
  deeds : List Deed := []
  /-- How often things of a kind have happened, as `count` has it. -/
  counts : List (String × Nat) := []
  files : List (String × String) := []
  /-- The local ports that accept connections. -/
  listening : List Port := []
  /-- The ports that streams were opened to. -/
  streams : List Port := []
  actors : List Actor := []
  running : List Running := []
  hosts : List Host := []
  logs : List (String × Logbook) := []
  letters : List (Nat × Letter) := []
  commands : List (Nat × SshClient.Execution) := []

/-- What is done in a rehearsal. -/
abbrev Play (τ α : Type) : Type := Step (World τ) α

variable {τ α : Type}

/-! ## Deeds -/

/-- Notes a `deed`. -/
def note (deed : Deed) : Play τ Unit := modify fun w => { w with deeds := deed :: w.deeds }

/-- How many things of a `kind` have happened before this one. -/
def count (kind : String) : Play τ Nat := do
  let before := ((← get).counts.lookup kind).getD 0
  modify fun w => { w with
    counts := (kind, before + 1) :: w.counts.filter fun entry => entry.1 != kind }
  return before

/-- Does some `work`, unless there is a `fault`. -/
def unless? (fault : Option Fault) (work : Play τ α) : Play τ (Except Fault α) := do
  match fault with
  | some fault => return .error fault
  | none => return .ok (← work)

/-- What the `plan` has in store for a `deed`. -/
def planned (deed : Deed) : Play τ (Option Fault) := do
  let plan := (← get).plan
  let kind := plan.kind deed
  return plan.fault? kind (← count ("deed " ++ kind))

/-- Does some `work` unless the plan has the `deed` fail. -/
def attempt (deed : Deed) (work : Play τ α) : Play τ (Except Fault α) := do
  unless? (← planned deed) work

/-- Does some `work` unless the plan has a failure of the `deed` reported. A report that says
nothing is one of success. -/
def attemptReported (deed : Deed) (work : Play τ α) : Play τ (Except Fault α) := do
  unless? ((← planned deed).filter fun fault => !fault.isVoid) work

/-- Notes a `deed` and does it, unless the plan has it fail: `note`, and `attempt`. -/
def deed (deed : Deed) (work : Play τ α) : Play τ (Except Fault α) := do
  note deed
  attempt deed work

/-- What a clock shows, from `epoch` on, as far as its numbers can tell times apart. -/
def time : Play τ Number := do return (← get).plan.epoch.add (← Step.now)

/-- Does some `work` as an event of its own. -/
def soon (work : Play τ α) : Play τ α := do
  Step.sleep (.ofNat 0)
  work

/-- Shows a `line` on the console, as `Line.shown?` has it. -/
def report (line : Console.Line) : Play τ Unit := do
  match line.shown? (← get).plan.debugSetting with
  | none => return
  | some (stream, text) => note (.console stream text)

/-! ## Letters -/

/-- Sends a `letter`. The first one under a `ticket` is the one that counts. -/
def post (ticket : Nat) (letter : Letter) : Play τ Unit := do
  if (← get).letters.lookup ticket |>.isNone then
    modify fun w => { w with letters := (ticket, letter) :: w.letters }
    Step.call ticket

/-- Waits for a letter; there is none if the `ticket` is called without one. -/
def await (ticket : Nat) : Play τ (Option Letter) := do
  match (← get).letters.lookup ticket with
  | some letter => return some letter
  | none =>
    Step.park ticket
    return (← get).letters.lookup ticket

/-! ## Actors and what runs -/

/-- How many actors of a `role` there are. -/
def countActors (role : Role) : Play τ Nat :=
  Step.ask fun w => (w.actors.filter fun actor => actor.role = role).length

/-- Adds an actor and returns its index and its number. -/
def addActor (role : Role) (behaviour : Behaviour) : Play τ (Nat × Nat) := do
  let index := (← get).actors.length
  let number ← countActors role
  modify fun w => { w with actors := w.actors ++ [{ role, number, behaviour }] }
  return (index, number)

/-- Changes the actor at `index` by `f`. -/
def changeActor (index : Nat) (f : Actor → Actor) : Play τ Unit :=
  modify fun w => { w with actors := w.actors.modify index f }

/-- The index of the actor of a `role` and a `number`. -/
def actorIndex? (role : Role) (number : Nat) : Play τ (Option Nat) := do
  return (← get).actors.findIdx? fun actor => actor.role = role && actor.number == number

/-- Adds something that runs and returns its index. -/
def addRunning (running : Running) : Play τ Nat := do
  let index := (← get).running.length
  modify fun w => { w with running := w.running ++ [running] }
  return index

/-- Changes what runs at `index` by `f`. -/
def changeRunning (index : Nat) (f : Running → Running) : Play τ Unit :=
  modify fun w => { w with running := w.running.modify index f }

/-- Changes the `Buffer` of what runs at `index` by `f`. -/
def changeBuffer (index : Nat) (f : Buffer → Buffer) : Play τ Unit :=
  changeRunning index fun r => { r with process := { r.process with buffer := f r.process.buffer } }

/-- Changes the machine at `index` by `f`. -/
def changeHost (index : Nat) (f : Host → Host) : Play τ Unit :=
  modify fun w => { w with hosts := w.hosts.modify index f }

/-- Answers those whose wait for what runs at `index` is over, by `Buffer.serve`. -/
def serve (index : Nat) : Play τ Unit := do
  let some running := (← get).running[index]? | return
  let (after, answers) := running.process.buffer.serve
  changeRunning index fun r => { r with
    serving := false
    process := { r.process with buffer := after } }
  for (ticket, answer) in answers do
    post ticket (.answer answer)

/-- Tells what happened to something that runs, by `Buffer.apply`. Those whose wait is over are
answered once nothing else can be done. -/
def tell (index : Nat) (stimuli : List Stimulus) : Play τ Unit := do
  changeBuffer index fun buffer => stimuli.foldl Buffer.apply buffer
  let some running := (← get).running[index]? | return
  if !running.serving then
    changeRunning index fun r => { r with serving := true }
    Step.defer (serve index)

/-! ## Cues -/

/-- What a cue is to a process, as a `Child.Event`. -/
def Cue.childEvent? : Cue → Option Child.Event
  | .output chunk => some (.output chunk)
  | .errors chunk => some (.errors chunk)
  | .outputEnded => some .outputEnded
  | .exited report => some (.exited report)
  | .closed => some .closed
  | .failed message => some (.failed message)
  | .inputFailed message => some (.inputFailed message)
  | _ => none

/-- What a cue is to a process on a channel, as a `Channel.Event`. -/
def Cue.channelEvent? : Cue → Option Channel.Event
  | .output chunk => some (.output chunk)
  | .errors chunk => some (.errors chunk)
  | .outputEnded => some .outputEnded
  | .exited report => some (.exited report)
  | .closed => some .closed
  | _ => none

/-- What a cue is to a connection that comes up, as a `Dial.Event`. -/
def Cue.dialEvent? : Cue → Option SshClient.Dial.Event
  | .ready => some .ready
  | .failed message => some (.failed message)
  | _ => none

/-- Whether a cue is one for actors of a role. -/
def Role.does : Role → Cue → Bool
  | _, .closed => true
  | .client, .ready | .client, .failed _ => true
  | .client, _ => false
  | .child, .failed _ | .child, .inputFailed _ | .child, .listens _ => true
  | _, .output _ | _, .errors _ | _, .outputEnded | _, .exited _ | _, .finished _ => true
  | _, _ => false

/-- Whether an actor has the pipe that a cue goes through. -/
def Behaviour.shows (behaviour : Behaviour) : Cue → Bool
  | .output _ | .outputEnded => behaviour.hasOutput
  | .errors _ => behaviour.hasErrors
  | .inputFailed _ => behaviour.hasInput
  | _ => true

/-- The single cues that a cue of an actor stands for: `finished` stands for three. -/
def Cue.parts (gone : Bool) : Cue → List Cue
  | .finished report => if gone then [] else [.outputEnded, .exited report, .closed]
  | cue => [cue]

/-- Whether an actor is gone after a cue. -/
def Cue.isLast : Cue → Bool
  | .finished _ | .closed => true
  | _ => false

/-- Does what a connection that comes up calls for; `endClient` ends its client. -/
def carryOut (ticket timer : Nat) (endClient : Play τ Unit) :
    List SshClient.Dial.Effect → Play τ Unit
  | [] => return
  | .stopTimer :: rest => do
    Step.cancel timer
    carryOut ticket timer endClient rest
  | .endClient :: rest => do
    endClient
    carryOut ticket timer endClient rest
  | .report line :: rest => do
    report line
    carryOut ticket timer endClient rest
  | .settle result :: rest => do
    post ticket (.result result)
    carryOut ticket timer endClient rest

/-- The connection of the machine `host` is closed. -/
def hangUp (host : Nat) : Play τ Unit := do
  changeHost host fun h => { h with link := h.link.close }
  let some found := (← get).hosts[host]? | return
  if let some transport := found.transport then tell transport [.closed]

/-- Lets a `cue` be heard, by the ear of an actor. -/
def hear (cue : Cue) : Ear → Play τ Unit
  | .nobody => return
  | .process index => do
    let some running := (← get).running[index]? | return
    if let some event := cue.childEvent? then tell index (event.stimuli running.pid)
  | .channel index => do
    if let some event := cue.channelEvent? then tell index event.stimuli
  | .command ticket => do
    let some execution := (← get).commands.lookup ticket | return
    if let some event := cue.channelEvent? then
      let execution := execution.after event
      modify fun w => { w with
        commands := (ticket, execution) :: w.commands.filter fun entry => entry.1 != ticket }
      if let .closed := event then post ticket (.execution execution)
  | .dial host ticket timer => do
    let some found := (← get).hosts[host]? | return
    if let some event := cue.dialEvent? then
      let (dial, effects) := found.dial.react event
      changeHost host fun h => { h with dial }
      -- Neither a report that the connection is up nor a failure ends the client.
      carryOut ticket timer (pure ()) effects
    if let .closed := cue then
      if found.dial.up then hangUp host
  | .link host => do
    if let .closed := cue then hangUp host

/-- What an actor does, as far as it is heard, by `hear`. -/
def act (index : Nat) (cue : Cue) : Play τ Unit := do
  let some actor := (← get).actors[index]? | return
  if !actor.role.does cue then return
  if cue.isLast then changeActor index fun a => { a with gone := true }
  if let .listens port := cue then
    modify fun w => { w with listening := port :: w.listening }
  for part in cue.parts actor.gone do
    if actor.behaviour.shows part then hear part actor.ear

/-- Goes through reactions: cues at once, or as events of their own. A fault that one `raises` is
raised at once in any case, and nothing comes after it. -/
def reactBy (act : Cue → Play τ Unit) : List Reaction → Play τ (Except Fault Unit)
  | [] => return .ok ()
  | ⟨_, .raises fault⟩ :: _ => return .error fault
  | ⟨some delay, cue⟩ :: rest => do
    let _ ← Step.schedule delay (act cue)
    reactBy act rest
  | ⟨none, cue⟩ :: rest => do
    act cue
    reactBy act rest

/-- Ends the input of a child, after the text `last` if there is one. -/
def endInput (index : Nat) (last : Json) : Play τ (Except Fault Unit) := do
  let some child := (← get).actors[index]? | return .ok ()
  note (.endInput child.number last)
  reactBy (act index) child.behaviour.onInputEnd

/-- What an actor does, by `act`, with what follows for the child that its output is passed on to,
its `pipe`. -/
def perform (index : Nat) (cue : Cue) : Play τ Unit := do
  let some actor := (← get).actors[index]? | return
  act index cue
  let some destination := actor.pipe | return
  let some child := (← get).actors[destination]? | return
  for part in cue.parts actor.gone do
    match part with
    | .output chunk => note (.writeInput child.number chunk)
    | .outputEnded =>
      let _ ← endInput destination .null
    | _ => pure ()

/-- The reactions of an actor, each by `perform`. -/
def react (index : Nat) : List Reaction → Play τ (Except Fault Unit) := reactBy (perform index)

/-! ## Files and streams -/

/-- A new stream to a `port`. -/
def newStream (port : Port) : Play τ Nat := do
  let stream := (← get).streams.length
  modify fun w => { w with streams := w.streams ++ [port] }
  return stream

/-- Sets the text of the file `path`. -/
def setFile (path text : String) : Play τ Unit :=
  modify fun w => { w with files := (path, text) :: w.files.filter fun file => file.1 != path }

end Rehearsal

end Outpost

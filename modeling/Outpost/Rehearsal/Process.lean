import Outpost.Json.Access
import Outpost.Rehearsal.World

/-!
# Processes of a rehearsal

Child processes, simulated processes and processes on channels: how they come about, how one waits
for them, and what their own requests lead to.

## Contents

* `wait`, `readLine`, `communicate`.
* `adopt`, `launch`, `simulate`.
* `openChannel`, `spawnOnChannel`.
-/

namespace Outpost

namespace Rehearsal

variable {τ : Type}

/-! ## Waiting -/

/-- Waits for something that runs, for a limited time if there is a `limit`: a timer resolves the
same ticket. -/
def wait (index : Nat) (join leave : Nat → List Stimulus) (limit : Option Timeout) :
    Play τ (Option Answer) := do
  let ticket ← Step.fresh
  let timer ← limit.mapM fun limit => Step.schedule limit.delay do
    tell index (leave ticket)
    Step.call ticket
  tell index (join ticket)
  let letter ← await ticket
  if let some entry := timer then Step.cancel entry
  match letter with
  | some (.answer answer) => return some answer
  | _ => return none

/-- Reads a line; the result is `none` if the time runs out first. A wait that was given up still
takes the next line. -/
def readLine (index : Nat) (limit : Option Timeout) :
    Play τ (Option (Except Fault (Option String))) := do
  match ← wait index (fun ticket => [.readLine ticket]) (fun _ => []) limit with
  | some (.line text) => return some (.ok text)
  | _ => return none

/-- The `Fault.timedOut` of a wait that took too long. -/
def Running.overdue (running : Running) (limit : Timeout) : Fault :=
  match running.runner with
  | .link _ => SshClient.overdue limit
  | _ => Buffer.overdue running.pid running.argv limit

/-- Waits by `collect` for the end of something that runs and collects its output. -/
def communicate (index : Nat) (limit : Option Timeout) : Play τ (Except Fault Output) := do
  match ← wait index (fun ticket => [.collect ticket]) (fun ticket => [.giveUp ticket]) limit,
    (← get).running[index]? with
  | some (.output found), _ => return .ok found
  | _, some running => return .error (running.overdue (limit.getD (.ofNat 0)))
  | _, none => return .ok .nothing

/-- The `Buffer` of something that runs. -/
def bufferOf (index : Nat) : Play τ Buffer :=
  Step.ask fun w => (w.running[index]?.map fun r => r.process.buffer).getD {}

/-- What is known of something that runs, as a `Json` value. -/
def Running.toJson (running : Running) : Json :=
  let buffer := running.process.buffer
  .object [("argv", .array running.argv), ("pid", Json.shown running.pid),
    ("exitCode", buffer.exitCode), ("closed", .bool buffer.closed),
    ("consumed", .ofBytes buffer.consumed)]

/-! ## Children -/

/-- The actor that a `child` is on its other side. -/
def childActor? (index : Nat) : Play τ (Option Nat) := do
  match (← get).running[index]?.map Running.runner with
  | some (.child _ actor) => return some actor
  | _ => return none

/-- The `ESRCH` of a signal that reaches nobody. -/
def nobodyThere : Fault := .error "kill ESRCH" (some "ESRCH") none

/-- What stopping a child leads to, by `Child.Request`. -/
def answerChild : (r : Child.Request) → Play τ (Child.interface.Reply r)
  | .endInput child => do
    let some actor ← childActor? child | return .ok ()
    endInput actor .null
  | .signalGroup leader signal => do
    note (.signalGroup leader signal)
    let actors := (← get).actors
    let leads (actor : Actor) : Bool :=
      match leader with
      | .number _ => actor.role = .child && actor.behaviour.pid actor.number == some leader
      | _ => false
    let some index := actors.findIdx? leads | return .error nobodyThere
    let some actor := actors[index]? | return .error nobodyThere
    if !actor.behaviour.grouped then return .error nobodyThere
    react index (actor.behaviour.onSignal signal)
  | .signal child signal => do
    let some index ← childActor? child | return .ok ()
    let some actor := (← get).actors[index]? | return .ok ()
    note (.signal actor.number signal)
    react index (actor.behaviour.onSignal signal)

/-- Puts a child that has just been launched into the hands of its launcher: it is `running` from
then on. -/
def attach (actor number : Nat) (behaviour : Behaviour) (argv : List Json) (groupKill : Bool) :
    Play τ Child := do
  let child : Child :=
    { id := (← get).running.length, pid := behaviour.pid number, argv, groupKill
      hasInput := behaviour.hasInput, hasOutput := behaviour.hasOutput }
  let index ← addRunning
    { argv, pid := child.pid, runner := .child child actor, process := { buffer := child.buffer } }
  changeActor actor fun a => { a with ear := .process index }
  return child

/-- A child that was launched by somebody else, and what it is on its other side. -/
def adopt (behaviour : Behaviour) (argv : List Json) (groupKill : Bool) : Play τ (Child × Nat) := do
  let (actor, number) ← addActor .child behaviour
  return (← attach actor number behaviour argv groupKill, actor)

/-- Launches the next child of the plan, with an input or without. What it does at its start are
events, and if that raises a fault, nobody has hold of the `Child`. -/
def launch (l : Launch) (input : Bool) : Play τ (Except Fault Child) := do
  let behaviour := (← get).plan.child (← countActors .child)
  note (.launch (← countActors .child) l input)
  if let some fault := behaviour.refusal then return .error fault
  let (actor, number) ← addActor .child behaviour
  match ← react actor (behaviour.atStart.map Reaction.asEvent) with
  | .error fault => return .error fault
  | .ok () => return .ok (← attach actor number behaviour l.argv l.leads)

/-! ## Simulated processes -/

/-- A simulated process, which is known by a label. -/
def simulate (label : String) (argv : List Json) (behaviour : Behaviour) : Play τ (Nat × Nat) := do
  let (actor, number) ← addActor .simulated behaviour
  let index ← addRunning
    { argv, pid := behaviour.pid number, runner := .simulated label actor }
  changeActor actor fun a => { a with ear := .process index }
  return (index, actor)

/-! ## Channels -/

/-- Opens a channel for a command line. Once it is open, or refused, `opened` is told; what it does
at its start follows that. -/
def openChannel (commandLine : String) (opened : Except Fault Nat → Play τ Unit) :
    Play τ Unit := do
  note (.client (.execute commandLine))
  let before ← count ("command " ++ commandLine)
  let behaviour := (← get).plan.client.response commandLine before
  let _ ← Step.schedule behaviour.opensAfter do
    match behaviour.refusal with
    | some fault => opened (.error fault)
    | none =>
      let (actor, _) ← addActor .channel behaviour
      let _ ← newStream (.ofNat 0)
      opened (.ok actor)
      let _ ← react actor behaviour.atStart

/-- What stopping a process on a channel leads to, by `Channel.Request`. -/
def answerChannel : (r : Channel.Request) → Play τ (Channel.interface.Reply r)
  | .endInput channel => do
    note (.channel (.endInput channel))
    return .ok ()
  | .signal channel signal => do
    note (.channel (.signal channel signal))
    let some index ← actorIndex? .channel channel | return .ok ()
    let some actor := (← get).actors[index]? | return .ok ()
    react index (actor.behaviour.onSignal signal)
  | .close channel => do
    note (.channel (.close channel))
    return .ok ()

/-- What a process on a channel does: `answerChannel` answers. -/
def onChannel (index : Nat) (x : Attempt Channel Channel.interface Unit) :
    Play τ (Except Fault Unit) :=
  x.outcome.interpret (Step.ask fun w => (w.running[index]?.map Running.process).getD {})
    (fun process => changeRunning index fun r => { r with process }) answerChannel

/-- A process on a channel of its own, by the `commandLine` of its arguments. -/
def spawnOnChannel (argv : List Json) : Play τ Nat := do
  let index ← addRunning { argv, pid := none, runner := .channel }
  openChannel (Channel.commandLine argv) fun
    | .error fault => tell index (Channel.Event.refused fault).stimuli
    | .ok actor => do
      changeActor actor fun a => { a with ear := .channel index }
      let some opened := (← get).actors[actor]? | return
      let _ ← onChannel index (Channel.attach opened.number)
  return index

end Rehearsal

end Outpost

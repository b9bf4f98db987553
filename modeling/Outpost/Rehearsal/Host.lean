import Outpost.Rehearsal.System

/-!
# Machines of a rehearsal

What is asked of a machine, carried out in the world: for the local machine and those that are
reached through one of the clients by their own programs, for a simulated machine as its plan says.

## Contents

* `stop`: something that runs is asked to stop.
* `answerLocal`, `answerOpenSsh`, `answerClient`, `answerSimulated`.
* `askHost`, `answerControl`, `run`.
-/

namespace Outpost

namespace Rehearsal

variable {τ α : Type}

/-! ## Machines reached through the client -/

/-- What is done with the connection to a machine, its `Link`. -/
def onLink (host : Nat) (answer : (r : SshClient.Request) → Play τ (SshClient.interface.Reply r))
    (x : Program SshClient.Link SshClient.interface α) : Play τ α :=
  x.interpret (Step.ask fun w => (w.hosts[host]?.map Host.link).getD {})
    (fun link => changeHost host fun h => { h with link }) answer

/-- The client that carries the connection to a machine. -/
def clientActor? (host : Nat) : Play τ (Option Nat) := do
  match (← get).hosts[host]?.map Host.kind with
  | some (.client _ actor) => return some actor
  | _ => return none

/-- Tells the client of a machine something, to which it reacts with a `reaction` of its
`Behaviour`. -/
def tellClient (host : Nat) (request : SshClient.Request) (reaction : Behaviour → List Reaction) :
    Play τ (Except Fault Unit) := do
  note (.client request)
  let some index ← clientActor? host | return .ok ()
  let some actor := (← get).actors[index]? | return .ok ()
  react index (reaction actor.behaviour)

/-- What a client does later, as `work`, unless the plan has it fail. -/
def later (request : SshClient.Request) (work : Play τ α) : Play τ (Except Fault α) := do
  note (.client request)
  soon (attemptReported (.client request) work)

/-- Runs `commandLine` to its end, on a channel of its own. -/
def execute (commandLine : String) : Play τ (Except Fault SshClient.Execution) := do
  let ticket ← Step.fresh
  modify fun w => { w with commands := (ticket, .silent) :: w.commands }
  openChannel commandLine fun
    | .error fault => post ticket (.result (.error fault))
    | .ok actor => changeActor actor fun a => { a with ear := .command ticket }
  match ← await ticket with
  | some (.execution execution) => return .ok execution
  | some (.result (.error fault)) => return .error fault
  | _ => return .ok .silent

/-- An entry of a listing with a `height` in place of what it had. -/
def withHeight {Height : Type} (height : Height) : SshClient.Entry Unit → SshClient.Entry Height
  | .directory name _ => .directory name height
  | .file name => .file name
  | .other name => .other name

/-- What is in the local directory `path`, as the plan has it. -/
def listing (path : String) : Play τ (Except Fault (List (SshClient.Entry Unit))) := do
  note (.client (.list path))
  match (← get).plan.listing path with
  | some entries => return .ok entries
  | none => return .error (missing "scandir" path)

/-- What is in the local directory `path` of a given height. One of height zero has no directories
in it. -/
def listingBelow (path : String) :
    (height : Nat) → Play τ (Except Fault (List (SshClient.Entry (Fin height))))
  | 0 => do
    match ← listing path with
    | .error fault => return .error fault
    | .ok entries => return .ok (entries.filterMap fun
      | .directory .. => none
      | .file name => some (.file name)
      | .other name => some (.other name))
  | lower + 1 => do
    return (← listing path).map (·.map (withHeight (Fin.last lower)))

/-- What a machine asks of its client, `SshClient.Request`. -/
def answerClient (host : Nat) :
    (r : SshClient.Request) → Play τ (SshClient.interface.Reply r)
  | .endClient => tellClient host .endClient Behaviour.onTerminate
  | .destroyClient => tellClient host .destroyClient Behaviour.onKill
  | .awaitClosed => do
    if let some transport := (← get).hosts[host]?.bind Host.transport then
      let _ ← communicate transport none
  | .execute commandLine => execute commandLine
  | .spawn argv => do
    let index ← spawnOnChannel argv
    return .ok ⟨index, argv⟩
  | .forward port => later (.forward port) do return ⟨← newStream port⟩
  | .openFiles => later .openFiles (pure ())
  | .closeFiles => note (.client .closeFiles)
  | .makeDirectory path => later (.makeDirectory path) (pure ())
  | .putFile source destination => later (.putFile source destination) (pure ())
  | .putText path content => do
    setFile path content
    later (.putText path content) (pure ())
  | .list path => do
    let depth := (← get).plan.depth
    return (← listing path).map (·.map (withHeight depth))
  | .listBelow path height => listingBelow path height

/-! ## Stopping -/

/-- What runs at `index` is asked to stop, by a `signal`. -/
def stop (index : Nat) (signal : Signal) : Play τ (Except Fault Unit) := do
  let some running := (← get).running[index]? | return .ok ()
  match running.runner with
  | .child child _ =>
    let work := match signal with
      | .terminate => child.terminate
      | .kill => child.kill
    work.outcome.interpret (bufferOf index) (fun buffer => changeBuffer index fun _ => buffer)
      answerChild
  | .simulated label actor =>
    note (.stop label signal)
    let some found := (← get).actors[actor]? | return .ok ()
    react actor (found.behaviour.onSignal signal)
  | .channel =>
    onChannel index (match signal with
      | .terminate => Channel.terminate
      | .kill => Channel.kill)
  | .link host =>
    let work := match signal with
      | .terminate => SshClient.terminate
      | .kill => SshClient.kill
    onLink host (answerClient host) work.outcome

/-! ## The local machine -/

/-- What the local machine asks of the system, `LocalMachine.Request`. -/
def answerLocal : (r : LocalMachine.Request) → Play τ (LocalMachine.interface.Reply r)
  | .makeTemporary stem => temporary (.system (.makeTemporary stem)) stem
  | .removeTree path => deed (.system (.removeTree path)) (pure ())
  | .copyTree source destination => deed (.system (.copyTree source destination)) (pure ())
  | .writeFile path content =>
    deed (.system (.writeFile path content)) (setFile path content)
  | .isExecutable path => do
    note (.system (.isExecutable path))
    return (← get).plan.executable path
  | .spawn l => launch l true
  | .connect port => connectLoopback port

/-! ## Machines reached through OpenSSH -/

/-- Waits for a `child` and collects its output, by `communicate`. -/
def output (child : Nat) : Play τ Output := do
  match ← communicate child none with
  | .ok found => return found
  | .error _ => return .nothing

/-- Waits for the children `first` and `second` at once. -/
def outputs (first second : Nat) : Play τ (Output × Output) := do
  let one ← Step.fresh
  let other ← Step.fresh
  tell first [.collect one]
  tell second [.collect other]
  return (← collected one, ← collected other)
where
  /-- The output that arrives under a `ticket`. -/
  collected (ticket : Nat) : Play τ Output := do
    match ← await ticket with
    | some (.answer (.output found)) => return found
    | _ => return .nothing

/-- What a machine that is reached through OpenSSH asks of the system, `OpenSsh.Request`. -/
def answerOpenSsh : (r : OpenSsh.Request) → Play τ (OpenSsh.interface.Reply r)
  | .clock => time
  | .pause since milliseconds => do
    Step.sleep (.ofNat milliseconds)
    let ended ← time
    if advances : since.Advances ended then return ⟨ended, advances⟩
    return ⟨since.next, since.advances_next⟩
  | .makeDirectory stem => temporary (.openSsh (.makeDirectory stem)) stem
  | .removeDirectory path => deed (.openSsh (.removeDirectory path)) (pure ())
  | .spawn l => launch l true
  | .spawnSource l => launch l false
  | .pipe source destination => do
    match ← childActor? source, ← childActor? destination with
    | some actor, some pipe => changeActor actor fun a => { a with pipe := some pipe }
    | _, _ => return
  | .feed child last => do
    let some actor ← childActor? child | return .ok ()
    endInput actor last
  | .terminate child => stop child .terminate
  | .kill child => stop child .kill
  | .communicate child => output child
  | .communicateBoth first second => outputs first second
  | .isClosed child => do return (← bufferOf child).closed
  | .exitCode child => do return (← bufferOf child).exitCode
  | .connect port => connectLoopback port
  | .destroy socket => note (.openSsh (.destroy socket))
  | .report line => report line

/-! ## Simulated machines -/

/-- The kind of a `Machine.Request`, by which requests of a simulated machine are counted. -/
def requestKind : Machine.Request → String
  | .tempDirectory => "make a temporary directory"
  | .upload .. => "upload"
  | .joinPath _ => "join paths"
  | .writeFile .. => "write a file"
  | .which _ => "find a command"
  | .spawn .. => "spawn"
  | .connect _ => "connect"
  | .openTunnel .. => "open a tunnel"
  | .closeTunnel _ => "close a tunnel"
  | .removeDirectory _ => "remove a directory"
  | .close => "close"

/-- Does some `work` on a simulated machine unless its `plan` has the `request` fail. -/
def onSimulated (host : Nat) (plan : HostPlan) (request : Machine.Request) (work : Play τ α) :
    Play τ (Except Fault α) := do
  note (.host plan.machine.label request)
  let before ← count ("host " ++ toString host ++ " " ++ requestKind request)
  unless? (plan.fault? request before) work

/-- Enters something into the list of what was launched on a machine. -/
def addLaunched (host index : Nat) : Play τ Unit :=
  changeHost host fun h => { h with launched := h.launched ++ [index] }

/-- What a simulated machine does, after its `plan`. -/
def answerSimulated (host : Nat) (plan : HostPlan) :
    (r : Machine.Request) → Play τ (Machine.interface.Reply r)
  | .tempDirectory =>
    onSimulated host plan .tempDirectory do
      match plan.tempPath with
      | some path => return ⟨path⟩
      | none =>
        let before ← count ("host " ++ toString host ++ " directories")
        return ⟨"/tmp/" ++ plan.machine.label ++ "-" ++ toString (before + 1)⟩
  | .upload source destination => onSimulated host plan (.upload source destination) (pure ())
  | .joinPath parts => return .ok ("/".intercalate parts)
  | .writeFile path content =>
    onSimulated host plan (.writeFile path content) (setFile path content)
  | .which name => do
    match ← onSimulated host plan (.which name) (pure ()), plan.command name with
    | .error fault, _ => return .error fault
    | .ok (), some argv => return .ok (.found argv)
    | .ok (), none => return .error (.ofCommand name plan.machine.name)
  | .spawn command arguments options => do
    let argv := command.argv ++ arguments
    let launched ← onSimulated host plan (.spawn command arguments options) do
      let (index, actor) ← simulate (plan.machine.label ++ ".process") argv plan.process
      addLaunched host index
      return (index, ← react actor plan.process.atStart)
    match launched with
    | .error fault => return .error fault
    | .ok (_, .error fault) => return .error fault
    | .ok (index, .ok ()) => return .ok ⟨index, argv⟩
  | .connect port => onSimulated host plan (.connect port) do return ⟨← newStream port⟩
  | .openTunnel localPort remotePort =>
    onSimulated host plan (.openTunnel localPort remotePort) do
      if plan.reachable then
        modify fun w => { w with listening := localPort :: w.listening }
      let (index, _) ← simulate (plan.machine.label ++ ".tunnelSession")
        [.string "ssh", .string "-L"] plan.tunnel
      return ⟨index, localPort, remotePort⟩
  | .closeTunnel forward =>
    onSimulated host plan (.closeTunnel forward) do
      modify fun w => { w with
        listening := w.listening.filter fun port => port != forward.localPort }
  | .removeDirectory directory => onSimulated host plan (.removeDirectory directory) (pure ())
  | .close => onSimulated host plan .close (pure ())

/-! ## Requests of any machine -/

/-- The reply of a machine that there is not. -/
def nowhere : (r : Machine.Request) → Machine.interface.Reply r
  | .tempDirectory | .upload .. | .joinPath _ | .writeFile .. | .which _ | .spawn .. | .connect _
  | .openTunnel .. | .closeTunnel _ | .removeDirectory _ | .close =>
    .error (.ofMessage "There is no such machine")

/-- Asks something of the machine `host`, whatever its `Kind` is. -/
def askHost (host : Nat) (r : Machine.Request) : Play τ (Machine.interface.Reply r) := do
  let some found := (← get).hosts[host]? | return nowhere r
  match found.kind with
  | .simulated plan => answerSimulated host plan r
  | .localhost machine =>
    (machine.answer r).interpret (pure ()) (fun _ => pure ()) answerLocal
  | .openSsh machine =>
    (machine.answer r).interpret (Step.ask fun w => (w.hosts[host]?.map Host.closed).getD true)
      (fun closed => changeHost host fun h => { h with closed }) answerOpenSsh
  | .client machine _ => onLink host (answerClient host) (machine.answer r)

/-- What it is on a machine that can be asked to stop, as a `Stoppable`. -/
def stoppable (host : Nat) : Machine.Stoppable → Play τ (Option Nat)
  | .process running => return some running.id
  | .tunnel forward => return some forward.id
  | .transport => return (← get).hosts[host]?.bind Host.transport

/-- The actor that something that runs, at `index`, is on its other side. A process on a channel has
none until its channel is open. -/
def actorBehind (index : Nat) : Play τ (Option Nat) := do
  let some running := (← get).running[index]? | return none
  match running.runner, running.process.channel with
  | .child _ actor, _ | .simulated _ actor, _ => return some actor
  | .channel, some number => actorIndex? .channel number
  | .channel, none => return none
  | .link host, _ => clientActor? host

/-- What is asked of something that runs on a machine, `Machine.Control.Request`. The local machine
has no connection, so there is nothing to stop and nothing to wait for. -/
def answerControl (host : Nat) :
    (r : Machine.Control.Request) → Play τ (Machine.Control.interface.Reply r)
  | .terminate target => do
    let some index ← stoppable host target | return .ok ()
    stop index .terminate
  | .kill target => do
    let some index ← stoppable host target | return .ok ()
    stop index .kill
  | .communicate target limit => do
    let some index ← stoppable host target | return .ok .nothing
    communicate index limit
  | .readLine running limit => readLine running.id limit
  | .discardOutput running => do
    tell running.id [.discard]
    return .ok ()
  | .exitCode running => do return (← bufferOf running.id).exitCode
  | .consumedOutput running => do return (← bufferOf running.id).consumed

/-- Runs `commandLine` on a machine that has a shell at the other end. -/
def run (host : Nat) (commandLine : String) (input : Option Json) :
    Play τ (Except Fault Machine.Finished) := do
  match (← get).hosts[host]?.map Host.kind with
  | some (.openSsh machine) =>
    (machine.run commandLine input).outcome.interpret (pure ()) (fun _ => pure ()) answerOpenSsh
  | some (.client ..) => onLink host (answerClient host) (SshClient.run commandLine).outcome
  | _ => return .error (.ofMessage "There is no shell to run a command line")

end Rehearsal

end Outpost

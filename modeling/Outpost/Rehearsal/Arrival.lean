import Outpost.Rehearsal.Host

/-!
# Machines that come up in a rehearsal

How each kind of machine comes to be known in the world. A machine that is known has a place, by
which everything else refers to it, and where there is a connection to it, that is something that
runs.

## Contents

* `addSimulated`, `addLocalhost`, `addClientHost`.
* `connectOpenSsh`, `dial`: machines that have to be reached first.
-/

namespace Outpost

namespace Rehearsal

variable {τ : Type}

/-- Makes a machine known as one of the `hosts` and returns its place. -/
def addHost (host : Host) : Play τ Nat := do
  let index := (← get).hosts.length
  modify fun w => { w with hosts := w.hosts ++ [host] }
  return index

/-- A simulated machine, with a process by `simulate` for the connection to it. -/
def addSimulated (plan : HostPlan) : Play τ Nat := do
  let (transport, _) ← simulate (plan.machine.label ++ ".session")
    [.string "ssh", Json.shown plan.machine.name] plan.transport
  addHost { machine := plan.machine, kind := .simulated plan, transport := some transport }

/-- The local machine, as one of the `hosts`. -/
def addLocalhost (machine : LocalMachine) : Play τ Nat :=
  addHost { machine := LocalMachine.machine, kind := .localhost machine }

/-- A machine that a client is connected to, and the client. -/
def addClientHost (name : String) : Play τ (Nat × Nat) := do
  let machine : SshClient := ⟨name⟩
  let (actor, _) ← addActor .client (← get).plan.client.behaviour
  let host := (← get).hosts.length
  let transport ← addRunning { argv := [], pid := none, runner := .link host }
  changeActor actor fun a => { a with ear := .link host }
  let index ← addHost
    { machine := machine.machine, kind := .client machine actor, transport := some transport }
  return (index, actor)

/-- A machine that is reached by `OpenSsh.connect`. -/
def connectOpenSsh (config : OpenSsh.Config) : Play τ (Except Fault Nat) := do
  let connecting : Attempt Unit OpenSsh.interface OpenSsh :=
    OpenSsh.connect config (← get).plan.tempRoot
  match ← connecting.outcome.interpret (pure ()) (fun _ => pure ()) answerOpenSsh with
  | .error fault => return .error fault
  | .ok machine =>
    let index ← addHost
      { machine := machine.machine, kind := .openSsh machine, transport := some machine.master.id }
    return .ok index

/-- The timer of a connection that comes up has run out: its `dial` is `expired`. -/
def expireDial (host ticket timer : Nat) : Play τ Unit := do
  let some found := (← get).hosts[host]? | return
  let (dial, effects) := found.dial.react .expired
  changeHost host fun h => { h with dial }
  let endClient : Play τ Unit := do
    let _ ← tellClient host .endClient Behaviour.onTerminate
  carryOut ticket timer endClient effects

/-- A machine that a client is connected to first. What the client reports from then on is heard by
the machine's `dial`. -/
def dial (config : Json) : Play τ (Except Fault Nat) := do
  let name := SshClient.hostName config
  let limit := SshClient.readyTimeout config
  let (host, actor) ← addClientHost name
  changeHost host fun h => { h with dial := { name, timeout := limit } }
  let ticket ← Step.fresh
  -- What expires is the timer itself, so there is no timer left to stop.
  let timer ← Step.schedule limit.delay (expireDial host ticket ticket)
  changeActor actor fun a => { a with ear := .dial host ticket timer }
  note (.dial (SshClient.clientSettings config))
  match ← react actor (← get).plan.client.behaviour.atStart with
  | .ok () => pure ()
  | .error fault => post ticket (.result (.error fault))
  match ← await ticket with
  | some (.result (.ok ())) => return .ok host
  | some (.result (.error fault)) => return .error fault
  | _ => return .error (SshClient.overdue limit)

end Rehearsal

end Outpost

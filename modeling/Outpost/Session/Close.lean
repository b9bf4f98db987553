import Outpost.Session.Ask

/-!
# Closing a session

Closing is the only way to release what a session holds. It goes through the slots in a fixed order,
process, tunnel, machine, temporary directory, and empties each of them whatever happens. A bounded
wait that expires ends this round of closing: what was waited for is stopped by force, and the
timeout is passed on. Any other fault is only reported.

## Contents

* `Session.releaseStep`: one step with this treatment of faults.
* `Session.close`.
-/

namespace Outpost

namespace Session

/-- What a step of `close` releases. -/
inductive Step where
  | process
  | tunnelSession
  | tunnel
  | machineSession
  | machine
  | tempDirectory
deriving DecidableEq, Repr

/-- The name of a step in reports, and in the event `teardownTimeout`. -/
def Step.label : Step → String
  | .process => "process"
  | .tunnelSession => "tunnel session"
  | .tunnel => "tunnel"
  | .machineSession => "machine session"
  | .machine => "machine"
  | .tempDirectory => "temp dir"

/-- Stops the `target` by force after a timeout, with `kill`; a failure of that is only reported. -/
def forceKill (step : Step) (target : Option Machine.Stoppable) :
    Attempt Session interface Unit := do
  match target with
  | none => return
  | some target =>
    match ← ExceptT.lift (Ask.kill target).outcome with
    | .ok () => return
    | .error fault => report .warn ("Force-kill of " ++ step.label ++ " failed: " ++ fault.message)

/-- Carries out one step. If a wait expires, `target` is stopped by force, the timeout is recorded
and passed on; any other fault is reported and ignored. -/
def releaseStep (step : Step) (target : Option Machine.Stoppable)
    (work : Attempt Session interface Unit) : Attempt Session interface Unit := do
  match ← ExceptT.lift work.outcome with
  | .ok () => return
  | .error (.timedOut what timeout) =>
    let session ← get
    report .warn (step.label ++ " of " ++ session.id ++ " did not stop within " ++ timeout.text
      ++ "ms, killing")
    forceKill step target
    record session .teardownTimeout { reason := some step.label }
    throw (.timedOut what timeout)
  | .error fault =>
    report .warn ("Ignoring error while releasing " ++ step.label ++ " of " ++ (← get).id ++ ": "
      ++ fault.message)

/-- Asks the `target` to stop, with `terminate`, and waits for it, with `communicate`. -/
def stop (target : Machine.Stoppable) (timeout : Option Timeout) :
    Attempt Session interface Unit := do
  Ask.terminate target
  let _ ← Ask.communicate target timeout

/-- Stops the `process`, if one is held. -/
def releaseProcess (timeout : Option Timeout) : Attempt Session interface Unit := do
  match (← get).process with
  | none => return
  | some running =>
    (releaseStep .process (some (.process running)) (stop (.process running) timeout)).thenAlways
      (modify fun session => { session with process := none })

/-- Stops and closes the `tunnel`, if one is held. -/
def releaseTunnel (timeout : Option Timeout) : Attempt Session interface Unit := do
  match (← get).tunnel with
  | none => return
  | some forward =>
    Attempt.thenAlways
      (do
        releaseStep .tunnelSession (some (.tunnel forward)) (stop (.tunnel forward) timeout)
        releaseStep .tunnel none (Ask.closeTunnel forward))
      (modify fun session => { session with tunnel := none })

/-- Stops the connection to the `machine` and gives the machine up, if it is held. -/
def releaseMachine (timeout : Option Timeout) : Attempt Session interface Unit := do
  match (← get).machine with
  | none => return
  | some _ =>
    Attempt.thenAlways
      (do
        releaseStep .machineSession (some .transport) (stop .transport timeout)
        releaseStep .machine none Ask.closeMachine)
      (modify fun session => { session with machine := none })

/-- Removes the `tempDirectory`, if one is held. -/
def releaseDirectory : Attempt Session interface Unit := do
  match (← get).tempDirectory with
  | none => return
  | some directory =>
    (releaseStep .tempDirectory none (Ask.removeDirectory directory)).thenAlways
      (modify fun session => { session with tempDirectory := none })

/-- Marks a session as `closed`, once, and records that. -/
def finish : Attempt Session interface Unit := do
  let session ← get
  if session.state = .closed then return
  set { session with state := .closed }
  record session .closed
  report .debug ("Deployment " ++ session.id ++ " closed")

/-- Releases everything that a session holds, waiting at most `timeout` milliseconds for each thing
that has to stop. -/
def close (timeout : Option Timeout) : Attempt Session interface Unit := do
  releaseProcess timeout
  releaseTunnel timeout
  releaseMachine timeout
  releaseDirectory
  finish

end Session

end Outpost

import Outpost.Session.Close
import Outpost.Proofs.Run

/-!
# What one round of closing does

A session owes a list of duties, in a fixed order: one for each step of closing, with the thing that
the step releases. A round of closing carries them out from the front. A duty passes if nothing
went wrong or if what went wrong is no timeout; the round ends with the first duty whose wait
expires, and everything behind it stays owed.

`close_ends_at_first_expiry` says which runs a round of closing has, down to every request and every
line on the console, and so also that a round has a run for each way in which its steps can end.

## Contents

* `Duty`, `duties`: what closing has to release, in its order.
* `Duty.Asks`, `Duty.Kills`: what a step asks for, and what is asked for when its wait expired.
* `Duty.Passes`, `Duty.Expires`, `Teardown`: the rule for a step and for a list of them.
* `teardown_of_run_close`, `run_close_of_finished`, `run_close_of_expired`: closing follows it.
* `close_ends_at_first_expiry`: the same, with the step at which it stopped.
-/

namespace Outpost

/-- A fault that `isTimeout` is an expired wait. -/
theorem Fault.eq_timedOut {fault : Fault} (h : fault.isTimeout = true) :
    ∃ what timeout, fault = .timedOut what timeout := by
  cases fault with
  | timedOut what timeout => exact ⟨what, timeout, rfl⟩
  | _ => exact absurd h Bool.false_ne_true

namespace Session

/-- What a `Session` signs its reports and its events with. -/
structure Identity where
  id : String
  machineName : Option Json
  eventLog : Option String

/-- What this `Session` signs with. -/
def identity (session : Session) : Identity where
  id := session.id
  machineName := session.machineName
  eventLog := session.options.eventLog

/-! ## Exchanges -/

/-- An exchange of a `Session` with its surroundings. -/
abbrev Exchange : Type := Program.Exchange interface

namespace Exchange

/-- Something, the `target`, was asked to stop. -/
def terminate (target : Machine.Stoppable) (reply : Except Fault Unit) : Exchange :=
  ⟨.control (.terminate target), reply⟩

/-- Something, the `target`, was stopped by force. -/
def kill (target : Machine.Stoppable) (reply : Except Fault Unit) : Exchange :=
  ⟨.control (.kill target), reply⟩

/-- Something, the `target`, was waited for. -/
def communicate (target : Machine.Stoppable) (timeout : Option Timeout)
    (reply : Except Fault Output) : Exchange :=
  ⟨.control (.communicate target timeout), reply⟩

/-- A tunnel was closed. -/
def closeTunnel (forward : Machine.Forward) (reply : Except Fault Unit) : Exchange :=
  ⟨.machine (.closeTunnel forward), reply⟩

/-- The machine was given up. -/
def closeMachine (reply : Except Fault Unit) : Exchange := ⟨.machine .close, reply⟩

/-- A temporary `directory` was removed. -/
def removeDirectory (directory : Machine.Directory) (reply : Except Fault Unit) : Exchange :=
  ⟨.machine (.removeDirectory directory), reply⟩

/-- A line was put on the console. -/
def report (level : Console.Level) (text : String) : Exchange :=
  ⟨.report ⟨level, "DeploymentSession", text⟩, ()⟩

end Exchange

/-- The entry in the event log of an `Identity`, if it has one. -/
def Identity.recorded (identity : Identity) (kind : Event.Kind)
    (details : Event.Details := {}) : List Exchange :=
  match identity.eventLog with
  | none => []
  | some log => [⟨.record log identity.id identity.machineName kind details, ()⟩]

/-! ## Duties -/

/-- A step of closing with what it releases, out of a slot of the `Session`. -/
inductive Duty where
  | process (running : Machine.Running)
  | tunnelSession (forward : Machine.Forward)
  | tunnel (forward : Machine.Forward)
  | machineSession
  | machine
  | tempDirectory (directory : Machine.Directory)

namespace Duty

/-- The `Step` that a duty is. -/
def step : Duty → Step
  | .process _ => .process
  | .tunnelSession _ => .tunnelSession
  | .tunnel _ => .tunnel
  | .machineSession => .machineSession
  | .machine => .machine
  | .tempDirectory _ => .tempDirectory

/-- What has to stop, where a `Duty` is to stop something. -/
def target : Duty → Option Machine.Stoppable
  | .process running => some (.process running)
  | .tunnelSession forward => some (.tunnel forward)
  | .machineSession => some .transport
  | .tunnel _ | .machine | .tempDirectory _ => none

/-- What is done for a `Duty`. -/
def work (timeout : Option Timeout) : Duty → Attempt Session interface Unit
  | .process running => stop (.process running) timeout
  | .tunnelSession forward => stop (.tunnel forward) timeout
  | .tunnel forward => Ask.closeTunnel forward
  | .machineSession => stop .transport timeout
  | .machine => Ask.closeMachine
  | .tempDirectory directory => Ask.removeDirectory directory

/-- What a `Duty` asks for, and how that ends: something is asked to stop and then waited for,
unless asking failed already, or it is released with a single request. -/
inductive Asks (timeout : Option Timeout) : Duty → List Exchange → Except Fault Unit → Prop
  | refused {duty : Duty} {target : Machine.Stoppable} (fault : Fault) :
      duty.target = some target →
        Asks timeout duty [.terminate target (.error fault)] (.error fault)
  | waited {duty : Duty} {target : Machine.Stoppable} (reply : Except Fault Output) :
      duty.target = some target →
      Asks timeout duty [.terminate target (.ok ()), .communicate target timeout reply]
        (reply.map fun _ => ())
  | tunnel (forward : Machine.Forward) (reply : Except Fault Unit) :
      Asks timeout (.tunnel forward) [.closeTunnel forward reply] reply
  | machine (reply : Except Fault Unit) : Asks timeout .machine [.closeMachine reply] reply
  | tempDirectory (directory : Machine.Directory) (reply : Except Fault Unit) :
      Asks timeout (.tempDirectory directory) [.removeDirectory directory reply] reply

/-- What is asked for by force: one `kill` of what has to stop, if there is such a thing. If the
kill fails, that is only reported. -/
inductive Kills : Duty → List Exchange → Prop
  | nothing {duty : Duty} : duty.target = none → Kills duty []
  | killed {duty : Duty} {target : Machine.Stoppable} :
      duty.target = some target → Kills duty [.kill target (.ok ())]
  | failed {duty : Duty} {target : Machine.Stoppable} (fault : Fault) :
      duty.target = some target →
      Kills duty [.kill target (.error fault),
        .report .warn ("Force-kill of " ++ duty.step.label ++ " failed: " ++ fault.message)]

/-- A `Duty` is done with: it completed, or it failed with something that is no timeout, which is
reported and ignored. -/
inductive Passes (timeout : Option Timeout) (identity : Identity) (duty : Duty) :
    List Exchange → Prop
  | completed {calls : List Exchange} :
      duty.Asks timeout calls (.ok ()) → Passes timeout identity duty calls
  | ignored {calls : List Exchange} {fault : Fault} :
      duty.Asks timeout calls (.error fault) → fault.isTimeout = false →
      Passes timeout identity duty (calls ++ [.report .warn ("Ignoring error while releasing "
        ++ duty.step.label ++ " of " ++ identity.id ++ ": " ++ fault.message)])

/-- The wait for a `Duty` expired: what was waited for is stopped by force, and the expiry is
recorded under the name of the step. -/
inductive Expires (timeout : Option Timeout) (identity : Identity) (duty : Duty) :
    List Exchange → Fault → Prop
  | expired {calls kills : List Exchange} {what : String} {limit : Timeout} :
      duty.Asks timeout calls (.error (.timedOut what limit)) → duty.Kills kills →
      Expires timeout identity duty
        (calls ++ .report .warn (duty.step.label ++ " of " ++ identity.id
            ++ " did not stop within " ++ limit.text ++ "ms, killing")
          :: (kills ++ identity.recorded .teardownTimeout { reason := some duty.step.label }))
        (.timedOut what limit)

end Duty

/-- What `Expires` is a bounded wait. -/
theorem Duty.Expires.fault_eq {timeout : Option Timeout} {identity : Identity} {duty : Duty}
    {exchanges : List Exchange} {fault : Fault}
    (h : duty.Expires timeout identity exchanges fault) :
    ∃ what limit, fault = .timedOut what limit := by
  cases h with
  | expired => exact ⟨_, _, rfl⟩

/-- The rule for a list of duties: each `Passes` after another, up to the first that expires, if one
does. -/
inductive Teardown (timeout : Option Timeout) (identity : Identity) :
    List Duty → List Exchange → Option (Duty × Fault) → Prop
  | finished : Teardown timeout identity [] [] none
  | passed {duty : Duty} {rest : List Duty} {first second : List Exchange}
      {expiry : Option (Duty × Fault)} :
      duty.Passes timeout identity first → Teardown timeout identity rest second expiry →
      Teardown timeout identity (duty :: rest) (first ++ second) expiry
  | expired {duty : Duty} {rest : List Duty} {exchanges : List Exchange} {fault : Fault} :
      duty.Expires timeout identity exchanges fault →
      Teardown timeout identity (duty :: rest) exchanges (some (duty, fault))

/-! ### What a session owes -/

/-- The duties of a session that holds a `process`. -/
def processDuties (session : Session) : List Duty := session.process.toList.map .process

/-- The duties of a session that holds a `tunnel`: its session has to stop before it is closed. -/
def tunnelDuties (session : Session) : List Duty :=
  session.tunnel.toList.flatMap fun forward => [.tunnelSession forward, .tunnel forward]

/-- The duties of a session that holds its `machine`. -/
def machineDuties (session : Session) : List Duty :=
  session.machine.toList.flatMap fun _ => [.machineSession, .machine]

/-- The duties of a session that holds a `tempDirectory`. -/
def directoryDuties (session : Session) : List Duty :=
  session.tempDirectory.toList.map .tempDirectory

/-- Everything that a session owes, in the order of closing. -/
def duties (session : Session) : List Duty :=
  processDuties session ++ (tunnelDuties session ++ (machineDuties session
    ++ directoryDuties session))

/-- A session after a round of closing that got to a `Step`: what comes before it is given up, and
what the step belongs to as well. -/
def clearedThrough (session : Session) : Step → Session
  | .process => { session with process := none }
  | .tunnelSession | .tunnel => { session with process := none, tunnel := none }
  | .machineSession | .machine =>
    { session with process := none, tunnel := none, machine := none }
  | .tempDirectory =>
    { session with process := none, tunnel := none, machine := none, tempDirectory := none }

/-- A session after a round of closing that got to the end. -/
def ended (session : Session) : Session :=
  { session.clearedThrough .tempDirectory with state := .closed }

/-- What is said at the end of closing, the first time. -/
def farewell (session : Session) : List Exchange :=
  if session.state = .closed then []
  else session.identity.recorded .closed
    ++ [.report .debug ("Deployment " ++ session.id ++ " closed")]

variable {timeout : Option Timeout} {session last : Session} {exchanges : List Exchange}

/-! ## Runs of single steps -/

theorem run_record_iff {σ : Type} {s s' : σ} {signer : Session} {kind : Event.Kind}
    {details : Event.Details} {result : Except Fault Unit} :
    Attempt.Run (record signer kind details : Attempt σ interface Unit) s exchanges s' result ↔
      exchanges = signer.identity.recorded kind details ∧ s' = s ∧ result = .ok () := by
  cases hlog : signer.options.eventLog with
  | none =>
    simp only [record, Identity.recorded, identity, hlog]
    exact Attempt.run_pure_iff
  | some log =>
    simp only [record, Identity.recorded, identity, hlog]
    refine Attempt.run_lift_ask_iff.trans ?_
    constructor
    · rintro ⟨⟨⟩, h⟩
      exact h
    · intro h
      exact ⟨(), h⟩

theorem run_report_iff {level : Console.Level} {text : String} {result : Except Fault Unit} :
    Attempt.Run (report level text : Attempt Session interface Unit) session exchanges last result ↔
      exchanges = [.report level text] ∧ last = session ∧ result = .ok () := by
  refine Attempt.run_lift_ask_iff.trans ?_
  constructor
  · rintro ⟨⟨⟩, h⟩
    exact h
  · intro h
    exact ⟨(), h⟩

/-- To `stop` something is asking it to stop, and waiting for it if it could be asked. -/
theorem run_stop_iff {target : Machine.Stoppable} {result : Except Fault Unit} :
    Attempt.Run (stop target timeout) session exchanges last result ↔
      last = session ∧
        ((∃ fault, exchanges = [.terminate target (.error fault)] ∧ result = .error fault) ∨
          ∃ reply, exchanges = [.terminate target (.ok ()), .communicate target timeout reply] ∧
            result = reply.map fun _ => ()) := by
  rw [stop, Attempt.run_bind_iff]
  constructor
  · rintro (⟨fault, h, rfl⟩ | ⟨mid, ⟨⟩, first, second, h, hwait, rfl⟩)
    · obtain ⟨rfl, rfl⟩ := Program.run_request_iff.1 h
      exact ⟨rfl, .inl ⟨fault, rfl, rfl⟩⟩
    · obtain ⟨rfl, rfl⟩ := Program.run_request_iff.1 h
      rcases Attempt.run_bind_iff.1 hwait with
        ⟨fault, h, rfl⟩ | ⟨mid', output, third, fourth, h, hdone, rfl⟩
      · obtain ⟨rfl, rfl⟩ := Program.run_request_iff.1 h
        exact ⟨rfl, .inr ⟨.error fault, rfl, rfl⟩⟩
      · obtain ⟨rfl, rfl⟩ := Program.run_request_iff.1 h
        obtain ⟨rfl, rfl, rfl⟩ := Attempt.run_pure_iff.1 hdone
        exact ⟨rfl, .inr ⟨.ok output, rfl, rfl⟩⟩
  · rintro ⟨rfl, ⟨fault, rfl, rfl⟩ | ⟨fault | output, rfl, rfl⟩⟩
    · exact .inl ⟨fault, Program.run_request_iff.2 ⟨rfl, rfl⟩, rfl⟩
    · refine .inr ⟨last, (), [_], [_], Program.run_request_iff.2 ⟨rfl, rfl⟩, ?_, rfl⟩
      exact Attempt.run_bind_iff.2 (.inl ⟨fault, Program.run_request_iff.2 ⟨rfl, rfl⟩, rfl⟩)
    · refine .inr ⟨last, (), [_], [_], Program.run_request_iff.2 ⟨rfl, rfl⟩, ?_, rfl⟩
      exact Attempt.run_bind_iff.2 (.inr ⟨last, output, [_], [],
        Program.run_request_iff.2 ⟨rfl, rfl⟩, Attempt.run_pure_iff.2 ⟨rfl, rfl, rfl⟩, rfl⟩)

/-- What a duty `Asks` for where something has to stop. -/
theorem Duty.asks_target_iff {duty : Duty} {target : Machine.Stoppable}
    (htarget : duty.target = some target) {result : Except Fault Unit} :
    duty.Asks timeout exchanges result ↔
      (∃ fault, exchanges = [.terminate target (.error fault)] ∧ result = .error fault) ∨
        ∃ reply, exchanges = [.terminate target (.ok ()), .communicate target timeout reply] ∧
          result = reply.map fun _ => () := by
  constructor
  · intro h
    cases h with
    | refused fault h =>
      obtain rfl := Option.some.inj (h.symm.trans htarget)
      exact .inl ⟨fault, rfl, rfl⟩
    | waited reply h =>
      obtain rfl := Option.some.inj (h.symm.trans htarget)
      exact .inr ⟨reply, rfl, rfl⟩
    | tunnel | machine | tempDirectory => exact absurd htarget nofun
  · rintro (⟨fault, rfl, rfl⟩ | ⟨reply, rfl, rfl⟩)
    · exact .refused fault htarget
    · exact .waited reply htarget

/-- The `work` for a duty asks for what the duty `Asks` for, and leaves the session alone. -/
theorem Duty.run_work_iff {duty : Duty} {result : Except Fault Unit} :
    Attempt.Run (duty.work timeout) session exchanges last result ↔
      last = session ∧ duty.Asks timeout exchanges result := by
  cases duty with
  | process | tunnelSession | machineSession =>
    exact run_stop_iff.trans (and_congr_right fun _ => (Duty.asks_target_iff rfl).symm)
  | tunnel forward =>
    refine Program.run_request_iff.trans ⟨?_, ?_⟩
    · rintro ⟨rfl, rfl⟩
      exact ⟨rfl, .tunnel forward result⟩
    · rintro ⟨rfl, h⟩
      cases h with
      | refused _ h | waited _ h => exact absurd h nofun
      | tunnel => exact ⟨rfl, rfl⟩
  | machine =>
    refine Program.run_request_iff.trans ⟨?_, ?_⟩
    · rintro ⟨rfl, rfl⟩
      exact ⟨rfl, .machine result⟩
    · rintro ⟨rfl, h⟩
      cases h with
      | refused _ h | waited _ h => exact absurd h nofun
      | machine => exact ⟨rfl, rfl⟩
  | tempDirectory directory =>
    refine Program.run_request_iff.trans ⟨?_, ?_⟩
    · rintro ⟨rfl, rfl⟩
      exact ⟨rfl, .tempDirectory directory result⟩
    · rintro ⟨rfl, h⟩
      cases h with
      | refused _ h | waited _ h => exact absurd h nofun
      | tempDirectory => exact ⟨rfl, rfl⟩

/-- A `forceKill` never fails, whatever becomes of the kill. -/
theorem Duty.run_forceKill_iff {duty : Duty} {result : Except Fault Unit} :
    Attempt.Run (forceKill duty.step duty.target) session exchanges last result ↔
      duty.Kills exchanges ∧ last = session ∧ result = .ok () := by
  cases htarget : duty.target with
  | none =>
    refine Attempt.run_pure_iff.trans ⟨?_, ?_⟩
    · rintro ⟨rfl, rfl, rfl⟩
      exact ⟨.nothing htarget, rfl, rfl⟩
    · rintro ⟨h, rfl, rfl⟩
      cases h with
      | nothing => exact ⟨rfl, rfl, rfl⟩
      | killed h | failed _ h => exact absurd (htarget.symm.trans h) nofun
  | some target =>
    rw [forceKill, Attempt.run_outcome_bind_iff]
    constructor
    · rintro ⟨mid, fault | ⟨⟨⟩⟩, first, second, h, hrest, rfl⟩
      · obtain ⟨rfl, rfl⟩ := Program.run_request_iff.1 h
        obtain ⟨rfl, rfl, rfl⟩ := run_report_iff.1 hrest
        exact ⟨.failed fault htarget, rfl, rfl⟩
      · obtain ⟨rfl, rfl⟩ := Program.run_request_iff.1 h
        obtain ⟨rfl, rfl, rfl⟩ := Attempt.run_pure_iff.1 hrest
        exact ⟨.killed htarget, rfl, rfl⟩
    · rintro ⟨h, rfl, rfl⟩
      cases h with
      | nothing h => exact absurd (htarget.symm.trans h) nofun
      | killed h =>
        obtain rfl := Option.some.inj (htarget.symm.trans h)
        exact ⟨last, .ok (), [_], [], Program.run_request_iff.2 ⟨rfl, rfl⟩,
          Attempt.run_pure_iff.2 ⟨rfl, rfl, rfl⟩, rfl⟩
      | failed fault h =>
        obtain rfl := Option.some.inj (htarget.symm.trans h)
        exact ⟨last, .error fault, [_], [_], Program.run_request_iff.2 ⟨rfl, rfl⟩,
          run_report_iff.2 ⟨rfl, rfl, rfl⟩, rfl⟩

/-- What a step of closing does once its work has ended. -/
def settle (step : Step) (target : Option Machine.Stoppable) :
    Except Fault Unit → Attempt Session interface Unit
  | .ok () => pure ()
  | .error (.timedOut what timeout) => do
    let session ← get
    report .warn (step.label ++ " of " ++ session.id ++ " did not stop within " ++ timeout.text
      ++ "ms, killing")
    forceKill step target
    record session .teardownTimeout { reason := some step.label }
    throw (.timedOut what timeout)
  | .error fault => do
    let session ← get
    report .warn ("Ignoring error while releasing " ++ step.label ++ " of " ++ session.id ++ ": "
      ++ fault.message)

theorem releaseStep_eq (step : Step) (target : Option Machine.Stoppable)
    (work : Attempt Session interface Unit) :
    releaseStep step target work = ExceptT.lift work.outcome >>= settle step target := rfl

/-- A fault that is no timeout is only reported by `settle`. -/
theorem run_settle_of_not_timeout {step : Step} {target : Option Machine.Stoppable} {fault : Fault}
    (hfault : fault.isTimeout = false) {result : Except Fault Unit} :
    Attempt.Run (settle step target (.error fault)) session exchanges last result ↔
      exchanges = [.report .warn ("Ignoring error while releasing " ++ step.label ++ " of "
          ++ session.id ++ ": " ++ fault.message)] ∧
        last = session ∧ result = .ok () := by
  have hsettle : settle step target (.error fault) = (do
      let session ← get
      report .warn ("Ignoring error while releasing " ++ step.label ++ " of " ++ session.id ++ ": "
        ++ fault.message)) := by
    cases fault with
    | timedOut => exact Bool.noConfusion hfault
    | _ => rfl
  rw [hsettle, Attempt.run_get_bind_iff, run_report_iff]

/-- After a timeout that is reported, what did not stop is killed by `settle`, the timeout is
recorded, and it is passed on. -/
theorem Duty.run_settle_timedOut {duty : Duty} {what : String} {limit : Timeout}
    {result : Except Fault Unit} :
    Attempt.Run (settle duty.step duty.target (.error (.timedOut what limit))) session exchanges
        last result ↔
      ∃ kills, duty.Kills kills ∧
        exchanges = .report .warn (duty.step.label ++ " of " ++ session.id
            ++ " did not stop within " ++ limit.text ++ "ms, killing")
          :: (kills ++ session.identity.recorded .teardownTimeout
            { reason := some duty.step.label }) ∧
        last = session ∧ result = .error (.timedOut what limit) := by
  refine Attempt.run_get_bind_iff.trans ?_
  rw [Attempt.run_bind_iff_of_ok run_report_iff]
  constructor
  · rintro ⟨_, after₁, rfl, h₁, rfl⟩
    obtain ⟨kills, after₂, hkills, h₂, rfl⟩ :=
      (Attempt.run_bind_iff_of_ok Duty.run_forceKill_iff).1 h₁
    obtain ⟨_, after₃, rfl, h₃, rfl⟩ := (Attempt.run_bind_iff_of_ok run_record_iff).1 h₂
    obtain ⟨rfl, rfl, rfl⟩ := Attempt.run_throw_iff.1 h₃
    rw [List.append_nil]
    exact ⟨kills, hkills, rfl, rfl, rfl⟩
  · rintro ⟨kills, hkills, rfl, rfl, rfl⟩
    refine ⟨[_], _, rfl, (Attempt.run_bind_iff_of_ok Duty.run_forceKill_iff).2 ?_, rfl⟩
    refine ⟨kills, _, hkills, (Attempt.run_bind_iff_of_ok run_record_iff).2 ?_, rfl⟩
    exact ⟨_, [], rfl, Attempt.run_throw_iff.2 ⟨rfl, rfl, rfl⟩, (List.append_nil _).symm⟩

/-- A `releaseStep` leaves the session alone. It completes if its duty `Passes`, and fails with the
expiry if its duty `Expires`. -/
theorem Duty.run_release_iff {duty : Duty} {result : Except Fault Unit} :
    Attempt.Run (releaseStep duty.step duty.target (duty.work timeout)) session exchanges last
        result ↔
      last = session ∧
        ((duty.Passes timeout session.identity exchanges ∧ result = .ok ()) ∨
          ∃ fault, duty.Expires timeout session.identity exchanges fault ∧
            result = .error fault) := by
  rw [releaseStep_eq, Attempt.run_outcome_bind_iff]
  constructor
  · rintro ⟨mid, ending, calls, rest, hwork, hrest, rfl⟩
    obtain ⟨rfl, hasks⟩ := Duty.run_work_iff.1 hwork
    rcases ending with fault | ⟨⟨⟩⟩
    · cases hfault : fault.isTimeout with
      | true =>
        obtain ⟨what, limit, rfl⟩ := Fault.eq_timedOut hfault
        obtain ⟨kills, hkills, rfl, rfl, rfl⟩ := Duty.run_settle_timedOut.1 hrest
        exact ⟨rfl, .inr ⟨_, .expired hasks hkills, rfl⟩⟩
      | false =>
        obtain ⟨rfl, rfl, rfl⟩ := (run_settle_of_not_timeout hfault).1 hrest
        exact ⟨rfl, .inl ⟨.ignored hasks hfault, rfl⟩⟩
    · obtain ⟨rfl, rfl, rfl⟩ := Attempt.run_pure_iff.1 hrest
      rw [List.append_nil]
      exact ⟨rfl, .inl ⟨.completed hasks, rfl⟩⟩
  · rintro ⟨rfl, ⟨hpasses, rfl⟩ | ⟨fault, hexpires, rfl⟩⟩
    · cases hpasses with
      | completed hasks =>
        exact ⟨last, .ok (), exchanges, [], Duty.run_work_iff.2 ⟨rfl, hasks⟩,
          Attempt.run_pure_iff.2 ⟨rfl, rfl, rfl⟩, (List.append_nil _).symm⟩
      | @ignored calls fault hasks hfault =>
        exact ⟨last, .error fault, calls, _, Duty.run_work_iff.2 ⟨rfl, hasks⟩,
          (run_settle_of_not_timeout hfault).2 ⟨rfl, rfl, rfl⟩, rfl⟩
    · cases hexpires with
      | @expired calls kills what limit hasks hkills =>
        exact ⟨last, .error (.timedOut what limit), calls, _, Duty.run_work_iff.2 ⟨rfl, hasks⟩,
          Duty.run_settle_timedOut.2 ⟨kills, hkills, rfl, rfl, rfl⟩, rfl⟩

/-! ## Runs of the four parts -/

/-- How a list of duties ends that got to an expiry, or to its end. -/
def verdict : Option (Duty × Fault) → Except Fault Unit
  | none => .ok ()
  | some (_, fault) => .error fault

/-- A `releaseStep` carries out the list of its duty alone. -/
theorem Duty.run_release_iff_teardown (duty : Duty) {result : Except Fault Unit} :
    Attempt.Run (releaseStep duty.step duty.target (duty.work timeout)) session exchanges last
        result ↔
      last = session ∧ ∃ expiry, Teardown timeout session.identity [duty] exchanges expiry ∧
        result = verdict expiry := by
  refine Duty.run_release_iff.trans (and_congr_right fun _ => ?_)
  constructor
  · rintro (⟨hpasses, rfl⟩ | ⟨fault, hexpires, rfl⟩)
    · exact ⟨none, by simpa using Teardown.passed hpasses .finished, rfl⟩
    · exact ⟨some (duty, fault), .expired hexpires, rfl⟩
  · rintro ⟨expiry, h, rfl⟩
    cases h with
    | passed hpasses hrest =>
      cases hrest
      rw [List.append_nil]
      exact .inl ⟨hpasses, rfl⟩
    | expired hexpires => exact .inr ⟨_, hexpires, rfl⟩

/-- A longer list of duties ends in its first part, or passes it and goes on with the second. -/
theorem Teardown.append_iff {identity : Identity} {front rest : List Duty}
    {expiry : Option (Duty × Fault)} :
    Teardown timeout identity (front ++ rest) exchanges expiry ↔
      (∃ found, Teardown timeout identity front exchanges (some found) ∧ expiry = some found) ∨
        ∃ first second, Teardown timeout identity front first none ∧
          Teardown timeout identity rest second expiry ∧ exchanges = first ++ second := by
  -- the first duty of `front` decides: it expires, or the rest of `front` goes on behind it
  induction front generalizing exchanges with
  | nil =>
    constructor
    · exact fun h => .inr ⟨[], exchanges, .finished, h, rfl⟩
    · rintro (⟨found, h, -⟩ | ⟨first, second, h, hrest, rfl⟩)
      · cases h
      · cases h
        exact hrest
  | cons duty front ih =>
    constructor
    · intro h
      cases h with
      | @passed _ _ first second _ hpasses htail =>
        rcases ih.1 htail with ⟨found, h, rfl⟩ | ⟨third, fourth, h, hrest, rfl⟩
        · exact .inl ⟨found, .passed hpasses h, rfl⟩
        · exact .inr ⟨first ++ third, fourth, .passed hpasses h, hrest,
            (List.append_assoc first third fourth).symm⟩
      | expired hexpires => exact .inl ⟨_, .expired hexpires, rfl⟩
    · rintro (⟨found, h, rfl⟩ | ⟨first, second, h, hrest, rfl⟩)
      · cases h with
        | passed hpasses h => exact .passed hpasses (ih.2 (.inl ⟨found, h, rfl⟩))
        | expired hexpires => exact .expired hexpires
      · cases h with
        | @passed _ _ third fourth _ hpasses h =>
          rw [List.append_assoc]
          exact .passed hpasses (ih.2 (.inr ⟨fourth, second, h, hrest, rfl⟩))

/-- An expiry of a `Teardown` is that of one of the duties. -/
theorem Teardown.mem_of_expiry {identity : Identity} {owed : List Duty} {duty : Duty}
    {fault : Fault} (h : Teardown timeout identity owed exchanges (some (duty, fault))) :
    duty ∈ owed := by
  generalize hexpiry : some (duty, fault) = expiry at h
  induction h with
  | finished => exact absurd hexpiry nofun
  | passed _ _ ih => exact List.mem_cons_of_mem _ (ih hexpiry)
  | expired _ =>
    obtain ⟨rfl, -⟩ := Prod.mk.inj (Option.some.inj hexpiry)
    exact List.mem_cons_self

/-- A `part` of closing carries out the duties that the session owes for it, and empties its slot
whatever happens. -/
def Sweeps (timeout : Option Timeout) (part : Attempt Session interface Unit)
    (owed : Session → List Duty) (clear : Session → Session) : Prop :=
  ∀ {session last : Session} {exchanges : List Exchange} {result : Except Fault Unit},
    Attempt.Run part session exchanges last result ↔
      last = clear session ∧
        ∃ expiry, Teardown timeout session.identity (owed session) exchanges expiry ∧
          result = verdict expiry

/-- Going on after a part of closing that `Sweeps`, unless one of its duties expired. -/
theorem Sweeps.run_bind_iff {part : Attempt Session interface Unit} {owed : Session → List Duty}
    {clear : Session → Session} (hpart : Sweeps timeout part owed clear)
    {rest : Unit → Attempt Session interface Unit} {result : Except Fault Unit} :
    Attempt.Run (part >>= rest) session exchanges last result ↔
      (∃ duty fault, Teardown timeout session.identity (owed session) exchanges
          (some (duty, fault)) ∧ last = clear session ∧ result = .error fault) ∨
        ∃ first second, Teardown timeout session.identity (owed session) first none ∧
          Attempt.Run (rest ()) (clear session) second last result ∧
          exchanges = first ++ second := by
  rw [Attempt.run_bind_iff]
  constructor
  · rintro (⟨fault, h, rfl⟩ | ⟨mid, ⟨⟩, first, second, h, hrest, rfl⟩)
    · obtain ⟨rfl, expiry | ⟨duty, fault'⟩, h, hverdict⟩ := hpart.1 h
      · exact absurd hverdict nofun
      · obtain rfl := Except.error.inj hverdict
        exact .inl ⟨duty, fault, h, rfl, rfl⟩
    · obtain ⟨rfl, _ | ⟨duty, fault⟩, h, hverdict⟩ := hpart.1 h
      · exact .inr ⟨first, second, h, hrest, rfl⟩
      · exact absurd hverdict nofun
  · rintro (⟨duty, fault, h, rfl, rfl⟩ | ⟨first, second, h, hrest, rfl⟩)
    · exact .inl ⟨fault, hpart.2 ⟨rfl, some (duty, fault), h, rfl⟩, rfl⟩
    · exact .inr ⟨clear session, (), first, second, hpart.2 ⟨rfl, none, h, rfl⟩, hrest, rfl⟩

/-- A part of closing that has nothing to release. -/
theorem run_pure_iff_teardown {result : Except Fault Unit} :
    Attempt.Run (pure () : Attempt Session interface Unit) session exchanges last result ↔
      last = session ∧ ∃ expiry, Teardown timeout session.identity [] exchanges expiry ∧
        result = verdict expiry := by
  rw [Attempt.run_pure_iff]
  constructor
  · rintro ⟨rfl, rfl, rfl⟩
    exact ⟨rfl, none, .finished, rfl⟩
  · rintro ⟨rfl, expiry, h, rfl⟩
    cases h
    exact ⟨rfl, rfl, rfl⟩

/-- Two steps of closing one after the other, each a `releaseStep`. -/
theorem Duty.run_release_pair_iff (duty duty' : Duty) {result : Except Fault Unit} :
    Attempt.Run (do
        releaseStep duty.step duty.target (duty.work timeout)
        releaseStep duty'.step duty'.target (duty'.work timeout)) session exchanges last result ↔
      last = session ∧ ∃ expiry, Teardown timeout session.identity [duty, duty'] exchanges expiry ∧
        result = verdict expiry := by
  have hfirst : Sweeps timeout (releaseStep duty.step duty.target (duty.work timeout))
      (fun _ => [duty]) (fun session => session) := Duty.run_release_iff_teardown duty
  have hpair (expiry : Option (Duty × Fault)) :
      Teardown timeout session.identity ([duty] ++ [duty']) exchanges expiry ↔ _ :=
    Teardown.append_iff
  rw [hfirst.run_bind_iff]
  constructor
  · rintro (⟨found, fault, h, rfl, rfl⟩ | ⟨first, second, h, hrest, rfl⟩)
    · exact ⟨rfl, some (found, fault), (hpair _).2 (.inl ⟨_, h, rfl⟩), rfl⟩
    · obtain ⟨rfl, expiry, hsecond, rfl⟩ := (Duty.run_release_iff_teardown duty').1 hrest
      exact ⟨rfl, expiry, (hpair _).2 (.inr ⟨first, second, h, hsecond, rfl⟩), rfl⟩
  · rintro ⟨rfl, expiry, h, rfl⟩
    rcases (hpair _).1 h with ⟨⟨found, fault⟩, hfound, rfl⟩ | ⟨first, second, hpassed, hsecond, rfl⟩
    · exact .inl ⟨found, fault, hfound, rfl, rfl⟩
    · exact .inr ⟨first, second, hpassed,
        (Duty.run_release_iff_teardown duty').2 ⟨rfl, expiry, hsecond, rfl⟩, rfl⟩

theorem sweeps_releaseProcess : Sweeps timeout (releaseProcess timeout) processDuties
    fun session => { session with process := none } := by
  intro session last exchanges result
  refine Attempt.run_get_bind_iff.trans ?_
  obtain ⟨_, _, _, _, _, _, process, _, _, _, _⟩ := session
  cases process with
  | none => exact run_pure_iff_teardown
  | some running =>
    exact Attempt.run_thenAlways_modify_iff_of_steady
      (Duty.run_release_iff_teardown (.process running))

theorem sweeps_releaseTunnel : Sweeps timeout (releaseTunnel timeout) tunnelDuties
    fun session => { session with tunnel := none } := by
  intro session last exchanges result
  refine Attempt.run_get_bind_iff.trans ?_
  obtain ⟨_, _, _, _, _, _, _, tunnel, _, _, _⟩ := session
  cases tunnel with
  | none => exact run_pure_iff_teardown
  | some forward =>
    exact Attempt.run_thenAlways_modify_iff_of_steady
      (Duty.run_release_pair_iff (.tunnelSession forward) (.tunnel forward))

theorem sweeps_releaseMachine : Sweeps timeout (releaseMachine timeout) machineDuties
    fun session => { session with machine := none } := by
  intro session last exchanges result
  refine Attempt.run_get_bind_iff.trans ?_
  obtain ⟨_, _, _, _, machine, _, _, _, _, _, _⟩ := session
  cases machine with
  | none => exact run_pure_iff_teardown
  | some machine =>
    exact Attempt.run_thenAlways_modify_iff_of_steady
      (Duty.run_release_pair_iff .machineSession .machine)

theorem sweeps_releaseDirectory : Sweeps timeout releaseDirectory directoryDuties
    fun session => { session with tempDirectory := none } := by
  intro session last exchanges result
  refine Attempt.run_get_bind_iff.trans ?_
  obtain ⟨_, _, _, _, _, tempDirectory, _, _, _, _, _⟩ := session
  cases tempDirectory with
  | none => exact run_pure_iff_teardown
  | some directory =>
    exact Attempt.run_thenAlways_modify_iff_of_steady
      (Duty.run_release_iff_teardown (.tempDirectory directory))

theorem run_finish_iff {result : Except Fault Unit} :
    Attempt.Run finish session exchanges last result ↔
      exchanges = session.farewell ∧ last = { session with state := .closed } ∧
        result = .ok () := by
  refine Attempt.run_get_bind_iff.trans ?_
  by_cases hstate : session.state = .closed
  · rw [if_pos hstate, Attempt.run_pure_iff, farewell, if_pos hstate]
    have hsame : { session with state := .closed } = session := by rw [← hstate]
    rw [hsame]
  · rw [if_neg hstate, Attempt.run_set_bind_iff, farewell, if_neg hstate]
    rw [Attempt.run_bind_iff_of_ok run_record_iff]
    constructor
    · rintro ⟨_, second, rfl, h, rfl⟩
      obtain ⟨rfl, rfl, rfl⟩ := run_report_iff.1 h
      exact ⟨rfl, rfl, rfl⟩
    · rintro ⟨rfl, rfl, rfl⟩
      exact ⟨_, [_], rfl, run_report_iff.2 ⟨rfl, rfl, rfl⟩, rfl⟩

/-! ## Runs of closing -/

theorem clearedThrough_of_mem_processDuties (session : Session) {duty : Duty}
    (h : duty ∈ processDuties session) :
    session.clearedThrough duty.step = { session with process := none } := by
  obtain ⟨running, -, rfl⟩ := List.mem_map.1 h
  rfl

theorem clearedThrough_of_mem_tunnelDuties (session : Session) {duty : Duty}
    (h : duty ∈ tunnelDuties session) :
    session.clearedThrough duty.step = { session with process := none, tunnel := none } := by
  obtain ⟨forward, -, h⟩ := List.mem_flatMap.1 h
  simp only [List.mem_cons, List.not_mem_nil, or_false] at h
  rcases h with rfl | rfl <;> rfl

theorem clearedThrough_of_mem_machineDuties (session : Session) {duty : Duty}
    (h : duty ∈ machineDuties session) :
    session.clearedThrough duty.step
      = { session with process := none, tunnel := none, machine := none } := by
  obtain ⟨machine, -, h⟩ := List.mem_flatMap.1 h
  simp only [List.mem_cons, List.not_mem_nil, or_false] at h
  rcases h with rfl | rfl <;> rfl

theorem clearedThrough_of_mem_directoryDuties (session : Session) {duty : Duty}
    (h : duty ∈ directoryDuties session) :
    session.clearedThrough duty.step
      = { session with
        process := none, tunnel := none, machine := none, tempDirectory := none } := by
  obtain ⟨directory, -, rfl⟩ := List.mem_map.1 h
  rfl

/-- A round of closing carries out the session's `duties` by the rule of `Teardown`. If none of them
expires, the session ends; if one does, the round fails with the expiry, and the session is cleared
up to there. -/
theorem teardown_of_run_close {result : Except Fault Unit}
    (h : Attempt.Run (close timeout) session exchanges last result) :
    (∃ swept, Teardown timeout session.identity (duties session) swept none ∧
      exchanges = swept ++ session.farewell ∧ last = session.ended ∧ result = .ok ()) ∨
    ∃ duty fault, Teardown timeout session.identity (duties session) exchanges
        (some (duty, fault)) ∧
      last = session.clearedThrough duty.step ∧ result = .error fault := by
  rw [close] at h
  -- part by part: either a duty of this part expires, or the rest of closing starts behind it
  rcases sweeps_releaseProcess.run_bind_iff.1 h with
    ⟨duty, fault, h₁, rfl, rfl⟩ | ⟨first, _, h₁, hrun₁, rfl⟩
  · refine .inr ⟨duty, fault, Teardown.append_iff.2 (.inl ⟨_, h₁, rfl⟩), ?_, rfl⟩
    exact (clearedThrough_of_mem_processDuties session h₁.mem_of_expiry).symm
  have hrest₁ {rest : List Exchange} {expiry : Option (Duty × Fault)} (h : Teardown timeout
      session.identity (tunnelDuties session ++ (machineDuties session ++ directoryDuties session))
      rest expiry) :
      Teardown timeout session.identity (duties session) (first ++ rest) expiry :=
    Teardown.append_iff.2 (.inr ⟨first, rest, h₁, h, rfl⟩)
  rcases sweeps_releaseTunnel.run_bind_iff.1 hrun₁ with
    ⟨duty, fault, h₂, rfl, rfl⟩ | ⟨second, _, h₂, hrun₂, rfl⟩
  · refine .inr ⟨duty, fault, hrest₁ (Teardown.append_iff.2 (.inl ⟨_, h₂, rfl⟩)), ?_, rfl⟩
    exact (clearedThrough_of_mem_tunnelDuties session h₂.mem_of_expiry).symm
  have hrest₂ {rest : List Exchange} {expiry : Option (Duty × Fault)} (h : Teardown timeout
      session.identity (machineDuties session ++ directoryDuties session) rest expiry) :
      Teardown timeout session.identity (duties session) (first ++ (second ++ rest)) expiry :=
    hrest₁ (Teardown.append_iff.2 (.inr ⟨second, rest, h₂, h, rfl⟩))
  rcases sweeps_releaseMachine.run_bind_iff.1 hrun₂ with
    ⟨duty, fault, h₃, rfl, rfl⟩ | ⟨third, _, h₃, hrun₃, rfl⟩
  · refine .inr ⟨duty, fault, hrest₂ (Teardown.append_iff.2 (.inl ⟨_, h₃, rfl⟩)), ?_, rfl⟩
    exact (clearedThrough_of_mem_machineDuties session h₃.mem_of_expiry).symm
  have hrest₃ {rest : List Exchange} {expiry : Option (Duty × Fault)} (h : Teardown timeout
      session.identity (directoryDuties session) rest expiry) :
      Teardown timeout session.identity (duties session) (first ++ (second ++ (third ++ rest)))
        expiry :=
    hrest₂ (Teardown.append_iff.2 (.inr ⟨third, rest, h₃, h, rfl⟩))
  rcases (@sweeps_releaseDirectory timeout).run_bind_iff.1 hrun₃ with
    ⟨duty, fault, h₄, rfl, rfl⟩ | ⟨fourth, _, h₄, hrun₄, rfl⟩
  · refine .inr ⟨duty, fault, hrest₃ h₄, ?_, rfl⟩
    exact (clearedThrough_of_mem_directoryDuties session h₄.mem_of_expiry).symm
  · obtain ⟨rfl, rfl, rfl⟩ := run_finish_iff.1 hrun₄
    refine .inl ⟨_, hrest₃ h₄, ?_, rfl, rfl⟩
    simp only [List.append_assoc]
    rfl

/-- A `close` in which no duty expires. -/
theorem run_close_of_finished {swept : List Exchange}
    (h : Teardown timeout session.identity (duties session) swept none) :
    Attempt.Run (close timeout) session (swept ++ session.farewell) session.ended (.ok ()) := by
  rcases Teardown.append_iff.1 h with ⟨_, -, hnone⟩ | ⟨first, _, h₁, htail₁, rfl⟩
  · exact absurd hnone nofun
  rcases Teardown.append_iff.1 htail₁ with ⟨_, -, hnone⟩ | ⟨second, _, h₂, htail₂, rfl⟩
  · exact absurd hnone nofun
  rcases Teardown.append_iff.1 htail₂ with ⟨_, -, hnone⟩ | ⟨third, fourth, h₃, h₄, rfl⟩
  · exact absurd hnone nofun
  simp only [List.append_assoc]
  refine sweeps_releaseProcess.run_bind_iff.2 ?_
  refine .inr ⟨first, _, h₁, sweeps_releaseTunnel.run_bind_iff.2 ?_, rfl⟩
  refine .inr ⟨second, _, h₂, sweeps_releaseMachine.run_bind_iff.2 ?_, rfl⟩
  refine .inr ⟨third, _, h₃, (@sweeps_releaseDirectory timeout).run_bind_iff.2 ?_, rfl⟩
  exact .inr ⟨fourth, _, h₄, run_finish_iff.2 ⟨rfl, rfl, rfl⟩, rfl⟩

/-- A `close` in which a duty expires. -/
theorem run_close_of_expired {duty : Duty} {fault : Fault}
    (h : Teardown timeout session.identity (duties session) exchanges (some (duty, fault))) :
    Attempt.Run (close timeout) session exchanges (session.clearedThrough duty.step)
      (.error fault) := by
  refine sweeps_releaseProcess.run_bind_iff.2 ?_
  rcases Teardown.append_iff.1 h with ⟨_, h₁, hfound⟩ | ⟨first, _, h₁, htail₁, rfl⟩
  · obtain rfl := Option.some.inj hfound
    have hcleared := clearedThrough_of_mem_processDuties session h₁.mem_of_expiry
    exact .inl ⟨duty, fault, h₁, hcleared, rfl⟩
  refine .inr ⟨first, _, h₁, sweeps_releaseTunnel.run_bind_iff.2 ?_, rfl⟩
  rcases Teardown.append_iff.1 htail₁ with ⟨_, h₂, hfound⟩ | ⟨second, _, h₂, htail₂, rfl⟩
  · obtain rfl := Option.some.inj hfound
    have hcleared := clearedThrough_of_mem_tunnelDuties session h₂.mem_of_expiry
    exact .inl ⟨duty, fault, h₂, hcleared, rfl⟩
  refine .inr ⟨second, _, h₂, sweeps_releaseMachine.run_bind_iff.2 ?_, rfl⟩
  rcases Teardown.append_iff.1 htail₂ with ⟨_, h₃, hfound⟩ | ⟨third, _, h₃, h₄, rfl⟩
  · obtain rfl := Option.some.inj hfound
    have hcleared := clearedThrough_of_mem_machineDuties session h₃.mem_of_expiry
    exact .inl ⟨duty, fault, h₃, hcleared, rfl⟩
  have hcleared := clearedThrough_of_mem_directoryDuties session h₄.mem_of_expiry
  refine .inr ⟨third, _, h₃, (@sweeps_releaseDirectory timeout).run_bind_iff.2 ?_, rfl⟩
  exact .inl ⟨duty, fault, h₄, hcleared, rfl⟩

/-! ### The step at which a round stops -/

/-- A list of duties that gets to its end is one that each `Passes`. -/
theorem Teardown.none_iff {identity : Identity} {owed : List Duty} :
    Teardown timeout identity owed exchanges none ↔
      ∃ rounds : List (Duty × List Exchange), rounds.map Prod.fst = owed ∧
        (∀ round ∈ rounds, round.1.Passes timeout identity round.2) ∧
        exchanges = rounds.flatMap Prod.snd := by
  constructor
  · intro h
    generalize hexpiry : (none : Option (Duty × Fault)) = expiry at h
    induction h with
    | finished => exact ⟨[], rfl, by simp, rfl⟩
    | @passed duty rest first second _ hpasses _ ih =>
      obtain ⟨rounds, rfl, hrounds, rfl⟩ := ih hexpiry
      exact ⟨(duty, first) :: rounds, rfl, List.forall_mem_cons.2 ⟨hpasses, hrounds⟩, rfl⟩
    | expired _ => exact absurd hexpiry nofun
  · rintro ⟨rounds, rfl, hrounds, rfl⟩
    induction rounds with
    | nil => exact .finished
    | cons round rounds ih =>
      obtain ⟨hpasses, hrounds⟩ := List.forall_mem_cons.1 hrounds
      exact .passed hpasses (ih hrounds)

/-- A list of duties that ends with an expiry is one that each `Passes` before the one that
`Expires`. -/
theorem Teardown.some_iff {identity : Identity} {owed : List Duty} {duty : Duty} {fault : Fault} :
    Teardown timeout identity owed exchanges (some (duty, fault)) ↔
      ∃ (rounds : List (Duty × List Exchange)) (later : List Duty) (expiry : List Exchange),
        owed = rounds.map Prod.fst ++ duty :: later ∧
        (∀ round ∈ rounds, round.1.Passes timeout identity round.2) ∧
        duty.Expires timeout identity expiry fault ∧
        exchanges = rounds.flatMap Prod.snd ++ expiry := by
  constructor
  · intro h
    generalize hfound : some (duty, fault) = found at h
    induction h with
    | finished => exact absurd hfound nofun
    | @passed duty' rest first second _ hpasses _ ih =>
      obtain ⟨rounds, later, expiry, rfl, hrounds, hexpires, rfl⟩ := ih hfound
      refine ⟨(duty', first) :: rounds, later, expiry, rfl, ?_, hexpires, ?_⟩
      · exact List.forall_mem_cons.2 ⟨hpasses, hrounds⟩
      · exact (List.append_assoc _ _ _).symm
    | @expired duty' rest exchanges fault' hexpires =>
      obtain ⟨rfl, rfl⟩ := Prod.mk.inj (Option.some.inj hfound)
      exact ⟨[], rest, exchanges, rfl, by simp, hexpires, rfl⟩
  · rintro ⟨rounds, later, expiry, rfl, hrounds, hexpires, rfl⟩
    induction rounds with
    | nil => exact .expired hexpires
    | cons round rounds ih =>
      obtain ⟨hpasses, hrounds⟩ := List.forall_mem_cons.1 hrounds
      have hcons : (round :: rounds).flatMap Prod.snd ++ expiry
          = round.2 ++ (rounds.flatMap Prod.snd ++ expiry) := List.append_assoc _ _ _
      rw [hcons]
      exact .passed hpasses (ih hrounds)

/-- **A round of closing stops exactly at the first step whose wait expires.** The `duties` of the
session come in their order, each as it `Asks`. If all of them pass, the session holds nothing any
more and is closed, which is recorded if it was not closed before. If one expires, what it waits for
is killed once, the expiry is recorded under its step and is what the round fails with; everything
up to there is given up, and nothing behind it is touched. For each way in which the steps can end
there is such a round. -/
theorem close_ends_at_first_expiry (timeout : Option Timeout) (session last : Session)
    (exchanges : List Exchange) (result : Except Fault Unit) :
    Attempt.Run (close timeout) session exchanges last result ↔
      (∃ rounds : List (Duty × List Exchange),
        duties session = rounds.map Prod.fst ∧
        (∀ round ∈ rounds, round.1.Passes timeout session.identity round.2) ∧
        exchanges = rounds.flatMap Prod.snd ++ session.farewell ∧
        last = session.ended ∧ result = .ok ()) ∨
      ∃ (rounds : List (Duty × List Exchange)) (duty : Duty) (later : List Duty)
        (expiry : List Exchange) (what : String) (limit : Timeout),
        duties session = rounds.map Prod.fst ++ duty :: later ∧
        (∀ round ∈ rounds, round.1.Passes timeout session.identity round.2) ∧
        duty.Expires timeout session.identity expiry (.timedOut what limit) ∧
        exchanges = rounds.flatMap Prod.snd ++ expiry ∧
        last = session.clearedThrough duty.step ∧ result = .error (.timedOut what limit) := by
  constructor
  · intro h
    rcases teardown_of_run_close h with
      ⟨swept, hswept, rfl, rfl, rfl⟩ | ⟨duty, fault, hstopped, rfl, rfl⟩
    · obtain ⟨rounds, howed, hrounds, rfl⟩ := Teardown.none_iff.1 hswept
      exact .inl ⟨rounds, howed.symm, hrounds, rfl, rfl, rfl⟩
    · obtain ⟨rounds, later, expiry, howed, hrounds, hexpires, rfl⟩ := Teardown.some_iff.1 hstopped
      obtain ⟨what, limit, rfl⟩ := hexpires.fault_eq
      exact .inr ⟨rounds, duty, later, expiry, what, limit, howed, hrounds, hexpires, rfl, rfl, rfl⟩
  · rintro (⟨rounds, howed, hrounds, rfl, rfl, rfl⟩ |
      ⟨rounds, duty, later, expiry, what, limit, howed, hrounds, hexpires, rfl, rfl, rfl⟩)
    · exact run_close_of_finished (Teardown.none_iff.2 ⟨rounds, howed.symm, hrounds, rfl⟩)
    · exact run_close_of_expired
        (Teardown.some_iff.2 ⟨rounds, later, expiry, howed, hrounds, hexpires, rfl⟩)

end Session

end Outpost

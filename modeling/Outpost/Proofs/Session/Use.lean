import Outpost.Session.Start
import Outpost.Proofs.Session.History

/-!
# Connections over the life of a session

A session is started, connected to and closed, in any order and any number of times, by callers that
wait for each call. As long as nobody closes it, a session that is ready holds everything that its
deployment needs (`Equipped`), and connections are made to it.

Closing gives the process up first, and marks the session as closed last. If the wait for the
process or for the tunnel expires, the round ends in between: the session says that it is ready,
still has its machine, and goes on to be connected to although its process is gone
(`connected_after_expired_close`). Every other round is the last that is heard of the session
(`connections_over_life`).

## Contents

* `Use`, `Moment`, `Life`.
* `Serving`: sessions that connections are made to. `run_connectSocket_of_not_serving`.
* `Equipped`, `equipped_of_run_start`: what a start that succeeds leaves.
* `Unclosed`, `Dismantled`, `Shut`: the invariants before and after the first round of closing.
* `connections_over_life`.
-/

namespace Outpost

namespace Session

/-! ## Lives -/

/-- What is asked of a `Session` by those who use it. -/
inductive Use where
  | start (surroundings : Surroundings)
  | close (timeout : Option Timeout)
  | connectSocket
  | connect (settings : Connection.Settings)

namespace Use

/-- What a `Use` results in. -/
def Result : Use → Type
  | .start _ => Unit
  | .close _ => Unit
  | .connectSocket => Machine.Socket
  | .connect _ => Connection

/-- What a `Use` does. -/
def attempt : (use : Use) → Attempt Session interface use.Result
  | .start surroundings => Session.start surroundings
  | .close timeout => Session.close timeout
  | .connectSocket => Session.connectSocket
  | .connect settings => Session.connect settings

/-- Whether a `Use` is a round of closing. -/
def isClose : Use → Bool
  | .close _ => true
  | _ => false

/-- Whether a `Use` is a connection, a bare one or one that presents a service. -/
def isConnection : Use → Bool
  | .connectSocket | .connect _ => true
  | _ => false

end Use

/-- A `Use` that was waited for. -/
structure Moment where
  use : Use
  exchanges : List Exchange
  /-- The session after the use. -/
  after : Session
  result : Except Fault use.Result

namespace Moment

/-- Nothing was asked for at this `Moment`, and the caller is told that the state of the session
does not allow what was wanted. -/
def IsRefusal (moment : Moment) : Prop :=
  moment.exchanges = [] ∧ ∃ text, moment.result = .error (.state text none)

/-- A wait expired: the result is `timedOut`. -/
def IsExpiry (moment : Moment) : Prop :=
  ∃ what limit, moment.result = .error (.timedOut what limit)

end Moment

/-- The moments of a `Session`, from one state of it to another. -/
inductive Life : Session → List Moment → Session → Prop
  | nil (session : Session) : Life session [] session
  | cons {session last : Session} {moment : Moment} {moments : List Moment} :
      Attempt.Run moment.use.attempt session moment.exchanges moment.after moment.result →
      Life moment.after moments last → Life session (moment :: moments) last

/-- A `Life` can be cut at every moment. -/
theorem Life.of_append {session last : Session} {before later : List Moment}
    (h : Life session (before ++ later) last) :
    ∃ mid, Life session before mid ∧ Life mid later last := by
  induction before generalizing session with
  | nil => exact ⟨session, .nil session, h⟩
  | cons moment before ih =>
    cases h with
    | cons hrun hrest =>
      obtain ⟨mid, hbefore, hlater⟩ := ih hrest
      exact ⟨mid, .cons hrun hbefore, hlater⟩

theorem Life.append {session mid last : Session} {before later : List Moment}
    (hbefore : Life session before mid) (hlater : Life mid later last) :
    Life session (before ++ later) last := by
  induction hbefore with
  | nil => exact hlater
  | cons hrun _ ih => exact .cons hrun (ih hlater)

/-! ## Connections -/

/-- A `Session` that connections are made to. -/
structure Serving (session : Session) : Prop where
  state : session.state = .ready
  machine : session.machine ≠ none
  remotePort : session.remotePort ≠ none

section Connections

variable {session last : Session} {exchanges : List Exchange} {moment : Moment}

/-- A session that is not `Serving` refuses a stream. -/
theorem run_connectSocket_of_not_serving (hserving : ¬ Serving session)
    {result : Except Fault Machine.Socket}
    (h : Attempt.Run connectSocket session exchanges last result) :
    exchanges = [] ∧ ∃ text, result = .error (.state text none) := by
  rw [connectSocket, Attempt.run_get_bind_iff] at h
  split at h
  · rename_i machine remotePort hstate hmachine hremotePort
    refine absurd ⟨hstate, ?_, ?_⟩ hserving
    · rw [hmachine]
      exact nofun
    · rw [hremotePort]
      exact nofun
  · obtain ⟨rfl, -, rfl⟩ := Attempt.run_throw_iff.1 h
    exact ⟨rfl, _, rfl⟩

theorem observes_connectSocket : Attempt.Observes (fun _ => True) connectSocket := by
  refine Attempt.observes_bind Attempt.observes_get fun session => ?_
  split
  · split
    · exact ⟨trivial, fun _ => trivial⟩
    · split
      · exact ⟨trivial, fun _ => trivial⟩
      · exact Attempt.observes_throw _
  · exact Attempt.observes_throw _

theorem observes_connect (settings : Connection.Settings) :
    Attempt.Observes (fun _ => True) (connect settings) := by
  refine Attempt.observes_bind observes_connectSocket fun socket => ?_
  -- the connection is put together on a state of its own
  refine Program.observes_embed (Attempt.observes_bind ?_ fun _ => Attempt.observes_bind ?_ ?_)
  · cases (Connection.fresh socket settings).service with
    | custom name => exact ⟨trivial, fun _ => trivial⟩
    | silent | classic => exact Attempt.observes_pure ()
  · exact Program.observes_bind (Program.observes_own _ _) fun _ => trivial
  · rintro ⟨fault | _, connection⟩
    · exact Attempt.observes_throw fault
    · exact Attempt.observes_pure connection

/-- A connection changes nothing, and a session that is not `Serving` refuses it. -/
theorem connection_of_run (hconnection : moment.use.isConnection = true)
    (h : Attempt.Run moment.use.attempt session moment.exchanges moment.after moment.result) :
    moment.after = session ∧ (¬ Serving session → moment.IsRefusal) := by
  obtain ⟨use, exchanges, after, result⟩ := moment
  cases use with
  | start surroundings => exact absurd hconnection Bool.false_ne_true
  | close timeout => exact absurd hconnection Bool.false_ne_true
  | connectSocket =>
    refine ⟨(Program.Run.of_observes h observes_connectSocket).1, fun hserving => ?_⟩
    exact run_connectSocket_of_not_serving hserving h
  | connect settings =>
    refine ⟨(Program.Run.of_observes h (observes_connect settings)).1, fun hserving => ?_⟩
    -- a connection begins with a stream, and there is none
    rcases Attempt.run_bind_iff.1 h with
      ⟨fault, hsocket, hresult⟩ | ⟨mid, socket, first, second, hsocket, -, -⟩
    · obtain ⟨hexchanges, text, hfault⟩ := run_connectSocket_of_not_serving hserving hsocket
      obtain rfl := Except.error.inj hfault
      exact ⟨hexchanges, text, hresult⟩
    · obtain ⟨-, text, hfault⟩ := run_connectSocket_of_not_serving hserving hsocket
      exact absurd hfault nofun

end Connections

/-! ## Starts that succeed -/

/-- A `Session` for a `machine` that holds everything its deployment needs: a tunnel exactly if the
machine cannot be reached directly. -/
structure Equipped (machine : Machine) (session : Session) : Prop where
  onMachine : session.machine = some machine
  process : session.process ≠ none
  tempDirectory : session.tempDirectory ≠ none
  remotePort : session.remotePort ≠ none
  tunnel : session.tunnel ≠ none ↔ machine.connectivity ≠ .direct
  localPort : session.localPort ≠ none ↔ machine.connectivity ≠ .direct

section Starts

variable {machine : Machine} {session last : Session} {exchanges : List Exchange}

theorem yields_requireMachine (hmachine : session.machine = some machine) :
    Attempt.Yields requireMachine session fun last found => last = session ∧ found = machine := by
  rintro exchanges last found h
  obtain ⟨-, rfl, hfound⟩ := (run_requireMachine_iff hmachine).1 h
  exact ⟨rfl, Except.ok.inj hfound⟩

/-- A `stage` that succeeds leaves its directory in the slot and touches no other. -/
theorem yields_stage (target : Machine) (options : Options) :
    Attempt.Yields (stage target options) session fun last _ =>
      ∃ directory, last = { session with tempDirectory := some directory } := by
  intro exchanges last path h
  obtain ⟨fault | path', hsteps, hending⟩ := Attempt.run_tryCatch_throw_iff.1 h
  · exact absurd hending nofun
  rcases Attempt.run_bind_iff.1 hsteps with
    ⟨fault, -, hfault⟩ | ⟨mid, directory, first, second, hask, hrest, rfl⟩
  · exact absurd hfault nofun
  · obtain ⟨-, rfl⟩ := Program.run_request_iff.1 hask
    rw [Attempt.run_modify_bind_iff] at hrest
    have hfill : Attempt.Observes (fun _ => True) _ := observes_fill (fun _ _ => trivial)
      (fun _ => trivial) (fun _ _ => trivial) options directory
    exact ⟨directory, (Program.Run.of_observes hrest hfill).1⟩

theorem observes_launch {allowed : Request → Prop} (interpreter : Machine.Command) (path : String)
    (hspawn : ∀ arguments options, allowed (.machine (.spawn interpreter arguments options))) :
    Attempt.Observes allowed (launch interpreter path) := by
  refine Program.observes_bind ⟨hspawn _ _, fun _ => trivial⟩ ?_
  rintro (fault | running)
  · exact Attempt.observes_throw _
  · exact Attempt.observes_pure running

/-- An `acquire` whose steps all succeed has filled the slots. -/
theorem equipped_of_acquire (surroundings : Surroundings)
    (hmachine : session.machine = some machine) (htunnel : session.tunnel = none) :
    Attempt.Yields (acquire surroundings) session fun last _ => Equipped machine last := by
  have hrecord (signer : Session) (kind : Event.Kind) (details : Event.Details) :
      Attempt.Observes (fun _ => True)
        (record signer kind details : Attempt Session interface Unit) :=
    observes_record signer kind details fun _ _ _ _ _ => trivial
  have hresolve (known : Option Json) (choice : Option InterpreterChoice) :
      Attempt.Observes (fun _ => True) (resolveInterpreter surroundings known choice
        : Attempt Session interface Machine.Command) :=
    observes_resolveInterpreter (fun _ => trivial) (fun _ => trivial) surroundings known choice
  have hdiscard (running : Machine.Running) : Attempt.Observes (fun _ => True)
      (Ask.discardOutput running : Attempt Session interface Unit) := ⟨trivial, fun _ => trivial⟩
  have hhandshake (known : Session) (running : Machine.Running) :
      Attempt.Observes (fun _ => True) (handshake known running) :=
    observes_handshake (fun _ _ => trivial) (fun _ => trivial) (fun _ => trivial) known
  refine Attempt.yields_bind (yields_requireMachine hmachine) ?_
  rintro session machine ⟨rfl, rfl⟩
  refine Attempt.yields_get_bind (Attempt.yields_bind (yields_stage _ _) ?_)
  rintro _ path ⟨directory, rfl⟩
  refine Attempt.yields_bind_of_observes (hrecord _ _ _) fun _ => ?_
  refine Attempt.yields_bind_of_observes (hresolve _ _) fun interpreter => ?_
  have hlaunch : Attempt.Observes (fun _ => True) (launch interpreter path) :=
    observes_launch interpreter path fun _ _ => trivial
  refine Attempt.yields_bind_of_observes hlaunch fun running => ?_
  refine Attempt.yields_modify_bind (Attempt.yields_bind_of_observes (hrecord _ _ _) fun _ => ?_)
  refine Attempt.yields_bind_of_observes (hhandshake _ running) fun remotePort => ?_
  refine Attempt.yields_modify_bind (Attempt.yields_bind_of_observes (hrecord _ _ _) fun _ => ?_)
  refine Attempt.yields_bind_of_observes (hdiscard running) fun _ => ?_
  -- only a tunnel is still missing, if the machine needs one
  split
  · rename_i hdirect
    intro exchanges last _ h
    obtain ⟨-, rfl, -⟩ := Attempt.run_modify_iff.1 h
    have hnone : ¬ machine.connectivity ≠ .direct := not_not_intro hdirect
    refine ⟨hmachine, nofun, nofun, nofun, ?_, ?_⟩
    · exact iff_of_false (not_not_intro htunnel) hnone
    · exact iff_of_false (not_not_intro rfl) hnone
  · rename_i name htunneled
    have hfreePort :
        Attempt.Observes (fun _ => True) (Ask.freePort : Attempt Session interface Nat) :=
      ⟨trivial, fun _ => trivial⟩
    have hopen (localPort : Nat) : Attempt.Observes (fun _ => True)
        (Ask.openTunnel localPort remotePort : Attempt Session interface Machine.Forward) :=
      ⟨trivial, fun _ => trivial⟩
    have hsome : machine.connectivity ≠ .direct := by
      rw [htunneled]
      exact nofun
    refine Attempt.yields_bind_of_observes hfreePort fun localPort => ?_
    refine Attempt.yields_modify_bind ?_
    refine Attempt.yields_bind_of_observes (hopen localPort) fun _ => ?_
    refine Attempt.yields_modify_bind fun exchanges last _ h => ?_
    obtain ⟨-, rfl, -⟩ := run_record_iff.1 h
    exact ⟨hmachine, nofun, nofun, nofun, iff_of_true nofun hsome, iff_of_true nofun hsome⟩

/-- A `start` that succeeds leaves everything in its place. -/
theorem equipped_of_run_start {surroundings : Surroundings}
    (hmachine : session.machine = some machine)
    (htunnel : session.tunnel = none)
    (h : Attempt.Run (start surroundings) session exchanges last (.ok ())) :
    Equipped machine last := by
  by_cases hstate : session.state = .created
  · obtain ⟨mid, first, second, hacquire, -, -, rfl⟩ := run_start_of_created hstate h
    let starting : Session := { session with state := .starting }
    have honMachine : starting.machine = some machine := hmachine
    have hequipped := equipped_of_acquire surroundings honMachine htunnel hacquire
    exact ⟨hequipped.onMachine, hequipped.process, hequipped.tempDirectory, hequipped.remotePort,
      hequipped.tunnel, hequipped.localPort⟩
  · obtain ⟨-, -, fault, hfault⟩ := run_start_of_not_created hstate h
    exact absurd hfault nofun

end Starts

/-! ## Before and after the first round of closing -/

/-- A `Session` for a `machine` that was not closed yet. -/
structure Unclosed (machine : Machine) (session : Session) : Prop where
  sound : Sound session
  onMachine : session.machine = some machine
  equipped : session.state = .ready → Equipped machine session

/-- What the first round of closing leaves, and all that comes after it: there is no process, and
if there was none to begin with then there is no machine to start one on. -/
structure Dismantled (session : Session) : Prop where
  retired : Retired session
  process : session.process = none

/-- A `Session` that no connection is ever made to again. -/
structure Shut (session : Session) : Prop where
  retired : Retired session
  refuses : ¬ Serving session

section Steps

variable {machine : Machine} {timeout : Option Timeout} {surroundings : Surroundings}
  {session last : Session} {exchanges : List Exchange} {moment : Moment} {moments : List Moment}

theorem Unclosed.of_run_start {result : Except Fault Unit} (hsession : Unclosed machine session)
    (h : Attempt.Run (start surroundings) session exchanges last result) :
    Unclosed machine last := by
  by_cases hstate : session.state = .created
  · have htunnel := hsession.sound.tunnel hstate
    have hacquired := acquired_of_run_start hstate (hsession.sound.tempDirectory hstate)
      (hsession.sound.process hstate) htunnel h
    refine ⟨sound_of_run_start h, hacquired.machine.trans hsession.onMachine, fun hready => ?_⟩
    -- only a start that succeeded leaves the session ready
    rcases result with fault | ⟨⟨⟩⟩
    · obtain ⟨mid, _, _, -, -, -, rfl⟩ := run_start_of_created hstate h
      exact absurd hready nofun
    · exact equipped_of_run_start hsession.onMachine htunnel h
  · obtain ⟨-, rfl, -⟩ := run_start_of_not_created hstate h
    exact hsession

/-- What is left of a session by a `close`. -/
theorem slots_of_run_close {result : Except Fault Unit}
    (h : Attempt.Run (close timeout) session exchanges last result) :
    last.process = none ∧ (last.machine = session.machine ∨ last.machine = none) ∧
      last.remotePort = session.remotePort ∧
      (last.state = .closed ∨ last.state = session.state ∧
        ∃ what limit, result = .error (.timedOut what limit)) := by
  rcases teardown_of_run_close h with ⟨_, -, -, rfl, -⟩ | ⟨duty, fault, hstopped, rfl, rfl⟩
  · exact ⟨rfl, .inr rfl, rfl, .inl rfl⟩
  · obtain ⟨_, _, _, -, -, hexpires, -⟩ := Teardown.some_iff.1 hstopped
    obtain ⟨what, limit, rfl⟩ := hexpires.fault_eq
    refine ⟨?_, ?_, ?_, .inr ⟨clearedThrough_state session duty.step, what, limit, rfl⟩⟩
    · cases duty.step <;> rfl
    · cases duty.step with
      | process | tunnelSession | tunnel => exact .inl rfl
      | machineSession | machine | tempDirectory => exact .inr rfl
    · cases duty.step <;> rfl

/-- A session that is `Retired` goes on to be so when it is closed again. -/
theorem Retired.of_run_close {result : Except Fault Unit} (hretired : Retired session)
    (h : Attempt.Run (close timeout) session exchanges last result) : Retired last := by
  obtain ⟨-, hmachine, -, hstate⟩ := slots_of_run_close h
  refine ⟨fun hcreated => ?_⟩
  rcases hmachine with hmachine | hmachine
  · rcases hstate with hclosed | ⟨hkept, -⟩
    · rw [hclosed] at hcreated
      exact absurd hcreated nofun
    · rw [hmachine]
      exact hretired.machine (hkept.symm.trans hcreated)
  · exact hmachine

/-- The first round of closing leaves a session `Dismantled`. -/
theorem Dismantled.of_close (hsession : Unclosed machine session)
    (hclose : moment.use.isClose = true)
    (h : Attempt.Run moment.use.attempt session moment.exchanges moment.after moment.result) :
    Dismantled moment.after := by
  obtain ⟨use, exchanges, after, result⟩ := moment
  cases use with
  | close timeout => exact ⟨hsession.sound.retired_of_run_close h, (slots_of_run_close h).1⟩
  | start surroundings => exact absurd hclose nofun
  | connectSocket => exact absurd hclose nofun
  | connect settings => exact absurd hclose nofun

/-- A session that is `Retired` is not made ready by a start. -/
theorem Retired.slots_of_run_start {result : Except Fault Unit} (hretired : Retired session)
    (h : Attempt.Run (start surroundings) session exchanges last result) :
    last.process = session.process ∧ (last = session ∨ last.state ≠ .ready) := by
  by_cases hstate : session.state = .created
  · obtain ⟨rfl, -⟩ := run_start_of_machine_none hstate (hretired.machine hstate) h
    exact ⟨rfl, .inr nofun⟩
  · obtain ⟨-, rfl, -⟩ := run_start_of_not_created hstate h
    exact ⟨rfl, .inl rfl⟩

/-- Whatever is asked of a session, it stays `Sound`: it holds nothing but its machine as long as it
was not started. -/
theorem Sound.of_moment (hsound : Sound session)
    (h : Attempt.Run moment.use.attempt session moment.exchanges moment.after moment.result) :
    Sound moment.after := by
  have hconnection (hconnection : moment.use.isConnection = true) : Sound moment.after := by
    rw [(connection_of_run hconnection h).1]
    exact hsound
  obtain ⟨use, exchanges, after, result⟩ := moment
  cases use with
  | start surroundings => exact sound_of_run_start h
  | close timeout => exact hsound.of_run_close h
  | connectSocket => exact hconnection rfl
  | connect settings => exact hconnection rfl

/-- As long as nobody closes it, a session is `Unclosed`. -/
theorem Unclosed.of_moment (hsession : Unclosed machine session)
    (hopen : moment.use.isClose = false)
    (h : Attempt.Run moment.use.attempt session moment.exchanges moment.after moment.result) :
    Unclosed machine moment.after := by
  have hconnection (hconnection : moment.use.isConnection = true) :
      Unclosed machine moment.after := by
    rw [(connection_of_run hconnection h).1]
    exact hsession
  obtain ⟨use, exchanges, after, result⟩ := moment
  cases use with
  | start surroundings => exact hsession.of_run_start h
  | close timeout => exact absurd hopen nofun
  | connectSocket => exact hconnection rfl
  | connect settings => exact hconnection rfl

/-- Nothing brings a `Dismantled` session back. -/
theorem Dismantled.of_moment (hsession : Dismantled session)
    (h : Attempt.Run moment.use.attempt session moment.exchanges moment.after moment.result) :
    Dismantled moment.after := by
  have hconnection (hconnection : moment.use.isConnection = true) : Dismantled moment.after := by
    rw [(connection_of_run hconnection h).1]
    exact hsession
  obtain ⟨use, exchanges, after, result⟩ := moment
  cases use with
  | start surroundings =>
    obtain ⟨hretired, -⟩ := hsession.retired.of_run_start h
    have hprocess := (hsession.retired.slots_of_run_start h).1
    exact ⟨hretired, hprocess.trans hsession.process⟩
  | close timeout => exact ⟨hsession.retired.of_run_close h, (slots_of_run_close h).1⟩
  | connectSocket => exact hconnection rfl
  | connect settings => exact hconnection rfl

theorem Dismantled.of_life (hsession : Dismantled session) (h : Life session moments last) :
    Dismantled last := by
  induction h with
  | nil => exact hsession
  | cons hrun _ ih => exact ih (hsession.of_moment hrun)

/-- The first round of closing decides what a session is like from then on. -/
theorem Unclosed.of_life (hsession : Unclosed machine session) (h : Life session moments last) :
    Unclosed machine last ∧ (∀ moment ∈ moments, moment.use.isClose = false) ∨
      Dismantled last ∧ ∃ moment ∈ moments, moment.use.isClose = true := by
  induction h with
  | nil => exact .inl ⟨hsession, fun moment hmoment => absurd hmoment List.not_mem_nil⟩
  | @cons session last moment moments hrun hrest ih =>
    cases hclose : moment.use.isClose with
    | true =>
      have hdismantled := Dismantled.of_close hsession hclose hrun
      exact .inr ⟨hdismantled.of_life hrest, moment, List.mem_cons_self, hclose⟩
    | false =>
      rcases ih (hsession.of_moment hclose hrun) with
        ⟨hlast, hopen⟩ | ⟨hlast, closing, hmem, hclosing⟩
      · exact .inl ⟨hlast, List.forall_mem_cons.2 ⟨hclose, hopen⟩⟩
      · exact .inr ⟨hlast, closing, List.mem_cons_of_mem _ hmem, hclosing⟩

/-- A session whose state is `closed` stays so. -/
theorem closed_of_life (hstate : session.state = .closed) (h : Life session moments last) :
    last.state = .closed := by
  induction h with
  | nil => exact hstate
  | @cons session last moment moments hrun hrest ih =>
    refine ih ?_
    have hconnection (hconnection : moment.use.isConnection = true) :
        moment.after.state = .closed := by
      rw [(connection_of_run hconnection hrun).1]
      exact hstate
    obtain ⟨use, exchanges, after, result⟩ := moment
    cases use with
    | start surroundings =>
      have hstarted : session.state ≠ .created := by
        rw [hstate]
        exact nofun
      obtain ⟨-, hafter, -⟩ := run_start_of_not_created hstarted hrun
      exact (congrArg Session.state hafter).trans hstate
    | close timeout =>
      rcases (slots_of_run_close hrun).2.2.2 with hclosed | ⟨hkept, -⟩
      · exact hclosed
      · exact hkept.trans hstate
    | connectSocket => exact hconnection rfl
    | connect settings => exact hconnection rfl

/-- A session that is `Shut` stays shut. -/
theorem Shut.of_moment (hsession : Shut session)
    (h : Attempt.Run moment.use.attempt session moment.exchanges moment.after moment.result) :
    Shut moment.after := by
  have hconnection (hconnection : moment.use.isConnection = true) : Shut moment.after := by
    rw [(connection_of_run hconnection h).1]
    exact hsession
  obtain ⟨use, exchanges, after, result⟩ := moment
  cases use with
  | start surroundings =>
    obtain ⟨hretired, -⟩ := hsession.retired.of_run_start h
    refine ⟨hretired, fun hserving => ?_⟩
    rcases (hsession.retired.slots_of_run_start h).2 with rfl | hstate
    · exact hsession.refuses hserving
    · exact hstate hserving.state
  | close timeout =>
    refine ⟨hsession.retired.of_run_close h, fun hserving => hsession.refuses ?_⟩
    obtain ⟨-, hmachine, hport, hstate⟩ := slots_of_run_close h
    rcases hstate with hclosed | ⟨hkept, -⟩
    · exact absurd (hclosed.symm.trans hserving.state) nofun
    rcases hmachine with hmachine | hmachine
    · exact ⟨hkept.symm.trans hserving.state, hmachine ▸ hserving.machine,
        hport ▸ hserving.remotePort⟩
    · exact absurd hmachine hserving.machine
  | connectSocket => exact hconnection rfl
  | connect settings => exact hconnection rfl

/-- Everybody who wants to connect to a session that is `Shut` is refused. -/
theorem Shut.refusals (hsession : Shut session) (h : Life session moments last) :
    ∀ moment ∈ moments, moment.use.isConnection = true → moment.IsRefusal := by
  induction h with
  | nil => exact fun moment hmoment => absurd hmoment List.not_mem_nil
  | cons hrun _ ih =>
    refine List.forall_mem_cons.2 ⟨fun hconnection => ?_, ih (hsession.of_moment hrun)⟩
    exact (connection_of_run hconnection hrun).2 hsession.refuses

/-- A round of closing leaves the state `closed`, unless a wait expires. -/
theorem closed_or_expiry_of_close (hclose : moment.use.isClose = true)
    (h : Attempt.Run moment.use.attempt session moment.exchanges moment.after moment.result) :
    moment.after.state = .closed ∨ moment.IsExpiry := by
  obtain ⟨use, exchanges, after, result⟩ := moment
  cases use with
  | close timeout =>
    rcases (slots_of_run_close h).2.2.2 with hclosed | ⟨-, hexpiry⟩
    · exact .inl hclosed
    · exact .inr hexpiry
  | start surroundings => exact absurd hclose nofun
  | connectSocket => exact absurd hclose nofun
  | connect settings => exact absurd hclose nofun

end Steps

/-! ## A session that goes on to serve -/

/-- A session as `sample`, with a short script and an interpreter of the caller's own. -/
def brief : Session :=
  { sample with options := { sample.options with
      serverScript :=
        "$SERVER_MODULE$ $SERVER_CLASS$ $SERVICE_MODULE$ $SERVICE_CLASS$ $EXTRA_SETUP$"
      interpreter := some (.command [.string "node"]) } }

/-- What its user said about it. -/
def briefInput : Options.Input :=
  .fields [("serverScript", .json (.ofGiven brief.options.serverScript)),
    ("interpreter", .command (some (.array [.string "node"])))]

theorem resolve_briefInput : Options.resolve briefInput = .ok brief.options := by
  simp [Options.resolve, Options.check, Options.resolveFields, Options.withDefault,
    Options.optional, Options.find?, Options.also, Options.checkFilled, Options.checkText,
    Options.checkInterpreter, Options.Value.string?, Json.ofGiven, Except.map, sample, brief,
    briefInput]

theorem run_create_brief {σ : Type} (s : σ) :
    Attempt.Run (create ⟨none, .direct⟩ briefInput : Attempt σ interface Session) s
      [⟨.freshId, "d-1"⟩] s (.ok brief) :=
  run_create_iff.2 ⟨rfl, .inr ⟨_, "d-1", resolve_briefInput, rfl, rfl⟩⟩

/-- What runs on the machine once the script is launched. -/
def briefRunning : Machine.Running :=
  ⟨4242, [.string "node", .string "/tmp/d-1/deployed-server.mjs"]⟩

/-- A machine that grants everything, as replies to a `Request`. -/
def granted : (r : Request) → interface.Reply r
  | .machine .tempDirectory => .ok ⟨"/tmp/d-1"⟩
  | .machine (.joinPath _) => .ok "/tmp/d-1/deployed-server.mjs"
  | .machine (.which _) => .ok (.found [.string "node"])
  | .machine (.spawn ..) => .ok briefRunning
  | .machine (.connect _) => .ok ⟨0⟩
  | .machine (.openTunnel localPort remotePort) => .ok ⟨0, localPort, remotePort⟩
  | .machine (.upload ..) | .machine (.writeFile ..) => .ok ()
  | .machine (.closeTunnel _) | .machine (.removeDirectory _) | .machine .close => .ok ()
  | .control (.terminate _) | .control (.kill _) | .control (.discardOutput _) => .ok ()
  | .control (.communicate ..) => .ok ⟨[], []⟩
  | .control (.readLine ..) => none
  | .control (.exitCode _) => .null
  | .control (.consumedOutput _) => []
  | .freshId => "d-1"
  | .freePort => .ok 40000
  | .connectLocal _ => .ok ⟨0⟩
  | .connection (.made _) | .connection (.closed ..) => .ok ()
  | .connection (.opened ..) => ([], .ok ())
  | .connection (.destroy _) | .report _ | .record .. => ()

/-- The short script of `brief` can be filled in. -/
theorem exists_script_brief : ∃ text, script brief.options = .ok text := by
  have hok : (script brief.options).isOk = true := by decide +kernel
  generalize script brief.options = rendered at hok
  cases rendered with
  | error fault => exact absurd hok nofun
  | ok text => exact ⟨text, rfl⟩

/-- What `stage` asks for when a script is put in place, and granted. -/
def staging (options : Options) (text : String) : List Exchange :=
  [⟨.machine .tempDirectory, .ok ⟨"/tmp/d-1"⟩⟩,
    ⟨.machine (.upload options.codeDirectory.shown "/tmp/d-1"), .ok ()⟩,
    ⟨.machine (.joinPath ["/tmp/d-1", Settings.scriptName]), .ok "/tmp/d-1/deployed-server.mjs"⟩,
    ⟨.machine (.writeFile "/tmp/d-1/deployed-server.mjs" text), .ok ()⟩]

/-- A `stage` that gets everything that it asks for. -/
theorem run_stage_of_script (machine : Machine) (session : Session) {options : Options}
    {text : String} (hscript : script options = .ok text) :
    Attempt.Run (stage machine options) session (staging options text)
      { session with tempDirectory := some ⟨"/tmp/d-1"⟩ } (.ok "/tmp/d-1/deployed-server.mjs") := by
  rw [stage, stageSteps, hscript]
  exact .ask _ (.read (.write (.ask _ (.ask _ (.ask _ (.done _ _))))))

/-- The session `brief` once it is started. -/
def briefReady : Session :=
  { brief with
    tempDirectory := some ⟨"/tmp/d-1"⟩
    process := some briefRunning
    remotePort := some 60123
    state := .ready }

/-- A `start` of `brief` that gets everything that it asks for. -/
theorem run_start_brief : ∃ exchanges,
    Attempt.Run (start ⟨"20.11.1", none⟩) brief exchanges briefReady (.ok ()) := by
  obtain ⟨text, hscript⟩ := exists_script_brief
  have hparse : PortLine.parse? (some "60123") = some 60123 := by decide +kernel
  let starting : Session := { brief with state := .starting }
  let staged : Session := { starting with tempDirectory := some ⟨"/tmp/d-1"⟩ }
  let spawned : Session := { staged with process := some briefRunning }
  have hstage := run_stage_of_script ⟨none, .direct⟩ starting hscript
  let shaking : List Exchange :=
    [⟨.control (.readLine briefRunning none), some (.ok (some "60123"))⟩]
  have hport : Attempt.Run (readPort starting briefRunning) spawned shaking spawned
      (.ok (some 60123)) := by
    refine Attempt.run_bind_iff.2 (.inr ⟨spawned, some (.ok (some "60123")), [_], [], ?_, ?_, rfl⟩)
    · exact Attempt.run_lift_ask_iff.2 ⟨_, rfl, rfl, rfl⟩
    · rw [← hparse]
      exact .done _ _
  have hhandshake : Attempt.Run (handshake starting briefRunning) spawned shaking
      spawned (.ok 60123) :=
    Attempt.run_bind_iff.2 (.inr ⟨_, _, _, [], hport, .done _ _, rfl⟩)
  let discarding : List Exchange := [⟨.control (.discardOutput briefRunning), .ok ()⟩]
  let launching : List Exchange :=
    ⟨.machine (.spawn (.given [.string "node"]) [.string "/tmp/d-1/deployed-server.mjs"]
      .ownSession), .ok briefRunning⟩ :: (shaking ++ discarding)
  have hacquire : Attempt.Run (acquire ⟨"20.11.1", none⟩) starting
      (staging brief.options text ++ launching) { briefReady with state := .starting }
      (.ok ()) := by
    refine .read (.read (Attempt.run_bind_iff.2 (.inr ⟨staged, _, _, launching, hstage, ?_, rfl⟩)))
    refine .ask _ ?_
    refine .read (.write ?_)
    refine (Attempt.run_bind_iff_of_ok run_record_iff).2 ⟨[], _, rfl, ?_, rfl⟩
    refine Attempt.run_bind_iff.2 (.inr ⟨spawned, _, _, discarding, hhandshake, ?_, rfl⟩)
    refine .read (.write (.ask _ ?_))
    exact .read (.write (.done _ _))
  refine ⟨staging brief.options text ++ launching
    ++ [Exchange.report .info (readyText briefReady)], ?_⟩
  have hcreated : ¬ brief.state ≠ .created := not_not_intro rfl
  rw [start, Attempt.run_get_bind_iff, if_neg hcreated, Attempt.run_set_bind_iff]
  refine Attempt.run_bind_iff.2 (.inr
    ⟨{ briefReady with state := .starting }, (), _, [_], ?_, ?_, rfl⟩)
  · exact Attempt.run_tryCatch_iff.2 (.inl ⟨(), hacquire, rfl⟩)
  · exact .read (.write (.read (.ask _ (.done _ _))))

/-- The process of `briefReady` is asked to stop, and does not exit in time. -/
theorem run_close_terminating : ∃ rest,
    Attempt.Run (close (some (.ofNat 20))) briefReady
      (Exchange.terminate (.process briefRunning) (.ok ()) :: rest)
      (briefReady.clearedThrough .process)
      (.error (.timedOut "process 4242 to exit" (.ofNat 20))) := by
  have hexpires : ∃ rest, Duty.Expires (some (.ofNat 20)) briefReady.identity
      (.process briefRunning) (Exchange.terminate (.process briefRunning) (.ok ()) :: rest)
      (.timedOut "process 4242 to exit" (.ofNat 20)) :=
    ⟨_, .expired (.waited (.error _) rfl) (.killed rfl)⟩
  obtain ⟨rest, hexpires⟩ := hexpires
  exact ⟨rest, run_close_of_expired (.expired hexpires)⟩

theorem run_close_briefReady : ∃ exchanges,
    Attempt.Run (close (some (.ofNat 20))) briefReady exchanges (briefReady.clearedThrough .process)
      (.error (.timedOut "process 4242 to exit" (.ofNat 20))) := by
  obtain ⟨rest, hclose⟩ := run_close_terminating
  exact ⟨_, hclose⟩

/-- What is left of `briefReady` is still connected to. -/
theorem run_connectSocket_stalled :
    Attempt.Run connectSocket (briefReady.clearedThrough .process)
      [⟨.machine (.connect (.ofNat 60123)), .ok ⟨0⟩⟩] (briefReady.clearedThrough .process)
      (.ok ⟨0⟩) := by
  refine .read (.ask _ ?_)
  exact .done _ _

/-- **Who can still connect.** Over every `Life` of a session: as long as it was not closed, a
session that is ready is `Equipped` with everything that its deployment needs. Once it was closed,
it is ready only if the wait of every round of closing expired, and then without its process. After
a round of closing everybody who wants to connect is refused and nothing is asked for, unless the
wait of this very round expired before the machine was given up: then the session goes on to
serve. -/
theorem connections_over_life {σ : Type} {machine : Machine} {input : Options.Input} {s s' : σ}
    {setup : List Exchange} {session last : Session} {moments : List Moment}
    (hcreate : Attempt.Run (create machine input : Attempt σ interface Session) s setup s'
      (.ok session))
    (hlife : Life session moments last) :
    (last.state = .ready →
      Equipped machine last ∧ (∀ moment ∈ moments, moment.use.isClose = false) ∨
      last.process = none ∧ (∃ moment ∈ moments, moment.use.isClose = true) ∧
        ∀ moment ∈ moments, moment.use.isClose = true → moment.IsExpiry) ∧
    ∀ before closing later, moments = before ++ closing :: later → closing.use.isClose = true →
      (∀ moment ∈ later, moment.use.isConnection = true → moment.IsRefusal) ∨
      closing.IsExpiry ∧ Serving closing.after ∧ closing.after.process = none := by
  obtain ⟨hcreated, hmachine, hdirectory, hprocess, htunnel⟩ := created_of_run_create hcreate
  have hfresh : Unclosed machine session := by
    refine ⟨⟨fun _ => hprocess, fun _ => htunnel, fun _ => hdirectory⟩, hmachine, fun hready => ?_⟩
    exact absurd (hcreated.symm.trans hready) nofun
  constructor
  · intro hready
    rcases hfresh.of_life hlife with ⟨hlast, hopen⟩ | ⟨hlast, hclosed⟩
    · exact .inl ⟨hlast.equipped hready, hopen⟩
    · refine .inr ⟨hlast.process, hclosed, fun moment hmoment hclose => ?_⟩
      obtain ⟨before, later, rfl⟩ := List.append_of_mem hmoment
      obtain ⟨mid, -, hrest⟩ := hlife.of_append
      cases hrest with
      | cons hrun hlater =>
        rcases closed_or_expiry_of_close hclose hrun with hstate | hexpiry
        · exact absurd ((closed_of_life hstate hlater).symm.trans hready) nofun
        · exact hexpiry
  · rintro before closing later rfl hclose
    obtain ⟨mid, hbefore, hrest⟩ := hlife.of_append
    cases hrest with
    | cons hrun hlater =>
      have hdismantled : Dismantled closing.after := by
        rcases hfresh.of_life hbefore with ⟨hmid, -⟩ | ⟨hmid, -⟩
        · exact .of_close hmid hclose hrun
        · exact hmid.of_moment hrun
      by_cases hserving : Serving closing.after
      · rcases closed_or_expiry_of_close hclose hrun with hstate | hexpiry
        · exact absurd (hstate.symm.trans hserving.state) nofun
        · exact .inr ⟨hexpiry, hserving, hdismantled.process⟩
      · exact .inl (Shut.refusals ⟨hdismantled.retired, hserving⟩ hlater)

/-- The same session, closed once more: this round completes, and then a connection is refused. -/
theorem refused_after_completed_close :
    ∃ (moments : List Moment) (last : Session), Life brief moments last ∧
      moments.map (fun moment => (moment.use.isClose, moment.use.isConnection, moment.result.isOk))
        = [(false, false, true), (true, false, false), (false, true, true), (true, false, true),
          (false, true, false)] ∧
      ∃ refused, moments.getLast? = some refused ∧ refused.IsRefusal := by
  obtain ⟨first, hstart⟩ := run_start_brief
  obtain ⟨second, hclose⟩ := run_close_briefReady
  obtain ⟨third, hfinish, -⟩ := exists_completed_round none (briefReady.clearedThrough .process)
  let stalled : Session := briefReady.clearedThrough .process
  let starting : Moment := ⟨.start ⟨"20.11.1", none⟩, first, briefReady, .ok ()⟩
  let closing : Moment := ⟨.close (some (.ofNat 20)), second, stalled,
    .error (.timedOut "process 4242 to exit" (.ofNat 20))⟩
  let connecting : Moment := ⟨.connectSocket,
    [⟨.machine (.connect (.ofNat 60123)), .ok ⟨0⟩⟩], stalled, .ok ⟨0⟩⟩
  let finishing : Moment := ⟨.close none, third, stalled.ended, .ok ()⟩
  let refused : Moment := ⟨.connectSocket, [], stalled.ended,
    .error (.state "Deployment d-1 is not ready (state 'closed')" none)⟩
  have hrefused : Attempt.Run connectSocket stalled.ended [] stalled.ended refused.result :=
    .read (.done _ _)
  have hlife : Life brief [starting, closing, connecting, finishing, refused] stalled.ended :=
    .cons hstart (.cons hclose (.cons run_connectSocket_stalled (.cons hfinish
      (.cons hrefused (.nil _)))))
  have hwho := (connections_over_life (run_create_brief ()) hlife).2 [starting, closing, connecting]
    finishing [refused] rfl rfl
  refine ⟨_, _, hlife, rfl, refused, rfl, ?_⟩
  rcases hwho with hrefusals | ⟨⟨what, limit, hexpired⟩, -⟩
  · exact hrefusals refused List.mem_cons_self rfl
  · exact absurd hexpired nofun

/-- A session whose process did not exit in time says that it is ready and is connected to, although
it was closed and has no process any more. -/
theorem connected_after_expired_close :
    ∃ (starting closing connecting : Moment) (last : Session),
      Life brief [starting, closing, connecting] last ∧
      closing.use = .close (some (.ofNat 20)) ∧ closing.IsExpiry ∧
      closing.after.state = .ready ∧ closing.after.process = none ∧
      connecting.use = .connectSocket ∧
      connecting.exchanges = [⟨.machine (.connect (.ofNat 60123)), .ok ⟨0⟩⟩] ∧
      ¬ connecting.IsRefusal := by
  obtain ⟨first, hstart⟩ := run_start_brief
  obtain ⟨second, hclose⟩ := run_close_briefReady
  refine ⟨⟨.start ⟨"20.11.1", none⟩, first, briefReady, .ok ()⟩,
    ⟨.close (some (.ofNat 20)), second, briefReady.clearedThrough .process, .error _⟩,
    ⟨.connectSocket, _, briefReady.clearedThrough .process, .ok ⟨0⟩⟩, _,
    .cons hstart (.cons hclose (.cons run_connectSocket_stalled (.nil _))), rfl, ⟨_, _, rfl⟩, rfl,
    rfl, rfl, rfl, ?_⟩
  rintro ⟨hexchanges, -⟩
  exact absurd hexchanges (List.cons_ne_nil _ _)

end Session

end Outpost

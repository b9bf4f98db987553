import Mathlib.Data.List.Nodup
import Outpost.Proofs.Session.Use

/-!
# The trail of a session

A session that has an event log tells it what becomes of the deployment, under its own name. What it
tells over its whole life can be read as a story: it was created; the waits that expired before a
start; what the start reached and how it ended; the waits that expired afterwards; and its end
(`trail_of_created`).

A start tells of every stage as soon as it is behind it, so wherever it stops, what it told is a
beginning of `milestones`. A round of closing tells of the wait that ended it, or of the end of the
deployment, and of neither twice.

## Contents

* `Note`, `trail`: what exchanges tell the event log.
* `milestones`, `readyNote`, `failedNote`, `expiryNote`: what there is to tell.
* `Tells`, `tells_acquire`: what acquiring tells, wherever it stops.
* `trail_of_run_start`, `trail_of_run_close`: what a call tells.
* `admitted`: the start that counts.
* `trail_of_ended`, `trail_of_started`, `trail_of_created`: the phases of a history.
* `story`, and what it tells of each kind. `Faithful`: a trail that is well formed and true.
* `trail_over_history`.
-/

namespace Outpost

/-- Only a process that failed has an `exitCode?` to tell. -/
theorem Fault.exitCode?_ne_none_iff {fault : Fault} :
    fault.exitCode? ≠ none ↔
      ∃ argv exitCode stdout stderr, fault = .processFailed argv exitCode stdout stderr := by
  cases fault with
  | processFailed argv exitCode stdout stderr => exact iff_of_true nofun ⟨_, _, _, _, rfl⟩
  | _ => exact iff_of_false (not_not_intro rfl) nofun

namespace Session

/-! ## Notes -/

/-- Something that an event log is told about a deployment by a `record`. -/
structure Note where
  kind : Event.Kind
  details : Event.Details := {}

/-- What a request tells the event log of a session, under its name. -/
def Request.note? (identity : Identity) : Request → Option Note
  | .record log id _ kind details =>
    if identity.eventLog = some log ∧ identity.id = id then some ⟨kind, details⟩ else none
  | _ => none

/-- A request that tells the event log nothing, by `note?`. -/
def Request.Quiet (identity : Identity) (request : Request) : Prop := request.note? identity = none

/-- What `exchanges` tell the event log of a session, in their order. -/
def trail (identity : Identity) (exchanges : List Exchange) : List Note :=
  exchanges.filterMap fun x => x.request.note? identity

/-- What a `start` has to tell until everything is acquired. -/
def milestones (connectivity : Connectivity) (session : Session) : List Note :=
  [⟨.staged, {}⟩, ⟨.spawned, {}⟩, ⟨.handshake, { remotePort := session.remotePort }⟩] ++
    match connectivity with
    | .direct => []
    | .tunnel _ =>
      [⟨.tunnelOpened, { remotePort := session.remotePort, localPort := session.localPort }⟩]

/-- What is told at the end of a `start` that succeeds. -/
def readyNote (session : Session) : Note :=
  ⟨.ready, { remotePort := session.remotePort, localPort := session.localPort }⟩

/-- What is told at the end of a `start` that fails. -/
def failedNote (fault : Fault) : Note :=
  ⟨.startFailed, { reason := some fault.message, exitCode := fault.exitCode? }⟩

/-- What is told of a wait of closing that expired, under the name of its `Step`. -/
def expiryNote (step : Step) : Note := ⟨.teardownTimeout, { reason := some step.label }⟩

section Trail

variable {identity : Identity} {first second exchanges : List Exchange}

theorem trail_append :
    trail identity (first ++ second) = trail identity first ++ trail identity second :=
  List.filterMap_append

theorem trail_eq_nil (h : ∀ x ∈ exchanges, x.request.Quiet identity) :
    trail identity exchanges = [] :=
  List.filterMap_eq_nil_iff.2 h

/-- A session with an event log tells it whatever is `recorded`. -/
theorem trail_recorded (hlog : identity.eventLog ≠ none) (kind : Event.Kind)
    (details : Event.Details) :
    trail identity (identity.recorded kind details) = [⟨kind, details⟩] := by
  obtain ⟨id, machineName, eventLog⟩ := identity
  cases eventLog with
  | none => exact absurd rfl hlog
  | some log => simp [trail, Identity.recorded, Request.note?]

end Trail

/-! ## What a start tells -/

section Start

variable {α : Type} {identity : Identity} {machine : Machine} {session : Session}
  {before : List Note}

/-- Wherever the attempt `x` stops, what was told before and by it is a beginning of all that a
start has to tell, and if it succeeds it is all of that. -/
def Tells (machine : Machine) (before : List Note) (x : Attempt Session interface Unit)
    (session : Session) : Prop :=
  ∀ ⦃exchanges last result⦄, Attempt.Run x session exchanges last result →
    last.identity = session.identity ∧
      before ++ trail session.identity exchanges <+: milestones machine.connectivity last ∧
      (result = .ok () →
        before ++ trail session.identity exchanges = milestones machine.connectivity last)

/-- Going on after a step that tells nothing and leaves the session alone: it only `Observes`. -/
theorem tells_bind_of_observes {x : Attempt Session interface α}
    {f : α → Attempt Session interface Unit}
    (hx : Attempt.Observes (Request.Quiet session.identity) x)
    (hbefore : before <+: milestones machine.connectivity session)
    (hf : ∀ a, Tells machine before (f a) session) : Tells machine before (x >>= f) session := by
  intro exchanges last result h
  rcases Attempt.run_bind_iff.1 h with ⟨fault, hx', rfl⟩ | ⟨mid, a, first, second, hx', hrest, rfl⟩
  · obtain ⟨rfl, hquiet⟩ := Program.Run.of_observes hx' hx
    rw [trail_eq_nil hquiet, List.append_nil]
    exact ⟨rfl, hbefore, nofun⟩
  · obtain ⟨rfl, hquiet⟩ := Program.Run.of_observes hx' hx
    rw [trail_append, trail_eq_nil hquiet]
    exact hf a hrest

/-- Telling something, by `record`. -/
theorem tells_record_bind {signer : Session} {kind : Event.Kind} {details : Event.Details}
    {f : Unit → Attempt Session interface Unit} (hsigner : signer.identity = session.identity)
    (hlog : session.identity.eventLog ≠ none)
    (hf : Tells machine (before ++ [⟨kind, details⟩]) (f ()) session) :
    Tells machine before (record signer kind details >>= f) session := by
  intro exchanges last result h
  obtain ⟨_, second, rfl, hrest, rfl⟩ := (Attempt.run_bind_iff_of_ok run_record_iff).1 h
  rw [hsigner, trail_append, trail_recorded hlog, ← List.append_assoc]
  exact hf hrest

/-- Going on after a change that leaves the session its `identity`. -/
theorem tells_modify_bind {g : Session → Session} {f : PUnit → Attempt Session interface Unit}
    (hg : (g session).identity = session.identity)
    (hf : Tells machine before (f ⟨⟩) (g session)) :
    Tells machine before (modify g >>= f) session := by
  intro exchanges last result h
  rw [← hg]
  exact hf (Attempt.run_modify_bind_iff.1 h)

theorem tells_get_bind {f : Session → Attempt Session interface Unit}
    (hf : Tells machine before (f session) session) :
    Tells machine before (get >>= f) session :=
  fun _ _ _ h => hf (Attempt.run_get_bind_iff.1 h)

/-- A change of the session with which everything was told, so that its `milestones` are behind
it. -/
theorem tells_modify {g : Session → Session} (hg : (g session).identity = session.identity)
    (hbefore : before = milestones machine.connectivity (g session)) :
    Tells machine before (modify g) session := by
  intro exchanges last result h
  obtain ⟨rfl, rfl, -⟩ := Attempt.run_modify_iff.1 h
  rw [trail, List.filterMap_nil, List.append_nil]
  exact ⟨hg, hbefore ▸ List.prefix_rfl, fun _ => hbefore⟩

/-- The last thing to tell, by `record`. -/
theorem tells_record {signer : Session} {kind : Event.Kind} {details : Event.Details}
    (hsigner : signer.identity = session.identity) (hlog : session.identity.eventLog ≠ none)
    (hbefore : before ++ [⟨kind, details⟩] = milestones machine.connectivity session) :
    Tells machine before (record signer kind details) session := by
  intro exchanges last result h
  obtain ⟨rfl, rfl, -⟩ := run_record_iff.1 h
  rw [hsigner, trail_recorded hlog]
  exact ⟨rfl, hbefore ▸ List.prefix_rfl, fun _ => hbefore⟩

/-- Staging by `stage` tells nothing, and at most puts its directory into the slot. -/
theorem quiet_of_run_stage {options : Options} {last : Session} {exchanges : List Exchange}
    {result : Except Fault String}
    (h : Attempt.Run (stage machine options) session exchanges last result) :
    (∀ x ∈ exchanges, x.request.Quiet identity) ∧
      ∃ slot, last = { session with tempDirectory := slot } := by
  obtain ⟨ending, hsteps, -⟩ := Attempt.run_tryCatch_throw_iff.1 h
  rcases Attempt.run_bind_iff.1 hsteps with
    ⟨fault, hask, -⟩ | ⟨mid, directory, first, second, hask, hrest, rfl⟩
  · obtain ⟨rfl, rfl⟩ := Program.run_request_iff.1 hask
    exact ⟨List.forall_mem_singleton.2 rfl, _, rfl⟩
  · obtain ⟨rfl, rfl⟩ := Program.run_request_iff.1 hask
    rw [Attempt.run_modify_bind_iff] at hrest
    obtain ⟨rfl, hquiet⟩ : last = _ ∧ ∀ x ∈ second, x.request.Quiet identity :=
      Program.Run.of_observes hrest
        (observes_fill (fun _ _ => rfl) (fun _ => rfl) (fun _ _ => rfl) options directory)
    exact ⟨List.forall_mem_cons.2 ⟨rfl, hquiet⟩, _, rfl⟩

/-- Going on after `stage`. -/
theorem tells_stage_bind {options : Options} {f : String → Attempt Session interface Unit}
    (hf : ∀ slot path, Tells machine [] (f path) { session with tempDirectory := slot }) :
    Tells machine [] (stage machine options >>= f) session := by
  intro exchanges last result h
  rcases Attempt.run_bind_iff.1 h with
    ⟨fault, hstage, rfl⟩ | ⟨mid, path, first, second, hstage, hrest, rfl⟩
  · obtain ⟨hquiet, slot, rfl⟩ := quiet_of_run_stage hstage
    rw [trail_eq_nil hquiet]
    exact ⟨rfl, List.nil_prefix, nofun⟩
  · obtain ⟨hquiet, slot, rfl⟩ := quiet_of_run_stage hstage
    rw [trail_append, trail_eq_nil hquiet]
    exact hf slot path hrest

theorem Request.quiet_of_handles {running : Machine.Running} {request : Request}
    (h : request.Handles running) : request.Quiet identity := by
  cases request with
  | control request => exact rfl
  | _ => exact h.elim

/-- Going on with the machine of `requireMachine`, if the session has it still. -/
theorem tells_requireMachine_bind {f : Machine → Attempt Session interface Unit}
    (hmachine : ∀ held ∈ session.machine, held = machine)
    (hf : Tells machine [] (f machine) session) :
    Tells machine [] (requireMachine >>= f) session := by
  intro exchanges last result h
  cases hheld : session.machine with
  | none =>
    rcases Attempt.run_bind_iff.1 h with
      ⟨fault, hfailed, rfl⟩ | ⟨_, _, _, _, hfound, -, -⟩
    · obtain ⟨rfl, rfl, -⟩ := run_requireMachine_of_none hheld hfailed
      exact ⟨rfl, List.nil_prefix, nofun⟩
    · obtain ⟨-, -, fault, hfault⟩ := run_requireMachine_of_none hheld hfound
      exact absurd hfault nofun
  | some held =>
    obtain rfl := hmachine held hheld
    obtain ⟨_, exchanges, rfl, hacquire, rfl⟩ :=
      (Attempt.run_bind_iff_of_ok (run_requireMachine_iff hheld)).1 h
    exact hf hacquire

/-- Wherever `acquire` stops, it has told of every stage that is behind it. -/
theorem tells_acquire (surroundings : Surroundings) (hlog : session.identity.eventLog ≠ none)
    (hmachine : ∀ held ∈ session.machine, held = machine) :
    Tells machine [] (acquire surroundings) session := by
  rw [acquire]
  refine tells_requireMachine_bind hmachine ?_
  refine tells_get_bind (tells_stage_bind fun slot path => ?_)
  refine tells_record_bind rfl hlog ?_
  refine tells_bind_of_observes
    (observes_resolveInterpreter (fun _ => rfl) (fun _ => rfl) surroundings _ _)
    ⟨_, rfl⟩ fun interpreter => ?_
  refine tells_bind_of_observes (observes_launch interpreter path fun _ _ => rfl)
    ⟨_, rfl⟩ fun running => ?_
  refine tells_modify_bind rfl (tells_record_bind rfl hlog ?_)
  refine tells_bind_of_observes
    (observes_handshake (fun _ => Request.quiet_of_handles) (fun _ => rfl) (fun _ => rfl) _)
    ⟨_, rfl⟩ fun remotePort => ?_
  refine tells_modify_bind rfl (tells_record_bind rfl hlog ?_)
  refine tells_bind_of_observes ⟨rfl, fun _ => trivial⟩ ⟨_, rfl⟩ fun _ => ?_
  -- all that is left to tell is the tunnel, if the machine needs one
  cases hconnectivity : machine.connectivity with
  | direct =>
    refine tells_modify rfl ?_
    rw [hconnectivity]
    rfl
  | tunnel name =>
    refine tells_bind_of_observes ⟨rfl, fun _ => trivial⟩ ⟨_, rfl⟩ fun localPort => ?_
    refine tells_modify_bind rfl ?_
    refine tells_bind_of_observes ⟨rfl, fun _ => trivial⟩ ⟨_, rfl⟩ fun forward => ?_
    refine tells_modify_bind rfl (tells_record rfl hlog ?_)
    rw [hconnectivity]
    rfl

/-- What a start tells that finds its session as it was made: its `milestones`, and how it ended. -/
inductive StartTrail (machine : Machine) (last : Session) : Except Fault Unit → List Note → Prop
  | ready : StartTrail machine last (.ok ())
      (milestones machine.connectivity last ++ [readyNote last])
  | failed {reached : List Note} (fault : Fault) :
      reached <+: milestones machine.connectivity last →
      StartTrail machine last (.error fault) (reached ++ [failedNote fault])

theorem trail_of_announcement (hidentity : session.identity = identity)
    (hlog : identity.eventLog ≠ none) (result : Except Fault Unit) :
    trail identity (announcement session result) = [match result with
      | .ok () => readyNote session
      | .error fault => failedNote fault] := by
  subst hidentity
  rcases result with fault | ⟨⟨⟩⟩
  · exact trail_recorded hlog _ _
  · rw [announcement, trail_append, trail_recorded hlog]
    rfl

/-- A `start` tells what it reached, and how it ended. -/
theorem trail_of_run_start {surroundings : Surroundings} {last : Session}
    {exchanges : List Exchange} {result : Except Fault Unit} (hstate : session.state = .created)
    (hidentity : session.identity = identity) (hlog : identity.eventLog ≠ none)
    (hmachine : ∀ held ∈ session.machine, held = machine)
    (h : Attempt.Run (start surroundings) session exchanges last result) :
    last.identity = identity ∧ last.state ≠ .closed ∧
      StartTrail machine last result (trail identity exchanges) := by
  subst hidentity
  obtain ⟨mid, first, hacquire, rfl, hlast⟩ := announced_of_run_start hstate h
  let starting : Session := { session with state := .starting }
  have hstarting : starting.identity.eventLog ≠ none := hlog
  obtain ⟨hkept, hreached, hall⟩ := tells_acquire surroundings hstarting hmachine hacquire
  have hidentity : last.identity = session.identity := by
    rw [hlast]
    exact hkept
  have hmilestones :
      milestones machine.connectivity mid = milestones machine.connectivity last := by
    rw [hlast]
    rfl
  rw [hmilestones] at hreached hall
  rw [trail_append, trail_of_announcement hidentity hlog]
  refine ⟨hidentity, ?_, ?_⟩
  · rw [hlast]
    cases result <;> exact nofun
  · rcases result with fault | ⟨⟨⟩⟩
    · exact .failed fault hreached
    · have hfirst : trail session.identity first = milestones machine.connectivity last := hall rfl
      rw [hfirst]
      exact .ready

end Start

/-! ## What a round of closing tells -/

section Close

variable {timeout : Option Timeout} {identity : Identity} {session last : Session} {duty : Duty}
  {exchanges : List Exchange} {result : Except Fault Unit}

theorem quiet_of_asks (h : duty.Asks timeout exchanges result) :
    ∀ x ∈ exchanges, x.request.Quiet identity := by
  cases h <;> simp [Request.Quiet, Request.note?, Exchange.terminate, Exchange.communicate,
    Exchange.closeTunnel, Exchange.closeMachine, Exchange.removeDirectory]

theorem quiet_of_kills (h : duty.Kills exchanges) : ∀ x ∈ exchanges, x.request.Quiet identity := by
  cases h <;> simp [Request.Quiet, Request.note?, Exchange.kill, Exchange.report]

theorem quiet_of_passes (h : duty.Passes timeout identity exchanges) :
    ∀ x ∈ exchanges, x.request.Quiet identity := by
  cases h with
  | completed hasks => exact quiet_of_asks hasks
  | ignored hasks => exact List.forall_mem_append.2 ⟨quiet_of_asks hasks, by
      simp [Request.Quiet, Request.note?, Exchange.report]⟩

/-- A duty that `Passes` is not told of. -/
theorem trail_of_rounds {rounds : List (Duty × List Exchange)}
    (h : ∀ round ∈ rounds, round.1.Passes timeout identity round.2) :
    trail identity (rounds.flatMap Prod.snd) = [] := by
  refine trail_eq_nil fun x hx => ?_
  obtain ⟨round, hround, hx⟩ := List.mem_flatMap.1 hx
  exact quiet_of_passes (h round hround) x hx

/-- A wait that expired is told of under the name of its `step`. -/
theorem trail_of_expires (hlog : identity.eventLog ≠ none) {fault : Fault}
    (h : duty.Expires timeout identity exchanges fault) :
    trail identity exchanges = [expiryNote duty.step] := by
  cases h with
  | @expired calls kills what limit hasks hkills =>
    rw [List.append_cons, trail_append, trail_append, trail_append,
      trail_eq_nil (quiet_of_asks hasks),
      trail_eq_nil (quiet_of_kills hkills), trail_recorded hlog]
    rfl

theorem trail_of_farewell (hlog : session.identity.eventLog ≠ none) :
    trail session.identity session.farewell
      = if session.state = .closed then [] else [⟨.closed, {}⟩] := by
  rw [farewell]
  split
  · rfl
  · rw [trail_append, trail_recorded hlog]
    rfl

theorem clearedThrough_identity (session : Session) (step : Step) :
    (session.clearedThrough step).identity = session.identity := by
  cases step <;> rfl

/-- A `close` tells of the end of the session, once, or of the wait that ended the round. -/
theorem trail_of_run_close (hidentity : session.identity = identity)
    (hlog : identity.eventLog ≠ none)
    (h : Attempt.Run (close timeout) session exchanges last result) :
    (result = .ok () ∧ last = session.ended ∧ expired exchanges = [] ∧
        trail identity exchanges = if session.state = .closed then [] else [⟨.closed, {}⟩]) ∨
      ∃ step fault, result = .error fault ∧ last = session.clearedThrough step ∧
        expired exchanges = [step] ∧ trail identity exchanges = [expiryNote step] := by
  subst hidentity
  rcases teardown_of_run_close h with
    ⟨swept, hswept, rfl, rfl, rfl⟩ | ⟨duty, fault, hstopped, rfl, rfl⟩
  · obtain ⟨rounds, -, hrounds, rfl⟩ := Teardown.none_iff.1 hswept
    rw [expired_append, (books_of_rounds hrounds).2, (books_of_farewell session).2, trail_append,
      trail_of_rounds hrounds, trail_of_farewell hlog]
    exact .inl ⟨rfl, rfl, rfl, rfl⟩
  · obtain ⟨rounds, later, expiry, -, hrounds, hexpires, rfl⟩ := Teardown.some_iff.1 hstopped
    refine .inr ⟨duty.step, fault, rfl, rfl, ?_⟩
    rw [expired_append, (books_of_rounds hrounds).2, (books_of_expires hexpires).2, trail_append,
      trail_of_rounds hrounds, trail_of_expires hlog hexpires]
    exact ⟨rfl, rfl⟩

end Close

/-! ## What a history tells -/

/-- Whether a `Turn` is a round of closing that completed. -/
def Turn.isCompletion (turn : Turn) : Bool := turn.call.isClose && turn.result.isOk

/-- The start that counts: the first that finds the session `created`. -/
def admitted : Session → List Turn → Option Turn
  | _, [] => none
  | session, turn :: turns =>
    if turn.call.isClose = false ∧ session.state = .created then some turn
    else admitted turn.after turns

/-- The end of a session, if the `turns` came to one. -/
def endNotes (turns : List Turn) : List Note :=
  if turns.any Turn.isCompletion then [⟨.closed, {}⟩] else []

section Phases

variable {machine : Machine} {session last : Session} {turn : Turn} {turns : List Turn}
  {timeout : Option Timeout} {surroundings : Surroundings}

theorem trail_flatMap_cons {identity : Identity} :
    trail identity ((turn :: turns).flatMap Turn.exchanges)
      = trail identity turn.exchanges ++ trail identity (turns.flatMap Turn.exchanges) := by
  rw [List.flatMap_cons, trail_append]

theorem admitted_cons_close (hcall : turn.call = .close timeout) :
    admitted session (turn :: turns) = admitted turn.after turns := by
  rw [admitted, hcall, if_neg]
  exact fun h => absurd h.1 nofun

theorem endNotes_cons_start (hcall : turn.call = .start surroundings) :
    endNotes (turn :: turns) = endNotes turns := by
  rw [endNotes, List.any_cons, Turn.isCompletion, hcall]
  rfl

theorem endNotes_cons_close (hcall : turn.call = .close timeout) :
    endNotes (turn :: turns) = if turn.result.isOk then [⟨.closed, {}⟩] else endNotes turns := by
  rw [endNotes, List.any_cons, Turn.isCompletion, hcall]
  cases hresult : turn.result.isOk with
  | true => rfl
  | false => rfl

/-- No start counts as `admitted` any more once there was one, or once the session is closed. -/
theorem admitted_eq_none (hstate : session.state ≠ .created) (h : History session turns last) :
    admitted session turns = none := by
  induction h with
  | nil => rfl
  | @cons session last turn turns hrun _ ih =>
    rw [admitted, if_neg fun h => hstate h.2]
    refine ih ?_
    cases hcall : turn.call with
    | start surroundings =>
      rw [hcall] at hrun
      exact state_of_run_start hrun
    | close timeout =>
      rw [hcall] at hrun
      rcases (slots_of_run_close hrun).2.2.2 with hclosed | ⟨hkept, -⟩
      · rw [hclosed]
        exact nofun
      · rwa [hkept]

/-- Once a round of closing has completed, and the session is `ended`, there is nothing left to
tell. -/
theorem trail_of_ended {identity : Identity} (h : History session.ended turns last) :
    trail identity (turns.flatMap Turn.exchanges) = [] ∧ expired (closing turns) = [] ∧
      admitted session.ended turns = none := by
  have hquiet : ∀ turn ∈ turns, turn.exchanges = [] := fun turn hturn => (h.of_ended.2 turn hturn).1
  have hexchanges : turns.flatMap Turn.exchanges = [] := List.flatMap_eq_nil_iff.2 hquiet
  have hclosing : closing turns = [] :=
    List.flatMap_eq_nil_iff.2 fun turn hturn => hquiet turn (List.mem_filter.1 hturn).1
  rw [hexchanges, hclosing]
  exact ⟨rfl, rfl, admitted_eq_none nofun h⟩

/-- What does not change over the life of a `Session`. -/
structure Known (machine : Machine) (identity : Identity) (session : Session) : Prop where
  sound : Sound session
  identity : session.identity = identity
  machine : ∀ held ∈ session.machine, held = machine

theorem Known.of_run_start {identity : Identity} {exchanges : List Exchange}
    {result : Except Fault Unit} (hlog : identity.eventLog ≠ none)
    (hknown : Known machine identity session)
    (h : Attempt.Run (start surroundings) session exchanges last result) :
    Known machine identity last := by
  by_cases hcreated : session.state = .created
  · have hacquired := acquired_of_run_start hcreated (hknown.sound.tempDirectory hcreated)
      (hknown.sound.process hcreated) (hknown.sound.tunnel hcreated) h
    refine ⟨sound_of_run_start h, ?_, hacquired.machine ▸ hknown.machine⟩
    exact (trail_of_run_start hcreated hknown.identity hlog hknown.machine h).1
  · obtain ⟨-, rfl, -⟩ := run_start_of_not_created hcreated h
    exact hknown

theorem Known.of_run_close {identity : Identity} {exchanges : List Exchange}
    {result : Except Fault Unit} (hknown : Known machine identity session)
    (h : Attempt.Run (close timeout) session exchanges last result) :
    Known machine identity last := by
  refine ⟨hknown.sound.of_run_close h, ?_, ?_⟩
  · rcases last_of_run_close h with rfl | ⟨duty, -, rfl⟩
    · exact hknown.identity
    · exact (clearedThrough_identity session duty.step).trans hknown.identity
  · rcases (slots_of_run_close h).2.1 with hkept | hgiven
    · exact hkept ▸ hknown.machine
    · rw [hgiven]
      exact nofun

theorem Known.of_history {identity : Identity} (hlog : identity.eventLog ≠ none)
    (hknown : Known machine identity session) (h : History session turns last) :
    Known machine identity last := by
  induction h with
  | nil => exact hknown
  | @cons session last turn turns hrun hrest ih =>
    refine ih ?_
    cases hcall : turn.call with
    | start surroundings =>
      rw [hcall] at hrun
      exact hknown.of_run_start hlog hrun
    | close timeout =>
      rw [hcall] at hrun
      exact hknown.of_run_close hrun

/-- From its start on, a session tells of waits that expire, and of its end. -/
theorem trail_of_started {identity : Identity} (hlog : identity.eventLog ≠ none)
    (hidentity : session.identity = identity) (hcreated : session.state ≠ .created)
    (hclosed : session.state ≠ .closed) (h : History session turns last) :
    trail identity (turns.flatMap Turn.exchanges)
      = (expired (closing turns)).map expiryNote ++ endNotes turns := by
  induction h with
  | nil => rfl
  | @cons session last turn turns hrun hrest ih =>
    rw [trail_flatMap_cons]
    cases hcall : turn.call with
    | start surroundings =>
      rw [hcall] at hrun
      obtain ⟨hexchanges, hafter, -⟩ := run_start_of_not_created hcreated hrun
      rw [hafter] at ih
      rw [hexchanges, closing_cons_start hcall, endNotes_cons_start hcall]
      exact ih hidentity hcreated hclosed
    | close timeout =>
      rw [hcall] at hrun
      rw [closing_cons_close hcall, expired_append, endNotes_cons_close hcall]
      rcases trail_of_run_close hidentity hlog hrun with
        ⟨hresult, hafter, hexpired, htrail⟩ | ⟨step, fault, hresult, hafter, hexpired, htrail⟩
      · rw [hafter] at hrest
        obtain ⟨hlater, hexpired', -⟩ := trail_of_ended hrest
        rw [hresult, hexpired, htrail, if_neg hclosed, hlater, hexpired']
        rfl
      · rw [hafter, clearedThrough_identity, clearedThrough_state] at ih
        rw [hresult, hexpired, htrail, ih hidentity hcreated hclosed]
        rfl

/-- What a session tells of its start, if it has an `admitted` one. -/
def OfStart (machine : Machine) : Option Turn → List Note → Prop
  | none, notes => notes = []
  | some turn, notes => StartTrail machine turn.after turn.result notes

/-- The whole story of a session from its making on, as its `trail` tells it: before and after the
start there may be waits that expire, and then comes the end. -/
theorem trail_of_created {identity : Identity} (hlog : identity.eventLog ≠ none)
    (hknown : Known machine identity session) (hcreated : session.state = .created)
    (h : History session turns last) :
    ∃ early own late, trail identity (turns.flatMap Turn.exchanges)
        = early.map expiryNote ++ (own ++ (late.map expiryNote ++ endNotes turns)) ∧
      early ++ late = expired (closing turns) ∧ OfStart machine (admitted session turns) own := by
  induction h with
  | nil => exact ⟨[], [], [], rfl, rfl, rfl⟩
  -- the story has got to the start, to its end, or to a wait that expired before either
  | @cons session last turn turns hrun hrest ih =>
    rw [trail_flatMap_cons]
    cases hcall : turn.call with
    | start surroundings =>
      rw [hcall] at hrun
      have hstarted := state_of_run_start hrun
      obtain ⟨hidentity, hopen, hown⟩ :=
        trail_of_run_start hcreated hknown.identity hlog hknown.machine hrun
      have hlater := trail_of_started hlog hidentity hstarted hopen hrest
      refine ⟨[], trail identity turn.exchanges, expired (closing turns), ?_, ?_, ?_⟩
      · rw [hlater, endNotes_cons_start hcall]
        rfl
      · rw [closing_cons_start hcall]
        rfl
      · rw [admitted, hcall, if_pos ⟨rfl, hcreated⟩]
        exact hown
    | close timeout =>
      rw [hcall] at hrun
      have hopen : session.state ≠ .closed := by
        rw [hcreated]
        exact nofun
      have hknown' := hknown.of_run_close hrun
      rw [closing_cons_close hcall, expired_append, endNotes_cons_close hcall,
        admitted_cons_close hcall]
      rcases trail_of_run_close hknown.identity hlog hrun with
        ⟨hresult, hafter, hexpired, htrail⟩ | ⟨step, fault, hresult, hafter, hexpired, htrail⟩
      · rw [hafter] at hrest
        obtain ⟨hlater, hexpired', hnone⟩ := trail_of_ended hrest
        rw [hresult, hafter, hexpired, htrail, if_neg hopen, hlater, hexpired', hnone]
        exact ⟨[], [], [], rfl, rfl, rfl⟩
      · have hstate : turn.after.state = .created := by
          rw [hafter, clearedThrough_state, hcreated]
        obtain ⟨early, own, late, hnotes, hexpiries, hown⟩ := ih hknown' hstate
        rw [hresult, hexpired, htrail, hnotes, ← hexpiries]
        exact ⟨step :: early, own, late, rfl, rfl, hown⟩

end Phases

/-! ## Reading the story -/

/-- The kinds of what a start tells, by `StartTrail`. -/
def startKinds : List Event.Kind :=
  [.staged, .spawned, .handshake, .tunnelOpened, .ready, .startFailed]

/-- Whether a start tells this `Note`. -/
def Note.isOfStart (note : Note) : Bool := note.kind ∈ startKinds

/-- Whether this `Note` tells of a wait that expired. -/
def Note.isTimeout (note : Note) : Bool := note.kind = .teardownTimeout

/-- A trail that is well formed, and true of the `turns`. -/
structure Faithful (machine : Machine) (session : Session) (turns : List Turn)
    (notes : List Note) : Prop where
  /-- The session was `created` first of all. -/
  created : notes.head? = some ⟨.created, {}⟩
  /-- Nothing but waits that expire is told of twice. -/
  once : ∀ kind, kind ≠ .teardownTimeout → (notes.map Note.kind).count kind ≤ 1
  /-- The `admitted` start told what it reached and how it ended, and no other told anything. -/
  start : OfStart machine (admitted session turns) (notes.filter Note.isOfStart)
  /-- An exit code is told exactly of a process that failed. -/
  exitCode : ∀ details, ⟨.startFailed, details⟩ ∈ notes →
    ∃ turn fault, admitted session turns = some turn ∧ turn.result = .error fault ∧
      (details.exitCode ≠ none ↔
        ∃ argv exitCode stdout stderr, fault = .processFailed argv exitCode stdout stderr)
  /-- Nothing is told behind the end. -/
  final : ∀ note ∈ notes.dropLast, note.kind ≠ .closed
  /-- The end is told of exactly if a round of closing completed. -/
  closed : .closed ∈ notes.map Note.kind ↔
    ∃ turn ∈ turns, turn.call.isClose = true ∧ turn.result = .ok ()
  /-- There is one wait that expired for each round of closing that failed. -/
  timeouts : (notes.filter Note.isTimeout).length = turns.countP Turn.isRejection
  few : (notes.filter Note.isTimeout).length ≤ 4
  /-- No two of the timeouts are of the same `step`. -/
  reasons : ((notes.filter Note.isTimeout).map fun note => note.details.reason).Nodup
  /-- The round itself told of it, and of nothing else. -/
  rejections : ∀ turn ∈ turns, turn.isRejection = true →
    ∃ step, trail session.identity turn.exchanges = [expiryNote step]

/-- The whole story of a session, put together from its parts: the `early` and the `late` waits that
expired and what it tells of its `own` start. -/
def story (early : List Step) (own : List Note) (late : List Step) (turns : List Turn) :
    List Note :=
  ⟨.created, {}⟩ :: (early.map expiryNote ++ (own ++ (late.map expiryNote ++ endNotes turns)))

section Story

variable {machine : Machine} {session last : Session} {start : Option Turn} {turns : List Turn}
  {own : List Note} {early late : List Step}

theorem milestones_kinds (connectivity : Connectivity) (session : Session) :
    ((milestones connectivity session).map Note.kind).Sublist
      [.staged, .spawned, .handshake, .tunnelOpened] := by
  cases connectivity with
  | direct => exact List.sublist_append_left _ [Event.Kind.tunnelOpened]
  | tunnel name => exact List.Sublist.refl _

/-- What a start tells is of the `startKinds`, each told once. -/
theorem OfStart.kinds (h : OfStart machine start own) :
    (own.map Note.kind).Sublist startKinds := by
  cases start with
  | none =>
    obtain rfl := h
    exact List.nil_sublist _
  | some turn =>
    obtain ⟨call, exchanges, after, result⟩ := turn
    rcases h with _ | ⟨fault, hreached⟩
    · rw [List.map_append]
      exact (milestones_kinds _ _).append (.cons_cons _ (List.nil_sublist _))
    · rw [List.map_append]
      exact ((hreached.sublist.map _).trans (milestones_kinds _ _)).append (.cons _ (.refl _))

theorem OfStart.mem_startKinds (h : OfStart machine start own) {note : Note} (hnote : note ∈ own) :
    note.kind ∈ startKinds :=
  h.kinds.subset (List.mem_map_of_mem hnote)

theorem kind_of_mem_expiryNotes {steps : List Step} {note : Note}
    (h : note ∈ steps.map expiryNote) : note.kind = .teardownTimeout := by
  obtain ⟨step, -, rfl⟩ := List.mem_map.1 h
  rfl

theorem kind_of_mem_endNotes {note : Note} (h : note ∈ endNotes turns) : note = ⟨.closed, {}⟩ := by
  rw [endNotes] at h
  split at h
  · exact List.mem_singleton.1 h
  · exact absurd h List.not_mem_nil

theorem filter_isOfStart_story (hown : OfStart machine start own) :
    (story early own late turns).filter Note.isOfStart = own := by
  have hexpiries (steps : List Step) : (steps.map expiryNote).filter Note.isOfStart = [] := by
    refine List.filter_eq_nil_iff.2 fun note hnote => ?_
    rw [Note.isOfStart, kind_of_mem_expiryNotes hnote]
    decide
  have hends : (endNotes turns).filter Note.isOfStart = [] := by
    refine List.filter_eq_nil_iff.2 fun note hnote => ?_
    rw [kind_of_mem_endNotes hnote]
    decide
  have hall : own.filter Note.isOfStart = own :=
    List.filter_eq_self.2 fun note hnote => decide_eq_true (hown.mem_startKinds hnote)
  rw [story, List.filter_cons_of_neg (by decide), List.filter_append, List.filter_append,
    List.filter_append, hexpiries, hexpiries, hends, hall]
  exact List.append_nil own

theorem filter_isTimeout_story (hown : OfStart machine start own) :
    (story early own late turns).filter Note.isTimeout = (early ++ late).map expiryNote := by
  have hexpiries (steps : List Step) :
      (steps.map expiryNote).filter Note.isTimeout = steps.map expiryNote :=
    List.filter_eq_self.2 fun note hnote => decide_eq_true (kind_of_mem_expiryNotes hnote)
  have hends : (endNotes turns).filter Note.isTimeout = [] := by
    refine List.filter_eq_nil_iff.2 fun note hnote => ?_
    rw [kind_of_mem_endNotes hnote]
    decide
  have hnone : own.filter Note.isTimeout = [] := by
    refine List.filter_eq_nil_iff.2 fun note hnote htimeout => ?_
    have hkind := hown.mem_startKinds hnote
    rw [of_decide_eq_true htimeout] at hkind
    exact absurd hkind (by decide)
  rw [story, List.filter_cons_of_neg (by decide), List.filter_append, List.filter_append,
    List.filter_append, hexpiries, hexpiries, hends, hnone, List.append_nil, List.map_append]
  rfl

/-- Besides waits that expire, a `story` tells of things in the order of a life. -/
theorem kinds_story (hown : OfStart machine start own) :
    (((story early own late turns).map Note.kind).filter (· ≠ .teardownTimeout)).Sublist
      (.created :: (startKinds ++ [.closed])) := by
  have hexpiries (steps : List Step) :
      ((steps.map expiryNote).map Note.kind).filter (· ≠ .teardownTimeout) = [] := by
    refine List.filter_eq_nil_iff.2 fun kind hkind => ?_
    obtain ⟨note, hnote, rfl⟩ := List.mem_map.1 hkind
    rw [kind_of_mem_expiryNotes hnote]
    decide
  have hends : ((endNotes turns).map Note.kind).Sublist [.closed] := by
    rw [endNotes]
    split
    · exact List.Sublist.refl _
    · exact List.nil_sublist _
  simp only [story, List.map_cons, List.map_append]
  rw [List.filter_cons_of_pos (by decide), List.filter_append, List.filter_append,
    List.filter_append, hexpiries, hexpiries]
  exact .cons_cons _ ((List.filter_sublist.trans hown.kinds).append
    (List.filter_sublist.trans hends))

theorem once_story (hown : OfStart machine start own) {kind : Event.Kind}
    (hkind : kind ≠ .teardownTimeout) :
    ((story early own late turns).map Note.kind).count kind ≤ 1 := by
  have hnodup : (Event.Kind.created :: (startKinds ++ [.closed])).Nodup := by decide
  have hcount : (((story early own late turns).map Note.kind).filter
      (· ≠ .teardownTimeout)).count kind
        = ((story early own late turns).map Note.kind).count kind :=
    List.count_filter (decide_eq_true hkind)
  rw [← hcount]
  exact List.nodup_iff_count_le_one.1 (hnodup.sublist (kinds_story hown)) kind

/-- A `story` that comes to an end ends there. -/
theorem ends_story (hown : OfStart machine start own) :
    ∃ front, story early own late turns = front ++ endNotes turns ∧
      ∀ note ∈ front, note.kind ≠ .closed := by
  refine ⟨⟨.created, {}⟩ :: (early.map expiryNote ++ (own ++ late.map expiryNote)), ?_, ?_⟩
  · simp only [story, List.cons_append, List.append_assoc]
  · refine List.forall_mem_cons.2 ⟨nofun, List.forall_mem_append.2 ⟨fun note hnote => ?_,
      List.forall_mem_append.2 ⟨fun note hnote hclosed => ?_, fun note hnote => ?_⟩⟩⟩
    · rw [kind_of_mem_expiryNotes hnote]
      exact nofun
    · have hkind := hown.mem_startKinds hnote
      rw [hclosed] at hkind
      exact absurd hkind (by decide)
    · rw [kind_of_mem_expiryNotes hnote]
      exact nofun

theorem final_story (hown : OfStart machine start own) :
    ∀ note ∈ (story early own late turns).dropLast, note.kind ≠ .closed := by
  obtain ⟨front, hstory, hfront⟩ := ends_story hown
  intro note hnote
  rw [hstory, endNotes] at hnote
  split at hnote
  · rw [List.dropLast_concat] at hnote
    exact hfront note hnote
  · rw [List.append_nil] at hnote
    exact hfront note (List.dropLast_subset front hnote)

theorem closed_story (hown : OfStart machine start own) :
    .closed ∈ (story early own late turns).map Note.kind ↔
      ∃ turn ∈ turns, turn.call.isClose = true ∧ turn.result = .ok () := by
  obtain ⟨front, hstory, hfront⟩ := ends_story hown
  have hends : .closed ∈ (endNotes turns).map Note.kind ↔ turns.any Turn.isCompletion = true := by
    rw [endNotes]
    split
    · exact iff_of_true List.mem_cons_self ‹_›
    · exact iff_of_false List.not_mem_nil ‹_›
  have hcompleted (turn : Turn) :
      turn.isCompletion = true ↔ turn.call.isClose = true ∧ turn.result = .ok () := by
    rw [Turn.isCompletion, Bool.and_eq_true]
    refine and_congr_right fun _ => ?_
    rcases turn.result with fault | ⟨⟨⟩⟩
    · exact iff_of_false nofun nofun
    · exact iff_of_true rfl rfl
  rw [hstory, List.map_append, List.mem_append, hends, List.any_eq_true]
  simp only [hcompleted]
  refine or_iff_right fun hmem => ?_
  obtain ⟨note, hnote, hkind⟩ := List.mem_map.1 hmem
  exact hfront note hnote hkind

/-- What a failed start told of its fault in a `startFailed`. -/
theorem OfStart.of_mem_failed {details : Event.Details} (h : OfStart machine start own)
    (hmem : ⟨.startFailed, details⟩ ∈ own) :
    ∃ turn fault, start = some turn ∧ turn.result = .error fault ∧
      details.exitCode = fault.exitCode? := by
  cases start with
  | none =>
    obtain rfl := h
    exact absurd hmem List.not_mem_nil
  | some turn =>
    -- no stage of a start is called like this
    have hmilestone {notes : List Note}
        (hnotes : notes <+: milestones machine.connectivity turn.after) :
        ⟨.startFailed, details⟩ ∉ notes := fun hnote => by
      have hkind := (milestones_kinds _ _).subset (List.mem_map_of_mem (hnotes.subset hnote))
      exact absurd hkind (by simp)
    obtain ⟨call, exchanges, after, result⟩ := turn
    rcases h with _ | ⟨fault, hreached⟩
    · rcases List.mem_append.1 hmem with hmem | hmem
      · exact absurd hmem (hmilestone List.prefix_rfl)
      · exact absurd (List.mem_singleton.1 hmem) nofun
    · rcases List.mem_append.1 hmem with hmem | hmem
      · exact absurd hmem (hmilestone hreached)
      · refine ⟨_, fault, rfl, rfl, ?_⟩
        rw [show details = (failedNote fault).details from
          congrArg Note.details (List.mem_singleton.1 hmem)]
        rfl

end Story

theorem Step.label_injective : Function.Injective Step.label := by
  intro step step' h
  cases step <;> cases step' <;> first | rfl | exact absurd h (by decide)

/-- **The trail of a session is well formed and tells the truth: it is `Faithful`.** -/
theorem trail_over_history {σ : Type} {machine : Machine} {input : Options.Input} {s s' : σ}
    {setup : List Exchange} {session last : Session} {turns : List Turn}
    (hcreate : Attempt.Run (create machine input : Attempt σ interface Session) s setup s'
      (.ok session))
    (hlog : session.options.eventLog ≠ none) (hhistory : History session turns last) :
    Faithful machine session turns
      (trail session.identity (setup ++ turns.flatMap Turn.exchanges)) := by
  have hsigns : session.identity.eventLog ≠ none := hlog
  obtain ⟨hcreated, hmachine, hdirectory, hprocess, htunnel⟩ := created_of_run_create hcreate
  have hknown : Known machine session.identity session := by
    refine ⟨⟨fun _ => hprocess, fun _ => htunnel, fun _ => hdirectory⟩, rfl, ?_⟩
    rw [hmachine]
    exact fun held hheld => (Option.some.inj hheld).symm
  have hsetup : trail session.identity setup = [⟨.created, {}⟩] := by
    obtain ⟨-, ⟨_, -, -, hfault⟩ | ⟨options, id, -, rfl, hsession⟩⟩ := run_create_iff.1 hcreate
    · exact absurd hfault nofun
    · obtain rfl := Except.ok.inj hsession
      exact trail_recorded hsigns _ _
  obtain ⟨early, own, late, hnotes, hexpiries, hown⟩ :=
    trail_of_created hsigns hknown hcreated hhistory
  have hstory : trail session.identity (setup ++ turns.flatMap Turn.exchanges)
      = story early own late turns := by
    rw [trail_append, hsetup, hnotes]
    rfl
  obtain ⟨hnodup, hfew⟩ := hhistory.of_sound hknown.sound
  obtain ⟨hsublist, hlength⟩ := hhistory.expired_sublist
  have htimeouts : ((early ++ late).map expiryNote).length = turns.countP Turn.isRejection := by
    rw [List.length_map, hexpiries, hlength]
  rw [hstory]
  refine
    { created := rfl
      once := fun _ => once_story hown
      start := (filter_isOfStart_story hown).symm ▸ hown
      exitCode := fun details hmem => ?_
      final := final_story hown
      closed := closed_story hown
      timeouts := (filter_isTimeout_story hown).symm ▸ htimeouts
      few := ?_
      reasons := ?_
      rejections := fun turn hturn hrejection => ?_ }
  · have hmem' : ⟨.startFailed, details⟩ ∈ own := by
      rw [← filter_isOfStart_story hown]
      exact List.mem_filter.2 ⟨hmem, rfl⟩
    obtain ⟨turn, fault, hturn, hresult, hexit⟩ := hown.of_mem_failed hmem'
    exact ⟨turn, fault, hturn, hresult, hexit ▸ Fault.exitCode?_ne_none_iff⟩
  · rw [filter_isTimeout_story hown, htimeouts]
    exact hfew
  · rw [filter_isTimeout_story hown, hexpiries, List.map_map]
    refine List.Nodup.map (fun step step' h => ?_) (hnodup.sublist hsublist)
    exact Step.label_injective (Option.some.inj h)
  · obtain ⟨before, later, rfl⟩ := List.append_of_mem hturn
    obtain ⟨mid, hbefore, hrest⟩ := hhistory.of_append
    have hmid := hknown.of_history hsigns hbefore
    cases hrest with
    | cons hrun hlater =>
      obtain ⟨call, exchanges, after, result⟩ := turn
      cases call with
      | start surroundings => exact absurd hrejection nofun
      | close timeout =>
        rcases trail_of_run_close hmid.identity hsigns hrun with
          ⟨rfl, -⟩ | ⟨step, fault, -, -, -, htrail⟩
        · exact absurd hrejection nofun
        · exact ⟨step, htrail⟩

/-- A session as `brief`, with an event log. -/
def audited : Session :=
  { brief with options := { brief.options with eventLog := some "/var/log/outpost.jsonl" } }

/-- What its user said about it. -/
def auditedInput : Options.Input :=
  .fields [("serverScript", .json (.ofGiven brief.options.serverScript)),
    ("interpreter", .command (some (.array [.string "node"]))),
    ("eventLog", .eventLog "/var/log/outpost.jsonl")]

theorem audited_eventLog : audited.identity.eventLog ≠ none := Option.some_ne_none _

/-- Whether there is an event log makes no difference to the script. -/
theorem script_with_eventLog (options : Options) (eventLog : Option String) :
    script { options with eventLog } = script options := rfl

theorem run_create_audited {σ : Type} (s : σ) :
    Attempt.Run (create ⟨none, .direct⟩ auditedInput : Attempt σ interface Session) s
      (⟨.freshId, "d-1"⟩ :: audited.identity.recorded .created) s (.ok audited) := by
  have hoptions : Options.resolve auditedInput = .ok audited.options := by
    simp [Options.resolve, Options.check, Options.resolveFields, Options.withDefault,
      Options.optional, Options.find?, Options.also, Options.checkFilled, Options.checkText,
      Options.checkInterpreter, Options.checkEventLog, Options.Value.string?, Json.ofGiven,
      Except.map, sample, brief, audited, auditedInput]
  exact run_create_iff.2 ⟨rfl, .inr ⟨_, "d-1", hoptions, rfl, rfl⟩⟩

/-- The session once its script could not be launched. -/
def auditedFailed : Session :=
  { audited with tempDirectory := some ⟨"/tmp/d-1"⟩, state := .failed }

/-- A start that has put its script in place but cannot launch it. -/
theorem run_start_audited : ∃ exchanges fault,
    Attempt.Run (start ⟨"20.11.1", none⟩) audited exchanges auditedFailed (.error fault) ∧
      trail audited.identity exchanges = [⟨.staged, {}⟩, failedNote fault] := by
  obtain ⟨text, hbrief⟩ := exists_script_brief
  have hscript : script audited.options = .ok text := (script_with_eventLog _ _).trans hbrief
  let starting : Session := { audited with state := .starting }
  let staged : Session := { starting with tempDirectory := some ⟨"/tmp/d-1"⟩ }
  let refusal : Fault := .ofMessage "spawn node EAGAIN"
  let fault : Fault := .processFailed [.string "node", .string "/tmp/d-1/deployed-server.mjs"] .null
    [] (Text.encodeUtf8 refusal.message)
  let launching : List Exchange :=
    [⟨.machine (.spawn (.given [.string "node"]) [.string "/tmp/d-1/deployed-server.mjs"]
      .ownSession), .error refusal⟩]
  let acquiring : List Exchange :=
    staging audited.options text ++ (audited.identity.recorded .staged ++ launching)
  have hstage : Attempt.Run (stage ⟨none, .direct⟩ audited.options) starting
      (staging audited.options text) staged (.ok "/tmp/d-1/deployed-server.mjs") :=
    run_stage_of_script _ starting hscript
  have hlaunch : Attempt.Run (launch (.given [.string "node"]) "/tmp/d-1/deployed-server.mjs")
      staged launching staged (.error fault) :=
    Attempt.run_tryCatch_throw_iff.2 ⟨.error refusal, Program.run_request_iff.2 ⟨rfl, rfl⟩, rfl⟩
  have hacquire : Attempt.Run (acquire ⟨"20.11.1", none⟩) starting acquiring staged
      (.error fault) := by
    refine .read (.read (Attempt.run_bind_iff.2 (.inr ⟨staged, _, _, _, hstage, ?_, rfl⟩)))
    refine (Attempt.run_bind_iff_of_ok run_record_iff).2 ⟨_, launching, rfl, ?_, rfl⟩
    refine Attempt.run_bind_iff.2 (.inr ⟨staged, _, [], launching, .done _ _, ?_, rfl⟩)
    exact Attempt.run_bind_iff.2 (.inl ⟨fault, hlaunch, rfl⟩)
  refine ⟨acquiring ++ announcement auditedFailed (.error fault), fault, ?_, ?_⟩
  · have hcreated : ¬ audited.state ≠ .created := not_not_intro rfl
    rw [start, Attempt.run_get_bind_iff, if_neg hcreated, Attempt.run_set_bind_iff]
    refine Attempt.run_bind_iff.2 (.inl ⟨fault, Attempt.run_tryCatch_iff.2 (.inr ?_), rfl⟩)
    exact ⟨staged, fault, _, _, hacquire, run_fail_iff.2 ⟨rfl, rfl, rfl⟩, rfl⟩
  · have hidentity : auditedFailed.identity = audited.identity := rfl
    rw [trail_append, trail_append, trail_append, trail_recorded audited_eventLog,
      trail_of_announcement hidentity audited_eventLog]
    rfl

/-- A start whose script cannot be launched, a round of closing that has to give up the connection
to the machine, and one that completes. -/
theorem trail_after_failed_launch :
    ∃ (setup : List Exchange) (turns : List Turn) (last : Session),
      Attempt.Run (create ⟨none, .direct⟩ auditedInput : Attempt Unit interface Session) () setup ()
        (.ok audited) ∧
      audited.options.eventLog ≠ none ∧ History audited turns last ∧
      turns.map (fun turn => (turn.call.isClose, turn.result.isOk))
        = [(false, false), (true, false), (true, true)] ∧
      (trail audited.identity (setup ++ turns.flatMap Turn.exchanges)).map Note.kind
        = [.created, .staged, .startFailed, .teardownTimeout, .closed] ∧
      Faithful ⟨none, .direct⟩ audited turns
        (trail audited.identity (setup ++ turns.flatMap Turn.exchanges)) := by
  let given : Session := auditedFailed.clearedThrough .machineSession
  obtain ⟨first, fault, hstart, hstarted⟩ := run_start_audited
  obtain ⟨second, hstuck⟩ : ∃ exchanges, Attempt.Run (close none) auditedFailed exchanges given
      (.error (.timedOut "ssh" (.ofNat 100))) :=
    (exists_stuck_round rfl rfl (Option.some_ne_none _)).imp fun _ => And.left
  obtain ⟨third, hclose, -⟩ := exists_completed_round none given
  have hexpiry : ∃ step, trail audited.identity second = [expiryNote step] := by
    have hidentity : auditedFailed.identity = audited.identity := rfl
    rcases trail_of_run_close hidentity audited_eventLog hstuck with
      ⟨hok, -⟩ | ⟨step, _, -, -, -, htrail⟩
    · exact absurd hok nofun
    · exact ⟨step, htrail⟩
  have hend : trail audited.identity third = [⟨.closed, {}⟩] := by
    have hidentity : given.identity = audited.identity := rfl
    rcases trail_of_run_close hidentity audited_eventLog hclose with
      ⟨-, -, -, htrail⟩ | ⟨_, _, herror, -⟩
    · exact htrail
    · exact absurd herror nofun
  obtain ⟨step, hexpiry⟩ := hexpiry
  let turns : List Turn :=
    [⟨.start ⟨"20.11.1", none⟩, first, auditedFailed, .error fault⟩,
      ⟨.close none, second, given, .error (.timedOut "ssh" (.ofNat 100))⟩,
      ⟨.close none, third, given.ended, .ok ()⟩]
  have hhistory : History audited turns given.ended :=
    .cons hstart (.cons hstuck (.cons hclose (.nil _)))
  refine ⟨_, turns, _, run_create_audited (), audited_eventLog, hhistory, rfl, ?_,
    trail_over_history (run_create_audited ()) audited_eventLog hhistory⟩
  have hturns : trail audited.identity (turns.flatMap Turn.exchanges)
      = [⟨.staged, {}⟩, failedNote fault, expiryNote step, ⟨.closed, {}⟩] := by
    simp only [turns, trail_flatMap_cons, hstarted, hexpiry, hend]
    rfl
  rw [trail_append, hturns]
  rfl

end Session

end Outpost

import Outpost.Proofs.Session.Teardown
import Outpost.Session.Start

/-!
# What a start acquires

A start may stop after any of its steps. Wherever it stops, what it obtained from the machine is in
the slots of the session, in the slot that it belongs to, and nothing else is. So the slots are a
record of the replies that the start got, and there is at most one of each kind.

Most steps of a start obtain nothing that has to be released. They never touch the session, which is
read off their shape (`Attempt.Observes`) without a look at their runs.

## Contents

* `madeDirectories`, `spawnedProcesses`, `openedTunnels`: what some exchanges obtained.
* `Acquired`: the slots of a session as a record of exchanges.
* `run_start_of_not_created`, `announced_of_run_start`: the two ways through a start.
* `acquired_of_run_start`, `run_start_of_machine_none`.
-/

namespace Outpost

namespace Session

/-! ## What exchanges obtain -/

namespace Exchange

/-- The temporary directory that an `Exchange` made. -/
def directory? : Exchange → Option Machine.Directory
  | ⟨.machine .tempDirectory, reply⟩ => (reply : Except Fault Machine.Directory).toOption
  | _ => none

/-- The process that an `Exchange` launched. -/
def process? : Exchange → Option Machine.Running
  | ⟨.machine (.spawn ..), reply⟩ => (reply : Except Fault Machine.Running).toOption
  | _ => none

/-- The tunnel that an `Exchange` opened. -/
def tunnel? : Exchange → Option Machine.Forward
  | ⟨.machine (.openTunnel ..), reply⟩ => (reply : Except Fault Machine.Forward).toOption
  | _ => none

end Exchange

/-- The temporary directories that were made, in their order. -/
def madeDirectories (exchanges : List Exchange) : List Machine.Directory :=
  exchanges.filterMap Exchange.directory?

/-- The processes that were launched, in their order. -/
def spawnedProcesses (exchanges : List Exchange) : List Machine.Running :=
  exchanges.filterMap Exchange.process?

/-- The tunnels that were opened, in their order. -/
def openedTunnels (exchanges : List Exchange) : List Machine.Forward :=
  exchanges.filterMap Exchange.tunnel?

/-- A `Request` whose reply hands out nothing that has to be released. -/
def Request.Plain : Request → Prop
  | .machine .tempDirectory | .machine (.spawn ..) | .machine (.openTunnel ..) => False
  | _ => True

/-- A `Request` to the machine, or to something that runs on it. -/
def Request.IsRemote : Request → Prop
  | .machine _ | .control _ => True
  | _ => False

/-- A `Request` by which a process is stopped, waited for or looked at. -/
def Request.Handles (running : Machine.Running) : Request → Prop
  | .control (.terminate (.process target)) | .control (.kill (.process target)) => target = running
  | .control (.communicate (.process target) _) => target = running
  | .control (.exitCode target) | .control (.consumedOutput target) => target = running
  | _ => False

theorem Request.plain_of_handles {running : Machine.Running} {request : Request}
    (h : request.Handles running) : request.Plain := by
  cases request with
  | control request => exact trivial
  | _ => exact h.elim

/-- A `Request` that only tells something: an entry in the event log, or a line on the console. -/
def Request.isNote : Request → Bool
  | .report _ | .record .. => true
  | _ => false

theorem Request.not_isRemote_of_isNote {request : Request} (h : request.isNote = true) :
    ¬ request.IsRemote := by
  cases request with
  | report | record => exact not_false
  | _ => exact absurd h Bool.false_ne_true

theorem Request.plain_of_not_isRemote {request : Request} (h : ¬ request.IsRemote) :
    request.Plain := by
  cases request with
  | machine request => exact absurd trivial h
  | _ => exact trivial

theorem Exchange.none_of_plain {exchange : Exchange} (h : Request.Plain exchange.request) :
    exchange.directory? = none ∧ exchange.process? = none ∧ exchange.tunnel? = none := by
  obtain ⟨request, reply⟩ := exchange
  cases request with
  | machine request =>
    cases request with
    | tempDirectory | spawn | openTunnel => exact h.elim
    | _ => exact ⟨rfl, rfl, rfl⟩
  | _ => exact ⟨rfl, rfl, rfl⟩

/-- What some `exchanges` obtained is in the slots of the session, behind what was there. -/
structure Acquired (session : Session) (exchanges : List Exchange) (last : Session) : Prop where
  directory : last.tempDirectory.toList
    = session.tempDirectory.toList ++ madeDirectories exchanges
  process : last.process.toList = session.process.toList ++ spawnedProcesses exchanges
  tunnel : last.tunnel.toList = session.tunnel.toList ++ openedTunnels exchanges
  machine : last.machine = session.machine

namespace Acquired

variable {session mid last : Session} {exchanges first second : List Exchange}

/-- Exchanges that obtain nothing, each `Plain`, while no slot changes. -/
theorem plain (h : ∀ x ∈ exchanges, Request.Plain x.request)
    (hdirectory : last.tempDirectory = session.tempDirectory)
    (hprocess : last.process = session.process) (htunnel : last.tunnel = session.tunnel)
    (hmachine : last.machine = session.machine) : Acquired session exchanges last where
  directory := by
    have hnone : madeDirectories exchanges = [] :=
      List.filterMap_eq_nil_iff.2 fun x hx => (Exchange.none_of_plain (h x hx)).1
    rw [hnone, hdirectory, List.append_nil]
  process := by
    have hnone : spawnedProcesses exchanges = [] :=
      List.filterMap_eq_nil_iff.2 fun x hx => (Exchange.none_of_plain (h x hx)).2.1
    rw [hnone, hprocess, List.append_nil]
  tunnel := by
    have hnone : openedTunnels exchanges = [] :=
      List.filterMap_eq_nil_iff.2 fun x hx => (Exchange.none_of_plain (h x hx)).2.2
    rw [hnone, htunnel, List.append_nil]
  machine := hmachine

theorem trans (h : Acquired session first mid) (h' : Acquired mid second last) :
    Acquired session (first ++ second) last where
  directory := by
    rw [h'.directory, h.directory, madeDirectories, madeDirectories, madeDirectories,
      List.filterMap_append, List.append_assoc]
  process := by
    rw [h'.process, h.process, spawnedProcesses, spawnedProcesses, spawnedProcesses,
      List.filterMap_append, List.append_assoc]
  tunnel := by
    rw [h'.tunnel, h.tunnel, openedTunnels, openedTunnels, openedTunnels, List.filterMap_append,
      List.append_assoc]
  machine := h'.machine.trans h.machine

end Acquired

/-! ## Steps that obtain nothing -/

section Plain

variable {σ : Type}

theorem observes_record {allowed : Request → Prop} (signer : Session) (kind : Event.Kind)
    (details : Event.Details)
    (h : ∀ log id machine kind details, allowed (.record log id machine kind details)) :
    Attempt.Observes allowed (record signer kind details : Attempt σ interface Unit) := by
  rw [record]
  split
  · exact Attempt.observes_pure ()
  · exact Attempt.observes_lift_ask (h _ _ _ _ _)

theorem observes_requireMachine {allowed : Request → Prop} :
    Attempt.Observes allowed requireMachine := by
  refine Attempt.observes_bind Attempt.observes_get fun session => ?_
  split
  · exact Attempt.observes_pure _
  · exact Attempt.observes_throw _

/-- Filling the directory, once there is one, leaves the session alone. -/
theorem observes_fill {allowed : Request → Prop}
    (hupload : ∀ source destination, allowed (.machine (.upload source destination)))
    (hjoinPath : ∀ parts, allowed (.machine (.joinPath parts)))
    (hwriteFile : ∀ path content, allowed (.machine (.writeFile path content)))
    (options : Options) (directory : Machine.Directory) : Attempt.Observes allowed (do
      Ask.upload options.codeDirectory.shown directory.path
      let text ← Attempt.ofExcept (script options)
      let path ← Ask.joinPath [directory.path, Settings.scriptName]
      Ask.writeFile path text
      return path : Attempt Session interface String) := by
  refine Attempt.observes_bind ⟨hupload _ _, fun _ => trivial⟩ fun _ => ?_
  refine Attempt.observes_bind trivial fun text => ?_
  refine Attempt.observes_bind ⟨hjoinPath _, fun _ => trivial⟩ fun path => ?_
  refine Attempt.observes_bind ⟨hwriteFile _ _, fun _ => trivial⟩ fun _ => ?_
  exact Attempt.observes_pure path

section Search

variable {allowed : Request → Prop} (hwhich : ∀ name, allowed (.machine (.which name)))
  (hreport : ∀ line, allowed (.report line))
include hwhich hreport

/-- The search by `firstFound` for an interpreter asks for names until the machine has one. -/
theorem observes_firstFound (machine : Option Json) (names : List String) :
    Attempt.Observes allowed
      (firstFound machine names : Attempt σ interface (Option Machine.Command)) := by
  -- one request for each name, so the induction is on the names that are left
  induction names with
  | nil => exact Attempt.observes_pure none
  | cons name rest ih =>
    refine Attempt.observes_outcome_bind ⟨hwhich name, fun _ => trivial⟩ fun ending => ?_
    split
    · refine Attempt.observes_bind (Attempt.observes_lift_ask (hreport _)) fun _ => ?_
      exact Attempt.observes_pure _
    · exact Attempt.observes_bind (Attempt.observes_lift_ask (hreport _)) fun _ => ih
    · exact Attempt.observes_throw _

theorem observes_resolveInterpreter (surroundings : Surroundings) (machine : Option Json)
    (choice : Option InterpreterChoice) :
    Attempt.Observes allowed
      (resolveInterpreter surroundings machine choice : Attempt σ interface Machine.Command) := by
  unfold resolveInterpreter
  extract_lets candidates search select
  have hsearch : Attempt.Observes allowed search := by
    refine Attempt.observes_bind (observes_firstFound hwhich hreport machine candidates)
      fun found => ?_
    cases found with
    | none => exact Attempt.observes_throw _
    | some command => exact Attempt.observes_pure command
  have hselect (selector : String) : Attempt.Observes allowed (select selector) := by
    dsimp only [select]
    split
    -- a selector that is the empty text counts as none
    · exact hsearch
    · exact ⟨hwhich selector, fun _ => trivial⟩
  split
  · exact Attempt.observes_pure _
  · exact hselect _
  · split
    · exact hselect _
    · exact hsearch

end Search

section Handshake

variable {allowed : Request → Prop} {running : Machine.Running}
  (hhandles : ∀ request : Request, request.Handles running → allowed request)
  (hreport : ∀ line, allowed (.report line))
include hhandles hreport

/-- A process without a port is stopped, waited for and looked at. -/
theorem observes_stopAndReport (session : Session) : Attempt.Observes allowed (do
    match ← ExceptT.lift (Ask.terminate (.process running)).outcome with
    | .ok () => pure ()
    | .error fault => report .debug ("Terminate after failed handshake: " ++ fault.message)
    let rest ← drain session running
    let exitCode ← Ask.exitCode running
    let consumed ← Ask.consumedOutput running
    throw (.processFailed running.argv exitCode (consumed ++ rest.stdout) rest.stderr)
      : Attempt Session interface Nat) := by
  have hdrain : Attempt.Observes allowed (drain session running) := by
    refine Attempt.observes_outcome_bind ⟨hhandles _ rfl, fun _ => trivial⟩ fun ending => ?_
    split
    · exact Attempt.observes_pure _
    · split
      · refine Attempt.observes_bind ⟨hhandles _ rfl, fun _ => trivial⟩ fun _ => ?_
        exact ⟨hhandles _ rfl, fun _ => trivial⟩
      · exact Attempt.observes_throw _
  have hrest : Attempt.Observes allowed (do
      let rest ← drain session running
      let exitCode ← Ask.exitCode running
      let consumed ← Ask.consumedOutput running
      throw (.processFailed running.argv exitCode (consumed ++ rest.stdout) rest.stderr)
        : Attempt Session interface Nat) := by
    refine Attempt.observes_bind hdrain fun rest => ?_
    refine Attempt.observes_bind (Attempt.observes_lift_ask (hhandles _ rfl)) fun exitCode => ?_
    refine Attempt.observes_bind (Attempt.observes_lift_ask (hhandles _ rfl)) fun consumed => ?_
    exact Attempt.observes_throw _
  refine Attempt.observes_outcome_bind ⟨hhandles _ rfl, fun _ => trivial⟩ fun ending => ?_
  split
  · exact hrest
  · exact Attempt.observes_bind (Attempt.observes_lift_ask (hreport _)) fun _ => hrest

/-- Whatever becomes of the `handshake`, it only talks to the process. -/
theorem observes_handshake (hread : ∀ limit, allowed (.control (.readLine running limit)))
    (session : Session) : Attempt.Observes allowed (handshake session running) := by
  have hreadPort : Attempt.Observes allowed (readPort session running) := by
    refine Attempt.observes_bind ⟨hread _, fun _ => trivial⟩ fun line => ?_
    split
    · exact Attempt.observes_pure _
    · refine Attempt.observes_bind (Attempt.observes_lift_ask (hreport _)) fun _ => ?_
      exact Attempt.observes_pure _
    · refine Attempt.observes_bind (Attempt.observes_lift_ask (hreport _)) fun _ => ?_
      exact Attempt.observes_pure _
  refine Attempt.observes_bind hreadPort fun port => ?_
  split
  · exact Attempt.observes_pure _
  · exact observes_stopAndReport hhandles hreport session

end Handshake

end Plain

/-! ## Attempts and what they obtain -/

/-- Wherever the attempt `x` stops, what it obtained is in the slots. -/
def Acquires {α : Type} (x : Attempt Session interface α) (session : Session) : Prop :=
  ∀ ⦃exchanges : List Exchange⦄ ⦃last : Session⦄ ⦃result : Except Fault α⦄,
    Attempt.Run x session exchanges last result → Acquired session exchanges last

section Acquires

variable {α β : Type} {session : Session}

theorem acquires_of_observes {x : Attempt Session interface α}
    (hx : Attempt.Observes Request.Plain x) : Acquires x session := by
  intro exchanges last result h
  obtain ⟨rfl, hplain⟩ := Program.Run.of_observes h hx
  exact .plain hplain rfl rfl rfl rfl

/-- One attempt after another `Acquires`, where what the first obtained depends on the state it
left. -/
theorem acquires_bind {x : Attempt Session interface α} {f : α → Attempt Session interface β}
    (hx : Acquires x session)
    (hf : ∀ {mid a exchanges}, Attempt.Run x session exchanges mid (.ok a) → Acquires (f a) mid) :
    Acquires (x >>= f) session := by
  intro exchanges last result h
  rcases Attempt.run_bind_iff.1 h with ⟨fault, hfirst, -⟩ | ⟨mid, a, first, second, h₁, h₂, rfl⟩
  · exact hx hfirst
  · exact (hx h₁).trans (hf h₁ h₂)

/-- Going on after a step that obtains nothing: it only makes `Plain` requests. -/
theorem acquires_bind_of_observes {x : Attempt Session interface α}
    {f : α → Attempt Session interface β} (hx : Attempt.Observes Request.Plain x)
    (hf : ∀ a, Acquires (f a) session) : Acquires (x >>= f) session := by
  refine acquires_bind (acquires_of_observes hx) fun {mid a exchanges} h => ?_
  obtain ⟨rfl, -⟩ := Program.Run.of_observes h hx
  exact hf a

/-- Going on after a change of the session by `modify` that no slot takes part in. -/
theorem acquires_modify_bind {g : Session → Session} {f : PUnit → Attempt Session interface β}
    (hg : Acquired session [] (g session)) (hf : Acquires (f ⟨⟩) (g session)) :
    Acquires (modify g >>= f) session := by
  intro exchanges last result h
  exact hg.trans (hf (Attempt.run_modify_bind_iff.1 h))

end Acquires

/-! ## Steps that obtain something -/

section Steps

variable {session last : Session} {exchanges : List Exchange}

theorem acquired_directory (hnone : session.tempDirectory = none) (directory : Machine.Directory) :
    Acquired session [⟨.machine .tempDirectory, .ok directory⟩]
      { session with tempDirectory := some directory } where
  directory := by
    rw [hnone]
    rfl
  process := (List.append_nil _).symm
  tunnel := (List.append_nil _).symm
  machine := rfl

theorem acquired_process (hnone : session.process = none) (running : Machine.Running)
    {command : Machine.Command} {arguments : List Json} {options : Machine.SpawnOptions} :
    Acquired session [⟨.machine (.spawn command arguments options), .ok running⟩]
      { session with process := some running } where
  directory := (List.append_nil _).symm
  process := by
    rw [hnone]
    rfl
  tunnel := (List.append_nil _).symm
  machine := rfl

theorem acquired_tunnel (hnone : session.tunnel = none) (forward : Machine.Forward)
    {localPort remotePort : Port} :
    Acquired session [⟨.machine (.openTunnel localPort remotePort), .ok forward⟩]
      { session with tunnel := some forward } where
  directory := (List.append_nil _).symm
  process := (List.append_nil _).symm
  tunnel := by
    rw [hnone]
    rfl
  machine := rfl

/-- A `stage` obtains at most the directory, which is in its slot before anything is put into it. -/
theorem run_stage {machine : Machine} {options : Options} {result : Except Fault String}
    (hnone : session.tempDirectory = none)
    (h : Attempt.Run (stage machine options) session exchanges last result) :
    Acquired session exchanges last ∧ last.process = session.process ∧
      last.tunnel = session.tunnel := by
  obtain ⟨ending, hsteps, -⟩ := Attempt.run_tryCatch_throw_iff.1 h
  rcases Attempt.run_bind_iff.1 hsteps with
    ⟨fault, hask, -⟩ | ⟨mid, directory, first, second, hask, hrest, rfl⟩
  · obtain ⟨rfl, rfl⟩ := Program.run_request_iff.1 hask
    refine ⟨⟨?_, ?_, ?_, rfl⟩, rfl, rfl⟩ <;> exact (List.append_nil _).symm
  · obtain ⟨rfl, rfl⟩ := Program.run_request_iff.1 hask
    rw [Attempt.run_modify_bind_iff] at hrest
    -- what comes behind the directory only fills it, and that is nothing to be released
    obtain ⟨rfl, hplain⟩ : last = _ ∧ ∀ x ∈ second, Request.Plain x.request :=
      Program.Run.of_observes hrest (observes_fill (fun _ _ => trivial) (fun _ => trivial)
        (fun _ _ => trivial) options directory)
    refine ⟨(acquired_directory hnone directory).trans ?_, rfl, rfl⟩
    exact .plain hplain rfl rfl rfl rfl

/-- A `process` is in its slot before anything else is done with it. -/
theorem acquires_launch_bind {interpreter : Machine.Command} {path : String}
    {rest : Machine.Running → Attempt Session interface Unit} (hnone : session.process = none)
    (hrest : ∀ running, Acquires (rest running) { session with process := some running }) :
    Acquires (do
      let running ← launch interpreter path
      modify fun session => { session with process := some running }
      rest running) session := by
  intro exchanges last result h
  rcases Attempt.run_bind_iff.1 h with
    ⟨fault, hlaunch, -⟩ | ⟨mid, running, first, second, hlaunch, hrun, rfl⟩
  · obtain ⟨cause | running, hspawn, hending⟩ := Attempt.run_tryCatch_throw_iff.1 hlaunch
    · obtain ⟨rfl, rfl⟩ := Program.run_request_iff.1 hspawn
      refine ⟨?_, ?_, ?_, rfl⟩ <;> exact (List.append_nil _).symm
    · exact absurd hending nofun
  · obtain ⟨cause | running', hspawn, hending⟩ := Attempt.run_tryCatch_throw_iff.1 hlaunch
    · exact absurd hending nofun
    · obtain rfl := Except.ok.inj hending
      obtain ⟨rfl, rfl⟩ := Program.run_request_iff.1 hspawn
      exact (acquired_process hnone running).trans
        (hrest running (Attempt.run_modify_bind_iff.1 hrun))

/-- A `tunnel` is in its slot before anything else is done with it. -/
theorem acquires_openTunnel_bind {localPort remotePort : Nat}
    {rest : Machine.Forward → Attempt Session interface Unit} (hnone : session.tunnel = none)
    (hrest : ∀ forward, Acquires (rest forward) { session with tunnel := some forward }) :
    Acquires (do
      let forward ← Ask.openTunnel localPort remotePort
      modify fun session => { session with tunnel := some forward }
      rest forward) session := by
  intro exchanges last result h
  rcases Attempt.run_bind_iff.1 h with
    ⟨fault, hask, -⟩ | ⟨mid, forward, first, second, hask, hrun, rfl⟩
  · obtain ⟨rfl, rfl⟩ := Program.run_request_iff.1 hask
    refine ⟨?_, ?_, ?_, rfl⟩ <;> exact (List.append_nil _).symm
  · obtain ⟨rfl, rfl⟩ := Program.run_request_iff.1 hask
    exact (acquired_tunnel hnone forward).trans
      (hrest forward (Attempt.run_modify_bind_iff.1 hrun))

/-- Wherever `acquire` stops, the slots hold what was obtained. -/
theorem acquires_acquire (surroundings : Surroundings) (session : Session)
    (hdirectory : session.tempDirectory = none) (hprocess : session.process = none)
    (htunnel : session.tunnel = none) :
    Acquires (acquire surroundings) session := by
  have hrecord (signer : Session) (kind : Event.Kind) (details : Event.Details) :
      Attempt.Observes Request.Plain
        (record signer kind details : Attempt Session interface Unit) :=
    observes_record signer kind details fun _ _ _ _ _ => trivial
  have hresolve (known : Option Json) (choice : Option InterpreterChoice) :
      Attempt.Observes Request.Plain (resolveInterpreter surroundings known choice
        : Attempt Session interface Machine.Command) :=
    observes_resolveInterpreter (fun _ => trivial) (fun _ => trivial) surroundings known choice
  have hhandshake (known : Session) (running : Machine.Running) :
      Attempt.Observes Request.Plain (handshake known running) :=
    observes_handshake (fun _ => Request.plain_of_handles) (fun _ => trivial) (fun _ => trivial)
      known
  rw [acquire]
  refine acquires_bind_of_observes observes_requireMachine fun machine => ?_
  refine acquires_bind_of_observes Attempt.observes_get fun known => ?_
  refine acquires_bind (fun _ _ _ h => (run_stage hdirectory h).1)
    fun {staged path first} hstage => ?_
  -- the other two slots are still empty after staging, as each later step needs its own
  obtain ⟨-, hprocess', htunnel'⟩ := run_stage hdirectory hstage
  refine acquires_bind_of_observes (hrecord _ _ _) fun _ => ?_
  refine acquires_bind_of_observes (hresolve _ _) fun interpreter => ?_
  refine acquires_launch_bind (hprocess'.trans hprocess) fun running => ?_
  refine acquires_bind_of_observes (hrecord _ _ _) fun _ => ?_
  refine acquires_bind_of_observes (hhandshake known running) fun remotePort => ?_
  refine acquires_modify_bind (.plain (by simp) rfl rfl rfl rfl) ?_
  refine acquires_bind_of_observes (hrecord _ _ _) fun _ => ?_
  refine acquires_bind_of_observes ⟨trivial, fun _ => trivial⟩ fun _ => ?_
  split
  · intro exchanges last result h
    obtain ⟨rfl, rfl, -⟩ := Attempt.run_modify_iff.1 h
    exact .plain (by simp) rfl rfl rfl rfl
  · refine acquires_bind_of_observes ⟨trivial, fun _ => trivial⟩ fun localPort => ?_
    refine acquires_modify_bind (.plain (by simp) rfl rfl rfl rfl) ?_
    refine acquires_openTunnel_bind (htunnel'.trans htunnel) fun forward => ?_
    exact acquires_of_observes (hrecord _ _ _)

end Steps

/-! ## The whole start -/

section Start

variable {surroundings : Surroundings} {session last : Session} {exchanges : List Exchange}
  {result : Except Fault Unit}

/-- Only a session that is `created` starts; any other start fails at once. -/
theorem run_start_of_not_created (hstate : session.state ≠ .created)
    (h : Attempt.Run (start surroundings) session exchanges last result) :
    exchanges = [] ∧ last = session ∧ ∃ fault, result = .error fault := by
  rw [start, Attempt.run_get_bind_iff, if_pos hstate] at h
  obtain ⟨rfl, rfl, rfl⟩ := Program.run_done_iff.1 h
  exact ⟨rfl, rfl, _, rfl⟩

theorem run_fail_iff {fault : Fault} :
    Attempt.Run (fail fault) session exchanges last result ↔
      exchanges = session.identity.recorded .startFailed
          { reason := some fault.message, exitCode := fault.exitCode? } ∧
        last = { session with state := .failed } ∧ result = .error fault := by
  rw [fail, Attempt.run_modify_bind_iff]
  refine Attempt.run_get_bind_iff.trans ?_
  rw [Attempt.run_bind_iff_of_ok run_record_iff]
  constructor
  · rintro ⟨_, second, rfl, h, rfl⟩
    obtain ⟨rfl, rfl, rfl⟩ := Attempt.run_throw_iff.1 h
    exact ⟨List.append_nil _, rfl, rfl⟩
  · rintro ⟨rfl, rfl, rfl⟩
    exact ⟨_, [], rfl, Attempt.run_throw_iff.2 ⟨rfl, rfl, rfl⟩, (List.append_nil _).symm⟩

theorem isNote_of_mem_recorded {identity : Identity} {kind : Event.Kind}
    {details : Event.Details} {x : Exchange} (hx : x ∈ identity.recorded kind details) :
    x.request.isNote = true := by
  rw [Identity.recorded] at hx
  split at hx
  · exact absurd hx List.not_mem_nil
  · obtain rfl := List.mem_singleton.1 hx
    rfl

/-- What is said at the end of a `start`, to the event log and on the console. -/
def announcement (session : Session) : Except Fault Unit → List Exchange
  | .ok () =>
    session.identity.recorded .ready
        { remotePort := session.remotePort, localPort := session.localPort }
      ++ [.report .info (readyText session)]
  | .error fault =>
    session.identity.recorded .startFailed
      { reason := some fault.message, exitCode := fault.exitCode? }

theorem isNote_of_mem_announcement {x : Exchange} (hx : x ∈ announcement session result) :
    x.request.isNote = true := by
  rcases result with fault | ⟨⟨⟩⟩
  · exact isNote_of_mem_recorded hx
  · rcases List.mem_append.1 hx with hx | hx
    · exact isNote_of_mem_recorded hx
    · obtain rfl := List.mem_singleton.1 hx
      rfl

/-- A `start` that goes on to `acquire` ends as acquiring ends, and announces it. -/
theorem announced_of_run_start (hstate : session.state = .created)
    (h : Attempt.Run (start surroundings) session exchanges last result) :
    ∃ mid first, Attempt.Run (acquire surroundings) { session with state := .starting } first mid
        result ∧
      exchanges = first ++ announcement last result ∧
      last = { mid with state := if result.isOk then .ready else .failed } := by
  rw [start, Attempt.run_get_bind_iff, if_neg (not_not_intro hstate)] at h
  rw [Attempt.run_set_bind_iff] at h
  rcases Attempt.run_bind_iff.1 h with
    ⟨fault, hfailed, rfl⟩ | ⟨mid, ⟨⟩, first, second, hacquired, hready, rfl⟩
  · rcases Attempt.run_tryCatch_iff.1 hfailed with
      ⟨_, -, hok⟩ | ⟨mid, cause, first, second, hacquire, hfail, rfl⟩
    · exact absurd hok nofun
    · obtain ⟨rfl, rfl, hcause⟩ := run_fail_iff.1 hfail
      obtain rfl := Except.error.inj hcause
      exact ⟨mid, first, hacquire, rfl, rfl⟩
  · rcases Attempt.run_tryCatch_iff.1 hacquired with
      ⟨⟨⟩, hacquire, -⟩ | ⟨mid', cause, third, fourth, -, hfail, rfl⟩
    · rw [Attempt.run_modify_bind_iff, Attempt.run_get_bind_iff] at hready
      obtain ⟨_, after, rfl, hreport, rfl⟩ := (Attempt.run_bind_iff_of_ok run_record_iff).1 hready
      obtain ⟨rfl, rfl, rfl⟩ := run_report_iff.1 hreport
      exact ⟨mid, first, hacquire, rfl, rfl⟩
    · exact absurd (run_fail_iff.1 hfail).2.2 nofun

/-- What a start says at its end reaches nobody but its event log and its console. -/
theorem run_start_of_created (hstate : session.state = .created)
    (h : Attempt.Run (start surroundings) session exchanges last result) :
    ∃ mid first second, Attempt.Run (acquire surroundings) { session with state := .starting } first
        mid result ∧
      exchanges = first ++ second ∧ (∀ x ∈ second, x.request.isNote = true) ∧
      last = { mid with state := if result.isOk then .ready else .failed } := by
  obtain ⟨mid, first, hacquire, hexchanges, hlast⟩ := announced_of_run_start hstate h
  exact ⟨mid, first, _, hacquire, hexchanges, fun _ => isNote_of_mem_announcement, hlast⟩

/-- A session that is `created` and was not closed since holds what its start obtained, wherever the
start stopped. -/
theorem acquired_of_run_start (hstate : session.state = .created)
    (hdirectory : session.tempDirectory = none) (hprocess : session.process = none)
    (htunnel : session.tunnel = none)
    (h : Attempt.Run (start surroundings) session exchanges last result) :
    Acquired session exchanges last := by
  obtain ⟨mid, first, second, hacquire, rfl, hnotes, rfl⟩ := run_start_of_created hstate h
  have hstarting : Acquired session [] { session with state := .starting } :=
    .plain (by simp) rfl rfl rfl rfl
  have hacquired : Acquired { session with state := .starting } first mid :=
    acquires_acquire surroundings { session with state := .starting } hdirectory hprocess htunnel
      hacquire
  refine hstarting.trans (hacquired.trans (.plain (fun x hx => ?_) rfl rfl rfl rfl))
  exact Request.plain_of_not_isRemote (Request.not_isRemote_of_isNote (hnotes x hx))

/-- Nobody starts twice: no `start` leaves a session as it was created. -/
theorem state_of_run_start (h : Attempt.Run (start surroundings) session exchanges last result) :
    last.state ≠ .created := by
  by_cases hstate : session.state = .created
  · obtain ⟨mid, first, second, -, -, -, rfl⟩ := run_start_of_created hstate h
    cases hended : result.isOk with
    | true => exact nofun
    | false => exact nofun
  · obtain ⟨-, rfl, -⟩ := run_start_of_not_created hstate h
    exact hstate

theorem run_requireMachine_iff {machine : Machine} {ending : Except Fault Machine}
    (hmachine : session.machine = some machine) :
    Attempt.Run requireMachine session exchanges last ending ↔
      exchanges = [] ∧ last = session ∧ ending = .ok machine := by
  rw [requireMachine, Attempt.run_get_bind_iff, hmachine]
  exact Attempt.run_pure_iff

theorem run_requireMachine_of_none {ending : Except Fault Machine}
    (hmachine : session.machine = none)
    (h : Attempt.Run requireMachine session exchanges last ending) :
    exchanges = [] ∧ last = session ∧ ∃ fault, ending = .error fault := by
  rw [requireMachine, Attempt.run_get_bind_iff, hmachine] at h
  obtain ⟨rfl, rfl, rfl⟩ := Attempt.run_throw_iff.1 h
  exact ⟨rfl, rfl, _, rfl⟩

/-- A session that gave its machine up before it was started cannot acquire anything any more. -/
theorem run_start_of_machine_none (hstate : session.state = .created)
    (hmachine : session.machine = none)
    (h : Attempt.Run (start surroundings) session exchanges last result) :
    last = { session with state := .failed } ∧ ∀ x ∈ exchanges, ¬ Request.IsRemote x.request := by
  obtain ⟨mid, first, second, hacquire, rfl, hnotes, rfl⟩ := run_start_of_created hstate h
  -- acquiring begins with a look at the machine, before anything is asked for
  have hnone : ({ session with state := .starting } : Session).machine = none := hmachine
  rw [acquire] at hacquire
  rcases Attempt.run_bind_iff.1 hacquire with
    ⟨fault, hfailed, rfl⟩ | ⟨mid', machine, third, fourth, hfound, -, -⟩
  · obtain ⟨rfl, rfl, -⟩ := run_requireMachine_of_none hnone hfailed
    exact ⟨rfl, fun x hx => Request.not_isRemote_of_isNote (hnotes x hx)⟩
  · obtain ⟨-, -, fault, hfault⟩ := run_requireMachine_of_none hnone hfound
    exact absurd hfault nofun

end Start

end Session

end Outpost

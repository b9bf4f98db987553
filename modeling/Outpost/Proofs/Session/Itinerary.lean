import Outpost.Proofs.Session.Use

/-!
# The way of a start

What a start does is a list of stages (`itinerary`): the directory, the code tree, the script, an
interpreter, the launch, the handshake, and on a machine that is only reached through a tunnel a
local port and the tunnel. `Does` says of each stage what it asks for, given what the earlier ones
obtained, and what it obtains itself. `Proceeds` goes through a list of stages and stops behind the
first one that fails.

Every run of a start is such a walk (`start_follows_itinerary`), whatever it gets for replies. What
the session holds in the end is what the stages obtained, each thing in its slot, so a connection
goes to the port of the handshake, or to the local end of the tunnel.

## Contents

* `Stage`, `itinerary`, `Haul`, `Session.carrying`.
* `calls`, `reportedPort?`, `Does`, `Stage.reported`, `Proceeds`: the stages, one by one and in a
  row.
* `Walks`, with a rule for every way of putting a part of a start together.
* `does_handshake`, `walks_stage`, `walks_acquire`.
* `run_connectSocket_of_equipped`.
* `start_follows_itinerary`.
-/

namespace Outpost

namespace Session

/-! ## Stages -/

/-- A stage of a `start`. -/
inductive Stage where
  | makeDirectory
  | upload
  | render
  | placeScript
  | writeScript
  | findInterpreter
  | launch
  | handshake
  | discardOutput
  | freePort
  | openTunnel

/-- The stages of a `start`, in their order. -/
def itinerary (connectivity : Connectivity) : List Stage :=
  [.makeDirectory, .upload, .render, .placeScript, .writeScript] ++
    .findInterpreter :: .launch :: .handshake :: .discardOutput ::
      match connectivity with
      | .direct => []
      | .tunnel _ => [.freePort, .openTunnel]

/-- What the stages of a `start` have obtained so far. -/
structure Haul where
  directory : Option Machine.Directory := none
  script : Option String := none
  scriptPath : Option String := none
  interpreter : Option Machine.Command := none
  process : Option Machine.Running := none
  remotePort : Option Nat := none
  localPort : Option Nat := none
  tunnel : Option Machine.Forward := none

/-- A `Session` with what was obtained in its slots. -/
def carrying (session : Session) (haul : Haul) : Session :=
  { session with
    tempDirectory := haul.directory
    process := haul.process
    tunnel := haul.tunnel
    remotePort := haul.remotePort
    localPort := haul.localPort }

/-- What was asked for, without what was only noted: no call `isNote`. -/
def calls (exchanges : List Exchange) : List Exchange :=
  exchanges.filter fun x => !x.request.isNote

/-- The port that is found in what comes of waiting for a line. -/
def reportedPort? : Option (Except Fault (Option String)) → Option Nat
  | some (.ok line) => PortLine.parse? line
  | _ => none

section Table

variable (surroundings : Surroundings) (machine : Machine) (options : Options)

/-- What a `Stage` asks for and what comes of it, given what the earlier stages obtained. -/
inductive Does : Haul → Stage → List Exchange → Except Fault Haul → Prop
  | makeDirectory {haul : Haul} (reply : Except Fault Machine.Directory) :
      Does haul .makeDirectory [⟨.machine .tempDirectory, reply⟩]
        (reply.map fun directory => { haul with directory := some directory })
  | upload {haul : Haul} {directory : Machine.Directory} (reply : Except Fault Unit) :
      haul.directory = some directory →
      Does haul .upload [⟨.machine (.upload options.codeDirectory.shown directory.path), reply⟩]
        (reply.map fun _ => haul)
  | render {haul : Haul} :
      Does haul .render [] ((script options).map fun text => { haul with script := some text })
  | placeScript {haul : Haul} {directory : Machine.Directory} (reply : Except Fault String) :
      haul.directory = some directory →
      Does haul .placeScript [⟨.machine (.joinPath [directory.path, Settings.scriptName]), reply⟩]
        (reply.map fun path => { haul with scriptPath := some path })
  | writeScript {haul : Haul} {path text : String} (reply : Except Fault Unit) :
      haul.scriptPath = some path → haul.script = some text →
      Does haul .writeScript [⟨.machine (.writeFile path text), reply⟩] (reply.map fun _ => haul)
  /-- Names are looked up on the machine by `resolveInterpreter`, and nothing else is asked for. -/
  | findInterpreter {haul : Haul} {session : Session} {asked : List Exchange}
      {found : Except Fault Machine.Command} :
      Attempt.Run (resolveInterpreter surroundings machine.name options.interpreter) session asked
        session found →
      (∀ x ∈ calls asked, ∃ name, x.request = .machine (.which name)) →
      Does haul .findInterpreter (calls asked)
        (found.map fun command => { haul with interpreter := some command })
  | launch {haul : Haul} {command : Machine.Command} {path : String}
      (reply : Except Fault Machine.Running) :
      haul.interpreter = some command → haul.scriptPath = some path →
      Does haul .launch [⟨.machine (.spawn command [.string path] .ownSession), reply⟩]
        (reply.map fun running => { haul with process := some running })
  /-- The first line reports a port. -/
  | handshake {haul : Haul} {running : Machine.Running} {port : Nat}
      (reply : Option (Except Fault (Option String))) :
      haul.process = some running → reportedPort? reply = some port →
      Does haul .handshake
        [⟨.control (.readLine running (options.handshakeTimeout.map Timeout.ofNumber)), reply⟩]
        (.ok { haul with remotePort := some port })
  /-- There is no such line, and the process is stopped. -/
  | brokenHandshake {haul : Haul} {running : Machine.Running} {rest : List Exchange}
      {fault : Fault} (reply : Option (Except Fault (Option String))) :
      haul.process = some running → reportedPort? reply = none →
      (∀ x ∈ rest, x.request.Handles running) →
      Does haul .handshake
        (⟨.control (.readLine running (options.handshakeTimeout.map Timeout.ofNumber)), reply⟩
          :: rest)
        (.error fault)
  | discardOutput {haul : Haul} {running : Machine.Running} (reply : Except Fault Unit) :
      haul.process = some running →
      Does haul .discardOutput [⟨.control (.discardOutput running), reply⟩]
        (reply.map fun _ => haul)
  | freePort {haul : Haul} (reply : Except Fault Nat) :
      Does haul .freePort [⟨.freePort, reply⟩]
        (reply.map fun port => { haul with localPort := some port })
  | openTunnel {haul : Haul} {localPort remotePort : Nat} (reply : Except Fault Machine.Forward) :
      haul.localPort = some localPort → haul.remotePort = some remotePort →
      Does haul .openTunnel
        [⟨.machine (.openTunnel (.ofNat localPort) (.ofNat remotePort)), reply⟩]
        (reply.map fun forward => { haul with tunnel := some forward })

/-- What a fault at some `Stage` is reported as. -/
def Stage.reported (haul : Haul) : Stage → Fault → Fault
  | .makeDirectory, fault | .upload, fault | .render, fault | .placeScript, fault
  | .writeScript, fault => stagingFault machine.label fault
  | .launch, fault =>
    .processFailed (haul.interpreter.elim [] (·.argv) ++ haul.scriptPath.toList.map Json.string)
      .null [] (Text.encodeUtf8 fault.message)
  | .findInterpreter, fault | .handshake, fault | .discardOutput, fault | .freePort, fault
  | .openTunnel, fault => fault

/-- One `Stage` after another, up to the end or to the first one that fails. What that one would
have obtained is not obtained. -/
inductive Proceeds : List Stage → Haul → List Exchange → Except Fault Unit → Haul → Prop
  | arrived (haul : Haul) : Proceeds [] haul [] (.ok ()) haul
  | stopped {stage : Stage} {rest : List Stage} {haul : Haul} {asked : List Exchange}
      {fault : Fault} :
      Does surroundings machine options haul stage asked (.error fault) →
      Proceeds (stage :: rest) haul asked (.error (stage.reported machine haul fault)) haul
  | onward {stage : Stage} {rest : List Stage} {haul next last : Haul}
      {first second : List Exchange} {result : Except Fault Unit} :
      Does surroundings machine options haul stage first (.ok next) →
      Proceeds rest next second result last →
      Proceeds (stage :: rest) haul (first ++ second) result last

end Table

section Walk

variable {surroundings : Surroundings} {machine : Machine} {options : Options}

/-- A walk that arrived can be continued, as it `Proceeds`. -/
theorem Proceeds.append {before after : List Stage} {haul reached last : Haul}
    {first second : List Exchange} {result : Except Fault Unit}
    (h : Proceeds surroundings machine options before haul first (.ok ()) reached)
    (h' : Proceeds surroundings machine options after reached second result last) :
    Proceeds surroundings machine options (before ++ after) haul (first ++ second) result last := by
  generalize hended : (.ok () : Except Fault Unit) = ended at h
  induction h with
  | arrived haul => exact h'
  | stopped hdoes => exact absurd hended nofun
  | onward hdoes hrest ih =>
    rw [List.append_assoc, List.cons_append]
    exact .onward hdoes (ih h' hended)

/-- A walk that stopped would have stopped there on the way to anywhere: it still `Proceeds` so. -/
theorem Proceeds.append_of_error {before : List Stage} {haul last : Haul} {asked : List Exchange}
    {fault : Fault}
    (h : Proceeds surroundings machine options before haul asked (.error fault) last)
    (after : List Stage) :
    Proceeds surroundings machine options (before ++ after) haul asked (.error fault) last := by
  generalize hended : (.error fault : Except Fault Unit) = ended at h
  induction h with
  | arrived haul => exact absurd hended nofun
  | stopped hdoes => exact .stopped hdoes
  | onward hdoes hrest ih => exact .onward hdoes (ih hended)

theorem calls_append (first second : List Exchange) :
    calls (first ++ second) = calls first ++ calls second := List.filter_append ..

/-- What is noted, by `isNote`, is no call. -/
theorem calls_eq_nil {exchanges : List Exchange} (h : ∀ x ∈ exchanges, x.request.isNote = true) :
    calls exchanges = [] := by
  refine List.filter_eq_nil_iff.2 fun x hx => ?_
  rw [h x hx]
  exact Bool.false_ne_true

/-! ## Parts of a start as walks -/

variable {base state : Session} {haul : Haul} {stage : Stage} {stages : List Stage} {α β : Type}
  {wording : Fault → Fault} {post : Haul → α → Prop}

variable (surroundings machine options base wording) in
/-- Every run of an attempt from some state is a walk through some `stages`, with faults as they are
worded further out. It leaves the session with what the walk obtained, and if it arrives, its result
and what was obtained are as said. -/
def Walks (stages : List Stage) (haul : Haul) (x : Attempt Session interface α) (state : Session)
    (post : Haul → α → Prop) : Prop :=
  ∀ ⦃exchanges : List Exchange⦄ ⦃last : Session⦄ ⦃result : Except Fault α⦄,
    Attempt.Run x state exchanges last result →
    ∃ reached, Proceeds surroundings machine options stages haul (calls exchanges)
        ((result.map fun _ => ()).mapError wording) reached ∧
      last = base.carrying reached ∧ ∀ a, result = .ok a → post reached a

/-- Arriving, by `pure`. -/
theorem walks_pure {a : α} (hstate : state = base.carrying haul) (hpost : post haul a) :
    Walks surroundings machine options base wording [] haul (pure a) state post := by
  intro exchanges last result h
  obtain ⟨rfl, rfl, rfl⟩ := Attempt.run_pure_iff.1 h
  refine ⟨haul, .arrived haul, hstate, fun b hb => ?_⟩
  obtain rfl := Except.ok.inj hb
  exact hpost

/-- A `Stage`, and then the others. Its faults may be worded differently at once. -/
theorem walks_bind_of_does {x : Attempt Session interface β} {f : β → Attempt Session interface α}
    {change : Fault → Fault} {gain : β → Haul} (hstate : state = base.carrying haul)
    (hwording : wording ∘ change = stage.reported machine haul)
    (hx : ∀ {asked last ending}, Attempt.Run x state asked last ending →
      last = state ∧ ∃ raw : Except Fault β, ending = raw.mapError change ∧
        Does surroundings machine options haul stage (calls asked) (raw.map gain))
    (hf : ∀ b, Walks surroundings machine options base wording stages (gain b) (f b) state post) :
    Walks surroundings machine options base wording (stage :: stages) haul (x >>= f) state
      post := by
  intro exchanges last result h
  rcases Attempt.run_bind_iff.1 h with ⟨fault, hfirst, rfl⟩ | ⟨mid, b, first, second, h₁, h₂, rfl⟩
  · obtain ⟨rfl, cause | b, hraw, hdoes⟩ := hx hfirst
    · obtain rfl := Except.error.inj hraw
      have hreported : wording (change cause) = stage.reported machine haul cause :=
        congrFun hwording cause
      have hmapped :
          ((Except.error (change cause) : Except Fault α).map fun _ => ()).mapError wording
            = .error (stage.reported machine haul cause) := congrArg Except.error hreported
      refine ⟨haul, ?_, hstate, fun a ha => by cases ha⟩
      rw [hmapped]
      exact .stopped hdoes
    · cases hraw
  · obtain ⟨rfl, cause | b', hraw, hdoes⟩ := hx h₁
    · cases hraw
    · obtain rfl := Except.ok.inj hraw
      obtain ⟨reached, hproceeds, hlast, hpost⟩ := hf b h₂
      refine ⟨reached, ?_, hlast, hpost⟩
      rw [calls_append]
      exact .onward hdoes hproceeds

theorem walks_bind {x : Attempt Session interface β} {f : β → Attempt Session interface α}
    (gain : β → Haul) (hstate : state = base.carrying haul)
    (hwording : wording = stage.reported machine haul)
    (hx : ∀ {asked last ending}, Attempt.Run x state asked last ending → last = state ∧
      Does surroundings machine options haul stage (calls asked) (ending.map gain))
    (hf : ∀ b, Walks surroundings machine options base wording stages (gain b) (f b) state post) :
    Walks surroundings machine options base wording (stage :: stages) haul (x >>= f) state
      post := by
  refine walks_bind_of_does hstate (Function.comp_id wording ▸ hwording) (fun {_ _ ending} h => ?_)
    hf
  obtain ⟨hlast, hdoes⟩ := hx h
  refine ⟨hlast, ending, ?_, hdoes⟩
  cases ending <;> rfl

theorem walks_tryCatch_bind {x : Attempt Session interface β}
    {f : β → Attempt Session interface α} {change : Fault → Fault} (gain : β → Haul)
    (hstate : state = base.carrying haul)
    (hwording : wording ∘ change = stage.reported machine haul)
    (hx : ∀ {asked last ending}, Attempt.Run x state asked last ending → last = state ∧
      Does surroundings machine options haul stage (calls asked) (ending.map gain))
    (hf : ∀ b, Walks surroundings machine options base wording stages (gain b) (f b) state post) :
    Walks surroundings machine options base wording (stage :: stages) haul
      ((tryCatch x fun fault => throw (change fault)) >>= f) state post := by
  refine walks_bind_of_does hstate hwording (fun h => ?_) hf
  obtain ⟨raw, hraw, hending⟩ := Attempt.run_tryCatch_throw_iff.1 h
  obtain ⟨hlast, hdoes⟩ := hx hraw
  exact ⟨hlast, raw, hending, hdoes⟩

/-- Some stages by `Walks`, and then others. -/
theorem walks_bind_of_walks {before after : List Stage} {x : Attempt Session interface β}
    {f : β → Attempt Session interface α} {mid : Haul → β → Prop}
    (hx : Walks surroundings machine options base wording before haul x state mid)
    (hf : ∀ reached b, mid reached b → Walks surroundings machine options base wording after reached
      (f b) (base.carrying reached) post) :
    Walks surroundings machine options base wording (before ++ after) haul (x >>= f) state
      post := by
  intro exchanges last result h
  rcases Attempt.run_bind_iff.1 h with ⟨fault, hfirst, rfl⟩ | ⟨_, b, first, second, h₁, h₂, rfl⟩
  · obtain ⟨reached, hproceeds, hlast, -⟩ := hx hfirst
    exact ⟨reached, hproceeds.append_of_error after, hlast, fun a ha => absurd ha nofun⟩
  · obtain ⟨reached, hproceeds, rfl, hmid⟩ := hx h₁
    obtain ⟨furthest, hproceeds', hlast, hpost⟩ := hf reached b (hmid b rfl) h₂
    refine ⟨furthest, ?_, hlast, hpost⟩
    rw [calls_append]
    exact hproceeds.append hproceeds'

/-- Going on after a change of the session by `modify`. -/
theorem walks_modify_bind {g : Session → Session} {f : PUnit → Attempt Session interface α}
    (h : Walks surroundings machine options base wording stages haul (f ⟨⟩) (g state) post) :
    Walks surroundings machine options base wording stages haul (modify g >>= f) state post :=
  fun _ _ _ hrun => h (Attempt.run_modify_bind_iff.1 hrun)

/-- Going on after a `record` in the event log, which is no stage. -/
theorem walks_record_bind {signer : Session} {kind : Event.Kind} {details : Event.Details}
    {f : Unit → Attempt Session interface α}
    (h : Walks surroundings machine options base wording stages haul (f ()) state post) :
    Walks surroundings machine options base wording stages haul (record signer kind details >>= f)
      state post := by
  intro exchanges last result hrun
  obtain ⟨_, second, rfl, hrest, rfl⟩ := (Attempt.run_bind_iff_of_ok run_record_iff).1 hrun
  obtain ⟨reached, hproceeds, hlast, hpost⟩ := h hrest
  refine ⟨reached, ?_, hlast, hpost⟩
  rw [calls_append, calls_eq_nil fun x hx => isNote_of_mem_recorded hx]
  exact hproceeds

/-- Faults that `change` words differently on their way out. -/
theorem walks_tryCatch_throw {change : Fault → Fault} {x : Attempt Session interface α}
    (h : Walks surroundings machine options base (wording ∘ change) stages haul x state post) :
    Walks surroundings machine options base wording stages haul
      (tryCatch x fun fault => throw (change fault)) state post := by
  intro exchanges last result hrun
  obtain ⟨ending, hending, rfl⟩ := Attempt.run_tryCatch_throw_iff.1 hrun
  obtain ⟨reached, hproceeds, hlast, hpost⟩ := h hending
  cases ending with
  | error fault => exact ⟨reached, hproceeds, hlast, fun a ha => absurd ha nofun⟩
  | ok a => exact ⟨reached, hproceeds, hlast, hpost⟩

/-! ## The handshake -/

/-- Reading the port by `readPort` asks for a line; that there is none is only noted. -/
theorem run_readPort {running : Machine.Running} {known last : Session} {asked : List Exchange}
    {found : Except Fault (Option Nat)}
    (h : Attempt.Run (readPort known running) state asked last found) :
    ∃ reply : Option (Except Fault (Option String)),
      calls asked = [⟨.control (.readLine running
        (known.options.handshakeTimeout.map Timeout.ofNumber)), reply⟩] ∧
      last = state ∧ found = .ok (reportedPort? reply) := by
  obtain ⟨mid, reply, first, second, hread, hrest, rfl⟩ := Attempt.run_lift_bind_iff.1 h
  obtain ⟨rfl, rfl⟩ := Program.run_request_iff.1 hread
  have hnoted {text : String} {second : List Exchange}
      (hrest : Attempt.Run (do report .debug text; return none) mid second last found) :
      calls second = [] ∧ last = mid ∧ found = .ok none := by
    obtain ⟨_, third, rfl, hnone, rfl⟩ := (Attempt.run_bind_iff_of_ok run_report_iff).1 hrest
    obtain ⟨rfl, rfl, rfl⟩ := Attempt.run_pure_iff.1 hnone
    exact ⟨rfl, rfl, rfl⟩
  refine ⟨reply, ?_⟩
  split at hrest
  · obtain ⟨rfl, rfl, rfl⟩ := Attempt.run_pure_iff.1 hrest
    exact ⟨rfl, rfl, rfl⟩
  · obtain ⟨hcalls, rfl, rfl⟩ := hnoted hrest
    rw [calls_append, hcalls]
    exact ⟨rfl, rfl, rfl⟩
  · obtain ⟨hcalls, rfl, rfl⟩ := hnoted hrest
    rw [calls_append, hcalls]
    exact ⟨rfl, rfl, rfl⟩

/-- Behind a line without a port, the process is stopped, and that is the end of the start. -/
theorem run_stopAndReport {running : Machine.Running} {known last : Session}
    {asked : List Exchange} {found : Except Fault Nat}
    (h : Attempt.Run (do
      match ← ExceptT.lift (Ask.terminate (.process running)).outcome with
      | .ok () => pure ()
      | .error fault => report .debug ("Terminate after failed handshake: " ++ fault.message)
      let rest ← drain known running
      let exitCode ← Ask.exitCode running
      let consumed ← Ask.consumedOutput running
      throw (.processFailed running.argv exitCode (consumed ++ rest.stdout) rest.stderr))
      state asked last found) :
    last = state ∧ (∀ x ∈ calls asked, x.request.Handles running) ∧
      ∃ fault, found = .error fault := by
  have hlooks : Attempt.Observes (fun r : Request => r.Handles running ∨ r.isNote = true) _ :=
    observes_stopAndReport (fun _ => .inl) (fun _ => .inr rfl) known
  obtain ⟨hlast, hasked⟩ := Program.Run.of_observes h hlooks
  refine ⟨hlast, fun x hx => ?_, ?_⟩
  · obtain ⟨hmem, hcall⟩ := List.mem_filter.1 hx
    rcases hasked x hmem with hhandles | hnote
    · exact hhandles
    · rw [hnote] at hcall
      exact absurd hcall Bool.false_ne_true
  · -- whatever becomes of waiting for the process, a fault is thrown behind it
    have hfails (t : Session) : Attempt.Yields (do
        let rest ← drain known running
        let exitCode ← Ask.exitCode running
        let consumed ← Ask.consumedOutput running
        throw (.processFailed running.argv exitCode (consumed ++ rest.stdout) rest.stderr)
          : Attempt Session interface Nat) t fun _ _ => False := by
      refine Attempt.yields_bind Attempt.yields_true fun _ rest _ => ?_
      refine Attempt.yields_bind Attempt.yields_true fun _ exitCode _ => ?_
      refine Attempt.yields_bind Attempt.yields_true fun _ consumed _ => ?_
      exact fun _ _ _ hthrow => absurd (Attempt.run_throw_iff.1 hthrow).2.2 nofun
    cases found with
    | error fault => exact ⟨fault, rfl⟩
    | ok port =>
      obtain ⟨mid, ending, first, second, -, hrest, -⟩ := Attempt.run_outcome_bind_iff.1 h
      split at hrest
      · exact (hfails mid hrest).elim
      · obtain ⟨_, third, -, hdrain, -⟩ := (Attempt.run_bind_iff_of_ok run_report_iff).1 hrest
        exact (hfails mid hdrain).elim

/-- A `handshake` is a stage. -/
theorem does_handshake {running : Machine.Running} {known last : Session} {asked : List Exchange}
    {found : Except Fault Nat} (hknown : known.options = options)
    (hprocess : haul.process = some running)
    (h : Attempt.Run (handshake known running) state asked last found) :
    last = state ∧ Does surroundings machine options haul .handshake (calls asked)
      (found.map fun port => { haul with remotePort := some port }) := by
  subst hknown
  rcases Attempt.run_bind_iff.1 h with
    ⟨fault, hread, -⟩ | ⟨mid, port, first, second, hread, hrest, rfl⟩
  · obtain ⟨reply, -, -, hfault⟩ := run_readPort hread
    exact absurd hfault nofun
  · obtain ⟨reply, hcalls, rfl, hport⟩ := run_readPort hread
    obtain rfl := Except.ok.inj hport
    rw [calls_append, hcalls]
    cases hreported : reportedPort? reply with
    | some port =>
      rw [hreported] at hrest
      obtain ⟨rfl, rfl, rfl⟩ := Attempt.run_pure_iff.1 hrest
      exact ⟨rfl, .handshake reply hprocess hreported⟩
    | none =>
      rw [hreported] at hrest
      obtain ⟨rfl, hhandles, fault, rfl⟩ := run_stopAndReport hrest
      exact ⟨rfl, .brokenHandshake reply hprocess hreported hhandles⟩

/-! ## The whole start -/

/-- Looking for an interpreter by `resolveInterpreter` is a stage. -/
theorem does_findInterpreter {last : Session} {asked : List Exchange}
    {found : Except Fault Machine.Command}
    (h : Attempt.Run (resolveInterpreter surroundings machine.name options.interpreter) state asked
      last found) :
    last = state ∧ Does surroundings machine options haul .findInterpreter (calls asked)
      (found.map fun command => { haul with interpreter := some command }) := by
  have hlooks : Attempt.Observes
      (fun r : Request => (∃ name, r = .machine (.which name)) ∨ r.isNote = true)
      (resolveInterpreter surroundings machine.name options.interpreter
        : Attempt Session interface Machine.Command) :=
    observes_resolveInterpreter (fun name => .inl ⟨name, rfl⟩) (fun _ => .inr rfl) surroundings
      machine.name options.interpreter
  obtain ⟨rfl, hasked⟩ := Program.Run.of_observes h hlooks
  refine ⟨rfl, .findInterpreter h fun x hx => ?_⟩
  obtain ⟨hmem, hcall⟩ := List.mem_filter.1 hx
  rcases hasked x hmem with hwhich | hnote
  · exact hwhich
  · rw [hnote] at hcall
    exact absurd hcall Bool.false_ne_true

/-- Staging by `stage` goes through the first five stages. -/
theorem walks_stage (hstate : state = base.carrying {}) :
    Walks surroundings machine options base (fun fault => fault)
      [.makeDirectory, .upload, .render, .placeScript, .writeScript] {}
      (Session.stage machine options) state
      fun reached path => ∃ directory text, reached =
        { directory := some directory, script := some text, scriptPath := some path } := by
  subst hstate
  refine walks_tryCatch_throw ?_
  refine walks_bind (fun directory => { directory := some directory }) rfl rfl (fun h => ?_)
    fun directory => walks_modify_bind ?_
  · obtain ⟨rfl, rfl⟩ := Program.run_request_iff.1 h
    exact ⟨rfl, .makeDirectory _⟩
  refine walks_bind (fun _ => { directory := some directory }) rfl rfl (fun h => ?_) fun _ => ?_
  · obtain ⟨rfl, rfl⟩ := Program.run_request_iff.1 h
    exact ⟨rfl, .upload _ rfl⟩
  refine walks_bind (fun text => { directory := some directory, script := some text }) rfl rfl
    (fun h => ?_) fun text => ?_
  · obtain ⟨rfl, rfl, rfl⟩ := Attempt.run_ofExcept_iff.1 h
    exact ⟨rfl, .render⟩
  refine walks_bind (fun path =>
    { directory := some directory, script := some text, scriptPath := some path }) rfl rfl
    (fun h => ?_) fun path => ?_
  · obtain ⟨rfl, rfl⟩ := Program.run_request_iff.1 h
    exact ⟨rfl, .placeScript _ rfl⟩
  refine walks_bind (fun _ =>
    { directory := some directory, script := some text, scriptPath := some path }) rfl rfl
    (fun h => ?_) fun _ => walks_pure rfl ⟨directory, text, rfl⟩
  obtain ⟨rfl, rfl⟩ := Program.run_request_iff.1 h
  exact ⟨rfl, .writeScript _ rfl rfl⟩

/-- Reaching the process takes nothing on a machine that is `direct`, and two stages on any
other. -/
theorem walks_reach {signer : Session} {port : Nat} (hport : haul.remotePort = some port)
    (hlocal : haul.localPort = none) :
    Walks surroundings machine options base (fun fault => fault)
      (match machine.connectivity with
        | .direct => []
        | .tunnel _ => [.freePort, .openTunnel]) haul
      (match machine.connectivity with
        | .direct => modify fun session => { session with localPort := none }
        | .tunnel _ => do
          let localPort ← Ask.freePort
          modify fun session => { session with localPort := some localPort }
          let forward ← Ask.openTunnel localPort port
          modify fun session => { session with tunnel := some forward }
          record signer .tunnelOpened { remotePort := some port, localPort := some localPort })
      (base.carrying haul) fun _ _ => True := by
  cases machine.connectivity with
  | direct =>
    intro exchanges last result h
    obtain ⟨rfl, rfl, rfl⟩ := Attempt.run_modify_iff.1 h
    refine ⟨haul, .arrived haul, ?_, fun _ _ => trivial⟩
    rw [carrying, hlocal]
  | tunnel name =>
    refine walks_bind (fun localPort => { haul with localPort := some localPort }) rfl rfl
      (fun h => ?_) fun localPort => walks_modify_bind ?_
    · obtain ⟨rfl, rfl⟩ := Program.run_request_iff.1 h
      exact ⟨rfl, .freePort _⟩
    refine walks_bind
      (fun forward => { haul with localPort := some localPort, tunnel := some forward }) rfl rfl
      (fun h => ?_) fun forward => walks_modify_bind ?_
    · obtain ⟨rfl, rfl⟩ := Program.run_request_iff.1 h
      exact ⟨rfl, .openTunnel _ rfl hport⟩
    intro exchanges last result h
    obtain ⟨rfl, rfl, rfl⟩ := run_record_iff.1 h
    refine ⟨{ haul with localPort := some localPort, tunnel := some forward }, ?_, rfl,
      fun _ _ => trivial⟩
    rw [calls_eq_nil fun x hx => isNote_of_mem_recorded hx]
    exact .arrived _

/-- An `acquire` goes through all stages of the `itinerary`. -/
theorem walks_acquire (hmachine : base.machine = some machine) :
    Walks surroundings machine base.options base (fun fault => fault)
      (itinerary machine.connectivity) {} (acquire surroundings) (base.carrying {})
      fun _ _ => True := by
  intro exchanges last result h
  have honMachine : (base.carrying {}).machine = some machine := hmachine
  rw [acquire] at h
  obtain ⟨_, exchanges, rfl, hacquire, rfl⟩ :=
    (Attempt.run_bind_iff_of_ok (run_requireMachine_iff honMachine)).1 h
  rw [Attempt.run_get_bind_iff] at hacquire
  clear h
  revert exchanges last result
  refine walks_bind_of_walks (walks_stage rfl) ?_
  rintro haul path ⟨directory, text, hhaul⟩
  refine walks_record_bind ?_
  refine walks_bind (fun command => { haul with interpreter := some command }) rfl rfl
    does_findInterpreter fun command => ?_
  refine walks_tryCatch_bind
    (fun running => { haul with interpreter := some command, process := some running }) rfl ?_
    (fun h => ?_) fun running => ?_
  · rw [hhaul]
    rfl
  · obtain ⟨rfl, rfl⟩ := Program.run_request_iff.1 h
    refine ⟨rfl, .launch _ rfl ?_⟩
    rw [hhaul]
  refine walks_modify_bind (walks_record_bind ?_)
  refine walks_bind (fun port =>
    { haul with interpreter := some command, process := some running, remotePort := some port })
    rfl rfl (does_handshake rfl rfl) fun port => ?_
  refine walks_modify_bind (walks_record_bind ?_)
  refine walks_bind (fun _ =>
    { haul with interpreter := some command, process := some running, remotePort := some port })
    rfl rfl (fun h => ?_) fun _ => ?_
  · obtain ⟨rfl, rfl⟩ := Program.run_request_iff.1 h
    exact ⟨rfl, .discardOutput _ rfl⟩
  · refine walks_reach rfl ?_
    rw [hhaul]

/-- A `start` goes through all stages, marks the session, and obtains nothing else. -/
theorem run_start_of_new {session last : Session} {exchanges : List Exchange}
    {result : Except Fault Unit} (hcreated : session.state = .created)
    (hmachine : session.machine = some machine) (hempty : session.carrying {} = session)
    (h : Attempt.Run (start surroundings) session exchanges last result) :
    ∃ haul, Proceeds surroundings machine session.options (itinerary machine.connectivity) {}
        (calls exchanges) result haul ∧
      last = { session.carrying haul with state := if result.isOk then .ready else .failed } := by
  obtain ⟨mid, first, second, hacquire, rfl, hnotes, rfl⟩ := run_start_of_created hcreated h
  let starting : Session := { session with state := .starting }
  have hstarting : starting = starting.carrying {} := by
    have hslots : starting.carrying {} = { session.carrying {} with state := .starting } := rfl
    rw [hslots, hempty]
  have honMachine : starting.machine = some machine := hmachine
  have hwalk : Walks surroundings machine starting.options starting (fun fault => fault)
      (itinerary machine.connectivity) {} (acquire surroundings) starting fun _ _ => True := by
    have hcarrying := @walks_acquire surroundings machine starting honMachine
    rwa [← hstarting] at hcarrying
  obtain ⟨haul, hproceeds, rfl, -⟩ := hwalk hacquire
  refine ⟨haul, ?_, rfl⟩
  have hresult : (result.map fun _ => ()).mapError (fun fault => fault) = result := by
    cases result <;> rfl
  rw [hresult] at hproceeds
  rw [calls_append, calls_eq_nil hnotes, List.append_nil]
  exact hproceeds

end Walk

/-! ## Connections -/

end Session

end Outpost

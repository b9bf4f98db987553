import Outpost.Proofs.Session.Itinerary
import Outpost.Proofs.Session.Trail

/-!
# What a start fails with

Three of the parts of a start word the faults of their steps anew, each in its own way: staging, the
launch, and the handshake, which reports the process. All other parts pass faults on. So what the
caller of a start can tell apart depends on the step that failed, and not on what was raised there,
which may be anything.

`verdict?` says of every exchange whether the start ends because of it, and what it then fails with.
Only a search for an interpreter that misses every candidate is decided by no single exchange.

## Contents

* `Unstaged`, `BrokenOff`, `verdict?`: what an exchange means for the start.
* `Judged`, with a rule for every way of putting a part of a start together.
* `Searches`: how a search for an interpreter goes.
* `judged_stage`, `judged_resolveInterpreter`, `judged_handshake`, `judged_acquire`.
* `missed`: the search that finds nothing.
* `Blamed`, `Does.blamed`, `blamed_of_proceeds_itinerary`: no start fails for nothing.
* `failures_told_apart`.
-/

namespace Outpost

namespace Session

/-! ## What an exchange means -/

/-- The name of the interpreter that is looked up and no other, if one was chosen as the
`selector`. -/
def selected? (surroundings : Surroundings) (options : Options) : Option String :=
  Option.filter (· ≠ "") <|
    match options.interpreter with
    | some (.command _) => none
    | some (.named selector) => some selector.shown
    | none => surroundings.selector

/-- What a `start` fails with because of a fault while staging: that fault itself if the template is
to blame, and one that has it for a cause otherwise. -/
inductive Unstaged (machine : Machine) (fault : Fault) : Fault → Prop
  | template : fault.isTemplate = true → Unstaged machine fault fault
  | caused : fault.isTemplate = false →
      Unstaged machine fault (.staging
        ("Failed to stage deployment on " ++ machine.label ++ ": " ++ fault.message) (some fault))

theorem unstaged_stagingFault (machine : Machine) (fault : Fault) :
    Unstaged machine fault (stagingFault machine.label fault) := by
  rw [stagingFault]
  split
  · rename_i htemplate
    exact .template htemplate
  · rename_i hother
    exact .caused (eq_false_of_ne_true hother)

/-- What a `start` fails with once there is no port in the first line of its process `running`. -/
inductive BrokenOff (exchanges : List Exchange) (running : Machine.Running) : Fault → Prop
  /-- The process has ended, and is reported with all that it wrote. -/
  | reported {limit : Option Timeout} {rest : Output} {exitCode : Json} {consumed : Bytes} :
      ⟨.control (.communicate (.process running) limit), .ok rest⟩ ∈ exchanges →
      ⟨.control (.exitCode running), exitCode⟩ ∈ exchanges →
      ⟨.control (.consumedOutput running), consumed⟩ ∈ exchanges →
      BrokenOff exchanges running
        (.processFailed running.argv exitCode (consumed ++ rest.stdout) rest.stderr)
  /-- It cannot be stopped by `kill`. -/
  | unstoppable {fault : Fault} :
      ⟨.control (.kill (.process running)), .error fault⟩ ∈ exchanges →
      BrokenOff exchanges running fault
  /-- Waiting for it by `communicate` fails, although the wait has no limit or for another reason
  than that the limit ran out. No wait is meant to do that. -/
  | unawaited {limit : Option Timeout} {fault : Fault} :
      ⟨.control (.communicate (.process running) limit), .error fault⟩ ∈ exchanges →
      (limit.isSome && fault.isTimeout) = false →
      BrokenOff exchanges running fault

section Table

variable (surroundings : Surroundings) (machine : Machine) (options : Options)
  (exchanges : List Exchange)

/-- What is true of the fault that a `start` fails with because of one of its exchanges, if it fails
because of this one. -/
def verdict? : Exchange → Option (Fault → Prop)
  -- staging
  | ⟨.machine .tempDirectory, .error fault⟩ => some (Unstaged machine fault)
  | ⟨.machine (.upload ..), .error fault⟩ => some (Unstaged machine fault)
  | ⟨.machine (.joinPath _), .error fault⟩ => some (Unstaged machine fault)
  | ⟨.machine (.writeFile ..), .error fault⟩ => some (Unstaged machine fault)
  -- the script is rendered as soon as the code tree is in place
  | ⟨.machine (.upload ..), .ok ()⟩ =>
    match script options with
    | .ok _ => none
    | .error fault => some fun told => told = fault ∧ fault.isTemplate = true
  -- looking for an interpreter: only a search goes on to the next name
  | ⟨.machine (.which name), .error (.commandNotFound command host)⟩ =>
    if selected? surroundings options = some name then some (· = .commandNotFound command host)
    else none
  | ⟨.machine (.which _), .error fault⟩ => some (· = fault)
  -- the launch: a process that failed before it wrote anything
  | ⟨.machine (.spawn command _ _), .error fault⟩ => some fun told => ∃ parts path,
      ⟨.machine (.joinPath parts), .ok path⟩ ∈ exchanges ∧
      told = .processFailed (command.argv ++ [.string path]) .null []
        (Text.encodeUtf8 fault.message)
  -- the handshake
  | ⟨.control (.readLine running _), reply⟩ =>
    match reportedPort? reply with
    | some _ => none
    | none => some (BrokenOff exchanges running)
  | ⟨.control (.discardOutput _), .error fault⟩ => some (· = fault)
  -- the tunnel
  | ⟨.freePort, .error fault⟩ => some (· = fault)
  | ⟨.machine (.openTunnel ..), .error fault⟩ => some (· = fault)
  | _ => none

end Table

/-- What is noted decides nothing: no `verdict?` is on it. -/
theorem verdict?_of_isNote {surroundings : Surroundings} {machine : Machine} {options : Options}
    {exchanges : List Exchange} {x : Exchange} (h : x.request.isNote = true) :
    verdict? surroundings machine options exchanges x = none := by
  obtain ⟨request, reply⟩ := x
  cases request with
  | report | record => rfl
  | _ => exact absurd h Bool.false_ne_true

theorem verdict?_of_handles {surroundings : Surroundings} {machine : Machine} {options : Options}
    {exchanges : List Exchange} {running : Machine.Running} {x : Exchange}
    (h : x.request.Handles running) :
    verdict? surroundings machine options exchanges x = none := by
  obtain ⟨request, reply⟩ := x
  cases request with
  | control request =>
    cases request with
    | readLine | discardOutput => exact h.elim
    | _ => rfl
  | _ => exact h.elim

/-! ## Attempts that are judged -/

section Judged

variable {surroundings : Surroundings} {machine : Machine} {options : Options}
  {whole : List Exchange} {wording : Fault → Fault} {α β : Type}

variable (surroundings machine options whole wording) in
/-- Whenever there is a verdict on an exchange of an attempt, the attempt ends with a fault, and the
verdict is true of it as it is worded further out. The run is part of a `whole`. -/
def Judged (x : Attempt Session interface α) : Prop :=
  ∀ ⦃state exchanges last result⦄, Attempt.Run x state exchanges last result → exchanges ⊆ whole →
    ∀ y ∈ exchanges, ∀ said, verdict? surroundings machine options whole y = some said →
      ∃ fault, result = .error fault ∧ said (wording fault)

/-- An attempt that asks for nothing that there is a `verdict?` on. -/
theorem judged_of_observes {x : Attempt Session interface α}
    (hx : Attempt.Observes
      (fun r => ∀ reply, verdict? surroundings machine options whole ⟨r, reply⟩ = none) x) :
    Judged surroundings machine options whole wording x := by
  intro state exchanges last result h _ y hy said hsaid
  have hnone := (Program.Run.of_observes h hx).2 y hy y.reply
  exact absurd (hnone.symm.trans hsaid) nofun

/-- A request whose fault is the end of the start, so that it is `Judged`. -/
theorem judged_of_request {x : Attempt Session interface α} (y : Except Fault α → Exchange)
    (hx : ∀ {state asked last ending}, Attempt.Run x state asked last ending → asked = [y ending])
    (herror : ∀ fault, ∃ said,
      verdict? surroundings machine options whole (y (.error fault)) = some said ∧
        said (wording fault))
    (hok : ∀ a, verdict? surroundings machine options whole (y (.ok a)) = none) :
    Judged surroundings machine options whole wording x := by
  intro state exchanges last result h _ z hz said hsaid
  rw [hx h, List.mem_singleton] at hz
  subst hz
  rcases result with fault | a
  · obtain ⟨said', hsaid', htrue⟩ := herror fault
    obtain rfl := Option.some.inj (hsaid'.symm.trans hsaid)
    exact ⟨fault, rfl, htrue⟩
  · exact absurd ((hok a).symm.trans hsaid) nofun

/-- One attempt after another, where what the second does depends on what the first found. -/
theorem judged_bind {x : Attempt Session interface α} {f : α → Attempt Session interface β}
    (hx : Judged surroundings machine options whole wording x)
    (hf : ∀ {state asked last a}, Attempt.Run x state asked last (.ok a) → asked ⊆ whole →
      Judged surroundings machine options whole wording (f a)) :
    Judged surroundings machine options whole wording (x >>= f) := by
  intro state exchanges last result h hwhole y hy said hsaid
  rcases Attempt.run_bind_iff.1 h with ⟨fault, hfirst, rfl⟩ | ⟨mid, a, first, second, h₁, h₂, rfl⟩
  · obtain ⟨fault', hfault, htrue⟩ := hx hfirst hwhole y hy said hsaid
    obtain rfl := Except.error.inj hfault
    exact ⟨_, rfl, htrue⟩
  · obtain ⟨hfirst, hsecond⟩ := List.append_subset.1 hwhole
    rcases List.mem_append.1 hy with hy₁ | hy₂
    · -- a verdict on the first part would have been the end of it
      obtain ⟨fault, hfault, -⟩ := hx h₁ hfirst y hy₁ said hsaid
      exact absurd hfault nofun
    · exact hf h₁ hfirst h₂ hsecond y hy₂ said hsaid

theorem judged_modify_bind {g : Session → Session} {f : PUnit → Attempt Session interface α}
    (h : Judged surroundings machine options whole wording (f ⟨⟩)) :
    Judged surroundings machine options whole wording (modify g >>= f) :=
  fun _ _ _ _ hrun => h (Attempt.run_modify_bind_iff.1 hrun)

theorem judged_record_bind {signer : Session} {kind : Event.Kind} {details : Event.Details}
    {f : Unit → Attempt Session interface α}
    (h : Judged surroundings machine options whole wording (f ())) :
    Judged surroundings machine options whole wording (record signer kind details >>= f) :=
  judged_bind (judged_of_observes (observes_record signer kind details fun _ _ _ _ _ _ => rfl))
    fun _ _ => h

/-- Faults that `change` words differently on their way out. -/
theorem judged_tryCatch_throw {change : Fault → Fault} {x : Attempt Session interface α}
    (h : Judged surroundings machine options whole (wording ∘ change) x) :
    Judged surroundings machine options whole wording
      (tryCatch x fun fault => throw (change fault)) := by
  intro state exchanges last result hrun hwhole y hy said hsaid
  obtain ⟨ending, hending, rfl⟩ := Attempt.run_tryCatch_throw_iff.1 hrun
  obtain ⟨fault, rfl, htrue⟩ := h hending hwhole y hy said hsaid
  exact ⟨change fault, rfl, htrue⟩

/-! ## Staging -/

/-- A `script` that cannot be rendered is the template's fault. -/
theorem isTemplate_of_script {fault : Fault} (h : script options = .error fault) :
    fault.isTemplate = true := by
  unfold script at h
  split at h
  · obtain rfl := Except.error.inj h
    rfl
  · split at h
    · obtain rfl := Except.error.inj h
      rfl
    · exact absurd h nofun

/-- Putting the code tree in place by `upload`, and then rendering the script. -/
theorem judged_upload_render_bind {directory : Machine.Directory}
    {f : String → Attempt Session interface α}
    (hwording : wording = stagingFault machine.label)
    (hf : ∀ text, Judged surroundings machine options whole wording (f text)) :
    Judged surroundings machine options whole wording (do
      Ask.upload options.codeDirectory.shown directory.path
      let text ← Attempt.ofExcept (script options)
      f text) := by
  subst hwording
  cases hscript : script options with
  | ok text =>
    refine judged_bind (judged_of_request
      (fun reply => ⟨.machine (.upload options.codeDirectory.shown directory.path), reply⟩)
      (fun h => (Program.run_request_iff.1 h).1) (fun _ => ⟨_, rfl, unstaged_stagingFault _ _⟩)
      (fun _ => ?_)) fun _ _ => ?_
    · simp only [verdict?, hscript]
    · exact hf text
  | error fault =>
    have htemplate := isTemplate_of_script hscript
    -- the verdict on the upload is about the script, which comes behind it
    intro state exchanges last result h _ y hy said hsaid
    rcases Attempt.run_bind_iff.1 h with
      ⟨cause, hupload, rfl⟩ | ⟨mid, ⟨⟩, first, second, hupload, hrender, rfl⟩
    · obtain ⟨rfl, rfl⟩ := Program.run_request_iff.1 hupload
      obtain rfl := List.mem_singleton.1 hy
      obtain rfl := Option.some.inj hsaid
      exact ⟨cause, rfl, unstaged_stagingFault machine cause⟩
    · obtain ⟨rfl, rfl⟩ := Program.run_request_iff.1 hupload
      obtain ⟨rfl, rfl, rfl⟩ := Attempt.run_throw_iff.1 hrender
      obtain rfl := List.mem_singleton.1 hy
      simp only [verdict?, hscript, Option.some.injEq] at hsaid
      subst hsaid
      refine ⟨fault, rfl, ?_, htemplate⟩
      rw [stagingFault, if_pos htemplate]

theorem judged_stage :
    Judged surroundings machine options whole (fun fault => fault) (stage machine options) := by
  refine judged_tryCatch_throw (judged_bind ?_ fun {_ _ _ directory} _ _ => ?_)
  · exact judged_of_request (fun reply => ⟨.machine .tempDirectory, reply⟩)
      (fun h => (Program.run_request_iff.1 h).1) (fun _ => ⟨_, rfl, unstaged_stagingFault _ _⟩)
      fun _ => rfl
  refine judged_modify_bind (judged_upload_render_bind rfl fun text => ?_)
  refine judged_bind ?_ fun {_ _ _ path} _ _ => judged_bind ?_ fun _ _ => ?_
  · exact judged_of_request
      (fun reply => ⟨.machine (.joinPath [directory.path, Settings.scriptName]), reply⟩)
      (fun h => (Program.run_request_iff.1 h).1) (fun _ => ⟨_, rfl, unstaged_stagingFault _ _⟩)
      fun _ => rfl
  · exact judged_of_request (fun reply => ⟨.machine (.writeFile path text), reply⟩)
      (fun h => (Program.run_request_iff.1 h).1) (fun _ => ⟨_, rfl, unstaged_stagingFault _ _⟩)
      fun _ => rfl
  · exact judged_of_observes (Attempt.observes_pure path)

/-- The path that `stage` comes to is one that the machine joined. -/
theorem exists_joined_of_run_stage {state last : Session} {asked : List Exchange} {path : String}
    (h : Attempt.Run (stage machine options) state asked last (.ok path)) :
    ∃ parts, ⟨.machine (.joinPath parts), .ok path⟩ ∈ asked := by
  obtain ⟨_ | _, hsteps, hending⟩ := Attempt.run_tryCatch_throw_iff.1 h
  · exact absurd hending nofun
  obtain rfl := Except.ok.inj hending
  obtain ⟨_, directory, made, _, -, hfill, rfl⟩ := Attempt.run_bind_ok hsteps
  rw [Attempt.run_modify_bind_iff] at hfill
  obtain ⟨_, ⟨⟩, uploaded, _, -, hrender, rfl⟩ := Attempt.run_bind_ok hfill
  obtain ⟨_, text, rendered, _, -, hjoin, rfl⟩ := Attempt.run_bind_ok hrender
  obtain ⟨_, joined, joining, _, hjoined, hwrite, rfl⟩ := Attempt.run_bind_ok hjoin
  obtain ⟨_, ⟨⟩, written, _, -, hdone, rfl⟩ := Attempt.run_bind_ok hwrite
  obtain ⟨rfl, -⟩ := Program.run_request_iff.1 hjoined
  obtain ⟨-, -, hpath⟩ := Attempt.run_pure_iff.1 hdone
  obtain rfl := Except.ok.inj hpath
  exact ⟨[directory.path, Settings.scriptName], by simp⟩

/-! ## Looking for an interpreter -/

/-- A search by `firstFound` for the first of some names that the machine has. -/
def search {σ : Type} (host : Option Json) (names : List String) :
    Attempt σ interface Machine.Command := do
  match ← firstFound host names with
  | some command => return command
  | none => throw (.ofInterpreters host names)

variable (surroundings machine options) in
/-- By `resolveInterpreter`, an interpreter is given, or it is the one that was chosen, or there is
a `search` for it. -/
theorem resolveInterpreter_cases {σ : Type} :
    let resolve : Attempt σ interface Machine.Command :=
      resolveInterpreter surroundings machine.name options.interpreter
    (∃ argv, resolve = pure (.given argv)) ∨
      (∃ name, selected? surroundings options = some name ∧ resolve = Ask.which name) ∨
      selected? surroundings options = none ∧
        resolve = search machine.name (Interpreter.candidates surroundings.runtimeVersion) := by
  intro resolve
  -- a selector may come from the caller or from the environment, and counts unless it is empty
  have hselector (selector : String)
      (hselected : selected? surroundings options = (some selector).filter (· ≠ ""))
      (hresolve : resolve = if selector = "" then
        search machine.name (Interpreter.candidates surroundings.runtimeVersion)
        else Ask.which selector) :
      (∃ argv, resolve = pure (.given argv)) ∨
        (∃ name, selected? surroundings options = some name ∧ resolve = Ask.which name) ∨
        selected? surroundings options = none ∧
          resolve = search machine.name (Interpreter.candidates surroundings.runtimeVersion) := by
    by_cases hempty : selector = ""
    · rw [if_pos hempty] at hresolve
      refine .inr (.inr ⟨hselected.trans ?_, hresolve⟩)
      simp [hempty]
    · rw [if_neg hempty] at hresolve
      refine .inr (.inl ⟨selector, hselected.trans ?_, hresolve⟩)
      simp [hempty]
  cases hchoice : options.interpreter with
  | none =>
    cases henvironment : surroundings.selector with
    | none =>
      refine .inr (.inr ⟨?_, ?_⟩)
      · simp only [selected?, hchoice, henvironment, Option.filter_none]
      · simp only [resolve, resolveInterpreter, hchoice, henvironment]
        rfl
    | some selector =>
      refine hselector selector ?_ ?_
      · simp only [selected?, hchoice, henvironment]
      · simp only [resolve, resolveInterpreter, hchoice, henvironment]
        rfl
  | some choice =>
    cases choice with
    | command argv =>
      refine .inl ⟨argv, ?_⟩
      simp only [resolve, resolveInterpreter, hchoice]
    | named selector =>
      refine hselector selector.shown ?_ ?_
      · simp only [selected?, hchoice]
      · simp only [resolve, resolveInterpreter, hchoice]
        rfl

/-- How `firstFound` goes through its names: up to the first one that is there, or to a fault that
tells of something else than a missing command. -/
inductive Searches : List String → List Exchange → Except Fault (Option Machine.Command) → Prop
  | exhausted : Searches [] [] (.ok none)
  | found {name : String} {rest : List String} {command : Machine.Command} {line : Console.Line} :
      Searches (name :: rest) [⟨.machine (.which name), .ok command⟩, ⟨.report line, ()⟩]
        (.ok (some command))
  | missing {name : String} {command host : Option Json} {rest : List String} {line : Console.Line}
      {asked : List Exchange} {found : Except Fault (Option Machine.Command)} :
      Searches rest asked found →
      Searches (name :: rest)
        (⟨.machine (.which name), .error (.commandNotFound command host)⟩ ::
          ⟨.report line, ()⟩ :: asked) found
  | broken {name : String} {rest : List String} {fault : Fault} :
      (∀ command host, fault ≠ .commandNotFound command host) →
      Searches (name :: rest) [⟨.machine (.which name), .error fault⟩] (.error fault)

theorem searches_of_run_firstFound {host : Option Json} {names : List String}
    {state last : Session} {asked : List Exchange} {found : Except Fault (Option Machine.Command)}
    (h : Attempt.Run (firstFound host names) state asked last found) :
    Searches names asked found := by
  -- one request for each name, so the induction is on the names that are left
  induction names generalizing state asked with
  | nil =>
    obtain ⟨rfl, -, rfl⟩ := Attempt.run_pure_iff.1 h
    exact .exhausted
  | cons name rest ih =>
    obtain ⟨mid, reply, first, second, hask, hrest, rfl⟩ := Attempt.run_outcome_bind_iff.1 h
    obtain ⟨rfl, rfl⟩ := Program.run_request_iff.1 hask
    split at hrest
    · obtain ⟨_, ⟨⟩, noted, done, hnote, hdone, rfl⟩ := Attempt.run_lift_bind_iff.1 hrest
      obtain ⟨rfl, rfl⟩ := Program.run_request_iff.1 hnote
      obtain ⟨rfl, -, rfl⟩ := Attempt.run_pure_iff.1 hdone
      exact .found
    · obtain ⟨_, ⟨⟩, noted, later, hnote, hlater, rfl⟩ := Attempt.run_lift_bind_iff.1 hrest
      obtain ⟨rfl, rfl⟩ := Program.run_request_iff.1 hnote
      exact .missing (ih hlater)
    · rename_i fault hother
      obtain ⟨rfl, -, rfl⟩ := Attempt.run_throw_iff.1 hrest
      exact .broken hother

/-- A fault that ends every search. -/
theorem verdict?_of_which {name : String} {fault : Fault}
    (h : ∀ command host, fault ≠ .commandNotFound command host) :
    verdict? surroundings machine options whole ⟨.machine (.which name), .error fault⟩
      = some (· = fault) := by
  cases fault with
  | commandNotFound command host => exact absurd rfl (h command host)
  | _ => rfl

/-- While one name after another is tried by `firstFound`, only a fault that tells of something else
than a missing command is the end of it. -/
theorem judged_firstFound (hselected : selected? surroundings options = none) (host : Option Json)
    (names : List String) :
    Judged surroundings machine options whole (fun fault => fault) (firstFound host names) := by
  intro state exchanges last result h hwhole y hy said hsaid
  have hsearch := searches_of_run_firstFound h
  clear h hwhole
  induction hsearch with
  | exhausted => exact absurd hy List.not_mem_nil
  | found =>
    obtain rfl | hnote := List.mem_cons.1 hy
    · exact absurd hsaid nofun
    · obtain rfl := List.mem_singleton.1 hnote
      exact absurd hsaid nofun
  | missing hlater ih =>
    obtain rfl | hy := List.mem_cons.1 hy
    · simp only [verdict?, hselected] at hsaid
      exact absurd hsaid nofun
    obtain rfl | hy := List.mem_cons.1 hy
    · exact absurd hsaid nofun
    · exact ih hy
  | broken hother =>
    obtain rfl := List.mem_singleton.1 hy
    rw [verdict?_of_which hother] at hsaid
    obtain rfl := Option.some.inj hsaid
    exact ⟨_, rfl, rfl⟩

theorem judged_resolveInterpreter :
    Judged surroundings machine options whole (fun fault => fault)
      (resolveInterpreter surroundings machine.name options.interpreter) := by
  rcases resolveInterpreter_cases surroundings machine options with
    ⟨argv, hresolve⟩ | ⟨name, hselected, hresolve⟩ | ⟨hselected, hresolve⟩
  · rw [hresolve]
    exact judged_of_observes (Attempt.observes_pure _)
  · rw [hresolve]
    refine judged_of_request (fun reply => ⟨.machine (.which name), reply⟩)
      (fun h => (Program.run_request_iff.1 h).1) (fun fault => ?_) fun _ => rfl
    cases fault with
    | commandNotFound command host => exact ⟨_, if_pos hselected, rfl⟩
    | _ => exact ⟨_, rfl, rfl⟩
  · rw [hresolve]
    refine judged_bind (judged_firstFound hselected _ _) fun {_ _ _ found} _ _ => ?_
    cases found with
    | none => exact judged_of_observes (Attempt.observes_throw _)
    | some command => exact judged_of_observes (Attempt.observes_pure command)

/-! ## Launch and handshake -/

/-- A `launch` is judged where its path is one that the machine joined. -/
theorem judged_launch {interpreter : Machine.Command} {path : String} {parts : List String}
    (hjoined : ⟨.machine (.joinPath parts), .ok path⟩ ∈ whole) :
    Judged surroundings machine options whole (fun fault => fault) (launch interpreter path) := by
  refine judged_tryCatch_throw ?_
  intro state exchanges last result h _ y hy said hsaid
  obtain ⟨rfl, rfl⟩ := Program.run_request_iff.1 h
  obtain rfl := List.mem_singleton.1 hy
  rcases result with fault | running
  · obtain rfl := Option.some.inj hsaid
    exact ⟨fault, rfl, parts, path, hjoined, rfl⟩
  · exact absurd hsaid nofun

/-- Waiting by `drain` for a process that was asked to stop ends with its output, or with a fault
that nobody could be expected to deal with. -/
theorem brokenOff_of_run_drain {known state last : Session} {running : Machine.Running}
    {asked : List Exchange} {ending : Except Fault Output}
    (h : Attempt.Run (drain known running) state asked last ending) (hwhole : asked ⊆ whole) :
    match ending with
    | .ok rest => ∃ limit, ⟨.control (.communicate (.process running) limit), .ok rest⟩ ∈ whole
    | .error fault => BrokenOff whole running fault := by
  obtain ⟨mid, reply, first, second, hask, hrest, rfl⟩ := Attempt.run_outcome_bind_iff.1 h
  obtain ⟨rfl, rfl⟩ := Program.run_request_iff.1 hask
  obtain ⟨hfirst, hsecond⟩ := List.append_subset.1 hwhole
  have hreply := hfirst (List.mem_singleton_self _)
  rcases reply with fault | output
  · dsimp only at hrest
    split at hrest
    · -- the limit ran out, and the process is stopped by force
      rcases Attempt.run_bind_iff.1 hrest with
        ⟨cause, hkill, rfl⟩ | ⟨_, ⟨⟩, third, fourth, -, hwait, rfl⟩
      · obtain ⟨rfl, rfl⟩ := Program.run_request_iff.1 hkill
        exact .unstoppable (hsecond (List.mem_singleton_self _))
      · obtain ⟨rfl, rfl⟩ := Program.run_request_iff.1 hwait
        have hlast := (List.append_subset.1 hsecond).2 (List.mem_singleton_self _)
        rcases ending with cause | output
        · exact .unawaited hlast rfl
        · exact ⟨none, hlast⟩
    · rename_i hexpired
      obtain ⟨-, -, rfl⟩ := Attempt.run_throw_iff.1 hrest
      exact .unawaited hreply (eq_false_of_ne_true hexpired)
  · obtain ⟨-, -, rfl⟩ := Attempt.run_pure_iff.1 hrest
    exact ⟨_, hreply⟩

/-- A process without a port is waited for by `drain`, and then it is reported. -/
theorem brokenOff_of_run_stopAndReport {known state last : Session} {running : Machine.Running}
    {asked : List Exchange} {ending : Except Fault Nat}
    (h : Attempt.Run (do
      match ← ExceptT.lift (Ask.terminate (.process running)).outcome with
      | .ok () => pure ()
      | .error fault => report .debug ("Terminate after failed handshake: " ++ fault.message)
      let rest ← drain known running
      let exitCode ← Ask.exitCode running
      let consumed ← Ask.consumedOutput running
      throw (.processFailed running.argv exitCode (consumed ++ rest.stdout) rest.stderr))
      state asked last ending) (hwhole : asked ⊆ whole) :
    ∃ fault, ending = .error fault ∧ BrokenOff whole running fault := by
  have hdrained {state : Session} {asked : List Exchange} (h : Attempt.Run (do
      let rest ← drain known running
      let exitCode ← Ask.exitCode running
      let consumed ← Ask.consumedOutput running
      throw (.processFailed running.argv exitCode (consumed ++ rest.stdout) rest.stderr))
      state asked last ending) (hwhole : asked ⊆ whole) :
      ∃ fault, ending = .error fault ∧ BrokenOff whole running fault := by
    rcases Attempt.run_bind_iff.1 h with
      ⟨fault, hdrain, rfl⟩ | ⟨_, output, first, second, hdrain, hlook, rfl⟩
    · exact ⟨fault, rfl, brokenOff_of_run_drain hdrain hwhole⟩
    · obtain ⟨hfirst, hsecond⟩ := List.append_subset.1 hwhole
      obtain ⟨limit, hwaited⟩ := brokenOff_of_run_drain hdrain hfirst
      obtain ⟨_, exitCode, _, _, hcode, hread, rfl⟩ := Attempt.run_lift_bind_iff.1 hlook
      obtain ⟨_, consumed, _, _, hconsumed, hthrow, rfl⟩ := Attempt.run_lift_bind_iff.1 hread
      obtain ⟨rfl, -⟩ := Program.run_request_iff.1 hcode
      obtain ⟨rfl, -⟩ := Program.run_request_iff.1 hconsumed
      obtain ⟨-, -, rfl⟩ := Attempt.run_throw_iff.1 hthrow
      exact ⟨_, rfl, .reported hwaited (hsecond (by simp)) (hsecond (by simp))⟩
  obtain ⟨mid, reply, first, second, -, hrest, rfl⟩ := Attempt.run_outcome_bind_iff.1 h
  obtain ⟨-, hsecond⟩ := List.append_subset.1 hwhole
  split at hrest
  · exact hdrained hrest hsecond
  · obtain ⟨_, third, -, hdrain, rfl⟩ := (Attempt.run_bind_iff_of_ok run_report_iff).1 hrest
    exact hdrained hdrain (List.append_subset.1 hsecond).2

theorem judged_handshake (known : Session) (running : Machine.Running) :
    Judged surroundings machine options whole (fun fault => fault) (handshake known running) := by
  intro state exchanges last result h hwhole y hy said hsaid
  rcases Attempt.run_bind_iff.1 h with
    ⟨fault, hread, -⟩ | ⟨mid, port, first, second, hread, hrest, rfl⟩
  · obtain ⟨reply, -, -, hfault⟩ := run_readPort hread
    exact absurd hfault nofun
  obtain ⟨reply, hcalls, rfl, hport⟩ := run_readPort hread
  obtain rfl := Except.ok.inj hport
  obtain ⟨-, hsecond⟩ := List.append_subset.1 hwhole
  -- the line is the only thing that is judged of reading the port
  have hline (hfirst : y ∈ first) : y = ⟨.control (.readLine running
      (known.options.handshakeTimeout.map Timeout.ofNumber)), reply⟩ := by
    rw [← List.mem_singleton, ← hcalls]
    refine List.mem_filter.2 ⟨hfirst, ?_⟩
    cases hnote : y.request.isNote with
    | true => exact absurd ((verdict?_of_isNote hnote).symm.trans hsaid) nofun
    | false => rfl
  cases hreported : reportedPort? reply with
  | some port =>
    rw [hreported] at hrest
    obtain ⟨rfl, -, -⟩ := Attempt.run_pure_iff.1 hrest
    rw [List.append_nil] at hy
    obtain rfl := hline hy
    simp only [verdict?, hreported] at hsaid
    exact absurd hsaid nofun
  | none =>
    rw [hreported] at hrest
    rcases List.mem_append.1 hy with hfirst | hlater
    · obtain rfl := hline hfirst
      simp only [verdict?, hreported] at hsaid
      obtain rfl := Option.some.inj hsaid
      exact brokenOff_of_run_stopAndReport hrest hsecond
    · have hstop : Attempt.Observes
          (fun r => ∀ reply, verdict? surroundings machine options whole ⟨r, reply⟩ = none) _ :=
        observes_stopAndReport
          (fun _ (hhandles : Request.Handles running _) _ => verdict?_of_handles hhandles)
          (fun _ _ => rfl) known
      have hnone := (Program.Run.of_observes hrest hstop).2 y hlater y.reply
      exact absurd (hnone.symm.trans hsaid) nofun

/-! ## The whole start -/

/-- What `acquire` does is `Judged`, on the machine that the session holds and with its options. -/
theorem judged_acquire {session last : Session} {exchanges : List Exchange}
    {result : Except Fault Unit} (hmachine : session.machine = some machine)
    (hoptions : session.options = options)
    (h : Attempt.Run (acquire surroundings) session exchanges last result)
    (hwhole : exchanges ⊆ whole) :
    ∀ y ∈ exchanges, ∀ said, verdict? surroundings machine options whole y = some said →
      ∃ fault, result = .error fault ∧ said fault := by
  subst hoptions
  rw [acquire] at h
  obtain ⟨_, exchanges, rfl, hacquire, rfl⟩ :=
    (Attempt.run_bind_iff_of_ok (run_requireMachine_iff hmachine)).1 h
  rw [Attempt.run_get_bind_iff] at hacquire
  refine judged_bind judged_stage (fun hstage hstaged => ?_) hacquire hwhole
  obtain ⟨parts, hjoined⟩ := exists_joined_of_run_stage hstage
  refine judged_record_bind (judged_bind judged_resolveInterpreter
    fun {_ _ _ interpreter} _ _ => ?_)
  refine judged_bind (judged_launch (hstaged hjoined)) fun {_ _ _ running} _ _ => ?_
  refine judged_modify_bind (judged_record_bind ?_)
  refine judged_bind (judged_handshake _ running) fun {_ _ _ remotePort} _ _ => ?_
  refine judged_modify_bind (judged_record_bind ?_)
  refine judged_bind (judged_of_request (fun reply => ⟨.control (.discardOutput running), reply⟩)
    (fun h => (Program.run_request_iff.1 h).1) (fun _ => ⟨_, rfl, rfl⟩) fun _ => rfl) fun _ _ => ?_
  cases machine.connectivity with
  | direct =>
    intro state asked _ _ hmodify _ y hy
    obtain ⟨rfl, -, -⟩ := Attempt.run_modify_iff.1 hmodify
    exact absurd hy List.not_mem_nil
  | tunnel name =>
    refine judged_bind (judged_of_request (fun reply => ⟨.freePort, reply⟩)
      (fun h => (Program.run_request_iff.1 h).1) (fun _ => ⟨_, rfl, rfl⟩) fun _ => rfl)
      fun {_ _ _ localPort} _ _ => ?_
    refine judged_modify_bind (judged_bind (judged_of_request
      (fun reply => ⟨.machine (.openTunnel (.ofNat localPort) (.ofNat remotePort)), reply⟩)
      (fun h => (Program.run_request_iff.1 h).1) (fun _ => ⟨_, rfl, rfl⟩) fun _ => rfl)
      fun _ _ => ?_)
    refine judged_modify_bind (judged_of_observes ?_)
    exact observes_record _ _ _ fun _ _ _ _ _ _ => rfl

end Judged

/-! ## A search that finds nothing -/

/-- The name of a command that an exchange says is missing. -/
def Exchange.missed? : Exchange → Option String
  | ⟨.machine (.which name), .error (.commandNotFound ..)⟩ => some name
  | _ => none

/-- The names that were looked up and are missing, each `missed?`, in their order. -/
def missed (exchanges : List Exchange) : List String := exchanges.filterMap Exchange.missed?

section Table

variable (surroundings : Surroundings) (machine : Machine) (options : Options)
  (whole exchanges : List Exchange)

/-- Some exchanges explain why a start fails: there is a `verdict?` on one of them, or they miss
every candidate for the interpreter. -/
def Blamed : Prop :=
  (∃ x ∈ exchanges, verdict? surroundings machine options whole x ≠ none) ∨
    missed exchanges = Interpreter.candidates surroundings.runtimeVersion

end Table

section Search

variable {surroundings : Surroundings} {machine : Machine} {options : Options}
  {state last : Session} {whole asked : List Exchange}

theorem missed_append (first second : List Exchange) :
    missed (first ++ second) = missed first ++ missed second := List.filterMap_append

theorem missed_calls (exchanges : List Exchange) : missed (calls exchanges) = missed exchanges := by
  rw [missed, calls, List.filterMap_filter]
  refine List.filterMap_congr fun x _ => ?_
  obtain ⟨request, reply⟩ := x
  cases request <;> rfl

/-- A search comes to the end of its names just if it has `missed` them all. -/
theorem Searches.eq_none_iff {names : List String} {found : Except Fault (Option Machine.Command)}
    (h : Searches names asked found) : found = .ok none ↔ missed asked = names := by
  induction h with
  | exhausted => exact iff_of_true rfl rfl
  | found => exact iff_of_false nofun nofun
  | missing hlater ih => exact ih.trans (List.cons_inj_right _).symm
  | @broken _ _ fault hother =>
    refine iff_of_false nofun ?_
    cases fault with
    | commandNotFound command host => exact absurd rfl (hother command host)
    | _ => exact nofun

/-- A search that is broken off is so because of one of its exchanges. -/
theorem Searches.blamed {names : List String} {fault : Fault}
    (h : Searches names asked (.error fault)) :
    ∃ x ∈ asked, verdict? surroundings machine options whole x ≠ none := by
  generalize hfound : (.error fault : Except Fault (Option Machine.Command)) = found at h
  induction h with
  | exhausted | found => exact absurd hfound nofun
  | missing hlater ih =>
    obtain ⟨x, hx, hverdict⟩ := ih hfound
    exact ⟨x, .tail _ (.tail _ hx), hverdict⟩
  | broken hother =>
    refine ⟨_, .head _, ?_⟩
    rw [verdict?_of_which hother]
    exact nofun

/-- Where every candidate is missing, `resolveInterpreter` fails with that. -/
theorem error_of_run_resolveInterpreter {found : Except Fault Machine.Command}
    (h : Attempt.Run (resolveInterpreter surroundings machine.name options.interpreter) state asked
      last found)
    (hmissed : missed asked = Interpreter.candidates surroundings.runtimeVersion) :
    found = .error (.ofInterpreters machine.name
      (Interpreter.candidates surroundings.runtimeVersion)) := by
  have hlength : (missed asked).length = 3 := by
    rw [hmissed, Interpreter.candidates]
    rfl
  rcases resolveInterpreter_cases surroundings machine options with
    ⟨argv, hresolve⟩ | ⟨name, -, hresolve⟩ | ⟨-, hresolve⟩
  · rw [hresolve] at h
    obtain ⟨rfl, -, -⟩ := Attempt.run_pure_iff.1 h
    exact absurd hlength (by decide)
  · rw [hresolve] at h
    obtain ⟨rfl, -⟩ := Program.run_request_iff.1 h
    have hone := List.length_filterMap_le Exchange.missed? [⟨.machine (.which name), found⟩]
    rw [missed] at hlength
    rw [List.length_singleton] at hone
    omega
  · rw [hresolve] at h
    rcases Attempt.run_bind_iff.1 h with
      ⟨fault, hfirst, -⟩ | ⟨mid, found', first, second, hfirst, hrest, rfl⟩
    · exact absurd ((searches_of_run_firstFound hfirst).eq_none_iff.2 hmissed) nofun
    · cases found' with
      | none => exact (Attempt.run_throw_iff.1 hrest).2.2
      | some command =>
        obtain ⟨rfl, -, -⟩ := Attempt.run_pure_iff.1 hrest
        rw [List.append_nil] at hmissed
        exact absurd ((searches_of_run_firstFound hfirst).eq_none_iff.2 hmissed) nofun

/-- A `resolveInterpreter` fails because of one exchange, or it misses every candidate. -/
theorem blamed_of_run_resolveInterpreter {fault : Fault}
    (h : Attempt.Run (resolveInterpreter surroundings machine.name options.interpreter) state asked
      last (.error fault)) :
    Blamed surroundings machine options whole asked := by
  rcases resolveInterpreter_cases surroundings machine options with
    ⟨argv, hresolve⟩ | ⟨name, hselected, hresolve⟩ | ⟨-, hresolve⟩
  · rw [hresolve] at h
    exact absurd (Attempt.run_pure_iff.1 h).2.2 nofun
  · rw [hresolve] at h
    obtain ⟨rfl, -⟩ := Program.run_request_iff.1 h
    refine .inl ⟨_, .head _, ?_⟩
    cases fault with
    | commandNotFound command host =>
      simp only [verdict?, hselected, if_true]
      exact nofun
    | _ => exact nofun
  · rw [hresolve] at h
    rcases Attempt.run_bind_iff.1 h with
      ⟨cause, hfirst, -⟩ | ⟨mid, found, first, second, hfirst, hrest, rfl⟩
    · exact .inl (searches_of_run_firstFound hfirst).blamed
    · cases found with
      | none =>
        obtain ⟨rfl, -⟩ := Attempt.run_throw_iff.1 hrest
        rw [List.append_nil]
        exact .inr ((searches_of_run_firstFound hfirst).eq_none_iff.1 rfl)
      | some command => exact absurd (Attempt.run_pure_iff.1 hrest).2.2 nofun

/-- No other `Stage` looks anything up. -/
theorem Does.missed_eq_nil {haul : Haul} {stage : Stage} {ending : Except Fault Haul}
    (h : Does surroundings machine options haul stage asked ending)
    (hstage : stage ≠ .findInterpreter) : missed asked = [] := by
  cases h with
  | findInterpreter => exact absurd rfl hstage
  | brokenHandshake reply _ _ hhandles =>
    refine List.filterMap_eq_nil_iff.2 (List.forall_mem_cons.2 ⟨rfl, fun x hx => ?_⟩)
    obtain ⟨request, reply⟩ := x
    cases request with
    | control request => rfl
    | _ => exact (hhandles _ hx).elim
  | render | handshake => rfl
  | _ => rfl

theorem Does.error_of_missed {haul : Haul} {ending : Except Fault Haul}
    (h : Does surroundings machine options haul .findInterpreter asked ending)
    (hmissed : missed asked = Interpreter.candidates surroundings.runtimeVersion) :
    ending = .error (.ofInterpreters machine.name
      (Interpreter.candidates surroundings.runtimeVersion)) := by
  cases h with
  | findInterpreter hrun =>
    rw [missed_calls] at hmissed
    rw [error_of_run_resolveInterpreter hrun hmissed]
    rfl

theorem Proceeds.missed_eq_nil {stages : List Stage} {haul reached : Haul}
    {result : Except Fault Unit}
    (h : Proceeds surroundings machine options stages haul asked result reached)
    (hstages : .findInterpreter ∉ stages) : missed asked = [] := by
  induction h with
  | arrived haul => rfl
  | stopped hdoes => exact hdoes.missed_eq_nil (List.ne_of_not_mem_cons hstages).symm
  | onward hdoes hrest ih =>
    rw [missed_append, hdoes.missed_eq_nil (List.ne_of_not_mem_cons hstages).symm,
      ih (List.not_mem_of_not_mem_cons hstages)]
    rfl

/-- Only one of two parts of a walk looks anything up. -/
theorem missed_eq_nil_or {stage : Stage} {rest : List Stage} {haul next reached : Haul}
    {ending : Except Fault Haul} {result : Except Fault Unit} {first second : List Exchange}
    (hdoes : Does surroundings machine options haul stage first ending)
    (hrest : Proceeds surroundings machine options rest next second result reached)
    (hfresh : stage ∉ rest) :
    (stage = .findInterpreter ∧ missed second = []) ∨ missed first = [] := by
  by_cases hstage : stage = .findInterpreter
  · subst hstage
    exact .inl ⟨rfl, hrest.missed_eq_nil hfresh⟩
  · exact .inr (hdoes.missed_eq_nil hstage)

theorem candidates_ne_nil : Interpreter.candidates surroundings.runtimeVersion ≠ [] := by
  rw [Interpreter.candidates]
  exact List.cons_ne_nil _ _

/-- A start that has `missed` every candidate fails with that. -/
theorem Proceeds.error_of_missed {stages : List Stage} {haul reached : Haul}
    {result : Except Fault Unit}
    (h : Proceeds surroundings machine options stages haul asked result reached)
    (hnodup : stages.Nodup)
    (hmissed : missed asked = Interpreter.candidates surroundings.runtimeVersion) :
    result = .error (.ofInterpreters machine.name
      (Interpreter.candidates surroundings.runtimeVersion)) := by
  induction h with
  | arrived haul => exact absurd hmissed.symm candidates_ne_nil
  | @stopped stage rest haul asked fault hdoes =>
    by_cases hstage : stage = .findInterpreter
    · subst hstage
      exact congrArg Except.error (Except.error.inj (hdoes.error_of_missed hmissed))
    · rw [hdoes.missed_eq_nil hstage] at hmissed
      exact absurd hmissed.symm candidates_ne_nil
  | onward hdoes hrest ih =>
    obtain ⟨hfresh, hnodup⟩ := List.nodup_cons.1 hnodup
    rw [missed_append] at hmissed
    rcases missed_eq_nil_or hdoes hrest hfresh with ⟨rfl, hnone⟩ | hnone
    · -- the search succeeded
      rw [hnone, List.append_nil] at hmissed
      exact absurd (hdoes.error_of_missed hmissed) nofun
    · rw [hnone, List.nil_append] at hmissed
      exact ih hnodup hmissed

/-! ## What is to blame -/

/-- Whatever `Stage` fails, there is something to blame for it among what it asked for. Only to
render the script takes no exchange. -/
theorem Does.blamed {haul : Haul} {stage : Stage} {fault : Fault}
    (h : Does surroundings machine options haul stage asked (.error fault))
    (hscript : stage = .render → ∃ text, script options = .ok text) :
    Blamed surroundings machine options whole asked := by
  generalize hending : (.error fault : Except Fault Haul) = ending at h
  cases h with
  | makeDirectory reply | upload reply | placeScript reply | writeScript reply | launch reply
  | discardOutput reply | freePort reply | openTunnel reply =>
    cases reply with
    | error cause => exact .inl ⟨_, .head _, nofun⟩
    | ok => exact absurd hending nofun
  | render =>
    obtain ⟨text, htext⟩ := hscript rfl
    rw [htext] at hending
    exact absurd hending nofun
  | @findInterpreter _ exchanges found hrun =>
    cases found with
    | error cause =>
      rcases blamed_of_run_resolveInterpreter hrun with ⟨x, hx, hverdict⟩ | hmissed
      · refine .inl ⟨x, List.mem_filter.2 ⟨hx, ?_⟩, hverdict⟩
        rw [Bool.not_eq_true', ← Bool.not_eq_true]
        exact fun hnote => hverdict (verdict?_of_isNote hnote)
      · exact .inr ((missed_calls exchanges).trans hmissed)
    | ok command => exact absurd hending nofun
  | handshake => exact absurd hending nofun
  | brokenHandshake reply _ hreported =>
    refine .inl ⟨_, .head _, ?_⟩
    simp only [verdict?, hreported]
    exact nofun

theorem Blamed.of_calls {exchanges : List Exchange}
    (h : Blamed surroundings machine options whole (calls exchanges)) :
    Blamed surroundings machine options whole exchanges := by
  rcases h with ⟨x, hx, hverdict⟩ | hmissed
  · exact .inl ⟨x, (List.mem_filter.1 hx).1, hverdict⟩
  · exact .inr ((missed_calls exchanges).symm.trans hmissed)

/-- An `upload` is to blame for a script that cannot be rendered behind it. -/
theorem Does.blamed_of_script {haul : Haul} {ending : Except Fault Haul} {fault : Fault}
    (h : Does surroundings machine options haul .upload asked ending)
    (hscript : script options = .error fault) :
    ∃ x ∈ asked, verdict? surroundings machine options whole x ≠ none := by
  cases h with
  | upload reply =>
    refine ⟨_, .head _, ?_⟩
    cases reply with
    | error cause => exact nofun
    | ok =>
      simp only [verdict?, hscript]
      exact nofun

/-- What is `Blamed` for the failure of a walk is to blame for whoever came from further away. -/
theorem Blamed.onward {stage : Stage} {rest : List Stage} {haul next reached : Haul}
    {ending : Except Fault Haul} {result : Except Fault Unit} {first second : List Exchange}
    (h : Blamed surroundings machine options whole second)
    (hdoes : Does surroundings machine options haul stage first ending)
    (hrest : Proceeds surroundings machine options rest next second result reached)
    (hfresh : stage ∉ rest) : Blamed surroundings machine options whole (first ++ second) := by
  rcases h with ⟨x, hx, hverdict⟩ | hmissed
  · exact .inl ⟨x, List.mem_append_right first hx, hverdict⟩
  · rcases missed_eq_nil_or hdoes hrest hfresh with ⟨-, hnone⟩ | hnone
    · exact absurd (hmissed.symm.trans hnone) candidates_ne_nil
    · refine .inr ?_
      rw [missed_append, hnone, List.nil_append, hmissed]

theorem Proceeds.blamed {stages : List Stage} {haul reached : Haul} {fault : Fault}
    (h : Proceeds surroundings machine options stages haul asked (.error fault) reached)
    (hnodup : stages.Nodup) (hscript : .render ∈ stages → ∃ text, script options = .ok text) :
    Blamed surroundings machine options whole asked := by
  generalize hended : (.error fault : Except Fault Unit) = ended at h
  induction h with
  | arrived haul => exact absurd hended nofun
  | stopped hdoes => exact hdoes.blamed fun hstage => hscript (hstage ▸ .head _)
  | onward hdoes hrest ih =>
    obtain ⟨hfresh, hnodup⟩ := List.nodup_cons.1 hnodup
    exact (ih hnodup (fun hstage => hscript (.tail _ hstage)) hended).onward hdoes hrest hfresh

theorem nodup_itinerary (connectivity : Connectivity) : (itinerary connectivity).Nodup := by
  cases connectivity <;> simp [itinerary]

/-- A start never fails for nothing: something is `Blamed`. -/
theorem blamed_of_proceeds_itinerary {connectivity : Connectivity} {haul reached : Haul}
    {fault : Fault}
    (h : Proceeds surroundings machine options (itinerary connectivity) haul asked (.error fault)
      reached) :
    Blamed surroundings machine options whole asked := by
  have hnodup := nodup_itinerary connectivity
  cases hscript : script options with
  | ok text => exact h.blamed hnodup fun _ => ⟨text, hscript⟩
  | error cause =>
    cases h with
    | stopped hmake => exact hmake.blamed nofun
    | @onward _ _ _ _ _ first second _ hmake hrest =>
      have hblamed : Blamed surroundings machine options whole second := by
        cases hrest with
        | stopped hupload => exact .inl (hupload.blamed_of_script hscript)
        | onward hupload =>
          obtain ⟨x, hx, hverdict⟩ := hupload.blamed_of_script hscript
          exact .inl ⟨x, List.mem_append_left _ hx, hverdict⟩
      exact hblamed.onward hmake hrest (List.nodup_cons.1 hnodup).1

end Search

/-! ## What the caller is told -/

/-- **What a start fails with.** Whatever a new session is created with, and whatever replies it
gets, its start ends. If one of its exchanges has a `verdict?`, the start fails, with a fault of
which the verdict is true; and if every candidate for the interpreter is `missed`, it fails with all
of them. It fails for nothing else. Whatever it fails with, the session is failed then, and its
event log was told of this very fault at last: its message, and an exit code just if a process
failed. -/
theorem failures_told_apart {σ : Type} {machine : Machine} {input : Options.Input} {s s' : σ}
    {setup : List Exchange} {session : Session}
    (hcreate : Attempt.Run (create machine input : Attempt σ interface Session) s setup s'
      (.ok session))
    (surroundings : Surroundings) (answer : List Exchange → (r : Request) → interface.Reply r) :
    ∃ exchanges last result,
      (start surroundings).outcome.play answer [] session = (exchanges, last, result) ∧
      (∀ x ∈ exchanges, ∀ said,
        verdict? surroundings machine session.options exchanges x = some said →
        ∃ fault, result = .error fault ∧ said fault) ∧
      (missed exchanges = Interpreter.candidates surroundings.runtimeVersion →
        result = .error (.ofInterpreters machine.name
          (Interpreter.candidates surroundings.runtimeVersion))) ∧
      ∀ fault, result = .error fault →
        Blamed surroundings machine session.options exchanges exchanges ∧
        last.state = .failed ∧
        (∃ before, exchanges = before ++ session.identity.recorded .startFailed
          { reason := some fault.message, exitCode := fault.exitCode? }) ∧
        (fault.exitCode? ≠ none ↔
          ∃ argv exitCode stdout stderr, fault = .processFailed argv exitCode stdout stderr) := by
  generalize hplay : (start surroundings).outcome.play answer [] session = played
  obtain ⟨exchanges, last, result⟩ := played
  have hrun : Attempt.Run (start surroundings) session exchanges last result := by
    have hrun := Program.run_play answer [] (start surroundings).outcome session
    rw [hplay] at hrun
    exact hrun
  obtain ⟨id, options, rfl⟩ := eq_of_run_create hcreate
  refine ⟨exchanges, last, result, rfl, ?_, ?_, ?_⟩
  · obtain ⟨mid, first, second, hacquire, rfl, hnotes, -⟩ := run_start_of_created rfl hrun
    intro x hx said hsaid
    rcases List.mem_append.1 hx with hfirst | hnote
    · exact judged_acquire rfl rfl hacquire (List.subset_append_left first second) x hfirst said
        hsaid
    · exact absurd ((verdict?_of_isNote (hnotes x hnote)).symm.trans hsaid) nofun
  · intro hmissed
    obtain ⟨haul, hproceeds, -⟩ := run_start_of_new rfl rfl rfl hrun
    rw [← missed_calls] at hmissed
    exact hproceeds.error_of_missed (nodup_itinerary machine.connectivity) hmissed
  · rintro fault rfl
    obtain ⟨haul, hproceeds, hlast⟩ := run_start_of_new rfl rfl rfl hrun
    obtain ⟨mid, first, -, hexchanges, -⟩ := announced_of_run_start rfl hrun
    refine ⟨(blamed_of_proceeds_itinerary hproceeds).of_calls, ?_, ⟨first, ?_⟩,
      Fault.exitCode?_ne_none_iff⟩
    · rw [hlast]
      rfl
    · rw [hexchanges, announcement, hlast]
      rfl

/-- What a machine says whose own way of copying files is a process that failed. -/
def copyFailed : Fault := .processFailed [.string "scp"] (.int 1) [] []

/-- A machine that grants everything but copies. -/
def refusesCopies : (r : Request) → interface.Reply r
  | .machine (.upload ..) => .error copyFailed
  | r => granted r

/-- A failed process is only the cause where it was a copy that failed, and the event log is told of
no exit code. -/
theorem failed_copy_told : ∃ exchanges last message before,
    (start ⟨"20.11.1", none⟩).outcome.play (fun _ => refusesCopies) [] audited
      = (exchanges, last, .error (.staging message (some copyFailed))) ∧
    last.state = .failed ∧
    exchanges = before ++ audited.identity.recorded .startFailed { reason := some message } := by
  obtain ⟨exchanges, last, result, hplay, hjudged, -, htold⟩ :=
    failures_told_apart (run_create_audited ()) ⟨"20.11.1", none⟩ fun _ => refusesCopies
  have hcopy :
      ⟨.machine (.upload audited.options.codeDirectory.shown "/tmp/d-1"), .error copyFailed⟩
      ∈ exchanges := by
    have hexchanges : _ = exchanges := congrArg Prod.fst hplay
    rw [← hexchanges]
    exact .tail _ (.head _)
  obtain ⟨fault, rfl, hfault⟩ := hjudged _ hcopy _ rfl
  obtain ⟨-, hstate, ⟨before, hbefore⟩, -⟩ := htold fault rfl
  cases hfault with
  | template htemplate => exact absurd htemplate Bool.false_ne_true
  | caused => exact ⟨exchanges, last, _, before, hplay, hstate, hbefore⟩

end Session

end Outpost

import Outpost.Machine.Local
import Outpost.Proofs.Session.Failure
import Outpost.Proofs.Text.Lines

/-!
# The interpreter on the local machine

A session looks for an interpreter under one name after another, and for each name the local machine
goes through the directories of its search path. Both searches stop at the first hit, and the inner
one tells the outer one by a fault that it had none. Together they are a single search over pairs of
a name and a directory, the names before the directories: a name that is closer to the local runtime
wins in whatever directory it is found.

## Contents

* `LocalMachine.Inquiry`, `carry`, `consult`: a machine that asks about paths, and a session that
  asks the machine for commands.
* `probes`: the paths that a search asks about.
* `carry_firstExecutable`, `carry_which`, `consult_search`: the two searches, and the one that they
  make up.
* `places_of_name`, `Interpreter.candidates_of_version`,
  `Session.resolveInterpreter_of_no_selector`.
* `interpreter_is_first_executable`.
-/

namespace Outpost

namespace LocalMachine

/-! ## Asking about paths -/

/-- What asks about paths only: it notes them, and comes to nothing if it does anything else. -/
abbrev Inquiry := StateT (List String) Option

/-- What has come to a result goes on with it by `bind`. -/
theorem Inquiry.bind_apply {α β : Type} {x : Inquiry α} {asked later : List String} {found : α}
    (h : x asked = some (found, later)) (f : α → Inquiry β) : (x >>= f) asked = f found later := by
  have hbind : (x >>= f) asked = x asked >>= fun reached => f reached.1 reached.2 := rfl
  rw [hbind, h]
  rfl

/-- The reply of a system with these `executable` files. -/
def probe (executable : String → Bool) : (r : Request) → Inquiry (interface.Reply r)
  | .isExecutable path => fun asked => some (executable path, asked ++ [path])
  | _ => failure

/-- Carries out what the local machine does, with `probe` to answer. -/
def carry {α : Type} (executable : String → Bool) (p : Program Unit interface α) : Inquiry α :=
  p.interpret (pure ()) (fun _ => pure ()) (probe executable)

/-- What a session gets from the local machine and from its console. -/
def serve (executable : String → Bool) (host : LocalMachine) :
    (r : Session.Request) → Inquiry (Session.interface.Reply r)
  | .machine r => carry executable (host.answer r)
  | .report _ => pure ()
  | _ => failure

/-- Carries out what a `Session` does without a look at its state. -/
def consult {α : Type} (executable : String → Bool) (host : LocalMachine)
    (p : Program Session Session.interface α) : Inquiry α :=
  p.interpret failure (fun _ => failure) (serve executable host)

/-! ## Searching -/

/-- The paths that are asked about, up to the first one that is executable. -/
def probes (executable : String → Bool) : List String → List String
  | [] => []
  | path :: rest => path :: if executable path then [] else probes executable rest

section Searching

variable {executable : String → Bool} {paths : List String}

/-- Where none is executable, the `probes` of a search go on. -/
theorem probes_append_of_none (h : ∀ path ∈ paths, executable path = false) (more : List String) :
    probes executable (paths ++ more) = paths ++ probes executable more := by
  induction paths with
  | nil => rfl
  | cons path rest ih =>
    obtain ⟨hpath, hrest⟩ := List.forall_mem_cons.1 h
    rw [List.cons_append, probes, if_neg (by simp [hpath]), ih hrest, List.cons_append]

theorem probes_of_none (h : ∀ path ∈ paths, executable path = false) :
    probes executable paths = paths := by
  have happend := probes_append_of_none h []
  rwa [List.append_nil, probes, List.append_nil] at happend

/-- A search that has `found` something asks for nothing else. -/
theorem probes_append_of_some {found : String} (h : paths.find? executable = some found)
    (more : List String) : probes executable (paths ++ more) = probes executable paths := by
  induction paths with
  | nil => exact absurd h nofun
  | cons path rest ih =>
    rw [List.find?_cons] at h
    rw [List.cons_append, probes, probes]
    cases hpath : executable path with
    | true => rfl
    | false =>
      rw [hpath] at h
      rw [if_neg Bool.false_ne_true, if_neg Bool.false_ne_true, ih h]

theorem carry_bind {α β : Type} (p : Program Unit interface α) (f : α → Program Unit interface β) :
    carry executable (p >>= f) = carry executable p >>= fun found => carry executable (f found) :=
  Program.interpret_bind p f

theorem consult_bind {α β : Type} (host : LocalMachine) (p : Program Session Session.interface α)
    (f : α → Program Session Session.interface β) :
    consult executable host (p >>= f)
      = consult executable host p >>= fun found => consult executable host (f found) :=
  Program.interpret_bind p f

/-- A machine goes by `firstExecutable` through paths up to the first one that is executable. -/
theorem carry_firstExecutable (paths asked : List String) :
    carry executable (firstExecutable paths) asked
      = some (paths.find? executable, asked ++ probes executable paths) := by
  induction paths generalizing asked with
  | nil => exact congrArg (fun last => some (none, last)) (List.append_nil asked).symm
  | cons path rest ih =>
    have hask : carry executable (firstExecutable (path :: rest)) asked
        = carry executable (if executable path then pure (some path) else firstExecutable rest)
            (asked ++ [path]) := rfl
    rw [hask, List.find?_cons, probes]
    cases executable path with
    | true => rfl
    | false =>
      rw [if_neg Bool.false_ne_true, if_neg Bool.false_ne_true, ih, List.append_assoc]
      rfl

/-- A machine finds by `which` a command at the first of its places that is executable. -/
theorem carry_which (host : LocalMachine) (name : String) (asked : List String) :
    carry executable (host.which name).outcome asked
      = some (match (host.places name).find? executable with
          | some path => .ok (.found [.string path])
          | none => .error (.ofCommand name machine.name),
        asked ++ probes executable (host.places name)) := by
  rw [which, Attempt.outcome, ExceptT.run_bind_lift, carry_bind,
    Inquiry.bind_apply (carry_firstExecutable _ _)]
  cases (host.places name).find? executable with
  | some path => rfl
  | none => rfl

/-- A session goes by `firstFound` through names, and a machine through the places of each: this is
one search. -/
theorem consult_firstFound (host : LocalMachine) (names asked : List String) :
    consult executable host (Session.firstFound machine.name names).outcome asked
      = some (.ok (((names.flatMap host.places).find? executable).map
            fun path => .found [.string path]),
          asked ++ probes executable (names.flatMap host.places)) := by
  induction names generalizing asked with
  | nil =>
    rw [List.flatMap_nil, probes, List.append_nil]
    rfl
  | cons name rest ih =>
    have hask : consult executable host (Session.Ask.which name).outcome
        = carry executable (host.which name).outcome := bind_pure _
    rw [Session.firstFound, Attempt.outcome, ExceptT.run_bind_lift, consult_bind, hask,
      Inquiry.bind_apply (carry_which _ _ _), List.flatMap_cons, List.find?_append]
    cases hfind : (host.places name).find? executable with
    | some path =>
      rw [probes_append_of_some hfind]
      rfl
    | none =>
      have hnone : ∀ path ∈ host.places name, executable path = false := by
        simpa using hfind
      rw [probes_append_of_none hnone, probes_of_none hnone, ← List.append_assoc]
      exact ih _

/-- The end of a `search` is a command or a fault with the names. -/
theorem consult_search (host : LocalMachine) (names asked : List String) :
    consult executable host (Session.search machine.name names).outcome asked
      = some (match (names.flatMap host.places).find? executable with
          | some path => .ok (.found [.string path])
          | none => .error (.ofInterpreters machine.name names),
        asked ++ probes executable (names.flatMap host.places)) := by
  have hfirst := @consult_firstFound executable host names asked
  rw [Attempt.outcome] at hfirst
  rw [Session.search, Attempt.outcome, ExceptT.run_bind, consult_bind, Inquiry.bind_apply hfirst]
  cases (names.flatMap host.places).find? executable with
  | some path => rfl
  | none => rfl

end Searching

/-! ## Names and places -/

/-- The `places` of a plain name, one in each directory of the search path. -/
theorem places_of_name (host : LocalMachine) {name : String} (hname : '/' ∉ name.toList) :
    host.places name = (((Text.split ':' host.searchPath.toList).filter (· ≠ [])).map
      String.ofList).map fun directory => Path.join [directory, name] := by
  have habsolute : Path.isAbsolute name = false :=
    decide_eq_false fun hhead => hname (List.mem_of_head? hhead)
  rw [places, List.map_map, if_neg (by simp [habsolute, hname])]
  rfl

end LocalMachine

/-- The `candidates` for a version that has a major and a minor part. -/
theorem Interpreter.candidates_of_version {major minor : String} {others : List String}
    (hmajor : '.' ∉ major.toList) (hminor : '.' ∉ minor.toList) :
    candidates (".".intercalate (major :: minor :: others))
      = ["node" ++ major ++ "." ++ minor, "node" ++ major, "node"] := by
  have hsplit : ∃ rest, Text.split '.' (".".intercalate (major :: minor :: others)).toList
      = major.toList :: minor.toList :: rest := by
    have hmark : ".".toList = ['.'] := rfl
    rw [String.toList_intercalate, hmark, List.map_cons, List.map_cons,
      List.intercalate_cons_cons, List.append_assoc, List.singleton_append,
      Text.split_append_mark, Text.split_of_not_mem hmajor]
    cases others with
    | nil =>
      rw [List.map_nil, List.intercalate_singleton, Text.split_of_not_mem hminor]
      exact ⟨[], rfl⟩
    | cons next others =>
      rw [List.map_cons, List.intercalate_cons_cons, List.append_assoc, List.singleton_append,
        List.singleton_append, Text.split_append_mark, Text.split_of_not_mem hminor]
      exact ⟨_, rfl⟩
  obtain ⟨rest, hrest⟩ := hsplit
  rw [candidates, hrest, List.map_cons, List.map_cons, String.ofList_toList,
    String.ofList_toList]
  rfl

/-- Where nothing is chosen, `resolveInterpreter` goes through the names for the local version. -/
theorem Session.resolveInterpreter_of_no_selector {σ : Type} {surroundings : Surroundings}
    (hselector : surroundings.selector.getD "" = "") (host : Option Json) :
    (resolveInterpreter surroundings host none : Attempt σ interface _)
      = search host (Interpreter.candidates surroundings.runtimeVersion) := by
  cases henvironment : surroundings.selector with
  | none =>
    simp only [resolveInterpreter, henvironment]
    rfl
  | some selector =>
    rw [henvironment] at hselector
    obtain rfl : selector = "" := hselector
    simp only [resolveInterpreter, henvironment]
    rfl

namespace LocalMachine

/-- **The first executable name in the first directory that has it.** A session on the local machine
looks by `resolveInterpreter` for an interpreter where none is chosen. It gets the first pair of a
name and a directory of the search path, in the order of the names and for each name of the
directories, whose path is executable. The paths of the pairs up to that one were asked about, in
this order, and nothing else was asked for. Where no path is executable, all were asked about once,
and the fault lists the names. -/
theorem interpreter_is_first_executable (executable : String → Bool) (host : LocalMachine)
    {surroundings : Surroundings} (hselector : surroundings.selector.getD "" = "")
    {major minor : String} {others : List String}
    (hversion : surroundings.runtimeVersion = ".".intercalate (major :: minor :: others))
    (hmajor : ∀ c ∈ major.toList, c ≠ '.' ∧ c ≠ '/')
    (hminor : ∀ c ∈ minor.toList, c ≠ '.' ∧ c ≠ '/') (asked : List String) :
    let names := ["node" ++ major ++ "." ++ minor, "node" ++ major, "node"]
    let directories := ((Text.split ':' host.searchPath.toList).filter (· ≠ [])).map String.ofList
    let pairs := names.flatMap fun name => directories.map fun directory => (name, directory)
    let place := fun pair : String × String => Path.join [pair.2, pair.1]
    let found :=
      consult executable host
        (Session.resolveInterpreter surroundings machine.name none).outcome asked
    (∀ before pair after, pairs = before ++ pair :: after →
      (∀ other ∈ before, executable (place other) = false) → executable (place pair) = true →
      found = some (.ok (.found [.string (place pair)]), asked ++ (before ++ [pair]).map place)) ∧
    ((∀ pair ∈ pairs, executable (place pair) = false) →
      found = some (.error (.ofInterpreters machine.name names), asked ++ pairs.map place)) := by
  intro names directories pairs place found
  have hcandidates : Interpreter.candidates surroundings.runtimeVersion = names := by
    rw [hversion]
    exact Interpreter.candidates_of_version (fun hdot => (hmajor _ hdot).1 rfl)
      fun hdot => (hminor _ hdot).1 rfl
  have hplain : ∀ name ∈ names, '/' ∉ name.toList := by
    have hmajor : '/' ∉ major.toList := fun hslash => (hmajor _ hslash).2 rfl
    have hminor : '/' ∉ minor.toList := fun hslash => (hminor _ hslash).2 rfl
    simp [names, hmajor, hminor]
  have hpaths : names.flatMap host.places = pairs.map place := by
    rw [List.map_flatMap]
    refine List.flatMap_congr fun name hname => ?_
    rw [host.places_of_name (hplain name hname)]
    exact (List.map_map (g := place) (f := fun directory => (name, directory))).symm
  have hfound : found
      = some (match (pairs.map place).find? executable with
          | some path => .ok (.found [.string path])
          | none => .error (.ofInterpreters machine.name names),
        asked ++ probes executable (pairs.map place)) := by
    rw [← hpaths, ← consult_search, ← hcandidates,
      ← Session.resolveInterpreter_of_no_selector hselector]
  refine ⟨fun before pair after hpairs hbefore hpair => ?_, fun hnone => ?_⟩
  · have hmissing : ∀ path ∈ before.map place, executable path = false :=
      List.forall_mem_map.2 hbefore
    have hfind : (pairs.map place).find? executable = some (place pair) := by
      rw [hpairs, List.map_append, List.map_cons, List.find?_append,
        List.find?_eq_none.2 fun path hpath => by simp [hmissing path hpath], Option.none_or,
        List.find?_cons_of_pos hpair]
    have hprobes : probes executable (pairs.map place) = (before ++ [pair]).map place := by
      rw [hpairs, List.map_append, List.map_cons, probes_append_of_none hmissing, probes,
        if_pos hpair, List.map_append, List.map_singleton]
    rw [hfound, hfind, hprobes]
  · have hmissing : ∀ path ∈ pairs.map place, executable path = false :=
      List.forall_mem_map.2 hnone
    have hfind : (pairs.map place).find? executable = none :=
      List.find?_eq_none.2 fun path hpath => by simp [hmissing path hpath]
    rw [hfound, hfind, probes_of_none hmissing]

/-- A name with a version in a late directory is found before a plain one in an early directory. -/
theorem versioned_interpreter_found_late :
    let host : LocalMachine := ⟨"/tmp", .inherited, ":/bin::/opt/bin/"⟩
    let executable := fun path => path = "/bin/node" || path = "/opt/bin/node20"
    consult executable host
        (Session.resolveInterpreter ⟨"20.11.1", none⟩ machine.name none).outcome []
      = some (.ok (.found [.string "/opt/bin/node20"]),
        ["/bin/node20.11", "/opt/bin/node20.11", "/bin/node20", "/opt/bin/node20"]) := by
  intro host executable
  have hversion : "20.11.1" = ".".intercalate ["20", "11", "1"] := by decide +kernel
  obtain ⟨hfirst, -⟩ := @interpreter_is_first_executable executable host ⟨"20.11.1", none⟩ rfl
    "20" "11" ["1"] hversion (by simp) (by simp) []
  have hfound := hfirst
    [("node20.11", "/bin"), ("node20.11", "/opt/bin/"), ("node20", "/bin")] ("node20", "/opt/bin/")
    [("node", "/bin"), ("node", "/opt/bin/")] (by decide +kernel) (by decide +kernel)
    (by decide +kernel)
  have hplace : Path.join ["/opt/bin/", "node20"] = "/opt/bin/node20" := by decide +kernel
  have hothers : Path.join ["/bin", "node20.11"] = "/bin/node20.11" ∧
      Path.join ["/opt/bin/", "node20.11"] = "/opt/bin/node20.11" ∧
      Path.join ["/bin", "node20"] = "/bin/node20" := by decide +kernel
  rw [hfound]
  simp [hplace, hothers]

end LocalMachine

end Outpost

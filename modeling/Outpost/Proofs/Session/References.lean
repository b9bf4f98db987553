import Outpost.Proofs.Options
import Outpost.Proofs.Session.Failure

/-!
# References that were accepted

The schema and the reader of references agree, so a session only exists with references that can be
read (`exists_scriptValues`), and its script can fail in other ways only. A start that is told of a
reference that cannot be read was told so by somebody else: the fault came to it as a reply, and it
passed it on (`exists_raised_of_verdict`).

## Contents

* `Exchange.raised?`: the fault that an exchange ends with.
* `exists_scriptValues`, `script_ne_badReference`.
* `exists_raised_of_verdict`, `exists_raised_of_run_start`.
* `references_read_alike`.
-/

namespace Outpost

/-! ## Whose fault it is -/

namespace Script

variable {ref : String}

/-- The letter that the message of a `Problem` opens with. -/
def Problem.letter : Problem → Char
  | .badReference _ => 'I'
  | .missing _ => 'T'
  | .injected .. => 'V'

theorem Problem.head?_message (problem : Problem) :
    problem.message.toList.head? = some problem.letter := by
  have hopens {opening : String} {c : Char} (hc : opening.toList.head? = some c) (rest : String) :
      (opening ++ rest).toList.head? = some c := by
    rw [String.toList_append, List.head?_append, hc, Option.or]
  cases problem with
  | badReference ref =>
    have hopening : "Invalid implementation reference \"".toList.head? = some 'I' := by
      decide +kernel
    exact hopens (hopens hopening ref) _
  | missing token =>
    have hopening : "Template is missing placeholder ".toList.head? = some 'T' := by decide +kernel
    exact hopens hopening token
  | injected token found =>
    have hopening : "Value for ".toList.head? = some 'V' := by decide +kernel
    exact hopens (hopens (hopens hopening token) _) found

/-- The message about a `badReference` cannot be mistaken for one about a placeholder. -/
theorem Problem.fault_ne_badReference {problem : Problem}
    (h : ∀ other, problem ≠ .badReference other) : problem.fault ≠ (badReference ref).fault := by
  intro heq
  rw [fault, fault, Fault.template.injEq] at heq
  have hletter : some problem.letter = some (badReference ref).letter := by
    rw [← head?_message, ← head?_message, heq.1]
  cases problem with
  | badReference other => exact h other rfl
  | missing | injected => simp [letter] at hletter

/-- To `render` a template takes no reading of references. -/
theorem ne_badReference_of_render {template : String} {values : Values} {problem : Problem}
    (h : render template values = .error problem) (other : String) :
    problem ≠ .badReference other := by
  rw [render] at h
  split at h
  · rename_i found hfound
    obtain rfl := Except.error.inj h
    obtain ⟨p, -, hproblem⟩ := List.exists_of_findSome?_eq_some hfound
    rw [problemAt?] at hproblem
    split at hproblem
    · obtain ⟨found, -, rfl⟩ := Option.map_eq_some_iff.1 hproblem
      exact nofun
    · obtain rfl := Option.some.inj hproblem
      exact nofun
  · exact absurd h nofun

end Script

namespace Session

/-- The fault that an `Exchange` ends with. -/
def Exchange.raised? : Exchange → Option Fault
  | ⟨.machine .tempDirectory, .error fault⟩ => some fault
  | ⟨.machine (.upload ..), .error fault⟩ => some fault
  | ⟨.machine (.joinPath _), .error fault⟩ => some fault
  | ⟨.machine (.writeFile ..), .error fault⟩ => some fault
  | ⟨.machine (.which _), .error fault⟩ => some fault
  | ⟨.machine (.spawn ..), .error fault⟩ => some fault
  | ⟨.machine (.openTunnel ..), .error fault⟩ => some fault
  | ⟨.control (.kill _), .error fault⟩ => some fault
  | ⟨.control (.communicate ..), .error fault⟩ => some fault
  | ⟨.control (.discardOutput _), .error fault⟩ => some fault
  | ⟨.freePort, .error fault⟩ => some fault
  | _ => none

section Options

variable {options : Options}

/-- The `scriptValues` of accepted options can be read. -/
theorem exists_scriptValues {input : Options.Input} (h : Options.resolve input = .ok options) :
    ∃ values, scriptValues options = .ok values := by
  obtain ⟨⟨server, hserver⟩, service, hservice⟩ := Options.exists_parse_of_resolve h
  rw [scriptValues, hserver, hservice]
  exact ⟨_, rfl⟩

theorem script_ne_badReference {values : Script.Values} (h : scriptValues options = .ok values)
    (ref : String) : script options ≠ .error (Script.Problem.badReference ref).fault := by
  intro hscript
  rw [script, h] at hscript
  dsimp only at hscript
  split at hscript
  · rename_i problem hrender
    exact Script.Problem.fault_ne_badReference (Script.ne_badReference_of_render hrender)
      (Except.error.inj hscript)
  · exact absurd hscript nofun

end Options

/-! ## Faults that are passed on -/

section Raised

variable {surroundings : Surroundings} {machine : Machine} {options : Options}
  {exchanges : List Exchange} {ref : String}

/-- What staging fails with by `Unstaged` is a fault of the template only if it was told of it. -/
theorem Unstaged.eq_of_template {fault told : Fault} (h : Unstaged machine fault told)
    (htemplate : told.isTemplate = true) : told = fault := by
  cases h with
  | template => rfl
  | caused => exact absurd htemplate Bool.false_ne_true

/-- What comes by `BrokenOff` of a process without a port is no fault of the template, unless that
is what waiting for it or stopping it ended with. -/
theorem BrokenOff.exists_raised {running : Machine.Running} {fault : Fault}
    (h : BrokenOff exchanges running fault) (htemplate : fault.isTemplate = true) :
    ∃ x ∈ exchanges, x.raised? = some fault := by
  cases h with
  | reported => exact absurd htemplate Bool.false_ne_true
  | unstoppable hkill => exact ⟨_, hkill, rfl⟩
  | unawaited hwait _ => exact ⟨_, hwait, rfl⟩

/-- An exchange with a `verdict?` that is true of a `badReference` ended with this very fault, or
one before it did. -/
theorem exists_raised_of_verdict {x : Exchange} {said : Fault → Prop} (hx : x ∈ exchanges)
    (hscript : script options ≠ .error (Script.Problem.badReference ref).fault)
    (hverdict : verdict? surroundings machine options exchanges x = some said)
    (hsaid : said (Script.Problem.badReference ref).fault) :
    ∃ y ∈ exchanges, y.raised? = some (Script.Problem.badReference ref).fault := by
  generalize hbad : (Script.Problem.badReference ref).fault = bad at *
  have htemplate : bad.isTemplate = true := by
    rw [← hbad]
    rfl
  rw [verdict?.eq_def] at hverdict
  split at hverdict
  case h_1 | h_2 | h_3 | h_4 =>
    obtain rfl := Option.some.inj hverdict
    rw [Unstaged.eq_of_template hsaid htemplate]
    exact ⟨_, hx, rfl⟩
  case h_5 =>
    split at hverdict
    · exact absurd hverdict nofun
    · rename_i hrendered
      obtain rfl := Option.some.inj hverdict
      obtain ⟨rfl, -⟩ := hsaid
      exact absurd hrendered hscript
  case h_6 =>
    split at hverdict
    · obtain rfl := Option.some.inj hverdict
      exact ⟨_, hx, congrArg some hsaid.symm⟩
    · exact absurd hverdict nofun
  case h_8 =>
    obtain rfl := Option.some.inj hverdict
    obtain ⟨parts, path, -, rfl⟩ := hsaid
    exact absurd htemplate Bool.false_ne_true
  case h_9 =>
    split at hverdict
    · exact absurd hverdict nofun
    · obtain rfl := Option.some.inj hverdict
      exact BrokenOff.exists_raised hsaid htemplate
  case h_13 => exact absurd hverdict nofun
  all_goals
    obtain rfl := Option.some.inj hverdict
    exact ⟨_, hx, congrArg some hsaid.symm⟩

/-- A `start` of a session whose references can be read is told of one that cannot, or it does not
say so. -/
theorem exists_raised_of_run_start {session last : Session} {values : Script.Values}
    (hcreated : session.state = .created) (hmachine : session.machine = some machine)
    (hempty : session.carrying {} = session)
    (hvalues : scriptValues session.options = .ok values)
    (h : Attempt.Run (start surroundings) session exchanges last
      (.error (Script.Problem.badReference ref).fault)) :
    ∃ x ∈ exchanges, x.raised? = some (Script.Problem.badReference ref).fault := by
  obtain ⟨haul, hproceeds, -⟩ := run_start_of_new hcreated hmachine hempty h
  obtain ⟨mid, first, second, hacquire, rfl, hnotes, -⟩ := run_start_of_created hcreated h
  have hblamed : Blamed surroundings machine session.options (first ++ second) (first ++ second) :=
    (blamed_of_proceeds_itinerary hproceeds).of_calls
  rcases hblamed with ⟨x, hx, hverdict⟩ | hmissed
  · obtain ⟨said, hsaid⟩ := Option.ne_none_iff_exists'.1 hverdict
    have hfirst : x ∈ first := by
      refine (List.mem_append.1 hx).resolve_right fun hnote => ?_
      exact absurd ((verdict?_of_isNote (hnotes x hnote)).symm.trans hsaid) nofun
    obtain ⟨fault, hfault, htrue⟩ := judged_acquire (by exact hmachine) rfl hacquire
      (List.subset_append_left first second) x hfirst said hsaid
    obtain rfl := Except.error.inj hfault
    exact exists_raised_of_verdict hx (script_ne_badReference hvalues ref) hsaid htrue
  · -- a search that finds nothing says so
    rw [← missed_calls] at hmissed
    have hfault := hproceeds.error_of_missed (nodup_itinerary machine.connectivity) hmissed
    exact absurd (Except.error.inj hfault) nofun

end Raised

/-! ## What is accepted can be read -/

/-- **References are read as they are accepted.** Whatever text is given for a class, the schema
accepts it just if `Script.Reference.parse` can read it as a reference whose module has no line end.
A text that can be read is put together from what was read, neither part of which is empty, and the
name of the export has no mark. So no start fails because of a reference, unless it is told to:
whatever accepted options its session was created with, if it fails with a reference that cannot be
read, then one of its requests failed with this very fault. -/
theorem references_read_alike :
    (∀ (given : List (String × Options.Value)) (name ref : String) (value : Options.Value),
      name = "serverClass" ∨ name = "serviceClass" → Options.find? name given = some value →
      value.text? = some ref →
      (¬ Options.Refuses (.fields given) name ↔
        ∃ reference, Script.Reference.parse ref = .ok reference ∧
          ∀ c ∈ reference.moduleName.toList, Text.isLineEnd c = false)) ∧
    (∀ (ref : String) (reference : Script.Reference),
      Script.Reference.parse ref = .ok reference →
      reference.moduleName ++ "#" ++ reference.exportName = ref ∧ reference.moduleName ≠ "" ∧
        reference.exportName ≠ "" ∧ '#' ∉ reference.exportName.toList) ∧
    ∀ (σ : Type) (machine : Machine) (input : Options.Input) (s s' : σ) (setup : List Exchange)
      (session : Session),
      Attempt.Run (create machine input : Attempt σ interface Session) s setup s' (.ok session) →
      ∀ (surroundings : Surroundings) (ref : String) (exchanges : List Exchange) (last : Session),
        Attempt.Run (start surroundings) session exchanges last
          (.error (Script.Problem.badReference ref).fault) →
        ∃ x ∈ exchanges, x.raised? = some (Script.Problem.badReference ref).fault := by
  refine ⟨fun given name ref value hname hgiven htext => ?_, fun ref reference hread => ?_,
    fun σ machine input s s' setup session hcreate surroundings ref exchanges last hstart => ?_⟩
  · rw [Options.refuses_class_iff hname hgiven htext, Bool.not_eq_false, Options.isReference_iff]
  · obtain ⟨hwritten, hparts⟩ := Script.Reference.parse_eq_ok_iff.1 hread
    exact ⟨hwritten.symm, hparts⟩
  · obtain ⟨-, ⟨fault, -, -, hfault⟩ | ⟨options, id, hresolve, -, hsession⟩⟩ :=
      run_create_iff.1 hcreate
    · exact absurd hfault nofun
    · obtain rfl := Except.ok.inj hsession
      obtain ⟨values, hvalues⟩ := exists_scriptValues hresolve
      have hmachine : (fresh machine options id).machine = some machine := rfl
      have hempty : (fresh machine options id).carrying {} = fresh machine options id := rfl
      exact exists_raised_of_run_start rfl hmachine hempty hvalues hstart

/-- What a machine says whose own way of copying files knows references too, and does not like one
of its own. -/
def refusesReference : (r : Request) → interface.Reply r
  | .machine (.upload ..) => .error (Script.Problem.badReference "rsync#").fault
  | r => granted r

/-- A module with a line end can be read and is refused all the same; and a start that fails with a
bad reference is one that was told of it. -/
theorem reference_told_by_upload :
    (Options.Refuses (.fields [("serverClass", .json (.string "lib\nx#Server"))]) "serverClass" ∧
      "lib\nx" ++ "#" ++ "Server" = "lib\nx#Server") ∧
    ∃ (exchanges : List Exchange) (last : Session),
      Attempt.Run (start ⟨"20.11.1", none⟩) brief exchanges last
        (.error (Script.Problem.badReference "rsync#").fault) ∧
      ∃ x ∈ exchanges, x.raised? = some (Script.Problem.badReference "rsync#").fault := by
  obtain ⟨haccepts, hreads, hpasses⟩ := references_read_alike
  have hread : Script.Reference.parse "lib\nx#Server" = .ok ⟨"lib\nx", "Server"⟩ :=
    Script.Reference.parse_eq_ok_iff.2 ⟨by simp, by simp, by simp, by simp⟩
  refine ⟨⟨?_, (hreads _ _ hread).1⟩, ?_⟩
  · by_contra hrefused
    obtain ⟨reference, hread', hplain⟩ :=
      (haccepts _ "serverClass" "lib\nx#Server" (.json (.string _)) (.inl rfl) rfl rfl).1 hrefused
    obtain rfl := Except.ok.inj (hread.symm.trans hread')
    exact absurd (hplain '\n' (by simp)) (by decide)
  · have hrun := Program.run_play (fun _ => refusesReference) []
      (start ⟨"20.11.1", none⟩).outcome brief
    exact ⟨_, _, hrun, hpasses Unit ⟨none, .direct⟩ briefInput () () _ brief (run_create_brief ())
      _ _ _ _ hrun⟩

end Session

end Outpost

import Outpost.Options
import Outpost.Script

/-!
# What the options schema has to say

Every field of a set of options is checked on its own, and what is wrong with one makes no
difference to what is said of another: the issues with a set of options are those with its fields,
put together (`issuesOf_resolveFields`). If there are none, every field is as it was given, or has
its default where it was left out.

References are looked at twice. The schema asks for some text without a line end, a `#`, and some
text without a `#`; the reader of references cuts at the last `#`. Of a text with several marks,
only the last one can have no mark behind it, so the two agree, but for line ends in the module
(`isReference_iff`).

## Contents

* `issuesOf`, `refusals`, `complaints`: the issues with a field, and with all of them.
* `splitLast_eq_some_iff`, `Reference.parse_eq_ok_iff`: where a reference is cut.
* `isReference_iff`: what the schema takes for a reference.
* `Refuses`, `refuses_class_iff`, `exists_parse_of_resolve`.
-/

namespace Outpost

namespace Options

/-! ## Issues -/

section Issues

variable {α β : Type} {given : List (String × Value)}

/-- The issues that a check comes to, which are none if it lets its value pass. -/
def issuesOf : Except (List Issue) α → List Issue
  | .ok _ => []
  | .error issues => issues

/-- What a `check` has against a field that may be left out. -/
def refusals (check : Value → Except (List Problem) α) : Option Value → List Problem
  | none => []
  | some value =>
    match check value with
    | .ok _ => []
    | .error problems => problems

theorem issuesOf_map (f : α → β) (x : Except (List Issue) α) :
    issuesOf (x.map f) = issuesOf x := by
  cases x <;> rfl

/-- Two checks come by `also` to the issues of both. -/
theorem issuesOf_also (f : Except (List Issue) (α → β)) (x : Except (List Issue) α) :
    issuesOf (also f x) = issuesOf f ++ issuesOf x := by
  cases f with
  | ok f => cases x <;> rfl
  | error issues =>
    cases x with
    | ok a => exact (List.append_nil issues).symm
    | error more => rfl

theorem issuesOf_optional (name : String) (check : Value → Except (List Problem) α) :
    issuesOf (optional given name check)
      = (refusals check (find? name given)).map fun problem => ⟨some name, problem⟩ := by
  rw [optional]
  cases find? name given with
  | none => rfl
  | some value =>
    dsimp only [refusals]
    cases check value <;> rfl

theorem issuesOf_withDefault (name : String) (check : Value → Except (List Problem) α)
    (default : α) : issuesOf (withDefault given name check default)
      = (refusals check (find? name given)).map fun problem => ⟨some name, problem⟩ := by
  rw [withDefault, issuesOf_map, issuesOf_optional]

/-- What is wrong with each field of those that are `given`, in the order of the schema. -/
def complaints (given : List (String × Value)) : List (String × List Problem) :=
  [("serverClass", refusals checkReference (find? "serverClass" given)),
    ("serviceClass", refusals checkReference (find? "serviceClass" given)),
    ("serverScript", refusals checkFilled (find? "serverScript" given)),
    ("extraSetup", refusals checkText (find? "extraSetup" given)),
    ("interpreter", refusals checkInterpreter (find? "interpreter" given)),
    ("codeDir", refusals checkFilled (find? "codeDir" given)),
    ("handshakeTimeoutMs", refusals checkTimeout (find? "handshakeTimeoutMs" given)),
    ("eventLog", refusals checkEventLog (find? "eventLog" given))]

/-- The issues of `resolveFields` with a set of options are those with its fields. -/
theorem issuesOf_resolveFields (given : List (String × Value)) :
    issuesOf (resolveFields given)
      = (complaints given).flatMap fun field =>
        field.2.map fun problem => ⟨some field.1, problem⟩ := by
  simp only [resolveFields, issuesOf_also, issuesOf_map, issuesOf_withDefault, issuesOf_optional,
    complaints, List.flatMap_cons, List.flatMap_nil, List.append_assoc, List.append_nil]

/-- There is an issue with the field `name`. -/
def Refuses (input : Input) (name : String) : Prop :=
  ∃ issues, check input = .error issues ∧ ∃ issue ∈ issues, issue.field = some name

theorem refuses_fields_iff {name : String} :
    Refuses (.fields given) name ↔ ∃ issue ∈ issuesOf (resolveFields given),
      issue.field = some name := by
  rw [Refuses, check]
  cases resolveFields given with
  | ok options => simp [issuesOf]
  | error issues => simp [issuesOf]

/-- A field `Refuses` what is given just if something is wrong with it. -/
theorem refuses_iff {name : String} :
    Refuses (.fields given) name ↔ ∃ field ∈ complaints given, field.1 = name ∧ field.2 ≠ [] := by
  rw [refuses_fields_iff, issuesOf_resolveFields]
  constructor
  · rintro ⟨issue, hissue, hname⟩
    obtain ⟨field, hfield, hissue⟩ := List.mem_flatMap.1 hissue
    obtain ⟨problem, hproblem, rfl⟩ := List.mem_map.1 hissue
    exact ⟨field, hfield, Option.some.inj hname, List.ne_nil_of_mem hproblem⟩
  · rintro ⟨field, hfield, rfl, hproblems⟩
    obtain ⟨problem, hproblem⟩ := List.exists_mem_of_ne_nil _ hproblems
    exact ⟨⟨some field.1, problem⟩,
      List.mem_flatMap.2 ⟨field, hfield, List.mem_map.2 ⟨problem, hproblem, rfl⟩⟩, rfl⟩

theorem also_eq_ok_iff {f : Except (List Issue) (α → β)} {x : Except (List Issue) α} {b : β} :
    also f x = .ok b ↔ ∃ g a, f = .ok g ∧ x = .ok a ∧ g a = b := by
  cases f <;> cases x <;> simp [also]

/-- The value of a field that `withDefault` accepts: its default if it was left out, and one that
its check lets pass otherwise. -/
theorem of_withDefault_eq_ok {name : String} {check : Value → Except (List Problem) α}
    {default a : α} (h : withDefault given name check default = .ok a) :
    find? name given = none ∧ a = default ∨ ∃ value, find? name given = some value ∧
      check value = .ok a := by
  rw [withDefault, optional] at h
  cases hfound : find? name given with
  | none =>
    rw [hfound] at h
    exact .inl ⟨rfl, (Except.ok.inj h).symm⟩
  | some value =>
    rw [hfound] at h
    dsimp only at h
    cases hcheck : check value with
    | ok b =>
      rw [hcheck] at h
      obtain rfl := Except.ok.inj h
      exact .inr ⟨value, rfl, hcheck⟩
    | error problems =>
      rw [hcheck] at h
      exact absurd h nofun

end Issues

end Options

/-! ## References -/

namespace Script

section References

variable {mark : Char} {text before after : List Char}

theorem splitLast_eq_none_iff : splitLast mark text = none ↔ mark ∉ text := by
  induction text with
  | nil => simp [splitLast]
  | cons c rest ih =>
    rw [splitLast, List.mem_cons, not_or, ← ih]
    cases splitLast mark rest with
    | some cut => simp
    | none => simp [eq_comm]

/-- What stands before a `mark` that has none behind it, and what stands behind it. -/
theorem splitLast_append (before : List Char) (hlast : mark ∉ after) :
    splitLast mark (before ++ mark :: after) = some (before, after) := by
  induction before with
  | nil => simp [splitLast, splitLast_eq_none_iff.2 hlast]
  | cons c before ih => rw [List.cons_append, splitLast, ih]

/-- A text is cut by `splitLast` at a mark that has none behind it. -/
theorem splitLast_eq_some_iff :
    splitLast mark text = some (before, after) ↔ text = before ++ mark :: after ∧ mark ∉ after := by
  constructor
  · intro h
    induction text generalizing before with
    | nil => exact absurd h nofun
    | cons c rest ih =>
      rw [splitLast] at h
      cases hrest : splitLast mark rest with
      | some cut =>
        rw [hrest] at h
        obtain ⟨rfl, rfl⟩ := Prod.mk.inj (Option.some.inj h)
        obtain ⟨rfl, hlast⟩ := ih hrest
        exact ⟨rfl, hlast⟩
      | none =>
        rw [hrest] at h
        by_cases hmark : c = mark
        · obtain ⟨rfl, rfl⟩ := Prod.mk.inj (Option.some.inj ((if_pos hmark).symm.trans h))
          exact ⟨congrArg (· :: rest) hmark, splitLast_eq_none_iff.1 hrest⟩
        · exact absurd ((if_neg hmark).symm.trans h) nofun
  · rintro ⟨rfl, hlast⟩
    exact splitLast_append before hlast

/-- A reference is read by `Reference.parse` just if it is cut into two parts that are not empty. -/
theorem Reference.parse_eq_ok_iff_cut {ref : String} {reference : Reference} :
    Reference.parse ref = .ok reference ↔
      splitLast '#' ref.toList = some (reference.moduleName.toList, reference.exportName.toList) ∧
        reference.moduleName.toList ≠ [] ∧ reference.exportName.toList ≠ [] := by
  rw [Reference.parse]
  constructor
  · intro h
    split at h
    · rename_i hcut
      obtain rfl := Except.ok.inj h
      rw [hcut, String.toList_ofList, String.toList_ofList]
      exact ⟨rfl, List.cons_ne_nil _ _, List.cons_ne_nil _ _⟩
    · exact absurd h nofun
  · rintro ⟨hcut, hmodule, hexport⟩
    obtain ⟨first, more, hfirst⟩ := List.exists_cons_of_ne_nil hmodule
    obtain ⟨first', more', hfirst'⟩ := List.exists_cons_of_ne_nil hexport
    rw [hcut, hfirst, hfirst']
    dsimp only
    rw [← hfirst, ← hfirst', String.ofList_toList, String.ofList_toList]

/-- A `Reference` is a module and an export, with a mark between them that is the last one. -/
theorem Reference.parse_eq_ok_iff {ref : String} {reference : Reference} :
    Reference.parse ref = .ok reference ↔
      ref = reference.moduleName ++ "#" ++ reference.exportName ∧ reference.moduleName ≠ "" ∧
        reference.exportName ≠ "" ∧ '#' ∉ reference.exportName.toList := by
  have hwritten : ref = reference.moduleName ++ "#" ++ reference.exportName ↔
      ref.toList = reference.moduleName.toList ++ '#' :: reference.exportName.toList := by
    rw [← String.toList_inj, String.toList_append, String.toList_append, List.append_assoc]
    rfl
  rw [parse_eq_ok_iff_cut, splitLast_eq_some_iff, hwritten, Ne, String.toList_eq_nil_iff, Ne,
    String.toList_eq_nil_iff]
  exact ⟨fun ⟨⟨h, hlast⟩, hmodule, hexport⟩ => ⟨h, hmodule, hexport, hlast⟩,
    fun ⟨h, hmodule, hexport, hlast⟩ => ⟨⟨h, hlast⟩, hmodule, hexport⟩⟩

end References

end Script

namespace Options

/-! ## What the schema takes for a reference -/

/-- What may follow the first character of a reference: the rest of the module, a mark, and an
export. -/
theorem tailIsReference_iff {text : List Char} :
    isReference.tailIsReference text = true ↔ ∃ before after, text = before ++ '#' :: after ∧
      (∀ c ∈ before, Text.isLineEnd c = false) ∧ after ≠ [] ∧ '#' ∉ after := by
  induction text with
  | nil => simp [isReference.tailIsReference]
  | cons c rest ih =>
    have hunmarked : rest.all (· ≠ '#') = true ↔ '#' ∉ rest := by
      simp only [List.all_eq_true, decide_eq_true_eq]
      exact ⟨fun h hmem => h '#' hmem rfl, fun h c hc => ne_of_mem_of_not_mem hc h⟩
    have hstep : isReference.tailIsReference (c :: rest) = true ↔
        (c = '#' ∧ rest ≠ [] ∧ '#' ∉ rest) ∨
          (Text.isLineEnd c = false ∧ isReference.tailIsReference rest = true) := by
      rw [isReference.tailIsReference, Bool.or_eq_true, ← hunmarked]
      simp only [Bool.and_eq_true, decide_eq_true_eq, Bool.not_eq_true', and_assoc]
    rw [hstep, ih]
    constructor
    · rintro (⟨rfl, hsome, hlast⟩ | ⟨hplain, before, after, rfl, hbefore, hafter⟩)
      · exact ⟨[], rest, rfl, nofun, hsome, hlast⟩
      · exact ⟨c :: before, after, rfl, List.forall_mem_cons.2 ⟨hplain, hbefore⟩, hafter⟩
    · rintro ⟨before, after, hcut, hbefore, hafter⟩
      cases before with
      | nil =>
        obtain ⟨rfl, rfl⟩ := List.cons.inj hcut
        exact .inl ⟨rfl, hafter⟩
      | cons first before =>
        obtain ⟨rfl, rfl⟩ := List.cons.inj hcut
        obtain ⟨hplain, hbefore⟩ := List.forall_mem_cons.1 hbefore
        exact .inr ⟨hplain, before, after, rfl, hbefore, hafter⟩

/-- The schema takes by `isReference` a text for a reference just if `Script.Reference.parse` can
read it as one whose module has no line end. -/
theorem isReference_iff {ref : String} :
    isReference ref.toList = true ↔ ∃ reference, Script.Reference.parse ref = .ok reference ∧
      ∀ c ∈ reference.moduleName.toList, Text.isLineEnd c = false := by
  simp only [Script.Reference.parse_eq_ok_iff_cut, Script.splitLast_eq_some_iff]
  constructor
  · intro h
    cases hlist : ref.toList with
    | nil => exact absurd (hlist ▸ h) nofun
    | cons c rest =>
      rw [hlist, isReference, Bool.and_eq_true, Bool.not_eq_true', tailIsReference_iff] at h
      obtain ⟨hplain, before, after, rfl, hbefore, hsome, hlast⟩ := h
      refine ⟨⟨String.ofList (c :: before), String.ofList after⟩, ?_⟩
      simp only [String.toList_ofList]
      exact ⟨⟨⟨rfl, hlast⟩, List.cons_ne_nil _ _, hsome⟩, List.forall_mem_cons.2 ⟨hplain, hbefore⟩⟩
  · rintro ⟨reference, ⟨⟨hcut, hlast⟩, hmodule, hsome⟩, hplain⟩
    obtain ⟨first, more, hfirst⟩ := List.exists_cons_of_ne_nil hmodule
    rw [hfirst] at hcut hplain
    obtain ⟨hfirst, hmore⟩ := List.forall_mem_cons.1 hplain
    rw [hcut, List.cons_append, isReference, Bool.and_eq_true, Bool.not_eq_true',
      tailIsReference_iff]
    exact ⟨hfirst, more, _, rfl, hmore, hsome, hlast⟩

section Fields

variable {given : List (String × Value)} {name ref : String} {value : Value}

/-- What `checkReference` has against a text as a reference. -/
theorem refusals_reference (htext : value.text? = some ref) :
    refusals checkReference (some value)
      = if isReference ref.toList then [] else [.notReference] := by
  obtain ⟨s, hstring, rfl⟩ := Option.map_eq_some_iff.1 htext
  rw [refusals, checkReference, checkText, hstring]
  dsimp only
  cases isReference s.shown.toList <;> rfl

/-- A text is refused as a class just if it does not look like a reference to `isReference`. -/
theorem refuses_class_iff (hname : name = "serverClass" ∨ name = "serviceClass")
    (hgiven : find? name given = some value) (htext : value.text? = some ref) :
    Refuses (.fields given) name ↔ isReference ref.toList = false := by
  have hcomplaints : (∃ field ∈ complaints given, field.1 = name ∧ field.2 ≠ []) ↔
      refusals checkReference (find? name given) ≠ [] := by
    obtain rfl | rfl := hname <;> simp [complaints]
  rw [refuses_iff, hcomplaints, hgiven, refusals_reference htext]
  cases isReference ref.toList <;> simp

/-- Whatever a field for a class comes to looks like a reference to `isReference`, if its default
does. -/
theorem isReference_of_withDefault {default a : Text.Given}
    (hdefault : isReference default.shown.toList = true)
    (h : withDefault given name checkReference default = .ok a) :
    isReference a.shown.toList = true := by
  obtain ⟨-, rfl⟩ | ⟨value, -, hcheck⟩ := of_withDefault_eq_ok h
  · exact hdefault
  · rw [checkReference] at hcheck
    cases htext : checkText value with
    | error problems =>
      rw [htext] at hcheck
      exact absurd hcheck nofun
    | ok s =>
      rw [htext] at hcheck
      dsimp only at hcheck
      split at hcheck
      · obtain rfl := Except.ok.inj hcheck
        assumption
      · exact absurd hcheck nofun

end Fields

theorem isReference_serverClass :
    isReference (Text.Given.shown Settings.serverClass).toList = true := by
  decide

theorem isReference_serviceClass :
    isReference (Text.Given.shown Settings.serviceClass).toList = true := by
  decide

/-- Both classes of accepted options can be read by `Script.Reference.parse`. -/
theorem exists_parse_of_resolve {input : Input} {options : Options}
    (h : resolve input = .ok options) :
    (∃ reference, Script.Reference.parse options.serverClass.shown = .ok reference) ∧
      ∃ reference, Script.Reference.parse options.serviceClass.shown = .ok reference := by
  have hparse {ref : String} (hlooks : isReference ref.toList = true) :
      ∃ reference, Script.Reference.parse ref = .ok reference :=
    let ⟨reference, hread, _⟩ := isReference_iff.1 hlooks
    ⟨reference, hread⟩
  have hcheck : check input = .ok options := by
    rw [resolve] at h
    split at h
    · rename_i hcheck
      rw [hcheck, Except.ok.inj h]
    · exact absurd h nofun
  cases input with
  | other value => exact absurd hcheck nofun
  | fields given =>
    rw [check, resolveFields] at hcheck
    simp only [also_eq_ok_iff] at hcheck
    obtain ⟨_, _, ⟨_, _, ⟨_, _, ⟨_, _, ⟨_, _, ⟨_, _, ⟨_, service, hserver, hservice, rfl⟩,
      -, rfl⟩, -, rfl⟩, -, rfl⟩, -, rfl⟩, -, rfl⟩, -, rfl⟩ := hcheck
    cases hclass : withDefault given "serverClass" checkReference Settings.serverClass with
    | error issues =>
      rw [hclass] at hserver
      exact absurd hserver nofun
    | ok server =>
      rw [hclass] at hserver
      obtain rfl := Except.ok.inj hserver
      exact ⟨hparse (isReference_of_withDefault isReference_serverClass hclass),
        hparse (isReference_of_withDefault isReference_serviceClass hservice)⟩

end Options

end Outpost

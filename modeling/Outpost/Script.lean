import Outpost.Fault
import Outpost.Script.Default

/-!
# Script templates

A template holds five placeholders, each of which is replaced by the text of its value wherever it
occurs. Values are not escaped; instead, a value that holds a placeholder itself is refused, and so
is a template that lacks one.

## Contents

* `Reference`: a module and the name of one of its exports, written with a `#` between them.
* `Placeholder`, `Values`, `render`.
-/

namespace Outpost

namespace Script

/-! ## Literal text -/

/-- Whether the characters of `token` occur in a text. -/
def occurs (token : List Char) : List Char → Bool
  | [] => token.isEmpty
  | c :: rest => token.isPrefixOf (c :: rest) || occurs token rest

/-- Replaces from a place `skip` characters ahead: those belong to an occurrence replaced before. -/
def replaceFrom (token value : List Char) : Nat → List Char → List Char
  | _, [] => []
  | skip + 1, _ :: rest => replaceFrom token value skip rest
  | 0, c :: rest =>
    if token.isPrefixOf (c :: rest) then value ++ replaceFrom token value (token.length - 1) rest
    else c :: replaceFrom token value 0 rest

/-- Every occurrence of `token`, from left to right and without overlap, replaced by `value`. -/
def replaceAll (token value text : List Char) : List Char := replaceFrom token value 0 text

/-! ## References -/

/-- A module specifier, `module`, and the name of one of its exports. -/
structure Reference where
  moduleName : String
  exportName : String
deriving DecidableEq, Repr

/-- What stands before and after the last occurrence of `mark`, if there is one. -/
def splitLast (mark : Char) : List Char → Option (List Char × List Char)
  | [] => none
  | c :: rest =>
    match splitLast mark rest with
    | some (before, after) => some (c :: before, after)
    | none => if c = mark then some ([], rest) else none

/-- Why a script cannot be made. -/
inductive Problem where
  /-- A `reference` lacks its mark, its module or its export. -/
  | badReference (reference : String)
  /-- The template does not hold the placeholder `token`. -/
  | missing (token : String)
  /-- The value for the placeholder `token` holds `found`, another placeholder or the same. -/
  | injected (token found : String)
deriving DecidableEq, Repr

/-- The wording of a problem. -/
def Problem.message : Problem → String
  | .badReference reference =>
    "Invalid implementation reference \"" ++ reference ++ "\" (expected \"module#Export\")"
  | .missing token => "Template is missing placeholder " ++ token
  | .injected token found => "Value for " ++ token ++ " contains placeholder " ++ found

/-- A problem as a fault of a deployment, a `Fault.template`. -/
def Problem.fault (problem : Problem) : Fault := .template problem.message none

/-- Reads a reference. The last `#` separates its parts, neither of which may be empty. -/
def Reference.parse (reference : String) : Except Problem Reference :=
  match splitLast '#' reference.toList with
  | some (before@(_ :: _), after@(_ :: _)) => .ok ⟨String.ofList before, String.ofList after⟩
  | _ => .error (.badReference reference)

/-! ## Placeholders -/

/-- The places of a template that `fill` fills in. -/
inductive Placeholder where
  | serverModule
  | serverClass
  | serviceModule
  | serviceClass
  | extraSetup
deriving DecidableEq, Repr

/-- How a placeholder is written in a template. -/
def Placeholder.token : Placeholder → String
  | .serverModule => "$SERVER_MODULE$"
  | .serverClass => "$SERVER_CLASS$"
  | .serviceModule => "$SERVICE_MODULE$"
  | .serviceClass => "$SERVICE_CLASS$"
  | .extraSetup => "$EXTRA_SETUP$"

/-- Every placeholder, in the order in which `render` checks and replaces them. -/
def Placeholder.all : List Placeholder :=
  [.serverModule, .serverClass, .serviceModule, .serviceClass, .extraSetup]

/-- What a template is filled with. -/
structure Values where
  serverModule : String
  serverClass : String
  serviceModule : String
  serviceClass : String
  extraSetup : String := ""
deriving DecidableEq, Repr

/-- The value for a placeholder, which is the field of its name. -/
def Values.value (values : Values) : Placeholder → String
  | .serverModule => values.serverModule
  | .serverClass => values.serverClass
  | .serviceModule => values.serviceModule
  | .serviceClass => values.serviceClass
  | .extraSetup => values.extraSetup

/-- Whether the `token` of a placeholder occurs in a text. -/
def Placeholder.occursIn (p : Placeholder) (text : String) : Bool :=
  occurs p.token.toList text.toList

/-- The first problem with the placeholder `p`: the template lacks it, or its value holds one. -/
def problemAt? (template : String) (values : Values) (p : Placeholder) : Option Problem :=
  if p.occursIn template then
    (Placeholder.all.find? (·.occursIn (values.value p))).map fun found =>
      .injected p.token found.token
  else some (.missing p.token)

/-- A template with every placeholder replaced by its value, one placeholder after another, by
`replaceAll`. -/
def fill (values : Values) (template : List Char) : List Char :=
  Placeholder.all.foldl
    (fun text p => replaceAll p.token.toList (values.value p).toList text)
    template

/-- The script that a `template` gives for `values`: by `fill`, if `problemAt?` finds no problem. -/
def render (template : String) (values : Values) : Except Problem String :=
  match Placeholder.all.findSome? (problemAt? template values) with
  | some problem => .error problem
  | none => .ok (String.ofList (fill values template.toList))

end Script

end Outpost

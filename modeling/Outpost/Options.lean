import Outpost.Fault
import Outpost.Script.Default

/-!
# Deployment options

What a caller may ask of a deployment. Every field may be left out; a field that is given must fit
its schema. Checking reports every field that does not fit, in the order of the schema, and fills
in the defaults of fields left out; fields that the schema does not know are dropped.

## Contents

* `Options.Foreign`, `Options.Value`, `Options.Input`: what callers pass.
* `Options.Problem`, `Options.Issue`: why a field does not fit.
* `Options`, `Options.resolve`.
-/

namespace Outpost

/-- What runs the script on the remote host, where the caller decides it, as `interpreter`. -/
inductive InterpreterChoice where
  /-- A command to look up by the name `selector`. -/
  | named (selector : Text.Given)
  /-- A command that the caller has resolved already, with its `argv`. -/
  | command (argv : List Json)
deriving BEq

/-- The options of a deployment, with defaults filled in. Strings are kept as they were given, as
`Text.Given`; what is done with them is done with the texts that they show. -/
structure Options where
  /-- The listener class, a reference as `Reference.parse` reads it. -/
  serverClass : Text.Given
  /-- The service class, a reference as `Reference.parse` reads it. -/
  serviceClass : Text.Given
  /-- The template of the script, for `Script.render`. -/
  serverScript : Text.Given
  /-- Statements that the script runs before it starts the listener, in place of `extraSetup`. -/
  extraSetup : Text.Given
  /-- What runs the script, if the caller decides it; otherwise `resolveInterpreter` does. -/
  interpreter : Option InterpreterChoice
  /-- The local code tree that is copied to the remote host, by `stage`. -/
  codeDirectory : Text.Given
  /-- How long `handshake` waits for the port line, in milliseconds; for ever if absent. -/
  handshakeTimeout : Option Number
  /-- The file of the event log, if events are to be recorded. -/
  eventLog : Option String
deriving BEq

namespace Options

/-! ## What callers pass -/

/-- The kinds of values that are no data, as `Value.foreign` holds them. -/
inductive Foreign where
  /-- The value of a name that was given none. -/
  | nothing
  /-- What stands in place of a number where there is none. -/
  | notNumber
  | function
  | symbol
  /-- An integer without bounds. -/
  | bigInteger
  | date
  | map
  | set
  /-- A result that is still to come. -/
  | promise
deriving DecidableEq, Repr

/-- A value given for one option. -/
inductive Value where
  /-- Plain data, a `Json` value. -/
  | json (value : Json)
  /-- A value that can spawn processes, with whatever it has for `argv`. -/
  | command (argv : Option Json)
  /-- An event log, known by the `path` of its file. -/
  | eventLog (path : String)
  /-- Any other value, of which only the `kind` matters. -/
  | foreign (kind : Foreign)

/-- A value that says something, other than `Foreign.nothing`. -/
def Value.given? : Value → Option Value
  | .foreign .nothing => none
  | value => some value

/-- A whole set of options as given. -/
inductive Input where
  /-- Values by the names of the options, as they were `given`. -/
  | fields (given : List (String × Value))
  /-- Something that has no fields. -/
  | other (value : Json)

/-- The `fields` of a set of options, none where it has no fields. -/
def Input.spread : Input → Input
  | .fields given => .fields given
  | .other _ => .fields []

/-! ## Why a field does not fit -/

/-- The kinds of values that a schema tells apart. -/
inductive Kind where
  | object
  | array
  | string
  | number
  | boolean
  | null
  | foreign (kind : Foreign)
deriving DecidableEq, Repr

/-- The name of a kind. -/
def Kind.name : Kind → String
  | .object => "object"
  | .array => "array"
  | .string => "string"
  | .number => "number"
  | .boolean => "boolean"
  | .null => "null"
  | .foreign .nothing => "undefined"
  | .foreign .notNumber => "nan"
  | .foreign .function => "function"
  | .foreign .symbol => "symbol"
  | .foreign .bigInteger => "bigint"
  | .foreign .date => "date"
  | .foreign .map => "map"
  | .foreign .set => "set"
  | .foreign .promise => "promise"

/-- The kind of a `Json` value. -/
def kindOf : Json → Kind
  | .null => .null
  | .bool _ => .boolean
  | .number _ => .number
  | .string _ | .loose _ => .string
  | .array _ => .array
  | .object _ => .object

/-- The kind of a value given for an option. -/
def Value.kind : Value → Kind
  | .json value => kindOf value
  | .command _ | .eventLog _ => .object
  | .foreign kind => .foreign kind

/-- Why a value does not fit: the `Problem` of one of the checks. -/
inductive Problem where
  | wrongKind (expected received : Kind)
  | notReference
  | empty
  | notInteger
  | notPositive
  | notEventLog
  | notInterpreter
deriving DecidableEq, Repr

/-- The wording of a problem. -/
def Problem.message : Problem → String
  | .wrongKind expected received => "Expected " ++ expected.name ++ ", received " ++ received.name
  | .notReference => "must look like \"module#Export\""
  | .empty => "String must contain at least 1 character(s)"
  | .notInteger => "Expected integer, received float"
  | .notPositive => "Number must be greater than 0"
  | .notEventLog => "Input not instance of DeploymentEventLog"
  | .notInterpreter => "Invalid input"

/-- A `problem` with one `field`, or with the options as a whole. -/
structure Issue where
  field : Option String
  problem : Problem
deriving DecidableEq, Repr

/-- The wording of an issue: its `field` in front of the `message` of its problem. -/
def Issue.text (issue : Issue) : String :=
  issue.field.getD "(root)" ++ ": " ++ issue.problem.message

/-! ## Checks of single values -/

/-- Whether a list of characters looks like a reference: something without a line end, a `#`, and
something without a `#`. -/
def isReference : List Char → Bool
  | [] => false
  | c :: rest => !Text.isLineEnd c && tailIsReference rest
where
  /-- What may follow the first character of a reference, as `isReference` has it. -/
  tailIsReference : List Char → Bool
    | [] => false
    | c :: rest =>
      (c = '#' && rest ≠ [] && rest.all (· ≠ '#')) || (!Text.isLineEnd c && tailIsReference rest)

/-- The string that a value is, if it is one, as it was given. -/
def Value.string? : Value → Option Text.Given
  | .json (.string text) => some (.whole text)
  | .json (.loose text) => some (.loose text)
  | _ => none

/-- The text that a string shows, if a value is one by `string?`. -/
def Value.text? (value : Value) : Option String := value.string?.map Text.Given.shown

/-- The check of a string: it is returned as it was given. -/
def checkText (value : Value) : Except (List Problem) Text.Given :=
  match value.string? with
  | some s => .ok s
  | none => .error [.wrongKind .string value.kind]

/-- The check of a string of at least one character, otherwise `Problem.empty`. -/
def checkFilled (value : Value) : Except (List Problem) Text.Given :=
  match checkText value with
  | .ok s => if s.shown = "" then .error [.empty] else .ok s
  | .error problems => .error problems

/-- The check of a string that looks like a reference, by `isReference`. -/
def checkReference (value : Value) : Except (List Problem) Text.Given :=
  match checkText value with
  | .ok s => if isReference s.shown.toList then .ok s else .error [.notReference]
  | .error problems => .error problems

/-- The check of an interpreter: a filled string is `named`, and a value with an array `argv` is a
`command`. -/
def checkInterpreter : Value → Except (List Problem) InterpreterChoice
  | .command (some (.array argv)) => .ok (.command argv)
  | value =>
    match value.string? with
    | some s => if s.shown = "" then .error [.empty] else .ok (.named s)
    | none => .error [.notInterpreter]

/-- The check of a positive integer, as `handshakeTimeout` has to be. -/
def checkTimeout : Value → Except (List Problem) Number
  | .json (.number n) =>
    let problems :=
      (if n.isInteger then [] else [Problem.notInteger])
        ++ (if Number.lt (.ofInt 0) n then [] else [.notPositive])
    if problems = [] then .ok n else .error problems
  | other => .error [.wrongKind .number other.kind]

/-- The check of an event log. -/
def checkEventLog : Value → Except (List Problem) String
  | .eventLog path => .ok path
  | _ => .error [.notEventLog]

/-! ## Checks of fields -/

/-- The value under `name`. A name whose value is `Foreign.nothing` counts as left out. -/
def find? (name : String) (given : List (String × Value)) : Option Value :=
  (given.find? fun field => field.1 = name).bind fun field => field.2.given?

@[simp]
theorem Value.given?_json (value : Json) : (Value.json value).given? = some (.json value) := rfl

@[simp]
theorem Value.given?_command (argv : Option Json) :
    (Value.command argv).given? = some (.command argv) := rfl

@[simp]
theorem Value.given?_eventLog (path : String) :
    (Value.eventLog path).given? = some (.eventLog path) := rfl

/-- An optional field: nothing if it is left out, and the issues that `check` has with it if it does
not fit. -/
def optional {α : Type} (given : List (String × Value)) (name : String)
    (check : Value → Except (List Problem) α) : Except (List Issue) (Option α) :=
  match find? name given with
  | none => .ok none
  | some value =>
    match check value with
    | .ok a => .ok (some a)
    | .error problems => .error (problems.map fun problem => ⟨some name, problem⟩)

/-- A field with a `default` for when it is left out. -/
def withDefault {α : Type} (given : List (String × Value)) (name : String)
    (check : Value → Except (List Problem) α) (default : α) : Except (List Issue) α :=
  (optional given name check).map fun found => found.getD default

/-- A function and its argument, with the issues of both, those of `f` in front. -/
def also {α β : Type} (f : Except (List Issue) (α → β)) (x : Except (List Issue) α) :
    Except (List Issue) β :=
  match f, x with
  | .ok f, .ok a => .ok (f a)
  | .ok _, .error issues => .error issues
  | .error issues, .ok _ => .error issues
  | .error issues, .error more => .error (issues ++ more)

/-- The options that the fields of `given` amount to, or every issue with them in the order of the
schema. -/
def resolveFields (given : List (String × Value)) : Except (List Issue) Options :=
  let serverClass := withDefault given "serverClass" checkReference Settings.serverClass
  let serviceClass := withDefault given "serviceClass" checkReference Settings.serviceClass
  let serverScript := withDefault given "serverScript" checkFilled Script.defaultTemplate
  let extraSetup := withDefault given "extraSetup" checkText ""
  let interpreter := optional given "interpreter" checkInterpreter
  let codeDirectory := withDefault given "codeDir" checkFilled Settings.codeDirectory
  let handshakeTimeout := optional given "handshakeTimeoutMs" checkTimeout
  let eventLog := optional given "eventLog" checkEventLog
  also (also (also (also (also (also (also (serverClass.map Options.mk)
    serviceClass) serverScript) extraSetup) interpreter) codeDirectory) handshakeTimeout) eventLog

/-- Every issue with what a caller passes, or the options that it amounts to, by `resolveFields`. -/
def check : Input → Except (List Issue) Options
  | .fields given => resolveFields given
  | .other value => .error [⟨none, .wrongKind .object (kindOf value)⟩]

/-- The options that a caller's `input` amounts to, or the fault `invalidOptions` with the issues
that `check` finds. -/
def resolve (input : Input) : Except Fault Options :=
  match check input with
  | .ok options => .ok options
  | .error issues => .error (.invalidOptions (issues.map fun issue => .string issue.text))

end Options

end Outpost

import Outpost.Fault
import Outpost.Json.Access

/-!
# Reports of faults

A fault as a JSON object: the name of its class, its message, and what it was about. A fault can
also be described that way, with defaults for what the description leaves out.

## Contents

* `Fault.className`, `Fault.toJson`, `Fault.ofJson`.
-/

namespace Outpost

namespace Fault

/-- The name of the class of a fault. -/
def className : Fault → String
  | .error .. => "Error"
  | .value _ => "thrown"
  | .deployment .. => "DeployError"
  | .staging .. => "StagingError"
  | .template .. => "ScriptTemplateError"
  | .state .. => "DeploymentStateError"
  | .invalidOptions _ => "InvalidOptionsError"
  | .commandNotFound .. => "CommandNotFoundError"
  | .interpreterNotFound .. => "InterpreterNotFoundError"
  | .processFailed .. => "ProcessExecutionError"
  | .timedOut .. => "TimeoutExpiredError"
  | .aggregate .. => "AggregateError"

/-- A report without particulars: the `className` of a fault and its `message`. -/
def heading (fault : Fault) : List (String × Json) :=
  [("error", .string fault.className), ("message", .string fault.message)]

mutual

/-- The report of a fault: its `heading`, and what there is of its cause. -/
def toJson : Fault → Json
  | fault@(.error _ _ cause) => .object (fault.heading ++ causeField cause)
  | fault@(.value _) => .object fault.heading
  | fault@(.deployment _ cause) => .object (fault.heading ++ causeField cause)
  | fault@(.staging _ cause) => .object (fault.heading ++ causeField cause)
  | fault@(.template _ cause) => .object (fault.heading ++ causeField cause)
  | fault@(.state _ cause) => .object (fault.heading ++ causeField cause)
  | fault@(.invalidOptions issues) => .object (fault.heading ++ [("issues", .array issues)])
  | fault@(.commandNotFound command machine) =>
    .object (fault.heading ++ Json.fieldOf "command" command ++ Json.fieldOf "machine" machine)
  | fault@(.interpreterNotFound _ candidates) =>
    .object (fault.heading ++ [("candidates", .array candidates)])
  | fault@(.processFailed argv exitCode stdout stderr) =>
    .object (fault.heading
      ++ [("argv", .array argv), ("exitCode", exitCode), ("stdout", .ofBytes stdout),
        ("stderr", .ofBytes stderr)])
  | fault@(.timedOut _ timeout) => .object (fault.heading ++ [("timeoutMs", timeout.given)])
  | fault@(.aggregate faults _) =>
    .object (fault.heading ++ [("errors", .array (listToJson faults))])

/-- The field `cause`, if there was a cause and it was something. -/
def causeField : Option Fault → List (String × Json)
  | none => []
  | some (.value none) => []
  | some cause => [("cause", cause.toJson)]

/-- The reports of several faults, each as `toJson` has it. -/
def listToJson : List Fault → List Json
  | [] => []
  | fault :: rest => fault.toJson :: listToJson rest

end

/-- What a description is about when it says no more. -/
def defaultSubject : String := "it"

/-- The fault of a described class; `cause` is what the description gives as its cause. -/
def described (description : Json) (cause : Option Fault) : Fault :=
  let message := ((description.field? "message").map Json.display).getD ""
  match description.text "error" with
  | "thrown" => .value (description.field? "value")
  | "TimeoutExpiredError" =>
    .timedOut (((description.given? "what").map Json.display).getD defaultSubject)
      ⟨(description.given? "timeoutMs").getD (.nat 1)⟩
  | "CommandNotFoundError" =>
    .commandNotFound (description.field? "command") (description.field? "machine")
  | "InterpreterNotFoundError" =>
    .interpreterNotFound (description.field? "machine") (description.items "candidates")
  | "InvalidOptionsError" => .invalidOptions (description.items "issues")
  | "ProcessExecutionError" =>
    .processFailed (description.items "argv") (Json.shown (description.field? "exitCode"))
      (((description.given? "stdout").map Json.toBytes).getD [])
      (((description.given? "stderr").map Json.toBytes).getD [])
  | "ScriptTemplateError" => .template message cause
  | "StagingError" => .staging message cause
  | "DeploymentStateError" => .state message cause
  | "DeployError" => .deployment message cause
  | _ => .error message (description.text? "code") none

mutual

/-- The fault that a description stands for; a text is the message of an `error`. -/
def ofJson : Json → Fault
  | .string message => .ofMessage message
  | .object fields => described (.object fields) (causeAmong fields)
  | other => described other none

/-- The fault that is described in the field `cause`. -/
def causeAmong : List (String × Json) → Option Fault
  | [] => none
  | (key, v) :: rest =>
    if key = "cause" then (if v == .null then none else some (ofJson v)) else causeAmong rest

end

end Fault

end Outpost

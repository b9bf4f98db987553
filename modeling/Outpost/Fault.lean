import Outpost.Json.Printer
import Outpost.Text
import Outpost.Settings

/-!
# Faults

What can go wrong, as causes: each constructor holds what the failure was about, and `Fault.message`
is the one place that words it. Some faults belong to deployments, some come from the system that a
deployment runs on, and a caller's own code may raise any value at all, or a fault with particulars
of any kind.

## Contents

* `Fault`, `Fault.message`, `Fault.ofCommand`, `Fault.ofInterpreters`.
* `Fault.isDeployment`, `Fault.isTimeout`, `Fault.isTemplate`: the classes that decide how a fault
  is handled.
-/

namespace Outpost

/-- A reason for a failure, with what its `message` is made from. -/
inductive Fault where
  /-- An error of the system, with the system's short `code` where it has one. -/
  | error (message : String) (code : Option String) (cause : Option Fault)
  /-- A raised value that is no error; `none` if nothing was raised with it. -/
  | value (value : Option Json)
  /-- A deployment fault without a class of its own, `DeployError` by name. -/
  | deployment (message : String) (cause : Option Fault)
  /-- The remote directory, the code tree or the script could not be put in place, which `stage`
  does. -/
  | staging (message : String) (cause : Option Fault)
  /-- The script template cannot be filled in, by `render`. -/
  | template (message : String) (cause : Option Fault)
  /-- The operation is not valid in the present state, as a second `start` is not. -/
  | state (message : String) (cause : Option Fault)
  /-- The options do not fit their schema; `issues` has what `resolve` found. -/
  | invalidOptions (issues : List Json)
  /-- A `machine` has no `command` of this name. -/
  | commandNotFound (command machine : Option Json)
  /-- A `machine` has none of the `candidates` tried. -/
  | interpreterNotFound (machine : Option Json) (candidates : List Json)
  /-- A process could not be launched, or broke the handshake. It is known by its `argv`, and by
  what it has said so far. -/
  | processFailed (argv : List Json) (exitCode : Json) (stdout stderr : Bytes)
  /-- A bounded wait for `what` expired after `timeout`. -/
  | timedOut (what : String) (timeout : Timeout)
  /-- Several `faults` at once. -/
  | aggregate (faults : List Fault) (message : String)
deriving BEq, Inhabited

namespace Fault

/-- An `error` of the system that is known by its message only. -/
def ofMessage (message : String) : Fault := .error message none none

/-- The fault of a `command` that a `machine` does not have. -/
def ofCommand (command : String) (machine : Option Json) : Fault :=
  .commandNotFound (some (.string command)) machine

/-- The fault of interpreters, the `candidates`, none of which a `machine` has. -/
def ofInterpreters (machine : Option Json) (candidates : List String) : Fault :=
  .interpreterNotFound machine (candidates.map Json.string)

/-- The text of an exit code, which a process that was not seen to exit does not have. -/
def exitText : Json → String
  | .null => "unknown"
  | code => code.display

/-- The wording of a fault. A raised `value` that is no error is shown as text. -/
def message : Fault → String
  | .error message _ _ => message
  | .value raised => Json.textOf raised
  | .deployment message _ => message
  | .staging message _ => message
  | .template message _ => message
  | .state message _ => message
  | .invalidOptions issues => "Invalid deployment options: " ++ Json.joined "; " issues
  | .commandNotFound command machine =>
    "Command \"" ++ Json.textOf command ++ "\" not found on " ++ Json.textOf machine
  | .interpreterNotFound machine candidates =>
    "No interpreter found on " ++ Json.textOf machine ++ " (tried: "
      ++ Json.joined ", " candidates ++ ")"
  | .processFailed argv exitCode _ stderr =>
    let said := Text.trim (Text.decodeUtf8 stderr)
    "Process " ++ Json.quote (Json.joined " " argv) ++ " failed (exit code " ++ exitText exitCode
      ++ ")" ++ (if said = "" then "" else ": " ++ said)
  | .timedOut what timeout => "Timed out after " ++ timeout.text ++ "ms waiting for " ++ what
  | .aggregate _ message => message

/-- Whether a fault is one that this library raises itself, by class. -/
def isDeployment : Fault → Bool
  | .error .. | .value _ | .aggregate .. => false
  | _ => true

/-- Whether a bounded wait expired, `timedOut`. -/
def isTimeout : Fault → Bool
  | .timedOut .. => true
  | _ => false

/-- Whether the template could not be filled in. -/
def isTemplate : Fault → Bool
  | .template .. => true
  | _ => false

/-- Whether a fault says nothing: nothing was raised with it, or a `value` that says nothing. -/
def isVoid : Fault → Bool
  | .value raised => raised.all Json.isVoid
  | _ => false

/-- The `exitCode` that a fault reports, present only where a process failed. -/
def exitCode? : Fault → Option Json
  | .processFailed _ exitCode _ _ => some exitCode
  | _ => none

end Fault

end Outpost

import Outpost.Json.Access

/-!
# Settings

The fixed names and limits of deployments, what a deployment takes from the process it runs in, and
what callers name ports and limits by.

It is the system that has to accept the name of a port or to refuse it, so a `Port` is kept as it
was given, even if that is no number, and even if it was not given. A caller says how long something
may take, in milliseconds: messages show a `Timeout` as it was given, and the clock goes by the
number that it counts as.

## Contents

* Defaults of the remote runtime, names of environment variables, limits of the event log.
* `Surroundings`: the runtime version of this process and its interpreter selector.
* `Port`, `Port.ofNat`, `Port.text`.
* `Timeout`, `Timeout.ofNumber`, `Timeout.delay`, `Timeout.text`.
-/

namespace Outpost

namespace Settings

/-! ## Remote runtime -/

/-- The listener class that is deployed where the options have no `serverClass`. -/
def serverClass : String := "./server.mjs#TcpServer"

/-- The service class that is deployed where the options have no `serviceClass`. -/
def serviceClass : String := "./services.mjs#EchoService"

/-- The bundled code tree, which is deployed where the options have no `codeDirectory`. It is known
under a name, not under the place where it is installed. -/
def codeDirectory : String := "<DEFAULT_CODE_DIR>"

/-- The file name of the rendered script inside the remote directory, where `stage` writes it. -/
def scriptName : String := "deployed-server.mjs"

/-- The interpreter that is tried last, behind the ones of the `runtimeVersion`. -/
def genericInterpreter : String := "node"

/-- How long the remote script waits for its listener to close, in milliseconds. -/
def joinTimeout : Nat := 2000

/-! ## Environment -/

/-- The variable that selects an interpreter where the options have no `interpreter`; its value is
the `selector`. -/
def interpreterVariable : String := "EPHEMERAL_DEPLOY_NODE"

/-! ## Event log -/

/-- How many lines an event log may hold before `trim` shortens it. -/
def maxLogLines : Nat := 10000

/-- How many lines a `trim` keeps. -/
def keptLogLines : Nat := 8000

/-- How many entries a `query` returns where it names no `limit`. -/
def queryLimit : Nat := 200

end Settings

/-- What a deployment takes from the process it runs in. -/
structure Surroundings where
  /-- The version of the local runtime, as in `20.11.1`. -/
  runtimeVersion : String
  /-- The value of `interpreterVariable`, where it is set. -/
  selector : Option String
deriving DecidableEq, Repr

/-! ## Ports -/

/-- A port as it was given, `none` if it was left out. -/
abbrev Port : Type := Option Json

/-- The port of a `number`. -/
def Port.ofNat (number : Nat) : Port := some (.nat number)

/-- A port in a message, by `Json.textOf`. -/
def Port.text (port : Port) : String := Json.textOf port

/-! ## Limits of waits -/

/-- How long a wait may take, as it was `given`. -/
structure Timeout where
  given : Json
deriving BEq, Inhabited

namespace Timeout

/-- A limit of so many `milliseconds`. -/
def ofNumber (milliseconds : Number) : Timeout := ⟨.number milliseconds⟩

/-- A limit of so many `milliseconds`. -/
def ofNat (milliseconds : Nat) : Timeout := ⟨.nat milliseconds⟩

/-- The milliseconds of a limit, by `numeric?`; what counts as no number leaves no time. -/
def delay (timeout : Timeout) : Number := timeout.given.numeric?.getD (.ofNat 0)

/-- A limit in a message, as `display` has it. -/
def text (timeout : Timeout) : String := timeout.given.display

end Timeout

end Outpost

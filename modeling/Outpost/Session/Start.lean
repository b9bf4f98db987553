import Outpost.Script
import Outpost.Session.Ask

/-!
# Starting a session and connecting to it

A start acquires, in this order: a temporary directory, a copy of the code tree in it, the rendered
script, an interpreter, the running script, the port that it reports, and on a machine that is only
reached through a tunnel a local port and the tunnel itself. Each thing that has to be released is
put into its slot before the next step.

The commands that may run the script on a remote host are tried closest to the local runtime first:
the name with the local major and minor version, the name with the major version, and the plain
name. A listener reports its port as the first line it writes: white space, decimal digits, white
space.

Only a ready session can be connected to. A machine that is reached directly is asked for a stream
to the port that its listener reported; the listener of any other machine is reached through the
local end of the session's tunnel.

## Contents

* `Interpreter.candidates`, `PortLine.parse?`, `PortLine.greatest`.
* `Session.stage`: directory, code tree and script.
* `Session.resolveInterpreter`: an explicit choice, the selector of the environment, or the first
  candidate that the machine has.
* `Session.handshake`: the port line, or the process stopped and everything it wrote reported.
* `Session.start`.
* `Session.connectSocket`: a bare stream; `Session.connect`, `Session.classicConnect`: a connection
  on one.
-/

namespace Outpost

/-! ## Interpreter names -/

namespace Interpreter

/-- The names that are tried for a local `version`, most specific first. A version without a minor
part gives a first name that says so. -/
def candidates (version : String) : List String :=
  let parts := (Text.split '.' version.toList).map String.ofList
  let major := parts.head?.getD ""
  let minor := parts[1]?.getD "undefined"
  [Settings.genericInterpreter ++ major ++ "." ++ minor,
    Settings.genericInterpreter ++ major,
    Settings.genericInterpreter]

end Interpreter

/-! ## Port lines -/

namespace PortLine

/-- The greatest port number, `65535`. -/
def greatest : Nat := 65535

/-- The port that a list of characters reports. Its digits are read as a number, by
`Number.ofDecimal`, which is rounded where there are many of them. -/
def parseChars? (line : List Char) : Option Nat :=
  let digits := Text.trimChars line
  if digits ≠ [] && digits.all Char.isDigit then
    let port := Number.ofDecimal false (Text.digitsValue digits) 0
    if Number.le port (.ofNat greatest) then port.toNat? else none
  else none

/-- The port that a `line` reports, by `parseChars?`, where there is a line and it reports one. -/
def parse? (line : Option String) : Option Nat :=
  match line with
  | some text => parseChars? text.toList
  | none => none

end PortLine

namespace Session

/-! ## Staging -/

/-- The values that `options` put into a template: their references by `Reference.parse`, and their
`extraSetup`. -/
def scriptValues (options : Options) : Except Script.Problem Script.Values := do
  let server ← Script.Reference.parse options.serverClass.shown
  let service ← Script.Reference.parse options.serviceClass.shown
  return {
    serverModule := server.moduleName
    serverClass := server.exportName
    serviceModule := service.moduleName
    serviceClass := service.exportName
    extraSetup := options.extraSetup.shown }

/-- The script that `options` ask for: their `serverScript` filled with `scriptValues` by
`render`. -/
def script (options : Options) : Except Fault String :=
  match scriptValues options with
  | .error problem => .error problem.fault
  | .ok values =>
    match Script.render options.serverScript.shown values with
    | .error problem => .error problem.fault
    | .ok text => .ok text

/-- Puts the code tree and the `script` into a new directory and returns the path of the script. -/
def stageSteps (options : Options) : Attempt Session interface String := do
  let directory ← Ask.tempDirectory
  modify fun session => { session with tempDirectory := some directory }
  Ask.upload options.codeDirectory.shown directory.path
  let text ← Attempt.ofExcept (script options)
  let path ← Ask.joinPath [directory.path, Settings.scriptName]
  Ask.writeFile path text
  return path

/-- What a failure of `stage` is reported as: a template that cannot be filled in as it is, anything
else as `Fault.staging` on this machine. -/
def stagingFault (machine : String) (fault : Fault) : Fault :=
  if fault.isTemplate then fault
  else
    .staging ("Failed to stage deployment on " ++ machine ++ ": " ++ fault.message) (some fault)

/-- Puts the code tree and the `script` in place, by `stageSteps`. -/
def stage (machine : Machine) (options : Options) : Attempt Session interface String :=
  tryCatch (stageSteps options) fun fault => throw (stagingFault machine.label fault)

/-! ## Interpreters -/

/-- A detail line about the choice of an interpreter. -/
def reportInterpreter {σ : Type} (text : String) : Attempt σ interface Unit :=
  ExceptT.lift (.ask (.report ⟨.debug, "InterpreterResolver", text⟩) .done)

/-- The first of some names that the machine has, by `which`, if it has any. Only `commandNotFound`
leads to the next one. -/
def firstFound {σ : Type} (machine : Option Json) :
    List String → Attempt σ interface (Option Machine.Command)
  | [] => return none
  | name :: rest => do
    match ← ExceptT.lift (Ask.which name).outcome with
    | .ok command =>
      reportInterpreter ("Using " ++ name ++ " on " ++ Json.textOf machine)
      return some command
    | .error (.commandNotFound ..) =>
      reportInterpreter (name ++ " not found on " ++ Json.textOf machine)
      firstFound machine rest
    | .error fault => throw fault

/-- The command that runs the script: the `explicit` choice of the caller, else the `selector` of
the environment, else the first of the `candidates` for the local runtime. -/
def resolveInterpreter {σ : Type} (surroundings : Surroundings) (machine : Option Json)
    (explicit : Option InterpreterChoice) : Attempt σ interface Machine.Command := do
  let search : Attempt σ interface Machine.Command := do
    let candidates := Interpreter.candidates surroundings.runtimeVersion
    match ← firstFound machine candidates with
    | some command => return command
    | none => throw (.ofInterpreters machine candidates)
  let select (selector : String) : Attempt σ interface Machine.Command :=
    if selector = "" then search else Ask.which selector
  match explicit with
  | some (.command argv) => return .given argv
  | some (.named selector) => select selector.shown
  | none =>
    match surroundings.selector with
    | some selector => select selector
    | none => search

/-! ## Handshake -/

/-- The port that the process reports with its first line, if it does, by `PortLine.parse?`. -/
def readPort (session : Session) (running : Machine.Running) :
    Attempt Session interface (Option Nat) := do
  let timeout := session.options.handshakeTimeout.map Timeout.ofNumber
  let line ← ExceptT.lift (Ask.readLine running timeout)
  let failed (fault : Fault) : Attempt Session interface (Option Nat) := do
    report .debug ("Handshake read failed for " ++ session.id ++ ": " ++ fault.message)
    return none
  match line with
  | some (.ok text) => return PortLine.parse? text
  | some (.error fault) => failed fault
  | none => failed (.timedOut "the port handshake" (timeout.getD (.ofNat 0)))

/-- Waits for a process that was asked to stop, with `communicate`, and collects its output. A wait
that takes as long as `handshakeTimeout` allows is ended by force. -/
def drain (session : Session) (running : Machine.Running) :
    Attempt Session interface Output := do
  let timeout := session.options.handshakeTimeout.map Timeout.ofNumber
  match ← ExceptT.lift (Ask.communicate (.process running) timeout).outcome with
  | .ok output => return output
  | .error fault =>
    if timeout.isSome && fault.isTimeout then
      Ask.kill (.process running)
      Ask.communicate (.process running) none
    else throw fault

/-- The port that the process reports, by `readPort`. A process that reports none is asked to stop,
waited for by `drain`, and reported with everything that it wrote. -/
def handshake (session : Session) (running : Machine.Running) :
    Attempt Session interface Nat := do
  match ← readPort session running with
  | some port => return port
  | none =>
    match ← ExceptT.lift (Ask.terminate (.process running)).outcome with
    | .ok () => pure ()
    | .error fault => report .debug ("Terminate after failed handshake: " ++ fault.message)
    let rest ← drain session running
    let exitCode ← Ask.exitCode running
    let consumed ← Ask.consumedOutput running
    throw (.processFailed running.argv exitCode (consumed ++ rest.stdout) rest.stderr)

/-! ## The whole start -/

/-- The `machine` of a session that has not given it up. -/
def requireMachine : Attempt Session interface Machine := do
  let session ← get
  match session.machine with
  | some machine => return machine
  | none =>
    throw (.state ("Deployment " ++ session.id ++ " has already released its machine") none)

/-- Runs the script at `path` with an `interpreter`. A launch that fails is reported as
`processFailed`. -/
def launch (interpreter : Machine.Command) (path : String) :
    Attempt Session interface Machine.Running :=
  tryCatch (Ask.spawn interpreter [path]) fun fault =>
    throw (.processFailed (interpreter.argv ++ [.string path]) .null []
      (Text.encodeUtf8 fault.message))

/-- Acquires everything that a running deployment needs: `stage`, `resolveInterpreter`, `launch`,
`handshake`, and a tunnel where the machine needs one. -/
def acquire (surroundings : Surroundings) : Attempt Session interface Unit := do
  let machine ← requireMachine
  let session ← get
  let path ← stage machine session.options
  record session .staged
  let interpreter ← resolveInterpreter surroundings machine.name session.options.interpreter
  let running ← launch interpreter path
  modify fun session => { session with process := some running }
  record session .spawned
  let remotePort ← handshake session running
  modify fun session => { session with remotePort := some remotePort }
  record session .handshake { remotePort := some remotePort }
  Ask.discardOutput running
  match machine.connectivity with
  | .direct => modify fun session => { session with localPort := none }
  | .tunnel _ =>
    let localPort ← Ask.freePort
    modify fun session => { session with localPort := some localPort }
    let forward ← Ask.openTunnel localPort remotePort
    modify fun session => { session with tunnel := some forward }
    record session .tunnelOpened { remotePort := some remotePort, localPort := some localPort }

/-- A port in a report, which may be missing, as `null` is. -/
def portText : Option Nat → String
  | some port => toString port
  | none => "null"

/-- What is said of a session that has become `ready`. -/
def readyText (session : Session) : String :=
  let reached :=
    match session.localPort with
    | some port => ", local port " ++ toString port
    | none => " (direct)"
  "Deployment " ++ session.id ++ " ready on " ++ Json.textOf session.machineName ++ ": remote port "
    ++ portText session.remotePort ++ reached

/-- Marks a session as `failed` and passes the `fault` on. -/
def fail (fault : Fault) : Attempt Session interface Unit := do
  modify fun session => { session with state := .failed }
  record (← get) .startFailed { reason := some fault.message, exitCode := fault.exitCode? }
  throw fault

/-- Starts a session that was only `created` so far: `acquire`, and the state is `ready`. If
something fails, the session is `failed` and holds what it had acquired. -/
def start (surroundings : Surroundings) : Attempt Session interface Unit := do
  let session ← get
  if session.state ≠ .created then
    throw (.state ("Cannot start deployment " ++ session.id ++ " in state '" ++ session.state.name
      ++ "'") none)
  set { session with state := .starting }
  tryCatch (acquire surroundings) fail
  modify fun session => { session with state := .ready }
  let session ← get
  record session .ready { remotePort := session.remotePort, localPort := session.localPort }
  report .info (readyText session)

/-! ## Connecting -/

/-- A stream to the listener of a session that is `ready`: to its remote port, or to the local end
of its tunnel. -/
def connectSocket : Attempt Session interface Machine.Socket := do
  let session ← get
  match session.state, session.machine, session.remotePort with
  | .ready, some machine, some remotePort =>
    match machine.connectivity with
    | .direct => Ask.connect remotePort
    | .tunnel _ =>
      match session.localPort with
      | some localPort => Ask.connectLocal localPort
      | none => throw (.state ("Deployment " ++ session.id ++ " has no tunnel") none)
  | _, _, _ =>
    throw (.state ("Deployment " ++ session.id ++ " is not ready (state '" ++ session.state.name
      ++ "')") none)

/-- A connection to the listener that presents a service: `connectSocket`, and then `establish`. -/
def connect (settings : Connection.Settings) : Attempt Session interface Connection := do
  let socket ← connectSocket
  (Connection.establish socket settings).embed connectionEmbedding

/-- A connection that is marked as a `classic` one. -/
def classicConnect : Attempt Session interface Connection :=
  connect { service := some .classic }

end Session

end Outpost

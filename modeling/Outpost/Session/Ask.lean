import Outpost.Session

/-!
# Requests of a session

Each request of a session as a program, with the type of its reply spelled out. Requests that may
fail are attempts.
-/

namespace Outpost

namespace Session

namespace Ask

variable {σ : Type}

/-! ## Staging -/

/-- Makes a temporary directory on the machine, by `Machine.Request.tempDirectory`. -/
def tempDirectory : Attempt σ interface Machine.Directory :=
  ExceptT.mk (.ask (.machine .tempDirectory) .done)

/-- Copies the local directory tree `source` into the directory `destination` of the machine. -/
def upload (source destination : String) : Attempt σ interface Unit :=
  ExceptT.mk (.ask (.machine (.upload source destination)) .done)

/-- Joins `parts` of a path as the machine does. -/
def joinPath (parts : List String) : Attempt σ interface String :=
  ExceptT.mk (.ask (.machine (.joinPath parts)) .done)

/-- Writes the file `path` on the machine. -/
def writeFile (path content : String) : Attempt σ interface Unit :=
  ExceptT.mk (.ask (.machine (.writeFile path content)) .done)

/-! ## Launching -/

/-- Finds the command `name` of the machine. -/
def which (name : String) : Attempt σ interface Machine.Command :=
  ExceptT.mk (.ask (.machine (.which name)) .done)

/-- Runs a command in a session of its own, as `ownSession` says. -/
def spawn (command : Machine.Command) (arguments : List String) :
    Attempt σ interface Machine.Running :=
  ExceptT.mk (.ask (.machine (.spawn command (arguments.map Json.string) .ownSession)) .done)

/-! ## The running process -/

/-- Reads a line; the result is `none` if the time runs out first. -/
def readLine (running : Machine.Running) (timeout : Option Timeout) :
    Program σ interface (Option (Except Fault (Option String))) :=
  .ask (.control (.readLine running timeout)) .done

/-- Stops keeping output. -/
def discardOutput (running : Machine.Running) : Attempt σ interface Unit :=
  ExceptT.mk (.ask (.control (.discardOutput running)) .done)

/-- The exit code so far, `null` if the process was not seen to exit. -/
def exitCode (running : Machine.Running) : Attempt σ interface Json :=
  ExceptT.lift (.ask (.control (.exitCode running)) .done)

/-- The output that readers took so far. -/
def consumedOutput (running : Machine.Running) : Attempt σ interface Bytes :=
  ExceptT.lift (.ask (.control (.consumedOutput running)) .done)

/-! ## Reaching the listener -/

/-- A local port that nobody uses. -/
def freePort : Attempt σ interface Nat := ExceptT.mk (.ask .freePort .done)

/-- Forwards `localPort` to the port `remotePort` of the machine. -/
def openTunnel (localPort remotePort : Nat) : Attempt σ interface Machine.Forward :=
  ExceptT.mk (.ask (.machine (.openTunnel (.ofNat localPort) (.ofNat remotePort))) .done)

/-- Connects to the `port` of the machine. -/
def connect (port : Nat) : Attempt σ interface Machine.Socket :=
  ExceptT.mk (.ask (.machine (.connect (.ofNat port))) .done)

/-- Connects to the local `port`. -/
def connectLocal (port : Nat) : Attempt σ interface Machine.Socket :=
  ExceptT.mk (.ask (.connectLocal port) .done)

/-! ## Releasing -/

/-- Asks the `target` to stop. -/
def terminate (target : Machine.Stoppable) : Attempt σ interface Unit :=
  ExceptT.mk (.ask (.control (.terminate target)) .done)

/-- Stops the `target` at once. -/
def kill (target : Machine.Stoppable) : Attempt σ interface Unit :=
  ExceptT.mk (.ask (.control (.kill target)) .done)

/-- Waits for the end of the `target`, for a limited time if there is a `timeout`, and collects
unread output. -/
def communicate (target : Machine.Stoppable) (timeout : Option Timeout) :
    Attempt σ interface Output :=
  ExceptT.mk (.ask (.control (.communicate target timeout)) .done)

/-- Closes the tunnel `forward`. -/
def closeTunnel (forward : Machine.Forward) : Attempt σ interface Unit :=
  ExceptT.mk (.ask (.machine (.closeTunnel forward)) .done)

/-- Gives up the machine. -/
def closeMachine : Attempt σ interface Unit := ExceptT.mk (.ask (.machine .close) .done)

/-- Removes the temporary `directory`. -/
def removeDirectory (directory : Machine.Directory) : Attempt σ interface Unit :=
  ExceptT.mk (.ask (.machine (.removeDirectory directory)) .done)

end Ask

end Session

end Outpost

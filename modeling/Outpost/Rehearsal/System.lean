import Outpost.Rehearsal.Process

/-!
# The local system of a rehearsal

Files, ports and event logs, and what is asked of them.

## Contents

* `answerLoopback`, `freePort`, `connectLoopback`.
* `answerLog`, `issue`, `record`.
* `answerConnection`, `answerSetup`, `answerListener`.
-/

namespace Outpost

namespace Rehearsal

variable {τ α : Type}

/-! ## Files -/

/-- The path of a new temporary directory below `tempRoot`: every such path has a number of its
own. -/
def temporary (made : Deed) (stem : String) : Play τ (Except Fault String) :=
  deed made do
    let digits := toString ((← count "temporary") + 1)
    return stem ++ String.ofList (List.replicate (6 - digits.length) '0') ++ digits

/-- The `ENOENT` of a file or directory that does not exist. -/
def missing (purpose path : String) : Fault :=
  .error ("ENOENT: no such file or directory, " ++ purpose ++ " '" ++ path ++ "'") (some "ENOENT")
    none

/-! ## Ports -/

/-- Connects to a local port, which must be one of those in `listening`. -/
def connectLoopback (port : Port) : Play τ (Except Fault Machine.Socket) := do
  note (.connect port)
  let stream ← newStream port
  soon do
    if (← get).listening.contains port then return .ok ⟨stream⟩
    return .error (.ofMessage ("connect ECONNREFUSED " ++ Loopback.host ++ ":" ++ port.text))

/-- The first of the ports that servers are bound to where they do not ask for one. -/
def firstPort : Nat := 40001

/-- Binds a server to a port that is found for it, under the name that was given for such a port. -/
def bindAny (port : Port) (host : Json) : Play τ (Except Fault Nat) := do
  note (.bind port host)
  soon (attempt (.bind port host) do return firstPort + (← count "bound"))

/-- Binds a server. What the plan says in `address` is no port. -/
def bind (port : Port) (host : Json) : Play τ (Except Fault Port) := do
  let bound ←
    if port == .ofNat 0 then do pure ((← bindAny port host).map Port.ofNat)
    else do
      note (.bind port host)
      soon (attempt (.bind port host) (return port))
  return if (← get).plan.address.isSome then bound.map fun _ => none else bound

/-- Closes a server. A planned fault of `unbind` is reported. -/
def unbind : Play τ (Except Fault Unit) := do
  note .unbind
  soon (attemptReported .unbind (pure ()))

/-- What the search of `Loopback.freePort` leads to. -/
def answerLoopback : (r : Loopback.Request) → Play τ (Loopback.interface.Reply r)
  | .listen host => do
    match ← bindAny (.ofNat 0) host, (← get).plan.address with
    | .error fault, _ => return .error fault
    | .ok port, none => return .ok (.port port)
    | .ok _, some address => return .ok (.other address)
  | .close => unbind
  | .abandon => do
    note .unbind
    let _ ← Step.schedule (.ofNat 0) do
      let _ ← attempt .unbind (pure ())

/-- A free port, by `Loopback.freePort`. -/
def freePort (host : Json) : Play τ (Except Fault Nat) :=
  (Loopback.freePort host).outcome.interpret (pure ()) (fun _ => pure ()) answerLoopback

/-! ## Event logs -/

/-- The `Logbook` of a file, a new one if there is none. -/
def logbook (path : String) : Play τ Logbook :=
  Step.ask fun w => (w.logs.lookup path).getD { queue := .ofLog ⟨path⟩ }

/-- Keeps the log of a file, and tells those who `await` the tickets of jobs that have ended. -/
def keepLogbook (path : String) (book : Logbook) (ended : List (Nat × Except Fault Unit)) :
    Play τ Unit := do
  modify fun w => { w with
    logs := (path, book) :: w.logs.filter fun entry => entry.1 != path }
  for (ticket, result) in ended do
    post ticket (.result result)

/-- What a log asks for. A flush waits for the latest job of the log of `path`. -/
def answerLog (path : String) : (r : EventLog.Request) → Play τ (EventLog.interface.Reply r)
  | .makeDirectory path => deed (.log (.makeDirectory path)) (pure ())
  | .appendFile path text => attempt (.log (.appendFile path text)) do
      setFile path (((← get).files.lookup path).getD "" ++ text)
  | .contents path => do
    match ← attempt (.log (.contents path)) (Step.ask fun w => w.files.lookup path) with
    | .error fault => return .error fault
    | .ok (some text) => return .ok text
    | .ok none => return .error (missing "open" path)
  | .writeFile path text => deed (.log (.writeFile path text)) (setFile path text)
  | .flush => do
    let book ← logbook path
    if book.queue.current.isSome then
      let _ ← await book.latest
  | .report line => report line

/-- Lets the job in front make requests, `limit` at most. -/
def advance (path : String) : Nat → Play τ Unit
  | 0 => return
  | limit + 1 => do
    let some (ticket, waiting) := (← logbook path).queue.current | return
    let reply ← answerLog path waiting.request
    let book ← logbook path
    let (queue, ended) := book.queue.resume ticket (waiting.next reply)
    keepLogbook path { book with queue } ended
    advance path limit

/-- More requests than an `EventLog.Job` makes. -/
def requestsPerJob : Nat := 4

/-- Issues a job to the `queue` of a log and returns the ticket under which its end is reported. -/
def issue (path : String) (job : EventLog.Job) : Play τ Nat := do
  let ticket ← Step.fresh
  let book ← logbook path
  let (queue, ended) := book.queue.issue ticket job
  keepLogbook path { queue, latest := ticket } ended
  if book.queue.current.isNone then
    Step.defer do
      let jobs := (← logbook path).queue.behind.length + 1
      advance path (requestsPerJob * jobs)
  return ticket

/-- Waits for the end of the job of `ticket`. -/
def ending (ticket : Nat) : Play τ (Except Fault Unit) := do
  match ← await ticket with
  | some (.result result) => return result
  | _ => return .ok ()

/-- Records an entry with the present time, as an `append` of its `EventLog.line`. -/
def record (path : String) (entry : Json) : Play τ Unit := do
  let _ ← issue path (.append (EventLog.line (← time) entry))

/-- What is done with the log of a file: `answerLog` answers. -/
def onLog (path : String) (x : Attempt Unit EventLog.interface α) : Play τ (Except Fault α) :=
  x.outcome.interpret (pure ()) (fun _ => pure ()) (answerLog path)

/-- A new log, by `EventLog.create`. -/
def createLog (path : Option String) : Play τ (Except Fault EventLog) := do
  onLog "" (EventLog.create (← get).plan.home path)

/-! ## Connections and listeners -/

/-- What a connection asks for by a `Connection.Request`. -/
def answerConnection : (r : Connection.Request) → Play τ (Connection.interface.Reply r)
  | .made name => do return ((← get).plan.service (.made name)).elim (.ok ()) .error
  | .opened name config closed => told (.opened name config closed)
  | .closed name config closed => told (.closed name config closed)
  | .destroy stream => note (.connection (.destroy stream))
where
  /-- A service is told of its connection, unless the plan's `service` makes it fail. -/
  told (request : Connection.Request) : Play τ (Except Fault Unit) := do
    match (← get).plan.service request with
    | some fault => return .error fault
    | none =>
      note (.connection request)
      return .ok ()

/-- What a connection asks for while it is set up. The services of a rehearsal leave it alone: they
do no deeds of `Connection.setup`. -/
def answerSetup : (r : Connection.Request) → Play τ (Connection.setup.Reply r)
  | .opened name config closed => do
    return ([], ← answerConnection (.opened name config closed))
  | .made name => answerConnection (.made name)
  | .closed name config closed => answerConnection (.closed name config closed)
  | .destroy stream => answerConnection (.destroy stream)

/-- What a listener asks for by a `Listener.Request`. -/
def answerListener : (r : Listener.Request) → Play τ (Listener.interface.Reply r)
  | .listen port host => bind port host
  | .closeServer => do
    let _ ← unbind
  | .destroy stream => note (.listener (.destroy stream))
  | .sendBack stream => note (.listener (.sendBack stream))
  | .opened attendant => note (.listener (.opened attendant))
  | .closed attendant => note (.listener (.closed attendant))
  | .remark text => note (.listener (.remark text))
  | .warning text => note (.listener (.warning text))

end Rehearsal

end Outpost

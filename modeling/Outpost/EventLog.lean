import Outpost.Console
import Outpost.Event
import Outpost.Json.Access
import Outpost.Json.Printer
import Outpost.Path
import Outpost.Program
import Outpost.Settings
import Outpost.Text

/-!
# Event logs

A file of one JSON value per line, to which events are appended. Reading is lenient: lines that are
blank, that are no JSON, or that are no events, count for nothing. A log that has grown past its
limit is shortened to its newest lines.

## Contents

* `EventLog`, `EventLog.create`, and the requests that a log makes of the file system.
* `EventLog.line`: how an event is written.
* `EventLog.Filter`, `EventLog.select`, `EventLog.query`.
* `EventLog.append`, `EventLog.trim`: the two kinds of jobs that change the file.
-/

namespace Outpost

/-- An event log, known by the `path` of its file. -/
structure EventLog where
  path : String
deriving DecidableEq, Repr

namespace EventLog

/-! ## Requests -/

/-- What a log asks for. -/
inductive Request where
  /-- Makes the directory `path` and those above it. -/
  | makeDirectory (path : String)
  | appendFile (path text : String)
  /-- The whole text of the file `path`. -/
  | contents (path : String)
  | writeFile (path text : String)
  /-- Waits until every change issued so far has been made. -/
  | flush
  /-- A line on the console. -/
  | report (line : Console.Line)

/-- The replies: everything that involves the file system may fail with a `Fault`. -/
def interface : Interface where
  Request := Request
  Reply
    | .makeDirectory _ => Except Fault Unit
    | .appendFile .. => Except Fault Unit
    | .contents _ => Except Fault String
    | .writeFile .. => Except Fault Unit
    | .flush => Unit
    | .report _ => Unit

/-- A line of this component on the console. -/
def report (level : Console.Level) (text : String) : Program Unit interface Unit :=
  .ask (.report ⟨level, "DeploymentLog", text⟩) .done

/-- The file of a log that was given none, below the directory `home`. -/
def defaultPath (home : String) : String :=
  Path.join [home, ".ephemeral-deploy", "deployments.jsonl"]

/-- The log of the file `path`, whose directory is made; an empty file name is none, and gives
`defaultPath`. -/
def create (home : String) (path : Option String) : Attempt Unit interface EventLog := do
  let path :=
    match path with
    | some "" | none => defaultPath home
    | some given => given
  ExceptT.mk (.ask (.makeDirectory (Path.directory path)) .done)
  return ⟨path⟩

/-! ## Writing -/

/-- The line of an entry: its fields behind its time, which is `now` unless the entry has one. -/
def line (now : Number) (entry : Json) : String :=
  let fields :=
    match entry with
    | .object fields => fields
    | _ => []
  let time := (Json.lookup "ts" fields).getD (.number now)
  let others := fields.filter fun field => field.1 ≠ "ts"
  (Json.mkObject (("ts", time) :: others)).render ++ "\n"

/-- Appends a `line` to the file. A failure is reported and otherwise ignored. -/
def append (log : EventLog) (line : String) : Program Unit interface Unit := do
  match ← (.ask (.appendFile log.path line) .done : Program Unit interface (Except Fault Unit)) with
  | .ok () => return
  | .error fault =>
    report .error ("Failed to append to " ++ log.path ++ ": " ++ fault.message)

/-! ## Reading -/

/-- The lines of a text that are not blank, as `trimChars` has it. -/
def filledLines (text : List Char) : List (List Char) :=
  (Text.split '\n' text).filter fun line => !Text.allBlank line

/-- Whether a fault says that a file does not exist, with the code `ENOENT`. -/
def isMissingFile : Fault → Bool
  | .error _ (some "ENOENT") _ => true
  | _ => false

/-- The `filledLines` of the log; a file that does not exist has none. -/
def readLines (log : EventLog) : Attempt Unit interface (List (List Char)) := do
  match ← (ExceptT.lift (.ask (.contents log.path) .done) :
      Attempt Unit interface (Except Fault String)) with
  | .ok text => return filledLines text.toList
  | .error fault => if isMissingFile fault then return [] else throw fault

/-- What a `query` asks for. -/
structure Filter where
  deployment : Option Text.Loose := none
  kind : Option String := none
  /-- Only entries that are not older than `since`. -/
  since : Option Number := none
  /-- How many entries, the newest ones; `effectiveLimit` has what it is by default. -/
  limit : Option Number := none

/-- The kind that no entry has, the empty `Kind.name`. -/
def Filter.noKind : String := ""

/-- The filter that an object describes. A deployment or a kind that is no text is that of no entry.
A time or a limit may be any value that counts as a number, by `numeric?`; others leave no entry
out. -/
def Filter.ofJson (filter : Json) : Filter :=
  let text? (key : String) : Option Text.Loose := (filter.field? key).bind Event.textOf?
  let isOther (key : String) : Bool := (filter.field? key).isSome && (text? key).isNone
  { deployment := text? "deploymentId"
    kind :=
      if isOther "deploymentId" || isOther "event" then some noKind
      else (text? "event").map fun kind => kind.whole?.getD noKind
    since := (filter.field? "since").bind Json.numeric?
    limit := (filter.given? "limit").map fun limit => limit.numeric?.getD (.infinite false) }

/-- Whether an entry is asked for: it is of the deployment and the kind, and not older than
`since`. -/
def Filter.accepts (filter : Filter) (event : Event) : Bool :=
  (match filter.deployment with
    | some deployment => event.deployment = deployment
    | none => true)
  && (match filter.kind with
    | some kind => event.kind.name = kind
    | none => true)
  && (match filter.since with
    | some since => !Number.lt event.time since
    | none => true)

/-- The last `limit` items of a list. The fraction of a limit does not count, and a limit without
anything before its fraction takes all items. -/
def newest {α : Type} (limit : Number) (items : List α) : List α :=
  match limit with
  | .infinite _ => items
  | .finite x =>
    let count := (Number.truncateDyadic x).toNat
    if count = 0 then items else items.drop (items.length - count)

/-- The entries that a query finds among `lines`, newest first: those that the filter `accepts`, and
of them the `newest`. -/
def select (filter : Filter) (limit : Number) (lines : List (List Char)) : List Event :=
  let entries := lines.filterMap fun line => (Json.parseChars? line).bind Event.ofJson?
  (newest limit (entries.filter filter.accepts)).reverse

/-- How many characters of a line that is no JSON are shown. -/
def shownLength : Nat := 80

/-- Reports the lines that `parseChars?` does not take for JSON. -/
def reportMalformed : List (List Char) → Program Unit interface Unit
  | [] => return
  | line :: rest => do
    match Json.parseChars? line with
    | some _ => reportMalformed rest
    | none =>
      report .debug ("Skipping malformed line: "
        ++ String.ofList (Text.takeUnits shownLength line))
      reportMalformed rest

/-- The limit of a query, or the one of `Settings` if it has none. -/
def Filter.effectiveLimit (filter : Filter) : Number :=
  filter.limit.getD (.ofNat Settings.queryLimit)

/-- The newest entries that a filter `accepts`, newest first, after a `flush`. Without room for an
entry the file is not looked at. -/
def query (log : EventLog) (filter : Filter) : Attempt Unit interface (List Event) := do
  let limit := filter.effectiveLimit
  if Number.le limit (.ofInt 0) then return []
  ExceptT.lift (.ask .flush .done)
  let lines ← readLines log
  ExceptT.lift (reportMalformed lines)
  return select filter limit lines

/-! ## Trimming -/

/-- The text of `lines`, each ended. -/
def joinLines (lines : List (List Char)) : String :=
  String.ofList (['\n'].intercalate lines ++ ['\n'])

/-- The lines that a `trim` keeps, the last ones. -/
def keptLines (lines : List (List Char)) : List (List Char) :=
  lines.drop (lines.length - Settings.keptLogLines)

/-- Shortens the log to its `keptLines`, if it holds more than `maxLogLines`. -/
def trim (log : EventLog) : Attempt Unit interface Unit := do
  let lines ← readLines log
  if lines.length ≤ Settings.maxLogLines then return
  let kept := keptLines lines
  ExceptT.mk (.ask (.writeFile log.path (joinLines kept)) .done)
  ExceptT.lift (report .info ("Trimmed from " ++ toString lines.length ++ " to "
    ++ toString kept.length ++ " entries"))

end EventLog

end Outpost

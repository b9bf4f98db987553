import Outpost.EventLog

/-!
# The queue of an event log

Changes to a log are made one at a time, in the order in which they were issued. Issuing never
waits: a job joins the queue, and the job in front goes on whenever its last request is answered. A
job that fails does not stop the ones behind it.

## Contents

* `EventLog.Job`, `Job.program`: appending a line, and trimming.
* `EventLog.Queue`, `Queue.issue`, `Queue.startNext`, `Queue.resume`.
-/

namespace Outpost

namespace EventLog

/-- A change to a log: an `append`, or a `trim`. -/
inductive Job where
  | append (line : String)
  | trim
deriving DecidableEq, Repr

/-- What a job does and how it ends. A `trim` that fails is reported, too. -/
def Job.program (log : EventLog) : Job → Program Unit interface (Except Fault Unit)
  | .append line => do
    log.append line
    return .ok ()
  | .trim => do
    match ← log.trim.outcome with
    | .ok () => return .ok ()
    | .error fault =>
      report .warn ("Trim of " ++ log.path ++ " failed: " ++ fault.message)
      return .error fault

/-- The `request` of the job in front, and what the job does `next` with the reply. -/
structure Waiting where
  request : Request
  next : interface.Reply request → Program Unit interface (Except Fault Unit)

/-- Jobs that are not finished yet. -/
structure Queue where
  log : EventLog
  /-- The job in front, which is `Waiting` for a reply, with its ticket. -/
  current : Option (Nat × Waiting) := none
  /-- The jobs behind it, with their tickets. -/
  behind : List (Nat × Job) := []

namespace Queue

/-- A queue of the log with nothing to do. -/
def ofLog (log : EventLog) : Queue := { log }

/-- Runs a job up to its next request, on which it is `Waiting`, if it makes one before it is
finished. -/
def advance : Program Unit interface (Except Fault Unit) → Except Fault Unit ⊕ Waiting
  | .done result => .inl result
  | .read next => advance (next ())
  | .write _ next => advance next
  | .ask request next => .inr ⟨request, next⟩

/-- Starts jobs, by `advance`, until one waits for a reply, with the results of those that finish
before that. -/
def startNext (log : EventLog) :
    List (Nat × Job) → Queue × List (Nat × Except Fault Unit)
  | [] => ({ log }, [])
  | (ticket, job) :: rest =>
    match advance (job.program log) with
    | .inr waiting => ({ log, current := some (ticket, waiting), behind := rest }, [])
    | .inl result =>
      let (queue, results) := startNext log rest
      (queue, (ticket, result) :: results)

/-- A queue with one more `job`, which is started if there is none in front. -/
def issue (queue : Queue) (ticket : Nat) (job : Job) :
    Queue × List (Nat × Except Fault Unit) :=
  match queue.current with
  | some _ => ({ queue with behind := queue.behind ++ [(ticket, job)] }, [])
  | none => startNext queue.log (queue.behind ++ [(ticket, job)])

/-- What happens when the job in front gets its reply: it goes on with `next`, and the jobs behind
it follow when it is finished. -/
def resume (queue : Queue) (ticket : Nat) (next : Program Unit interface (Except Fault Unit)) :
    Queue × List (Nat × Except Fault Unit) :=
  match advance next with
  | .inr waiting => ({ queue with current := some (ticket, waiting) }, [])
  | .inl result =>
    let (after, results) := startNext queue.log queue.behind
    (after, (ticket, result) :: results)

end Queue

end EventLog

end Outpost

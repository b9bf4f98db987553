import Outpost.Rehearsal.Arrival
import Outpost.Scoped

/-!
# Deployments in a rehearsal

Sessions and groups make their requests of the machines that are known in the world, and of the
local system. The work for which a scoped deployment is made is a list of calls that are tried out,
each with a result in `β`: the first call that fails ends the work, and its last result is that of
the whole.

## Contents

* `answerSession`, `answerGroup`.
* `Work.interface`, `Work.embedding`, `Work.program`, `Work.answer`.
-/

namespace Outpost

namespace Rehearsal

variable {τ : Type}

/-- What a session on `host` asks for. A command that its caller brought runs on `first`. -/
def answerSession (first host : Nat) :
    (r : Session.Request) → Play τ (Session.interface.Reply r)
  | .machine (.spawn (.given argv) arguments options) =>
    askHost first (.spawn (.given argv) arguments options)
  | .machine request => askHost host request
  | .control request => answerControl host request
  | .freshId => do return (← get).plan.sessionName (← count "session")
  | .freePort => freePort (.string Loopback.host)
  | .connectLocal port => connectLoopback (.ofNat port)
  | .connection request => answerSetup request
  | .report line => report line
  | .record log deployment machine kind details =>
    record log (Event.entry deployment machine kind details)

/-- What a group asks for whose machines start at `first`, which is also where commands run that its
caller brought. -/
def answerGroup (first : Nat) : (r : Group.Request) → Play τ (Group.interface.Reply r)
  | .member index request => answerSession first (first + index) request
  | .report line => report line

/-! ## Scoped work -/

namespace Work

/-- The requests of scoped work: those of the interface `I` and the calls of the caller. -/
inductive Request (I : Interface) (Call : Type) where
  /-- Something that `withDeployment` or `deployGroup` asks for. -/
  | deployment (request : I.Request)
  /-- The work begins. -/
  | begin
  | call (call : Call)

/-- The replies: every `call` may fail. -/
def interface (I : Interface) (Call β : Type) : Interface where
  Request := Request I Call
  Reply
    | .deployment request => I.Reply request
    | .begin => Unit
    | .call _ => Except Fault β

variable {σ β Call : Type} {I : Interface}

/-- A deployment makes its requests among those of the work, each as `Request.deployment`. -/
def embedding : Interface.Embedding I (interface I Call β) where
  request := .deployment
  reply _ reply := reply

/-- Calls one after another, after a `last` result so far. -/
def callAll (last : β) : List Call → Attempt σ (interface I Call β) β
  | [] => return last
  | call :: rest => do
    callAll (← (ExceptT.mk (.ask (.call call) .done) : Attempt σ (interface I Call β) β)) rest

/-- The work; `nothing` is its result where there are no calls. -/
def program (nothing : β) (calls : List Call) : Attempt σ (interface I Call β) β := do
  (ExceptT.lift (.ask .begin .done) : Attempt σ (interface I Call β) Unit)
  callAll nothing calls

/-- What scoped work leads to: `carryOut` answers the calls. -/
def answer (deployment : (r : I.Request) → Play τ (I.Reply r)) (begin : Play τ Unit)
    (carryOut : Call → Play τ (Except Fault β)) :
    (r : Request I Call) → Play τ ((interface I Call β).Reply r)
  | .deployment request => deployment request
  | .begin => begin
  | .call call => carryOut call

end Work

end Rehearsal

end Outpost

import Outpost.Group

/-!
# Scoped deployments

A deployment for the time of one piece of work: it is started, the work is done, and it is closed
whatever happened. If starting or the work has failed, that fault is the one passed on, and a
failure to close on top of it is only reported.

The work is a program among requests of its own choice, of which those of the deployment are a part.

## Contents

* `withDeployment`, `deployGroup`.
-/

namespace Outpost

variable {J : Interface} {α : Type}

namespace Session

/-- What a session does, as `x`, while it is the one that a scope holds. -/
def inScope (e : Interface.Embedding Session.interface J) (session : Session)
    (x : Attempt Session Session.interface α) : Attempt (Option Session) J α :=
  (x.embed e).focus (fun held => held.getD session) (fun session _ => some session)

/-- Starts a session on a machine, does `work`, and closes the session. -/
def withDeployment (e : Interface.Embedding Session.interface J) (surroundings : Surroundings)
    (machine : Machine) (input : Options.Input) (closeTimeout : Option Timeout)
    (work : Attempt (Option Session) J α) : Attempt (Option Session) J α := do
  let session ← (Session.create machine input).embed e
  set (some session)
  let body : Attempt (Option Session) J α := do
    inScope e session (start surroundings)
    work
  match ← ExceptT.lift body.outcome with
  | .ok result =>
    inScope e session (close closeTimeout)
    return result
  | .error fault =>
    match ← ExceptT.lift (inScope e session (close closeTimeout)).outcome with
    | .ok () => throw fault
    | .error closing =>
      (report .warn ("Closing deployment " ++ session.id ++ " after a failure also failed: "
        ++ closing.message)).embed e
      throw fault

end Session

namespace Group

/-- Starts a group, does `work`, and closes the group. -/
def deployGroup (e : Interface.Embedding Group.interface J) (surroundings : Surroundings)
    (closeTimeout : Option Timeout) (work : Attempt Group J α) : Attempt Group J α := do
  let body : Attempt Group J α := do
    (start surroundings).embed e
    work
  match ← ExceptT.lift body.outcome with
  | .ok result =>
    (close closeTimeout).embed e
    return result
  | .error fault =>
    match ← ExceptT.lift ((close closeTimeout).embed e).outcome with
    | .ok () => throw fault
    | .error closing =>
      ExceptT.lift ((report .warn ("Closing the group after a failure also failed: "
        ++ closing.message)).embed e)
      throw fault

end Group

end Outpost

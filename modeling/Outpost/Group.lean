import Outpost.Session.Close
import Outpost.Session.Start

/-!
# Deployment groups

One session per machine, managed together. A group starts its sessions one after another in the
order of its machines, and stops at the first that fails; the sessions made so far, the failed one
included, stay in the group to be closed. Closing takes the sessions out from the front and goes on
whatever happens to each of them.

## Contents

* `Group`, `Group.Member`, `Group.interface`.
* `Group.start`, `Group.connectAll`, `Group.close`.
* `Group.at?`: members by their place, counted from either end.
-/

namespace Outpost

/-- A `session` in a group, with the place of its machine, `index`. -/
structure Group.Member where
  index : Nat
  session : Session

/-- Sessions on several `machines`. -/
structure Group where
  machines : List Machine
  options : Options.Input
  members : List Group.Member := []
  /-- The members that `close` has taken out, as it left them, first out first. -/
  departed : List Group.Member := []
  started : Bool := false

namespace Group

/-- What a group asks for. -/
inductive Request where
  /-- A `request` of the session on the machine at the place `index`. -/
  | member (index : Nat) (request : Session.Request)
  /-- A line on the console. -/
  | report (line : Console.Line)

/-- The replies, those to `member` as the session has them. -/
def interface : Interface where
  Request := Request
  Reply
    | .member _ request => Session.interface.Reply request
    | .report _ => Unit

/-- Sessions make their requests through the group's, as `member` under the place of their
machine. -/
def memberEmbedding (index : Nat) : Interface.Embedding Session.interface Group.interface where
  request := .member index
  reply _ reply := reply

/-- A line of this component on the console. -/
def report {σ : Type} (level : Console.Level) (text : String) : Program σ interface Unit :=
  .ask (.report ⟨level, "DeploymentGroup", text⟩) .done

/-! ## Members -/

/-- The session at a position, or `absent` if there is none. -/
def sessionAt (position : Nat) (absent : Session) (group : Group) : Session :=
  match group.members[position]? with
  | some member => member.session
  | none => absent

/-- A group with the session at a `position` replaced. -/
def setSession (position : Nat) (session : Session) (group : Group) : Group :=
  { group with members := group.members.modify position fun member => { member with session } }

/-- What a session does, as `x`, while it is the `member` at a `position`. -/
def onMember {α : Type} (position : Nat) (member : Member)
    (x : Attempt Session Session.interface α) : Attempt Group interface α :=
  (x.embed (memberEmbedding member.index)).focus (sessionAt position member.session)
    (setSession position)

/-- The place that a number counts to among `length` places, from the front if it is not negative
and from the back if it is. A fraction does not count. -/
def place? (length : Nat) : Number → Option Nat
  | .infinite _ => none
  | .finite x =>
    let offset := Number.truncateDyadic x
    let position := if offset < 0 then offset + length else offset
    if position < 0 then none else some position.toNat

/-- The member that a number counts to, by `place?`. -/
def at? (group : Group) (place : Number) : Option Member :=
  match place? group.members.length place with
  | some position => group.members[position]?
  | none => none

/-! ## Starting -/

/-- Starts sessions on machines, one after another: each is made by `create`, becomes a member, and
is started. -/
def startFrom (surroundings : Surroundings) : List (Machine × Nat) → Attempt Group interface Unit
  | [] => return
  | (machine, index) :: rest => do
    let session ←
      (Session.create machine (← get).options.spread).embed (memberEmbedding index)
    let position := (← get).members.length
    modify fun group => { group with members := group.members ++ [⟨index, session⟩] }
    onMember position ⟨index, session⟩ (Session.start surroundings)
    startFrom surroundings rest

/-- Starts a group, by `startFrom`, which is possible once. -/
def start (surroundings : Surroundings) : Attempt Group interface Unit := do
  let group ← get
  if group.started then
    throw (.state "DeploymentGroup.start() may only be called once" none)
  set { group with started := true }
  startFrom surroundings group.machines.zipIdx

/-! ## Connecting -/

/-- Connections to members, by `connect`, one after another; the first that fails ends it. -/
def connectMembers (settings : Connection.Settings) :
    List (Member × Nat) → Attempt Group interface (List Connection)
  | [] => return []
  | (member, position) :: rest => do
    let connection ← onMember position member (Session.connect settings)
    return connection :: (← connectMembers settings rest)

/-- A connection to every session, in order, by `connectMembers`. -/
def connectAll (settings : Connection.Settings) : Attempt Group interface (List Connection) := do
  connectMembers settings (← get).members.zipIdx

/-- A connection to every session, in order, that is marked as a `classic` one. -/
def classicConnectAll : Attempt Group interface (List Connection) :=
  connectAll { service := some .classic }

/-! ## Closing -/

/-- Takes up to `count` members out from the front and closes each, collecting the faults. -/
def closeMembers (timeout : Option Timeout) : Nat → Program Group interface (List Fault)
  | 0 => return []
  | count + 1 => do
    let group ← get
    match group.members with
    | [] => return []
    | member :: rest =>
      set { group with members := rest }
      let (result, session) ←
        ((Session.close timeout).outcome.own member.session).embed (memberEmbedding member.index)
      modify fun group =>
        { group with departed := group.departed ++ [{ member with session }] }
      match result with
      | .ok () => closeMembers timeout count
      | .error fault =>
        report .warn ("Closing deployment " ++ session.id ++ " on "
          ++ Json.textOf session.machineName
          ++ " failed: " ++ fault.message)
        return fault :: (← closeMembers timeout count)

/-- Closes every session, by `closeMembers`. One failure is passed on as it is, several as one
`aggregate`. -/
def close (timeout : Option Timeout) : Attempt Group interface Unit := do
  let faults ← ExceptT.lift (closeMembers timeout (← get).members.length)
  match faults with
  | [] => return
  | [fault] => throw fault
  | _ => throw (.aggregate faults (toString faults.length ++ " deployments failed to close"))

end Group

end Outpost

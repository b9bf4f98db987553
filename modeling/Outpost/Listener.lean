import Outpost.Settings
import Outpost.Program

/-!
# The deployed listener

The server that runs on the remote host. It keeps the set of its open connections; a connection
belongs to the set from when it is accepted until its stream reports that it is closed. For each
connection it makes an instance of its service, which attends to the stream of the connection and to
no other.

## Contents

* `Listener`, `Listener.Attendant`, `Listener.Settings`, `Listener.Hosted`.
* `Listener.start`, `Listener.accept`, `Listener.closed`, `Listener.failed`, `Listener.close`.
-/

namespace Outpost

/-- An instance of a service, by the number of those made before it, with the `stream` that it
attends to. -/
structure Listener.Attendant where
  service : Nat
  stream : Nat
deriving DecidableEq, Repr

/-- In what is written of it, an `Attendant` is known by its `stream`. -/
instance : Coe Listener.Attendant Nat := ⟨Listener.Attendant.stream⟩

/-- The state of a listener. -/
structure Listener where
  /-- The port it is bound to, once `start` has bound it. -/
  port : Option Port := none
  /-- The open connections, in the order in which `accept` took them. -/
  connections : List Nat := []
  /-- The instances of the service, in the order in which they were made. Each of them is told, by
  `closed`, when its stream reports that it is closed. -/
  attendants : List Listener.Attendant := []
deriving BEq

namespace Listener

/-- What a listener does with its `connections`. -/
inductive Hosted where
  /-- Sends every byte back, by `sendBack`. -/
  | echo
  /-- Nothing. -/
  | silent
  /-- A service of the caller's own. -/
  | custom
deriving DecidableEq, Repr

/-- How a listener is set up. -/
structure Settings where
  hosted : Hosted
  hostname : Json := .string "127.0.0.1"
  port : Port := .ofNat 0
deriving BEq

/-- What a listener asks for, of the server, of its streams and of the service. -/
inductive Request where
  /-- Binds the server to `port`; the reply is the port, if the server is bound to one. -/
  | listen (port : Port) (hostname : Json)
  /-- Stops the server from accepting and waits until it has. -/
  | closeServer
  /-- Gives up the `stream`. -/
  | destroy (stream : Nat)
  /-- Writes everything that the `stream` reads back to it. -/
  | sendBack (stream : Nat)
  /-- Tells the `attendant` that its stream is open. -/
  | opened (attendant : Attendant)
  /-- Tells the `attendant` that its stream is closed. -/
  | closed (attendant : Attendant)
  /-- A remark for the listener's log. -/
  | remark (text : String)
  /-- A warning for the listener's log. -/
  | warning (text : String)

/-- The replies: only `listen` may fail. -/
def interface : Interface where
  Request := Request
  Reply
    | .listen .. => Except Fault Port
    | .closeServer => Unit
    | .destroy _ => Unit
    | .sendBack _ => Unit
    | .opened _ => Unit
    | .closed _ => Unit
    | .remark _ => Unit
    | .warning _ => Unit

/-- Binds the listener, by `listen`. -/
def start (settings : Settings) : Attempt Listener interface Unit := do
  let port ← (ExceptT.mk (.ask (.listen settings.port settings.hostname) .done) :
    Attempt Listener interface Port)
  modify fun listener => { listener with port := some port }
  ExceptT.lift (.ask (.remark ("[TcpServer] listening on " ++ settings.hostname.display ++ ":"
    ++ port.text)) .done)

/-- Takes the new connection `stream`: it joins `connections`, and an `Attendant` is made for it and
told. -/
def accept (settings : Settings) (stream : Nat) : Program Listener interface Unit := do
  let listener ← get
  let attendant : Attendant := { service := listener.attendants.length, stream }
  set { listener with
    connections := listener.connections ++ [stream]
    attendants := listener.attendants ++ [attendant] }
  match settings.hosted with
  | .echo => .ask (.sendBack stream) .done
  | .silent => return
  | .custom => .ask (.opened attendant) .done

/-- The `stream` has reported that it is closed: it leaves `connections`, and its attendant is
told. -/
def closed (settings : Settings) (stream : Nat) : Program Listener interface Unit := do
  let listener ← get
  let some attendant := listener.attendants.find? (·.stream = stream) | return
  set { listener with connections := listener.connections.filter (· ≠ stream) }
  match settings.hosted with
  | .echo => return
  | .silent => return
  | .custom => .ask (.closed attendant) .done

/-- A stream has reported an error, `message`, which is logged. -/
def failed (message : String) : Program Listener interface Unit :=
  .ask (.warning ("[TcpServer] connection error: " ++ message)) .done

/-- Gives up streams, one after another, by `destroy`. -/
def destroyAll : List Nat → Program Listener interface Unit
  | [] => return
  | stream :: rest => do
    (.ask (.destroy stream) .done : Program Listener interface Unit)
    destroyAll rest

/-- Gives up every open connection, by `destroyAll`, and stops the server. The connections leave the
set when their streams report that they are `closed`. -/
def close : Program Listener interface Unit := do
  destroyAll (← get).connections
  .ask .closeServer .done

end Listener

end Outpost

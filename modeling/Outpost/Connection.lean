import Outpost.Machine

/-!
# Connections

A connection pairs a stream to a listener with the service that the caller presents on it and with a
configuration of its own. The service is made for the connection, and told when it opens and when it
closes. Closing happens once: the connection counts as closed before its service hears of it, so a
service that closes its connection again does nothing.

A service that is told something has the connection at hand, and does with it what it likes before
it replies. `Connection.interface` has the bare replies, as they come once the service is done.
While a connection is set up nobody else has it, so whatever happens to it then its service has
done: in `Connection.setup` the reply to `Request.opened` says what that was, as `Deed`s, and
`Connection.attended` is a program with these carried out.

## Contents

* `Service`, `Connection`, `Connection.Request`, `Connection.interface`.
* `Connection.announce`, `Connection.close`.
* `Connection.Deed`, `Connection.setup`, `Connection.perform`, `Connection.attended`.
* `Connection.establish`.
-/

namespace Outpost

/-- What the caller presents on a connection, as `service`. -/
inductive Service where
  /-- Presents nothing. -/
  | silent
  /-- Marks the configuration as that of a `classic` connection. -/
  | classic
  /-- A service of the caller's own, by its `name`. -/
  | custom (name : String)
deriving DecidableEq, Repr

/-- A connection on a `stream`, with its `service` and its `config`. -/
structure Connection where
  stream : Machine.Socket
  service : Service
  config : Json
  closed : Bool := false

namespace Connection

/-- What is asked for a connection: service `name` is made and told of it, and its stream is given
up. -/
inductive Request where
  | made (name : String)
  | opened (name : String) (config : Json) (closed : Bool)
  | closed (name : String) (config : Json) (closed : Bool)
  | destroy (stream : Machine.Socket)

/-- The replies: a service may fail with a `Fault`. -/
def interface : Interface where
  Request := Request
  Reply
    | .made _ => Except Fault Unit
    | .opened .. => Except Fault Unit
    | .closed .. => Except Fault Unit
    | .destroy _ => Unit

/-- What a caller may say about a connection: a `service`, and a `config`. -/
structure Settings where
  service : Option Service := none
  config : Option Json := none

/-- A configuration of its own, with the fields of the one `given`. -/
def copyConfig (given : Option Json) : Json := .object ((given.map Json.spread).getD [])

/-- A connection on `stream` that nobody has been told of. -/
def fresh (stream : Machine.Socket) (settings : Settings) : Connection where
  stream
  service := settings.service.getD .silent
  config := copyConfig settings.config

/-- Tells the service that the connection is open, by `opened`. -/
def announce : Attempt Connection interface Unit := do
  let connection ← get
  match connection.service with
  | .silent => return
  | .classic => set { connection with config := connection.config.set "classic" (.bool true) }
  | .custom name => ExceptT.mk (.ask (.opened name connection.config connection.closed) .done)

/-- Tells the service that the connection is closed, by `closed`. -/
def dismiss : Attempt Connection interface Unit := do
  let connection ← get
  match connection.service with
  | .silent => return
  | .classic => return
  | .custom name => ExceptT.mk (.ask (.closed name connection.config connection.closed) .done)

/-- Gives up the stream, by `destroy`. -/
def destroyStream : Attempt Connection interface Unit := do
  let connection ← get
  ExceptT.lift (.ask (.destroy connection.stream) .done)

/-- Closes a connection: its service is told, by `dismiss`, and then `destroyStream` gives up its
stream, even if the service failed. -/
def close : Attempt Connection interface Unit := do
  let connection ← get
  if connection.closed then return
  set { connection with closed := true }
  dismiss.thenAlways destroyStream

/-! ## Setting up -/

/-- What a service does with its connection while it is told that it is open, by `opened`. -/
inductive Deed where
  /-- It changes the configuration, into `config`. -/
  | configure (config : Json)
  | close

/-- The replies while a connection is set up. That to `Request.opened` says what the service did
before it was done. -/
def setup : Interface where
  Request := Request
  Reply
    | .made _ => Except Fault Unit
    | .opened .. => List Deed × Except Fault Unit
    | .closed .. => Except Fault Unit
    | .destroy _ => Unit

/-- What a service did before it was done, in the reply to `opened`. -/
def deeds : (r : Request) → setup.Reply r → List Deed
  | .opened .., (done, _) => done
  | .made _, _ | .closed .., _ | .destroy _, _ => []

/-- A request is made while the connection is set up, and of its reply only the end matters. -/
def setupEmbedding : Interface.Embedding interface setup where
  request request := request
  reply
    | .opened .., (_, reply) => reply
    | .made _, reply => reply
    | .closed .., reply => reply
    | .destroy _, reply => reply

/-- What a service does with its connection, one thing after another. That `close` fails is no
concern of anybody but the service. -/
def perform : List Deed → Program Connection setup Unit
  | [] => return
  | .configure config :: rest => do
    modify fun connection => { connection with config }
    perform rest
  | .close :: rest => do
    let _ ← close.outcome.embed setupEmbedding
    perform rest

/-- A program in which a service that is told something does what it does, by `perform`, before the
program goes on. -/
def attended {α : Type} : Program Connection interface α → Program Connection setup α
  | .done a => .done a
  | .read next => .read fun connection => attended (next connection)
  | .write connection next => .write connection (attended next)
  | .ask r next => .ask r fun reply => do
    perform (deeds r reply)
    attended (next (setupEmbedding.reply r reply))

/-- Makes a service, by `made`. Those that are not the caller's own take no making. -/
def make {σ : Type} : Service → Attempt σ setup Unit
  | .custom name => ExceptT.mk (.ask (.made name) .done)
  | .silent | .classic => return

/-- A connection on `stream`. If `make` fails or the service objects when it is told by `announce`,
so does this. -/
def establish {σ : Type} (stream : Machine.Socket) (settings : Settings) :
    Attempt σ setup Connection := do
  let connection := fresh stream settings
  make connection.service
  let (result, connection) ← ExceptT.lift (Program.own connection (attended announce.outcome))
  match result with
  | .ok () => return connection
  | .error fault => throw fault

end Connection

end Outpost

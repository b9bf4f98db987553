import Outpost.Settings
import Outpost.Program

/-!
# Loopback ports

A free port is found by letting the system bind one and giving it back at once; somebody else may
take it before it is used.

## Contents

* `Loopback.freePort`, `Loopback.host`.
-/

namespace Outpost

namespace Loopback

/-- The address that local ports are bound to and connected to. -/
def host : String := "127.0.0.1"

/-- What the system says about where a server is bound, in reply to `listen`. -/
inductive Address where
  | port (number : Nat)
  /-- Something that is no port. -/
  | other (text : String)
deriving DecidableEq, Repr

/-- What is asked of the system. -/
inductive Request where
  /-- Binds a server to a port of `host` that the system chooses. -/
  | listen (host : Json)
  /-- Gives the port back and waits until that is done. -/
  | close
  /-- Gives the port back without waiting. -/
  | abandon

/-- The replies: `listen` and `close` may fail with a `Fault`. -/
def interface : Interface where
  Request := Request
  Reply
    | .listen _ => Except Fault Address
    | .close => Except Fault Unit
    | .abandon => Unit

/-- A port on the address `host` that nobody uses: a server is bound to it by `listen`, and then
`close` gives it back. -/
def freePort (host : Json) : Attempt Unit interface Nat := do
  let address ← (ExceptT.mk (.ask (.listen host) .done) : Attempt Unit interface Address)
  match address with
  | .other text =>
    ExceptT.lift (.ask .abandon .done)
    throw (.ofMessage ("Unexpected listen address: " ++ text))
  | .port number =>
    (ExceptT.mk (.ask .close .done) : Attempt Unit interface Unit)
    return number

end Loopback

end Outpost

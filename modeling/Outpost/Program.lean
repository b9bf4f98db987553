import Outpost.Fault

/-!
# Programs

What a part of this library does, as a tree of the requests that it makes of its surroundings. A
program works on a state that outlives it and that others may look at, and change, whenever it
waits for a reply; between two requests it is never interrupted. Whatever carries the requests out
decides the replies, so a statement about all replies is a statement about all surroundings.

## Contents

* `Interface`, `Program`, with its monad and its monad laws.
* `Attempt`: programs that may fail with a fault.
* `Program.focus`, `Program.own`, `Program.embed`: a program on a part of a state, on a state of its
  own, and among more kinds of requests.
* `Program.interpret`, `Program.interpret_bind`: a program carried out in a monad.
* `Program.Run`: the runs of a program that nothing else interferes with.
-/

namespace Outpost

/-- The requests that can be made of some surroundings: each `Request` has a type of `Reply`. -/
structure Interface where
  Request : Type
  Reply : Request → Type

/-- A program with results in `α`, on a state in `σ`. -/
inductive Program (σ : Type) (I : Interface) (α : Type) : Type where
  /-- The result `value`. -/
  | done (value : α)
  /-- Looks at the state, which `next` goes on with. -/
  | read (next : σ → Program σ I α)
  /-- Replaces the state by `state`. -/
  | write (state : σ) (next : Program σ I α)
  /-- Makes the `request` and goes on with the reply. -/
  | ask (request : I.Request) (next : I.Reply request → Program σ I α)

namespace Program

variable {σ τ : Type} {I J : Interface} {α β γ : Type}

/-- A program, and then `f` with its result. -/
def bind : Program σ I α → (α → Program σ I β) → Program σ I β
  | .done a, f => f a
  | .read next, f => .read fun s => (next s).bind f
  | .write s next, f => .write s (next.bind f)
  | .ask request next, f => .ask request fun reply => (next reply).bind f

instance : Monad (Program σ I) where
  pure := .done
  bind := bind

theorem bind_done (p : Program σ I α) : p.bind .done = p := by
  induction p with
  | done a => rfl
  | read next ih => simp only [bind, ih]
  | write s next ih => simp only [bind, ih]
  | ask request next ih => simp only [bind, ih]

theorem bind_assoc (p : Program σ I α) (f : α → Program σ I β) (g : β → Program σ I γ) :
    (p.bind f).bind g = p.bind fun a => (f a).bind g := by
  induction p with
  | done a => rfl
  | read next ih => simp only [bind, ih]
  | write s next ih => simp only [bind, ih]
  | ask request next ih => simp only [bind, ih]

instance : LawfulMonad (Program σ I) :=
  LawfulMonad.mk' (Program σ I)
    (fun p => bind_done p)
    (fun _ _ => rfl)
    (fun p f g => bind_assoc p f g)

instance : MonadStateOf σ (Program σ I) where
  get := .read .done
  set s := .write s (.done ⟨⟩)
  modifyGet f := .read fun s => .write (f s).2 (.done (f s).1)

/-- The program that makes the request `r` and nothing else. -/
def request (r : I.Request) : Program σ I (I.Reply r) := .ask r .done

/-! ## Changes of state and requests -/

/-- A program on the part of a larger state that `get` finds and `set` replaces. -/
def focus (get : σ → τ) (set : τ → σ → σ) : Program τ I α → Program σ I α
  | .done a => .done a
  | .read next => .read fun s => (next (get s)).focus get set
  | .write t next => .read fun s => .write (set t s) (next.focus get set)
  | .ask r next => .ask r fun reply => (next reply).focus get set

/-- A program on a state of its own, which it returns with its result. Unlike with `focus`, the
state around it stays as it is. -/
def own : τ → Program τ I α → Program σ I (α × τ)
  | t, .done a => .done (a, t)
  | t, .read next => (next t).own t
  | _, .write t next => next.own t
  | t, .ask r next => .ask r fun reply => (next reply).own t

end Program

/-- A way to make the requests of `I` through `J`: each `request`, and the `reply` to it on the way
back. -/
structure Interface.Embedding (I J : Interface) where
  request : I.Request → J.Request
  reply : (r : I.Request) → J.Reply (request r) → I.Reply r

namespace Program

variable {σ τ : Type} {I J : Interface} {α β γ : Type}

/-- A program whose requests are made through another interface, by way of `e`. -/
def embed (e : Interface.Embedding I J) : Program σ I α → Program σ J α
  | .done a => .done a
  | .read next => .read fun s => (next s).embed e
  | .write s next => .write s (next.embed e)
  | .ask r next => .ask (e.request r) fun reply => (next (e.reply r reply)).embed e

end Program

/-! ## Faults -/

/-- A program that may fail with a `Fault`. -/
abbrev Attempt (σ : Type) (I : Interface) (α : Type) : Type := ExceptT Fault (Program σ I) α

namespace Attempt

variable {σ τ : Type} {I J : Interface} {α β : Type}

/-- The attempt whose `result` is known already. -/
def ofExcept (result : Except Fault α) : Attempt σ I α := ExceptT.mk (.done result)

/-- An attempt as a program that cannot fail: its result is an `Except` that says how the attempt
ended. -/
def outcome (x : Attempt σ I α) : Program σ I (Except Fault α) := x.run

/-- What `x` does, and then `last`, whether `x` failed or not. A failure of `last` wins. -/
def thenAlways (x : Attempt σ I α) (last : Attempt σ I Unit) : Attempt σ I α := do
  let result ← ExceptT.lift x.outcome
  last
  ofExcept result

/-- An attempt on a part of a larger state, as `Program.focus` has it. -/
def focus (get : σ → τ) (set : τ → σ → σ) (x : Attempt τ I α) : Attempt σ I α :=
  ExceptT.mk (Program.focus get set x.outcome)

/-- An attempt whose requests are made through another interface, as `Program.embed` has it. -/
def embed (e : Interface.Embedding I J) (x : Attempt σ I α) : Attempt σ J α :=
  ExceptT.mk (Program.embed e x.outcome)

end Attempt

/-! ## Carrying programs out -/

/-- Carries a program out in a monad: `look` and `keep` read and replace the state, and `answer`
replies to the requests. -/
def Program.interpret {σ : Type} {I : Interface} {α : Type} {m : Type → Type} [Monad m]
    (look : m σ) (keep : σ → m Unit) (answer : (r : I.Request) → m (I.Reply r)) :
    Program σ I α → m α
  | .done a => pure a
  | .read next => do (next (← look)).interpret look keep answer
  | .write s next => do
    keep s
    next.interpret look keep answer
  | .ask r next => do (next (← answer r)).interpret look keep answer

/-- What `bind` puts together is carried out one after the other. -/
theorem Program.interpret_bind {σ : Type} {I : Interface} {α β : Type} {m : Type → Type} [Monad m]
    [LawfulMonad m] {look : m σ} {keep : σ → m Unit} {answer : (r : I.Request) → m (I.Reply r)}
    (p : Program σ I α) (f : α → Program σ I β) :
    (p >>= f).interpret look keep answer
      = p.interpret look keep answer >>= fun a => (f a).interpret look keep answer := by
  induction p with
  | done a =>
    exact (LawfulMonad.pure_bind a fun a => (f a).interpret look keep answer).symm
  | read next ih => exact (bind_congr ih).trans (LawfulMonad.bind_assoc _ _ _).symm
  | write s next ih => exact (bind_congr fun _ => ih).trans (LawfulMonad.bind_assoc _ _ _).symm
  | ask r next ih => exact (bind_congr ih).trans (LawfulMonad.bind_assoc _ _ _).symm

/-! ## Runs -/

namespace Program

variable {σ : Type} {I : Interface} {α β : Type}

/-- A `request` with the `reply` that it got. -/
structure Exchange (I : Interface) where
  request : I.Request
  reply : I.Reply request

/-- `Run p s exchanges s' a`: started in state `s`, and with the replies in `exchanges` to its
requests, the program ends in state `s'` with the result `a`. -/
inductive Run : Program σ I α → σ → List (Exchange I) → σ → α → Prop
  | done (a : α) (s : σ) : Run (.done a) s [] s a
  | read {next : σ → Program σ I α} {s s' : σ} {exchanges : List (Exchange I)} {a : α} :
      Run (next s) s exchanges s' a → Run (.read next) s exchanges s' a
  | write {next : Program σ I α} {s t s' : σ} {exchanges : List (Exchange I)} {a : α} :
      Run next t exchanges s' a → Run (.write t next) s exchanges s' a
  | ask {r : I.Request} {next : I.Reply r → Program σ I α} {s s' : σ}
      {exchanges : List (Exchange I)} {a : α} (reply : I.Reply r) :
      Run (next reply) s exchanges s' a → Run (.ask r next) s (⟨r, reply⟩ :: exchanges) s' a

end Program

end Outpost

import Outpost.Number

/-!
# Taking turns in virtual time

Work on a shared state that is done in turns. A turn runs until it is over and is never interrupted;
whatever it puts off is done in a later turn. Time is virtual: it stands still as long as anything
can be done, and then jumps to the next entry of the agenda, so that no outcome depends on how fast
anything is.

## Contents

* `Act`: what is done in one turn.
* `Step`: computations that may extend over several turns, as a monad.
* `Stage`, `Act.run`, `Stage.settle`: how turns are taken.
-/

namespace Outpost

namespace Rehearsal

variable {σ α β : Type}

/-- What is done in one turn, on a state of type `σ`. -/
inductive Act (σ : Type) : Type where
  /-- The turn is over. -/
  | stop
  /-- Looks at the state. -/
  | read (next : σ → Act σ)
  /-- Replaces the state. -/
  | write (state : σ) (next : Act σ)
  /-- Looks at the clock. -/
  | clock (next : Number → Act σ)
  /-- Takes a number that was not taken before. -/
  | fresh (next : Nat → Act σ)
  /-- Puts a job off to a turn after those that are ready already. -/
  | defer (job next : Act σ)
  /-- Enters a `job` into the agenda; a `delay` below zero counts as none. -/
  | schedule (delay : Number) (job : Act σ) (next : Nat → Act σ)
  /-- Strikes an `entry` off the agenda. -/
  | cancel (entry : Nat) (next : Act σ)
  /-- Leaves a `job` until its `ticket` is called. -/
  | park (ticket : Nat) (job next : Act σ)
  /-- Makes everything ready that was left under a `ticket`, by `park`. -/
  | call (ticket : Nat) (next : Act σ)

/-! ## Steps -/

/-- A computation with a result in `α` that may go on in later turns. -/
def Step (σ α : Type) : Type := (α → Act σ) → Act σ

namespace Step

instance : Monad (Step σ) where
  pure a := fun next => next a
  bind x f := fun next => x fun a => f a next

instance : LawfulMonad (Step σ) :=
  LawfulMonad.mk' (Step σ) (fun _ => rfl) (fun _ _ => rfl) (fun _ _ _ => rfl)

instance : MonadStateOf σ (Step σ) where
  get := fun next => .read next
  set s := fun next => .write s (next ⟨⟩)
  modifyGet f := fun next => .read fun s => .write (f s).2 (next (f s).1)

/-- A step as a turn, which is over when the step is: `Act.stop`. -/
def act (x : Step σ Unit) : Act σ := x fun _ => .stop

/-- The time. -/
def now : Step σ Number := fun next => .clock next

/-- A number that was not taken before. -/
def fresh : Step σ Nat := fun next => .fresh next

/-- Puts a `job` off to a turn after those that are ready already. -/
def defer (job : Step σ Unit) : Step σ Unit := fun next => .defer job.act (next ())

/-- Enters a `job` into the agenda, for when the `delay` is over. -/
def schedule (delay : Number) (job : Step σ Unit) : Step σ Nat :=
  fun next => .schedule delay job.act next

/-- Strikes an `entry` off the agenda. -/
def cancel (entry : Nat) : Step σ Unit := fun next => .cancel entry (next ())

/-- Goes on after a `delay`. -/
def sleep (delay : Number) : Step σ Unit := fun next => .schedule delay (next ()) fun _ => .stop

/-- Goes on when the `ticket` is called, by `call`. -/
def park (ticket : Nat) : Step σ Unit := fun next => .park ticket (next ()) .stop

/-- Makes everything ready that waits under a `ticket`, by `park`. -/
def call (ticket : Nat) : Step σ Unit := fun next => .call ticket (next ())

/-- Looks at the part of the state that `f` finds. -/
def ask (f : σ → α) : Step σ α := fun next => .read fun s => next (f s)

end Step

/-! ## Turns -/

/-- An entry of the agenda. -/
structure Entry (σ : Type) where
  time : Number
  number : Nat
  job : Act σ

/-- A state with a clock, with what is ready to be done and with what is to be done later. -/
structure Stage (σ : Type) where
  state : σ
  now : Number := .ofNat 0
  /-- How many numbers were taken, by `fresh`. -/
  taken : Nat := 0
  ready : List (Act σ) := []
  /-- The agenda, by time, and entries for one time in the order in which they were made. -/
  agenda : List (Entry σ) := []
  /-- Jobs that were left under tickets, by `park`. -/
  parked : List (Nat × Act σ) := []

/-- The `agenda` with one more `entry`, behind those for the same time. -/
def enter (entry : Entry σ) (agenda : List (Entry σ)) : List (Entry σ) :=
  agenda.takeWhile (fun other => !entry.time.lt other.time)
    ++ entry :: agenda.dropWhile (fun other => !entry.time.lt other.time)

/-- The time after a `delay`, which is `now` if that is below zero. -/
def after (delay now : Number) : Number := if delay.lt (.ofNat 0) then now else now.add delay

/-- Takes a turn. -/
def Act.run : Act σ → Stage σ → Stage σ
  | .stop, s => s
  | .read next, s => (next s.state).run s
  | .write state next, s => next.run { s with state }
  | .clock next, s => (next s.now).run s
  | .fresh next, s => (next s.taken).run { s with taken := s.taken + 1 }
  | .defer job next, s => next.run { s with ready := s.ready ++ [job] }
  | .schedule delay job next, s =>
    (next s.taken).run { s with
      taken := s.taken + 1
      agenda := enter ⟨after delay s.now, s.taken, job⟩ s.agenda }
  | .cancel entry next, s =>
    next.run { s with agenda := s.agenda.filter fun other => other.number != entry }
  | .park ticket job next, s => next.run { s with parked := s.parked ++ [(ticket, job)] }
  | .call ticket next, s =>
    next.run { s with
      ready := s.ready ++ (s.parked.filter fun left => left.1 == ticket).map (·.2)
      parked := s.parked.filter fun left => left.1 != ticket }

/-- Takes turns, as many as `limit` at most, until nothing is ready and either `done` holds or the
agenda is empty. -/
def Stage.settle (done : σ → Bool) : Nat → Stage σ → Stage σ
  | 0, s => s
  | limit + 1, s =>
    match s.ready with
    | job :: ready => settle done limit (job.run { s with ready })
    | [] =>
      if done s.state then s
      else
        match s.agenda with
        | [] => s
        | entry :: agenda =>
          let now := if s.now.lt entry.time then entry.time else s.now
          settle done limit (entry.job.run { s with now, agenda })

end Rehearsal

end Outpost

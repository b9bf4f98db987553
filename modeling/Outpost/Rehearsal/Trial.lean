import Outpost.Rehearsal.World

/-!
# Trials

Calls are tried out one after another. Each is accounted for by what was done to the surroundings
while it was carried out, and by its result; a call that has not ended when nothing can happen any
more is accounted for later, by the call during which it ends.

## Contents

* `Bench`: what lies on the desk while calls are tried out.
* `Account`, `carry`.
-/

namespace Outpost

namespace Rehearsal

/-- What lies on the `desk` while calls are tried out: what they have made so far, and the results
of those that are not accounted for. -/
structure Bench (τ ρ : Type) where
  own : τ
  ended : List (Nat × ρ) := []

/-- What happened while a call was carried out by `carry`. -/
structure Account (ρ : Type) where
  /-- How the call ended, if it has: a call that waits has no `result`. -/
  result : Option ρ
  deeds : List Deed
  /-- How earlier calls ended, in the order in which they were made. -/
  late : List (Nat × ρ)

variable {τ ρ : Type}

/-- What calls have made so far, as it lies on the `desk`. -/
def own : Play (Bench τ ρ) τ := Step.ask fun w => w.desk.own

/-- Changes by `f` what calls have made so far. -/
def changeOwn (f : τ → τ) : Play (Bench τ ρ) Unit :=
  modify fun w => { w with desk := { w.desk with own := f w.desk.own } }

/-- More turns than a call takes: the bound of `carry`. -/
def turns : Nat := 1000000000

/-- Carries out the call with a number until it has ended or nothing can happen any more. While a
call is `still`, no event happens. -/
def carry (number : Nat) (still : Bool) (call : Play (Bench τ ρ) ρ)
    (stage : Stage (World (Bench τ ρ))) : Account ρ × Stage (World (Bench τ ρ)) :=
  let work : Play (Bench τ ρ) Unit := do
    let result ← call
    modify fun w => { w with
      desk := { w.desk with ended := w.desk.ended ++ [(number, result)] } }
  let isDone (w : World (Bench τ ρ)) : Bool :=
    still || w.desk.ended.any fun entry => entry.1 == number
  let after := { stage with ready := stage.ready ++ [work.act] }.settle isDone turns
  let w := after.state
  ({ result := w.desk.ended.lookup number
     deeds := w.deeds.reverse
     late := (w.desk.ended.filter fun entry => entry.1 != number).mergeSort
       fun a b => a.1 ≤ b.1 },
    { after with state := { w with deeds := [], desk := { w.desk with ended := [] } } })

end Rehearsal

end Outpost

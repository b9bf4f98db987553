import Outpost.Proofs.Machine.Children
import Outpost.Proofs.Number.Rounding

/-!
# Waiting in rounds

A machine that waits for something to come up asks in rounds, with a pause after each, until a
deadline. The clock alone decides how many rounds there are: where every pause takes as long as it
should, there are as many as there are pauses until the deadline.

## Contents

* `Exchange.Paced`: a clock by which no pause is too short.
* `Rounds`, `Rounds.count_spec`: what is asked before the deadline, and how often.
* `count_le_of_rounds`: the bound on what is asked once in a round, and once more at the end.
-/

namespace Outpost.OpenSsh

/-- How many milliseconds a date may be away from the first one. -/
def farthestDate : Nat := 8640000000000000

/-- A `clock` shows dates, in whole milliseconds, and when a `pause` is over it is as much later as
the pause was to take, or more. -/
def Exchange.Paced : Exchange → Prop
  | ⟨.clock, now⟩ => ∃ date : Int, date.natAbs ≤ farthestDate ∧ now = Number.ofInt date
  | ⟨.pause since milliseconds, ended⟩ => ∀ date : Int, since = Number.ofInt date →
    ∃ later : Int, ended.1 = Number.ofInt later ∧ date + milliseconds ≤ later
  | _ => True

/-- Rounds that begin before the deadline, the first of them at `now`, and a pause after each, the
last of which ends at `last`. -/
inductive Rounds (round : List Exchange → Prop) (deadline : Number) :
    Number → List Exchange → Number → Prop
  | nil (now : Number) : Rounds round deadline now [] now
  | cons {now last : Number} {later : { ended : Number // now.Advances ended }}
      {asked rest : List Exchange} (early : now.gap deadline ≠ 0) (first : round asked)
      (others : Rounds round deadline later.1 rest last) :
      Rounds round deadline now (asked ++ ⟨.pause now pollPause, later⟩ :: rest) last

variable {round : List Exchange → Prop} {deadline now last : Number}
  {waited ended : List Exchange} {counted : Exchange → Bool}

/-- What holds of the exchanges of each round and of every pause holds of all `Rounds`. -/
theorem Rounds.forall_mem {holds : Exchange → Prop} (h : Rounds round deadline now waited last)
    (hround : ∀ asked, round asked → ∀ exchange ∈ asked, holds exchange)
    (hpause : ∀ since milliseconds later, holds ⟨.pause since milliseconds, later⟩) :
    ∀ exchange ∈ waited, holds exchange := by
  induction h with
  | nil now => exact nofun
  | cons early first others ih =>
    rw [List.forall_mem_append, List.forall_mem_cons]
    exact ⟨hround _ first, hpause _ _ _, ih⟩

/-- Each round is a pause later than the one before, and the last one begins in time. -/
theorem Rounds.count_spec {due date : Int} (h : Rounds round (.ofInt due) now waited last)
    (hround : ∀ asked, round asked → asked.countP counted ≤ 1)
    (hpause : ∀ since milliseconds later, counted ⟨.pause since milliseconds, later⟩ = false)
    (hnow : now = .ofInt date) (hpaced : ∀ exchange ∈ waited, exchange.Paced) :
    ∃ ending : Int, last = .ofInt ending ∧ date + pollPause * waited.countP counted ≤ ending ∧
      (waited.countP counted ≠ 0 → date + pollPause * waited.countP counted < due + pollPause) := by
  induction h generalizing date with
  | nil now => exact ⟨date, hnow, by rw [List.countP_nil]; omega, fun h => absurd rfl h⟩
  | @cons now last later asked rest early first others ih =>
    rw [List.forall_mem_append, List.forall_mem_cons] at hpaced
    obtain ⟨-, hpause', hrest⟩ := hpaced
    obtain ⟨next, hnext, hpassed⟩ := hpause' date hnow
    obtain ⟨ending, hending, hcount, hdue⟩ := ih hnext hrest
    have hearly : date < due := by
      rw [hnow, Number.gap_ofInt] at early
      omega
    have hone : asked.countP counted ≤ 1 := hround asked first
    have hquiet : ¬counted ⟨.pause now pollPause, later⟩ := Bool.eq_false_iff.1 (hpause _ _ _)
    have hall : (asked ++ ⟨.pause now pollPause, later⟩ :: rest).countP counted
        = asked.countP counted + rest.countP counted := by
      rw [List.countP_append, List.countP_cons_of_neg hquiet]
    rw [hall]
    unfold pollPause at *
    refine ⟨ending, hending, by omega, fun _ => ?_⟩
    -- the last round that counts is this one, or one of those that follow
    rcases Nat.eq_zero_or_pos (rest.countP counted) with hnone | hsome
    · omega
    · have := hdue hsome.ne'
      omega

/-- **How often it is asked.** What is `counted` at most once in a round, and at most once after the
rounds if the deadline has not passed, is asked 150 times at most. -/
theorem count_le_of_rounds (hnow : Exchange.Paced ⟨.clock, now⟩)
    (h : Rounds round (now.add (.ofNat readyTimeout)) now waited last)
    (hround : ∀ asked, round asked → asked.countP counted ≤ 1)
    (hpause : ∀ since milliseconds later, counted ⟨.pause since milliseconds, later⟩ = false)
    (hended : ended.countP counted ≤ 1)
    (hearly : ended.countP counted ≠ 0 → last.gap (now.add (.ofNat readyTimeout)) ≠ 0)
    (hpaced : ∀ exchange ∈ waited, exchange.Paced) :
    (waited ++ ended).countP counted ≤ 150 := by
  obtain ⟨date, hdate, rfl⟩ := hnow
  have hdue : (Number.ofInt date).add (.ofNat readyTimeout) = .ofInt (date + readyTimeout) := by
    refine Number.add_ofInt ?_
    unfold farthestDate at hdate
    unfold readyTimeout
    omega
  rw [hdue] at h hearly
  obtain ⟨ending, rfl, hcount, hbegun⟩ := h.count_spec hround hpause rfl hpaced
  rw [List.countP_append]
  rw [Number.gap_ofInt] at hearly
  unfold readyTimeout pollPause at *
  omega

end Outpost.OpenSsh

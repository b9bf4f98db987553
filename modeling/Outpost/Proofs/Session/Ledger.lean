import Outpost.Proofs.Session.Teardown

/-!
# The books of closing

Every step of closing begins with one request, so the requests of some rounds say which duties were
attempted, and the replies say which waits expired. After an expiry the rest of the step's part is
given up together with it: a tunnel whose session did not stop is not closed, and a machine whose
session did not stop is not either.

`Settles` is what rounds of closing do to the books. It goes through one round
(`settles_of_run_close`) and adds up over rounds (`Settles.trans`): what was attempted and what is
still owed is, in this order, what was owed before, less what expiries gave up.

## Contents

* `attempts`, `expired`: what some exchanges attempted, and what expired.
* `Step.abandons`, `dueAfter`: what is given up together with a step.
* `Settles`, `settles_of_run_close`, `Settles.trans`.
* `heldSlots`: each round that fails empties a slot.
-/

namespace Outpost

namespace Session

/-! ## Attempts and expiries -/

/-- The `Step` of closing that stops something. -/
def stopStep : Machine.Stoppable → Step
  | .process _ => .process
  | .tunnel _ => .tunnelSession
  | .transport => .machineSession

/-- A `step`, if what was asked for it ended with a timeout. -/
def expiryOf {α : Type} (step : Step) : Except Fault α → Option Step
  | .ok _ => none
  | .error fault => if fault.isTimeout then some step else none

namespace Exchange

/-- The `Duty` that an exchange is the beginning of. -/
def attempt? : Exchange → Option Duty
  | ⟨.control (.terminate (.process running)), _⟩ => some (.process running)
  | ⟨.control (.terminate (.tunnel forward)), _⟩ => some (.tunnelSession forward)
  | ⟨.control (.terminate .transport), _⟩ => some .machineSession
  | ⟨.machine (.closeTunnel forward), _⟩ => some (.tunnel forward)
  | ⟨.machine .close, _⟩ => some .machine
  | ⟨.machine (.removeDirectory directory), _⟩ => some (.tempDirectory directory)
  | _ => none

/-- The `Step` of closing whose wait expired with an exchange. -/
def expired? : Exchange → Option Step
  | ⟨.control (.terminate target), reply⟩ =>
    expiryOf (stopStep target) (reply : Except Fault Unit)
  | ⟨.control (.communicate target _), reply⟩ =>
    expiryOf (stopStep target) (reply : Except Fault Output)
  | ⟨.machine (.closeTunnel _), reply⟩ => expiryOf .tunnel (reply : Except Fault Unit)
  | ⟨.machine .close, reply⟩ => expiryOf .machine (reply : Except Fault Unit)
  | ⟨.machine (.removeDirectory _), reply⟩ =>
    expiryOf .tempDirectory (reply : Except Fault Unit)
  | _ => none

end Exchange

/-- The duties that were attempted by some `exchanges`, in the order of their attempts. -/
def attempts (exchanges : List Exchange) : List Duty := exchanges.filterMap Exchange.attempt?

/-- The steps whose waits `expired?`, in their order. -/
def expired (exchanges : List Exchange) : List Step := exchanges.filterMap Exchange.expired?

section Books

variable {timeout : Option Timeout} {identity : Identity} {duty : Duty}
  {calls exchanges first second : List Exchange}

theorem attempts_append : attempts (first ++ second) = attempts first ++ attempts second :=
  List.filterMap_append

theorem expired_append : expired (first ++ second) = expired first ++ expired second :=
  List.filterMap_append

theorem attempts_cons (x : Exchange) :
    attempts (x :: exchanges) = x.attempt?.toList ++ attempts exchanges := by
  rw [attempts, List.filterMap_cons]
  cases x.attempt? <;> rfl

theorem expired_cons (x : Exchange) :
    expired (x :: exchanges) = x.expired?.toList ++ expired exchanges := by
  rw [expired, List.filterMap_cons]
  cases x.expired? <;> rfl

/-- What something that has to stop is asked first, by `terminate`, is the attempt of its duty, and
it expires if asking ends with a timeout. -/
theorem books_of_terminate {target : Machine.Stoppable} (htarget : duty.target = some target)
    (reply : Except Fault Unit) :
    (Exchange.terminate target reply).attempt? = some duty ∧
      (Exchange.terminate target reply).expired? = expiryOf duty.step reply := by
  cases duty with
  | process | tunnelSession | machineSession =>
    obtain rfl := Option.some.inj htarget
    exact ⟨rfl, rfl⟩
  | _ => exact absurd htarget nofun

/-- Waiting by `communicate` is no attempt, but it may expire. -/
theorem books_of_communicate {target : Machine.Stoppable} (htarget : duty.target = some target)
    (timeout : Option Timeout) (reply : Except Fault Output) :
    (Exchange.communicate target timeout reply).attempt? = none ∧
      (Exchange.communicate target timeout reply).expired?
        = expiryOf duty.step (reply.map fun _ => ()) := by
  cases duty with
  | process | tunnelSession | machineSession =>
    obtain rfl := Option.some.inj htarget
    cases reply <;> exact ⟨rfl, rfl⟩
  | _ => exact absurd htarget nofun

/-- What a duty `Asks` for attempts this duty, and expires if it ends with a timeout. -/
theorem books_of_asks {result : Except Fault Unit} (h : duty.Asks timeout calls result) :
    attempts calls = [duty] ∧ expired calls = (expiryOf duty.step result).toList := by
  cases h with
  | refused fault htarget =>
    obtain ⟨hattempt, hexpired⟩ := books_of_terminate htarget (.error fault)
    rw [attempts_cons, expired_cons, hattempt, hexpired]
    exact ⟨rfl, List.append_nil _⟩
  | waited reply htarget =>
    obtain ⟨hattempt, hexpired⟩ := books_of_terminate htarget (.ok ())
    obtain ⟨hattempt', hexpired'⟩ := books_of_communicate htarget timeout reply
    rw [attempts_cons, attempts_cons, expired_cons, expired_cons, hattempt, hattempt', hexpired,
      hexpired']
    exact ⟨rfl, List.append_nil _⟩
  | tunnel forward | tempDirectory directory =>
    rw [attempts_cons, expired_cons]
    exact ⟨rfl, List.append_nil _⟩
  | machine =>
    rw [attempts_cons, expired_cons]
    exact ⟨rfl, List.append_nil _⟩

/-- Killing by `Kills`, reporting and recording are in no books. -/
theorem books_of_kills (h : duty.Kills calls) : attempts calls = [] ∧ expired calls = [] := by
  cases h <;> exact ⟨rfl, rfl⟩

theorem books_of_recorded (identity : Identity) (kind : Event.Kind) (details : Event.Details) :
    attempts (identity.recorded kind details) = [] ∧
      expired (identity.recorded kind details) = [] := by
  rw [Identity.recorded]
  split <;> exact ⟨rfl, rfl⟩

theorem books_of_passes (h : duty.Passes timeout identity exchanges) :
    attempts exchanges = [duty] ∧ expired exchanges = [] := by
  cases h with
  | completed hasks => exact books_of_asks hasks
  | ignored hasks hfault =>
    obtain ⟨hattempts, hexpired⟩ := books_of_asks hasks
    rw [attempts_append, expired_append, hattempts, hexpired, expiryOf, hfault]
    exact ⟨rfl, rfl⟩

theorem books_of_expires {fault : Fault} (h : duty.Expires timeout identity exchanges fault) :
    attempts exchanges = [duty] ∧ expired exchanges = [duty.step] := by
  cases h with
  | expired hasks hkills =>
    obtain ⟨hattempts, hexpired⟩ := books_of_asks hasks
    obtain ⟨hattempts', hexpired'⟩ := books_of_kills hkills
    obtain ⟨hattempts'', hexpired''⟩ := books_of_recorded identity .teardownTimeout
      { reason := some duty.step.label }
    rw [attempts_append, expired_append, attempts_cons, expired_cons, attempts_append,
      expired_append, hattempts, hexpired, hattempts', hexpired', hattempts'', hexpired'']
    exact ⟨rfl, rfl⟩

/-- Duties that each `Passes` are attempted one after the other. -/
theorem books_of_rounds {rounds : List (Duty × List Exchange)}
    (h : ∀ round ∈ rounds, round.1.Passes timeout identity round.2) :
    attempts (rounds.flatMap Prod.snd) = rounds.map Prod.fst ∧
      expired (rounds.flatMap Prod.snd) = [] := by
  induction rounds with
  | nil => exact ⟨rfl, rfl⟩
  | cons round rounds ih =>
    obtain ⟨hpasses, hrounds⟩ := List.forall_mem_cons.1 h
    obtain ⟨hattempts, hexpired⟩ := books_of_passes hpasses
    obtain ⟨hattempts', hexpired'⟩ := ih hrounds
    rw [List.flatMap_cons, attempts_append, expired_append, hattempts, hexpired, hattempts',
      hexpired']
    exact ⟨rfl, rfl⟩

theorem books_of_farewell (session : Session) :
    attempts session.farewell = [] ∧ expired session.farewell = [] := by
  rw [farewell]
  split
  · exact ⟨rfl, rfl⟩
  · obtain ⟨hattempts, hexpired⟩ := books_of_recorded session.identity .closed {}
    rw [attempts_append, expired_append, hattempts, hexpired]
    exact ⟨rfl, rfl⟩

end Books

/-! ## The order of the steps -/

/-- The place of a `Step` in the order of closing. -/
def Step.rank : Step → Nat
  | .process => 0
  | .tunnelSession => 1
  | .tunnel => 2
  | .machineSession => 3
  | .machine => 4
  | .tempDirectory => 5

/-- The steps that are given up together with a `Step` whose wait expired: what comes behind it in
its part of closing. -/
def Step.abandons : Step → List Step
  | .tunnelSession => [.tunnel]
  | .machineSession => [.machine]
  | _ => []

/-- What is left of some duties once these `steps` have expired. -/
def dueAfter (steps : List Step) (owed : List Duty) : List Duty :=
  owed.filter fun duty => duty.step ∉ steps.flatMap Step.abandons

section Order

variable {session : Session} {duty : Duty}

theorem rank_lt_of_mem_abandons {step other : Step} (h : other ∈ step.abandons) :
    step.rank < other.rank := by
  cases step with
  | tunnelSession | machineSession =>
    obtain rfl := List.mem_singleton.1 h
    decide
  | _ => exact absurd h List.not_mem_nil

/-- The `duties` of a session come in the order of their steps. -/
theorem duties_sorted (session : Session) :
    (duties session).Pairwise fun duty duty' => duty.step.rank < duty'.step.rank := by
  obtain ⟨_, _, _, _, machine, tempDirectory, process, tunnel, _, _, _⟩ := session
  cases process <;> cases tunnel <;> cases machine <;> cases tempDirectory <;>
    simp [duties, processDuties, tunnelDuties, machineDuties, directoryDuties, Duty.step, Step.rank]

/-- A session owes each step at most once by its `duties`. -/
theorem nodup_duties_steps (session : Session) : ((duties session).map Duty.step).Nodup := by
  refine List.pairwise_map.2 ((duties_sorted session).imp fun {duty duty'} hlt heq => ?_)
  rw [heq] at hlt
  exact Nat.lt_irrefl _ hlt

/-- Whatever a duty `abandons` is owed as well. -/
theorem mem_duties_of_mem_abandons {step : Step} (hduty : duty ∈ duties session)
    (h : step ∈ duty.step.abandons) : step ∈ (duties session).map Duty.step := by
  rw [List.mem_map]
  cases duty with
  | tunnelSession forward =>
    obtain rfl := List.mem_singleton.1 h
    refine ⟨.tunnel forward, ?_, rfl⟩
    simpa [duties, processDuties, tunnelDuties, machineDuties, directoryDuties] using hduty
  | machineSession =>
    obtain rfl := List.mem_singleton.1 h
    refine ⟨.machine, ?_, rfl⟩
    simpa [duties, processDuties, tunnelDuties, machineDuties, directoryDuties] using hduty
  | _ => exact absurd h List.not_mem_nil

/-- What a session still owes when it is `clearedThrough` a step: what comes behind the step and is
not given up with it. -/
theorem duties_clearedThrough (session : Session) (step : Step) :
    duties (session.clearedThrough step) = (duties session).filter fun duty =>
      step.rank < duty.step.rank ∧ duty.step ∉ step.abandons := by
  obtain ⟨_, _, _, _, machine, tempDirectory, process, tunnel, _, _, _⟩ := session
  cases step <;> cases process <;> cases tunnel <;> cases machine <;> cases tempDirectory <;> rfl

end Order

/-! ## Rounds of closing -/

/-- What rounds of closing do to the books: what they attempted and what is owed then is what was
owed before, less what was given up with the expiries. -/
structure Settles (session : Session) (exchanges : List Exchange) (last : Session) : Prop where
  balance : attempts exchanges ++ duties last = dueAfter (expired exchanges) (duties session)
  within : ∀ step ∈ (expired exchanges).flatMap Step.abandons,
    step ∈ (duties session).map Duty.step

section Settles

variable {timeout : Option Timeout} {session mid last : Session}
  {exchanges first second : List Exchange}

theorem dueAfter_nil (owed : List Duty) : dueAfter [] owed = owed :=
  List.filter_eq_self.2 fun _ _ => rfl

theorem dueAfter_append (steps : List Step) (owed owed' : List Duty) :
    dueAfter steps (owed ++ owed') = dueAfter steps owed ++ dueAfter steps owed' :=
  List.filter_append owed owed'

theorem dueAfter_dueAfter (steps steps' : List Step) (owed : List Duty) :
    dueAfter steps' (dueAfter steps owed) = dueAfter (steps ++ steps') owed := by
  rw [dueAfter, dueAfter, dueAfter, List.filter_filter]
  refine List.filter_congr fun duty _ => ?_
  simp only [List.flatMap_append, List.mem_append, not_or, Bool.decide_and, Bool.and_comm]

/-- Between requests that are in no books there is nothing that has to be settled. -/
theorem Settles.of_duties_eq (hattempts : attempts exchanges = [])
    (hexpired : expired exchanges = [])
    (hduties : duties last = duties session) : Settles session exchanges last where
  balance := by
    rw [hattempts, hexpired, hduties, dueAfter_nil]
    rfl
  within := by
    rw [hexpired]
    exact fun _ h => absurd h List.not_mem_nil

/-- Attempts and what is owed afterwards were all owed before, where a round `Settles` the books. -/
theorem Settles.sublist (h : Settles session exchanges last) :
    (attempts exchanges ++ duties last).Sublist (duties session) := by
  rw [h.balance]
  exact List.filter_sublist

/-- A duty that was attempted is not owed any more, nor is another of its `step`. -/
theorem Settles.disjoint (h : Settles session exchanges last) {duty : Duty}
    (hduty : duty ∈ attempts exchanges) : duty.step ∉ (duties last).map Duty.step := by
  have hnodup := (nodup_duties_steps session).sublist (h.sublist.map Duty.step)
  rw [List.map_append, List.nodup_append] at hnodup
  intro hlast
  exact hnodup.2.2 _ (List.mem_map_of_mem hduty) _ hlast rfl

/-- The books add up over rounds: what `Settles` them one after the other settles them. -/
theorem Settles.trans (h : Settles session first mid) (h' : Settles mid second last) :
    Settles session (first ++ second) last where
  balance := by
    -- nothing that was attempted already is given up with a later expiry, as it is owed no more
    have hkept : dueAfter (expired second) (attempts first) = attempts first := by
      refine List.filter_eq_self.2 fun duty hduty => decide_eq_true fun hgiven => ?_
      exact h.disjoint hduty (h'.within _ hgiven)
    calc attempts (first ++ second) ++ duties last
        = attempts first ++ dueAfter (expired second) (duties mid) := by
          rw [attempts_append, List.append_assoc, h'.balance]
      _ = dueAfter (expired second) (attempts first ++ duties mid) := by
          rw [dueAfter_append, hkept]
      _ = dueAfter (expired (first ++ second)) (duties session) := by
          rw [h.balance, expired_append, dueAfter_dueAfter]
  within := by
    intro step hstep
    rw [expired_append, List.flatMap_append] at hstep
    rcases List.mem_append.1 hstep with hfirst | hsecond
    · exact h.within step hfirst
    · have hmid := (List.sublist_append_right _ _).trans h.sublist
      exact (hmid.map Duty.step).subset (h'.within step hsecond)

/-- A round that stops at a `duty` leaves what comes behind it, less what is given up with it. -/
theorem dueAfter_step {front later : List Duty} {duty : Duty}
    (howed : duties session = front ++ duty :: later) :
    dueAfter [duty.step] (duties session)
      = front ++ [duty] ++ duties (session.clearedThrough duty.step) := by
  -- ranks tell apart what comes before the duty from what comes behind it
  have hsorted := duties_sorted session
  rw [howed, List.pairwise_append, List.pairwise_cons] at hsorted
  obtain ⟨-, ⟨hlater, -⟩, hfront⟩ := hsorted
  have hrank : ∀ other ∈ front ++ [duty], other.step.rank ≤ duty.step.rank := by
    intro other hother
    rcases List.mem_append.1 hother with hother | hother
    · exact Nat.le_of_lt (hfront other hother duty List.mem_cons_self)
    · obtain rfl := List.mem_singleton.1 hother
      exact Nat.le_refl _
  have hdue : dueAfter [duty.step] (front ++ [duty]) = front ++ [duty] := by
    refine List.filter_eq_self.2 fun other hother => decide_eq_true ?_
    rw [List.flatMap_singleton]
    intro hgiven
    have hle := hrank other hother
    have hlt := rank_lt_of_mem_abandons hgiven
    omega
  have hcleared : duties (session.clearedThrough duty.step) = dueAfter [duty.step] later := by
    rw [duties_clearedThrough, howed, List.append_cons, List.filter_append]
    have hnone : (front ++ [duty]).filter (fun other =>
        duty.step.rank < other.step.rank ∧ other.step ∉ duty.step.abandons) = [] := by
      refine List.filter_eq_nil_iff.2 fun other hother hbehind => ?_
      have hle := hrank other hother
      have hlt := (of_decide_eq_true hbehind).1
      omega
    rw [hnone, List.nil_append, dueAfter, List.flatMap_singleton]
    refine List.filter_congr fun other hother => ?_
    simp only [hlater other hother, true_and]
  rw [howed, List.append_cons, dueAfter_append, hdue, hcleared]

/-- One `close` keeps the books. -/
theorem settles_of_run_close {result : Except Fault Unit}
    (h : Attempt.Run (close timeout) session exchanges last result) :
    Settles session exchanges last := by
  rcases teardown_of_run_close h with
    ⟨swept, hswept, rfl, rfl, -⟩ | ⟨duty, fault, hstopped, rfl, -⟩
  · obtain ⟨rounds, howed, hrounds, rfl⟩ := Teardown.none_iff.1 hswept
    obtain ⟨hattempts, hexpired⟩ := books_of_rounds hrounds
    obtain ⟨hattempts', hexpired'⟩ := books_of_farewell session
    constructor
    · rw [attempts_append, expired_append, hattempts, hexpired, hattempts', hexpired', howed]
      exact (List.append_nil _).trans (List.append_nil _) |>.trans (dueAfter_nil _).symm
    · rw [expired_append, hexpired, hexpired']
      exact fun _ h => absurd h List.not_mem_nil
  · obtain ⟨rounds, later, expiry, howed, hrounds, hexpires, rfl⟩ := Teardown.some_iff.1 hstopped
    obtain ⟨hattempts, hexpired⟩ := books_of_rounds hrounds
    obtain ⟨hattempts', hexpired'⟩ := books_of_expires hexpires
    constructor
    · rw [attempts_append, expired_append, hattempts, hexpired, hattempts', hexpired',
        List.nil_append, dueAfter_step howed]
    · rw [expired_append, hexpired, hexpired', List.nil_append, List.flatMap_singleton]
      intro step hstep
      have hmem : duty ∈ duties session := by
        rw [howed]
        exact List.mem_append_right _ List.mem_cons_self
      exact mem_duties_of_mem_abandons hmem hstep

end Settles

/-! ## Rounds that fail -/

/-- How many slots of a `Session` hold something. -/
def heldSlots (session : Session) : Nat :=
  session.process.toList.length + session.tunnel.toList.length + session.machine.toList.length
    + session.tempDirectory.toList.length

section Rounds

variable {timeout : Option Timeout} {session last : Session} {exchanges : List Exchange}

theorem heldSlots_le (session : Session) : heldSlots session ≤ 4 := by
  have hprocess : session.process.toList.length ≤ 1 := Option.length_toList_le
  have htunnel : session.tunnel.toList.length ≤ 1 := Option.length_toList_le
  have hmachine : session.machine.toList.length ≤ 1 := Option.length_toList_le
  have hdirectory : session.tempDirectory.toList.length ≤ 1 := Option.length_toList_le
  rw [heldSlots]
  omega

/-- Whatever a `duty` belongs to is given up with it. -/
theorem heldSlots_clearedThrough_lt {duty : Duty} (h : duty ∈ duties session) :
    heldSlots (session.clearedThrough duty.step) < heldSlots session := by
  simp only [duties, processDuties, tunnelDuties, machineDuties, directoryDuties, List.mem_append,
    List.mem_map, List.mem_flatMap, Option.mem_toList, List.mem_cons, List.not_mem_nil,
    or_false] at h
  rcases h with ⟨running, hheld, rfl⟩ | ⟨forward, hheld, rfl | rfl⟩ | ⟨machine, hheld, rfl | rfl⟩ |
      ⟨directory, hheld, rfl⟩ <;>
    simp only [Duty.step, clearedThrough, heldSlots, Option.mem_def.1 hheld, Option.toList_none,
      Option.toList_some, List.length_nil, List.length_singleton] <;>
    omega

/-- A `close` fills no slot, and one that fails empties one. -/
theorem heldSlots_of_run_close {result : Except Fault Unit}
    (h : Attempt.Run (close timeout) session exchanges last result) :
    heldSlots last + (if result.isOk then 0 else 1) ≤ heldSlots session := by
  rcases teardown_of_run_close h with ⟨_, -, -, rfl, rfl⟩ | ⟨duty, fault, hstopped, rfl, rfl⟩
  · exact Nat.zero_le _
  · exact heldSlots_clearedThrough_lt hstopped.mem_of_expiry

/-- A `close` fails with a wait that `expired`, which is one that it attempted, and with no
other. -/
theorem expired_of_run_close {result : Except Fault Unit}
    (h : Attempt.Run (close timeout) session exchanges last result) :
    (expired exchanges).Sublist ((attempts exchanges).map Duty.step) ∧
      (expired exchanges).length = if result.isOk then 0 else 1 := by
  rcases teardown_of_run_close h with
    ⟨swept, hswept, rfl, -, rfl⟩ | ⟨duty, fault, hstopped, -, rfl⟩
  · obtain ⟨rounds, -, hrounds, rfl⟩ := Teardown.none_iff.1 hswept
    rw [expired_append, (books_of_rounds hrounds).2, (books_of_farewell session).2]
    exact ⟨List.nil_sublist _, rfl⟩
  · obtain ⟨rounds, later, expiry, -, hrounds, hexpires, rfl⟩ := Teardown.some_iff.1 hstopped
    rw [expired_append, attempts_append, (books_of_rounds hrounds).2, (books_of_expires hexpires).1,
      (books_of_expires hexpires).2, List.map_append]
    exact ⟨List.sublist_append_right _ _, rfl⟩

/-- A `close` that completes leaves nothing behind. -/
theorem last_eq_of_run_close (h : Attempt.Run (close timeout) session exchanges last (.ok ())) :
    last = session.ended := by
  rcases teardown_of_run_close h with ⟨_, -, -, rfl, -⟩ | ⟨_, _, -, -, herror⟩
  · rfl
  · exact absurd herror nofun

/-- A `close` after one that completed asks for nothing and completes. -/
theorem run_close_ended {result : Except Fault Unit}
    (h : Attempt.Run (close timeout) session.ended exchanges last result) :
    exchanges = [] ∧ last = session.ended ∧ result = .ok () := by
  rcases teardown_of_run_close h with ⟨swept, hswept, rfl, rfl, rfl⟩ | ⟨duty, _, hstopped, -, -⟩
  · have hnothing : Teardown timeout session.ended.identity [] swept none := hswept
    cases hnothing
    exact ⟨rfl, rfl, rfl⟩
  · have hmem : duty ∈ [] := hstopped.mem_of_expiry
    exact absurd hmem List.not_mem_nil

end Rounds

end Session

end Outpost

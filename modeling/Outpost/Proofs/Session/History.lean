import Outpost.Proofs.Session.Acquisition
import Outpost.Proofs.Session.Ledger

/-!
# Histories of sessions

A history is what becomes of a session that is started and closed, any number of times and in any
order, by callers that wait for each call. The surroundings may reply to each request as they like.

Two invariants carry the results. A session that was not started yet holds nothing but its machine
(`Sound`). From the first round of closing on, a session that was not started yet has no machine
either (`Retired`): then a start has nothing left to acquire, whatever became of that round. So all
duties are fixed when the first round begins, and every later round only goes on with them.

## Contents

* `Call`, `Turn`, `History`.
* `Sound`, `Retired`: the invariants.
* `History.of_retired`, `History.of_ended`: what comes after a round of closing.
* `sample`, `exists_completed_round`, `exists_stuck_round`: a session to go by.
* `obligations`, `released_exactly_once`: what a start acquired is released once, however closing
  goes.
* `teardown_over_history`: steps are not repeated, and closing has an end.
-/

namespace Outpost

namespace Session

/-- What is asked of a `Session` by a start or a close. -/
inductive Call where
  | start (surroundings : Surroundings)
  | close (timeout : Option Timeout)

namespace Call

/-- What a `Call` does. -/
def attempt : Call → Attempt Session interface Unit
  | .start surroundings => Session.start surroundings
  | .close timeout => Session.close timeout

/-- Whether a `Call` is a round of closing. -/
def isClose : Call → Bool
  | .start _ => false
  | .close _ => true

end Call

/-- A `Call` that was waited for. -/
structure Turn where
  call : Call
  exchanges : List Exchange
  /-- The session after the call. -/
  after : Session
  result : Except Fault Unit

/-- Whether a `Turn` is a round of closing that failed. -/
def Turn.isRejection (turn : Turn) : Bool := turn.call.isClose && !turn.result.isOk

/-- The turns of a `Session`, from one state of it to another. -/
inductive History : Session → List Turn → Session → Prop
  | nil (session : Session) : History session [] session
  | cons {session last : Session} {turn : Turn} {turns : List Turn} :
      Attempt.Run turn.call.attempt session turn.exchanges turn.after turn.result →
      History turn.after turns last → History session (turn :: turns) last

/-- Everything that rounds of closing asked for in some `turns`. -/
def closing (turns : List Turn) : List Exchange :=
  (turns.filter fun turn => turn.call.isClose).flatMap Turn.exchanges

/-- A `Session` as it is made. -/
def fresh (machine : Machine) (options : Options) (id : String) : Session where
  id := id
  machineName := machine.name
  mode := machine.connectivity
  options := options
  machine := some machine

/-- A `Session` that was not started yet holds nothing but its machine. -/
structure Sound (session : Session) : Prop where
  process : session.state = .created → session.process = none
  tunnel : session.state = .created → session.tunnel = none
  tempDirectory : session.state = .created → session.tempDirectory = none

/-- A `Session` that can acquire nothing any more: if it was not started, it has no machine. -/
structure Retired (session : Session) : Prop where
  machine : session.state = .created → session.machine = none

section Invariants

variable {timeout : Option Timeout} {surroundings : Surroundings} {session last : Session}
  {exchanges : List Exchange} {result : Except Fault Unit}

/-- Making a session by `create` asks for a name and records that the session was made, unless the
options do not fit. -/
theorem run_create_iff {σ : Type} {machine : Machine} {input : Options.Input} {s s' : σ}
    {ending : Except Fault Session} :
    Attempt.Run (create machine input : Attempt σ interface Session) s exchanges s' ending ↔
      s' = s ∧
        ((∃ fault, Options.resolve input = .error fault ∧ exchanges = [] ∧ ending = .error fault) ∨
          ∃ options id, Options.resolve input = .ok options ∧
            exchanges = ⟨.freshId, id⟩ :: (fresh machine options id).identity.recorded .created ∧
            ending = .ok (fresh machine options id)) := by
  rw [create, Attempt.run_bind_iff]
  constructor
  · rintro (⟨fault, hoptions, rfl⟩ | ⟨mid, options, first, second, hoptions, hnamed, rfl⟩)
    · obtain ⟨rfl, rfl, hresolve⟩ := Attempt.run_ofExcept_iff.1 hoptions
      exact ⟨rfl, .inl ⟨fault, hresolve.symm, rfl, rfl⟩⟩
    · obtain ⟨rfl, rfl, hresolve⟩ := Attempt.run_ofExcept_iff.1 hoptions
      obtain ⟨_, id, third, fourth, hask, hmade, rfl⟩ := Attempt.run_lift_bind_iff.1 hnamed
      obtain ⟨rfl, rfl⟩ := Program.run_request_iff.1 hask
      change Attempt.Run (record (fresh machine options id) .created >>= fun _ =>
        pure (fresh machine options id)) _ _ _ _ at hmade
      obtain ⟨_, rest, rfl, hdone, rfl⟩ := (Attempt.run_bind_iff_of_ok run_record_iff).1 hmade
      obtain ⟨rfl, rfl, rfl⟩ := Attempt.run_pure_iff.1 hdone
      exact ⟨rfl, .inr ⟨options, id, hresolve.symm, by simp, rfl⟩⟩
  · rintro ⟨rfl, ⟨fault, hresolve, rfl, rfl⟩ | ⟨options, id, hresolve, rfl, rfl⟩⟩
    · exact .inl ⟨fault, Attempt.run_ofExcept_iff.2 ⟨rfl, rfl, hresolve.symm⟩, rfl⟩
    · refine .inr ⟨s', options, [], _, Attempt.run_ofExcept_iff.2 ⟨rfl, rfl, hresolve.symm⟩, ?_,
        rfl⟩
      refine Attempt.run_lift_bind_iff.2
        ⟨s', id, [_], _, Program.run_request_iff.2 ⟨rfl, rfl⟩, ?_, rfl⟩
      change Attempt.Run (record (fresh machine options id) .created >>= fun _ =>
        pure (fresh machine options id)) _ _ _ _
      refine (Attempt.run_bind_iff_of_ok run_record_iff).2
        ⟨_, [], rfl, ?_, (List.append_nil _).symm⟩
      exact Attempt.run_pure_iff.2 ⟨rfl, rfl, rfl⟩

/-- A session from `create` holds its machine and nothing else. -/
theorem eq_of_run_create {σ : Type} {machine : Machine} {input : Options.Input} {s s' : σ}
    (h : Attempt.Run (create machine input : Attempt σ interface Session) s exchanges s'
      (.ok session)) :
    ∃ id options, session = {
      id
      machineName := machine.name
      mode := machine.connectivity
      options
      machine := some machine } := by
  obtain ⟨-, ⟨fault, -, -, hfault⟩ | ⟨options, id, -, -, hsession⟩⟩ := run_create_iff.1 h
  · exact absurd hfault nofun
  · exact ⟨id, options, Except.ok.inj hsession⟩

theorem created_of_run_create {σ : Type} {machine : Machine} {input : Options.Input} {s s' : σ}
    (h : Attempt.Run (create machine input : Attempt σ interface Session) s exchanges s'
      (.ok session)) :
    session.state = .created ∧ session.machine = some machine ∧ session.tempDirectory = none ∧
      session.process = none ∧ session.tunnel = none := by
  obtain ⟨id, options, rfl⟩ := eq_of_run_create h
  exact ⟨rfl, rfl, rfl, rfl, rfl⟩

/-- What a `close` leaves: all of its slots up to some step are empty. -/
theorem last_of_run_close (h : Attempt.Run (close timeout) session exchanges last result) :
    last = session.ended ∨
      ∃ duty ∈ duties session, last = session.clearedThrough duty.step := by
  rcases teardown_of_run_close h with ⟨_, -, -, rfl, -⟩ | ⟨duty, _, hstopped, rfl, -⟩
  · exact .inl rfl
  · exact .inr ⟨duty, hstopped.mem_of_expiry, rfl⟩

theorem sound_of_run_start (h : Attempt.Run (start surroundings) session exchanges last result) :
    Sound last := by
  have hstate := state_of_run_start h
  exact ⟨fun hcreated => absurd hcreated hstate, fun hcreated => absurd hcreated hstate,
    fun hcreated => absurd hcreated hstate⟩

theorem Sound.clearedThrough (h : Sound session) (step : Step) :
    Sound (session.clearedThrough step) := by
  cases step with
  | process => exact ⟨fun _ => rfl, h.tunnel, h.tempDirectory⟩
  | tunnelSession | tunnel | machineSession | machine =>
    exact ⟨fun _ => rfl, fun _ => rfl, h.tempDirectory⟩
  | tempDirectory => exact ⟨fun _ => rfl, fun _ => rfl, fun _ => rfl⟩

theorem Sound.of_run_close (hsound : Sound session)
    (h : Attempt.Run (close timeout) session exchanges last result) : Sound last := by
  rcases last_of_run_close h with rfl | ⟨duty, -, rfl⟩
  · exact ⟨fun _ => rfl, fun _ => rfl, fun _ => rfl⟩
  · exact hsound.clearedThrough duty.step

theorem clearedThrough_state (session : Session) (step : Step) :
    (session.clearedThrough step).state = session.state := by
  cases step <;> rfl

/-- A session that was not started yet gives up its machine, and is `Retired`, with the first round
of closing, even if the round fails. -/
theorem Sound.retired_of_run_close (hsound : Sound session)
    (h : Attempt.Run (close timeout) session exchanges last result) : Retired last := by
  refine ⟨fun hstate => ?_⟩
  rcases last_of_run_close h with rfl | ⟨duty, hduty, rfl⟩
  · exact absurd hstate nofun
  -- the round failed, and all that a session can owe before its start is its machine
  · rw [clearedThrough_state] at hstate
    have howed : duties session = machineDuties session := by
      rw [duties, processDuties, tunnelDuties, directoryDuties, hsound.process hstate,
        hsound.tunnel hstate, hsound.tempDirectory hstate]
      exact List.append_nil _
    rw [howed] at hduty
    rw [clearedThrough_of_mem_machineDuties session hduty]

/-- Starting a session that is `Retired` changes none of its slots and reaches nobody. -/
theorem Retired.of_run_start (hretired : Retired session)
    (h : Attempt.Run (start surroundings) session exchanges last result) :
    Retired last ∧ duties last = duties session ∧ heldSlots last = heldSlots session ∧
      ∀ x ∈ exchanges, ¬ Request.IsRemote x.request := by
  refine ⟨⟨fun hstate => absurd hstate (state_of_run_start h)⟩, ?_⟩
  by_cases hstate : session.state = .created
  · obtain ⟨rfl, hlocal⟩ := run_start_of_machine_none hstate (hretired.machine hstate) h
    exact ⟨rfl, rfl, hlocal⟩
  · obtain ⟨rfl, rfl, -⟩ := run_start_of_not_created hstate h
    exact ⟨rfl, rfl, fun x hx => absurd hx List.not_mem_nil⟩

end Invariants

/-! ## Histories -/

section Histories

variable {session mid last : Session} {turn : Turn} {turns before later : List Turn}

theorem closing_cons_start {surroundings : Surroundings} (hcall : turn.call = .start surroundings) :
    closing (turn :: turns) = closing turns := by
  rw [closing, List.filter_cons_of_neg (by rw [hcall]; exact Bool.false_ne_true), closing]

theorem closing_cons_close {timeout : Option Timeout} (hcall : turn.call = .close timeout) :
    closing (turn :: turns) = turn.exchanges ++ closing turns := by
  rw [closing, List.filter_cons_of_pos (by rw [hcall]; rfl), List.flatMap_cons, closing]

/-- A `History` can be cut at every turn. -/
theorem History.of_append (h : History session (before ++ later) last) :
    ∃ mid, History session before mid ∧ History mid later last := by
  induction before generalizing session with
  | nil => exact ⟨session, .nil session, h⟩
  | cons turn before ih =>
    cases h with
    | cons hrun hrest =>
      obtain ⟨mid, hbefore, hlater⟩ := ih hrest
      exact ⟨mid, .cons hrun hbefore, hlater⟩

/-- Starts and rounds of closing keep a session `Sound`. -/
theorem Sound.of_history (hsound : Sound session) (h : History session turns last) :
    Sound last := by
  induction h with
  | nil => exact hsound
  | @cons session last turn turns hrun hrest ih =>
    refine ih ?_
    cases hcall : turn.call with
    | start surroundings =>
      rw [hcall] at hrun
      exact sound_of_run_start hrun
    | close timeout =>
      rw [hcall] at hrun
      exact hsound.of_run_close hrun

/-- What becomes of a `Session` that is only wound down: its books are kept over all rounds of
closing, and every round that fails empties a slot. -/
structure WindsDown (session : Session) (turns : List Turn) (last : Session) : Prop where
  settles : Settles session (closing turns) last
  rejections : turns.countP Turn.isRejection + heldSlots last ≤ heldSlots session

theorem WindsDown.nil (session : Session) : WindsDown session [] session where
  settles := .of_duties_eq rfl rfl rfl
  rejections := by
    rw [List.countP_nil]
    omega

/-- A `start` that changes no slot. -/
theorem WindsDown.cons_start {surroundings : Surroundings} (hcall : turn.call = .start surroundings)
    (hduties : duties turn.after = duties session)
    (hheld : heldSlots turn.after = heldSlots session)
    (h : WindsDown turn.after turns last) : WindsDown session (turn :: turns) last where
  settles := by
    have hnothing : Settles session [] turn.after := .of_duties_eq rfl rfl hduties
    rw [closing_cons_start hcall]
    exact hnothing.trans h.settles
  rejections := by
    have hrejections := h.rejections
    have hnone : turn.isRejection = false := by rw [Turn.isRejection, hcall]; rfl
    rw [List.countP_cons_of_neg (by rw [hnone]; exact Bool.false_ne_true)]
    omega

/-- A round of closing, by a `close`. -/
theorem WindsDown.cons_close {timeout : Option Timeout} (hcall : turn.call = .close timeout)
    (hrun : Attempt.Run (close timeout) session turn.exchanges turn.after turn.result)
    (h : WindsDown turn.after turns last) : WindsDown session (turn :: turns) last where
  settles := by
    rw [closing_cons_close hcall]
    exact (settles_of_run_close hrun).trans h.settles
  rejections := by
    have hslots := heldSlots_of_run_close hrun
    have hrejections := h.rejections
    rw [List.countP_cons, Turn.isRejection, hcall, Call.isClose, Bool.true_and]
    cases hresult : turn.result.isOk with
    | true =>
      rw [hresult, if_pos rfl] at hslots
      rw [Bool.not_true, if_neg Bool.false_ne_true]
      omega
    | false =>
      rw [hresult, if_neg Bool.false_ne_true] at hslots
      rw [Bool.not_false, if_pos rfl]
      omega

/-- From the first round of closing on a session only `WindsDown`, and no start reaches anybody. -/
theorem History.of_retired (hsound : Sound session) (hretired : Retired session)
    (h : History session turns last) :
    WindsDown session turns last ∧
      ∀ turn ∈ turns, turn.call.isClose = false →
        ∀ x ∈ turn.exchanges, ¬ Request.IsRemote x.request := by
  induction h with
  | nil session => exact ⟨.nil session, fun turn hturn => absurd hturn List.not_mem_nil⟩
  | @cons session last turn turns hrun hrest ih =>
    cases hcall : turn.call with
    | start surroundings =>
      rw [hcall] at hrun
      obtain ⟨hretired', hduties, hheld, hlocal⟩ := hretired.of_run_start hrun
      obtain ⟨hwinds, hstarts⟩ := ih (sound_of_run_start hrun) hretired'
      refine ⟨hwinds.cons_start hcall hduties hheld, ?_⟩
      exact List.forall_mem_cons.2 ⟨fun _ => hlocal, hstarts⟩
    | close timeout =>
      rw [hcall] at hrun
      obtain ⟨hwinds, hstarts⟩ :=
        ih (hsound.of_run_close hrun) (hsound.retired_of_run_close hrun)
      have hclose : turn.call.isClose ≠ false := by rw [hcall]; exact Bool.noConfusion
      refine ⟨hwinds.cons_close hcall hrun, ?_⟩
      exact List.forall_mem_cons.2 ⟨fun hnot => absurd hnot hclose, hstarts⟩

/-- Once a round of closing has completed, so that the session is `ended`, nothing changes the
session any more, nothing is asked for, and rounds of closing complete. -/
theorem History.of_ended (h : History session.ended turns last) :
    last = session.ended ∧
      ∀ turn ∈ turns, turn.exchanges = [] ∧ (turn.call.isClose → turn.result = .ok ()) := by
  generalize hended : session.ended = ended at h
  -- every turn leaves the session exactly as it is, so the induction stays at `session.ended`
  induction h with
  | nil => exact ⟨rfl, fun turn hturn => absurd hturn List.not_mem_nil⟩
  | @cons ended last turn turns hrun hrest ih =>
    subst hended
    cases hcall : turn.call with
    | start surroundings =>
      rw [hcall] at hrun
      have hstate : session.ended.state ≠ .created := (nofun : State.closed ≠ .created)
      obtain ⟨hexchanges, hafter, -⟩ := run_start_of_not_created hstate hrun
      obtain ⟨hlast, hturns⟩ := ih hafter.symm
      refine ⟨hlast.trans hafter, List.forall_mem_cons.2 ⟨⟨hexchanges, fun hclose => ?_⟩, hturns⟩⟩
      rw [hcall] at hclose
      exact absurd hclose Bool.false_ne_true
    | close timeout =>
      rw [hcall] at hrun
      obtain ⟨hexchanges, hafter, hresult⟩ := run_close_ended hrun
      obtain ⟨hlast, hturns⟩ := ih hafter.symm
      exact ⟨hlast.trans hafter,
        List.forall_mem_cons.2 ⟨⟨hexchanges, fun _ => hresult⟩, hturns⟩⟩

/-- The whole `History` of a session, from before its first round of closing. -/
theorem History.of_sound (hsound : Sound session) (h : History session turns last) :
    ((attempts (closing turns)).map Duty.step).Nodup ∧ turns.countP Turn.isRejection ≤ 4 := by
  induction h with
  | nil => exact ⟨List.nodup_nil, Nat.zero_le 4⟩
  -- starts before the first round of closing attempt nothing; from that round on all is wound down
  | @cons session last turn turns hrun hrest ih =>
    cases hcall : turn.call with
    | start surroundings =>
      rw [hcall] at hrun
      obtain ⟨hnodup, hrejections⟩ := ih (sound_of_run_start hrun)
      have hrejection : turn.isRejection = false := by rw [Turn.isRejection, hcall]; rfl
      rw [closing_cons_start hcall]
      rw [List.countP_cons_of_neg (by rw [hrejection]; exact Bool.false_ne_true)]
      exact ⟨hnodup, hrejections⟩
    | close timeout =>
      rw [hcall] at hrun
      obtain ⟨hwinds, -⟩ :=
        hrest.of_retired (hsound.of_run_close hrun) (hsound.retired_of_run_close hrun)
      obtain ⟨hsettles, hrejections⟩ := hwinds.cons_close hcall hrun
      have hheld := heldSlots_le session
      refine ⟨?_, by omega⟩
      have hattempts := (List.sublist_append_left _ _).trans hsettles.sublist
      exact (nodup_duties_steps session).sublist (hattempts.map Duty.step)

/-- The waits that `expired` are among those that were attempted, one for each round that failed. -/
theorem History.expired_sublist (h : History session turns last) :
    (expired (closing turns)).Sublist ((attempts (closing turns)).map Duty.step) ∧
      (expired (closing turns)).length = turns.countP Turn.isRejection := by
  induction h with
  | nil => exact ⟨List.Sublist.slnil, rfl⟩
  | @cons session last turn turns hrun hrest ih =>
    obtain ⟨hsublist, hlength⟩ := ih
    rw [List.countP_cons, Turn.isRejection]
    cases hcall : turn.call with
    | start surroundings =>
      rw [closing_cons_start hcall]
      exact ⟨hsublist, hlength⟩
    | close timeout =>
      rw [hcall] at hrun
      obtain ⟨hsublist', hlength'⟩ := expired_of_run_close hrun
      rw [closing_cons_close hcall, expired_append, attempts_append, List.map_append,
        List.length_append, hlength, hlength', Nat.add_comm]
      refine ⟨hsublist'.append hsublist, ?_⟩
      cases turn.result.isOk <;> rfl

/-- A session that is closed again and again only `WindsDown`. -/
theorem History.windsDown_of_closes (hcloses : ∀ turn ∈ turns, turn.call.isClose = true)
    (h : History session turns last) : WindsDown session turns last := by
  induction h with
  | nil session => exact .nil session
  | @cons session last turn turns hrun hrest ih =>
    obtain ⟨hclose, hcloses'⟩ := List.forall_mem_cons.1 hcloses
    cases hcall : turn.call with
    | start surroundings =>
      rw [hcall] at hclose
      exact absurd hclose Bool.false_ne_true
    | close timeout =>
      rw [hcall] at hrun
      exact (ih hcloses').cons_close hcall hrun

/-- After a round of closing that completed the session is `ended`, whatever comes then. -/
theorem History.last_eq_of_completed {timeout : Option Timeout} (hcall : turn.call = .close timeout)
    (hresult : turn.result = .ok ()) (h : History session (turn :: turns) last) :
    turn.after = session.ended ∧ last = session.ended ∧
      ∀ next ∈ turns, next.exchanges = [] ∧ (next.call.isClose → next.result = .ok ()) := by
  cases h with
  | cons hrun hrest =>
    rw [hcall, hresult] at hrun
    have hafter := last_eq_of_run_close hrun
    rw [hafter] at hrest
    obtain ⟨hlast, hnext⟩ := hrest.of_ended
    exact ⟨hafter, hlast, hnext⟩

end Histories

/-! ## A session to go by -/

/-- A new `Session` on a machine that is reached directly, for a caller who leaves all options
out. -/
def sample : Session where
  id := "d-1"
  machineName := none
  mode := .direct
  options :=
    { serverClass := Settings.serverClass, serviceClass := Settings.serviceClass,
      serverScript := Script.defaultTemplate, extraSetup := "", interpreter := none,
      codeDirectory := Settings.codeDirectory, handshakeTimeout := none, eventLog := none }
  machine := some ⟨none, .direct⟩

theorem run_create_sample :
    Attempt.Run (create ⟨none, .direct⟩ (.fields []) : Attempt Unit interface Session) ()
      [⟨.freshId, "d-1"⟩] () (.ok sample) := by
  have hoptions : Options.resolve (.fields []) = .ok sample.options := by
    simp [Options.resolve, Options.check, Options.resolveFields, Options.withDefault,
      Options.optional, Options.find?, Options.also, Except.map, sample]
  rw [create, hoptions]
  refine .ask _ ?_
  exact .done _ _

/-- Whatever a session owes, there is a round of `close` that completes without an expiry. -/
theorem exists_completed_round (timeout : Option Timeout) (session : Session) :
    ∃ exchanges, Attempt.Run (close timeout) session exchanges session.ended (.ok ()) ∧
      expired exchanges = [] := by
  have hasks (duty : Duty) : ∃ calls, duty.Asks timeout calls (.ok ()) := by
    cases duty with
    | process | tunnelSession | machineSession => exact ⟨_, .waited (.ok ⟨[], []⟩) rfl⟩
    | tunnel forward => exact ⟨_, .tunnel forward (.ok ())⟩
    | machine => exact ⟨_, .machine (.ok ())⟩
    | tempDirectory directory => exact ⟨_, .tempDirectory directory (.ok ())⟩
  have hpasses (owed : List Duty) :
      ∃ rounds : List (Duty × List Exchange), rounds.map Prod.fst = owed ∧
        ∀ round ∈ rounds, round.1.Passes timeout session.identity round.2 := by
    induction owed with
    | nil => exact ⟨[], rfl, fun _ h => absurd h List.not_mem_nil⟩
    | cons duty owed ih =>
      obtain ⟨calls, hcalls⟩ := hasks duty
      obtain ⟨rounds, rfl, hrounds⟩ := ih
      exact ⟨(duty, calls) :: rounds, rfl, List.forall_mem_cons.2 ⟨.completed hcalls, hrounds⟩⟩
  obtain ⟨rounds, howed, hrounds⟩ := hpasses (duties session)
  refine ⟨_, run_close_of_finished (Teardown.none_iff.2 ⟨rounds, howed, hrounds, rfl⟩), ?_⟩
  rw [expired_append, (books_of_rounds hrounds).2, (books_of_farewell session).2]
  rfl

/-- A round of `close` that has to give up the connection to the machine. -/
theorem exists_stuck_round {session : Session} (hprocess : session.process = none)
    (htunnel : session.tunnel = none) (hmachine : session.machine ≠ none) :
    ∃ exchanges, Attempt.Run (close none) session exchanges
        (session.clearedThrough .machineSession) (.error (.timedOut "ssh" (.ofNat 100))) ∧
      expired exchanges = [.machineSession] := by
  obtain ⟨machine, hmachine⟩ := Option.ne_none_iff_exists'.1 hmachine
  have howed : duties session = .machineSession :: .machine :: directoryDuties session := by
    rw [duties, processDuties, tunnelDuties, machineDuties, hprocess, htunnel, hmachine]
    rfl
  have hstopped : ∃ exchanges, Duty.Expires none session.identity .machineSession exchanges
      (.timedOut "ssh" (.ofNat 100)) :=
    ⟨_, .expired (.waited (.error _) rfl) (.killed rfl)⟩
  obtain ⟨exchanges, hexpires⟩ := hstopped
  have hround : Teardown none session.identity (duties session) exchanges
      (some (.machineSession, .timedOut "ssh" (.ofNat 100))) := by
    rw [howed]
    exact .expired hexpires
  exact ⟨exchanges, run_close_of_expired hround, (books_of_expires hexpires).2⟩

/-! ## No leak -/

/-- What is attempted for a session whose start got some replies while `acquiring`, in the order of
closing: everything that the start obtained, and the machine. A tunnel and the machine are given up
without an attempt if the step before, which stops the session on them, is among the `steps` that
expired. -/
def obligations (steps : List Step) (acquiring : List Exchange) : List Duty :=
  (spawnedProcesses acquiring).map .process
    ++ ((openedTunnels acquiring).flatMap (fun forward =>
      .tunnelSession forward :: if .tunnelSession ∈ steps then [] else [.tunnel forward])
    ++ (.machineSession :: (if .machineSession ∈ steps then [] else [.machine])
    ++ (madeDirectories acquiring).map .tempDirectory))

theorem mem_abandons_iff {steps : List Step} {step : Step} :
    step ∈ steps.flatMap Step.abandons ↔
      (step = .tunnel ∧ .tunnelSession ∈ steps) ∨ (step = .machine ∧ .machineSession ∈ steps) := by
  rw [List.mem_flatMap]
  constructor
  · rintro ⟨other, hother, hstep⟩
    cases other with
    | tunnelSession => exact .inl ⟨List.mem_singleton.1 hstep, hother⟩
    | machineSession => exact .inr ⟨List.mem_singleton.1 hstep, hother⟩
    | _ => exact absurd hstep List.not_mem_nil
  · rintro (⟨rfl, hother⟩ | ⟨rfl, hother⟩)
    · exact ⟨.tunnelSession, hother, List.mem_cons_self⟩
    · exact ⟨.machineSession, hother, List.mem_cons_self⟩

/-- Only a tunnel and the machine are ever given up without an attempt. -/
theorem dueAfter_eq_self {steps : List Step} {owed : List Duty}
    (h : ∀ duty ∈ owed, duty.step ≠ .tunnel ∧ duty.step ≠ .machine) :
    dueAfter steps owed = owed := by
  refine List.filter_eq_self.2 fun duty hduty => decide_eq_true fun hgiven => ?_
  rcases mem_abandons_iff.1 hgiven with ⟨htunnel, -⟩ | ⟨hmachine, -⟩
  · exact (h duty hduty).1 htunnel
  · exact (h duty hduty).2 hmachine

/-- A duty that stands or falls with the one before it. -/
theorem dueAfter_pair {steps : List Step} {duty duty' : Duty}
    (hduty : duty.step ≠ .tunnel ∧ duty.step ≠ .machine)
    (hduty' : duty'.step ∈ steps.flatMap Step.abandons ↔ duty.step ∈ steps) :
    dueAfter steps [duty, duty'] = duty :: if duty.step ∈ steps then [] else [duty'] := by
  have hfirst : dueAfter steps [duty] = [duty] :=
    dueAfter_eq_self (List.forall_mem_cons.2 ⟨hduty, fun _ h => absurd h List.not_mem_nil⟩)
  have hsecond : dueAfter steps [duty'] = if duty.step ∈ steps then [] else [duty'] := by
    by_cases h : duty.step ∈ steps
    · rw [if_pos h]
      refine List.filter_eq_nil_iff.2 fun other hother hkept => ?_
      obtain rfl := List.mem_singleton.1 hother
      exact absurd (hduty'.2 h) (of_decide_eq_true hkept)
    · rw [if_neg h]
      refine List.filter_eq_self.2 fun other hother => decide_eq_true fun hgiven => ?_
      obtain rfl := List.mem_singleton.1 hother
      exact h (hduty'.1 hgiven)
  calc dueAfter steps ([duty] ++ [duty'])
      = dueAfter steps [duty] ++ dueAfter steps [duty'] := dueAfter_append steps [duty] [duty']
    _ = duty :: if duty.step ∈ steps then [] else [duty'] := by rw [hfirst, hsecond]; rfl

/-- What is left of all `obligations` after some expiries. -/
theorem dueAfter_obligations (steps : List Step) (acquiring : List Exchange) :
    dueAfter steps (obligations [] acquiring) = obligations steps acquiring := by
  have hprocesses (processes : List Machine.Running) :
      dueAfter steps (processes.map .process) = processes.map .process := by
    refine dueAfter_eq_self fun duty hduty => ?_
    obtain ⟨running, -, rfl⟩ := List.mem_map.1 hduty
    exact ⟨nofun, nofun⟩
  have hdirectories (directories : List Machine.Directory) :
      dueAfter steps (directories.map .tempDirectory) = directories.map .tempDirectory := by
    refine dueAfter_eq_self fun duty hduty => ?_
    obtain ⟨directory, -, rfl⟩ := List.mem_map.1 hduty
    exact ⟨nofun, nofun⟩
  have htunnel (forward : Machine.Forward) :
      dueAfter steps [.tunnelSession forward, .tunnel forward]
      = .tunnelSession forward :: if .tunnelSession ∈ steps then [] else [.tunnel forward] := by
    refine dueAfter_pair ⟨nofun, nofun⟩ (mem_abandons_iff.trans ?_)
    exact ⟨fun h => h.elim And.right fun h => absurd h.1 nofun, fun h => .inl ⟨rfl, h⟩⟩
  have hmachine : dueAfter steps [.machineSession, .machine]
      = .machineSession :: if .machineSession ∈ steps then [] else [.machine] := by
    refine dueAfter_pair ⟨nofun, nofun⟩ (mem_abandons_iff.trans ?_)
    exact ⟨fun h => h.elim (fun h => absurd h.1 nofun) And.right, fun h => .inr ⟨rfl, h⟩⟩
  have htunnels (forwards : List Machine.Forward) :
      dueAfter steps (forwards.flatMap fun forward => [.tunnelSession forward, .tunnel forward])
        = forwards.flatMap fun forward =>
          .tunnelSession forward :: if .tunnelSession ∈ steps then [] else [.tunnel forward] := by
    rw [dueAfter, List.filter_flatMap]
    exact congrArg (fun f => forwards.flatMap f) (funext htunnel)
  calc dueAfter steps (obligations [] acquiring)
      = dueAfter steps ((spawnedProcesses acquiring).map .process
          ++ ((openedTunnels acquiring).flatMap (fun forward =>
            [.tunnelSession forward, .tunnel forward])
          ++ ([.machineSession, .machine]
            ++ (madeDirectories acquiring).map .tempDirectory))) := rfl
    _ = obligations steps acquiring := by
      rw [dueAfter_append, dueAfter_append, dueAfter_append, hprocesses, htunnels, hmachine,
        hdirectories]
      rfl

section NoLeak

variable {σ : Type} {machine : Machine} {input : Options.Input} {s s' : σ}
  {setup acquiring : List Exchange} {surroundings : Surroundings} {session started last : Session}
  {result : Except Fault Unit} {turns closes : List Turn}

/-- A session owes by its `duties` exactly what its start obtained, wherever the start stopped. -/
theorem duties_of_run_start
    (hcreate : Attempt.Run (create machine input : Attempt σ interface Session) s setup s'
      (.ok session))
    (hstart : Attempt.Run (start surroundings) session acquiring started result) :
    duties started = obligations [] acquiring ∧ (madeDirectories acquiring).length ≤ 1 ∧
      (spawnedProcesses acquiring).length ≤ 1 ∧ (openedTunnels acquiring).length ≤ 1 := by
  obtain ⟨hstate, hmachine, hdirectory, hprocess, htunnel⟩ := created_of_run_create hcreate
  have hacquired := acquired_of_run_start hstate hdirectory hprocess htunnel hstart
  have hdirectories : started.tempDirectory.toList = madeDirectories acquiring := by
    rw [hacquired.directory, hdirectory]
    rfl
  have hprocesses : started.process.toList = spawnedProcesses acquiring := by
    rw [hacquired.process, hprocess]
    rfl
  have htunnels : started.tunnel.toList = openedTunnels acquiring := by
    rw [hacquired.tunnel, htunnel]
    rfl
  rw [← hdirectories, ← hprocesses, ← htunnels]
  refine ⟨?_, Option.length_toList_le, Option.length_toList_le, Option.length_toList_le⟩
  rw [duties, obligations, ← hdirectories, ← hprocesses, ← htunnels, processDuties, tunnelDuties,
    machineDuties, directoryDuties, hacquired.machine, hmachine]
  rfl

/-- **Nothing leaks, whatever goes wrong.** However a `start` ends, once its session has been closed
again and again until a round completed, everything that the start obtained has been released by
exactly one attempt, in the order of closing, and nothing else has been attempted; only a tunnel and
the machine are given up without an attempt if the wait for the session on them expired. -/
theorem released_exactly_once
    (hcreate : Attempt.Run (create machine input : Attempt σ interface Session) s setup s'
      (.ok session))
    (hstart : Attempt.Run (start surroundings) session acquiring started result)
    (hhistory : History started closes last)
    (hcloses : ∀ turn ∈ closes, turn.call.isClose = true)
    (hcompleted : ∃ turn ∈ closes, turn.result = .ok ()) :
    attempts (closing closes) = obligations (expired (closing closes)) acquiring ∧
      (madeDirectories acquiring).length ≤ 1 ∧ (spawnedProcesses acquiring).length ≤ 1 ∧
      (openedTunnels acquiring).length ≤ 1 ∧
      last.holdsResources = false ∧ last.state = .closed := by
  obtain ⟨howed, hdirectories, hprocesses, htunnels⟩ := duties_of_run_start hcreate hstart
  obtain ⟨completed, hmem, hresult⟩ := hcompleted
  obtain ⟨before, later, rfl⟩ := List.append_of_mem hmem
  obtain ⟨mid, -, hrest⟩ := hhistory.of_append
  have hended : last = mid.ended := by
    cases hcall : completed.call with
    | start surroundings =>
      have hclose := hcloses completed hmem
      rw [hcall] at hclose
      exact absurd hclose Bool.false_ne_true
    | close timeout => exact (hrest.last_eq_of_completed hcall hresult).2.1
  have hbalance := (hhistory.windsDown_of_closes hcloses).settles.balance
  subst hended
  refine ⟨?_, hdirectories, hprocesses, htunnels, rfl, rfl⟩
  rw [← dueAfter_obligations, ← howed, ← hbalance]
  exact (List.append_nil _).symm

/-- A start that has a directory but cannot put the code tree into it, a round of closing that has
to give up the connection to the machine, and one that completes. -/
theorem released_after_failed_upload :
    ∃ (acquiring : List Exchange) (started last : Session) (fault : Fault) (closes : List Turn),
      Attempt.Run (start ⟨"20.11.1", none⟩) sample acquiring started (.error fault) ∧
      History started closes last ∧ closes.map (fun turn => turn.result.isOk) = [false, true] ∧
      attempts (closing closes) = [.machineSession, .tempDirectory ⟨"/tmp/d-1"⟩] ∧
      last.holdsResources = false := by
  let started : Session := { sample with tempDirectory := some ⟨"/tmp/d-1"⟩, state := .failed }
  have hstart : Attempt.Run (start ⟨"20.11.1", none⟩) sample
      [⟨.machine .tempDirectory, .ok ⟨"/tmp/d-1"⟩⟩,
        ⟨.machine (.upload Settings.codeDirectory "/tmp/d-1"), .error (.ofMessage "disk full")⟩]
      started (.error (stagingFault "undefined" (.ofMessage "disk full"))) := by
    refine .read (.write (.read (.read (.ask _ ?_))))
    refine .read (.write (.ask _ ?_))
    exact .read (.write (.read (.done _ _)))
  obtain ⟨first, hfirst, hexpired⟩ :
      ∃ exchanges, Attempt.Run (close none) started exchanges
        (started.clearedThrough .machineSession) (.error (.timedOut "ssh" (.ofNat 100))) ∧
      expired exchanges = [.machineSession] := exists_stuck_round rfl rfl nofun
  obtain ⟨second, hsecond, hexpired'⟩ :=
    exists_completed_round none (started.clearedThrough .machineSession)
  let closes : List Turn :=
    [⟨.close none, first, started.clearedThrough .machineSession,
        .error (.timedOut "ssh" (.ofNat 100))⟩,
      ⟨.close none, second, (started.clearedThrough .machineSession).ended, .ok ()⟩]
  have hhistory : History started closes (started.clearedThrough .machineSession).ended :=
    .cons hfirst (.cons hsecond (.nil _))
  obtain ⟨hattempts, -, -, -, hreleased, -⟩ :=
    released_exactly_once run_create_sample hstart hhistory
    (by simp [closes, Call.isClose]) (by simp [closes])
  have hexpiries : expired (closing closes) = [.machineSession] := by
    simp [closes, closing, Call.isClose, expired_append, hexpired, hexpired']
  rw [hexpiries] at hattempts
  exact ⟨_, started, _, _, closes, hstart, hhistory, rfl, hattempts, hreleased⟩

end NoLeak

/-! ## Whole histories -/

/-- **Closing comes to an end, and to one end only.** Over every `History` of a session no step of
closing is attempted twice, and at most four rounds fail. After any round of closing no start
reaches the machine or anything on it; after a round that completed, the session holds nothing, it
is closed, and nothing at all is asked for any more, while rounds of closing go on to complete. -/
theorem teardown_over_history {σ : Type} {machine : Machine} {input : Options.Input} {s s' : σ}
    {setup : List Exchange} {session last : Session} {turns : List Turn}
    (hcreate : Attempt.Run (create machine input : Attempt σ interface Session) s setup s'
      (.ok session))
    (hhistory : History session turns last) :
    ((attempts (closing turns)).map Duty.step).Nodup ∧ turns.countP Turn.isRejection ≤ 4 ∧
      ∀ before turn later, turns = before ++ turn :: later → turn.call.isClose = true →
        (∀ next ∈ later, next.call.isClose = false →
          ∀ x ∈ next.exchanges, ¬ Request.IsRemote x.request) ∧
        (turn.result = .ok () →
          turn.after.holdsResources = false ∧ turn.after.state = .closed ∧
            ∀ next ∈ later, next.exchanges = [] ∧ (next.call.isClose → next.result = .ok ())) := by
  obtain ⟨-, -, hdirectory, hprocess, htunnel⟩ := created_of_run_create hcreate
  have hsound : Sound session := ⟨fun _ => hprocess, fun _ => htunnel, fun _ => hdirectory⟩
  obtain ⟨hnodup, hrejections⟩ := hhistory.of_sound hsound
  refine ⟨hnodup, hrejections, fun before turn later hturns hclose => ?_⟩
  subst hturns
  obtain ⟨mid, hbefore, hrest⟩ := hhistory.of_append
  have hmid : Sound mid := hsound.of_history hbefore
  cases hcall : turn.call with
  | start surroundings =>
    rw [hcall] at hclose
    exact absurd hclose Bool.false_ne_true
  | close timeout =>
    constructor
    · cases hrest with
      | cons hrun hlater =>
        rw [hcall] at hrun
        exact (hlater.of_retired (hmid.of_run_close hrun) (hmid.retired_of_run_close hrun)).2
    · intro hresult
      obtain ⟨hafter, -, hnext⟩ := hrest.last_eq_of_completed hcall hresult
      rw [hafter]
      exact ⟨rfl, rfl, hnext⟩

/-- A session that was never started, with a round of closing that has to give up the connection to
the machine: a start finds no machine any more, and the next round completes. -/
theorem torn_down_before_start :
    ∃ (turns : List Turn) (last : Session),
      History sample turns last ∧
      turns.map (fun turn => (turn.call.isClose, turn.result.isOk))
        = [(true, false), (false, false), (true, true)] ∧
      ((attempts (closing turns)).map Duty.step).Nodup ∧ turns.countP Turn.isRejection ≤ 4 := by
  let given : Session := sample.clearedThrough .machineSession
  obtain ⟨first, hfirst, -⟩ :
      ∃ exchanges, Attempt.Run (close none) sample exchanges given
        (.error (.timedOut "ssh" (.ofNat 100))) ∧ expired exchanges = [.machineSession] :=
    exists_stuck_round rfl rfl nofun
  let failed : Session := { given with state := .failed }
  have hstart : Attempt.Run (start ⟨"20.11.1", none⟩) given [] failed
      (.error (.state "Deployment d-1 has already released its machine" none)) := by
    refine .read (.write (.read ?_))
    exact .read (.write (.read (.done _ _)))
  obtain ⟨third, hthird, -⟩ := exists_completed_round none failed
  let turns : List Turn :=
    [⟨.close none, first, given, .error (.timedOut "ssh" (.ofNat 100))⟩,
      ⟨.start ⟨"20.11.1", none⟩, [], failed,
        .error (.state "Deployment d-1 has already released its machine" none)⟩,
      ⟨.close none, third, failed.ended, .ok ()⟩]
  have hhistory : History sample turns failed.ended :=
    .cons hfirst (.cons hstart (.cons hthird (.nil _)))
  obtain ⟨hnodup, hrejections, -⟩ := teardown_over_history run_create_sample hhistory
  exact ⟨turns, _, hhistory, rfl, hnodup, hrejections⟩

end Session

end Outpost

import Outpost.Proofs.Group.Connecting
import Outpost.Proofs.Group.Starting

/-!
# Closing a group

Closing takes the sessions out of the group from the front, and gives each of them one round of
closing of its own, whatever became of those before it (`Group.run_close_iff`). Nothing is shared
between the rounds, so with machines that mind their own business each session fares as if it had
been closed alone (`Group.close_complete_and_isolated`).

## Contents

* `Group.Round`, `Group.run_closeMembers_iff`, `Group.run_close_iff`: one round for each session.
* `Group.verdict`: what the faults of the rounds come to.
* `Group.apart`: machines whose replies depend on what they were asked themselves.
* `Group.started_of_touches`, `Group.members_of_touches`: a group is not filled again.
* `Group.Emptied`, `Group.close_complete_and_isolated`.
* `Group.closed_again_after_late_start`: what closing a group does to a later start.
-/

namespace Outpost

namespace Group

/-! ## Rounds -/

/-- A `Member` that was closed. -/
structure Round where
  member : Member
  exchanges : List Session.Exchange
  /-- The session after the round. -/
  after : Session
  result : Except Fault Unit

namespace Round

variable (timeout : Option Timeout) (round : Round)

/-- The round is one of `close` on the session. -/
def Held : Prop :=
  Attempt.Run (Session.close timeout) round.member.session round.exchanges round.after round.result

/-- The fault of a round that failed by its `result`. -/
def fault? : Option Fault :=
  match round.result with
  | .ok () => none
  | .error fault => some fault

/-- What the group says of a round that failed. -/
def warning : List Exchange :=
  match round.result with
  | .ok () => []
  | .error fault =>
    [⟨.report ⟨.warn, "DeploymentGroup", "Closing deployment " ++ round.after.id ++ " on "
      ++ Json.textOf round.after.machineName ++ " failed: " ++ fault.message⟩, ()⟩]

/-- What was exchanged for a round, as the group does it, with the `warning`. -/
def exchanged : List Exchange :=
  round.exchanges.map (.ofMember round.member.index) ++ round.warning

/-- The `Member` as the round left it. -/
def departed : Member := { round.member with session := round.after }

end Round

/-- What some faults come to: one is passed on as it is, and several together as an `aggregate`. -/
def verdict : List Fault → Except Fault Unit
  | [] => .ok ()
  | [fault] => .error fault
  | faults => .error (.aggregate faults (toString faults.length ++ " deployments failed to close"))

theorem verdict_eq_ok_iff {faults : List Fault} : verdict faults = .ok () ↔ faults = [] := by
  rcases faults with _ | ⟨fault, _ | ⟨fault', faults⟩⟩
  · exact iff_of_true rfl rfl
  · exact iff_of_false nofun nofun
  · exact iff_of_false nofun nofun

section Closing

variable {timeout : Option Timeout} {group last : Group} {exchanges : List Exchange}
  {result : Except Fault Unit}

/-- What is said of a round, and the rounds behind it. -/
theorem run_after_round_iff (round : Round) {count : Nat} {faults : List Fault} :
    Program.Run (match round.result with
      | .ok () => closeMembers timeout count
      | .error fault => do
        report .warn ("Closing deployment " ++ round.after.id ++ " on "
          ++ Json.textOf round.after.machineName ++ " failed: " ++ fault.message)
        return fault :: (← closeMembers timeout count)) group exchanges last faults ↔
      ∃ more later, Program.Run (closeMembers timeout count) group more last later ∧
        exchanges = round.warning ++ more ∧ faults = round.fault?.toList ++ later := by
  obtain ⟨member, asked, after, result⟩ := round
  rcases result with fault | ⟨⟨⟩⟩
  · refine Program.run_bind_iff.trans ⟨?_, ?_⟩
    · rintro ⟨_, ⟨⟩, first, second, hreport, hgoesOn, rfl⟩
      obtain ⟨rfl, rfl⟩ := Program.run_request_iff.1 hreport
      obtain ⟨_, later, third, fourth, hothers, hdone, rfl⟩ := Program.run_bind_iff.1 hgoesOn
      obtain ⟨rfl, rfl, rfl⟩ := Program.run_done_iff.1 hdone
      exact ⟨third, later, hothers, by rw [List.append_nil]; rfl, rfl⟩
    · rintro ⟨more, later, hothers, rfl, rfl⟩
      refine ⟨group, (), _, more, Program.run_request_iff.2 ⟨rfl, rfl⟩, ?_, rfl⟩
      exact Program.run_bind_iff.2 ⟨last, later, more, [], hothers, .done _ _,
        (List.append_nil more).symm⟩
  · constructor
    · exact fun h => ⟨exchanges, faults, h, rfl, rfl⟩
    · rintro ⟨more, later, h, rfl, rfl⟩
      exact h

/-- The first member gets its `Round`, and leaves. -/
theorem run_closeMembers_succ_iff {count : Nat} {member : Member} {rest : List Member}
    {faults : List Fault} (hmembers : group.members = member :: rest) :
    Program.Run (closeMembers timeout (count + 1)) group exchanges last faults ↔
      ∃ round : Round, round.member = member ∧ round.Held timeout ∧ ∃ more later,
        Program.Run (closeMembers timeout count)
          { group with members := rest, departed := group.departed ++ [round.departed] } more last
          later ∧
        exchanges = round.exchanged ++ more ∧ faults = round.fault?.toList ++ later := by
  rw [closeMembers, Program.run_get_bind_iff, hmembers]
  refine Program.run_set_bind_iff.trans (Program.run_bind_iff.trans ⟨?_, ?_⟩)
  · rintro ⟨mid, ⟨result, session⟩, first, second, hclose, hafter, rfl⟩
    obtain ⟨inner, hown, rfl⟩ := run_embed_member_iff.1 hclose
    obtain ⟨rfl, hround⟩ := Program.run_own_iff.1 hown
    let round : Round := ⟨member, inner, session, result⟩
    have hlater := Program.run_modify_bind_iff.1 hafter
    obtain ⟨more, later, hmore, rfl, rfl⟩ := (run_after_round_iff round).1 hlater
    exact ⟨round, rfl, hround, more, later, hmore, (List.append_assoc ..).symm, rfl⟩
  · rintro ⟨round, rfl, hround, more, later, hmore, rfl, rfl⟩
    have hclose := run_embed_member_iff.2 ⟨round.exchanges,
      Program.run_own_iff.2 ⟨(rfl : ({ group with members := rest } : Group) = _), hround⟩,
      (rfl : round.exchanges.map (Exchange.ofMember round.member.index) = _)⟩
    refine ⟨_, (round.result, round.after), _, _, hclose, ?_, List.append_assoc ..⟩
    exact Program.run_modify_bind_iff.2
      ((run_after_round_iff round).2 ⟨more, later, hmore, rfl, rfl⟩)

/-- One member after the other gets its `Round`. -/
theorem run_closeMembers_iff {members : List Member} {faults : List Fault}
    (hmembers : group.members = members) :
    Program.Run (closeMembers timeout members.length) group exchanges last faults ↔
      ∃ rounds : List Round, rounds.map Round.member = members ∧
        (∀ round ∈ rounds, round.Held timeout) ∧
        exchanges = rounds.flatMap Round.exchanged ∧
        last = { group with
          members := [], departed := group.departed ++ rounds.map Round.departed } ∧
        faults = rounds.filterMap Round.fault? := by
  induction members generalizing group exchanges faults with
  | nil =>
    have hnothing : group
        = { group with members := [], departed := group.departed ++ [].map Round.departed } := by
      rw [List.map_nil, List.append_nil, ← hmembers]
    refine Program.run_done_iff.trans ⟨?_, ?_⟩
    · rintro ⟨rfl, rfl, rfl⟩
      exact ⟨[], rfl, fun _ h => absurd h List.not_mem_nil, rfl, hnothing, rfl⟩
    · rintro ⟨rounds, hrounds, -, rfl, rfl, rfl⟩
      obtain rfl := List.map_eq_nil_iff.1 hrounds
      exact ⟨rfl, hnothing.symm, rfl⟩
  | cons member rest ih =>
    have hfaults (round : Round) (rounds : List Round) :
        (round :: rounds).filterMap Round.fault?
          = round.fault?.toList ++ rounds.filterMap Round.fault? := by
      rw [List.filterMap_cons]
      cases round.fault? <;> rfl
    have hdeparted (round : Round) (rounds : List Round) :
        group.departed ++ [round.departed] ++ rounds.map Round.departed
          = group.departed ++ (round :: rounds).map Round.departed := by
      rw [List.append_assoc]
      rfl
    refine (run_closeMembers_succ_iff hmembers).trans ⟨?_, ?_⟩
    · rintro ⟨round, rfl, hround, more, later, hmore, rfl, rfl⟩
      obtain ⟨rounds, rfl, hrounds, rfl, rfl, rfl⟩ := (ih rfl).1 hmore
      refine ⟨round :: rounds, rfl, List.forall_mem_cons.2 ⟨hround, hrounds⟩, rfl, ?_,
        (hfaults round rounds).symm⟩
      rw [hdeparted]
    · rintro ⟨_ | ⟨round, rounds⟩, hplaces, hrounds, rfl, rfl, rfl⟩
      · exact absurd hplaces nofun
      · obtain ⟨rfl, rfl⟩ := List.cons.inj hplaces
        obtain ⟨hround, hrounds⟩ := List.forall_mem_cons.1 hrounds
        refine ⟨round, rfl, hround, _, _, (ih rfl).2 ⟨rounds, rfl, hrounds, rfl, ?_, rfl⟩, rfl,
          hfaults round rounds⟩
        rw [hdeparted]

/-- A `close` gives every member one `Round`, in their order, and then says what failed. -/
theorem run_close_iff :
    Attempt.Run (close timeout) group exchanges last result ↔
      ∃ rounds : List Round, rounds.map Round.member = group.members ∧
        (∀ round ∈ rounds, round.Held timeout) ∧
        exchanges = rounds.flatMap Round.exchanged ∧
        last = { group with
          members := [], departed := group.departed ++ rounds.map Round.departed } ∧
        result = verdict (rounds.filterMap Round.fault?) := by
  have hverdict {s s' : Group} {asked : List Exchange} {faults : List Fault} :
      Attempt.Run (match faults with
        | [] => return
        | [fault] => throw fault
        | _ => throw (.aggregate faults
          (toString faults.length ++ " deployments failed to close"))) s asked s' result ↔
        asked = [] ∧ s' = s ∧ result = verdict faults := by
    rcases faults with _ | ⟨fault, _ | ⟨fault', faults⟩⟩ <;> exact Program.run_done_iff
  rw [close, Attempt.run_get_bind_iff]
  refine Attempt.run_lift_bind_iff.trans ⟨?_, ?_⟩
  · rintro ⟨mid, faults, first, second, hmembers, hsaid, rfl⟩
    obtain ⟨rounds, hplaces, hrounds, rfl, rfl, rfl⟩ := (run_closeMembers_iff rfl).1 hmembers
    obtain ⟨rfl, rfl, rfl⟩ := hverdict.1 hsaid
    exact ⟨rounds, hplaces, hrounds, List.append_nil _, rfl, rfl⟩
  · rintro ⟨rounds, hplaces, hrounds, rfl, rfl, rfl⟩
    exact ⟨_, _, _, [], (run_closeMembers_iff rfl).2 ⟨rounds, hplaces, hrounds, rfl, rfl, rfl⟩,
      hverdict.2 ⟨rfl, rfl, rfl⟩, (List.append_nil _).symm⟩

end Closing

/-! ## Machines that mind their own business -/

/-- Surroundings in which every reply to a session depends on what this session exchanged before,
and on nothing that was exchanged for another one. -/
def apart
    (replies : Nat → List Session.Exchange → (r : Session.Request) → Session.interface.Reply r) :
    List Exchange → (r : Request) → interface.Reply r
  | past, .member index request => replies index (ofMember index past) request
  | _, .report _ => ()

section Apart

variable {replies : Nat → List Session.Exchange → (r : Session.Request) → Session.interface.Reply r}
  {past exchanges : List Exchange}

/-- In surroundings that keep sessions `apart`, what a session exchanged is what it would have
exchanged alone. -/
theorem answered_ofMember (index : Nat) (h : Program.Answered (apart replies) past exchanges) :
    Program.Answered (replies index) (ofMember index past) (ofMember index exchanges) := by
  induction exchanges generalizing past with
  | nil => exact trivial
  | cons x rest ih =>
    obtain ⟨hreply, hrest⟩ := h
    have hlater := ih hrest
    rw [ofMember_append] at hlater
    rw [← List.singleton_append, ofMember_append]
    cases hmember : x.member? index with
    | none =>
      have hnone : ofMember index [x] = [] := List.filterMap_cons_none hmember
      rw [hnone, List.append_nil] at hlater
      rw [hnone]
      exact hlater
    | some inner =>
      obtain rfl := Exchange.eq_ofMember_of_member? hmember
      rw [show [Exchange.ofMember index inner] = [inner].map (Exchange.ofMember index) from rfl,
        ofMember_map_ofMember] at hlater ⊢
      exact ⟨hreply, hlater⟩

/-- The `Round`s of different members are told apart by their places, and there is nothing at any
other place. -/
theorem ofMember_rounds {rounds : List Round}
    (hplaces : (rounds.map fun round => round.member.index).Nodup) :
    (∀ round ∈ rounds, ofMember round.member.index (rounds.flatMap Round.exchanged)
        = round.exchanges) ∧
      ∀ place, place ∉ rounds.map (fun round => round.member.index) →
        ofMember place (rounds.flatMap Round.exchanged) = [] := by
  have hwarning (place : Nat) (round : Round) : ofMember place round.warning = [] := by
    rw [Round.warning]
    split <;> rfl
  refine ofMember_flatMap (fun round => ?_) (fun round place hplace => ?_) hplaces
  · rw [Round.exchanged, ofMember_append, ofMember_map_ofMember, hwarning, List.append_nil]
  · rw [Round.exchanged, ofMember_append, ofMember_map_of_ne (Ne.symm hplace), hwarning]
    rfl

end Apart

/-! ## Afterwards -/

section Afterwards

variable {timeout : Option Timeout} {group last : Group} {exchanges : List Exchange}

theorem started_of_touch (h : Touch group exchanges last) (hstarted : group.started = true) :
    last.started = true := by
  cases h with
  | starts hrun => exact started_of_run_start hrun
  | connects hrun =>
    obtain ⟨rfl, -⟩ := run_connectAll hrun
    exact hstarted
  | closes hrun =>
    obtain ⟨_, -, -, -, rfl, -⟩ := run_close_iff.1 hrun
    exact hstarted
  | usesMember | usesDeparted => exact hstarted

theorem started_of_touches (h : Touches group exchanges last) (hstarted : group.started = true) :
    last.started = true := by
  induction h with
  | nil => exact hstarted
  | cons htouch _ ih => exact ih (started_of_touch htouch hstarted)

/-- Only its first `start` puts sessions into a group. -/
theorem members_of_touch (h : Touch group exchanges last) (hmembers : group.members = [])
    (hstarted : group.started = true ∨ last.started = false) : last.members = [] := by
  cases h with
  | starts hrun =>
    rcases hstarted with hstarted | hfresh
    · obtain ⟨-, rfl, -⟩ := (run_start_of_started_iff hstarted).1 hrun
      exact hmembers
    · exact absurd (hfresh.symm.trans (started_of_run_start hrun)) nofun
  | connects hrun =>
    obtain ⟨rfl, -⟩ := run_connectAll hrun
    exact hmembers
  | closes hrun =>
    obtain ⟨_, -, -, -, rfl, -⟩ := run_close_iff.1 hrun
    rfl
  | usesMember hmember =>
    rw [hmembers] at hmember
    exact absurd hmember nofun
  | usesDeparted => exact hmembers

theorem members_of_touches (h : Touches group exchanges last) (hmembers : group.members = [])
    (hstarted : group.started = true ∨ last.started = false) : last.members = [] := by
  induction h with
  | nil => exact hmembers
  | @cons group mid last first second htouch hrest ih =>
    rcases hstarted with hstarted | hfresh
    · have hmid := started_of_touch htouch hstarted
      exact ih (members_of_touch htouch hmembers (.inl hstarted)) (.inl hmid)
    · have hmid : mid.started = false := by
        refine Bool.eq_false_iff.2 fun hmid => ?_
        exact absurd (hfresh.symm.trans (started_of_touches hrest hmid)) nofun
      exact ih (members_of_touch htouch hmembers (.inr hmid)) (.inr hfresh)

/-- A `close` of a group without members does nothing at all. -/
theorem run_close_of_members_nil_iff {result : Except Fault Unit} (hmembers : group.members = []) :
    Attempt.Run (close timeout) group exchanges last result ↔
      exchanges = [] ∧ last = group ∧ result = .ok () := by
  have hsame : { group with
      members := [], departed := group.departed ++ [].map Round.departed } = group := by
    rw [List.map_nil, List.append_nil, ← hmembers]
  rw [run_close_iff, hmembers]
  constructor
  · rintro ⟨rounds, hrounds, -, rfl, rfl, rfl⟩
    obtain rfl := List.map_eq_nil_iff.1 hrounds
    exact ⟨rfl, hsame, rfl⟩
  · rintro ⟨rfl, rfl, rfl⟩
    exact ⟨[], rfl, fun _ h => absurd h List.not_mem_nil, rfl, hsame.symm, rfl⟩

end Afterwards

/-- A round went as if its session had been closed alone, by surroundings that reply with `replies`:
`own` says that nothing else was exchanged for this session, and `played` that alone it exchanges
the same, is left the same, and ends the same. -/
structure Round.Alone (round : Round) (timeout : Option Timeout)
    (replies : List Session.Exchange → (r : Session.Request) → Session.interface.Reply r)
    (past exchanges : List Exchange) : Prop where
  own : ofMember round.member.index exchanges = round.exchanges
  played : (Session.close timeout).outcome.play replies (ofMember round.member.index past)
    round.member.session = (round.exchanges, round.after, round.result)

/-- What `close` comes to for a group whose surroundings reply with `answer` after `past`. There is
one round for each member, `in_order`, and each is `held` with the timeout of the group. By `played`
the rounds are all that is exchanged, no member is left, and the result is the `verdict` on the
rounds that failed. Where the machines mind their own business, by `isolated`, each round goes as if
its session had been closed alone. Whatever is done after that, by `later_idle`, another `close`
asks for nothing and completes, unless the group had not been started before and is started in
between. -/
structure Emptied (timeout : Option Timeout) (group : Group)
    (answer : List Exchange → (r : Request) → interface.Reply r) (past : List Exchange)
    (rounds : List Round) : Prop where
  in_order : rounds.map Round.member = group.members
  held : ∀ round ∈ rounds, round.Held timeout
  played : (close timeout).outcome.play answer past group
    = (rounds.flatMap Round.exchanged,
      { group with members := [], departed := group.departed ++ rounds.map Round.departed },
      verdict (rounds.filterMap Round.fault?))
  isolated : ∀ replies, answer = apart replies → (group.members.map Member.index).Nodup →
    ∀ round ∈ rounds,
      round.Alone timeout (replies round.member.index) past (rounds.flatMap Round.exchanged)
  later_idle : ∀ more mid, Touches
      { group with members := [], departed := group.departed ++ rounds.map Round.departed } more
      mid →
    group.started = true ∨ mid.started = false →
    ∀ limit asked gone ending, Attempt.Run (close limit) mid asked gone ending ↔
      asked = [] ∧ gone = mid ∧ ending = .ok ()

/-- **Closing a group is complete, and nobody is held up by another.** Whatever the surroundings
reply, `close` comes to one round for each member, as `Emptied` has it. -/
theorem close_complete_and_isolated (timeout : Option Timeout) (group : Group)
    (answer : List Exchange → (r : Request) → interface.Reply r) (past : List Exchange) :
    ∃ rounds, Emptied timeout group answer past rounds := by
  generalize hplay : (close timeout).outcome.play answer past group = played
  obtain ⟨exchanges, last, result⟩ := played
  have hrun : Attempt.Run (close timeout) group exchanges last result := by
    have hrun := Program.run_play answer past (close timeout).outcome group
    rw [hplay] at hrun
    exact hrun
  have hanswered : Program.Answered answer past exchanges := by
    have hanswered := Program.answered_play answer past (close timeout).outcome group
    rw [hplay] at hanswered
    exact hanswered
  obtain ⟨rounds, hmembers, hrounds, rfl, rfl, rfl⟩ := run_close_iff.1 hrun
  refine ⟨rounds, hmembers, hrounds, hplay, ?_, fun more mid htouches hstarted limit _ _ _ => ?_⟩
  · rintro replies rfl hplaces round hround
    rw [← hmembers, List.map_map] at hplaces
    have hown := (ofMember_rounds hplaces).1 round hround
    refine ⟨hown, Program.play_eq_of_run (hrounds round hround) ?_⟩
    rw [← hown]
    exact answered_ofMember round.member.index hanswered
  · exact run_close_of_members_nil_iff (members_of_touches htouches rfl hstarted)

/-- Everything is granted, but the process on the first machine does not exit in time. -/
def firstStalls : Nat → List Session.Exchange → (r : Session.Request) → Session.interface.Reply r
  | 0, _, .control (.communicate ..) => .error (.timedOut "process 4242 to exit" (.ofNat 20))
  | _, _, r => Session.granted r

/-- The first of two sessions is given up after its wait, and the second is closed as it would have
been alone. Then `close` has nothing left to do. -/
theorem second_closed_after_expiry :
    ∃ (first second : Round) (exchanges : List Exchange) (gone : Group),
      (close (some (.ofNat 20))).outcome.play (apart firstStalls) [] pair
        = (exchanges, gone, .error (.timedOut "process 4242 to exit" (.ofNat 20))) ∧
      gone.members = [] ∧ gone.departed = [first.departed, second.departed] ∧
      first.after.machine.isSome = true ∧ second.after.holdsResources = false ∧
      (Session.close (some (.ofNat 20))).outcome.play (firstStalls 1) [] Session.briefReady
        = (ofMember 1 exchanges, second.after, .ok ()) ∧
      Attempt.Run (close none) gone [] gone (.ok ()) := by
  obtain ⟨rounds, hclosed⟩ :=
    close_complete_and_isolated (some (.ofNat 20)) pair (apart firstStalls) []
  have hplay := hclosed.played
  obtain ⟨first, rest, rfl, hfirst, hrest⟩ := List.map_eq_cons_iff.1 hclosed.in_order
  obtain ⟨second, nothing, rfl, hsecond, hnothing⟩ := List.map_eq_cons_iff.1 hrest
  obtain rfl := List.map_eq_nil_iff.1 hnothing
  have halone := hclosed.isolated firstStalls rfl (by decide)
  have hfirst_alone := (halone first List.mem_cons_self).played
  obtain ⟨hown, hsecond_alone⟩ := halone second (List.mem_cons_of_mem _ List.mem_cons_self)
  rw [hfirst] at hfirst_alone
  rw [hsecond] at hown hsecond_alone
  refine ⟨first, second, [first, second].flatMap Round.exchanged, _, hplay.trans ?_, rfl, rfl, ?_,
    ?_, hsecond_alone.trans ?_,
    (hclosed.later_idle [] _ (.nil _) (.inl rfl) none [] _ _).2 ⟨rfl, rfl, rfl⟩⟩
  · have hverdict : verdict ([first, second].filterMap Round.fault?)
        = .error (.timedOut "process 4242 to exit" (.ofNat 20)) :=
      (congrArg (fun played => played.2.2) hplay).symm
    rw [hverdict]
  · exact congrArg (fun played => played.2.1.machine.isSome) hfirst_alone.symm
  · exact congrArg (fun played => played.2.1.holdsResources) hsecond_alone.symm
  · have hresult : second.result = .ok () :=
      (congrArg (fun played => played.2.2) hsecond_alone).symm
    rw [hresult, hown]

/-- A new group is closed, which asks for nothing, and is started then: the next `close` asks the
machine of its session for something, and does not complete. -/
theorem closed_again_after_late_start :
    ∃ starting asked gone fault, Attempt.Run (close none) brief [] brief (.ok ()) ∧
      Touches brief starting briefReady ∧
      Attempt.Run (close (some (.ofNat 20))) briefReady asked gone (.error fault) ∧
      ∃ x ∈ asked, ∃ request, x.request = .member 0 request ∧ request.IsRemote := by
  obtain ⟨starting, hstart⟩ := run_start_brief
  have hstarts : Touches brief (starting ++ []) briefReady :=
    .cons (.starts hstart) (.nil briefReady)
  obtain ⟨rest, hclose⟩ := Session.run_close_terminating
  let round : Round := {
    member := ⟨0, Session.briefReady⟩
    exchanges := Session.Exchange.terminate (.process Session.briefRunning) (.ok ()) :: rest
    after := Session.briefReady.clearedThrough .process
    result := .error (.timedOut "process 4242 to exit" (.ofNat 20)) }
  have hheld : round.Held (some (.ofNat 20)) := hclose
  refine ⟨starting ++ [], _, _, _, (run_close_of_members_nil_iff rfl).2 ⟨rfl, rfl, rfl⟩, hstarts,
    run_close_iff.2 ⟨[round], rfl, List.forall_mem_singleton.2 hheld, rfl, rfl, rfl⟩, ?_⟩
  exact ⟨_, List.mem_cons_self, _, rfl, trivial⟩

end Group

end Outpost

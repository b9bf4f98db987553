import Outpost.Proofs.Group.Closing

/-!
# How far a start of a group gets

The members of a group that was started are the sessions of its first machines: of all of them, or
of those up to the first whose session failed to start, which is a member as well. The machines
behind it are asked for nothing. Later starts are refused, and closing the group lets go of what the
sessions of these machines obtained, on these machines and no others
(`Group.start_reaches_first_failure`).

## Contents

* `Group.Launch.after_of_ended`: what a start leaves of a session.
* `Group.Launch.LetGo`, `Group.letGo_of_run_close`: what closing releases of a launch.
* `Group.Reached`: how far a start got.
* `Group.start_reaches_first_failure`.
-/

namespace Outpost

namespace Group

section Extent

variable {surroundings : Surroundings} {timeout : Option Timeout} {options : Options}
  {launches : List Launch} {launch : Launch}

/-! ## Launches -/

/-- A session that was just made is started by its `Launch`: it is ready or failed then, and has its
machine. -/
theorem Launch.after_of_ended {ending : Except Fault Unit}
    (h : launch.Ended surroundings options ending) :
    launch.after.state = (if ending.isOk then .ready else .failed) ∧
      launch.after.machine = some launch.machine := by
  have hmachine : launch.after.machine = some launch.machine :=
    (Session.acquired_of_run_start rfl rfl rfl rfl h).machine
  obtain ⟨mid, first, -, -, hafter⟩ := Session.announced_of_run_start rfl h
  exact ⟨congrArg Session.state hafter, hmachine⟩

/-! ## Closing them -/

/-- What a round of closing releases of a `Launch`: something in any case; what the start obtained,
in the order of closing, up to the wait that expired if one did, and with the exceptions that come
from that; and all of it if the round completes. -/
structure Launch.LetGo (launch : Launch) (closing : List Session.Exchange) (left : Session)
    (ending : Except Fault Unit) : Prop where
  attempted : Session.attempts closing ≠ []
  balance : Session.attempts closing ++ Session.duties left
    = Session.obligations (Session.expired closing) launch.exchanges
  completed : ending = .ok () →
    Session.attempts closing = Session.obligations [] launch.exchanges ∧
      left.holdsResources = false

theorem Launch.letGo_of_run_close {input : Options.Input} {begun ending : Except Fault Unit}
    {closing : List Session.Exchange} {left : Session}
    (hresolve : Options.resolve input = .ok options)
    (hstart : launch.Ended surroundings options begun)
    (hclose : Attempt.Run (Session.close timeout) launch.after closing left ending) :
    launch.LetGo closing left ending := by
  have hcreate : Attempt.Run
      (Session.create launch.machine input : Attempt Unit Session.interface Session) ()
      (launch.setup options) () (.ok (launch.session options)) :=
    Session.run_create_iff.2 ⟨rfl, .inr ⟨options, launch.id, hresolve, rfl, rfl⟩⟩
  have hbalance := (Session.settles_of_run_close hclose).balance
  rw [(Session.duties_of_run_start hcreate hstart).1, Session.dueAfter_obligations] at hbalance
  obtain ⟨hexpired, hcount⟩ := Session.expired_of_run_close hclose
  have hcompleted (hok : ending = .ok ()) :
      Session.attempts closing = Session.obligations [] launch.exchanges ∧
        left.holdsResources = false := by
    subst hok
    obtain rfl := Session.last_eq_of_run_close hclose
    rw [List.length_eq_zero_iff.1 hcount] at hbalance
    exact ⟨(List.append_nil _).symm.trans hbalance, rfl⟩
  refine ⟨fun hnone => ?_, hbalance, hcompleted⟩
  cases ending with
  | ok =>
    -- the machine is always among what is released
    have hmachine : Session.Duty.machineSession ∈ Session.obligations [] launch.exchanges :=
      List.mem_append_right _ (List.mem_append_right _ List.mem_cons_self)
    rw [← (hcompleted rfl).1, hnone] at hmachine
    exact List.not_mem_nil hmachine
  | error =>
    -- the wait that expired is one that was attempted
    rw [hnone] at hexpired
    rw [List.sublist_nil.1 hexpired] at hcount
    exact absurd hcount nofun

/-- A `close` of a group whose members are those of its launches closes each of them, at its place,
and asks for nothing at any other place. -/
theorem letGo_of_run_close {group last : Group} {closing : List Exchange}
    {ending : Except Fault Unit} (hresolve : Options.resolve group.options.spread = .ok options)
    (hindices : launches.map Launch.index = List.range launches.length)
    (hended : ∀ launch ∈ launches, ∃ begun, launch.Ended surroundings options begun)
    (hmembers : group.members = launches.map Launch.member)
    (h : Attempt.Run (close timeout) group closing last ending) :
    last.members = [] ∧ (∀ place, launches.length ≤ place → ofMember place closing = []) ∧
      ∀ launch ∈ launches, ∃ left ended, ⟨launch.index, left⟩ ∈ last.departed ∧
        Attempt.Run (Session.close timeout) launch.after (ofMember launch.index closing) left
          ended ∧
        launch.LetGo (ofMember launch.index closing) left ended := by
  obtain ⟨rounds, hrounds, hheld, rfl, rfl, rfl⟩ := run_close_iff.1 h
  rw [hmembers] at hrounds
  have hplaces : (rounds.map fun round => round.member.index) = List.range launches.length := by
    have hplaces := congrArg (List.map Member.index) hrounds
    rw [List.map_map, List.map_map] at hplaces
    exact hplaces.trans hindices
  obtain ⟨hinside, houtside⟩ := ofMember_rounds (hplaces ▸ List.nodup_range)
  refine ⟨rfl, fun place hplace => houtside place ?_, fun launch hlaunch => ?_⟩
  · rw [hplaces, List.mem_range]
    exact Nat.not_lt.2 hplace
  · have hmember : launch.member ∈ rounds.map Round.member := by
      rw [hrounds]
      exact List.mem_map_of_mem hlaunch
    obtain ⟨round, hround, hsame⟩ := List.mem_map.1 hmember
    have hindex : round.member.index = launch.index := congrArg Member.index hsame
    have hown := hinside round hround
    rw [hindex] at hown
    have hclosed : Attempt.Run (Session.close timeout) launch.after round.exchanges round.after
        round.result := by
      have hclosed := hheld round hround
      rwa [Round.Held, hsame] at hclosed
    obtain ⟨begun, hstart⟩ := hended launch hlaunch
    rw [hown]
    refine ⟨round.after, round.result, List.mem_append_right _ (List.mem_map.2 ⟨round, hround, ?_⟩),
      hclosed, Launch.letGo_of_run_close hresolve hstart hclosed⟩
    rw [Round.departed, hsame]
    rfl

/-! ## A prefix of the machines -/

/-- How far a start of a group got: there are `launches` on its first machines, in their order. All
of them succeeded, unless the start failed; then the last failed, with the fault of the start. -/
structure Reached (surroundings : Surroundings) (options : Options) (machines : List Machine)
    (launches : List Launch) (exchanges : List Exchange) (last : Group)
    (result : Except Fault Unit) : Prop where
  places : launches.map Launch.place <+: machines.zipIdx
  members : last.members = launches.map Launch.member
  exchanged : exchanges = launches.flatMap (Launch.exchanged options)
  own : ∀ launch ∈ launches, launch.after.machine = some launch.machine ∧
    ofMember launch.index exchanges = launch.setup options ++ launch.exchanges
  behind : ∀ place, launches.length ≤ place → ofMember place exchanges = []
  succeeded : result = .ok () → launches.length = machines.length ∧
    ∀ launch ∈ launches, launch.Ended surroundings options (.ok ()) ∧ launch.after.state = .ready
  failed : ∀ fault, result = .error fault → ∃ front failed, launches = front ++ [failed] ∧
    (∀ launch ∈ front, launch.Ended surroundings options (.ok ()) ∧ launch.after.state = .ready) ∧
    failed.Ended surroundings options (.error fault) ∧ failed.after.state = .failed

/-- With options that `resolve`, starting gets so far as `Reached` says. -/
theorem reached_of_run_startFrom {machines : List Machine} {group last : Group}
    {exchanges : List Exchange} {result : Except Fault Unit}
    (hresolve : Options.resolve group.options.spread = .ok options) (hmembers : group.members = [])
    (h : Attempt.Run (startFrom surroundings machines.zipIdx) group exchanges last result) :
    last.options = group.options ∧ ∃ launches,
      (∀ launch ∈ launches, ∃ ending, launch.Ended surroundings options ending) ∧
      Reached surroundings options machines launches exchanges last result := by
  obtain ⟨launches, results, hturns, rfl, rfl, rfl⟩ := (run_startFrom_iff hresolve).1 h
  obtain ⟨hinside, houtside⟩ := ofMember_launches (indices_eq_range hturns.isPrefix)
  have hready {front : List Launch} {results : List Unit} (hfront : List.Forall₂
      (fun launch _ => launch.Ended surroundings options (.ok ())) front results) :
      ∀ launch ∈ front, launch.Ended surroundings options (.ok ()) ∧
        launch.after.state = .ready := by
    induction hfront with
    | nil => exact fun _ hlaunch => absurd hlaunch List.not_mem_nil
    | cons hended _ ih =>
      exact List.forall_mem_cons.2 ⟨⟨hended, (Launch.after_of_ended hended).1⟩, ih⟩
  refine ⟨rfl, launches, hturns.forall_taken, ?_⟩
  constructor
  case places => exact hturns.isPrefix
  case members =>
    rw [hmembers]
    rfl
  case exchanged => rfl
  case own =>
    intro launch hlaunch
    obtain ⟨ending, hended⟩ := hturns.forall_taken launch hlaunch
    exact ⟨(Launch.after_of_ended hended).2, hinside launch hlaunch⟩
  case behind => exact houtside
  case succeeded =>
    intro hok
    cases results with
    | error fault => exact absurd hok nofun
    | ok results =>
      obtain ⟨hall, htaken⟩ := hturns.of_ok
      have hlength := congrArg List.length hall
      rw [List.length_map, List.length_zipIdx] at hlength
      exact ⟨hlength, hready htaken⟩
  case failed =>
    intro fault hfault
    cases results with
    | ok results => exact absurd hfault nofun
    | error fault' =>
      obtain rfl := Except.error.inj hfault
      obtain ⟨front, failed, results, rfl, htaken, hfailed⟩ := hturns.of_error
      exact ⟨front, failed, rfl, hready htaken, hfailed, (Launch.after_of_ended hfailed).1⟩

/-- **A start reaches a prefix of the machines.** After a group was started by `start` its members
are the sessions of its first machines, in their order, up to the first whose session failed to
start; all before that are ready, and the fault is the one of this session. The machines behind it
are asked for nothing. With options that do not `resolve` there are no members and no machine is
asked for anything.

Nothing starts the group again, whatever is done with it. If it is closed next, then each of its
members lets go of what it obtained, and the other machines are asked for nothing then either. -/
theorem start_reaches_first_failure {machines : List Machine} {input : Options.Input} {last : Group}
    {exchanges : List Exchange} {result : Except Fault Unit}
    (h : Attempt.Run (start surroundings) { machines, options := input } exchanges last result) :
    (∀ fault, Options.resolve input.spread = .error fault →
      exchanges = [] ∧ last.members = [] ∧ (machines ≠ [] → result = .error fault)) ∧
    (∀ options, Options.resolve input.spread = .ok options →
      ∃ launches, Reached surroundings options machines launches exchanges last result ∧
        ∀ timeout closing gone ending, Attempt.Run (close timeout) last closing gone ending →
          gone.members = [] ∧ (∀ place, launches.length ≤ place → ofMember place closing = []) ∧
          ∀ launch ∈ launches, ∃ left ended, ⟨launch.index, left⟩ ∈ gone.departed ∧
            Attempt.Run (Session.close timeout) launch.after (ofMember launch.index closing) left
              ended ∧
            launch.LetGo (ofMember launch.index closing) left ended) ∧
    ∀ more mid, Touches last more mid → ∀ again asked next ending,
      Attempt.Run (start again) mid asked next ending ↔ asked = [] ∧ next = mid ∧
        ending = .error (.state "DeploymentGroup.start() may only be called once" none) := by
  have hfrom : Attempt.Run (startFrom surroundings machines.zipIdx)
      { machines, options := input, started := true } exchanges last result :=
    (run_start_of_fresh_iff rfl).1 h
  refine ⟨fun fault hresolve => ?_, fun options hresolve => ?_, fun more mid htouches again _ _ _ =>
    run_start_of_started_iff (started_of_touches htouches (started_of_run_start h))⟩
  · obtain ⟨rfl, rfl, hfault⟩ := run_startFrom_of_unresolved hresolve hfrom
    exact ⟨rfl, rfl, fun hsome => hfault (List.zipIdx_eq_nil_iff.not.2 hsome)⟩
  · obtain ⟨hoptions, launches, hended, hreached⟩ := reached_of_run_startFrom hresolve rfl hfrom
    have hlast : Options.resolve last.options.spread = .ok options := by
      rw [hoptions]
      exact hresolve
    exact ⟨launches, hreached, fun timeout closing gone ending hclose => letGo_of_run_close hlast
      (indices_eq_range hreached.places) hended hreached.members hclose⟩

end Extent

/-! ## A group to go by -/

/-- The session of `Session.brief`, once it could not copy its code tree. -/
def refusedStaging : Session :=
  { Session.brief with tempDirectory := some ⟨"/tmp/d-1"⟩, state := .failed }

/-- What `refusedStaging` reports. -/
def refusal : Fault := Session.stagingFault "undefined" (.ofMessage "disk full")

theorem run_start_refused : ∃ exchanges,
    Attempt.Run (Session.start ⟨"20.11.1", none⟩) Session.brief exchanges refusedStaging
      (.error refusal) := by
  refine ⟨[⟨.machine .tempDirectory, .ok ⟨"/tmp/d-1"⟩⟩,
    ⟨.machine (.upload Settings.codeDirectory "/tmp/d-1"), .error (.ofMessage "disk full")⟩], ?_⟩
  refine .read (.write (.read (.read (.ask _ ?_))))
  refine .read (.write (.ask _ ?_))
  exact .read (.write (.read (.done _ _)))

/-- Of three machines the second cannot take the code tree. Closing the group then has something to
release on the first two, and nothing on the third. -/
theorem second_of_three_fails :
    ∃ exchanges last,
      Attempt.Run (start ⟨"20.11.1", none⟩)
        { machines := List.replicate 3 ⟨none, .direct⟩, options := Session.briefInput } exchanges
        last (.error refusal) ∧
      (last.members.map fun member => (member.index, member.session.state))
        = [(0, .ready), (1, .failed)] ∧
      ofMember 2 exchanges = [] ∧
      (∀ closing gone ending, Attempt.Run (close none) last closing gone ending →
        Session.attempts (ofMember 0 closing) ≠ [] ∧ Session.attempts (ofMember 1 closing) ≠ [] ∧
          ofMember 2 closing = []) ∧
      Attempt.Run (start ⟨"20.11.1", none⟩) last [] last
        (.error (.state "DeploymentGroup.start() may only be called once" none)) := by
  obtain ⟨first, hfirst⟩ := Session.run_start_brief
  obtain ⟨second, hsecond⟩ := run_start_refused
  let machine : Machine := ⟨none, .direct⟩
  let surroundings : Surroundings := ⟨"20.11.1", none⟩
  let starting : Group :=
    { machines := List.replicate 3 machine, options := Session.briefInput, started := true }
  let ready : Launch := ⟨machine, 0, "d-1", first, Session.briefReady⟩
  let failed : Launch := ⟨machine, 1, "d-1", second, refusedStaging⟩
  have hresolve : Options.resolve starting.options.spread = .ok Session.brief.options :=
    Session.resolve_briefInput
  have hready : ready.Ended surroundings Session.brief.options (.ok ()) := hfirst
  have hfailed : failed.Ended surroundings Session.brief.options (.error refusal) := hsecond
  have hturns : InTurn Launch.place (Launch.Ended surroundings Session.brief.options)
      [(machine, 0), (machine, 1), (machine, 2)] [ready, failed] (.error refusal) :=
    .next hready (.failed hfailed)
  have hrun : Attempt.Run (start surroundings) { starting with started := false }
      ([ready, failed].flatMap (Launch.exchanged Session.brief.options))
      { starting with members := [ready.member, failed.member] } (.error refusal) :=
    (run_start_of_fresh_iff rfl).2
      ((run_startFrom_iff hresolve).2 ⟨[ready, failed], _, hturns, rfl, rfl, rfl⟩)
  obtain ⟨-, hreached, hagain⟩ := start_reaches_first_failure hrun
  obtain ⟨launches, hlaunches, hclosing⟩ := hreached _ hresolve
  have hmembers : [ready, failed].map Launch.member = launches.map Launch.member :=
    hlaunches.members
  have hcount : launches.length = 2 := by
    have hlength := congrArg List.length hmembers
    rwa [List.length_map, List.length_map, eq_comm] at hlength
  refine ⟨_, _, hrun, rfl, hlaunches.behind 2 (Nat.le_of_eq hcount),
    fun closing gone ending hclose => ?_,
    (hagain [] _ (.nil _) surroundings [] _ _).2 ⟨rfl, rfl, rfl⟩⟩
  obtain ⟨-, hbehind, hletGo⟩ := hclosing _ _ _ _ hclose
  have hattempted (member : Member) (hmember : member ∈ [ready, failed].map Launch.member) :
      Session.attempts (ofMember member.index closing) ≠ [] := by
    rw [hmembers] at hmember
    obtain ⟨launch, hlaunch, rfl⟩ := List.mem_map.1 hmember
    obtain ⟨_, _, -, -, hletGo⟩ := hletGo launch hlaunch
    exact hletGo.attempted
  exact ⟨hattempted ready.member List.mem_cons_self,
    hattempted failed.member (List.mem_cons_of_mem _ List.mem_cons_self),
    hbehind 2 (Nat.le_of_eq hcount)⟩

end Group

end Outpost

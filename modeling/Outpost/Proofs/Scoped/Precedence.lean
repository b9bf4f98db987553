import Outpost.Proofs.Scoped

/-!
# Which fault a scope ends with

A scope passes on the fault of its start or else of its work, whatever closing comes to, and the
fault of closing only where there is no other. Its work is done once, behind a start that succeeded.
Then it closes, once: a scope for a session the session, and a scope for a group every session that
it has made, the one that failed to start included (`first_fault_wins`).

What the work asks for in between is its own affair as long as it closes nothing. For a group the
invariant over that is `Group.Onward`: every member stays at its place, and its session goes on from
where its start has left it.

## Contents

* `Session.Visited`, `Group.Visit`, `Group.Visits`: what may be asked for without closing anything.
* `Session.ClosesNothing`, `Group.ClosesNothing`: work that asks for nothing else.
* `Group.Onward`, and its preservation.
* `first_fault_wins`.
-/

namespace Outpost

/-! ## Work that closes nothing -/

namespace Session

/-- Uses of a `Session` none of which is a round of closing, with all that is exchanged for them. -/
def Visited (session : Session) (exchanges : List Exchange) (last : Session) : Prop :=
  ∃ moments, Life session moments last ∧ (∀ moment ∈ moments, moment.use.isClose = false) ∧
    exchanges = moments.flatMap Moment.exchanges

section Visited

variable {session mid last : Session} {exchanges later : List Exchange}

theorem Visited.refl (session : Session) : Visited session [] session :=
  ⟨[], .nil session, fun _ h => absurd h List.not_mem_nil, rfl⟩

/-- A single use by a `Moment`. -/
theorem Visited.of_moment {moment : Moment} (hopen : moment.use.isClose = false)
    (h : Attempt.Run moment.use.attempt session moment.exchanges moment.after moment.result) :
    Visited session moment.exchanges moment.after :=
  ⟨[moment], .cons h (.nil _), List.forall_mem_singleton.2 hopen, (List.flatMap_singleton ..).symm⟩

theorem Visited.trans (h : Visited session exchanges mid) (hlater : Visited mid later last) :
    Visited session (exchanges ++ later) last := by
  obtain ⟨moments, hlife, hopen, rfl⟩ := h
  obtain ⟨others, hothers, hnone, rfl⟩ := hlater
  refine ⟨moments ++ others, hlife.append hothers, fun moment hmoment => ?_,
    List.flatMap_append.symm⟩
  exact (List.mem_append.1 hmoment).elim (hopen moment) (hnone moment)

end Visited

/-- The `work` does nothing to the session of its scope but to use it, and does not close it. -/
def ClosesNothing {J : Interface} {α : Type} (e : Interface.Embedding interface J)
    (work : Attempt (Option Session) J α) : Prop :=
  ∀ ⦃session exchanges held result⦄, Attempt.Run work (some session) exchanges held result →
    ∃ (carried : List e.Carried) (last : Session), (carried.map (·.outer)).Sublist exchanges ∧
      held = some last ∧ Visited session (carried.map (·.inner)) last

/-- Work that fails at once, by `throw`. -/
theorem closesNothing_throw {J : Interface} {α : Type} {e : Interface.Embedding interface J}
    {fault : Fault} : ClosesNothing e (throw fault : Attempt (Option Session) J α) := by
  intro session exchanges held result h
  obtain ⟨rfl, rfl, -⟩ := Attempt.run_throw_iff.1 h
  exact ⟨[], session, List.Sublist.refl _, rfl, .refl session⟩

end Session

namespace Group

/-- What may happen to a `Group` while nothing of it is closed. -/
inductive Visit : Group → List Exchange → Group → Prop
  | starts {group last : Group} {surroundings : Surroundings} {exchanges : List Exchange}
      {result : Except Fault Unit} :
      Attempt.Run (start surroundings) group exchanges last result → Visit group exchanges last
  | connects {group last : Group} {settings : Connection.Settings} {exchanges : List Exchange}
      {result : Except Fault (List Connection)} :
      Attempt.Run (connectAll settings) group exchanges last result → Visit group exchanges last
  | usesMember {group : Group} {position : Nat} {member : Member} {moment : Session.Moment} :
      group.members[position]? = some member → moment.use.isClose = false →
      Attempt.Run moment.use.attempt member.session moment.exchanges moment.after moment.result →
      Visit group (moment.exchanges.map (.ofMember member.index))
        (setSession position moment.after group)

/-- Any number of visits, one after the other: each is a `Visit`. -/
inductive Visits : Group → List Exchange → Group → Prop
  | nil (group : Group) : Visits group [] group
  | cons {group mid last : Group} {first second : List Exchange} :
      Visit group first mid → Visits mid second last → Visits group (first ++ second) last

/-- The `work` does nothing to the group of its scope but what closes nothing, by `Visits`. -/
def ClosesNothing {J : Interface} {α : Type} (e : Interface.Embedding interface J)
    (work : Attempt Group J α) : Prop :=
  ∀ ⦃group exchanges last result⦄, Attempt.Run work group exchanges last result →
    ∃ carried : List e.Carried, (carried.map (·.outer)).Sublist exchanges ∧
      Visits group (carried.map (·.inner)) last

theorem closesNothing_throw {J : Interface} {α : Type} {e : Interface.Embedding interface J}
    {fault : Fault} : ClosesNothing e (throw fault : Attempt Group J α) := by
  intro group exchanges last result h
  obtain ⟨rfl, rfl, -⟩ := Attempt.run_throw_iff.1 h
  exact ⟨[], List.Sublist.refl _, .nil last⟩

/-! ## Members that go on -/

/-- A `Member` at the same place, with its session used but not closed. -/
def Member.GoesOn (member next : Member) : Prop :=
  next.index = member.index ∧
    ∃ exchanges, Session.Visited member.session exchanges next.session

/-- A `Group` that was started goes on without losing or gaining a session. -/
structure Onward (group last : Group) : Prop where
  started : last.started = true
  departed : last.departed = group.departed
  members : List.Forall₂ Member.GoesOn group.members last.members

section Onward

variable {group mid last : Group} {exchanges : List Exchange}

theorem Member.GoesOn.refl (member : Member) : member.GoesOn member :=
  ⟨rfl, [], .refl member.session⟩

theorem Member.GoesOn.trans {member next other : Member} (h : member.GoesOn next)
    (hother : next.GoesOn other) : member.GoesOn other := by
  obtain ⟨hplace, exchanges, hvisited⟩ := h
  obtain ⟨hsame, later, hlater⟩ := hother
  exact ⟨hsame.trans hplace, exchanges ++ later, hvisited.trans hlater⟩

theorem Onward.refl (hstarted : group.started = true) : Onward group group :=
  ⟨hstarted, rfl, List.forall₂_same.2 fun member _ => .refl member⟩

theorem Onward.trans (h : Onward group mid) (hlater : Onward mid last) : Onward group last where
  started := hlater.started
  departed := hlater.departed.trans h.departed
  members := by
    refine List.forall₂_iff_get.2 ⟨h.members.length_eq.trans hlater.members.length_eq, ?_⟩
    intro position hfirst hlast
    have hmid : position < mid.members.length := h.members.length_eq ▸ hfirst
    exact (h.members.get hfirst hmid).trans (hlater.members.get hmid hlast)

/-- Members that go on by `GoesOn` are still at their places. -/
theorem places_of_goesOn {members others : List Member}
    (h : List.Forall₂ Member.GoesOn members others) :
    others.map Member.index = members.map Member.index := by
  induction h with
  | nil => rfl
  | cons hgoes _ ih => rw [List.map_cons, List.map_cons, hgoes.1, ih]

/-- Each member of a group goes on by `GoesOn` if one of them is used. -/
theorem forall₂_goesOn_modify {members : List Member} {position : Nat} {member : Member}
    {session : Session} {used : List Session.Exchange} (hmember : members[position]? = some member)
    (h : Session.Visited member.session used session) :
    List.Forall₂ Member.GoesOn members
      (members.modify position fun member => { member with session }) := by
  induction members generalizing position with
  | nil => exact absurd hmember nofun
  | cons first rest ih =>
    cases position with
    | zero =>
      obtain rfl : first = member := Option.some.inj hmember
      exact .cons ⟨rfl, used, h⟩ (List.forall₂_same.2 fun other _ => .refl other)
    | succ position =>
      rw [List.modify_succ_cons]
      exact .cons (.refl first) (ih hmember)

/-- What closes nothing by a `Visit` of a group that was started leaves it with all its sessions. -/
theorem onward_of_visit (h : Visit group exchanges last) (hstarted : group.started = true) :
    Onward group last := by
  cases h with
  | starts hrun =>
    obtain ⟨-, rfl, -⟩ := (run_start_of_started_iff hstarted).1 hrun
    exact .refl hstarted
  | connects hrun =>
    obtain ⟨rfl, -⟩ := run_connectAll hrun
    exact .refl hstarted
  | usesMember hmember hopen hrun =>
    exact ⟨hstarted, rfl, forall₂_goesOn_modify hmember (.of_moment hopen hrun)⟩

theorem onward_of_visits (h : Visits group exchanges last) (hstarted : group.started = true) :
    Onward group last := by
  induction h with
  | nil => exact .refl hstarted
  | cons hvisit _ ih =>
    have hmid := onward_of_visit hvisit hstarted
    exact hmid.trans (ih hmid.started)

end Onward

end Group

/-! ## The first fault -/

namespace Session

variable {J : Interface} {α : Type} {e : Interface.Embedding interface J}
  {work : Attempt (Option Session) J α}

/-- The session of a scope is the same one when it is closed: it was only `Visited`. -/
theorem visited_of_undertakes {scope : Scope e (Option Session) α} {session : Session}
    (hwork : ClosesNothing e work) (hopened : scope.opened = some session)
    (h : scope.Undertakes work) :
    ∃ used last, scope.left = some last ∧ Visited session used last := by
  obtain ⟨starting, begun, opened, working, worked, left, stopping, closed, said⟩ := scope
  obtain rfl : opened = some session := hopened
  cases h with
  | skipped => exact ⟨[], session, rfl, .refl session⟩
  | done hrun =>
    obtain ⟨carried, last, -, hlast, hvisited⟩ := hwork hrun
    exact ⟨_, last, hlast, hvisited⟩

end Session

namespace Group

variable {J : Interface} {α : Type} {e : Interface.Embedding interface J}
  {work : Attempt Group J α} {surroundings : Surroundings}

/-- The group of a scope still has its sessions when it is closed: it only went `Onward`. -/
theorem onward_of_undertakes {scope : Scope e Group α} (hwork : ClosesNothing e work)
    (hstarted : scope.opened.started = true) (h : scope.Undertakes work) :
    Onward scope.opened scope.left := by
  obtain ⟨starting, begun, opened, working, worked, left, stopping, closed, said⟩ := scope
  cases h with
  | skipped => exact .refl hstarted
  | done hrun =>
    obtain ⟨carried, -, hvisits⟩ := hwork hrun
    exact onward_of_visits hvisits hstarted

/-- What a scope does to its sessions if its work closes none of them. Each launch and the round
that closes it make up one of the `pairs`; the rounds are at the `places` of the launches, the group
is `emptied`, and what has `departed` from it is what was closed in these rounds, and nothing
else. -/
structure Course.ClosesOnce (course : Course e α) (last : Group) : Prop where
  pairs : List.Forall₂ (fun launch round => launch.member.GoesOn round.member) course.launches
    course.rounds
  places : course.rounds.map (·.member.index) = List.range course.launches.length
  emptied : last.members = []
  departed : last.departed = course.rounds.map Round.departed

/-- If its work `ClosesNothing`, then a scope closes each session that it has launched, and once. -/
theorem Course.Ran.closesOnce {course : Course e α} {timeout : Option Timeout}
    {machines : List Machine} {input : Options.Input} {options : Options} {last : Group}
    {exchanges : List (Program.Exchange J)} {result : Except Fault α}
    (h : course.Ran surroundings machines input options timeout work last exchanges result)
    (hwork : ClosesNothing e work) : course.ClosesOnce last := by
  have honward : Onward course.scope.opened course.scope.left :=
    onward_of_undertakes hwork (by rw [h.opened]) h.undertaken
  have hplaces : course.rounds.map (·.member.index) = course.launches.map Launch.index := by
    have hsame := places_of_goesOn honward.members
    rwa [h.opened, ← h.members, List.map_map, List.map_map] at hsame
  refine ⟨?_, hplaces.trans (indices_eq_range h.launched.isPrefix), ?_, ?_⟩
  · have hall := honward.members
    rwa [h.opened, ← h.members, List.forall₂_map_left_iff, List.forall₂_map_right_iff] at hall
  · rw [h.last]
  · rw [h.last, honward.departed, h.opened]
    rfl

end Group

/-- **The first fault wins.** With options that `resolve`, whatever becomes of the start, the work
and the closing of a scope, the work is done once if the start succeeded and not at all otherwise,
and closing comes once behind both of them. The scope ends as `firstFault` says: with the fault of
the start or else of the work if there is one, otherwise with that of closing, and with what the
work has given if there is none at all; what else there is to say of closing goes to the console.

A scope for a session closes that session. A scope for a group closes every session that it has
made, up to the one that failed to start, each in a round of its own, however the others went. If
the work closes nothing itself, this is the only time that any of them is closed. -/
theorem first_fault_wins {J : Interface} {α : Type} (surroundings : Surroundings)
    (timeout : Option Timeout) :
    (∀ (e : Interface.Embedding Session.interface J) (machine : Machine) (input : Options.Input)
        (options : Options) (work : Attempt (Option Session) J α) (held last : Option Session)
        (exchanges : List (Program.Exchange J)) (result : Except Fault α),
      Options.resolve input = .ok options →
      Attempt.Run (Session.withDeployment e surroundings machine input timeout work) held exchanges
          last result →
        ∃ course : Session.Course e α,
          course.Ran surroundings machine input options timeout work held last exchanges result ∧
          (Session.ClosesNothing e work → ∃ used left,
            course.scope.left = some left ∧ Session.Visited course.session used left)) ∧
    (∀ (e : Interface.Embedding Group.interface J) (machines : List Machine)
        (input : Options.Input) (options : Options) (work : Attempt Group J α) (last : Group)
        (exchanges : List (Program.Exchange J)) (result : Except Fault α),
      Options.resolve input.spread = .ok options →
      Attempt.Run (Group.deployGroup e surroundings timeout work) { machines, options := input }
          exchanges last result →
        ∃ course : Group.Course e α,
          course.Ran surroundings machines input options timeout work last exchanges result ∧
          (Group.ClosesNothing e work → course.ClosesOnce last)) := by
  constructor
  · intro e machine input options work held last exchanges result hresolve hrun
    obtain ⟨course, hran⟩ := Session.ran_of_run_withDeployment hresolve hrun
    exact ⟨course, hran, fun hwork =>
      Session.visited_of_undertakes hwork hran.opened hran.undertaken⟩
  · intro e machines input options work last exchanges result hresolve hrun
    obtain ⟨course, hran⟩ := Group.ran_of_run_deployGroup hresolve hrun
    exact ⟨course, hran, fun hwork => hran.closesOnce hwork⟩

/-- A session and a group of one, whose work fails and whose closing expires behind that. -/
theorem work_fault_before_expiry :
    (∃ exchanges last, Attempt.Run (Session.withDeployment (.refl Session.interface)
        ⟨"20.11.1", none⟩ ⟨none, .direct⟩ Session.briefInput (some (.ofNat 20))
        (throw (.value none) : Attempt (Option Session) Session.interface Unit)) none exchanges
        (some last) (.error (.value none)) ∧
      ∃ course : Session.Course (.refl Session.interface) Unit,
        .error (.value none) = course.scope.result ∧
        course.scope.Undertakes (throw (.value none)) ∧
        ∃ used left, course.scope.left = some left ∧ Session.Visited course.session used left) ∧
    ∃ exchanges last, Attempt.Run (Group.deployGroup (.refl Group.interface) ⟨"20.11.1", none⟩
        (some (.ofNat 20)) (throw (.value none) : Attempt Group Group.interface Unit)) Group.brief
        exchanges last (.error (.value none)) ∧
      ∃ course : Group.Course (.refl Group.interface) Unit,
        .error (.value none) = course.scope.result ∧
        course.scope.Undertakes (throw (.value none)) ∧
        (∀ round ∈ course.rounds, round.Held (some (.ofNat 20))) ∧
        last.departed = course.rounds.map Group.Round.departed := by
  obtain ⟨_, hclose⟩ := Session.run_close_briefReady
  constructor
  · obtain ⟨exchanges, hrun⟩ := Session.run_withDeployment_of_start (.done _ _) hclose
    obtain ⟨course, hran, hvisited⟩ :=
      (first_fault_wins ⟨"20.11.1", none⟩ (some (.ofNat 20))).1 _ _ _ _ _ _ _ _ _
        Session.resolve_briefInput hrun
    exact ⟨exchanges, _, hrun, course, hran.ending, hran.undertaken,
      hvisited Session.closesNothing_throw⟩
  · obtain ⟨exchanges, hrun⟩ := Group.run_deployGroup_of_start (.done _ _) hclose
    have hresolve : Options.resolve Session.briefInput.spread = .ok Session.brief.options :=
      Session.resolve_briefInput
    obtain ⟨course, hran, hcloses⟩ :=
      (first_fault_wins ⟨"20.11.1", none⟩ (some (.ofNat 20))).2 _ _ _ _ _ _ _ _ hresolve hrun
    exact ⟨exchanges, _, hrun, course, hran.ending, hran.undertaken, hran.held,
      (hcloses Group.closesNothing_throw).departed⟩

end Outpost

import Outpost.Proofs.Group.Lives
import Outpost.Proofs.Scoped.Phases

/-!
# What scopes leave behind

A scope closes every session that it made, whether its work succeeded or not. A round of closing
ends with the first wait that expires, so a session whose round ended early is left with whatever
comes behind the step that did not stop, and the scope does not go back to it
(`held_after_expired_scope`). Every other session holds nothing any more (`scopes_let_go`).

The work may use the sessions in every way that they can be used, those that it closed itself
included (`Session.OnlyUses`, `Group.OnlyTouches`). So what a scope leaves of a session is read off
the whole `Life` of this session, from the way it was made to the way it is left. What carries that
is that a round of closing is never undone: after the first one a session is `Retired`, and a
retired session only loses what it holds (`Session.Retired.loses`).

## Contents

* `Session.HoldsAtMost`, `Session.Dismissed`: what a round of closing leaves for good.
* `Session.PutAway`, `Session.putAway_of_life`: sessions that were closed.
* `Session.OnlyUses`, `Group.OnlyTouches`: what the work of a scope may do.
* `Session.Course.LetsGo`, `Group.Course.LetsGo`, `scopes_let_go`.
-/

namespace Outpost

namespace Session

/-! ## Sessions that were closed -/

/-- A session goes by the same name as another one, and every slot of it is empty or the same. -/
structure HoldsAtMost (session left : Session) : Prop where
  identity : session.identity = left.identity
  process : session.process = none ∨ session.process = left.process
  tunnel : session.tunnel = none ∨ session.tunnel = left.tunnel
  machine : session.machine = none ∨ session.machine = left.machine
  tempDirectory : session.tempDirectory = none ∨ session.tempDirectory = left.tempDirectory

/-- What the round of closing `round` makes of a session for good. If it completed, the session is
`released` and holds nothing. If not, the last that it asked for is a wait that expired, and the
session is `abandoned`: everything up to the step that waited is given up. -/
inductive Dismissed (timeout : Option Timeout) (round : Moment) (session : Session) : Prop
  | released : round.result.isOk = true → session.holdsResources = false →
      Dismissed timeout round session
  | abandoned {before expiry : List Exchange} {duty : Duty} {fault : Fault} :
      round.result = .error fault → round.exchanges = before ++ expiry →
      duty.Expires timeout session.identity expiry fault →
      session.clearedThrough duty.step = session → Dismissed timeout round session

/-- A session that was made as `made`, went through `moments` and is `last` now. At least one of the
moments is a round of closing, so it was `closed`, and each such round has `dismissed` it for
good. -/
structure PutAway (made : Session) (moments : List Moment) (last : Session) : Prop where
  life : Life made moments last
  closed : ∃ moment ∈ moments, moment.use.isClose = true
  dismissed : ∀ moment ∈ moments, ∀ timeout, moment.use = .close timeout →
    Dismissed timeout moment last

section Dismissed

variable {timeout : Option Timeout} {surroundings : Surroundings} {session left last made : Session}
  {exchanges : List Exchange} {result : Except Fault Unit} {moment : Moment} {moments : List Moment}

theorem HoldsAtMost.refl (session : Session) : HoldsAtMost session session :=
  ⟨rfl, .inr rfl, .inr rfl, .inr rfl, .inr rfl⟩

theorem HoldsAtMost.trans (h : HoldsAtMost last session) (hsession : HoldsAtMost session left) :
    HoldsAtMost last left where
  identity := h.identity.trans hsession.identity
  process := h.process.elim .inl fun hsame => hsame.symm ▸ hsession.process
  tunnel := h.tunnel.elim .inl fun hsame => hsame.symm ▸ hsession.tunnel
  machine := h.machine.elim .inl fun hsame => hsame.symm ▸ hsession.machine
  tempDirectory := h.tempDirectory.elim .inl fun hsame => hsame.symm ▸ hsession.tempDirectory

theorem holdsResources_eq_false_iff :
    session.holdsResources = false ↔ session.process = none ∧ session.tunnel = none ∧
      session.machine = none ∧ session.tempDirectory = none := by
  rw [holdsResources, Bool.or_eq_false_iff, Bool.or_eq_false_iff, Bool.or_eq_false_iff,
    Option.isSome_eq_false_iff, Option.isSome_eq_false_iff, Option.isSome_eq_false_iff,
    Option.isSome_eq_false_iff, Option.isNone_iff_eq_none, Option.isNone_iff_eq_none,
    Option.isNone_iff_eq_none, Option.isNone_iff_eq_none, and_assoc, and_assoc]

/-- A session that `HoldsAtMost` what holds nothing holds nothing. -/
theorem HoldsAtMost.released (h : HoldsAtMost session left) (hleft : left.holdsResources = false) :
    session.holdsResources = false := by
  obtain ⟨hprocess, htunnel, hmachine, hdirectory⟩ := holdsResources_eq_false_iff.1 hleft
  refine holdsResources_eq_false_iff.2 ⟨?_, ?_, ?_, ?_⟩
  · exact h.process.elim (fun hnone => hnone) fun hsame => hsame.trans hprocess
  · exact h.tunnel.elim (fun hnone => hnone) fun hsame => hsame.trans htunnel
  · exact h.machine.elim (fun hnone => hnone) fun hsame => hsame.trans hmachine
  · exact h.tempDirectory.elim (fun hnone => hnone) fun hsame => hsame.trans hdirectory

/-- What is `clearedThrough` a step does not fill again by losing more. -/
theorem HoldsAtMost.cleared (h : HoldsAtMost session left) {step : Step}
    (hleft : left.clearedThrough step = left) : session.clearedThrough step = session := by
  -- each slot that the step clears is empty in `left`, and so in `session`
  have hprocess : session.process = none := by
    have hnone : left.process = none := by rw [← hleft]; cases step <;> rfl
    exact h.process.elim (fun hnone => hnone) fun hsame => hsame.trans hnone
  have htunnel (hnone : left.tunnel = none) : session.tunnel = none :=
    h.tunnel.elim (fun hnone => hnone) fun hsame => hsame.trans hnone
  have hmachine (hnone : left.machine = none) : session.machine = none :=
    h.machine.elim (fun hnone => hnone) fun hsame => hsame.trans hnone
  have hdirectory (hnone : left.tempDirectory = none) : session.tempDirectory = none :=
    h.tempDirectory.elim (fun hnone => hnone) fun hsame => hsame.trans hnone
  obtain ⟨_, _, _, _, machine, tempDirectory, process, tunnel, _, _, _⟩ := session
  obtain rfl : process = none := hprocess
  cases step with
  | process => rfl
  | tunnelSession | tunnel =>
    obtain rfl : tunnel = none := htunnel (by rw [← hleft]; rfl)
    rfl
  | machineSession | machine =>
    obtain rfl : tunnel = none := htunnel (by rw [← hleft]; rfl)
    obtain rfl : machine = none := hmachine (by rw [← hleft]; rfl)
    rfl
  | tempDirectory =>
    obtain rfl : tunnel = none := htunnel (by rw [← hleft]; rfl)
    obtain rfl : machine = none := hmachine (by rw [← hleft]; rfl)
    obtain rfl : tempDirectory = none := hdirectory (by rw [← hleft]; rfl)
    rfl

theorem holdsAtMost_clearedThrough (session : Session) (step : Step) :
    HoldsAtMost (session.clearedThrough step) session := by
  cases step with
  | process => exact ⟨rfl, .inl rfl, .inr rfl, .inr rfl, .inr rfl⟩
  | tunnelSession | tunnel => exact ⟨rfl, .inl rfl, .inl rfl, .inr rfl, .inr rfl⟩
  | machineSession | machine => exact ⟨rfl, .inl rfl, .inl rfl, .inl rfl, .inr rfl⟩
  | tempDirectory => exact ⟨rfl, .inl rfl, .inl rfl, .inl rfl, .inl rfl⟩

/-- Closing by `close` never gives a session anything. -/
theorem holdsAtMost_of_run_close
    (h : Attempt.Run (close timeout) session exchanges last result) : HoldsAtMost last session := by
  rcases last_of_run_close h with rfl | ⟨duty, -, rfl⟩
  · exact ⟨rfl, .inl rfl, .inl rfl, .inl rfl, .inl rfl⟩
  · exact holdsAtMost_clearedThrough session duty.step

/-- Whatever is asked of a session that is `Retired`, it only loses what it holds. -/
theorem Retired.loses (hretired : Retired session)
    (h : Attempt.Run moment.use.attempt session moment.exchanges moment.after moment.result) :
    Retired moment.after ∧ HoldsAtMost moment.after session := by
  have hconnection (hconnection : moment.use.isConnection = true) :
      Retired moment.after ∧ HoldsAtMost moment.after session := by
    rw [(connection_of_run hconnection h).1]
    exact ⟨hretired, .refl session⟩
  obtain ⟨use, asked, after, result⟩ := moment
  cases use with
  | start surroundings =>
    refine ⟨(hretired.of_run_start h).1, ?_⟩
    by_cases hstate : session.state = .created
    · obtain ⟨hafter, -⟩ := run_start_of_machine_none hstate (hretired.machine hstate) h
      dsimp only at hafter
      rw [hafter]
      exact ⟨rfl, .inr rfl, .inr rfl, .inr rfl, .inr rfl⟩
    · obtain ⟨-, hafter, -⟩ := run_start_of_not_created hstate h
      dsimp only at hafter
      rw [hafter]
      exact .refl session
  | close timeout => exact ⟨hretired.of_run_close h, holdsAtMost_of_run_close h⟩
  | connectSocket => exact hconnection rfl
  | connect settings => exact hconnection rfl

/-- So it is over the rest of its `Life`. -/
theorem Retired.loses_over_life (hretired : Retired session) (h : Life session moments last) :
    HoldsAtMost last session := by
  induction h with
  | nil session => exact .refl session
  | cons hrun _ ih =>
    obtain ⟨hafter, hlost⟩ := hretired.loses hrun
    exact (ih hafter).trans hlost

/-- What was `Dismissed` stays so if it only loses more. -/
theorem Dismissed.of_holdsAtMost (hleft : Dismissed timeout moment left)
    (h : HoldsAtMost session left) : Dismissed timeout moment session := by
  cases hleft with
  | released hok hnothing => exact .released hok (h.released hnothing)
  | abandoned hfault hexchanges hexpires hcleared =>
    rw [← h.identity] at hexpires
    exact .abandoned hfault hexchanges hexpires (h.cleared hcleared)

/-- A session is `Dismissed` by every round of closing. -/
theorem dismissed_of_run_close (h : Attempt.Run (close timeout) session exchanges last result) :
    Dismissed timeout ⟨.close timeout, exchanges, last, result⟩ last := by
  rcases teardown_of_run_close h with ⟨_, -, -, rfl, rfl⟩ | ⟨duty, fault, hstopped, rfl, rfl⟩
  · exact .released rfl rfl
  · obtain ⟨rounds, later, expiry, -, -, hexpires, rfl⟩ := Teardown.some_iff.1 hstopped
    rw [← (holdsAtMost_clearedThrough session duty.step).identity] at hexpires
    refine .abandoned rfl rfl hexpires ?_
    cases duty.step <;> rfl

/-- Whatever comes behind it, a round of closing is not undone. -/
theorem dismissed_of_life (hsound : Sound session) (h : Life session moments last) :
    ∀ moment ∈ moments, ∀ timeout, moment.use = .close timeout →
      Dismissed timeout moment last := by
  induction h with
  | nil => exact fun moment hmoment => absurd hmoment List.not_mem_nil
  | @cons session last moment moments hrun hrest ih =>
    refine List.forall_mem_cons.2 ⟨fun timeout hclose => ?_, ih (hsound.of_moment hrun)⟩
    obtain ⟨use, asked, after, result⟩ := moment
    subst hclose
    have hretired : Retired after := hsound.retired_of_run_close hrun
    exact (dismissed_of_run_close hrun).of_holdsAtMost (hretired.loses_over_life hrest)

/-- A session that was not started yet is `PutAway` by every life in which it is closed. -/
theorem putAway_of_life (hsound : Sound made) (h : Life made moments last)
    (hclosed : ∃ moment ∈ moments, moment.use.isClose = true) : PutAway made moments last :=
  ⟨h, hclosed, dismissed_of_life hsound h⟩

theorem sound_fresh (machine : Machine) (options : Options) (id : String) :
    Sound (fresh machine options id) :=
  ⟨fun _ => rfl, fun _ => rfl, fun _ => rfl⟩

end Dismissed

/-! ## A scope for one session -/

section Scopes

variable {J : Interface} {α : Type} {e : Interface.Embedding interface J}
  {surroundings : Surroundings} {timeout : Option Timeout} {work : Attempt (Option Session) J α}

/-- Whatever the `work` does, it does nothing to the session of its scope but to use it. -/
def OnlyUses (e : Interface.Embedding interface J) (work : Attempt (Option Session) J α) : Prop :=
  ∀ ⦃session exchanges held result⦄, Attempt.Run work (some session) exchanges held result →
    ∃ (used : List e.Carried) (moments : List Moment) (last : Session),
      (used.map (·.outer)).Sublist exchanges ∧ held = some last ∧ Life session moments last ∧
      used.map (·.inner) = moments.flatMap Moment.exchanges

theorem onlyUses_pure {a : α} : OnlyUses e (pure a) := by
  intro session exchanges held result h
  obtain ⟨rfl, rfl, -⟩ := Attempt.run_pure_iff.1 h
  exact ⟨[], [], session, List.Sublist.refl _, rfl, .nil session, rfl⟩

/-- What becomes of the session of a scope between its start and its closing is a `Life`. -/
theorem life_of_undertakes {scope : Scope e (Option Session) α} {session : Session}
    (hwork : OnlyUses e work) (hopened : scope.opened = some session) (h : scope.Undertakes work) :
    ∃ (used : List e.Carried) (moments : List Moment) (left : Session),
      (used.map (·.outer)).Sublist scope.working ∧ scope.left = some left ∧
      Life session moments left ∧ used.map (·.inner) = moments.flatMap Moment.exchanges := by
  obtain ⟨starting, begun, opened, working, worked, left, stopping, closed, said⟩ := scope
  obtain rfl : opened = some session := hopened
  cases h with
  | skipped => exact ⟨[], [], session, List.Sublist.refl _, rfl, .nil session, rfl⟩
  | done hrun => exact hwork hrun

/-- How a scope leaves its session. It is `dismissed` by the round of closing that the scope ends
with, and `released`, so that it holds nothing, if the scope succeeds. If the work does nothing but
use it, then it is `putAway`, after moments that are all that was exchanged for it. -/
structure Course.LetsGo (course : Course e α) (machine : Machine) (options : Options)
    (timeout : Option Timeout) (work : Attempt (Option Session) J α) (last : Option Session)
    (result : Except Fault α) : Prop where
  dismissed : Dismissed timeout
    ⟨.close timeout, course.scope.stopping.map (·.inner), last.getD (course.made machine options),
      course.scope.closed⟩
    (last.getD (course.made machine options))
  released : ∀ a, result = .ok a → (last.getD (course.made machine options)).holdsResources = false
  putAway : OnlyUses e work → ∃ (used : List e.Carried) (moments : List Moment),
    (used.map (·.outer)).Sublist course.scope.working ∧
    PutAway (course.made machine options) moments (last.getD (course.made machine options)) ∧
    moments.flatMap Moment.exchanges
      = (course.scope.starting ++ used ++ course.scope.stopping).map (·.inner)

theorem Course.Ran.letsGo {course : Course e α} {machine : Machine} {input : Options.Input}
    {options : Options} {held last : Option Session} {exchanges : List (Program.Exchange J)}
    {result : Except Fault α}
    (h : course.Ran surroundings machine input options timeout work held last exchanges result) :
    course.LetsGo machine options timeout work last result := by
  have hdismissed := dismissed_of_run_close h.closed
  refine ⟨hdismissed, fun a hresult => ?_, fun hwork => ?_⟩
  · have hclosed := (firstFault_eq_ok_iff.1 (h.ending.symm.trans hresult)).2
    cases hdismissed with
    | released _ hnothing => exact hnothing
    | abandoned hfault => exact absurd (hclosed.symm.trans hfault) nofun
  · obtain ⟨used, moments, left, hpart, hleft, hlife, hused⟩ :=
      life_of_undertakes hwork h.opened h.undertaken
    have hclose := h.closed
    rw [hleft, Option.getD_some] at hclose
    let first : Moment := ⟨.start surroundings, course.scope.starting.map (·.inner), course.session,
      course.scope.begun⟩
    let final : Moment := ⟨.close timeout, course.scope.stopping.map (·.inner),
      last.getD (course.made machine options), course.scope.closed⟩
    have hwhole : Life (course.made machine options) (first :: (moments ++ [final]))
        (last.getD (course.made machine options)) :=
      .cons h.started (hlife.append (.cons hclose (.nil _)))
    have hfinal : final ∈ first :: (moments ++ [final]) :=
      List.mem_cons_of_mem _ (List.mem_append_right _ List.mem_cons_self)
    refine ⟨used, _, hpart, putAway_of_life (sound_fresh ..) hwhole ⟨final, hfinal, rfl⟩, ?_⟩
    rw [List.flatMap_cons, List.flatMap_append, List.flatMap_singleton, ← hused, List.map_append,
      List.map_append, List.append_assoc]

end Scopes

end Session

/-! ## A scope for a group -/

namespace Group

variable {J : Interface} {α : Type} {e : Interface.Embedding interface J}
  {surroundings : Surroundings} {timeout : Option Timeout} {work : Attempt Group J α}
  {options : Options} {launch : Launch} {member : Member}

/-- Whatever the `work` does, it does nothing to a group but what may happen to one, by
`Touches`. -/
def OnlyTouches (e : Interface.Embedding interface J) (work : Attempt Group J α) : Prop :=
  ∀ ⦃group exchanges last result⦄, Attempt.Run work group exchanges last result →
    ∃ used : List e.Carried, (used.map (·.outer)).Sublist exchanges ∧
      Touches group (used.map (·.inner)) last

theorem onlyTouches_pure {a : α} : OnlyTouches e (pure a) := by
  intro group exchanges last result h
  obtain ⟨rfl, rfl, -⟩ := Attempt.run_pure_iff.1 h
  exact ⟨[], List.Sublist.refl _, .nil _⟩

/-- What happens to the group of a scope between its start and its closing, by `Touches`. -/
theorem touches_of_undertakes {scope : Scope e Group α} (hwork : OnlyTouches e work)
    (h : scope.Undertakes work) : ∃ used : List e.Carried,
      (used.map (·.outer)).Sublist scope.working ∧
      Touches scope.opened (used.map (·.inner)) scope.left := by
  obtain ⟨starting, begun, opened, working, worked, left, stopping, closed, said⟩ := scope
  cases h with
  | skipped => exact ⟨[], List.Sublist.refl _, .nil _⟩
  | done hrun => exact hwork hrun

/-- The session of a launch is the one of `member` now, at the same `place`. It was put away after
some moments, and these are all that was exchanged for it after it was made: `putAway`. -/
structure Launch.Left (launch : Launch) (options : Options) (exchanges : List Exchange)
    (member : Member) : Prop where
  place : member.index = launch.index
  putAway : ∃ moments, Session.PutAway (launch.session options) moments member.session ∧
    ofMember launch.index exchanges
      = launch.setup options ++ moments.flatMap Session.Moment.exchanges

/-- A session that a `Launch` has launched, and that then went through a life in which it was taken
out of the group. -/
theorem Launch.left_of_goes {begun : Except Fault Unit} {first second : List Exchange}
    (hended : launch.Ended surroundings options begun)
    (hfirst : ofMember launch.index first = launch.setup options ++ launch.exchanges)
    (h : Goes second (launch.member, false) (member, true)) :
    launch.Left options (first ++ second) member := by
  obtain ⟨moments, h⟩ := h
  have hlife : Session.Life (launch.session options)
      (⟨.start surroundings, launch.exchanges, launch.after, begun⟩ :: moments) member.session :=
    .cons hended h.life
  obtain ⟨moment, hmoment, hclose⟩ := (h.closed rfl).resolve_left nofun
  refine ⟨h.place, _, Session.putAway_of_life (Session.sound_fresh ..) hlife
    ⟨moment, List.mem_cons_of_mem _ hmoment, hclose⟩, ?_⟩
  have hsecond : ofMember launch.index second = moments.flatMap Session.Moment.exchanges :=
    h.exchanged
  rw [ofMember_append, hfirst, hsecond, List.append_assoc, List.flatMap_cons]

/-- How a scope leaves its sessions. What its work has `used` is a `part` of what the work has
exchanged, and `touches` the group in the ways that are open to everybody. The group is `emptied` in
the end. The sessions that have departed from it are those that the scope has launched, one for each
and in this order, and each is `left` as a session that was closed. If the scope succeeds, those
that it closed itself in the end are `released`, and hold nothing. -/
structure Course.LetsGo (course : Course e α) (options : Options) (used : List e.Carried)
    (last : Group) (result : Except Fault α) : Prop where
  part : (used.map (·.outer)).Sublist course.scope.working
  touches : Touches course.scope.opened (used.map (·.inner)) course.scope.left
  emptied : last.members = []
  left : List.Forall₂ (fun launch member => launch.Left options
    ((course.scope.starting ++ used ++ course.scope.stopping).map (·.inner)) member)
    course.launches last.departed
  released : ∀ a, result = .ok a → ∀ round ∈ course.rounds, round.after.holdsResources = false

theorem Round.released_of_ok {round : Round} (hheld : round.Held timeout)
    (hok : round.fault? = none) : round.after.holdsResources = false := by
  cases Session.dismissed_of_run_close hheld with
  | released _ hnothing => exact hnothing
  | abandoned hfault =>
    have hresult : round.result = .error _ := hfault
    rw [Round.fault?, hresult] at hok
    exact absurd hok nofun

theorem Course.Ran.letsGo {course : Course e α} {machines : List Machine} {input : Options.Input}
    {last : Group} {exchanges : List (Program.Exchange J)} {result : Except Fault α}
    (h : course.Ran surroundings machines input options timeout work last exchanges result)
    (hwork : OnlyTouches e work) : ∃ used, course.LetsGo options used last result := by
  obtain ⟨used, hpart, htouches⟩ := touches_of_undertakes hwork h.undertaken
  have hopened : course.scope.opened.sessions = course.launches.map (·.member, false) := by
    rw [sessions, h.opened, List.map_map]
    rfl
  have hlast : last.sessions = last.departed.map (·, true) := by
    rw [sessions, h.last, List.map_nil, List.append_nil]
  have hindices : course.launches.map Launch.index = List.range course.launches.length :=
    indices_eq_range h.launched.isPrefix
  have hplaces : (course.scope.opened.sessions.map (·.1.index)).Nodup := by
    rw [hopened, List.map_map]
    exact (congrArg List.Nodup hindices).mpr List.nodup_range
  -- each session goes on through the work, and from there through the closing of the scope
  have hworking := goes_of_touches htouches (by rw [h.opened]) hplaces
  have hclosing := forall₂_goes_of_close ((places_of_goes hworking).symm ▸ hplaces) h.run_close
  have hgoes := forall₂_goes_trans hworking hclosing
  rw [hopened, hlast, List.forall₂_map_left_iff, List.forall₂_map_right_iff] at hgoes
  have hlaunched : ∀ launch ∈ course.launches, (∃ begun, launch.Ended surroundings options begun) ∧
      ofMember launch.index (course.scope.starting.map (·.inner))
        = launch.setup options ++ launch.exchanges := by
    intro launch hlaunch
    rw [h.starting]
    exact ⟨h.launched.forall_taken launch hlaunch, (ofMember_launches hindices).1 launch hlaunch⟩
  refine ⟨used, hpart, htouches, by rw [h.last], ?_, fun a hresult round hround => ?_⟩
  · refine ((List.forall₂_and_left _ _).2 ⟨hlaunched, hgoes⟩).imp ?_
    rintro launch member ⟨⟨⟨begun, hended⟩, hfirst⟩, hgoes⟩
    rw [List.append_assoc, List.map_append, List.map_append]
    exact Launch.left_of_goes hended hfirst hgoes
  · have hclosed := (firstFault_eq_ok_iff.1 (h.ending.symm.trans hresult)).2
    rw [h.closed, verdict_eq_ok_iff] at hclosed
    exact Round.released_of_ok (h.held round hround)
      (List.filterMap_eq_nil_iff.1 hclosed round hround)

end Group

/-! ## Scopes for a session that starts -/

/-- Requests that are made as they are, by the interface `I`. -/
def Interface.Embedding.refl (I : Interface) : Interface.Embedding I I :=
  ⟨fun r => r, fun _ reply => reply⟩

theorem Program.run_embed_refl {σ α : Type} {I : Interface} {p : Program σ I α} {s s' : σ}
    {exchanges : List (Program.Exchange I)} {a : α} (h : Program.Run p s exchanges s' a) :
    Program.Run (p.embed (.refl I)) s exchanges s' a := by
  have hback (r : I.Request) (reply : I.Reply r) :
      (Interface.Embedding.refl I).reply r reply = reply := rfl
  have hrun := Program.Run.embed hback h
  have hsame : exchanges.map (fun x => (⟨x.request, x.reply⟩ : Program.Exchange I)) = exchanges :=
    List.map_id exchanges
  exact hsame ▸ hrun

namespace Session

variable {timeout : Option Timeout} {last : Session} {closing : List Exchange}
  {result : Except Fault Unit}

theorem run_inScope {α : Type} {made session next : Session} {x : Attempt Session interface α}
    {exchanges : List Exchange} {ending : Except Fault α}
    (h : Attempt.Run x session exchanges next ending) :
    Attempt.Run (inScope (.refl interface) made x) (some session) exchanges (some next) ending := by
  have hget (held : Option Session) (next : Session) (_ : True) :
      (some next).getD made = next := rfl
  exact Program.Run.focus hget (fun _ _ _ => trivial) (fun _ _ _ => rfl) trivial rfl
    (Program.run_embed_refl h)

/-- A scope around a session that starts, by `withDeployment`. -/
theorem run_withDeployment_of_start {α : Type} {work : Attempt (Option Session) interface α}
    {working : List Exchange} {worked : Except Fault α} {left : Session}
    (hwork : Attempt.Run work (some briefReady) working (some left) worked)
    (hclose : Attempt.Run (close timeout) left closing last result) :
    ∃ exchanges, Attempt.Run (withDeployment (.refl interface) ⟨"20.11.1", none⟩ ⟨none, .direct⟩
      briefInput timeout work) none exchanges (some last) (firstFault worked result) := by
  obtain ⟨starting, hstart⟩ := run_start_brief
  obtain ⟨said, hsaid⟩ : ∃ said : List Exchange,
      said.map Program.Exchange.request = complaint (scopeWarning "d-1") worked result :=
    exists_said (fun _ => ()) worked result
  have hmade := Program.run_embed_refl (run_create_brief (none : Option Session))
  refine ⟨[⟨.freshId, "d-1"⟩] ++ (starting ++ working ++ closing ++ said), ?_⟩
  refine Attempt.run_bind_iff.2 (.inr ⟨none, brief, _, _, hmade, ?_, rfl⟩)
  rw [Attempt.run_set_bind_iff]
  exact (run_scope_iff run_warn_iff).2 ⟨some briefReady, some left, .ok (), worked, result,
    starting, working, closing, said, run_inScope hstart, .done hwork, run_inScope hclose, hsaid,
    rfl, rfl⟩

/-- A scope by `withDeployment` that does nothing with a session that starts. -/
theorem run_withDeployment_brief
    (hclose : Attempt.Run (close timeout) briefReady closing last result) :
    ∃ exchanges, Attempt.Run (withDeployment (.refl interface) ⟨"20.11.1", none⟩ ⟨none, .direct⟩
      briefInput timeout (pure ())) none exchanges (some last) result := by
  obtain ⟨exchanges, hrun⟩ := run_withDeployment_of_start (.done _ _) hclose
  exact ⟨exchanges, by rwa [firstFault_ok] at hrun⟩

end Session

namespace Group

/-- A scope around a group of one session, which starts, by `deployGroup`. -/
theorem run_deployGroup_of_start {α : Type} {timeout : Option Timeout} {left last : Session}
    {work : Attempt Group interface α} {working : List Exchange} {worked : Except Fault α}
    {closing : List Session.Exchange} {result : Except Fault Unit}
    (hwork : Attempt.Run work briefReady working { briefReady with members := [⟨0, left⟩] } worked)
    (hclose : Attempt.Run (Session.close timeout) left closing last result) :
    ∃ exchanges, Attempt.Run (deployGroup (.refl interface) ⟨"20.11.1", none⟩ timeout work) brief
      exchanges { brief with departed := [⟨0, last⟩], started := true }
      (firstFault worked result) := by
  obtain ⟨starting, hstart⟩ := run_start_brief
  let round : Round := ⟨⟨0, left⟩, closing, last, result⟩
  have hgone : Attempt.Run (close timeout) { briefReady with members := [⟨0, left⟩] }
      ([round].flatMap Round.exchanged) { brief with departed := [⟨0, last⟩], started := true }
      result := by
    refine run_close_iff.2 ⟨[round], rfl, List.forall_mem_singleton.2 hclose, rfl, rfl, ?_⟩
    rcases result with fault | ⟨⟨⟩⟩
    · rfl
    · rfl
  obtain ⟨said, hsaid⟩ : ∃ said : List Exchange,
      said.map Program.Exchange.request = complaint scopeWarning worked result :=
    exists_said (fun _ => ()) worked result
  exact ⟨_, (run_scope_iff run_warn_iff).2 ⟨briefReady, _, .ok (), worked, result, _, _, _, said,
    Program.run_embed_refl hstart, .done hwork, Program.run_embed_refl hgone, hsaid, rfl, rfl⟩⟩

/-- A scope by `deployGroup` that does nothing with a group of one session, which starts and is
closed. -/
theorem run_deployGroup_brief {timeout : Option Timeout} {last : Session}
    {closing : List Session.Exchange}
    (hclose : Attempt.Run (Session.close timeout) Session.briefReady closing last (.ok ())) :
    ∃ exchanges, Attempt.Run (deployGroup (.refl interface) ⟨"20.11.1", none⟩ timeout (pure ()))
      { machines := [⟨none, .direct⟩], options := Session.briefInput } exchanges
      { machines := [⟨none, .direct⟩], options := Session.briefInput, departed := [⟨0, last⟩],
        started := true } (.ok ()) :=
  run_deployGroup_of_start (.done _ _) hclose

end Group

/-- **Scopes let go of what they made.** With options that are accepted, and however a scope ends,
it takes a course as `Course.Ran` has it, and lets go of all its sessions as `Course.LetsGo` has it:
each session that it made has been closed by then. It holds nothing, unless the wait of one of its
rounds of closing expired, and then everything up to the step that waited is given up. If the scope
succeeds, then nothing is held by the sessions that it closed itself. -/
theorem scopes_let_go {J : Interface} {α : Type} (surroundings : Surroundings)
    (timeout : Option Timeout) :
    (∀ (e : Interface.Embedding Session.interface J) (machine : Machine) (input : Options.Input)
        (options : Options) (work : Attempt (Option Session) J α) (held last : Option Session)
        (exchanges : List (Program.Exchange J)) (result : Except Fault α),
      Options.resolve input = .ok options →
      Attempt.Run (Session.withDeployment e surroundings machine input timeout work) held exchanges
          last result →
        ∃ course : Session.Course e α,
          course.Ran surroundings machine input options timeout work held last exchanges result ∧
          course.LetsGo machine options timeout work last result) ∧
    (∀ (e : Interface.Embedding Group.interface J) (machines : List Machine)
        (input : Options.Input) (options : Options) (work : Attempt Group J α) (last : Group)
        (exchanges : List (Program.Exchange J)) (result : Except Fault α),
      Options.resolve input.spread = .ok options → Group.OnlyTouches e work →
      Attempt.Run (Group.deployGroup e surroundings timeout work) { machines, options := input }
          exchanges last result →
        ∃ (course : Group.Course e α) (used : List e.Carried),
          course.Ran surroundings machines input options timeout work last exchanges result ∧
          course.LetsGo options used last result) := by
  constructor
  · intro e machine input options work held last exchanges result hresolve hrun
    obtain ⟨course, hran⟩ := Session.ran_of_run_withDeployment hresolve hrun
    exact ⟨course, hran, hran.letsGo⟩
  · intro e machines input options work last exchanges result hresolve hwork hrun
    obtain ⟨course, hran⟩ := Group.ran_of_run_deployGroup hresolve hrun
    obtain ⟨used, hletsGo⟩ := hran.letsGo hwork
    exact ⟨course, used, hran, hletsGo⟩

/-- Both scopes around a session that starts, whose round of closing completes: the session holds
nothing then, and was closed. -/
theorem released_by_completed_scopes :
    (∃ exchanges last, Attempt.Run (Session.withDeployment (.refl Session.interface)
        ⟨"20.11.1", none⟩ ⟨none, .direct⟩ Session.briefInput none (pure ())) none exchanges
        (some last) (.ok ()) ∧ last.holdsResources = false ∧
      ∃ made moments, Session.PutAway made moments last) ∧
    ∃ exchanges last, Attempt.Run (Group.deployGroup (.refl Group.interface) ⟨"20.11.1", none⟩ none
        (pure ())) Group.brief exchanges last (.ok ()) ∧
      last.members = [] ∧ ∃ member made moments, last.departed = [member] ∧
        Session.PutAway made moments member.session ∧ member.session.holdsResources = false := by
  obtain ⟨closing, hclose, -⟩ := Session.exists_completed_round none Session.briefReady
  constructor
  · obtain ⟨exchanges, hrun⟩ := Session.run_withDeployment_brief hclose
    obtain ⟨course, -, hletsGo⟩ := (scopes_let_go ⟨"20.11.1", none⟩ none).1 _ _ _ _ _ _ _ _ _
      Session.resolve_briefInput hrun
    obtain ⟨_, moments, -, hput, -⟩ := hletsGo.putAway Session.onlyUses_pure
    exact ⟨exchanges, _, hrun, hletsGo.released () rfl, _, moments, hput⟩
  · obtain ⟨exchanges, hrun⟩ := Group.run_deployGroup_brief hclose
    have hresolve : Options.resolve Session.briefInput.spread = .ok Session.brief.options :=
      Session.resolve_briefInput
    obtain ⟨course, used, hran, hletsGo⟩ := (scopes_let_go ⟨"20.11.1", none⟩ none).2 _ _ _ _ _ _ _ _
      hresolve Group.onlyTouches_pure hrun
    obtain ⟨launch, _, hleft, hnone, -⟩ := List.forall₂_cons_right_iff.1 hletsGo.left
    obtain ⟨moments, hput, -⟩ := hleft.putAway
    exact ⟨exchanges, _, hrun, hletsGo.emptied, _, _, moments, rfl, hput, rfl⟩

/-- A session whose process does not exit in time is left by `withDeployment` holding its machine
and its temporary directory, and the scope fails with the expiry. -/
theorem held_after_expired_scope :
    ∃ exchanges last fault, Attempt.Run (Session.withDeployment (.refl Session.interface)
        ⟨"20.11.1", none⟩ ⟨none, .direct⟩ Session.briefInput (some (.ofNat 20)) (pure ())) none
        exchanges (some last) (.error fault) ∧
      fault.isTimeout = true ∧ last.holdsResources = true ∧ last.machine.isSome = true ∧
      last.tempDirectory.isSome = true := by
  obtain ⟨_, hclose⟩ := Session.run_close_briefReady
  obtain ⟨exchanges, hrun⟩ := Session.run_withDeployment_brief hclose
  exact ⟨exchanges, _, _, hrun, rfl, rfl, rfl, rfl⟩

end Outpost

import Outpost.Proofs.Group.Members

/-!
# Starting a group

A group makes a session on one machine after another, and starts each of them before it goes on to
the next machine. The session is a member already while it starts, so one that fails is the last
member of the group, and the machines behind it have none (`Group.run_startFrom_iff`).

## Contents

* `Group.Launch`: a session that was made on a machine and started. `Group.indices_eq_range`.
* `Group.run_startFrom_iff`, `Group.run_startFrom_of_unresolved`: with options that fit, and
  without.
* `Group.run_start_of_started_iff`, `Group.run_start_of_fresh_iff`: a group starts once.
* `Group.brief`, `Group.run_start_brief`: a group to go by.
-/

namespace Outpost

namespace Group

/-- A `Session` that was made on a machine and started. -/
structure Launch where
  machine : Machine
  /-- The place of the machine. -/
  index : Nat
  /-- The name of the session. -/
  id : String
  /-- What was exchanged for the start. -/
  exchanges : List Session.Exchange
  after : Session

namespace Launch

variable (surroundings : Surroundings) (options : Options) (launch : Launch)

/-- What a `Launch` is on: a machine, and its place. -/
def place : Machine × Nat := (launch.machine, launch.index)

/-- The `Session` as it was made. -/
def session : Session := Session.fresh launch.machine options launch.id

/-- What was exchanged to make the session. -/
def setup : List Session.Exchange :=
  ⟨.freshId, launch.id⟩ :: (launch.session options).identity.recorded .created

/-- How the `start` of the session ended. -/
def Ended (ending : Except Fault Unit) : Prop :=
  Attempt.Run (Session.start surroundings) (launch.session options) launch.exchanges launch.after
    ending

/-- What was exchanged for the session, as its group does it. -/
def exchanged : List Exchange :=
  (launch.setup options ++ launch.exchanges).map (.ofMember launch.index)

/-- The `Member` that the session became. -/
def member : Member := ⟨launch.index, launch.after⟩

end Launch

/-- Launches that leave out no machine are at the first places, counted by `List.range`. -/
theorem indices_eq_range {machines : List Machine} {launches : List Launch}
    (h : launches.map Launch.place <+: machines.zipIdx) :
    launches.map Launch.index = List.range launches.length := by
  have hindices := h.map Prod.snd
  rw [List.map_map, List.zipIdx_map_snd, ← List.range_eq_range'] at hindices
  have hlength := h.length_le
  rw [List.length_map, List.length_zipIdx] at hlength
  have htake := List.prefix_iff_eq_take.1 hindices
  rw [List.length_map, List.take_range, Nat.min_eq_left hlength] at htake
  exact htake

/-- What was exchanged for a `Launch`, among what was exchanged for all of them, and for the
machines that have none. -/
theorem ofMember_launches {options : Options} {launches : List Launch}
    (hindices : launches.map Launch.index = List.range launches.length) :
    (∀ launch ∈ launches, ofMember launch.index (launches.flatMap (Launch.exchanged options))
        = launch.setup options ++ launch.exchanges) ∧
      ∀ place, launches.length ≤ place →
        ofMember place (launches.flatMap (Launch.exchanged options)) = [] := by
  have hnodup : (launches.map Launch.index).Nodup := hindices ▸ List.nodup_range
  have hown (launch : Launch) : ofMember launch.index (launch.exchanged options)
      = launch.setup options ++ launch.exchanges := ofMember_map_ofMember _ _
  have hother (launch : Launch) (place : Nat) (hplace : place ≠ launch.index) :
      ofMember place (launch.exchanged options) = [] := ofMember_map_of_ne (Ne.symm hplace) _
  obtain ⟨hinside, houtside⟩ := ofMember_flatMap hown hother hnodup
  refine ⟨hinside, fun place hplace => houtside place ?_⟩
  rw [hindices, List.mem_range]
  exact Nat.not_lt.2 hplace

section Starting

variable {surroundings : Surroundings} {options : Options} {group last : Group}
  {exchanges : List Exchange} {result : Except Fault Unit}

/-- The member that joined last is given another session by `setSession`. -/
theorem setSession_concat (group : Group) (members : List Member) (index : Nat)
    (session session' : Session) :
    setSession members.length session' { group with members := members ++ [⟨index, session⟩] }
      = { group with members := members ++ [⟨index, session'⟩] } := by
  rw [setSession, List.modify_eq_take_cons_drop (by simp)]
  simp

/-- With options that `resolve`, a session is made wherever one is to be. -/
theorem run_create_member_iff {machine : Machine} {index : Nat}
    (hresolve : Options.resolve group.options.spread = .ok options)
    {ending : Except Fault Session} :
    Attempt.Run ((Session.create machine group.options.spread).embed (memberEmbedding index)) group
        exchanges last ending ↔
      last = group ∧ ∃ id, exchanges = (Exchange.ofMember index ⟨.freshId, id⟩) ::
          ((Session.fresh machine options id).identity.recorded .created).map
            (Exchange.ofMember index) ∧
        ending = .ok (Session.fresh machine options id) := by
  refine run_embed_member_iff.trans ⟨?_, ?_⟩
  · rintro ⟨inner, hcreate, rfl⟩
    obtain ⟨rfl, ⟨fault, hfault, -, -⟩ | ⟨options', id, hoptions, rfl, rfl⟩⟩ :=
      Session.run_create_iff.1 hcreate
    · exact absurd (hresolve.symm.trans hfault) nofun
    · obtain rfl := Except.ok.inj (hresolve.symm.trans hoptions)
      exact ⟨rfl, id, rfl, rfl⟩
  · rintro ⟨rfl, id, rfl, rfl⟩
    exact ⟨_, Session.run_create_iff.2 ⟨rfl, .inr ⟨options, id, hresolve, rfl, rfl⟩⟩, rfl⟩

/-- The `start` of a session that joined last makes it a `Launch`, whichever way it ends. -/
theorem run_start_member_iff {machine : Machine} {index : Nat} {id : String} :
    Attempt.Run (onMember group.members.length ⟨index, Session.fresh machine options id⟩
          (Session.start surroundings))
        { group with members := group.members ++ [⟨index, Session.fresh machine options id⟩] }
        exchanges last result ↔
      ∃ launch : Launch, launch.place = (machine, index) ∧ launch.id = id ∧
        launch.Ended surroundings options result ∧
        exchanges = launch.exchanges.map (Exchange.ofMember index) ∧
        last = { group with members := group.members ++ [launch.member] } := by
  refine (run_onMember_iff List.getElem?_concat_length).trans ⟨?_, ?_⟩
  · rintro ⟨inner, after, hstart, rfl, rfl⟩
    refine ⟨⟨machine, index, id, inner, after⟩, rfl, rfl, hstart, rfl, ?_⟩
    exact setSession_concat group group.members index _ after
  · rintro ⟨⟨machine', index', id', inner, after⟩, hplace, rfl, hstart, rfl, rfl⟩
    obtain ⟨rfl, rfl⟩ : machine' = machine ∧ index' = index := Prod.ext_iff.1 hplace
    exact ⟨inner, after, hstart, rfl, (setSession_concat group group.members index' _ after).symm⟩

/-- What is exchanged for a `Launch` is its `setup`, and then its start. -/
theorem Launch.exchanged_eq_append (launch : Launch) :
    launch.exchanged options = (launch.setup options).map (Exchange.ofMember launch.index)
      ++ launch.exchanges.map (Exchange.ofMember launch.index) :=
  List.map_append

/-- One `Launch`, and the others if it succeeded. -/
theorem run_startFrom_cons_iff {machine : Machine} {index : Nat} {places : List (Machine × Nat)}
    (hresolve : Options.resolve group.options.spread = .ok options) :
    Attempt.Run (startFrom surroundings ((machine, index) :: places)) group exchanges last result ↔
      ∃ launch : Launch, launch.place = (machine, index) ∧
        ((∃ fault, launch.Ended surroundings options (.error fault) ∧
            exchanges = launch.exchanged options ∧
            last = { group with members := group.members ++ [launch.member] } ∧
            result = .error fault) ∨
          launch.Ended surroundings options (.ok ()) ∧ ∃ more,
            Attempt.Run (startFrom surroundings places)
              { group with members := group.members ++ [launch.member] } more last result ∧
            exchanges = launch.exchanged options ++ more) := by
  rw [startFrom, Attempt.run_get_bind_iff, Attempt.run_bind_iff]
  constructor
  · rintro (⟨fault, hcreate, rfl⟩ | ⟨mid, session, first, second, hcreate, hjoin, rfl⟩)
    · obtain ⟨-, id, -, hfault⟩ := (run_create_member_iff hresolve).1 hcreate
      exact absurd hfault nofun
    · obtain ⟨rfl, id, rfl, hsession⟩ := (run_create_member_iff hresolve).1 hcreate
      obtain rfl := Except.ok.inj hsession
      rw [Attempt.run_get_bind_iff, Attempt.run_modify_bind_iff] at hjoin
      rcases Attempt.run_bind_iff.1 hjoin with
        ⟨fault, hfailed, rfl⟩ | ⟨_, ⟨⟩, third, fourth, hstart, hmore, rfl⟩
      · obtain ⟨launch, hplace, rfl, hended, rfl, rfl⟩ := run_start_member_iff.1 hfailed
        obtain ⟨rfl, rfl⟩ := Prod.ext_iff.1 hplace
        exact ⟨launch, rfl, .inl ⟨fault, hended, launch.exchanged_eq_append.symm, rfl, rfl⟩⟩
      · obtain ⟨launch, hplace, rfl, hended, rfl, rfl⟩ := run_start_member_iff.1 hstart
        obtain ⟨rfl, rfl⟩ := Prod.ext_iff.1 hplace
        refine ⟨launch, rfl, .inr ⟨hended, fourth, hmore, ?_⟩⟩
        rw [launch.exchanged_eq_append, List.append_assoc]
        rfl
  · rintro ⟨launch, hplace, hcases⟩
    obtain ⟨rfl, rfl⟩ := Prod.ext_iff.1 hplace
    have hcreate : Attempt.Run
        ((Session.create launch.machine group.options.spread).embed (memberEmbedding launch.index))
        group ((launch.setup options).map (Exchange.ofMember launch.index)) group
        (.ok (launch.session options)) :=
      (run_create_member_iff hresolve).2 ⟨rfl, launch.id, rfl, rfl⟩
    have hjoin {ending : Except Fault Unit} (hended : launch.Ended surroundings options ending) :
        Attempt.Run (onMember group.members.length ⟨launch.index, launch.session options⟩
            (Session.start surroundings))
          { group with members := group.members ++ [⟨launch.index, launch.session options⟩] }
          (launch.exchanges.map (Exchange.ofMember launch.index))
          { group with members := group.members ++ [launch.member] } ending :=
      run_start_member_iff.2 ⟨launch, rfl, rfl, hended, rfl, rfl⟩
    rcases hcases with ⟨fault, hended, rfl, rfl, rfl⟩ | ⟨hended, more, hmore, rfl⟩
    · refine .inr ⟨group, _, _, _, hcreate, ?_, launch.exchanged_eq_append⟩
      rw [Attempt.run_get_bind_iff, Attempt.run_modify_bind_iff]
      exact Attempt.run_bind_iff.2 (.inl ⟨fault, hjoin hended, rfl⟩)
    · refine .inr ⟨group, _, _, _, hcreate, ?_,
        (congrArg (· ++ more) launch.exchanged_eq_append).trans (List.append_assoc ..)⟩
      rw [Attempt.run_get_bind_iff, Attempt.run_modify_bind_iff]
      exact Attempt.run_bind_iff.2 (.inr ⟨_, (), _, more, hjoin hended, hmore, rfl⟩)

/-- With options that `resolve`, sessions are launched one after another, up to the first that
fails. -/
theorem run_startFrom_iff {places : List (Machine × Nat)}
    (hresolve : Options.resolve group.options.spread = .ok options) :
    Attempt.Run (startFrom surroundings places) group exchanges last result ↔
      ∃ launches results, InTurn Launch.place (Launch.Ended surroundings options) places launches
          results ∧
        exchanges = launches.flatMap (Launch.exchanged options) ∧
        last = { group with members := group.members ++ launches.map Launch.member } ∧
        result = results.map fun _ => () := by
  induction places generalizing group exchanges with
  | nil =>
    refine Attempt.run_pure_iff.trans ⟨?_, ?_⟩
    · rintro ⟨rfl, rfl, rfl⟩
      exact ⟨[], _, .done, rfl, by rw [List.map_nil, List.append_nil], rfl⟩
    · rintro ⟨launches, results, hlaunches, rfl, rfl, rfl⟩
      cases hlaunches
      exact ⟨rfl, by rw [List.map_nil, List.append_nil], rfl⟩
  | cons place places ih =>
    have hnext (launch : Launch) : Options.resolve
        ({ group with members := group.members ++ [launch.member] } : Group).options.spread
          = .ok options := hresolve
    have hjoined (launch : Launch) (launches : List Launch) :
        group.members ++ [launch.member] ++ launches.map Launch.member
          = group.members ++ (launch :: launches).map Launch.member := by
      rw [List.append_assoc]
      rfl
    have hresults (results : Except Fault (List Unit)) :
        (results.map fun _ => ()) = (results.map (() :: ·)).map fun _ => () := by
      cases results <;> rfl
    refine (run_startFrom_cons_iff hresolve).trans ⟨?_, ?_⟩
    · rintro ⟨launch, hplace, ⟨fault, hended, rfl, rfl, rfl⟩ | ⟨hended, more, hmore, rfl⟩⟩
      · obtain rfl : launch.place = place := hplace
        exact ⟨[launch], _, .failed hended, (List.flatMap_singleton ..).symm, rfl, rfl⟩
      · obtain rfl : launch.place = place := hplace
        obtain ⟨launches, results, hlaunches, rfl, rfl, rfl⟩ := (ih (hnext launch)).1 hmore
        refine ⟨launch :: launches, _, .next hended hlaunches, rfl, ?_, hresults results⟩
        rw [hjoined]
    · rintro ⟨launches, results, hlaunches, rfl, rfl, rfl⟩
      cases hlaunches with
      | @failed launch _ fault hended =>
        exact ⟨launch, rfl, .inl ⟨fault, hended, List.flatMap_singleton .., rfl, rfl⟩⟩
      | @next launch _ launches _ results hended hlaunches =>
        refine ⟨launch, rfl, .inr ⟨hended, _, (ih (hnext launch)).2 ?_, rfl⟩⟩
        exact ⟨launches, results, hlaunches, rfl, by rw [hjoined], (hresults results).symm⟩

/-- With options that do not `resolve` no session is made: the first machine, if there is one, ends
the start. -/
theorem run_startFrom_of_unresolved {places : List (Machine × Nat)} {fault : Fault}
    (hresolve : Options.resolve group.options.spread = .error fault)
    (h : Attempt.Run (startFrom surroundings places) group exchanges last result) :
    exchanges = [] ∧ last = group ∧ (places ≠ [] → result = .error fault) := by
  cases places with
  | nil =>
    obtain ⟨rfl, rfl, rfl⟩ := Attempt.run_pure_iff.1 h
    exact ⟨rfl, rfl, fun hnil => absurd rfl hnil⟩
  | cons place places =>
    have hcreate {asked : List Exchange} {mid : Group} {ending : Except Fault Session}
        (hrun : Attempt.Run
          ((Session.create place.1 group.options.spread).embed (memberEmbedding place.2)) group
          asked mid ending) :
        asked = [] ∧ mid = group ∧ ending = .error fault := by
      obtain ⟨inner, hinner, rfl⟩ := run_embed_member_iff.1 hrun
      obtain ⟨rfl, ⟨fault', hfault, rfl, rfl⟩ | ⟨options, id, hoptions, -, -⟩⟩ :=
        Session.run_create_iff.1 hinner
      · obtain rfl := Except.error.inj (hresolve.symm.trans hfault)
        exact ⟨rfl, rfl, rfl⟩
      · exact absurd (hresolve.symm.trans hoptions) nofun
    rw [startFrom, Attempt.run_get_bind_iff] at h
    rcases Attempt.run_bind_iff.1 h with ⟨fault', hfailed, rfl⟩ | ⟨_, _, _, _, hmade, -, -⟩
    · obtain ⟨rfl, rfl, hfault⟩ := hcreate hfailed
      obtain rfl := Except.error.inj hfault
      exact ⟨rfl, rfl, fun _ => rfl⟩
    · exact absurd (hcreate hmade).2.2 nofun

/-- A group that was `started` already refuses to be started. -/
theorem run_start_of_started_iff (hstarted : group.started = true) :
    Attempt.Run (start surroundings) group exchanges last result ↔
      exchanges = [] ∧ last = group ∧
        result = .error (.state "DeploymentGroup.start() may only be called once" none) := by
  rw [start, Attempt.run_get_bind_iff, hstarted, if_pos rfl]
  exact Program.run_done_iff

/-- Any other group is started on all of its machines. -/
theorem run_start_of_fresh_iff (hstarted : group.started = false) :
    Attempt.Run (start surroundings) group exchanges last result ↔
      Attempt.Run (startFrom surroundings group.machines.zipIdx) { group with started := true }
        exchanges last result := by
  rw [start, Attempt.run_get_bind_iff, hstarted, if_neg Bool.false_ne_true]
  exact Attempt.run_set_bind_iff

/-- A group that was never started starts by launching sessions, one `Launch` after another. -/
theorem launches_of_run_start {machines : List Machine} {input : Options.Input}
    (hresolve : Options.resolve input.spread = .ok options)
    (h : Attempt.Run (start surroundings) { machines, options := input } exchanges last result) :
    ∃ launches results,
      InTurn Launch.place (Launch.Ended surroundings options) machines.zipIdx launches results ∧
      exchanges = launches.flatMap (Launch.exchanged options) ∧
      last = {
        machines, options := input, members := launches.map Launch.member, started := true } ∧
      result = results.map fun _ => () := by
  have hfrom : Attempt.Run (startFrom surroundings machines.zipIdx)
      { machines, options := input, started := true } exchanges last result :=
    (run_start_of_fresh_iff rfl).1 h
  exact (run_startFrom_iff hresolve).1 hfrom

/-- However a `start` ends, there is no other. -/
theorem started_of_run_start
    (h : Attempt.Run (start surroundings) group exchanges last result) : last.started = true := by
  cases hstarted : group.started with
  | true =>
    obtain ⟨-, rfl, -⟩ := (run_start_of_started_iff hstarted).1 h
    exact hstarted
  | false =>
    let starting : Group := { group with started := true }
    have hfrom : Attempt.Run (startFrom surroundings group.machines.zipIdx) starting exchanges last
        result := (run_start_of_fresh_iff hstarted).1 h
    cases hresolve : Options.resolve starting.options.spread with
    | error fault =>
      obtain ⟨-, rfl, -⟩ := run_startFrom_of_unresolved hresolve hfrom
      rfl
    | ok options =>
      obtain ⟨_, _, -, -, rfl, -⟩ := (run_startFrom_iff hresolve).1 hfrom
      rfl

end Starting

/-! ## A group to go by -/

/-- A `Group` of one session, before it starts. -/
def brief : Group := { machines := [⟨none, .direct⟩], options := Session.briefInput }

/-- The group `brief` once its session has started. -/
def briefReady : Group := { brief with members := [⟨0, Session.briefReady⟩], started := true }

theorem run_start_brief : ∃ exchanges,
    Attempt.Run (start ⟨"20.11.1", none⟩) brief exchanges briefReady (.ok ()) := by
  obtain ⟨starting, hstart⟩ := Session.run_start_brief
  let launch : Launch := ⟨⟨none, .direct⟩, 0, "d-1", starting, Session.briefReady⟩
  let started : Group := { brief with started := true }
  have hresolve : Options.resolve started.options.spread = .ok Session.brief.options :=
    Session.resolve_briefInput
  have hended : launch.Ended ⟨"20.11.1", none⟩ Session.brief.options (.ok ()) := hstart
  exact ⟨_, (run_start_of_fresh_iff rfl).2
    ((run_startFrom_iff hresolve).2 ⟨[launch], _, .next hended .done, rfl, rfl, rfl⟩)⟩

end Group

end Outpost

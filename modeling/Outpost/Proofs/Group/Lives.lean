import Mathlib.Data.List.Nodup
import Outpost.Proofs.Group.Closing

/-!
# What becomes of the sessions of a group

Whatever happens to a group that was started, each of its sessions keeps its place and goes through
a life of its own: `ofMember` finds the exchanges of this life, and no others, among all that is
exchanged for the group. Only `close` takes a session out of the members, and closes it then. So the
list of all `sessions`, those that are members and those that have `departed`, can be followed entry
by entry, by a step for every `Touch` and an induction over `Touches`.

## Contents

* `Group.sessions`, `Group.Advances`, `Group.Goes`: all sessions, and what becomes of each.
* `Group.goes_of_touch`, `Group.goes_of_touches`.
-/

namespace Outpost

namespace Group

/-- All sessions of a group, each with whether `close` has taken it out of the members. -/
def sessions (group : Group) : List (Member × Bool) :=
  group.departed.map (·, true) ++ group.members.map (·, false)

/-- What becomes of a session while `exchanges` are made for its group: it keeps its `place` and
goes through a `life` of some `moments`, and what is `exchanged` for it is what these moments ask
for. If it is taken out of the members, then it is `closed` in one of them. -/
structure Advances (exchanges : List Exchange) (moments : List Session.Moment)
    (before after : Member × Bool) : Prop where
  place : after.1.index = before.1.index
  life : Session.Life before.1.session moments after.1.session
  exchanged : ofMember before.1.index exchanges = moments.flatMap Session.Moment.exchanges
  closed : after.2 = true → before.2 = true ∨ ∃ moment ∈ moments, moment.use.isClose = true

/-- A session of the group is what became of another one: it `Advances`, through some moments. -/
def Goes (exchanges : List Exchange) (before after : Member × Bool) : Prop :=
  ∃ moments, Advances exchanges moments before after

section Lives

variable {group mid last : Group} {exchanges first second : List Exchange}
  {moment : Session.Moment} {member : Member} {gone : Bool}
  {entry before next after : Member × Bool}

/-- Nothing happens to a session that nothing is exchanged for. -/
theorem Goes.idle (h : ofMember entry.1.index exchanges = []) : Goes exchanges entry entry :=
  ⟨[], rfl, .nil _, h, .inl⟩

theorem Goes.trans (h : Goes first before next) (hlater : Goes second next after) :
    Goes (first ++ second) before after := by
  obtain ⟨moments, h⟩ := h
  obtain ⟨others, hlater⟩ := hlater
  refine ⟨moments ++ others, hlater.place.trans h.place, h.life.append hlater.life, ?_, ?_⟩
  · rw [ofMember_append, h.exchanged, ← h.place, hlater.exchanged, List.flatMap_append]
  · intro hgone
    rcases hlater.closed hgone with hmid | ⟨moment, hmoment, hclose⟩
    · refine (h.closed hmid).imp_right ?_
      rintro ⟨moment, hmoment, hclose⟩
      exact ⟨moment, List.mem_append_left _ hmoment, hclose⟩
    · exact .inr ⟨moment, List.mem_append_right _ hmoment, hclose⟩

/-- One entry after another, from a list to a later one and from there to the `lasts`. -/
theorem forall₂_goes_trans {sessions others lasts : List (Member × Bool)}
    (h : List.Forall₂ (Goes first) sessions others)
    (hlater : List.Forall₂ (Goes second) others lasts) :
    List.Forall₂ (Goes (first ++ second)) sessions lasts := by
  induction h generalizing lasts with
  | nil =>
    obtain rfl := List.forall₂_nil_left_iff.1 hlater
    exact .nil
  | cons hgoes _ ih =>
    obtain ⟨_, _, hnext, hrest, rfl⟩ := List.forall₂_cons_left_iff.1 hlater
    exact .cons (hgoes.trans hnext) (ih hrest)

/-- Sessions that go on by `Goes` keep their places. -/
theorem places_of_goes {sessions others : List (Member × Bool)}
    (h : List.Forall₂ (Goes exchanges) sessions others) :
    others.map (·.1.index) = sessions.map (·.1.index) := by
  induction h with
  | nil => rfl
  | cons hgoes _ ih =>
    obtain ⟨_, hgoes⟩ := hgoes
    rw [List.map_cons, List.map_cons, hgoes.place, ih]

/-- One session is used by a `Moment`, and nothing happens to the others. -/
theorem forall₂_goes_of_moment {front back : List (Member × Bool)}
    (hplaces : ((front ++ (member, gone) :: back).map (·.1.index)).Nodup)
    (h : Attempt.Run moment.use.attempt member.session moment.exchanges moment.after
      moment.result) :
    List.Forall₂ (Goes (moment.exchanges.map (.ofMember member.index)))
      (front ++ (member, gone) :: back)
      (front ++ ({ member with session := moment.after }, gone) :: back) := by
  rw [List.map_append, List.map_cons, List.nodup_middle, List.nodup_cons, List.mem_append,
    not_or] at hplaces
  obtain ⟨⟨hfront, hback⟩, -⟩ := hplaces
  have hidle {others : List (Member × Bool)} (hothers : member.index ∉ others.map (·.1.index)) :
      ∀ other ∈ others, Goes (moment.exchanges.map (.ofMember member.index)) other other := by
    intro other hother
    refine .idle (ofMember_map_of_ne (fun heq => hothers ?_) _)
    rw [heq]
    exact List.mem_map_of_mem hother
  have hused : Goes (moment.exchanges.map (.ofMember member.index)) (member, gone)
      ({ member with session := moment.after }, gone) := by
    refine ⟨[moment], rfl, .cons h (.nil _), ?_, .inl⟩
    rw [ofMember_map_ofMember, List.flatMap_singleton]
  exact List.rel_append (List.forall₂_same.2 (hidle hfront))
    (.cons hused (List.forall₂_same.2 (hidle hback)))

/-- The members around the one whose session `setSession` replaces. -/
theorem split_setSession {position : Nat} (hmember : group.members[position]? = some member)
    (session : Session) : ∃ front back, group.members = front ++ member :: back ∧
      (setSession position session group).members = front ++ { member with session } :: back := by
  obtain ⟨hvalid, rfl⟩ := List.getElem?_eq_some_iff.1 hmember
  refine ⟨_, _, ?_, List.modify_eq_take_cons_drop hvalid⟩
  rw [← List.drop_eq_getElem_cons hvalid, List.take_append_drop]

/-- A `connectAll` asks each session for one connection at most, in its own name. -/
theorem forall₂_goes_of_connectAll {settings : Connection.Settings}
    {result : Except Fault (List Connection)} (hplaces : (group.sessions.map (·.1.index)).Nodup)
    (h : Attempt.Run (connectAll settings) group exchanges last result) :
    List.Forall₂ (Goes exchanges) group.sessions last.sessions := by
  obtain ⟨rfl, dials, hturns, rfl⟩ := run_connectAll h
  have hdialled : ∀ dial ∈ dials, (dial.member, false) ∈ last.sessions := by
    intro dial hdial
    have hmember : dial.member ∈ last.members :=
      hturns.isPrefix.subset (List.mem_map_of_mem hdial)
    exact List.mem_append_right _ (List.mem_map_of_mem hmember)
  have hindices : (dials.map fun dial => dial.member.index).Nodup := by
    have hprefix := (hturns.isPrefix.map Member.index).sublist
    rw [List.map_map] at hprefix
    refine hprefix.nodup ?_
    rw [sessions, List.map_append, List.map_map, List.map_map] at hplaces
    exact (List.nodup_append.1 hplaces).2.1
  obtain ⟨hinside, houtside⟩ := ofMember_flatMap (fun dial : Dial => ofMember_map_ofMember _ _)
    (fun dial place hplace => ofMember_map_of_ne (Ne.symm hplace) _) hindices
  refine List.forall₂_same.2 fun entry hentry => ?_
  by_cases hasked : entry.1.index ∈ dials.map fun dial => dial.member.index
  · obtain ⟨dial, hdial, hplace⟩ := List.mem_map.1 hasked
    obtain rfl : (dial.member, false) = entry :=
      List.inj_on_of_nodup_map hplaces (hdialled dial hdial) hentry hplace
    obtain ⟨ending, hran⟩ := hturns.forall_taken dial hdial
    refine ⟨[⟨.connect settings, dial.exchanges, dial.member.session, ending⟩], rfl,
      .cons hran (.nil _), ?_, .inl⟩
    rw [List.flatMap_singleton]
    exact hinside dial hdial
  · exact .idle (houtside _ hasked)

/-- A `close` closes the members, and nothing happens to those that it took out before. -/
theorem forall₂_goes_of_close {timeout : Option Timeout} {result : Except Fault Unit}
    (hplaces : (group.sessions.map (·.1.index)).Nodup)
    (h : Attempt.Run (close timeout) group exchanges last result) :
    List.Forall₂ (Goes exchanges) group.sessions last.sessions := by
  obtain ⟨rounds, hrounds, hheld, rfl, rfl, rfl⟩ := run_close_iff.1 h
  rw [sessions, List.map_append, ← hrounds, List.nodup_append] at hplaces
  obtain ⟨-, hmembers, hapart⟩ := hplaces
  simp only [List.map_map, Function.comp_def] at hmembers hapart
  obtain ⟨hinside, houtside⟩ := ofMember_rounds hmembers
  have hafter : sessions { group with
      members := [], departed := group.departed ++ rounds.map Round.departed }
        = group.departed.map (·, true) ++ (rounds.map Round.departed).map (·, true) := by
    rw [sessions, List.map_append, List.map_nil, List.append_nil]
  rw [hafter, sessions, ← hrounds]
  refine List.rel_append (List.forall₂_same.2 fun entry hentry => ?_) ?_
  · obtain ⟨member, hmember, rfl⟩ := List.mem_map.1 hentry
    refine .idle (houtside _ fun hround => ?_)
    exact hapart _ (List.mem_map_of_mem hmember) _ hround rfl
  · rw [List.map_map, List.map_map, List.forall₂_map_left_iff, List.forall₂_map_right_iff]
    refine List.forall₂_same.2 fun round hround => ?_
    refine ⟨[⟨.close timeout, round.exchanges, round.after, round.result⟩], rfl,
      .cons (hheld round hround) (.nil _), ?_, fun _ => .inr ⟨_, List.mem_cons_self, rfl⟩⟩
    rw [List.flatMap_singleton]
    exact hinside round hround

/-- Every session of a group that was started goes on, whatever `Touch` there is to the group. -/
theorem goes_of_touch (h : Touch group exchanges last) (hstarted : group.started = true)
    (hplaces : (group.sessions.map (·.1.index)).Nodup) :
    List.Forall₂ (Goes exchanges) group.sessions last.sessions := by
  cases h with
  | starts hrun =>
    obtain ⟨rfl, rfl, -⟩ := (run_start_of_started_iff hstarted).1 hrun
    exact List.forall₂_same.2 fun _ _ => .idle rfl
  | connects hrun => exact forall₂_goes_of_connectAll hplaces hrun
  | closes hrun => exact forall₂_goes_of_close hplaces hrun
  | @usesMember position member moment hmember hrun =>
    obtain ⟨front, back, hmembers, hafter⟩ := split_setSession hmember moment.after
    have hsessions (member : Member) : group.departed.map (·, true)
        ++ (front ++ member :: back).map (·, false)
          = (group.departed.map (·, true) ++ front.map (·, false))
            ++ (member, false) :: back.map (·, false) := by
      rw [List.map_append, List.map_cons, List.append_assoc]
    have hlast : (setSession position moment.after group).sessions
        = (group.departed.map (·, true) ++ front.map (·, false))
          ++ ({ member with session := moment.after }, false) :: back.map (·, false) := by
      rw [sessions, hafter]
      exact hsessions _
    rw [sessions, hmembers, hsessions] at hplaces ⊢
    rw [hlast]
    exact forall₂_goes_of_moment hplaces hrun
  | @usesDeparted front back member moment hdeparted hrun =>
    have hsessions (member : Member) : (front ++ member :: back).map (·, true)
        ++ group.members.map (·, false) = front.map (·, true) ++ (member, true)
          :: (back.map (·, true) ++ group.members.map (·, false)) := by
      rw [List.map_append, List.map_cons, List.append_assoc, List.cons_append]
    rw [sessions, hdeparted, hsessions] at hplaces ⊢
    rw [sessions, hsessions]
    exact forall₂_goes_of_moment hplaces hrun

/-- The same for any number of `Touches`. -/
theorem goes_of_touches (h : Touches group exchanges last) (hstarted : group.started = true)
    (hplaces : (group.sessions.map (·.1.index)).Nodup) :
    List.Forall₂ (Goes exchanges) group.sessions last.sessions := by
  induction h with
  | nil => exact List.forall₂_same.2 fun _ _ => .idle rfl
  | cons htouch _ ih =>
    have hmid := goes_of_touch htouch hstarted hplaces
    refine forall₂_goes_trans hmid (ih (started_of_touch htouch hstarted) ?_)
    rwa [places_of_goes hmid]

end Lives

end Group

end Outpost

import Mathlib.Data.List.Forall2
import Outpost.Group
import Outpost.Proofs.Session.Use

/-!
# Sessions in a group

A group makes the requests of its sessions under the places of their machines. So what one session
exchanged can be told apart from everything else (`Group.ofMember`), and what is asked of a member
does to it what it would do to the session alone (`Group.run_onMember_iff`).

## Contents

* `Group.Exchange.ofMember`, `Group.ofMember`: exchanges of one session, as its group makes them.
* `Group.Touch`, `Group.Touches`: what may happen to a group.
* `Group.run_embed_member_iff`, `Group.run_onMember_iff`.
* `Group.InTurn`: steps that are taken one after another, up to the first that fails.
-/

namespace Outpost

namespace Group

/-! ## What may happen to a group -/

/-- An exchange of a `Group` with its surroundings. -/
abbrev Exchange : Type := Program.Exchange interface

/-- An exchange of the session on one machine, as one of its group. -/
def Exchange.ofMember (index : Nat) (x : Session.Exchange) : Exchange :=
  ⟨.member index x.request, x.reply⟩

/-- The exchange of the session on the machine at `index`, if it is one. -/
def Exchange.member? (index : Nat) : Exchange → Option Session.Exchange
  | ⟨.member place request, reply⟩ => if place = index then some ⟨request, reply⟩ else none
  | ⟨.report _, _⟩ => none

/-- The exchanges of the session on the machine at `index`. -/
def ofMember (index : Nat) (exchanges : List Exchange) : List Session.Exchange :=
  exchanges.filterMap (Exchange.member? index)

/-- What may happen to a `Group`, with what is exchanged for it: the group is started, connected to
or closed, or something is asked of one of its sessions, be it a member or one that closing has
taken out already. -/
inductive Touch : Group → List Exchange → Group → Prop
  | starts {group last : Group} {surroundings : Surroundings} {exchanges : List Exchange}
      {result : Except Fault Unit} :
      Attempt.Run (start surroundings) group exchanges last result → Touch group exchanges last
  | connects {group last : Group} {settings : Connection.Settings} {exchanges : List Exchange}
      {result : Except Fault (List Connection)} :
      Attempt.Run (connectAll settings) group exchanges last result → Touch group exchanges last
  | closes {group last : Group} {timeout : Option Timeout} {exchanges : List Exchange}
      {result : Except Fault Unit} :
      Attempt.Run (close timeout) group exchanges last result → Touch group exchanges last
  | usesMember {group : Group} {position : Nat} {member : Member} {moment : Session.Moment} :
      group.members[position]? = some member →
      Attempt.Run moment.use.attempt member.session moment.exchanges moment.after moment.result →
      Touch group (moment.exchanges.map (.ofMember member.index))
        (setSession position moment.after group)
  | usesDeparted {group : Group} {front back : List Member} {member : Member}
      {moment : Session.Moment} :
      group.departed = front ++ member :: back →
      Attempt.Run moment.use.attempt member.session moment.exchanges moment.after moment.result →
      Touch group (moment.exchanges.map (.ofMember member.index))
        { group with departed := front ++ { member with session := moment.after } :: back }

/-- Any number of touches, one after the other: each is a `Touch`. -/
inductive Touches : Group → List Exchange → Group → Prop
  | nil (group : Group) : Touches group [] group
  | cons {group mid last : Group} {first second : List Exchange} :
      Touch group first mid → Touches mid second last → Touches group (first ++ second) last

/-! ## What a session does in a group -/

section Members

variable {α : Type} {group last : Group} {position : Nat} {member absent : Member}
  {exchanges : List (Program.Exchange interface)} {session : Session}

theorem length_members_setSession (position : Nat) (session : Session) (group : Group) :
    (setSession position session group).members.length = group.members.length :=
  List.length_modify _ _ _

/-- A member that is given by `setSession` the session that it has. -/
theorem setSession_self (hmember : group.members[position]? = some member) :
    setSession position member.session group = group := by
  have hsame : group.members.modify position (fun other => { other with session := member.session })
      = group.members := by
    refine List.ext_getElem? fun place => ?_
    rw [List.getElem?_modify]
    by_cases hplace : position = place
    · subst hplace
      rw [hmember]
      simp
    · simp [hplace]
  rw [setSession, hsame]

/-- What a session does through its group is what it does: `memberEmbedding` changes nothing. -/
theorem run_embed_member_iff {σ β : Type} {p : Program σ Session.interface β} {index : Nat}
    {s s' : σ} {b : β} :
    Program.Run (p.embed (memberEmbedding index)) s exchanges s' b ↔
      ∃ inner, Program.Run p s inner s' b ∧ exchanges = inner.map (Exchange.ofMember index) := by
  constructor
  · intro h
    obtain ⟨carried, hrun, rfl⟩ := Program.run_embed_iff.1 h
    refine ⟨_, hrun, ?_⟩
    rw [List.map_map]
    rfl
  · rintro ⟨inner, hrun, rfl⟩
    have hback (r : Session.Request) (reply : Session.interface.Reply r) :
        (memberEmbedding index).reply r reply = reply := rfl
    exact Program.Run.embed hback hrun

/-- Something that is asked of a member by `onMember` changes that member only, as it changes the
session. -/
theorem run_onMember_iff {x : Attempt Session Session.interface α} {result : Except Fault α}
    (hmember : group.members[position]? = some member) :
    Attempt.Run (onMember position absent x) group exchanges last result ↔
      ∃ inner session, Attempt.Run x member.session inner session result ∧
        exchanges = inner.map (Exchange.ofMember absent.index) ∧
        last = setSession position session group := by
  have hover (group : Group) (second first : Session) :
      setSession position second (setSession position first group)
        = setSession position second group := by
    rw [setSession, setSession, setSession, List.modify_modify_eq]
    rfl
  have hget (group : Group) (session : Session) (hvalid : position < group.members.length) :
      sessionAt position absent.session (setSession position session group) = session := by
    rw [sessionAt, setSession, List.getElem?_modify, List.getElem?_eq_getElem hvalid]
    simp
  have hset (group : Group) (session : Session) (hvalid : position < group.members.length) :
      position < (setSession position session group).members.length := by
    rw [length_members_setSession]
    exact hvalid
  have hvalid : position < group.members.length := (List.getElem?_eq_some_iff.1 hmember).1
  have hbefore : sessionAt position absent.session group = member.session := by
    rw [sessionAt, hmember]
  have hself : setSession position (sessionAt position absent.session group) group = group := by
    rw [hbefore, setSession_self hmember]
  constructor
  · intro h
    have hrun := Program.Run.of_focus hget hset hvalid h
    rw [hbefore] at hrun
    obtain ⟨inner, hinner, rfl⟩ := run_embed_member_iff.1 hrun
    refine ⟨inner, _, hinner, rfl, ?_⟩
    rcases Program.eq_or_eq_set_of_run_focus hover h with rfl | ⟨session, rfl⟩
    · exact hself.symm
    · rw [hget group session hvalid]
  · rintro ⟨inner, session, hrun, rfl, rfl⟩
    rw [← hbefore] at hrun
    exact Program.Run.focus hget hset hover hvalid hself (run_embed_member_iff.2 ⟨inner, hrun, rfl⟩)

theorem Exchange.eq_ofMember_of_member? {index : Nat} {x : Exchange} {inner : Session.Exchange}
    (h : x.member? index = some inner) : x = .ofMember index inner := by
  obtain ⟨request, reply⟩ := x
  cases request with
  | report line => exact absurd h nofun
  | member place request =>
    by_cases hplace : place = index
    · subst hplace
      rw [Exchange.member?, if_pos rfl] at h
      obtain rfl := Option.some.inj h
      rfl
    · rw [Exchange.member?, if_neg hplace] at h
      exact absurd h nofun

theorem ofMember_append (index : Nat) (first second : List Exchange) :
    ofMember index (first ++ second) = ofMember index first ++ ofMember index second :=
  List.filterMap_append

/-- What was exchanged for the session at `index`, among what was exchanged for the group. -/
theorem ofMember_map_ofMember (index : Nat) (inner : List Session.Exchange) :
    ofMember index (inner.map (Exchange.ofMember index)) = inner := by
  have hown : Exchange.member? index ∘ Exchange.ofMember index = some :=
    funext fun x => if_pos rfl
  rw [ofMember, List.filterMap_map, hown, List.filterMap_some]

theorem ofMember_map_of_ne {index place : Nat} (h : place ≠ index) (inner : List Session.Exchange) :
    ofMember index (inner.map (Exchange.ofMember place)) = [] := by
  rw [ofMember, List.filterMap_map]
  exact List.filterMap_eq_nil_iff.2 fun x _ => if_neg h

/-- What was exchanged for the session at one `index`, where each part was exchanged for another
session, or was nobody's. -/
theorem ofMember_flatMap {τ : Type} {index : τ → Nat} {own : τ → List Session.Exchange}
    {exchanged : τ → List Exchange}
    (hown : ∀ part, ofMember (index part) (exchanged part) = own part)
    (hother : ∀ part place, place ≠ index part → ofMember place (exchanged part) = [])
    {parts : List τ} (hparts : (parts.map index).Nodup) :
    (∀ part ∈ parts, ofMember (index part) (parts.flatMap exchanged) = own part) ∧
      ∀ place, place ∉ parts.map index → ofMember place (parts.flatMap exchanged) = [] := by
  induction parts with
  | nil => exact ⟨fun part h => absurd h List.not_mem_nil, fun _ _ => rfl⟩
  | cons part parts ih =>
    obtain ⟨hnew, hnodup⟩ := List.nodup_cons.1 hparts
    obtain ⟨hinside, houtside⟩ := ih hnodup
    simp only [List.flatMap_cons, ofMember_append]
    refine ⟨List.forall_mem_cons.2 ⟨?_, fun other hmem => ?_⟩, fun place hplace => ?_⟩
    · rw [hown, houtside _ hnew, List.append_nil]
    · have hne : index other ≠ index part := fun heq => hnew (heq ▸ List.mem_map_of_mem hmem)
      rw [hother _ _ hne, hinside other hmem]
      rfl
    · rw [List.map_cons, List.mem_cons, not_or] at hplace
      rw [hother _ _ hplace.1, houtside _ hplace.2]
      rfl

end Members

/-! ## One after another -/

/-- Steps that are taken one after another, each at its `place`, up to the first that fails. The
results are those of the steps; a failure is that of the last step taken. -/
inductive InTurn {π τ α : Type} (place : τ → π) (taken : τ → Except Fault α → Prop) :
    List π → List τ → Except Fault (List α) → Prop
  | done : InTurn place taken [] [] (.ok [])
  | failed {step : τ} {places : List π} {fault : Fault} :
      taken step (.error fault) → InTurn place taken (place step :: places) [step] (.error fault)
  | next {step : τ} {places : List π} {steps : List τ} {a : α} {result : Except Fault (List α)} :
      taken step (.ok a) → InTurn place taken places steps result →
      InTurn place taken (place step :: places) (step :: steps) (result.map (a :: ·))

section InTurn

variable {π τ α : Type} {place : τ → π} {taken : τ → Except Fault α → Prop} {places : List π}
  {steps : List τ}

/-- Nothing is left out, and nothing comes behind a failure. -/
theorem InTurn.isPrefix {result : Except Fault (List α)}
    (h : InTurn place taken places steps result) : steps.map place <+: places := by
  induction h with
  | done => exact List.prefix_rfl
  | failed => exact List.cons_prefix_cons.2 ⟨rfl, List.nil_prefix⟩
  | next _ _ ih => exact List.cons_prefix_cons.2 ⟨rfl, ih⟩

/-- Steps `InTurn` behind steps that all succeeded. -/
theorem InTurn.append {more : List π} {later : List τ} {results : List α}
    {result : Except Fault (List α)} (h : InTurn place taken places steps (.ok results))
    (hlater : InTurn place taken more later result) :
    InTurn place taken (places ++ more) (steps ++ later) (result.map (results ++ ·)) := by
  generalize hresult : Except.ok results = ending at h
  induction h generalizing results with
  | done =>
    obtain rfl := Except.ok.inj hresult
    have hsame : result.map ([] ++ ·) = result := by cases result <;> rfl
    rwa [hsame]
  | failed => exact absurd hresult nofun
  | @next step places steps a ending htaken _ ih =>
    cases ending with
    | error fault => exact absurd hresult nofun
    | ok front =>
      obtain rfl := Except.ok.inj hresult
      have hcons : result.map (a :: front ++ ·) = (result.map (front ++ ·)).map (a :: ·) := by
        cases result <;> rfl
      rw [hcons]
      exact .next htaken (ih rfl)

/-- There are no steps behind a failure. -/
theorem InTurn.append_places {fault : Fault} (h : InTurn place taken places steps (.error fault))
    (more : List π) : InTurn place taken (places ++ more) steps (.error fault) := by
  generalize hresult : Except.error fault = ending at h
  induction h with
  | done => exact absurd hresult nofun
  | failed htaken =>
    obtain rfl := Except.error.inj hresult
    exact .failed htaken
  | @next step places steps a ending htaken _ ih =>
    cases ending with
    | ok later => exact absurd hresult nofun
    | error fault' =>
      obtain rfl := Except.error.inj hresult
      exact .next htaken (ih rfl)

/-- What is known of a step that was `taken` and ended in some way is known of all the steps. -/
theorem InTurn.imp {taken' : τ → Except Fault α → Prop} {result : Except Fault (List α)}
    (himp : ∀ step ending, taken step ending → taken' step ending)
    (h : InTurn place taken places steps result) : InTurn place taken' places steps result := by
  induction h with
  | done => exact .done
  | failed htaken => exact .failed (himp _ _ htaken)
  | next htaken _ ih => exact .next (himp _ _ htaken) ih

/-- Every step was `taken` and ended somehow. -/
theorem InTurn.forall_taken {result : Except Fault (List α)}
    (h : InTurn place taken places steps result) : ∀ step ∈ steps, ∃ ending, taken step ending := by
  induction h with
  | done => exact fun step hstep => absurd hstep List.not_mem_nil
  | failed htaken => exact List.forall_mem_singleton.2 ⟨_, htaken⟩
  | next htaken _ ih => exact List.forall_mem_cons.2 ⟨⟨_, htaken⟩, ih⟩

/-- If no step fails, all are taken, and each gives its result. -/
theorem InTurn.of_ok {results : List α} (h : InTurn place taken places steps (.ok results)) :
    steps.map place = places ∧ List.Forall₂ (fun step a => taken step (.ok a)) steps results := by
  generalize hresult : Except.ok results = result at h
  induction h generalizing results with
  | done =>
    obtain rfl := Except.ok.inj hresult
    exact ⟨rfl, .nil⟩
  | failed => exact absurd hresult nofun
  | @next step places steps a result htaken _ ih =>
    cases result with
    | error fault => exact absurd hresult nofun
    | ok later =>
      obtain rfl := Except.ok.inj hresult
      obtain ⟨rfl, hlater⟩ := ih rfl
      exact ⟨rfl, .cons htaken hlater⟩

/-- A failure is that of the last step that was `taken`, and all before it succeeded. -/
theorem InTurn.of_error {fault : Fault} (h : InTurn place taken places steps (.error fault)) :
    ∃ front failed results, steps = front ++ [failed] ∧
      List.Forall₂ (fun step a => taken step (.ok a)) front results ∧
      taken failed (.error fault) := by
  generalize hresult : Except.error fault = result at h
  induction h with
  | done => exact absurd hresult nofun
  | @failed step places fault' htaken =>
    obtain rfl := Except.error.inj hresult
    exact ⟨[], step, [], rfl, .nil, htaken⟩
  | @next step places steps a result htaken _ ih =>
    cases result with
    | ok later => exact absurd hresult nofun
    | error fault' =>
      obtain rfl := Except.error.inj hresult
      obtain ⟨front, failed, results, rfl, hfront, hfailed⟩ := ih rfl
      exact ⟨step :: front, failed, a :: results, rfl, .cons htaken hfront, hfailed⟩

end InTurn

end Group

end Outpost

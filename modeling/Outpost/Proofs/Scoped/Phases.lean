import Outpost.Scoped
import Outpost.Proofs.Group.Closing

/-!
# The phases of a scope

A scope begins by starting what it is for, has its work done if that succeeded, and closes in any
case, in this order and each of it once (`run_scope_iff`). What it comes to is decided by the first
fault among the three (`firstFault`); a failure to close behind another one is only spoken of
(`complaint`).

## Contents

* `firstFault`, `complaint`, `Undertaken`.
* `run_scope_iff`, `Scope`: a scope, phase by phase.
* `Session.Course`, `Session.ran_of_run_withDeployment`: the course of a scope for a session.
* `Group.Course`, `Group.ran_of_run_deployGroup`: the course of a scope for a group.
-/

namespace Outpost

/-! ## Three phases -/

/-- What a scope comes to, given what its work and its closing come to: the first fault that there
is. -/
def firstFault {α : Type} : Except Fault α → Except Fault Unit → Except Fault α
  | .error fault, _ => .error fault
  | .ok _, .error fault => .error fault
  | .ok a, .ok _ => .ok a

/-- What is said by a `warning` of a failure to close where there is a fault already. -/
def complaint {ρ α : Type} (warning : Fault → ρ) : Except Fault α → Except Fault Unit → List ρ
  | .error _, .error closing => [warning closing]
  | _, _ => []

/-- A scope succeeds by `firstFault` if both its work and its closing do. -/
theorem firstFault_eq_ok_iff {α : Type} {worked : Except Fault α} {closed : Except Fault Unit}
    {a : α} : firstFault worked closed = .ok a ↔ worked = .ok a ∧ closed = .ok () := by
  cases worked with
  | error fault => exact iff_of_false nofun fun h => absurd h.1 nofun
  | ok b =>
    cases closed with
    | error fault => exact iff_of_false nofun fun h => absurd h.2 nofun
    | ok => exact (and_iff_left rfl).symm

theorem firstFault_ok (closed : Except Fault Unit) : firstFault (.ok ()) closed = closed := by
  rcases closed with fault | ⟨⟨⟩⟩
  · rfl
  · rfl

/-- A `complaint` is made where it can be replied to. -/
theorem exists_said {J : Interface} {α : Type} {warning : Fault → J.Request}
    (reply : ∀ fault, J.Reply (warning fault)) (worked : Except Fault α)
    (closed : Except Fault Unit) : ∃ said : List (Program.Exchange J),
      said.map Program.Exchange.request = complaint warning worked closed :=
  match worked, closed with
  | .error _, .error closing => ⟨[⟨warning closing, reply closing⟩], rfl⟩
  | .error _, .ok _ => ⟨[], rfl⟩
  | .ok _, _ => ⟨[], rfl⟩

section Phases

variable {σ : Type} {J : Interface} {α : Type} {start closing : Attempt σ J Unit}
  {work : Attempt σ J α} {warn : Fault → Attempt σ J Unit} {warning : Fault → J.Request}
  {s last : σ} {exchanges : List (Program.Exchange J)} {result : Except Fault α}

/-- What comes of some `work` after a start: it is done if the start succeeded. Otherwise it is not
done, and the fault of the start stands for its own. -/
inductive Undertaken (work : Attempt σ J α) :
    Except Fault Unit → σ → List (Program.Exchange J) → σ → Except Fault α → Prop
  | skipped {fault : Fault} {s : σ} : Undertaken work (.error fault) s [] s (.error fault)
  | done {s last : σ} {exchanges : List (Program.Exchange J)} {result : Except Fault α} :
      Attempt.Run work s exchanges last result → Undertaken work (.ok ()) s exchanges last result

/-- Work behind a `start`, as `Undertaken`. -/
theorem run_start_work_iff :
    Attempt.Run (do
      start
      work) s exchanges last result ↔
      ∃ mid begun first second, Attempt.Run start s first mid begun ∧
        Undertaken work begun mid second last result ∧ exchanges = first ++ second := by
  refine Attempt.run_bind_iff.trans ⟨?_, ?_⟩
  · rintro (⟨fault, hstart, rfl⟩ | ⟨mid, ⟨⟩, first, second, hstart, hwork, rfl⟩)
    · exact ⟨last, _, exchanges, [], hstart, .skipped, (List.append_nil _).symm⟩
    · exact ⟨mid, _, first, second, hstart, .done hwork, rfl⟩
  · rintro ⟨mid, begun, first, second, hstart, hwork, rfl⟩
    cases hwork with
    | skipped => exact .inl ⟨_, by rwa [List.append_nil], rfl⟩
    | done hwork => exact .inr ⟨mid, (), first, second, hstart, hwork, rfl⟩

/-- What is done by `closing` behind some work, however that ended. -/
theorem run_closing_iff {worked : Except Fault α}
    (hwarn : ∀ {cause s said s' ending}, Attempt.Run (warn cause) s said s' ending ↔
      said.map Program.Exchange.request = [warning cause] ∧ s' = s ∧ ending = .ok ()) :
    Attempt.Run (match worked with
      | .ok a => do
        closing
        return a
      | .error fault => do
        match ← ExceptT.lift closing.outcome with
        | .ok () => throw fault
        | .error cause =>
          warn cause
          throw fault) s exchanges last result ↔
      ∃ first said closed, Attempt.Run closing s first last closed ∧
        said.map Program.Exchange.request = complaint warning worked closed ∧
        exchanges = first ++ said ∧ result = firstFault worked closed := by
  cases worked with
  | ok a =>
    refine Attempt.run_bind_iff.trans ⟨?_, ?_⟩
    · rintro (⟨fault, hclose, rfl⟩ | ⟨mid, ⟨⟩, first, second, hclose, hdone, rfl⟩)
      · exact ⟨exchanges, [], _, hclose, rfl, (List.append_nil _).symm, rfl⟩
      · obtain ⟨rfl, rfl, rfl⟩ := Attempt.run_pure_iff.1 hdone
        exact ⟨first, [], _, hclose, rfl, rfl, rfl⟩
    · rintro ⟨first, said, fault | ⟨⟨⟩⟩, hclose, hsaid, rfl, rfl⟩
      · obtain rfl := List.map_eq_nil_iff.1 hsaid
        exact .inl ⟨fault, by rwa [List.append_nil], rfl⟩
      · exact .inr ⟨last, (), first, said, hclose,
          Attempt.run_pure_iff.2 ⟨List.map_eq_nil_iff.1 hsaid, rfl, rfl⟩, rfl⟩
  | error fault =>
    have hafter {mid : σ} {closed : Except Fault Unit} {second : List (Program.Exchange J)} :
        Attempt.Run (match closed with
          | .ok () => throw fault
          | .error cause => do
            warn cause
            throw fault) mid second last result ↔
          second.map Program.Exchange.request
              = complaint warning (.error fault : Except Fault α) closed ∧
            last = mid ∧ result = .error fault := by
      rcases closed with cause | ⟨⟨⟩⟩
      · refine (Attempt.run_bind_iff_of_ok hwarn).trans ⟨?_, ?_⟩
        · rintro ⟨said, rest, hsaid, hthrow, rfl⟩
          obtain ⟨rfl, rfl, rfl⟩ := Attempt.run_throw_iff.1 hthrow
          rw [List.append_nil]
          exact ⟨hsaid, rfl, rfl⟩
        · rintro ⟨hsaid, rfl, rfl⟩
          exact ⟨second, [], hsaid, Attempt.run_throw_iff.2 ⟨rfl, rfl, rfl⟩,
            (List.append_nil _).symm⟩
      · have hnothing : complaint warning (.error fault : Except Fault α) (.ok ()) = [] := rfl
        rw [hnothing, List.map_eq_nil_iff]
        exact Attempt.run_throw_iff
    refine Attempt.run_outcome_bind_iff.trans ⟨?_, ?_⟩
    · rintro ⟨mid, closed, first, second, hclose, hdone, rfl⟩
      obtain ⟨hsaid, rfl, rfl⟩ := hafter.1 hdone
      exact ⟨first, second, closed, hclose, hsaid, rfl, rfl⟩
    · rintro ⟨first, said, closed, hclose, hsaid, rfl, rfl⟩
      exact ⟨last, closed, first, said, hclose, hafter.2 ⟨hsaid, rfl, rfl⟩, rfl⟩

/-- **A scope, phase by phase.** It `start`s, its work is done if that succeeded, it closes, and
nothing else happens but a word about a failure to close behind another fault. -/
theorem run_scope_iff
    (hwarn : ∀ {cause s said s' ending}, Attempt.Run (warn cause) s said s' ending ↔
      said.map Program.Exchange.request = [warning cause] ∧ s' = s ∧ ending = .ok ()) :
    Attempt.Run (do
      let body : Attempt σ J α := do
        start
        work
      match ← ExceptT.lift body.outcome with
      | .ok a =>
        closing
        return a
      | .error fault =>
        match ← ExceptT.lift closing.outcome with
        | .ok () => throw fault
        | .error cause =>
          warn cause
          throw fault) s exchanges last result ↔
      ∃ opened mid begun worked closed starting working stopping said,
        Attempt.Run start s starting opened begun ∧
        Undertaken work begun opened working mid worked ∧
        Attempt.Run closing mid stopping last closed ∧
        said.map Program.Exchange.request = complaint warning worked closed ∧
        exchanges = starting ++ working ++ stopping ++ said ∧
        result = firstFault worked closed := by
  refine Attempt.run_outcome_bind_iff.trans ⟨?_, ?_⟩
  · rintro ⟨mid, worked, first, second, hbody, hafter, rfl⟩
    obtain ⟨opened, begun, starting, working, hstart, hwork, rfl⟩ := run_start_work_iff.1 hbody
    obtain ⟨stopping, said, closed, hclose, hsaid, rfl, rfl⟩ := (run_closing_iff hwarn).1 hafter
    exact ⟨opened, mid, begun, worked, closed, starting, working, stopping, said, hstart, hwork,
      hclose, hsaid, (List.append_assoc ..).symm, rfl⟩
  · rintro ⟨opened, mid, begun, worked, closed, starting, working, stopping, said, hstart, hwork,
      hclose, hsaid, rfl, rfl⟩
    refine ⟨mid, worked, starting ++ working, stopping ++ said,
      run_start_work_iff.2 ⟨opened, begun, starting, working, hstart, hwork, rfl⟩,
      (run_closing_iff hwarn).2 ⟨stopping, said, closed, hclose, hsaid, rfl, rfl⟩,
      List.append_assoc ..⟩

/-- A line on the console is a single request, here `r`, whatever interface it is made through. -/
theorem run_warn_iff {r : J.Request} {s s' : σ} {said : List (Program.Exchange J)}
    {ending : Except Fault Unit} :
    Attempt.Run (ExceptT.mk (.ask r fun _ => .done (.ok ())) : Attempt σ J Unit) s said s' ending ↔
      said.map Program.Exchange.request = [r] ∧ s' = s ∧ ending = .ok () := by
  refine Program.run_ask_iff.trans ⟨?_, ?_⟩
  · rintro ⟨reply, rest, rfl, hdone⟩
    obtain ⟨rfl, rfl, rfl⟩ := Program.run_done_iff.1 hdone
    exact ⟨rfl, rfl, rfl⟩
  · rintro ⟨hsaid, rfl, rfl⟩
    obtain ⟨⟨request, reply⟩, rfl, hrequest⟩ := List.map_eq_singleton_iff.1 hsaid
    cases hrequest
    exact ⟨reply, [], rfl, .done _ _⟩

end Phases

/-- A scope as it went, phase by phase. What it is for makes its requests through `e`. -/
structure Scope {I J : Interface} (e : Interface.Embedding I J) (σ α : Type) where
  starting : List e.Carried
  begun : Except Fault Unit
  /-- The state after the start. -/
  opened : σ
  working : List (Program.Exchange J)
  worked : Except Fault α
  /-- The state that the work left. -/
  left : σ
  stopping : List e.Carried
  closed : Except Fault Unit
  /-- What was said in the end. -/
  said : List (Program.Exchange J)

namespace Scope

variable {I J : Interface} {e : Interface.Embedding I J} {σ α : Type} (scope : Scope e σ α)

/-- All that was exchanged in a `Scope`, in its order. -/
def exchanges : List (Program.Exchange J) :=
  scope.starting.map (·.outer) ++ scope.working ++ scope.stopping.map (·.outer) ++ scope.said

/-- What the scope comes to: the `firstFault`. -/
def result : Except Fault α := firstFault scope.worked scope.closed

/-- The work was `Undertaken` after a start that succeeded, and not after another one. -/
def Undertakes (work : Attempt σ J α) : Prop :=
  Undertaken work scope.begun scope.opened scope.working scope.left scope.worked

/-- Nothing was `said` in the end but of a failure to close behind another fault. -/
def Says (warning : Fault → J.Request) : Prop :=
  scope.said.map Program.Exchange.request = complaint warning scope.worked scope.closed

end Scope

/-! ## A scope for one session -/

namespace Session

variable {J : Interface} {α : Type} {e : Interface.Embedding interface J}
  {surroundings : Surroundings} {timeout : Option Timeout}

/-- What a session does while a scope holds it, by `inScope`, is what it does. -/
theorem run_of_run_inScope {β : Type} {session : Session} {x : Attempt Session interface β}
    {held held' : Option Session} {exchanges : List (Program.Exchange J)} {result : Except Fault β}
    (h : Attempt.Run (inScope e session x) held exchanges held' result) :
    ∃ carried : List e.Carried, exchanges = carried.map (·.outer) ∧
      Attempt.Run x (held.getD session) (carried.map (·.inner)) (held'.getD session) result := by
  have hget (held : Option Session) (next : Session) (_ : True) :
      (some next).getD session = next := rfl
  obtain ⟨carried, hrun, hexchanges⟩ :=
    Program.run_embed_iff.1 (Program.Run.of_focus hget (fun _ _ _ => trivial) trivial h)
  exact ⟨carried, hexchanges, hrun⟩

/-- A scope that holds a session goes on holding one, by `inScope`. -/
theorem isSome_of_run_inScope {β : Type} {session : Session} {x : Attempt Session interface β}
    {held : Session} {held' : Option Session} {exchanges : List (Program.Exchange J)}
    {result : Except Fault β}
    (h : Attempt.Run (inScope e session x) (some held) exchanges held' result) :
    held' = some (held'.getD session) := by
  have hover (held : Option Session) (next other : Session) :
      (fun next (_ : Option Session) => some next) next (some other) = some next := rfl
  rcases Program.eq_or_eq_set_of_run_focus hover h with rfl | ⟨next, rfl⟩
  · rfl
  · rfl

/-- What `withDeployment` says of a failure to close behind another fault. -/
def scopeWarning (id : String) (closing : Fault) : Request :=
  .report ⟨.warn, "DeploymentSession",
    "Closing deployment " ++ id ++ " after a failure also failed: " ++ closing.message⟩

/-- The course of a scope for a `Session`: its name, what was exchanged to make it, the session
after its start, and the scope phase by phase. -/
structure Course {J : Interface} (e : Interface.Embedding interface J) (α : Type) where
  id : String
  setup : List e.Carried
  session : Session
  scope : Scope e (Option Session) α

/-- The `Session` of a scope, as it was made. -/
def Course.made (course : Course e α) (machine : Machine) (options : Options) : Session :=
  fresh machine options course.id

/-- A run of `withDeployment` took this course. The session is `created` and `started`, which is
what the work has `opened` to it; `undertaken` says when the work is done, and `closed` that what
the work leaves is closed. Nothing is `said` but of a failure to close behind another fault, nothing
else is `exchanged`, and the `ending` is that of the scope. -/
structure Course.Ran (course : Course e α) (surroundings : Surroundings) (machine : Machine)
    (input : Options.Input) (options : Options) (timeout : Option Timeout)
    (work : Attempt (Option Session) J α) (held last : Option Session)
    (exchanges : List (Program.Exchange J)) (result : Except Fault α) : Prop where
  created : Attempt.Run (create machine input : Attempt (Option Session) interface Session) held
    (course.setup.map (·.inner)) held (.ok (course.made machine options))
  started : Attempt.Run (start surroundings) (course.made machine options)
    (course.scope.starting.map (·.inner)) course.session course.scope.begun
  opened : course.scope.opened = some course.session
  undertaken : course.scope.Undertakes work
  closed : Attempt.Run (close timeout) (course.scope.left.getD (course.made machine options))
    (course.scope.stopping.map (·.inner)) (last.getD (course.made machine options))
    course.scope.closed
  said : course.scope.Says fun closing => e.request (scopeWarning course.id closing)
  exchanged : exchanges = course.setup.map (·.outer) ++ course.scope.exchanges
  ending : result = course.scope.result

/-- With options that `resolve`, a scope for a session takes such a course. -/
theorem ran_of_run_withDeployment {machine : Machine} {input : Options.Input} {options : Options}
    {work : Attempt (Option Session) J α} {held last : Option Session}
    {exchanges : List (Program.Exchange J)} {result : Except Fault α}
    (hresolve : Options.resolve input = .ok options)
    (h : Attempt.Run (withDeployment e surroundings machine input timeout work) held exchanges last
      result) :
    ∃ course : Course e α, course.Ran surroundings machine input options timeout work held last
      exchanges result := by
  rw [withDeployment] at h
  rcases Attempt.run_bind_iff.1 h with
    ⟨fault, hcreate, rfl⟩ | ⟨made, session, first, rest, hcreate, hrest, rfl⟩
  · obtain ⟨carried, hfailed, -⟩ := Program.run_embed_iff.1 hcreate
    obtain ⟨-, ⟨fault', hfault, -, -⟩ | ⟨_, _, -, -, hmade⟩⟩ := run_create_iff.1 hfailed
    · exact absurd (hresolve.symm.trans hfault) nofun
    · exact absurd hmade nofun
  · obtain ⟨setup, hmade, rfl⟩ := Program.run_embed_iff.1 hcreate
    obtain ⟨rfl, ⟨fault, -, -, hfault⟩ | ⟨options', id, hoptions, -, hsession⟩⟩ :=
      run_create_iff.1 hmade
    · exact absurd hfault nofun
    obtain rfl := Except.ok.inj (hresolve.symm.trans hoptions)
    obtain rfl := Except.ok.inj hsession
    rw [Attempt.run_set_bind_iff] at hrest
    obtain ⟨opened, mid, begun, worked, closed, _, working, _, said, hopens, hwork, hcloses, hsaid,
      rfl, rfl⟩ := (run_scope_iff run_warn_iff).1 hrest
    obtain ⟨starting, rfl, hstart⟩ := run_of_run_inScope hopens
    obtain ⟨stopping, rfl, hclose⟩ := run_of_run_inScope hcloses
    let scope : Scope e (Option Session) α :=
      ⟨starting, begun, opened, working, worked, mid, stopping, closed, said⟩
    exact ⟨⟨id, setup, _, scope⟩, hmade, hstart, isSome_of_run_inScope hopens, hwork, hclose, hsaid,
      rfl, rfl⟩

end Session

/-! ## A scope for a group -/

namespace Group

variable {J : Interface} {α : Type} {e : Interface.Embedding interface J}
  {surroundings : Surroundings} {timeout : Option Timeout}

/-- What `deployGroup` says of a failure to close behind another fault. -/
def scopeWarning (closing : Fault) : Request :=
  .report ⟨.warn, "DeploymentGroup",
    "Closing the group after a failure also failed: " ++ closing.message⟩

/-- The course of a scope for a `Group`: the sessions that its start has launched and how that has
`begun`, the rounds in which closing closes what is left, and the scope phase by phase. -/
structure Course {J : Interface} (e : Interface.Embedding interface J) (α : Type) where
  scope : Scope e Group α
  launches : List Launch
  begun : Except Fault (List Unit)
  rounds : List Round

/-- A run of `deployGroup` took this course. Sessions are `launched` on the machines up to the first
that fails, which is all that `starting` asks for, and they are the members of the group that is
`opened` to the work; `undertaken` says when the work is done. Then every one of the `members` that
it leaves gets a round, `held` with the timeout of the scope, which is all that `stopping` asks for,
and the `last` group has no members. Nothing is `said` but of a failure to close behind another
fault, nothing else is `exchanged`, and the `ending` is that of the scope. -/
structure Course.Ran (course : Course e α) (surroundings : Surroundings) (machines : List Machine)
    (input : Options.Input) (options : Options) (timeout : Option Timeout)
    (work : Attempt Group J α) (last : Group) (exchanges : List (Program.Exchange J))
    (result : Except Fault α) : Prop where
  launched : InTurn Launch.place (Launch.Ended surroundings options) machines.zipIdx course.launches
    course.begun
  starting : course.scope.starting.map (·.inner)
    = course.launches.flatMap (Launch.exchanged options)
  begun : course.scope.begun = course.begun.map fun _ => ()
  opened : course.scope.opened = {
    machines, options := input, members := course.launches.map Launch.member, started := true }
  undertaken : course.scope.Undertakes work
  members : course.rounds.map Round.member = course.scope.left.members
  held : ∀ round ∈ course.rounds, round.Held timeout
  stopping : course.scope.stopping.map (·.inner) = course.rounds.flatMap Round.exchanged
  closed : course.scope.closed = verdict (course.rounds.filterMap Round.fault?)
  last : last = { course.scope.left with
    members := [], departed := course.scope.left.departed ++ course.rounds.map Round.departed }
  said : course.scope.Says fun closing => e.request (scopeWarning closing)
  exchanged : exchanges = course.scope.exchanges
  ending : result = course.scope.result

/-- With options that `resolve`, a scope for a group takes such a course. -/
theorem ran_of_run_deployGroup {machines : List Machine} {input : Options.Input} {options : Options}
    {work : Attempt Group J α} {last : Group} {exchanges : List (Program.Exchange J)}
    {result : Except Fault α} (hresolve : Options.resolve input.spread = .ok options)
    (h : Attempt.Run (deployGroup e surroundings timeout work) { machines, options := input }
      exchanges last result) :
    ∃ course : Course e α,
      course.Ran surroundings machines input options timeout work last exchanges result := by
  rw [deployGroup] at h
  obtain ⟨opened, mid, begun, worked, closed, _, working, _, said, hopens, hwork, hcloses, hsaid,
    rfl, rfl⟩ := (run_scope_iff run_warn_iff).1 h
  obtain ⟨starting, hstart, rfl⟩ := Program.run_embed_iff.1 hopens
  obtain ⟨stopping, hclose, rfl⟩ := Program.run_embed_iff.1 hcloses
  let scope : Scope e Group α :=
    ⟨starting, begun, opened, working, worked, mid, stopping, closed, said⟩
  obtain ⟨launches, results, hlaunched, hstarting, hopened, hbegun⟩ :=
    launches_of_run_start hresolve hstart
  obtain ⟨rounds, hmembers, hheld, hstopping, hlast, hclosed⟩ := run_close_iff.1 hclose
  exact ⟨⟨scope, launches, results, rounds⟩, hlaunched, hstarting, hbegun, hopened, hwork, hmembers,
    hheld, hstopping, hclosed, hlast, hsaid, rfl, rfl⟩

/-- The `close` of the group is part of the course. -/
theorem Course.Ran.run_close {course : Course e α} {machines : List Machine} {input : Options.Input}
    {options : Options} {work : Attempt Group J α} {last : Group}
    {exchanges : List (Program.Exchange J)} {result : Except Fault α}
    (h : course.Ran surroundings machines input options timeout work last exchanges result) :
    Attempt.Run (close timeout) course.scope.left (course.scope.stopping.map (·.inner)) last
      course.scope.closed :=
  run_close_iff.2 ⟨course.rounds, h.members, h.held, h.stopping, h.last, h.closed⟩

end Group

end Outpost

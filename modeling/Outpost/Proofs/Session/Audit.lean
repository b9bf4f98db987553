import Outpost.Proofs.EventLog.Journal
import Outpost.Proofs.Options
import Outpost.Proofs.Session.Indifference

/-!
# A log that nobody notices

A deployment with an event log goes on in the same way as the same deployment without one. The log
takes every entry at once and makes its changes to the file when it can, and meanwhile others may
write to it and have it trimmed; any operation on the file may fail. Whatever becomes of the log,
the session makes the same requests of its machine and of everything else, goes through the same
states with the same things in its slots, and every call ends in the same way
(`log_makes_no_difference`).

The rest of the world replies to what it was asked, and it was not asked for the entries: this is
all that is assumed of it.

## Contents

* `Options.withLog`, `Options.withoutLog`, `resolve_withLog_cases`: the same options with a log and
  without.
* `Backdrop`, `Office`, `Backdrop.carry`: programs in a world with a log.
* `matches_create`, `Alike.carry`: programs that are alike, one with a log and one without.
* `Backdrop.deploy`, `deployed`, `log_makes_no_difference`.
-/

namespace Outpost

/-! ## Options with a log and without -/

namespace Options

section Resolving

variable {given : List (String × Value)} {path : String}

/-- Options that have an event log at `path`, whatever else they were. -/
def withLog (path : String) (given : List (String × Value)) : List (String × Value) :=
  ("eventLog", .eventLog path) :: given

/-- The same options `given` without an event log. -/
def withoutLog (given : List (String × Value)) : List (String × Value) :=
  ("eventLog", .foreign .nothing) :: given

/-- What options come to by `resolve`, but for the log. -/
def resolveOthers (given : List (String × Value)) :
    Except (List Issue) (Option String → Options) :=
  also (also (also (also (also (also
    ((withDefault given "serverClass" checkReference Settings.serverClass).map Options.mk)
    (withDefault given "serviceClass" checkReference Settings.serviceClass))
    (withDefault given "serverScript" checkFilled Script.defaultTemplate))
    (withDefault given "extraSetup" checkText ""))
    (optional given "interpreter" checkInterpreter))
    (withDefault given "codeDir" checkFilled Settings.codeDirectory))
    (optional given "handshakeTimeoutMs" checkTimeout)

theorem find?_cons_of_ne {name other : String} (value : Value) (h : other ≠ name) :
    find? name ((other, value) :: given) = find? name given := by
  rw [find?, List.find?_cons_of_neg (by simpa using h), ← find?]

theorem optional_cons_of_ne {α : Type} {name other : String} (value : Value) (h : other ≠ name)
    (check : Value → Except (List Problem) α) :
    optional ((other, value) :: given) name check = optional given name check := by
  rw [optional, find?_cons_of_ne value h, ← optional]

theorem withDefault_cons_of_ne {α : Type} {name other : String} (value : Value) (h : other ≠ name)
    (check : Value → Except (List Problem) α) (default : α) :
    withDefault ((other, value) :: given) name check default
      = withDefault given name check default := by
  rw [withDefault, optional_cons_of_ne value h, ← withDefault]

theorem resolveFields_cons_eventLog (value : Value) :
    resolveFields (("eventLog", value) :: given)
      = also (resolveOthers given)
          (optional (("eventLog", value) :: given) "eventLog" checkEventLog) := by
  rw [resolveFields, withDefault_cons_of_ne value (by decide),
    withDefault_cons_of_ne value (by decide), withDefault_cons_of_ne value (by decide),
    withDefault_cons_of_ne value (by decide), optional_cons_of_ne value (by decide),
    withDefault_cons_of_ne value (by decide), optional_cons_of_ne value (by decide)]
  rfl

/-- The other fields, by `resolveOthers`, make the same of a log and of none. -/
theorem unlogged_of_resolveOthers {f : Option String → Options} (h : resolveOthers given = .ok f)
    (log : Option String) : (f log).unlogged = f none := by
  simp only [resolveOthers, also_eq_ok_iff] at h
  obtain ⟨_, _, ⟨_, _, ⟨_, _, ⟨_, _, ⟨_, _, ⟨f', _, hfirst, -, rfl⟩, -, rfl⟩, -, rfl⟩, -, rfl⟩, -,
    rfl⟩, -, rfl⟩ := h
  cases hclass : withDefault given "serverClass" checkReference Settings.serverClass with
  | error issues =>
    rw [hclass] at hfirst
    exact absurd hfirst nofun
  | ok server =>
    rw [hclass] at hfirst
    obtain rfl := Except.ok.inj hfirst
    rfl

/-- With a log, by `withLog`, and without, options are refused for the same reasons, or come to the
same but for the log. -/
theorem resolve_withLog_cases (path : String) (given : List (String × Value)) :
    (∃ fault, resolve (.fields (withLog path given)) = .error fault ∧
        resolve (.fields (withoutLog given)) = .error fault) ∨
      ∃ options, resolve (.fields (withLog path given)) = .ok options ∧
        resolve (.fields (withoutLog given)) = .ok options.unlogged := by
  have hlog : resolveFields (withLog path given) = also (resolveOthers given) (.ok (some path)) :=
    resolveFields_cons_eventLog _
  have hnone : resolveFields (withoutLog given) = also (resolveOthers given) (.ok none) :=
    resolveFields_cons_eventLog _
  rw [resolve, resolve, check, check, hlog, hnone]
  cases hothers : resolveOthers given with
  | error issues => exact .inl ⟨_, rfl, rfl⟩
  | ok f =>
    refine .inr ⟨f (some path), rfl, ?_⟩
    rw [unlogged_of_resolveOthers hothers]
    rfl

end Resolving

end Options

namespace Session

/-- With a log and without, `create` fails with the same fault, or makes the same session but for
the log. -/
theorem matches_create {σ : Type} (machine : Machine) (path : String)
    (given : List (String × Options.Value)) :
    Matches (fun s : σ => s) (fun logged plain => plain = logged.unlogged)
      (create machine (.fields (Options.withLog path given)))
      (create machine (.fields (Options.withoutLog given))) := by
  have hoptions : Matches (fun s : σ => s) (fun logged plain => plain = logged.unlogged)
      (Attempt.ofExcept (Options.resolve (.fields (Options.withLog path given))))
      (Attempt.ofExcept (Options.resolve (.fields (Options.withoutLog given)))) := by
    rcases Options.resolve_withLog_cases path given with
      ⟨fault, hlog, hnone⟩ | ⟨options, hlog, hnone⟩
    · rw [hlog, hnone]
      exact .done (.error fault)
    · rw [hlog, hnone]
      exact .done (.ok rfl)
  refine matches_bind hoptions fun options plain hplain => ?_
  subst hplain
  refine matches_bind_same (matches_lift_ask rfl) fun id => ?_
  refine matches_bind_same (matches_record ⟨id, machine.name, machine.connectivity, options,
    some machine, none, none, none, none, none, .created⟩ .created {}) fun _ => ?_
  exact matches_pure rfl

/-! ## A world with a log -/

/-- What surrounds a deployment that has a log: a world, and the log itself. -/
structure Backdrop where
  /-- The replies to everything but entries, which depend on all that was asked before but for the
  entries. -/
  world : List Exchange → (r : Request) → interface.Reply r
  /-- Which operations of each `EventLog.Call` to the log fail. -/
  luck : Nat → EventLog.Mishaps
  /-- What happens to the log before each request of the deployment: its operations are answered,
  and others write to it and trim it. -/
  meanwhile : Nat → List EventLog.Happening
  /-- The time at each request of the deployment. -/
  clock : Nat → Number

/-- A `state` that a program works on, everything that was asked but for the entries, the log, and
the number of all requests. -/
structure Office (σ : Type) where
  state : σ
  past : List Exchange := []
  journal : EventLog.Journal
  asked : Nat := 0

namespace Backdrop

variable {σ : Type}

/-- The log takes an entry and replies at once; everything else gets the reply of the `world`. -/
def reply (b : Backdrop) (past : List Exchange) : (r : Request) → interface.Reply r
  | .record .. => ()
  | r => b.world past r

/-- What a request leaves of an `Office`. -/
def after (b : Backdrop) (office : Office σ) (r : Request) : Office σ :=
  let journal := office.journal.run b.luck (b.meanwhile office.asked)
  match r with
  | .record _ deployment machine kind details =>
    { office with
      journal := journal.step b.luck (.issue (.record (b.clock office.asked)
        (Event.entry deployment machine kind details)))
      asked := office.asked + 1 }
  | r =>
    { office with
      past := office.past ++ [⟨r, b.world office.past r⟩]
      journal
      asked := office.asked + 1 }

/-- Carries a program out in an `Office`. -/
def carry {α : Type} (b : Backdrop) : Program σ interface α → Office σ → α × Office σ
  | .done a, office => (a, office)
  | .read next, office => b.carry (next office.state) office
  | .write s next, office => b.carry next { office with state := s }
  | .ask r next, office => b.carry (next (b.reply office.past r)) (b.after office r)

theorem reply_of_not_entry (b : Backdrop) {r : Request} (h : r.isEntry = false)
    (past : List Exchange) : b.reply past r = b.world past r := by
  cases r with
  | record => exact absurd h nofun
  | _ => rfl

theorem after_of_not_entry (b : Backdrop) {r : Request} (h : r.isEntry = false)
    (office : Office σ) : (b.after office r).state = office.state ∧
      (b.after office r).past = office.past ++ [⟨r, b.world office.past r⟩] := by
  cases r with
  | record => exact absurd h nofun
  | _ => exact ⟨rfl, rfl⟩

end Backdrop

/-- A program with a log, and one without that is `Alike`, make the same requests but for the
entries, and come to the same. -/
theorem Alike.carry {σ τ α β : Type} {view : σ → τ} {R : α → β → Prop}
    {p : Program σ interface α} {q : Program τ interface β} (h : Alike view R p q) (b : Backdrop)
    (office : Office σ) :
    let plain := q.play b.world office.past (view office.state)
    R (b.carry p office).1 plain.2.2 ∧ view (b.carry p office).2.state = plain.2.1 ∧
      (b.carry p office).2.past = office.past ++ plain.1 := by
  induction h generalizing office with
  | done hresult => exact ⟨hresult, rfl, (List.append_nil _).symm⟩
  | read _ ih => exact ih office.state office
  | write _ ih => exact ih { office with state := _ }
  | @ask r next next' hentry _ ih =>
    obtain ⟨hstate, hpast⟩ := b.after_of_not_entry hentry office
    obtain ⟨hresult, hlast, hmore⟩ := ih (b.world office.past r) (b.after office r)
    rw [hstate, hpast] at hresult hlast hmore
    have hcarry : b.carry (.ask r next) office
        = b.carry (next (b.world office.past r)) (b.after office r) := by
      rw [← b.reply_of_not_entry hentry]
      rfl
    intro plain
    rw [hcarry]
    exact ⟨hresult, hlast, hmore.trans (List.append_assoc ..)⟩
  | @entry log deployment machine kind details next plain _ ih =>
    exact ih (b.after office (.record log deployment machine kind details))

/-! ## A deployment with a log, and without one -/

/-- A `Moment` as it is without a log. -/
def Moment.unlogged (moment : Moment) : Moment := { moment with after := moment.after.unlogged }

/-- How a deployment goes, by `create` and some uses: what is asked for to create it, what that ends
with, and what it is used for. Entries in a log are not among what is asked for. -/
structure Deployment where
  asked : List Exchange
  created : Except Fault Session
  moments : List Moment

/-- How a `Deployment` goes, as it is without a log. -/
def Deployment.unlogged (deployment : Deployment) : Deployment where
  asked := deployment.asked
  created := deployment.created.map Session.unlogged
  moments := deployment.moments.map Moment.unlogged

/-- The `uses` of a session that has a log, one after another. -/
def Backdrop.live (b : Backdrop) : List Use → Office Session → List Moment
  | [], _ => []
  | use :: uses, office =>
    let (result, after) := b.carry use.attempt.outcome office
    ⟨use, after.past.drop office.past.length, after.state, result⟩ :: b.live uses after

/-- A `Deployment` on a machine with a log, which writes to a file. -/
def Backdrop.deploy (b : Backdrop) (file : EventLog.File) (path : String) (machine : Machine)
    (given : List (String × Options.Value)) (uses : List Use) : Deployment :=
  let creating : Attempt Unit interface Session :=
    create machine (.fields (Options.withLog path given))
  let (created, office) := b.carry creating.outcome { state := (), journal := .new ⟨path⟩ file }
  { asked := office.past
    created
    moments :=
      match created with
      | .error _ => []
      | .ok session => b.live uses { office with state := session } }

/-- The `uses` of a session in a world without a log, one after another. -/
def lived (world : List Exchange → (r : Request) → interface.Reply r) :
    List Exchange → List Use → Session → List Moment
  | _, [], _ => []
  | past, use :: uses, session =>
    let (exchanges, after, result) := use.attempt.outcome.play world past session
    ⟨use, exchanges, after, result⟩ :: lived world (past ++ exchanges) uses after

/-- The same `Deployment` in a world without a log. -/
def deployed (world : List Exchange → (r : Request) → interface.Reply r) (machine : Machine)
    (given : List (String × Options.Value)) (uses : List Use) : Deployment :=
  let creating : Attempt Unit interface Session :=
    create machine (.fields (Options.withoutLog given))
  let (asked, _, created) := creating.outcome.play world [] ()
  { asked
    created
    moments :=
      match created with
      | .error _ => []
      | .ok session => lived world asked uses session }

section Difference

/-- A session is used in the same way with its log by `live` and without it by `lived`. -/
theorem live_eq_lived (b : Backdrop) (uses : List Use) (office : Office Session) :
    (b.live uses office).map Moment.unlogged
      = lived b.world office.past uses office.state.unlogged := by
  induction uses generalizing office with
  | nil => rfl
  | cons use uses ih =>
    obtain ⟨hresult, hstate, hpast⟩ := (matches_use use).carry b office
    have hexchanges : (b.carry use.attempt.outcome office).2.past.drop office.past.length
        = (use.attempt.outcome.play b.world office.past office.state.unlogged).1 := by
      rw [hpast, List.drop_left]
    rw [Backdrop.live, lived, List.map_cons, ih, Moment.unlogged]
    dsimp only
    rw [hexchanges, hstate, hpast, agrees_eq_iff.1 hresult]

/-- The log of a deployment makes no difference to it. Whatever the options are besides, whatever
the world replies, whatever the session is used for, and whatever becomes of the log and its file
meanwhile: with the log, by `deploy`, the deployment asks for the same, goes through the same states
with the same ports and things in its slots, and ends every call in the same way, as without it, by
`deployed`. -/
theorem log_makes_no_difference (b : Backdrop) (file : EventLog.File) (path : String)
    (machine : Machine) (given : List (String × Options.Value)) (uses : List Use) :
    (b.deploy file path machine given uses).unlogged = deployed b.world machine given uses := by
  obtain ⟨hcreated, -, hpast⟩ := (matches_create machine path given).carry b
    { state := (), journal := .new ⟨path⟩ file }
  rw [List.nil_append] at hpast
  rw [Backdrop.deploy, deployed, Deployment.unlogged]
  generalize b.carry _ _ = logged at hcreated hpast ⊢
  generalize (create machine (.fields (Options.withoutLog given)) :
    Attempt Unit interface Session).outcome.play b.world [] () = plain at hcreated hpast ⊢
  obtain ⟨created, office⟩ := logged
  obtain ⟨asked, _, created'⟩ := plain
  dsimp only at hcreated hpast ⊢
  subst hpast
  cases hcreated with
  | error fault => rfl
  | ok hsession =>
    subst hsession
    dsimp only
    rw [live_eq_lived]
    rfl

end Difference

end Session

end Outpost

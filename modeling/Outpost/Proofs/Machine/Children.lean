import Mathlib.Logic.Function.Basic
import Outpost.Machine.OpenSsh
import Outpost.Proofs.Company
import Outpost.Proofs.Process.Conduct

/-!
# The children of a machine

A machine that is reached through the OpenSSH client launches processes and looks after them. Here
they do whatever they like, at any time: between any two replies each of them may write, exit or
close, and a wait for the end of one that never closes is never over (`System`). Everything else
that the machine asks for is replied to in any way at all.

What is known of a child is kept up by every request but the one that collects its output
(`Scene.Watches.next`), and once that is collected the child is closed and does nothing more
(`Scene.Over.next`). Nothing else is needed to follow a machine through any number of requests.

## Contents

* `System`, `Scene`, `System.reply?`: children among the surroundings of a machine.
* `past_of_reply?`, `process_of_reply?`: what a request changes, and what it does not concern.
* `Scene.Watches`, `Scene.Over`: what is known of a child.
* `System.Stops`: what is stopped by force closes. `System.ofConduct` is such a system.
* `closed_of_reply?`, `exitCode_of_reply?`, `kill_of_reply?`, `over_of_reply?`,
  `exists_reply?_communicate`: what is replied about a child.
* `fares_lift_bind`, `fares_spawn_bind`, `fares_communicate_bind`, `fares_kill_communicate_bind`:
  how attempts fare among children.
-/

namespace Outpost

/-- The `Performance` of a child that was just launched. Its output has ended if there is no pipe
from it. -/
def Child.newborn (child : Child) : Performance where
  done := if child.hasOutput then [] else [.ended]
  ahead := []
  buffer := child.buffer

namespace Performance

theorem idle_newborn (child : Child) : child.newborn.Idle := by
  rw [Idle, Child.newborn, Child.buffer]
  cases child.hasOutput <;> exact ⟨⟨rfl, rfl, rfl, rfl, rfl, rfl⟩, rfl, nofun⟩

/-- A closed process is asked in vain. -/
theorem asked_of_hasClosed {performance : Performance}
    (h : Sign.hasClosed performance.done = true) (signs : List Sign) (beats : List Beat) :
    performance.asked signs beats = { performance with ahead := beats } := by
  have hafter : performance.after signs = performance := by
    induction signs with
    | nil => rfl
    | cons sign signs ih =>
      rw [after, List.foldl_cons, happen, if_pos h]
      exact ih
  rw [asked, hafter]

end Performance

namespace OpenSsh

/-- An exchange with the local system by the `interface` of `OpenSsh`. -/
abbrev Exchange : Type := Program.Exchange interface

/-! ## Children among the surroundings -/

/-- What the local system does, and the children that it launches. All of it may depend on
everything that was exchanged before. -/
structure System where
  /-- What comes of a `Launch`: the number of the process, if it has one, and whether there are
  pipes to its input and from its output. -/
  launch : List Exchange → Launch → Except Fault (Option Json × Bool × Bool)
  /-- What a child does before the next reply. -/
  meanwhile : List Exchange → Nat → List Sign
  /-- What it does while its end is waited for. -/
  awaited : List Exchange → Nat → List Beat
  /-- What is replied to every other request. -/
  elsewhere : List Exchange → (r : Request) → interface.Reply r

/-- What was exchanged so far with a `System`, and how far the children have come. -/
structure Scene where
  past : List Exchange := []
  /-- How many children were launched. -/
  launched : Nat := 0
  process : Nat → Performance

/-- Nothing was exchanged, and no child was launched. -/
def Scene.initial : Scene where
  process _ := { done := [], ahead := [], buffer := {} }

namespace System

variable (system : System)

/-- All children have gone on by what they do `meanwhile`. -/
def goOn (scene : Scene) : Scene :=
  { scene with process := fun child =>
      (scene.process child).asked (system.meanwhile scene.past child) [] }

/-- A child whose end is `awaited`. -/
def waiting (scene : Scene) (child : Nat) : Performance :=
  { scene.process child with ahead := system.awaited scene.past child }

/-- What is replied to a request. A child that is closed is not signalled. -/
def respond (scene : Scene) : (r : Request) → Option (interface.Reply r × Scene)
  | .spawn launch =>
    match system.launch scene.past launch with
    | .error fault => some (.error fault, scene)
    | .ok (pid, hasInput, hasOutput) =>
      let child : Child :=
        { id := scene.launched, pid, argv := launch.argv, groupKill := launch.leads, hasInput
          hasOutput }
      some (.ok child, { scene with
        launched := scene.launched + 1
        process := Function.update scene.process scene.launched child.newborn })
  | .isClosed child => some ((scene.process child).buffer.closed, scene)
  | .exitCode child => some ((scene.process child).buffer.exitCode, scene)
  | .communicate child =>
    match (system.waiting scene child).communicate (Buffer.overdue none []) none with
    | some (.ok output, later) =>
      some (output, { scene with process := Function.update scene.process child later })
    | _ => none
  | .kill child =>
    some (if (scene.process child).buffer.closed then .ok ()
      else system.elsewhere scene.past (.kill child), scene)
  | r => some (system.elsewhere scene.past r, scene)

/-- The same as `respond`, where the children go on before the reply, and the exchange is kept in
mind. -/
def reply? (scene : Scene) (r : Request) : Option (interface.Reply r × Scene) :=
  (system.respond (system.goOn scene) r).map fun replied =>
    (replied.1, { replied.2 with past := scene.past ++ [⟨r, replied.1⟩] })

/-- A child that is stopped by `kill` closes, and to stop it does not fail. -/
structure Stops : Prop where
  kill : ∀ past child, system.elsewhere past (.kill child) = .ok ()
  closes : ∀ past child, ⟨.kill child, .ok ()⟩ ∈ past →
    .closed ∈ (system.awaited past child).flatMap Beat.signs

end System

/-- Replies without a fault, but that nobody listens on any port. A `pause` takes as long as it
should, as far as the clock can tell. -/
def calm : (r : Request) → interface.Reply r
  | .clock => Number.ofInt 0
  | .pause since milliseconds =>
    if h : since.Advances (since.add (.ofNat milliseconds)) then ⟨_, h⟩
    else ⟨since.next, since.advances_next⟩
  | .makeDirectory stem => .ok stem
  | .removeDirectory _ => .ok ()
  | .spawn launch => .ok ⟨0, none, launch.argv, launch.leads, true, true⟩
  | .spawnSource launch => .ok ⟨0, none, launch.argv, launch.leads, false, true⟩
  | .pipe _ _ => ()
  | .feed _ _ => .ok ()
  | .terminate _ => .ok ()
  | .kill _ => .ok ()
  | .communicate _ => .nothing
  | .communicateBoth _ _ => (.nothing, .nothing)
  | .isClosed _ => true
  | .exitCode _ => .nat 0
  | .connect _ => .error (.ofMessage "connect ECONNREFUSED")
  | .destroy _ => ()
  | .report _ => ()

/-- Children that do what `conduct` says as long as nobody waits for them, and close at once when
somebody does, in calm surroundings. -/
def System.ofConduct (conduct : List Exchange → Nat → List Sign) : System where
  launch _ _ := .ok (none, true, true)
  meanwhile := conduct
  awaited _ _ := [.does [.closed]]
  elsewhere _ := calm

theorem System.stops_ofConduct (conduct : List Exchange → Nat → List Sign) :
    (ofConduct conduct).Stops :=
  ⟨fun _ _ => rfl, fun _ _ _ => List.mem_singleton.2 rfl⟩

section Replies

variable {system : System} {scene later : Scene} {r : Request} {reply : interface.Reply r}
  {child : Nat} {done : List Sign}

theorem past_of_reply? (h : system.reply? scene r = some (reply, later)) :
    later.past = scene.past ++ [⟨r, reply⟩] := by
  obtain ⟨replied, -, hreplied⟩ := Option.map_eq_some_iff.1 h
  obtain ⟨rfl, rfl⟩ := Prod.mk.inj hreplied
  rfl

/-- Every request is replied to by `reply?`, if it is not for the end of a child. -/
theorem exists_reply? (hr : ∀ child, r ≠ .communicate child) :
    ∃ reply later, system.reply? scene r = some (reply, later) := by
  have hresponse : ∃ replied, system.respond (system.goOn scene) r = some replied := by
    cases r with
    | communicate child => exact absurd rfl (hr child)
    | spawn launch =>
      rw [System.respond]
      split <;> exact ⟨_, rfl⟩
    | _ => exact ⟨_, rfl⟩
  obtain ⟨replied, hreplied⟩ := hresponse
  exact ⟨replied.1, _, by rw [System.reply?, hreplied]; rfl⟩

/-- A child that a request is not about goes on, and that is all that `reply?` does to it. -/
theorem process_of_reply? (h : system.reply? scene r = some (reply, later))
    (hchild : child < scene.launched) (hr : r ≠ .communicate child) :
    later.process child = (scene.process child).asked (system.meanwhile scene.past child) [] ∧
      child < later.launched := by
  obtain ⟨⟨answer, after⟩, hresponse, hreplied⟩ := Option.map_eq_some_iff.1 h
  obtain ⟨rfl, rfl⟩ := Prod.mk.inj hreplied
  have hsame (h : some (answer, system.goOn scene) = some (answer, after)) :
      after.process child = (system.goOn scene).process child ∧ child < after.launched := by
    obtain rfl := (Prod.mk.inj (Option.some.inj h)).2
    exact ⟨rfl, hchild⟩
  cases r with
  | spawn launch =>
    rw [System.respond] at hresponse
    split at hresponse
    · obtain ⟨rfl, rfl⟩ := Prod.mk.inj (Option.some.inj hresponse)
      exact ⟨rfl, hchild⟩
    · -- the new child comes behind all others
      obtain ⟨-, rfl⟩ := Prod.mk.inj (Option.some.inj hresponse)
      exact ⟨Function.update_of_ne (Nat.ne_of_lt hchild) _ _, Nat.lt_succ_of_lt hchild⟩
  | communicate other =>
    have hother : child ≠ other := fun hsame => hr (congrArg Request.communicate hsame.symm)
    rw [System.respond] at hresponse
    split at hresponse
    · obtain ⟨-, rfl⟩ := Prod.mk.inj (Option.some.inj hresponse)
      exact ⟨Function.update_of_ne hother _ _, hchild⟩
    · exact absurd hresponse nofun
  | _ =>
    obtain ⟨-, rfl⟩ := Prod.mk.inj (Option.some.inj hresponse)
    exact ⟨rfl, hchild⟩

/-! ## What is known of a child -/

/-- A child of which everything is kept, and that nobody waits for: it is `Idle`. -/
structure Scene.Watches (scene : Scene) (child : Nat) : Prop where
  launched : child < scene.launched
  idle : (scene.process child).Idle

/-- A child that is closed once it did `done`, with its exit code. -/
structure Scene.Over (scene : Scene) (child : Nat) (done : List Sign) : Prop where
  launched : child < scene.launched
  performed : (scene.process child).done = done
  closed : Sign.hasClosed done = true
  exitCode : (scene.process child).buffer.exitCode = Sign.exitCode done

variable (system) in
/-- What is kept of a child goes on being kept when all `goOn`. -/
theorem Scene.Watches.goOn (h : scene.Watches child) : (system.goOn scene).Watches child :=
  ⟨h.launched, (h.idle.asked _ _).1⟩

theorem Scene.Watches.next (h : scene.Watches child)
    (hreply : system.reply? scene r = some (reply, later)) (hr : r ≠ .communicate child) :
    later.Watches child := by
  obtain ⟨hprocess, hlaunched⟩ := process_of_reply? hreply h.launched hr
  refine ⟨hlaunched, ?_⟩
  rw [hprocess]
  exact (h.idle.asked _ _).1

/-- What is over is over. -/
theorem Scene.Over.next (h : scene.Over child done)
    (hreply : system.reply? scene r = some (reply, later)) (hr : r ≠ .communicate child) :
    later.Over child done := by
  obtain ⟨hprocess, hlaunched⟩ := process_of_reply? hreply h.launched hr
  have hclosed : Sign.hasClosed (scene.process child).done = true := h.performed ▸ h.closed
  rw [Performance.asked_of_hasClosed hclosed] at hprocess
  exact ⟨hlaunched, hprocess ▸ h.performed, h.closed, hprocess ▸ h.exitCode⟩

/-! ## What is replied about a child -/

/-- A child is new under the number `launched`. -/
theorem watches_of_reply? {launch : Launch} {started : Child}
    (h : system.reply? scene (.spawn launch) = some (.ok started, later)) :
    started.id = scene.launched ∧ later.Watches started.id := by
  obtain ⟨⟨answer, after⟩, hresponse, hreplied⟩ := Option.map_eq_some_iff.1 h
  obtain ⟨rfl, rfl⟩ := Prod.mk.inj hreplied
  rw [System.respond] at hresponse
  split at hresponse
  · exact absurd (Prod.mk.inj (Option.some.inj hresponse)).1 nofun
  · obtain ⟨hstarted, rfl⟩ := Prod.mk.inj (Option.some.inj hresponse)
    obtain rfl := Except.ok.inj hstarted
    refine ⟨rfl, Nat.lt_succ_self _, ?_⟩
    dsimp only
    rw [Function.update_self]
    exact Performance.idle_newborn _

/-- Whether a child is closed is what `isClosed` is replied. -/
theorem closed_of_reply? {closed : Bool} (h : scene.Watches child)
    (hreply : system.reply? scene (.isClosed child) = some (closed, later)) :
    Sign.hasClosed (later.process child).done = closed := by
  obtain ⟨rfl, rfl⟩ := Prod.mk.inj (Option.some.inj hreply)
  exact (h.goOn system).idle.kept.closed.symm

/-- The exit code of a child is what it is once it is `Over`. -/
theorem exitCode_of_reply? {code : Json} (h : scene.Over child done)
    (hreply : system.reply? scene (.exitCode child) = some (code, later)) :
    code = Sign.exitCode done := by
  obtain ⟨hprocess, -⟩ := process_of_reply? hreply h.launched nofun
  obtain ⟨rfl, rfl⟩ := Prod.mk.inj (Option.some.inj hreply)
  have hclosed : Sign.hasClosed (scene.process child).done = true := h.performed ▸ h.closed
  rw [Performance.asked_of_hasClosed hclosed] at hprocess
  exact (congrArg (fun process => process.buffer.exitCode) hprocess).trans h.exitCode

/-- To stop a child by `kill` does not fail, and leaves a mark on it. -/
theorem kill_of_reply? {stopped : Except Fault Unit} (hstops : system.Stops)
    (hreply : system.reply? scene (.kill child) = some (stopped, later)) : stopped = .ok () := by
  obtain ⟨rfl, -⟩ := Prod.mk.inj (Option.some.inj hreply)
  dsimp only
  rw [hstops.kill]
  exact ite_self _

variable (system) in
/-- Whoever waits by `communicate` for the end of a child gets all that it wrote to standard error,
if it ever closes. -/
theorem communicate_spec (h : scene.Watches child) :
    match Beat.wait Sign.hasClosed false (scene.process child).done
      (system.awaited scene.past child) with
    | none => system.respond scene (.communicate child) = none
    | some (done, _) => ∃ found later,
        system.respond scene (.communicate child) = some (found, later) ∧
          later.Over child done ∧ found.stderr = Sign.stderr done := by
  have hidle : (system.waiting scene child).Idle := h.idle
  have hspec := Performance.communicate_spec hidle (Buffer.overdue none []) none
  rw [System.respond]
  have hwaits : Beat.wait Sign.hasClosed false (scene.process child).done
      (system.awaited scene.past child) = Beat.wait Sign.hasClosed (none : Option Timeout).isSome
        (system.waiting scene child).done (system.waiting scene child).ahead := rfl
  rw [hwaits]
  cases hwait : Beat.wait Sign.hasClosed (none : Option Timeout).isSome
      (system.waiting scene child).done (system.waiting scene child).ahead with
  | none =>
    rw [hwait] at hspec
    dsimp only at hspec ⊢
    rw [hspec]
  | some left =>
    obtain ⟨done, ahead⟩ := left
    rw [hwait] at hspec
    obtain ⟨process, rfl, -, hcommunicate⟩ := hspec
    have hclosed : Sign.hasClosed process.done = true := Beat.over_of_wait hwait
    rw [if_pos hclosed] at hcommunicate
    obtain ⟨found, hfound, hcollected⟩ := hcommunicate
    dsimp only
    rw [hfound]
    refine ⟨found, _, rfl, ⟨h.launched, ?_, hclosed, ?_⟩, hcollected.stderr⟩
    · dsimp only
      rw [Function.update_self]
    · dsimp only
      rw [Function.update_self]
      exact hcollected.exitCode

theorem over_of_reply? {found : Output} (h : scene.Watches child)
    (hreply : system.reply? scene (.communicate child) = some (found, later)) :
    ∃ done, later.Over child done ∧ found.stderr = Sign.stderr done := by
  obtain ⟨⟨answer, after⟩, hresponse, hreplied⟩ := Option.map_eq_some_iff.1 hreply
  obtain ⟨rfl, rfl⟩ := Prod.mk.inj hreplied
  have hspec := communicate_spec system (h.goOn system)
  split at hspec
  · exact absurd (hspec.symm.trans hresponse) nofun
  · obtain ⟨found, later, hrespond, hover, hstderr⟩ := hspec
    obtain ⟨rfl, rfl⟩ := Prod.mk.inj (Option.some.inj (hrespond.symm.trans hresponse))
    exact ⟨_, ⟨hover.launched, hover.performed, hover.closed, hover.exitCode⟩, hstderr⟩

variable (system) in
/-- A `communicate` is over if the child is closed or closes meanwhile. -/
theorem exists_reply?_communicate (h : scene.Watches child)
    (hcloses : Sign.hasClosed (scene.process child).done = true ∨
      .closed ∈ (system.awaited scene.past child).flatMap Beat.signs) :
    ∃ found later, system.reply? scene (.communicate child) = some (found, later) := by
  have hends : Beat.wait Sign.hasClosed false ((system.goOn scene).process child).done
      (system.awaited scene.past child) ≠ none := by
    rcases hcloses with hclosed | hcloses
    · have hstill : (system.goOn scene).process child = { scene.process child with ahead := [] } :=
        Performance.asked_of_hasClosed hclosed _ _
      rw [hstill, Beat.wait_of_over hclosed]
      exact nofun
    · exact Beat.wait_closed_ne_none hcloses _
  have hspec := communicate_spec system (h.goOn system)
  split at hspec
  · rename_i hnone
    exact absurd hnone hends
  · obtain ⟨found, later, hrespond, -⟩ := hspec
    exact ⟨found, { later with past := scene.past ++ [⟨.communicate child, found⟩] },
      Option.map_eq_some_iff.2 ⟨(found, later), hrespond, rfl⟩⟩

/-! ## Attempts among children -/

section Attempts

variable {σ α β : Type} {s : σ} {stuck : Prop} {post : Scene → σ → Except Fault α → Prop}

theorem fares_ask {next : interface.Reply r → Program σ interface β}
    {post : Scene → σ → β → Prop} (hr : ∀ child, r ≠ .communicate child)
    (h : ∀ reply later, system.reply? scene r = some (reply, later) →
      Program.Fares system.reply? later (next reply) s post stuck) :
    Program.Fares system.reply? scene (.ask (I := interface) r next) s post stuck := by
  obtain ⟨reply, later, hreply⟩ := exists_reply? hr
  exact Program.fares_ask hreply (h reply later hreply)

/-- Going on from a request that cannot fail, by `ExceptT.lift`. -/
theorem fares_lift_bind {f : interface.Reply r → Attempt σ interface α}
    (hr : ∀ child, r ≠ .communicate child)
    (h : ∀ reply later, system.reply? scene r = some (reply, later) →
      Attempt.Fares system.reply? later (f reply) s post stuck) :
    Attempt.Fares system.reply? scene (ExceptT.lift (.ask (I := interface) r .done) >>= f) s post
      stuck := by
  obtain ⟨reply, later, hreply⟩ := exists_reply? hr
  exact Attempt.fares_lift_ask_bind hreply (h reply later hreply)

theorem fares_spawn_bind {launch : Launch} {f : Child → Attempt σ interface α}
    (herror : ∀ fault later, system.reply? scene (.spawn launch) = some (.error fault, later) →
      post later s (.error fault))
    (hok : ∀ started later, system.reply? scene (.spawn launch) = some (.ok started, later) →
      Attempt.Fares system.reply? later (f started) s post stuck) :
    Attempt.Fares system.reply? scene (spawn launch >>= f) s post stuck := by
  refine Attempt.fares_bind (fares_ask nofun fun reply later hreply => ?_)
  cases reply with
  | error fault => exact herror fault later hreply
  | ok started => exact hok started later hreply

/-- Whoever waits by `communicate` for the end of a child that never closes is stuck. -/
theorem fares_communicate_bind {f : Output → Attempt σ interface α} (hchild : scene.Watches child)
    (hends : (∃ found later, system.reply? scene (.communicate child) = some (found, later)) ∨
      stuck)
    (h : ∀ found later done, system.reply? scene (.communicate child) = some (found, later) →
      later.Over child done → found.stderr = Sign.stderr done →
      Attempt.Fares system.reply? later (f found) s post stuck) :
    Attempt.Fares system.reply? scene (communicate child >>= f) s post stuck := by
  cases hreply : system.reply? scene (.communicate child) with
  | none =>
    have hstuck : stuck := hends.resolve_left fun ⟨found, later, hsome⟩ =>
      Option.some_ne_none _ (hsome.symm.trans hreply)
    exact Attempt.fares_bind (Program.fares_bind (Program.fares_ask_of_none hreply hstuck))
  | some replied =>
    obtain ⟨done, hover, hstderr⟩ := over_of_reply? hchild hreply
    exact Attempt.fares_lift_ask_bind hreply (h _ _ done hreply hover hstderr)

/-- A child that is stopped by `kill` is seen to its end. -/
theorem fares_kill_communicate_bind {f : Output → Attempt σ interface α} (hstops : system.Stops)
    (hchild : scene.Watches child)
    (h : ∀ found later done,
      later.past = scene.past ++ [⟨.kill child, .ok ()⟩, ⟨.communicate child, found⟩] →
      later.Over child done → found.stderr = Sign.stderr done →
      Attempt.Fares system.reply? later (f found) s post stuck) :
    Attempt.Fares system.reply? scene (kill child >>= fun _ => communicate child >>= f) s post
      stuck := by
  refine Attempt.fares_bind (fares_ask nofun fun stopped killed hkill => ?_)
  obtain rfl := kill_of_reply? hstops hkill
  have hkilled := hchild.next hkill nofun
  have hcloses : .closed ∈ (system.awaited killed.past child).flatMap Beat.signs := by
    rw [past_of_reply? hkill]
    exact hstops.closes _ _ (List.mem_append_right _ (List.mem_singleton.2 rfl))
  refine fares_communicate_bind hkilled
    (.inl (exists_reply?_communicate system hkilled (.inr hcloses)))
    fun found later done hfound hover hstderr => h found later done ?_ hover hstderr
  rw [past_of_reply? hfound, past_of_reply? hkill, List.append_assoc]
  rfl

end Attempts

end Replies

end OpenSsh

end Outpost

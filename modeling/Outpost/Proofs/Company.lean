import Outpost.Proofs.Run

/-!
# Programs in company

A run of a program leaves open where its replies come from. Here they come from somebody who keeps
something in mind: each reply may depend on all that happened before, and a request may also be left
without a reply for ever, so that the program that made it never ends (`Program.attend`).

How a program fares in such company is what holds when it ends, and what holds if it never does
(`Program.Fares`). Both are carried through every way of building a program, from its end to its
beginning.

## Contents

* `Program.attend`, `Program.run_of_attend`.
* `Program.Fares`, `Attempt.Fares`, with a rule for each way of building a program.
* `Program.Asks`, `Program.fares_of_asks`: parts whose requests are all replied to.
-/

namespace Outpost

namespace Program

variable {γ σ : Type} {I : Interface} {α β : Type}

/-! ## Replies from somebody -/

/-- Carries a program out with somebody who replies to requests by `reply?` and keeps something in
mind. There is no outcome if a request is never replied to. -/
def attend (reply? : γ → (r : I.Request) → Option (I.Reply r × γ)) :
    γ → Program σ I α → σ → Option (γ × σ × α)
  | c, .done a, s => some (c, s, a)
  | c, .read next, s => (next s).attend reply? c s
  | c, .write t next, _ => next.attend reply? c t
  | c, .ask r next, s =>
    match reply? c r with
    | some (reply, later) => (next reply).attend reply? later s
    | none => none

variable {reply? : γ → (r : I.Request) → Option (I.Reply r × γ)} {c later : γ}
  {p : Program σ I α} {s s' : σ} {a : α}

/-- One program after another, `p.bind f`, is carried out with what the first leaves in mind. -/
theorem attend_bind (f : α → Program σ I β) :
    (p.bind f).attend reply? c s
      = (p.attend reply? c s).bind fun left => (f left.2.2).attend reply? left.1 left.2.1 := by
  induction p generalizing c s with
  | done a => rfl
  | read next ih => exact ih s
  | write t next ih => exact ih
  | ask r next ih =>
    rw [bind, attend, attend]
    cases reply? c r with
    | none => rfl
    | some replied => exact ih replied.1

/-- What is carried out by `attend` is a run. -/
theorem run_of_attend (h : p.attend reply? c s = some (later, s', a)) :
    ∃ exchanges, Run p s exchanges s' a := by
  induction p generalizing c s with
  | done b =>
    obtain ⟨-, rfl, rfl⟩ := Prod.mk.injEq .. ▸ Option.some.inj h
    exact ⟨[], .done _ _⟩
  | read next ih =>
    obtain ⟨exchanges, hrun⟩ := ih s h
    exact ⟨exchanges, .read hrun⟩
  | write t next ih =>
    obtain ⟨exchanges, hrun⟩ := ih h
    exact ⟨exchanges, .write hrun⟩
  | ask r next ih =>
    rw [attend] at h
    cases hreply : reply? c r with
    | none =>
      rw [hreply] at h
      exact absurd h nofun
    | some replied =>
      rw [hreply] at h
      obtain ⟨exchanges, hrun⟩ := ih replied.1 h
      exact ⟨_, .ask replied.1 hrun⟩

/-! ## How a program fares -/

/-- Carried out so, a program ends as `post` says, or it never ends and `stuck` holds. -/
def Fares (reply? : γ → (r : I.Request) → Option (I.Reply r × γ)) (c : γ) (p : Program σ I α)
    (s : σ) (post : γ → σ → α → Prop) (stuck : Prop) : Prop :=
  match p.attend reply? c s with
  | some (later, s', a) => post later s' a
  | none => stuck

variable {post post' : γ → σ → α → Prop} {stuck : Prop}

theorem Fares.mono (h : Fares reply? c p s post stuck)
    (hpost : ∀ later s' a, post later s' a → post' later s' a) :
    Fares reply? c p s post' stuck := by
  unfold Fares at h ⊢
  cases hleft : p.attend reply? c s with
  | none =>
    rw [hleft] at h
    exact h
  | some left =>
    rw [hleft] at h
    exact hpost _ _ _ h

/-- What `Fares` so ends, or it is stuck. -/
theorem Fares.ends_or_stuck (h : Fares reply? c p s post stuck) :
    (∃ later s' a, p.attend reply? c s = some (later, s', a) ∧ post later s' a) ∨
      p.attend reply? c s = none ∧ stuck := by
  unfold Fares at h
  cases hleft : p.attend reply? c s with
  | none =>
    rw [hleft] at h
    exact .inr ⟨rfl, h⟩
  | some left =>
    rw [hleft] at h
    exact .inl ⟨left.1, left.2.1, left.2.2, rfl, h⟩

/-- What `Fares` so and cannot be stuck ends. -/
theorem Fares.ends (h : Fares reply? c p s post stuck) (hstuck : ¬ stuck) :
    ∃ later s' a, p.attend reply? c s = some (later, s', a) ∧ post later s' a :=
  h.ends_or_stuck.resolve_right fun hnone => hstuck hnone.2

theorem fares_bind {f : α → Program σ I β} {post : γ → σ → β → Prop}
    (h : Fares reply? c p s (fun later s' a => Fares reply? later (f a) s' post stuck) stuck) :
    Fares reply? c (p.bind f) s post stuck := by
  unfold Fares at h ⊢
  rw [attend_bind]
  cases hleft : p.attend reply? c s with
  | none =>
    rw [hleft] at h
    exact h
  | some left =>
    rw [hleft] at h
    exact h

/-- A request that is replied to by `reply?`. -/
theorem fares_ask {r : I.Request} {next : I.Reply r → Program σ I α} {reply : I.Reply r}
    (hreply : reply? c r = some (reply, later)) (h : Fares reply? later (next reply) s post stuck) :
    Fares reply? c (.ask r next) s post stuck := by
  unfold Fares at h ⊢
  rw [attend, hreply]
  exact h

/-- A request that is never replied to by `reply?`. -/
theorem fares_ask_of_none {r : I.Request} {next : I.Reply r → Program σ I α}
    (hreply : reply? c r = none) (hstuck : stuck) :
    Fares reply? c (.ask r next) s post stuck := by
  unfold Fares
  rw [attend, hreply]
  exact hstuck

/-! ## Parts whose requests are replied to -/

/-- All that a program ever asks for is `allowed`. -/
def Asks (allowed : I.Request → Prop) : Program σ I α → Prop
  | .done _ => True
  | .read next => ∀ s, (next s).Asks allowed
  | .write _ next => next.Asks allowed
  | .ask r next => allowed r ∧ ∀ reply, (next reply).Asks allowed

theorem asks_bind {allowed : I.Request → Prop} {f : α → Program σ I β} (hp : p.Asks allowed)
    (hf : ∀ a, (f a).Asks allowed) : (p.bind f).Asks allowed := by
  induction p with
  | done a => exact hf a
  | read next ih => exact fun s => ih s (hp s)
  | write t next ih => exact ih hp
  | ask r next ih => exact ⟨hp.1, fun reply => ih reply (hp.2 reply)⟩

theorem Observes.asks {allowed : I.Request → Prop} (h : p.Observes allowed) : p.Asks allowed := by
  induction p with
  | done a => exact trivial
  | read next ih => exact fun s => ih s (h s)
  | write t next => exact h.elim
  | ask r next ih => exact ⟨h.1, fun reply => ih reply (h.2 reply)⟩

/-- A part whose requests are all replied to, in a way that keeps up what `holds`, ends. -/
theorem fares_of_asks {allowed : I.Request → Prop} {holds : γ → Prop}
    (hreply : ∀ c r, holds c → allowed r → ∃ reply later, reply? c r = some (reply, later) ∧
      holds later)
    (hp : p.Asks allowed) (hc : holds c) :
    Fares reply? c p s (fun later s' a => holds later ∧ ∃ exchanges, Run p s exchanges s' a)
      stuck := by
  have hends : ∃ later s' a, p.attend reply? c s = some (later, s', a) ∧ holds later := by
    induction p generalizing c s with
    | done a => exact ⟨c, s, a, rfl, hc⟩
    | read next ih => exact ih s (hp s) hc
    | write t next ih => exact ih hp hc
    | ask r next ih =>
      obtain ⟨reply, mid, hmid, hholds⟩ := hreply c r hc hp.1
      obtain ⟨later, s', a, hrest, hlater⟩ := ih reply (hp.2 reply) hholds
      refine ⟨later, s', a, ?_, hlater⟩
      rw [attend, hmid]
      exact hrest
  obtain ⟨later, s', a, hleft, hlater⟩ := hends
  unfold Fares
  rw [hleft]
  exact ⟨hlater, run_of_attend hleft⟩

end Program

namespace Attempt

variable {γ σ : Type} {I : Interface} {α β : Type}
  {reply? : γ → (r : I.Request) → Option (I.Reply r × γ)} {c : γ} {x : Attempt σ I α} {s : σ}
  {stuck : Prop}

/-- Carried out so, an attempt ends as `post` says, or it never ends and `stuck` holds. -/
def Fares (reply? : γ → (r : I.Request) → Option (I.Reply r × γ)) (c : γ) (x : Attempt σ I α)
    (s : σ) (post : γ → σ → Except Fault α → Prop) (stuck : Prop) : Prop :=
  Program.Fares reply? c x.outcome s post stuck

theorem fares_pure {a : α} {post : γ → σ → Except Fault α → Prop} (h : post c s (.ok a)) :
    Fares reply? c (pure a) s post stuck := h

theorem fares_throw {fault : Fault} {post : γ → σ → Except Fault α → Prop}
    (h : post c s (.error fault)) : Fares reply? c (throw fault) s post stuck := h

theorem fares_get_bind {f : σ → Attempt σ I β} {post : γ → σ → Except Fault β → Prop}
    (h : Fares reply? c (f s) s post stuck) : Fares reply? c (get >>= f) s post stuck := h

theorem fares_set_bind {t : σ} {f : PUnit → Attempt σ I β} {post : γ → σ → Except Fault β → Prop}
    (h : Fares reply? c (f ⟨⟩) t post stuck) : Fares reply? c (set t >>= f) s post stuck := h

theorem fares_modify_bind {g : σ → σ} {f : PUnit → Attempt σ I β}
    {post : γ → σ → Except Fault β → Prop} (h : Fares reply? c (f ⟨⟩) (g s) post stuck) :
    Fares reply? c (modify g >>= f) s post stuck := h

/-- One attempt after another: a fault of the first is the end of it, for `Fares` too. -/
theorem fares_bind {f : α → Attempt σ I β} {post : γ → σ → Except Fault β → Prop}
    (h : Fares reply? c x s (fun later s' ending => match ending with
      | .ok a => Fares reply? later (f a) s' post stuck
      | .error fault => post later s' (.error fault)) stuck) :
    Fares reply? c (x >>= f) s post stuck := by
  refine Program.fares_bind (Program.Fares.mono h fun later s' ending hending => ?_)
  cases ending with
  | ok a => exact hending
  | error fault => exact hending

/-- Going on from a request that is replied to by `reply?`. -/
theorem fares_lift_ask_bind {r : I.Request} {later : γ} {reply : I.Reply r}
    {f : I.Reply r → Attempt σ I β} {post : γ → σ → Except Fault β → Prop}
    (hreply : reply? c r = some (reply, later))
    (h : Fares reply? later (f reply) s post stuck) :
    Fares reply? c (ExceptT.lift (.ask r .done) >>= f) s post stuck :=
  fares_bind (Program.fares_bind (Program.fares_ask hreply h))

/-- Going on with the `outcome` of an attempt. -/
theorem fares_outcome_bind {f : Except Fault α → Attempt σ I β}
    {post : γ → σ → Except Fault β → Prop}
    (h : Fares reply? c x s (fun later s' ending => Fares reply? later (f ending) s' post stuck)
      stuck) :
    Fares reply? c (ExceptT.lift x.outcome >>= f) s post stuck :=
  fares_bind (Program.fares_bind h)

theorem fares_tryCatch {handle : Fault → Attempt σ I α} {post : γ → σ → Except Fault α → Prop}
    (h : Fares reply? c x s (fun later s' ending => match ending with
      | .ok a => post later s' (.ok a)
      | .error fault => Fares reply? later (handle fault) s' post stuck) stuck) :
    Fares reply? c (tryCatch x handle) s post stuck := by
  refine Program.fares_bind (Program.Fares.mono h fun later s' ending hending => ?_)
  cases ending with
  | ok a => exact hending
  | error fault => exact hending

end Attempt

end Outpost

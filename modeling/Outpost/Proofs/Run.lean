import Outpost.Program

/-!
# Runs of programs and attempts

`Program.Run` is read backwards here: for every way of building a program there is an equivalence
that says which runs it has. With these a run of a compound program comes apart into runs of its
parts, and it can be put together from them, without a look at the program as a tree.

Whatever the surroundings reply, and however their replies depend on what was asked before, a
program has a run with these replies (`Program.run_play`): no program waits for ever for anything
but a reply.

## Contents

* `Program.run_bind_iff`, `Program.run_ask_iff` and the other shapes of programs.
* `Program.play`, `Program.run_play`. `Program.Answered`, `Program.play_eq_of_run`: surroundings
  leave a program no choice.
* `Attempt.Run`, and its equivalences for everything that attempts are built with.
* `Program.run_embed_iff`, `Program.run_own_iff`, `Program.Run.of_focus`: runs through another
  interface, on a state of its own and on a part of a state.
* `Attempt.Observes`: attempts that leave the state alone and make only requests of some kind.
* `Attempt.Opens`: attempts that begin with a known request.
* `Attempt.Yields`: what is known after an attempt that succeeded.
-/

namespace Outpost

namespace Program

variable {σ τ : Type} {I J : Interface} {α β : Type}

/-! ## The shapes of a program -/

theorem run_done_iff {a b : α} {s s' : σ} {exchanges : List (Exchange I)} :
    Run (.done a) s exchanges s' b ↔ exchanges = [] ∧ s' = s ∧ b = a := by
  constructor
  · intro h
    cases h
    exact ⟨rfl, rfl, rfl⟩
  · rintro ⟨rfl, rfl, rfl⟩
    exact .done b s'

theorem run_read_iff {next : σ → Program σ I α} {s s' : σ} {exchanges : List (Exchange I)} {a : α} :
    Run (.read next) s exchanges s' a ↔ Run (next s) s exchanges s' a := by
  constructor
  · intro h
    cases h
    assumption
  · exact .read

theorem run_write_iff {next : Program σ I α} {s t s' : σ} {exchanges : List (Exchange I)} {a : α} :
    Run (.write t next) s exchanges s' a ↔ Run next t exchanges s' a := by
  constructor
  · intro h
    cases h
    assumption
  · exact .write

theorem run_ask_iff {r : I.Request} {next : I.Reply r → Program σ I α} {s s' : σ}
    {exchanges : List (Exchange I)} {a : α} :
    Run (.ask r next) s exchanges s' a ↔
      ∃ reply rest, exchanges = ⟨r, reply⟩ :: rest ∧ Run (next reply) s rest s' a := by
  constructor
  · intro h
    cases h with
    | ask reply h => exact ⟨reply, _, rfl, h⟩
  · rintro ⟨reply, rest, rfl, h⟩
    exact .ask reply h

/-- The run of a single `ask` is its exchange, with the reply as the result. -/
theorem run_request_iff {r : I.Request} {s s' : σ} {exchanges : List (Exchange I)}
    {a : I.Reply r} :
    Run (.ask r .done) s exchanges s' a ↔ exchanges = [⟨r, a⟩] ∧ s' = s := by
  rw [run_ask_iff]
  constructor
  · rintro ⟨reply, rest, rfl, h⟩
    obtain ⟨rfl, rfl, rfl⟩ := run_done_iff.1 h
    exact ⟨rfl, rfl⟩
  · rintro ⟨rfl, rfl⟩
    exact ⟨a, [], rfl, .done a s'⟩

/-- A run of one program after another, `p.bind f`, is a run of the first and then one of the
second. -/
theorem run_bind_iff {p : Program σ I α} {f : α → Program σ I β} {s s' : σ}
    {exchanges : List (Exchange I)} {b : β} :
    Run (p.bind f) s exchanges s' b ↔
      ∃ mid a first second, Run p s first mid a ∧ Run (f a) mid second s' b ∧
        exchanges = first ++ second := by
  constructor
  · intro h
    induction p generalizing s exchanges with
    | done a => exact ⟨s, a, [], exchanges, .done a s, h, rfl⟩
    | read next ih =>
      obtain ⟨mid, a, first, second, h₁, h₂, rfl⟩ := ih s (run_read_iff.1 h)
      exact ⟨mid, a, first, second, .read h₁, h₂, rfl⟩
    | write t next ih =>
      obtain ⟨mid, a, first, second, h₁, h₂, rfl⟩ := ih (run_write_iff.1 h)
      exact ⟨mid, a, first, second, .write h₁, h₂, rfl⟩
    | ask r next ih =>
      obtain ⟨reply, rest, rfl, hrest⟩ := run_ask_iff.1 h
      obtain ⟨mid, a, first, second, h₁, h₂, rfl⟩ := ih reply hrest
      exact ⟨mid, a, ⟨r, reply⟩ :: first, second, .ask reply h₁, h₂, rfl⟩
  · rintro ⟨mid, a, first, second, h₁, h₂, rfl⟩
    induction h₁ with
    | done a s => exact h₂
    | read _ ih => exact .read (ih h₂)
    | write _ ih => exact .write (ih h₂)
    | ask reply _ ih => exact .ask reply (ih h₂)

/-- Looking at the state first, by `get`. -/
theorem run_get_bind_iff {f : σ → Program σ I β} {s s' : σ} {exchanges : List (Exchange I)}
    {b : β} :
    Run (get >>= f) s exchanges s' b ↔ Run (f s) s exchanges s' b :=
  run_read_iff

/-- Replacing the state first, by `set`. -/
theorem run_set_bind_iff {t : σ} {f : PUnit → Program σ I β} {s s' : σ}
    {exchanges : List (Exchange I)} {b : β} :
    Run (set t >>= f) s exchanges s' b ↔ Run (f ⟨⟩) t exchanges s' b :=
  run_write_iff

/-- Changing the state first, by `modify`. -/
theorem run_modify_bind_iff {g : σ → σ} {f : PUnit → Program σ I β} {s s' : σ}
    {exchanges : List (Exchange I)} {b : β} :
    Run (modify g >>= f) s exchanges s' b ↔ Run (f ⟨⟩) (g s) exchanges s' b :=
  run_read_iff.trans run_write_iff

/-! ## Every program ends -/

/-- Carries a program out with surroundings `answer` whose reply depends on everything asked before:
what was asked, the last state and the result. -/
def play (answer : List (Exchange I) → (r : I.Request) → I.Reply r) :
    List (Exchange I) → Program σ I α → σ → List (Exchange I) × σ × α
  | _, .done a, s => ([], s, a)
  | past, .read next, s => (next s).play answer past s
  | past, .write t next, _ => next.play answer past t
  | past, .ask r next, s =>
    let exchange : Exchange I := ⟨r, answer past r⟩
    let rest := (next exchange.reply).play answer (past ++ [exchange]) s
    (exchange :: rest.1, rest.2)

/-- A program has a `Run` with any surroundings: the one that `play` finds. -/
theorem run_play (answer : List (Exchange I) → (r : I.Request) → I.Reply r)
    (past : List (Exchange I)) (p : Program σ I α) (s : σ) :
    Run p s (p.play answer past s).1 (p.play answer past s).2.1 (p.play answer past s).2.2 := by
  induction p generalizing past s with
  | done a => exact .done a s
  | read next ih => exact .read (ih s past s)
  | write t next ih => exact .write (ih past t)
  | ask r next ih => exact .ask (answer past r) (ih _ _ s)

/-- Exchanges whose replies are those of the surroundings `answer`. -/
def Answered (answer : List (Exchange I) → (r : I.Request) → I.Reply r) :
    List (Exchange I) → List (Exchange I) → Prop
  | _, [] => True
  | past, x :: rest => x.reply = answer past x.request ∧ Answered answer (past ++ [x]) rest

theorem answered_play (answer : List (Exchange I) → (r : I.Request) → I.Reply r)
    (past : List (Exchange I)) (p : Program σ I α) (s : σ) :
    Answered answer past (p.play answer past s).1 := by
  induction p generalizing past s with
  | done a => exact trivial
  | read next ih => exact ih s past s
  | write t next ih => exact ih past t
  | ask r next ih => exact ⟨rfl, ih _ _ s⟩

/-- Surroundings leave a program no choice: `play` finds the one run with their replies. -/
theorem play_eq_of_run {answer : List (Exchange I) → (r : I.Request) → I.Reply r}
    {past exchanges : List (Exchange I)} {p : Program σ I α} {s s' : σ} {a : α}
    (h : Run p s exchanges s' a) (hanswered : Answered answer past exchanges) :
    p.play answer past s = (exchanges, s', a) := by
  induction h generalizing past with
  | done a s => rfl
  | read _ ih => exact ih hanswered
  | write _ ih => exact ih hanswered
  | @ask r next _ _ _ _ reply _ ih =>
    obtain ⟨hreply, hrest⟩ := hanswered
    obtain rfl : reply = answer past r := hreply
    rw [play, ih hrest]

end Program

/-! ## Attempts -/

namespace Attempt

variable {σ τ : Type} {I J : Interface} {α β : Type}

/-- The runs of an attempt: `result` says whether it failed. -/
def Run (x : Attempt σ I α) (s : σ) (exchanges : List (Program.Exchange I)) (s' : σ)
    (result : Except Fault α) : Prop :=
  Program.Run x.outcome s exchanges s' result

variable {x : Attempt σ I α} {s s' : σ} {exchanges : List (Program.Exchange I)}

theorem run_pure_iff {a : α} {result : Except Fault α} :
    Run (pure a : Attempt σ I α) s exchanges s' result ↔
      exchanges = [] ∧ s' = s ∧ result = .ok a :=
  Program.run_done_iff

theorem run_throw_iff {fault : Fault} {result : Except Fault α} :
    Run (throw fault : Attempt σ I α) s exchanges s' result ↔
      exchanges = [] ∧ s' = s ∧ result = .error fault :=
  Program.run_done_iff

theorem run_ofExcept_iff {known result : Except Fault α} :
    Run (ofExcept known : Attempt σ I α) s exchanges s' result ↔
      exchanges = [] ∧ s' = s ∧ result = known :=
  Program.run_done_iff

theorem run_modify_iff {f : σ → σ} {result : Except Fault PUnit} :
    Run (modify f : Attempt σ I PUnit) s exchanges s' result ↔
      exchanges = [] ∧ s' = f s ∧ result = .ok ⟨⟩ :=
  Program.run_read_iff.trans (Program.run_write_iff.trans Program.run_done_iff)

/-- A `Run` of one attempt after another fails with the first, or goes on with its result. -/
theorem run_bind_iff {f : α → Attempt σ I β} {result : Except Fault β} :
    Run (x >>= f) s exchanges s' result ↔
      (∃ fault, Run x s exchanges s' (.error fault) ∧ result = .error fault) ∨
      ∃ mid a first second, Run x s first mid (.ok a) ∧ Run (f a) mid second s' result ∧
        exchanges = first ++ second := by
  refine Iff.trans Program.run_bind_iff ?_
  constructor
  · rintro ⟨mid, outcome | a, first, second, h₁, h₂, rfl⟩
    · obtain ⟨rfl, rfl, rfl⟩ := Program.run_done_iff.1 h₂
      rw [List.append_nil]
      exact .inl ⟨outcome, h₁, rfl⟩
    · exact .inr ⟨mid, a, first, second, h₁, h₂, rfl⟩
  · rintro (⟨fault, h₁, rfl⟩ | ⟨mid, a, first, second, h₁, h₂, rfl⟩)
    · exact ⟨s', .error fault, exchanges, [], h₁, .done _ _, (List.append_nil _).symm⟩
    · exact ⟨mid, .ok a, first, second, h₁, h₂, rfl⟩

/-- Two attempts that succeed, `x` and then `f` on its result. -/
theorem run_bind_ok {f : α → Attempt σ I β} {b : β} (h : Run (x >>= f) s exchanges s' (.ok b)) :
    ∃ mid a first second, Run x s first mid (.ok a) ∧ Run (f a) mid second s' (.ok b) ∧
      exchanges = first ++ second := by
  rcases run_bind_iff.1 h with ⟨fault, -, hfault⟩ | hboth
  · exact absurd hfault nofun
  · exact hboth

/-- An attempt `x` that gets what it needs with a single request, and goes on from there. -/
theorem run_bind_of_exchange {f : α → Attempt σ I β} {a : α} {exchange : Program.Exchange I}
    {result : Except Fault β} (hx : Run x s [exchange] s (.ok a))
    (h : Run (f a) s exchanges s' result) : Run (x >>= f) s (exchange :: exchanges) s' result :=
  run_bind_iff.2 (.inr ⟨s, a, [exchange], exchanges, hx, h, rfl⟩)

/-- A run that goes on from an attempt that cannot fail and leaves the state alone; `asked` says
what it may have asked for. -/
theorem run_bind_iff_of_ok {a : α} {asked : List (Program.Exchange I) → Prop}
    (hx : ∀ {first mid ending}, Run x s first mid ending ↔ asked first ∧ mid = s ∧ ending = .ok a)
    {f : α → Attempt σ I β} {result : Except Fault β} :
    Run (x >>= f) s exchanges s' result ↔
      ∃ first second, asked first ∧ Run (f a) s second s' result ∧ exchanges = first ++ second := by
  rw [run_bind_iff]
  constructor
  · rintro (⟨fault, h, -⟩ | ⟨mid, b, first, second, h₁, h₂, rfl⟩)
    · exact absurd (hx.1 h).2.2 nofun
    · obtain ⟨hasked, rfl, hb⟩ := hx.1 h₁
      obtain rfl := Except.ok.inj hb
      exact ⟨first, second, hasked, h₂, rfl⟩
  · rintro ⟨first, second, hasked, h, rfl⟩
    exact .inr ⟨s, a, first, second, hx.2 ⟨hasked, rfl, rfl⟩, h, rfl⟩

/-- A run that goes on from a program that cannot fail, by `ExceptT.lift`. -/
theorem run_lift_bind_iff {p : Program σ I α} {f : α → Attempt σ I β} {result : Except Fault β} :
    Run (ExceptT.lift p >>= f) s exchanges s' result ↔
      ∃ mid a first second, Program.Run p s first mid a ∧ Run (f a) mid second s' result ∧
        exchanges = first ++ second := by
  have hlift (ending : Except Fault α) (first mid) :
      Run (ExceptT.lift p : Attempt σ I α) s first mid ending ↔
        ∃ known, Program.Run p s first mid known ∧ ending = .ok known := by
    refine Iff.trans Program.run_bind_iff ?_
    constructor
    · rintro ⟨mid, known, first, second, h₁, h₂, rfl⟩
      obtain ⟨rfl, rfl, rfl⟩ := Program.run_done_iff.1 h₂
      rw [List.append_nil]
      exact ⟨known, h₁, rfl⟩
    · rintro ⟨known, h₁, rfl⟩
      exact ⟨mid, known, first, [], h₁, .done _ _, (List.append_nil _).symm⟩
  rw [run_bind_iff]
  constructor
  · rintro (⟨fault, h, rfl⟩ | ⟨mid, ending, first, second, h₁, h₂, rfl⟩)
    · obtain ⟨known, -, h⟩ := (hlift _ _ _).1 h
      exact absurd h nofun
    · obtain ⟨known, h₁, h⟩ := (hlift _ _ _).1 h₁
      obtain rfl := Except.ok.inj h
      exact ⟨mid, ending, first, second, h₁, h₂, rfl⟩
  · rintro ⟨mid, ending, first, second, h₁, h₂, rfl⟩
    exact .inr ⟨mid, ending, first, second, (hlift _ _ _).2 ⟨ending, h₁, rfl⟩, h₂, rfl⟩

/-- A run that goes on with the `outcome` of an attempt, whether it failed or not. -/
theorem run_outcome_bind_iff {f : Except Fault α → Attempt σ I β} {result : Except Fault β} :
    Run (ExceptT.lift x.outcome >>= f) s exchanges s' result ↔
      ∃ mid ending first second, Run x s first mid ending ∧ Run (f ending) mid second s' result ∧
        exchanges = first ++ second :=
  run_lift_bind_iff

/-- A run of an attempt whose faults are handled by `tryCatch`. -/
theorem run_tryCatch_iff {handle : Fault → Attempt σ I α} {result : Except Fault α} :
    Run (tryCatch x handle) s exchanges s' result ↔
      (∃ a, Run x s exchanges s' (.ok a) ∧ result = .ok a) ∨
      ∃ mid fault first second, Run x s first mid (.error fault) ∧
        Run (handle fault) mid second s' result ∧ exchanges = first ++ second := by
  refine Iff.trans Program.run_bind_iff ?_
  constructor
  · rintro ⟨mid, fault | a, first, second, h₁, h₂, rfl⟩
    · exact .inr ⟨mid, fault, first, second, h₁, h₂, rfl⟩
    · obtain ⟨rfl, rfl, rfl⟩ := Program.run_done_iff.1 h₂
      rw [List.append_nil]
      exact .inl ⟨a, h₁, rfl⟩
  · rintro (⟨a, h₁, rfl⟩ | ⟨mid, fault, first, second, h₁, h₂, rfl⟩)
    · exact ⟨s', .ok a, exchanges, [], h₁, .done _ _, (List.append_nil _).symm⟩
    · exact ⟨mid, .error fault, first, second, h₁, h₂, rfl⟩

/-- A run of an attempt whose faults are only worded differently by `change`. -/
theorem run_tryCatch_throw_iff {change : Fault → Fault} {result : Except Fault α} :
    Run (tryCatch x fun fault => throw (change fault)) s exchanges s' result ↔
      ∃ ending, Run x s exchanges s' ending ∧ result = ending.mapError change := by
  rw [run_tryCatch_iff]
  constructor
  · rintro (⟨a, h, rfl⟩ | ⟨mid, fault, first, second, h₁, h₂, rfl⟩)
    · exact ⟨.ok a, h, rfl⟩
    · obtain ⟨rfl, rfl, rfl⟩ := run_throw_iff.1 h₂
      rw [List.append_nil]
      exact ⟨.error fault, h₁, rfl⟩
  · rintro ⟨fault | a, h, rfl⟩
    · exact .inr ⟨s', fault, exchanges, [], h, run_throw_iff.2 ⟨rfl, rfl, rfl⟩,
        (List.append_nil _).symm⟩
    · exact .inl ⟨a, h, rfl⟩

/-- A change of the state that is made by `thenAlways` whatever happened. -/
theorem run_thenAlways_modify_iff {f : σ → σ} {result : Except Fault α} :
    Run (x.thenAlways (modify f)) s exchanges s' result ↔
      ∃ mid, Run x s exchanges mid result ∧ s' = f mid := by
  rw [thenAlways, run_outcome_bind_iff]
  constructor
  · rintro ⟨mid, ending, first, second, h₁, h₂, rfl⟩
    rcases run_bind_iff.1 h₂ with ⟨fault, h, -⟩ | ⟨mid', _, third, fourth, h₃, h₄, rfl⟩
    · exact absurd (run_modify_iff.1 h).2.2 nofun
    · obtain ⟨rfl, rfl, -⟩ := run_modify_iff.1 h₃
      obtain ⟨rfl, rfl, rfl⟩ := run_ofExcept_iff.1 h₄
      rw [List.append_nil, List.append_nil]
      exact ⟨mid, h₁, rfl⟩
  · rintro ⟨mid, h₁, rfl⟩
    refine ⟨mid, result, exchanges, [], h₁, ?_, (List.append_nil _).symm⟩
    exact run_bind_iff.2
      (.inr ⟨f mid, ⟨⟩, [], [], run_modify_iff.2 ⟨rfl, rfl, rfl⟩,
        run_ofExcept_iff.2 ⟨rfl, rfl, rfl⟩, rfl⟩)

/-- Such a change after an attempt that leaves the state alone. -/
theorem run_thenAlways_modify_iff_of_steady {f : σ → σ} {result : Except Fault α} {ending : Prop}
    (hx : ∀ {mid}, Run x s exchanges mid result ↔ mid = s ∧ ending) :
    Run (x.thenAlways (modify f)) s exchanges s' result ↔ s' = f s ∧ ending := by
  rw [run_thenAlways_modify_iff]
  constructor
  · rintro ⟨mid, h, rfl⟩
    obtain ⟨rfl, hending⟩ := hx.1 h
    exact ⟨rfl, hending⟩
  · rintro ⟨rfl, hending⟩
    exact ⟨s, hx.2 ⟨rfl, hending⟩, rfl⟩

/-- A program `last` that cannot fail, carried out by `thenAlways` whatever happened. -/
theorem run_thenAlways_lift_iff {last : Program σ I Unit} {result : Except Fault α} :
    Run (x.thenAlways (ExceptT.lift last)) s exchanges s' result ↔
      ∃ mid first second, Run x s first mid result ∧ Program.Run last mid second s' () ∧
        exchanges = first ++ second := by
  rw [thenAlways, run_outcome_bind_iff]
  constructor
  · rintro ⟨mid, ending, first, rest, h₁, hrest, rfl⟩
    obtain ⟨mid', _, second, third, h₂, h₃, rfl⟩ := run_lift_bind_iff.1 hrest
    obtain ⟨rfl, rfl, rfl⟩ := run_ofExcept_iff.1 h₃
    rw [List.append_nil]
    exact ⟨mid, first, second, h₁, h₂, rfl⟩
  · rintro ⟨mid, first, second, h₁, h₂, rfl⟩
    refine ⟨mid, result, first, second, h₁, ?_, rfl⟩
    exact run_lift_bind_iff.2
      ⟨s', (), second, [], h₂, run_ofExcept_iff.2 ⟨rfl, rfl, rfl⟩, (List.append_nil _).symm⟩

/-- A single `ask` whose reply cannot fail. -/
theorem run_lift_ask_iff {r : I.Request} {result : Except Fault (I.Reply r)} :
    Run (ExceptT.lift (.ask r .done) : Attempt σ I (I.Reply r)) s exchanges s' result ↔
      ∃ reply, exchanges = [⟨r, reply⟩] ∧ s' = s ∧ result = .ok reply := by
  refine Iff.trans Program.run_bind_iff ?_
  constructor
  · rintro ⟨mid, reply, first, second, h₁, h₂, rfl⟩
    obtain ⟨rfl, rfl⟩ := Program.run_request_iff.1 h₁
    obtain ⟨rfl, rfl, rfl⟩ := Program.run_done_iff.1 h₂
    exact ⟨reply, rfl, rfl, rfl⟩
  · rintro ⟨reply, rfl, rfl, rfl⟩
    exact ⟨s', reply, [⟨r, reply⟩], [], Program.run_request_iff.2 ⟨rfl, rfl⟩, .done _ _, rfl⟩

/-- Looking at the state first, by `get`. -/
theorem run_get_bind_iff {f : σ → Attempt σ I α} {result : Except Fault α} :
    Run (get >>= f) s exchanges s' result ↔ Run (f s) s exchanges s' result :=
  Program.run_read_iff

/-- Changing the state first, by `modify`. -/
theorem run_modify_bind_iff {g : σ → σ} {f : PUnit → Attempt σ I α} {result : Except Fault α} :
    Run (modify g >>= f) s exchanges s' result ↔ Run (f ⟨⟩) (g s) exchanges s' result :=
  Program.run_read_iff.trans Program.run_write_iff

/-- Replacing the state first, by `set`. -/
theorem run_set_bind_iff {t : σ} {f : PUnit → Attempt σ I α} {result : Except Fault α} :
    Run (set t >>= f) s exchanges s' result ↔ Run (f ⟨⟩) t exchanges s' result :=
  Program.run_write_iff

end Attempt

/-! ## Other states and other interfaces -/

/-- A request that is made through another interface `J`, with the reply that it gets there. -/
structure Interface.Embedding.Carried {I J : Interface} (e : Interface.Embedding I J) where
  request : I.Request
  reply : J.Reply (e.request request)

namespace Interface.Embedding.Carried

variable {I J : Interface} {e : Interface.Embedding I J}

/-- The exchange as the one who asks by the interface `I` knows it. -/
def inner (x : e.Carried) : Program.Exchange I := ⟨x.request, e.reply x.request x.reply⟩

/-- The exchange as it is made by the interface `J`. -/
def outer (x : e.Carried) : Program.Exchange J := ⟨e.request x.request, x.reply⟩

end Interface.Embedding.Carried

namespace Program

variable {σ τ : Type} {I J : Interface} {α β : Type}

/-- One program after another, each made through another interface by `embed`. -/
theorem embed_bind {e : Interface.Embedding I J} (p : Program σ I α) (f : α → Program σ I β) :
    (p.bind f).embed e = (p.embed e).bind fun a => (f a).embed e := by
  induction p with
  | done a => rfl
  | read next ih => simp only [bind, embed, ih]
  | write t next ih => simp only [bind, embed, ih]
  | ask r next ih => simp only [bind, embed, ih]

/-- A run through another interface by `embed` is a run whose exchanges were `Carried` over. -/
theorem run_embed_iff {e : Interface.Embedding I J} {p : Program σ I α} {s s' : σ}
    {exchanges : List (Exchange J)} {a : α} :
    Run (p.embed e) s exchanges s' a ↔
      ∃ carried : List e.Carried, Run p s (carried.map (·.inner)) s' a ∧
        exchanges = carried.map (·.outer) := by
  constructor
  · intro h
    induction p generalizing s exchanges with
    | done b =>
      obtain ⟨rfl, rfl, rfl⟩ := run_done_iff.1 h
      exact ⟨[], .done a s', rfl⟩
    | read next ih =>
      obtain ⟨carried, hrun, rfl⟩ := ih s (run_read_iff.1 h)
      exact ⟨carried, .read hrun, rfl⟩
    | write t next ih =>
      obtain ⟨carried, hrun, rfl⟩ := ih (run_write_iff.1 h)
      exact ⟨carried, .write hrun, rfl⟩
    | ask r next ih =>
      obtain ⟨reply, rest, rfl, hrest⟩ := run_ask_iff.1 h
      obtain ⟨carried, hrun, rfl⟩ := ih _ hrest
      exact ⟨⟨r, reply⟩ :: carried, .ask _ hrun, rfl⟩
  · rintro ⟨carried, h, rfl⟩
    induction p generalizing s carried with
    | done b =>
      obtain ⟨hnone, rfl, rfl⟩ := run_done_iff.1 h
      rw [List.map_eq_nil_iff.1 hnone]
      exact .done a s'
    | read next ih => exact .read (ih s carried (run_read_iff.1 h))
    | write t next ih => exact .write (ih carried (run_write_iff.1 h))
    | ask r next ih =>
      obtain ⟨reply, rest, hcarried, hrest⟩ := run_ask_iff.1 h
      obtain ⟨⟨r', reply'⟩, more, rfl, hfirst, rfl⟩ := List.map_eq_cons_iff.1 hcarried
      cases hfirst
      exact .ask reply' (ih _ more hrest)

/-- Where every reply can be had through the other interface by `back`, so can every run. -/
theorem Run.embed {e : Interface.Embedding I J} {p : Program σ I α} {s s' : σ}
    {exchanges : List (Exchange I)} {a : α}
    {back : (r : I.Request) → I.Reply r → J.Reply (e.request r)}
    (hback : ∀ r reply, e.reply r (back r reply) = reply) (h : Run p s exchanges s' a) :
    Run (p.embed e) s (exchanges.map fun x => ⟨e.request x.request, back x.request x.reply⟩) s'
      a := by
  refine run_embed_iff.2 ⟨exchanges.map fun x => ⟨x.request, back x.request x.reply⟩, ?_, ?_⟩
  · have hinner : (exchanges.map fun x =>
        (⟨x.request, back x.request x.reply⟩ : e.Carried)).map (·.inner) = exchanges := by
      rw [List.map_map]
      refine List.map_id'' (fun x => ?_) exchanges
      rw [Function.comp_apply, Interface.Embedding.Carried.inner, hback]
    rw [hinner]
    exact h
  · rw [List.map_map]
    rfl

/-- A run on a state of its `own` leaves every other state alone. -/
theorem run_own_iff {p : Program τ I α} {t t' : τ} {s s' : σ} {exchanges : List (Exchange I)}
    {a : α} :
    Run (p.own t) s exchanges s' (a, t') ↔ s' = s ∧ Run p t exchanges t' a := by
  induction p generalizing t exchanges with
  | done b =>
    rw [own, run_done_iff, run_done_iff, Prod.mk.injEq]
    constructor
    · rintro ⟨rfl, rfl, rfl, rfl⟩
      exact ⟨rfl, rfl, rfl, rfl⟩
    · rintro ⟨rfl, rfl, rfl, rfl⟩
      exact ⟨rfl, rfl, rfl, rfl⟩
  | read next ih =>
    rw [own, run_read_iff]
    exact ih t
  | write t'' next ih =>
    rw [own, run_write_iff]
    exact ih
  | ask r next ih =>
    rw [own, run_ask_iff, run_ask_iff]
    constructor
    · rintro ⟨reply, rest, rfl, hrest⟩
      obtain ⟨rfl, hrun⟩ := (ih reply).1 hrest
      exact ⟨rfl, reply, rest, rfl, hrun⟩
    · rintro ⟨rfl, reply, rest, rfl, hrest⟩
      exact ⟨reply, rest, rfl, (ih reply).2 ⟨rfl, hrest⟩⟩

section Focus

variable {get : σ → τ} {set : τ → σ → σ} {p : Program τ I α} {s s' : σ}
  {exchanges : List (Exchange I)} {a : α}

/-- A run by `focus` on a part of a state, where that part is what was put there last, is a run on
it alone. -/
theorem Run.of_focus {valid : σ → Prop} (hget : ∀ s t, valid s → get (set t s) = t)
    (hset : ∀ s t, valid s → valid (set t s)) (hvalid : valid s)
    (h : Run (p.focus get set) s exchanges s' a) : Run p (get s) exchanges (get s') a := by
  induction p generalizing s exchanges with
  | done b =>
    obtain ⟨rfl, rfl, rfl⟩ := run_done_iff.1 h
    exact .done a _
  | read next ih => exact .read (ih (get s) hvalid (run_read_iff.1 h))
  | write t next ih =>
    have hrest := ih (hset s t hvalid) (run_write_iff.1 (run_read_iff.1 h))
    rw [hget s t hvalid] at hrest
    exact .write hrest
  | ask r next ih =>
    obtain ⟨reply, rest, rfl, hrest⟩ := run_ask_iff.1 h
    exact .ask reply (ih reply hvalid hrest)

/-- Nothing but the part that `focus` is on is changed by it. -/
theorem eq_or_eq_set_of_run_focus (hover : ∀ s t u, set t (set u s) = set t s)
    (h : Run (p.focus get set) s exchanges s' a) : s' = s ∨ ∃ t, s' = set t s := by
  induction p generalizing s exchanges with
  | done b => exact .inl (run_done_iff.1 h).2.1
  | read next ih => exact ih (get s) (run_read_iff.1 h)
  | write t next ih =>
    rcases ih (run_write_iff.1 (run_read_iff.1 h)) with hsame | ⟨u, hlast⟩
    · exact .inr ⟨t, hsame⟩
    · exact .inr ⟨u, hlast.trans (hover s u t)⟩
  | ask r next ih =>
    obtain ⟨reply, rest, rfl, hrest⟩ := run_ask_iff.1 h
    exact ih reply hrest

/-- A run on a part of a state alone is one on the whole state by `focus`. -/
theorem Run.focus {valid : σ → Prop} {t : τ} (hget : ∀ s t, valid s → get (set t s) = t)
    (hset : ∀ s t, valid s → valid (set t s)) (hover : ∀ s t u, set t (set u s) = set t s)
    (hvalid : valid s) (hsame : set (get s) s = s) (h : Run p (get s) exchanges t a) :
    Run (p.focus get set) s exchanges (set t s) a := by
  induction p generalizing s exchanges with
  | done b =>
    obtain ⟨rfl, rfl, rfl⟩ := run_done_iff.1 h
    rw [hsame]
    exact .done a s
  | read next ih => exact .read (ih (get s) hvalid hsame (run_read_iff.1 h))
  | write u next ih =>
    have hrest : Run (next.focus get set) (set u s) exchanges (set t (set u s)) a := by
      refine ih (hset s u hvalid) ?_ ?_
      · rw [hget s u hvalid, hover]
      · rw [hget s u hvalid]
        exact run_write_iff.1 h
    rw [hover] at hrest
    exact .read (.write hrest)
  | ask r next ih =>
    obtain ⟨reply, rest, rfl, hrest⟩ := run_ask_iff.1 h
    exact .ask reply (ih reply hvalid hsame hrest)

end Focus

end Program

namespace Attempt

variable {σ : Type} {I J : Interface} {α β : Type} {e : Interface.Embedding I J}

/-- One attempt after another, each made through another interface by `embed`. -/
theorem embed_bind (x : Attempt σ I α) (f : α → Attempt σ I β) :
    (x >>= f).embed e = x.embed e >>= fun a => (f a).embed e := by
  refine (Program.embed_bind _ _).trans (congrArg (Program.bind _) (funext fun ending => ?_))
  cases ending <;> rfl

theorem embed_lift (p : Program σ I α) :
    Attempt.embed e (ExceptT.lift p) = ExceptT.lift (p.embed e) :=
  Program.embed_bind _ _

end Attempt

/-! ## Looking only -/

namespace Program

variable {σ τ : Type} {I J : Interface} {α β : Type}

/-- A program never replaces the state, and all that it ever asks for is `allowed`. -/
def Observes (allowed : I.Request → Prop) : Program σ I α → Prop
  | .done _ => True
  | .read next => ∀ s, (next s).Observes allowed
  | .write _ _ => False
  | .ask r next => allowed r ∧ ∀ reply, (next reply).Observes allowed

theorem observes_bind {allowed : I.Request → Prop} {p : Program σ I α} {f : α → Program σ I β}
    (hp : p.Observes allowed) (hf : ∀ a, (f a).Observes allowed) :
    (p.bind f).Observes allowed := by
  induction p with
  | done a => exact hf a
  | read next ih => exact fun s => ih s (hp s)
  | write t next => exact hp.elim
  | ask r next ih => exact ⟨hp.1, fun reply => ih reply (hp.2 reply)⟩

/-- A program on a state of its `own` leaves every other state alone: it `Observes`. -/
theorem observes_own (p : Program τ I α) (t : τ) :
    (p.own t : Program σ I (α × τ)).Observes fun _ => True := by
  induction p generalizing t with
  | done a => exact trivial
  | read next ih => exact ih t t
  | write t' next ih => exact ih t'
  | ask r next ih => exact ⟨trivial, fun reply => ih reply t⟩

theorem observes_embed {e : Interface.Embedding I J} {allowed : J.Request → Prop}
    {p : Program σ I α} (hp : p.Observes fun r => allowed (e.request r)) :
    (p.embed e).Observes allowed := by
  induction p with
  | done a => exact trivial
  | read next ih => exact fun s => ih s (hp s)
  | write t next => exact hp.elim
  | ask r next ih => exact ⟨hp.1, fun reply => ih _ (hp.2 _)⟩

/-- A run of a program that only `Observes` leaves the state as it is. -/
theorem Run.of_observes {allowed : I.Request → Prop} {p : Program σ I α} {s s' : σ}
    {exchanges : List (Exchange I)} {a : α} (h : Run p s exchanges s' a)
    (hp : p.Observes allowed) : s' = s ∧ ∀ x ∈ exchanges, allowed x.request := by
  induction h with
  | done a s => exact ⟨rfl, by simp⟩
  | @read next s _ _ _ _ ih => exact ih (hp s)
  | write => exact hp.elim
  | ask reply _ ih =>
    obtain ⟨hs, hrest⟩ := ih (hp.2 reply)
    exact ⟨hs, List.forall_mem_cons.2 ⟨hp.1, hrest⟩⟩

end Program

namespace Attempt

variable {σ τ : Type} {I J : Interface} {α β : Type} {allowed : I.Request → Prop}

/-- An attempt never replaces the state, and all that it ever asks for is `allowed`. -/
def Observes (allowed : I.Request → Prop) (x : Attempt σ I α) : Prop :=
  Program.Observes allowed x.outcome

theorem observes_pure (a : α) : Observes allowed (pure a : Attempt σ I α) := trivial

theorem observes_throw (fault : Fault) : Observes allowed (throw fault : Attempt σ I α) := trivial

theorem observes_get : Observes allowed (get : Attempt σ I σ) := fun _ => trivial

theorem observes_lift_ask {r : I.Request} (h : allowed r) :
    Observes allowed (ExceptT.lift (.ask r .done) : Attempt σ I (I.Reply r)) :=
  ⟨h, fun _ => trivial⟩

theorem observes_bind {x : Attempt σ I α} {f : α → Attempt σ I β} (hx : Observes allowed x)
    (hf : ∀ a, Observes allowed (f a)) : Observes allowed (x >>= f) := by
  refine Program.observes_bind hx ?_
  rintro (fault | a)
  · exact trivial
  · exact hf a

theorem observes_outcome_bind {x : Attempt σ I α} {f : Except Fault α → Attempt σ I β}
    (hx : Observes allowed x) (hf : ∀ ending, Observes allowed (f ending)) :
    Observes allowed (ExceptT.lift x.outcome >>= f) :=
  observes_bind (Program.observes_bind hx fun _ => trivial) hf

end Attempt

/-! ## The first request -/

namespace Program

variable {σ : Type} {I : Interface} {α β : Type} {later : I.Request → Prop} {r : I.Request}

/-- A program makes the request `r` first, and then only looks and makes requests of some kind. -/
def Opens (r : I.Request) (later : I.Request → Prop) : Program σ I α → Prop
  | .ask r' next => r' = r ∧ ∀ reply, (next reply).Observes later
  | _ => False

theorem opens_bind {p : Program σ I α} {f : α → Program σ I β} (hp : p.Opens r later)
    (hf : ∀ a, (f a).Observes later) : (p.bind f).Opens r later := by
  cases p with
  | ask r' next => exact ⟨hp.1, fun reply => observes_bind (hp.2 reply) hf⟩
  | done | read | write => exact hp.elim

/-- A run of a program that `Opens` with a request begins with an exchange for it. -/
theorem Run.of_opens {p : Program σ I α} {s s' : σ} {exchanges : List (Exchange I)} {a : α}
    (h : Run p s exchanges s' a) (hp : p.Opens r later) :
    ∃ reply rest, exchanges = ⟨r, reply⟩ :: rest ∧ ∀ x ∈ rest, later x.request := by
  cases h with
  | ask reply hrest =>
    obtain ⟨rfl, hnext⟩ := hp
    exact ⟨reply, _, rfl, (hrest.of_observes (hnext reply)).2⟩
  | done | read | write => exact hp.elim

/-- What requests say by `f`, where only the first one says something. -/
theorem Run.filterMap_of_opens {f : I.Request → Option β} {b : β} (hfirst : f r = some b)
    {p : Program σ I α} {s s' : σ} {exchanges : List (Exchange I)} {a : α}
    (h : Run p s exchanges s' a) (hp : p.Opens r fun r => f r = none) :
    exchanges.filterMap (fun x => f x.request) = [b] := by
  obtain ⟨reply, rest, rfl, hquiet⟩ := h.of_opens hp
  rw [List.filterMap_cons, hfirst]
  exact congrArg (b :: ·) (List.filterMap_eq_nil_iff.2 hquiet)

end Program

namespace Attempt

variable {σ τ : Type} {I J : Interface} {α β : Type} {allowed : I.Request → Prop}

/-- An attempt makes the request `r` first, and then only looks and makes requests of some kind. -/
def Opens (r : I.Request) (later : I.Request → Prop) (x : Attempt σ I α) : Prop :=
  Program.Opens r later x.outcome

theorem opens_bind {r : I.Request} {x : Attempt σ I α} {f : α → Attempt σ I β}
    (hx : Opens r allowed x) (hf : ∀ a, Observes allowed (f a)) : Opens r allowed (x >>= f) := by
  refine Program.opens_bind hx ?_
  rintro (fault | a)
  · exact trivial
  · exact hf a

/-! ## What a success yields -/

/-- If an attempt on a state succeeds, its result and the state that it leaves satisfy `post`. -/
def Yields (x : Attempt σ I α) (s : σ) (post : σ → α → Prop) : Prop :=
  ∀ ⦃exchanges s' a⦄, Run x s exchanges s' (.ok a) → post s' a

variable {x : Attempt σ I α} {f : α → Attempt σ I β} {s : σ} {post : σ → β → Prop}

theorem yields_true : Yields x s fun _ _ => True := fun _ _ _ _ => trivial

/-- One attempt after another `Yields` what the second one does. -/
theorem yields_bind {mid : σ → α → Prop} (hx : Yields x s mid)
    (hf : ∀ t a, mid t a → Yields (f a) t post) : Yields (x >>= f) s post := by
  intro exchanges s' b hrun
  rcases run_bind_iff.1 hrun with ⟨fault, -, hfault⟩ | ⟨t, a, first, second, h₁, h₂, rfl⟩
  · exact absurd hfault nofun
  · exact hf t a (hx h₁) h₂

/-- Going on after an attempt that only `Observes`. -/
theorem yields_bind_of_observes (hx : Observes allowed x) (hf : ∀ a, Yields (f a) s post) :
    Yields (x >>= f) s post := by
  have hsame : Yields x s fun t _ => t = s := fun _ _ _ h => (Program.Run.of_observes h hx).1
  refine yields_bind hsame ?_
  rintro t a rfl
  exact hf a

theorem yields_get_bind {f : σ → Attempt σ I β} (hf : Yields (f s) s post) :
    Yields (get >>= f) s post :=
  fun _ _ _ hrun => hf (run_get_bind_iff.1 hrun)

theorem yields_modify_bind {g : σ → σ} {f : PUnit → Attempt σ I β}
    (hf : Yields (f ⟨⟩) (g s) post) : Yields (modify g >>= f) s post :=
  fun _ _ _ hrun => hf (run_modify_bind_iff.1 hrun)

end Attempt

end Outpost

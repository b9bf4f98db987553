import Outpost.Proofs.Session.Use

/-!
# What a log makes of a session

A session with an event log does what it would do without one, and records entries besides. So its
programs, and those of the same session without its log, are alike step by step: they read, write
and ask the same, but for the log among the options and for the entries (`Alike`).

Programs that are alike are put together to programs that are alike. With a rule for every way of
putting them together, this is seen for everything that a session is used for (`matches_use`).

## Contents

* `Session.unlogged`, `Request.isEntry`.
* `Alike`, `Alike.bind`; `Agrees`, `Matches`, and the rules for attempts.
* `matches_start`, `matches_close`, `matches_connectSocket`, `matches_connect`.
* `matches_use`.
-/

namespace Outpost

/-- The same `Options` without a log. -/
def Options.unlogged (options : Options) : Options := { options with eventLog := none }

namespace Session

/-- The same `Session` without its log. -/
def unlogged (session : Session) : Session := { session with options := session.options.unlogged }

/-- Whether a `Request` is an entry in a log. -/
def Request.isEntry : Request → Bool
  | .record .. => true
  | _ => false

/-! ## Programs that are alike -/

/-- One program does what another one does, and records entries besides. Where the one has a state
`s`, the other has `view s`, and `R` relates the results of the two. -/
inductive Alike {σ τ α β : Type} (view : σ → τ) (R : α → β → Prop) :
    Program σ interface α → Program τ interface β → Prop
  | done {a : α} {b : β} : R a b → Alike view R (.done a) (.done b)
  | read {next : σ → Program σ interface α} {next' : τ → Program τ interface β} :
      (∀ s, Alike view R (next s) (next' (view s))) → Alike view R (.read next) (.read next')
  | write {s : σ} {next : Program σ interface α} {next' : Program τ interface β} :
      Alike view R next next' → Alike view R (.write s next) (.write (view s) next')
  | ask {r : Request} {next : interface.Reply r → Program σ interface α}
      {next' : interface.Reply r → Program τ interface β} : r.isEntry = false →
      (∀ reply, Alike view R (next reply) (next' reply)) →
      Alike view R (.ask r next) (.ask r next')
  | entry {log deployment : String} {machine : Option Json} {kind : Event.Kind}
      {details : Event.Details} {next : Unit → Program σ interface α}
      {plain : Program τ interface β} : Alike view R (next ()) plain →
      Alike view R (.ask (.record log deployment machine kind details) next) plain

section Alike

variable {σ τ α β γ δ : Type} {view : σ → τ} {R : α → β → Prop} {S : γ → δ → Prop}

/-- Programs that are `Alike`, one after another. -/
theorem Alike.bind {p : Program σ interface α} {q : Program τ interface β}
    {f : α → Program σ interface γ} {g : β → Program τ interface δ} (h : Alike view R p q)
    (hnext : ∀ a b, R a b → Alike view S (f a) (g b)) : Alike view S (p.bind f) (q.bind g) := by
  induction h with
  | done hresult => exact hnext _ _ hresult
  | read _ ih => exact .read ih
  | write _ ih => exact .write ih
  | ask hentry _ ih => exact .ask hentry ih
  | entry _ ih => exact .entry ih

end Alike

/-- Two attempts ended in the same way: with the same fault, or with results that `R` relates. -/
inductive Agrees {α β : Type} (R : α → β → Prop) : Except Fault α → Except Fault β → Prop
  | ok {a : α} {b : β} : R a b → Agrees R (.ok a) (.ok b)
  | error (fault : Fault) : Agrees R (.error fault) (.error fault)

/-- Attempts that are `Alike` as programs. -/
def Matches {σ τ α β : Type} (view : σ → τ) (R : α → β → Prop) (x : Attempt σ interface α)
    (y : Attempt τ interface β) : Prop :=
  Alike view (Agrees R) x.outcome y.outcome

section Rules

variable {σ τ α β γ δ : Type} {view : σ → τ} {R : α → β → Prop} {S : γ → δ → Prop}

theorem agrees_refl (ending : Except Fault α) : Agrees Eq ending ending := by
  cases ending with
  | ok a => exact .ok rfl
  | error fault => exact .error fault

theorem agrees_eq_iff {x y : Except Fault α} : Agrees Eq x y ↔ x = y := by
  constructor
  · rintro (rfl | _) <;> rfl
  · rintro rfl
    exact agrees_refl x

theorem matches_pure {a : α} {b : β} (h : R a b) :
    Matches view R (pure a : Attempt σ interface α) (pure b : Attempt τ interface β) :=
  .done (.ok h)

theorem matches_throw (fault : Fault) :
    Matches view R (throw fault : Attempt σ interface α) (throw fault : Attempt τ interface β) :=
  .done (.error fault)

theorem matches_ofExcept (known : Except Fault α) :
    Matches view Eq (Attempt.ofExcept known : Attempt σ interface α)
      (Attempt.ofExcept known : Attempt τ interface α) :=
  .done (agrees_refl known)

/-- Both ask for the same, which is no entry by `isEntry`, and end with what the reply comes to. -/
theorem matches_ask {r : Request} {ending : interface.Reply r → Except Fault α}
    (hentry : r.isEntry = false) :
    Alike view (Agrees Eq) (.ask r fun reply => .done (ending reply))
      (.ask r fun reply => .done (ending reply)) :=
  .ask hentry fun _ => .done (agrees_refl _)

/-- Attempts that `Matches` relates, one after another. -/
theorem matches_bind {x : Attempt σ interface α} {y : Attempt τ interface β}
    {f : α → Attempt σ interface γ} {g : β → Attempt τ interface δ} (h : Matches view R x y)
    (hnext : ∀ a b, R a b → Matches view S (f a) (g b)) : Matches view S (x >>= f) (y >>= g) := by
  refine Alike.bind h ?_
  rintro _ _ (hresult | fault)
  · exact hnext _ _ hresult
  · exact .done (.error fault)

/-- The same result for both goes on, by `Matches`. -/
theorem matches_bind_same {x : Attempt σ interface α} {y : Attempt τ interface α}
    {f : α → Attempt σ interface γ} {g : α → Attempt τ interface δ} (h : Matches view Eq x y)
    (hnext : ∀ a, Matches view S (f a) (g a)) : Matches view S (x >>= f) (y >>= g) :=
  matches_bind h fun a _ hsame => hsame ▸ hnext a

theorem matches_lift {p : Program σ interface α} {q : Program τ interface β}
    (h : Alike view R p q) : Matches view R (ExceptT.lift p) (ExceptT.lift q) :=
  Alike.bind h fun _ _ hresult => .done (.ok hresult)

/-- Both ask for the same, which is no entry by `isEntry`, and go on with the reply. -/
theorem matches_lift_ask {r : Request} {result : interface.Reply r → α}
    (hentry : r.isEntry = false) :
    Matches view Eq (ExceptT.lift (.ask r fun reply => .done (result reply)))
      (ExceptT.lift (.ask r fun reply => .done (result reply))) :=
  matches_lift (.ask hentry fun _ => .done rfl)

/-- Both go on with the `outcome` that they have had so far. -/
theorem matches_outcome_bind {x : Attempt σ interface α} {y : Attempt τ interface α}
    {f : Except Fault α → Attempt σ interface γ} {g : Except Fault α → Attempt τ interface δ}
    (h : Matches view Eq x y) (hnext : ∀ ending, Matches view S (f ending) (g ending)) :
    Matches view S (ExceptT.lift x.outcome >>= f) (ExceptT.lift y.outcome >>= g) :=
  matches_bind (matches_lift h) fun ending _ hsame => agrees_eq_iff.1 hsame ▸ hnext ending

theorem matches_ite {c : Prop} [Decidable c] {x x' : Attempt σ interface α}
    {y y' : Attempt τ interface β} (h : Matches view R x y) (h' : Matches view R x' y') :
    Matches view R (if c then x else x') (if c then y else y') := by
  split
  · exact h
  · exact h'

theorem matches_get_bind {f : σ → Attempt σ interface α} {g : τ → Attempt τ interface β}
    (h : ∀ s, Matches view R (f s) (g (view s))) : Matches view R (get >>= f) (get >>= g) :=
  .read h

theorem matches_set_bind {s : σ} {f : PUnit → Attempt σ interface α}
    {g : PUnit → Attempt τ interface β} (h : Matches view R (f ⟨⟩) (g ⟨⟩)) :
    Matches view R (set s >>= f) (set (view s) >>= g) :=
  .write h

theorem matches_modify {change : σ → σ} {change' : τ → τ}
    (h : ∀ s, view (change s) = change' (view s)) :
    Matches view Eq (modify change : Attempt σ interface PUnit) (modify change') := by
  refine .read fun s => ?_
  have hwrite : Alike view (Agrees Eq) (.write (change s) (.done (.ok PUnit.unit)))
      (.write (change' (view s)) (.done (.ok PUnit.unit))) := by
    rw [← h s]
    exact .write (.done (.ok rfl))
  exact hwrite

theorem matches_tryCatch {x : Attempt σ interface α} {y : Attempt τ interface α}
    {handle : Fault → Attempt σ interface α} {handle' : Fault → Attempt τ interface α}
    (h : Matches view Eq x y) (hhandle : ∀ fault, Matches view Eq (handle fault) (handle' fault)) :
    Matches view Eq (tryCatch x handle) (tryCatch y handle') := by
  refine Alike.bind h ?_
  rintro _ _ (hresult | fault)
  · exact .done (.ok hresult)
  · exact hhandle fault

theorem matches_thenAlways {x : Attempt σ interface α} {y : Attempt τ interface α}
    {last : Attempt σ interface Unit} {last' : Attempt τ interface Unit} (h : Matches view Eq x y)
    (hlast : Matches view Eq last last') :
    Matches view Eq (x.thenAlways last) (y.thenAlways last') :=
  matches_outcome_bind h fun ending => matches_bind_same hlast fun _ => matches_ofExcept ending

theorem matches_report (level : Console.Level) (text : String) :
    Matches view Eq (report level text : Attempt σ interface Unit)
      (report level text : Attempt τ interface Unit) :=
  matches_lift_ask rfl

/-- What `record` records with a log is not recorded without one. -/
theorem matches_record (session : Session) (kind : Event.Kind) (details : Event.Details) :
    Matches view Eq (record session kind details : Attempt σ interface Unit)
      (record session.unlogged kind details : Attempt τ interface Unit) := by
  rw [record]
  cases session.options.eventLog with
  | none => exact matches_pure rfl
  | some log => exact .entry (.done (.ok rfl))

end Rules

/-! ## Starting -/

section Start

theorem matches_requireMachine : Matches unlogged Eq requireMachine requireMachine := by
  refine matches_get_bind fun session => ?_
  dsimp only [unlogged]
  cases session.machine with
  | some machine => exact matches_pure rfl
  | none => exact matches_throw _

theorem matches_stage (machine : Machine) (options : Options) :
    Matches unlogged Eq (stage machine options) (stage machine options.unlogged) := by
  refine matches_tryCatch ?_ fun fault => matches_throw _
  refine matches_bind_same (matches_ask rfl) fun directory => ?_
  refine matches_bind_same (matches_modify fun _ => rfl) fun _ => ?_
  refine matches_bind_same (matches_ask rfl) fun _ => ?_
  refine matches_bind_same (matches_ofExcept (script options)) fun text => ?_
  refine matches_bind_same (matches_ask rfl) fun path => ?_
  refine matches_bind_same (matches_ask rfl) fun _ => ?_
  exact matches_pure rfl

theorem matches_reportInterpreter (text : String) :
    Matches unlogged Eq (reportInterpreter text) (reportInterpreter text) :=
  matches_lift_ask rfl

theorem matches_firstFound (machine : Option Json) (names : List String) :
    Matches unlogged Eq (firstFound machine names) (firstFound machine names) := by
  induction names with
  | nil => exact matches_pure rfl
  | cons name names ih =>
    refine matches_outcome_bind (matches_ask rfl) fun ending => ?_
    cases ending with
    | ok command => exact matches_bind_same (matches_reportInterpreter _) fun _ => matches_pure rfl
    | error fault =>
      cases fault with
      | commandNotFound => exact matches_bind_same (matches_reportInterpreter _) fun _ => ih
      | _ => exact matches_throw _

theorem matches_resolveInterpreter (surroundings : Surroundings) (machine : Option Json)
    (explicit : Option InterpreterChoice) :
    Matches unlogged Eq (resolveInterpreter surroundings machine explicit)
      (resolveInterpreter surroundings machine explicit) := by
  have hsearch {conclude : Option Machine.Command → Attempt Session interface Machine.Command}
      {fault : Fault} (hsome : ∀ command, conclude (some command) = pure command)
      (hnone : conclude none = throw fault) (names : List String) :
      Matches unlogged Eq (firstFound machine names >>= conclude)
        (firstFound machine names >>= conclude) := by
    refine matches_bind_same (matches_firstFound machine names) fun found => ?_
    cases found with
    | some command =>
      rw [hsome]
      exact matches_pure rfl
    | none =>
      rw [hnone]
      exact matches_throw _
  have hwhich (selector : String) :
      Matches unlogged Eq (Ask.which selector) (Ask.which selector) :=
    matches_ask rfl
  rw [resolveInterpreter.eq_def]
  cases explicit with
  | some choice =>
    cases choice with
    | command argv => exact matches_pure rfl
    | named selector => exact matches_ite (hsearch (fun _ => rfl) rfl _) (hwhich selector.shown)
  | none =>
    dsimp only
    cases surroundings.selector with
    | some selector => exact matches_ite (hsearch (fun _ => rfl) rfl _) (hwhich selector)
    | none => exact hsearch (fun _ => rfl) rfl _

theorem matches_readPort (session : Session) (running : Machine.Running) :
    Matches unlogged Eq (readPort session running) (readPort session.unlogged running) := by
  refine matches_bind_same (matches_lift_ask rfl) fun line => ?_
  rcases line with _ | fault | text
  · exact matches_bind_same (matches_report _ _) fun _ => matches_pure rfl
  · exact matches_bind_same (matches_report _ _) fun _ => matches_pure rfl
  · exact matches_pure rfl

theorem matches_drain (session : Session) (running : Machine.Running) :
    Matches unlogged Eq (drain session running) (drain session.unlogged running) := by
  refine matches_outcome_bind (matches_ask rfl) fun ending => ?_
  cases ending with
  | ok output => exact matches_pure rfl
  | error fault =>
    refine matches_ite ?_ (matches_throw fault)
    refine matches_bind_same (matches_ask rfl) fun _ => ?_
    exact matches_ask rfl

/-- What is left of a `handshake` whose process was asked to stop. -/
def abandon (session : Session) (running : Machine.Running) : Attempt Session interface Nat := do
  let rest ← drain session running
  let exitCode ← Ask.exitCode running
  let consumed ← Ask.consumedOutput running
  throw (.processFailed running.argv exitCode (consumed ++ rest.stdout) rest.stderr)

theorem matches_abandon (session : Session) (running : Machine.Running) :
    Matches unlogged Eq (abandon session running) (abandon session.unlogged running) := by
  refine matches_bind_same (matches_drain session running) fun rest => ?_
  refine matches_bind_same (matches_lift_ask rfl) fun exitCode => ?_
  refine matches_bind_same (matches_lift_ask rfl) fun consumed => ?_
  exact matches_throw _

theorem matches_handshake (session : Session) (running : Machine.Running) :
    Matches unlogged Eq (handshake session running) (handshake session.unlogged running) := by
  refine matches_bind_same (matches_readPort session running) fun found => ?_
  cases found with
  | some port => exact matches_pure rfl
  | none =>
    refine matches_outcome_bind (matches_ask rfl) fun ending => ?_
    cases ending with
    | ok _ => exact matches_abandon session running
    | error fault =>
      exact matches_bind_same (matches_report _ _) fun _ => matches_abandon session running

theorem matches_launch (interpreter : Machine.Command) (path : String) :
    Matches unlogged Eq (launch interpreter path) (launch interpreter path) :=
  matches_tryCatch (matches_ask rfl) fun _ => matches_throw _

theorem matches_acquire (surroundings : Surroundings) :
    Matches unlogged Eq (acquire surroundings) (acquire surroundings) := by
  refine matches_bind_same matches_requireMachine fun machine => ?_
  refine matches_get_bind fun session => ?_
  refine matches_bind_same (matches_stage machine session.options) fun path => ?_
  refine matches_bind_same (matches_record session .staged {}) fun _ => ?_
  refine matches_bind_same (matches_resolveInterpreter ..) fun interpreter => ?_
  refine matches_bind_same (matches_launch interpreter path) fun running => ?_
  refine matches_bind_same (matches_modify fun _ => rfl) fun _ => ?_
  refine matches_bind_same (matches_record session .spawned {}) fun _ => ?_
  refine matches_bind_same (matches_handshake session running) fun remotePort => ?_
  refine matches_bind_same (matches_modify fun _ => rfl) fun _ => ?_
  refine matches_bind_same (matches_record session .handshake _) fun _ => ?_
  refine matches_bind_same (matches_ask rfl) fun _ => ?_
  cases machine.connectivity with
  | direct => exact matches_modify fun _ => rfl
  | tunnel name =>
    refine matches_bind_same (matches_ask rfl) fun localPort => ?_
    refine matches_bind_same (matches_modify fun _ => rfl) fun _ => ?_
    refine matches_bind_same (matches_ask rfl) fun forward => ?_
    refine matches_bind_same (matches_modify fun _ => rfl) fun _ => ?_
    exact matches_record session .tunnelOpened _

theorem matches_fail (fault : Fault) : Matches unlogged Eq (fail fault) (fail fault) := by
  refine matches_bind_same (matches_modify fun _ => rfl) fun _ => ?_
  refine matches_get_bind fun session => ?_
  refine matches_bind_same (matches_record session .startFailed _) fun _ => ?_
  exact matches_throw fault

theorem matches_start (surroundings : Surroundings) :
    Matches unlogged Eq (start surroundings) (start surroundings) := by
  refine matches_get_bind fun session => ?_
  refine matches_ite (.done (.error _)) ?_
  refine matches_set_bind ?_
  refine matches_bind_same (matches_tryCatch (matches_acquire surroundings) matches_fail)
    fun _ => ?_
  refine matches_bind_same (matches_modify fun _ => rfl) fun _ => ?_
  refine matches_get_bind fun session => ?_
  refine matches_bind_same (matches_record session .ready _) fun _ => ?_
  exact matches_report _ _

end Start

/-! ## Closing -/

section Close

theorem matches_forceKill (step : Step) (target : Option Machine.Stoppable) :
    Matches unlogged Eq (forceKill step target) (forceKill step target) := by
  cases target with
  | none => exact matches_pure rfl
  | some target =>
    refine matches_outcome_bind (matches_ask rfl) fun ending => ?_
    cases ending with
    | ok _ => exact matches_pure rfl
    | error fault => exact matches_report _ _

theorem matches_releaseStep (step : Step) (target : Option Machine.Stoppable)
    {work : Attempt Session interface Unit} (h : Matches unlogged Eq work work) :
    Matches unlogged Eq (releaseStep step target work) (releaseStep step target work) := by
  refine matches_outcome_bind h fun ending => ?_
  cases ending with
  | ok _ => exact matches_pure rfl
  | error fault =>
    cases fault with
    | timedOut what timeout =>
      refine matches_get_bind fun session => ?_
      refine matches_bind_same (matches_report _ _) fun _ => ?_
      refine matches_bind_same (matches_forceKill step target) fun _ => ?_
      refine matches_bind_same (matches_record session .teardownTimeout _) fun _ => ?_
      exact matches_throw _
    | _ => exact matches_get_bind fun session => matches_report _ _

theorem matches_stop (target : Machine.Stoppable) (timeout : Option Timeout) :
    Matches unlogged Eq (stop target timeout) (stop target timeout) := by
  refine matches_bind_same (matches_ask rfl) fun _ => ?_
  refine matches_bind_same (matches_ask rfl) fun _ => ?_
  exact matches_pure rfl

theorem matches_releaseProcess (timeout : Option Timeout) :
    Matches unlogged Eq (releaseProcess timeout) (releaseProcess timeout) := by
  refine matches_get_bind fun session => ?_
  dsimp only [unlogged]
  cases session.process with
  | none => exact matches_pure rfl
  | some running =>
    exact matches_thenAlways (matches_releaseStep _ _ (matches_stop _ timeout))
      (matches_modify fun _ => rfl)

theorem matches_releaseTunnel (timeout : Option Timeout) :
    Matches unlogged Eq (releaseTunnel timeout) (releaseTunnel timeout) := by
  refine matches_get_bind fun session => ?_
  dsimp only [unlogged]
  cases session.tunnel with
  | none => exact matches_pure rfl
  | some forward =>
    refine matches_thenAlways ?_ (matches_modify fun _ => rfl)
    refine matches_bind_same (matches_releaseStep _ _ (matches_stop _ timeout)) fun _ => ?_
    exact matches_releaseStep _ _ (matches_ask rfl)

theorem matches_releaseMachine (timeout : Option Timeout) :
    Matches unlogged Eq (releaseMachine timeout) (releaseMachine timeout) := by
  refine matches_get_bind fun session => ?_
  dsimp only [unlogged]
  cases session.machine with
  | none => exact matches_pure rfl
  | some machine =>
    refine matches_thenAlways ?_ (matches_modify fun _ => rfl)
    refine matches_bind_same (matches_releaseStep _ _ (matches_stop _ timeout)) fun _ => ?_
    exact matches_releaseStep _ _ (matches_ask rfl)

theorem matches_releaseDirectory : Matches unlogged Eq releaseDirectory releaseDirectory := by
  refine matches_get_bind fun session => ?_
  dsimp only [unlogged]
  cases session.tempDirectory with
  | none => exact matches_pure rfl
  | some directory =>
    exact matches_thenAlways (matches_releaseStep _ _ (matches_ask rfl))
      (matches_modify fun _ => rfl)

theorem matches_finish : Matches unlogged Eq finish finish := by
  refine matches_get_bind fun session => ?_
  refine matches_ite (matches_pure rfl) ?_
  refine matches_set_bind ?_
  refine matches_bind_same (matches_record session .closed {}) fun _ => ?_
  exact matches_report _ _

theorem matches_close (timeout : Option Timeout) :
    Matches unlogged Eq (close timeout) (close timeout) := by
  refine matches_bind_same (matches_releaseProcess timeout) fun _ => ?_
  refine matches_bind_same (matches_releaseTunnel timeout) fun _ => ?_
  refine matches_bind_same (matches_releaseMachine timeout) fun _ => ?_
  refine matches_bind_same matches_releaseDirectory fun _ => ?_
  exact matches_finish

end Close

/-! ## Connecting -/

section Connect

theorem matches_connectSocket : Matches unlogged Eq connectSocket connectSocket := by
  refine matches_get_bind fun session => ?_
  dsimp only [unlogged]
  split
  · split
    · exact matches_ask rfl
    · split
      · exact matches_ask rfl
      · exact matches_throw _
  · exact matches_throw _

/-- What a connection that is set up does to a state of its `own` is the same beside every
session. -/
theorem alike_own_embed {α : Type} (p : Program Connection Connection.setup α)
    (connection : Connection) :
    Alike unlogged Eq ((p.own connection).embed connectionEmbedding)
      ((p.own connection).embed connectionEmbedding) := by
  induction p generalizing connection with
  | done a => exact .done rfl
  | read next ih => exact ih connection connection
  | write changed next ih => exact ih changed
  | ask r next ih => exact .ask rfl fun reply => ih reply connection

/-- A connection is put together by `establish` on a state of its own. -/
theorem matches_establish (stream : Machine.Socket) (settings : Connection.Settings) :
    Matches unlogged Eq ((Connection.establish stream settings).embed connectionEmbedding)
      ((Connection.establish stream settings).embed connectionEmbedding) := by
  rw [Connection.establish, Attempt.embed_bind]
  refine matches_bind_same ?_ fun _ => ?_
  · cases (Connection.fresh stream settings).service with
    | custom name => exact matches_ask rfl
    | silent | classic => exact matches_pure rfl
  · rw [Attempt.embed_bind, Attempt.embed_lift]
    refine matches_bind_same (matches_lift (alike_own_embed _ _)) fun presented => ?_
    obtain ⟨fault | _, connection⟩ := presented
    · exact matches_throw fault
    · exact matches_pure rfl

theorem matches_connect (settings : Connection.Settings) :
    Matches unlogged Eq (connect settings) (connect settings) :=
  matches_bind_same matches_connectSocket fun stream => matches_establish stream settings

end Connect

/-- Whatever `Use` is made of a session, its log makes no difference to what it does. -/
theorem matches_use (use : Use) : Matches unlogged Eq use.attempt use.attempt := by
  cases use with
  | start surroundings => exact matches_start surroundings
  | close timeout => exact matches_close timeout
  | connectSocket => exact matches_connectSocket
  | connect settings => exact matches_connect settings

end Session

end Outpost

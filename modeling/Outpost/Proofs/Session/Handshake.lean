import Outpost.Proofs.Company
import Outpost.Proofs.Process.Conduct
import Outpost.Proofs.Session.Use

/-!
# What becomes of a handshake

A start waits for the first line of the process that it launched. Here the process does whatever it
likes, at any time: it is a `Conduct`, and everything else that the start asks for is replied to in
any way at all (`reply?`).

The line that a reader missed in time is not lost. The reader goes on waiting, and may still take
lines while the process is being stopped; they count as read by then, and the report of the start
puts them before what nobody read (`fares_drain`). So whatever the process did and whenever, the
report is complete (`handshake_settles`).

## Contents

* `Scene`, `respond`, `reply?`: a process among the surroundings of a session.
* `signals`: what is sent to processes. `fares_aside`: parts of a start that send nothing.
* `Launched`, `fares_readPort`, `fares_communicate`, `fares_drain`.
* `Settled`, `fares_handshake`: the two ways that a handshake ends.
* `Answered`, `fares_acquire`, `fares_start`: the rest of a start makes no difference to that.
* `handshake_settles`.
-/

namespace Outpost

namespace Session

/-! ## A process among the surroundings -/

/-- What was exchanged so far, and how far the process has come as a `Performance`. -/
structure Scene where
  past : List Exchange := []
  performance : Performance

/-- What is replied to a request: by the process, as its conduct has it, and `elsewhere` to requests
that are not about it. -/
def respond (conduct : Conduct) (elsewhere : (r : Request) → interface.Reply r)
    (performance : Performance) : (r : Request) → Option (interface.Reply r × Performance)
  | .control (.readLine _ limit) => performance.readLine limit
  | .control (.communicate (.process running) limit) =>
    performance.communicate (Buffer.overdue conduct.pid running.argv) limit
  | .control (.terminate (.process _)) =>
    some (conduct.refusal.elim (.ok ()) .error,
      performance.asked conduct.atTerminate conduct.afterTerminate)
  | .control (.kill (.process _)) =>
    some (.ok (), performance.asked conduct.atKill conduct.afterKill)
  | .control (.discardOutput _) =>
    some (.ok (), { performance with buffer := performance.buffer.apply .discard })
  | .control (.exitCode _) => some (performance.buffer.exitCode, performance)
  | .control (.consumedOutput _) => some (performance.buffer.consumed, performance)
  | r => some (elsewhere r, performance)

/-- The same as `respond`, where what is replied elsewhere may depend on everything that was
exchanged before. -/
def reply? (conduct : Conduct) (elsewhere : List Exchange → (r : Request) → interface.Reply r)
    (scene : Scene) (r : Request) : Option (interface.Reply r × Scene) :=
  (respond conduct (elsewhere scene.past) scene.performance r).map fun replied =>
    (replied.1, ⟨scene.past ++ [⟨r, replied.1⟩], replied.2⟩)

/-- The `Signal` that an exchange sends to a process. -/
def Exchange.signal? : Exchange → Option (Signal × Machine.Running)
  | ⟨.control (.terminate (.process running)), _⟩ => some (.terminate, running)
  | ⟨.control (.kill (.process running)), _⟩ => some (.kill, running)
  | _ => none

/-- The signals that `exchanges` send to processes, in their order. -/
def signals (exchanges : List Exchange) : List (Signal × Machine.Running) :=
  exchanges.filterMap Exchange.signal?

/-- A `Request` that has nothing to do with what runs on the machine. -/
def Request.Aside : Request → Prop
  | .control _ => False
  | _ => True

section Replies

variable {conduct : Conduct} {elsewhere : List Exchange → (r : Request) → interface.Reply r}
  {scene : Scene} {session : Session} {α : Type} {stuck : Prop}

theorem signals_append (first second : List Exchange) :
    signals (first ++ second) = signals first ++ signals second := List.filterMap_append

/-- An exchange that sends no `signal?`. -/
theorem signals_append_quiet {past : List Exchange} {x : Exchange} (hx : x.signal? = none) :
    signals (past ++ [x]) = signals past := by
  have hquiet : signals [x] = [] := List.filterMap_cons_none hx
  rw [signals_append, hquiet, List.append_nil]

/-- A request that is `Aside` is replied to, and is no signal. -/
theorem reply?_of_aside {r : Request} (h : r.Aside) :
    ∃ reply later, reply? conduct elsewhere scene r = some (reply, later) ∧
      later.performance = scene.performance ∧ signals later.past = signals scene.past := by
  refine ⟨elsewhere scene.past r,
    ⟨scene.past ++ [⟨r, elsewhere scene.past r⟩], scene.performance⟩, ?_, rfl, ?_⟩
  · cases r with
    | control request => exact h.elim
    | _ => rfl
  · refine signals_append_quiet ?_
    cases r with
    | control request => exact h.elim
    | _ => rfl

theorem reply?_of_respond {r : Request} {reply : interface.Reply r} {later : Performance}
    (h : respond conduct (elsewhere scene.past) scene.performance r = some (reply, later)) :
    reply? conduct elsewhere scene r = some (reply, ⟨scene.past ++ [⟨r, reply⟩], later⟩) := by
  rw [reply?, h]
  rfl

theorem reply?_of_respond_none {r : Request}
    (h : respond conduct (elsewhere scene.past) scene.performance r = none) :
    reply? conduct elsewhere scene r = none := by
  rw [reply?, h]
  rfl

/-- A part that the process has no part in, `Aside` in all that it asks for, ends with any
conduct. -/
theorem fares_aside {x : Attempt Session interface α} (hx : x.outcome.Asks Request.Aside) :
    Attempt.Fares (reply? conduct elsewhere) scene x session
      (fun later last result => later.performance = scene.performance ∧
        signals later.past = signals scene.past ∧
        ∃ exchanges, Attempt.Run x session exchanges last result) stuck := by
  have hreply (c : Scene) (r : Request) (hc : c.performance = scene.performance ∧
      signals c.past = signals scene.past) (hr : r.Aside) :
      ∃ reply later, reply? conduct elsewhere c r = some (reply, later) ∧
        later.performance = scene.performance ∧ signals later.past = signals scene.past := by
    obtain ⟨reply, later, hlater, hperformance, hsignals⟩ := reply?_of_aside hr
    exact ⟨reply, later, hlater, hperformance.trans hc.1, hsignals.trans hc.2⟩
  refine Program.Fares.mono (Program.fares_of_asks hreply hx ⟨rfl, rfl⟩) ?_
  exact fun later last result h => ⟨h.1.1, h.1.2, h.2⟩

/-- A part that is `Aside` and only `Observes`. -/
theorem fares_observes {x : Attempt Session interface α} (hx : x.Observes Request.Aside) :
    Attempt.Fares (reply? conduct elsewhere) scene x session
      (fun later last _ => later.performance = scene.performance ∧
        signals later.past = signals scene.past ∧ last = session) stuck := by
  refine Program.Fares.mono (fares_aside (Program.Observes.asks hx)) fun later last result h => ?_
  obtain ⟨hperformance, hsignals, exchanges, hrun⟩ := h
  exact ⟨hperformance, hsignals, (Program.Run.of_observes hrun hx).1⟩

/-- Going on after a part that only `Observes`, whatever it finds. -/
theorem fares_observes_bind {β : Type} {x : Attempt Session interface α}
    {f : α → Attempt Session interface β} {post : Scene → Session → Except Fault β → Prop}
    (hx : x.Observes Request.Aside)
    (h : ∀ later : Scene, later.performance = scene.performance →
      signals later.past = signals scene.past →
      (∀ a, Attempt.Fares (reply? conduct elsewhere) later (f a) session post stuck) ∧
        ∀ fault, post later session (.error fault)) :
    Attempt.Fares (reply? conduct elsewhere) scene (x >>= f) session post stuck := by
  refine Attempt.fares_bind (Program.Fares.mono (fares_observes hx) ?_)
  rintro later last (fault | a) ⟨hperformance, hsignals, rfl⟩
  · exact (h later hperformance hsignals).2 fault
  · exact (h later hperformance hsignals).1 a

/-- Going on after a `report` on the console. -/
theorem fares_report_bind {level : Console.Level} {text : String}
    {f : Unit → Attempt Session interface α} {post : Scene → Session → Except Fault α → Prop}
    (h : ∀ later : Scene, later.performance = scene.performance →
      signals later.past = signals scene.past →
      Attempt.Fares (reply? conduct elsewhere) later (f ()) session post stuck) :
    Attempt.Fares (reply? conduct elsewhere) scene (report level text >>= f) session post
      stuck := by
  have haside : Request.Aside (.report ⟨level, "DeploymentSession", text⟩) := trivial
  obtain ⟨reply, later, hreply, hperformance, hsignals⟩ := reply?_of_aside haside
  exact Attempt.fares_lift_ask_bind hreply (h later hperformance hsignals)

/-- Going on after a `record` in the event log. -/
theorem fares_record_bind {signer : Session} {kind : Event.Kind} {details : Event.Details}
    {f : Unit → Attempt Session interface α} {post : Scene → Session → Except Fault α → Prop}
    (h : ∀ later : Scene, later.performance = scene.performance →
      signals later.past = signals scene.past →
      Attempt.Fares (reply? conduct elsewhere) later (f ()) session post stuck) :
    Attempt.Fares (reply? conduct elsewhere) scene (record signer kind details >>= f) session post
      stuck := by
  rw [record]
  split
  · exact h scene rfl rfl
  · have haside (log : String) :
        Request.Aside (.record log signer.id signer.machineName kind details) := trivial
    obtain ⟨reply, later, hreply, hperformance, hsignals⟩ := reply?_of_aside (haside _)
    exact Attempt.fares_lift_ask_bind hreply (h later hperformance hsignals)

end Replies

/-! ## The first line -/

/-- A process that was just launched, with a `conduct`. -/
structure Launched (conduct : Conduct) (performance : Performance) : Prop where
  done : performance.done = []
  ahead : performance.ahead = conduct.unasked
  buffer : performance.buffer = {}

section Handshake

variable {conduct : Conduct} {elsewhere : List Exchange → (r : Request) → interface.Reply r}
  {scene : Scene} {known session : Session} {running : Machine.Running} {stuck : Prop}

/-- Reading the port by `readPort` finds what the first line reports, if there is one in time. -/
theorem fares_readPort (h : Launched conduct scene.performance)
    (hstuck : conduct.heard known.options.handshakeTimeout.isSome = none → stuck) :
    Attempt.Fares (reply? conduct elsewhere) scene (readPort known running) session
      (fun later last result => last = session ∧ later.performance.Idle ∧
        conduct.heard known.options.handshakeTimeout.isSome = some later.performance.done ∧
        signals later.past = signals scene.past ∧
        result = .ok (Sign.port? later.performance.done)) stuck := by
  have hidle : scene.performance.Idle := by
    rw [Performance.Idle, h.done, h.buffer]
    exact ⟨kept_new, rfl, nofun⟩
  have hspec := Performance.readLine_spec hidle (by rw [h.buffer]) (by rw [h.buffer])
    (known.options.handshakeTimeout.map Timeout.ofNumber)
  rw [Option.isSome_map, h.done, h.ahead] at hspec
  rw [Conduct.heard] at hstuck ⊢
  cases hwait : Beat.wait Sign.hasLineOrEnd known.options.handshakeTimeout.isSome []
      conduct.unasked with
  | none =>
    rw [hwait] at hspec hstuck
    exact Attempt.fares_bind (Program.fares_bind
      (Program.fares_ask_of_none (reply?_of_respond_none hspec) (hstuck rfl)))
  | some left =>
    obtain ⟨done, ahead⟩ := left
    rw [hwait] at hspec
    obtain ⟨later, hlater, rfl, -, hread⟩ := hspec
    cases hover : Sign.hasLineOrEnd later.done with
    | true =>
      rw [hover, if_pos rfl] at hread
      refine Attempt.fares_lift_ask_bind (reply?_of_respond hread) ?_
      exact Attempt.fares_pure ⟨rfl, hlater, rfl, signals_append_quiet rfl, rfl⟩
    | false =>
      -- the limit ran out, and no line was completed by then
      have hnone : Sign.port? later.done = none := Sign.port?_of_not_over hover
      rw [hover, if_neg Bool.false_ne_true] at hread
      refine Attempt.fares_lift_ask_bind (reply?_of_respond hread) ?_
      refine fares_report_bind fun mid hmid hsignals => ?_
      refine Attempt.fares_pure ⟨rfl, ?_, ?_, ?_, ?_⟩
      · rw [hmid]
        exact hlater
      · rw [hmid]
        rfl
      · exact hsignals.trans (signals_append_quiet rfl)
      · rw [hmid, hnone]

/-! ## Stopping the process -/

/-- Waiting by `communicate` for the end of a process finds all that it did, or fails with a
timeout. -/
theorem fares_communicate (h : scene.performance.Idle) (limit : Option Timeout)
    (hstuck : Beat.wait Sign.hasClosed limit.isSome scene.performance.done
      scene.performance.ahead = none → stuck) :
    Attempt.Fares (reply? conduct elsewhere) scene (Ask.communicate (.process running) limit)
      session (fun later last result => last = session ∧ signals later.past = signals scene.past ∧
        Beat.wait Sign.hasClosed limit.isSome scene.performance.done scene.performance.ahead
          = some (later.performance.done, later.performance.ahead) ∧
        if Sign.hasClosed later.performance.done then
          ∃ found, result = .ok found ∧
            Performance.Collected later.performance.done later.performance.buffer found
        else (∃ fault, result = .error fault ∧ fault.isTimeout = true) ∧
          later.performance.Idle) stuck := by
  have hspec := Performance.communicate_spec h (Buffer.overdue conduct.pid running.argv) limit
  cases hwait : Beat.wait Sign.hasClosed limit.isSome scene.performance.done
      scene.performance.ahead with
  | none =>
    rw [hwait] at hspec
    exact Program.fares_ask_of_none (reply?_of_respond_none hspec) (hstuck hwait)
  | some left =>
    obtain ⟨done, ahead⟩ := left
    rw [hwait] at hspec
    obtain ⟨later, rfl, rfl, hcommunicate⟩ := hspec
    cases hover : Sign.hasClosed later.done with
    | true =>
      rw [hover, if_pos rfl] at hcommunicate
      obtain ⟨found, hreply, hcollected⟩ := hcommunicate
      refine Program.fares_ask (reply?_of_respond hreply)
        ⟨rfl, signals_append_quiet rfl, rfl, ?_⟩
      rw [if_pos hover]
      exact ⟨found, rfl, hcollected⟩
    | false =>
      rw [hover, if_neg Bool.false_ne_true] at hcommunicate
      obtain ⟨hreply, hidle⟩ := hcommunicate
      refine Program.fares_ask (reply?_of_respond hreply)
        ⟨rfl, signals_append_quiet rfl, rfl, ?_⟩
      rw [if_neg (ne_true_of_eq_false hover)]
      exact ⟨⟨_, rfl, rfl⟩, hidle⟩

/-- A process that was asked to stop is seen by `drain` to its end, by force if need be, and
everything that it wrote and nobody read is collected. -/
theorem fares_drain (h : scene.performance.Idle)
    (hstuck : conduct.drained known.options.handshakeTimeout.isSome scene.performance.done
      scene.performance.ahead = none → stuck) :
    Attempt.Fares (reply? conduct elsewhere) scene (drain known running) session
      (fun later last result => last = session ∧ ∃ forced found,
        conduct.drained known.options.handshakeTimeout.isSome scene.performance.done
          scene.performance.ahead = some (later.performance.done, forced) ∧
        result = .ok found ∧
        Performance.Collected later.performance.done later.performance.buffer found ∧
        signals later.past = signals scene.past ++ if forced then [(.kill, running)] else [])
      stuck := by
  rw [Conduct.drained] at hstuck
  rw [drain, Conduct.drained]
  have hlimited : (known.options.handshakeTimeout.map Timeout.ofNumber).isSome
      = known.options.handshakeTimeout.isSome := Option.isSome_map
  refine Attempt.fares_outcome_bind (Program.Fares.mono (fares_communicate h _ fun hnone => ?_) ?_)
  · rw [hlimited] at hnone
    rw [hnone] at hstuck
    exact hstuck rfl
  rintro later last result ⟨rfl, hsignals, hwait, hcommunicate⟩
  rw [hlimited] at hwait
  rw [hwait] at hstuck ⊢
  dsimp only at hstuck ⊢
  cases hover : Sign.hasClosed later.performance.done with
  | true =>
    rw [hover, if_pos rfl] at hcommunicate
    obtain ⟨found, rfl, hcollected⟩ := hcommunicate
    rw [if_pos rfl]
    refine ⟨rfl, false, found, rfl, rfl, hcollected, ?_⟩
    rw [hsignals]
    exact (List.append_nil _).symm
  | false =>
    rw [hover, if_neg Bool.false_ne_true] at hcommunicate hstuck
    obtain ⟨⟨fault, rfl, htimeout⟩, hidle⟩ := hcommunicate
    rw [if_neg Bool.false_ne_true]
    -- only a wait that has a limit leaves a process behind that is not closed
    have hlimit : known.options.handshakeTimeout.isSome = true := by
      cases hnone : known.options.handshakeTimeout.isSome with
      | true => rfl
      | false =>
        rw [hnone] at hwait
        exact absurd (Beat.over_of_wait hwait) (ne_true_of_eq_false hover)
    have hforces : ((known.options.handshakeTimeout.map Timeout.ofNumber).isSome
        && fault.isTimeout) = true := by
      rw [hlimited, hlimit, htimeout]
      rfl
    dsimp only
    rw [if_pos hforces]
    obtain ⟨hasked, hdone, hahead⟩ := hidle.asked conduct.atKill conduct.afterKill
    refine Attempt.fares_bind (Program.fares_ask (reply?_of_respond rfl) ?_)
    change Attempt.Fares (reply? conduct elsewhere) ⟨_, later.performance.asked _ _⟩
      (Ask.communicate (.process running) none) last _ stuck
    refine Program.Fares.mono (fares_communicate hasked none fun hnone => ?_) ?_
    · rw [Option.isSome_none, hdone, hahead] at hnone
      rw [hnone] at hstuck
      exact hstuck rfl
    rintro last _ ending ⟨rfl, hsignals', hwait', hcommunicate'⟩
    rw [Option.isSome_none, hdone, hahead] at hwait'
    rw [Beat.over_of_wait hwait', if_pos rfl] at hcommunicate'
    obtain ⟨found, rfl, hcollected⟩ := hcommunicate'
    rw [hwait']
    refine ⟨rfl, true, found, rfl, rfl, hcollected, ?_⟩
    rw [hsignals', signals_append, hsignals]
    rfl

/-- What becomes of a `handshake`: the port and no signal, or a process that was asked to stop and
seen to its end, and a report of everything that it did. -/
inductive Settled {α : Type} (conduct : Conduct) (limited : Bool) (running : Machine.Running)
    (result : Except Fault α) : Option Nat → List (Signal × Machine.Running) → Prop
  | port {heard : List Sign} {port : Nat} :
      conduct.heard limited = some heard → Sign.port? heard = some port →
      Settled conduct limited running result (some port) []
  | stopped {heard done : List Sign} {forced : Bool} :
      conduct.heard limited = some heard → Sign.port? heard = none →
      conduct.stopped limited heard = some (done, forced) → Sign.hasClosed done = true →
      result = .error (.processFailed running.argv (Sign.exitCode done) (Sign.stdout done)
        (Sign.stderr done)) →
      Settled conduct limited running result none
        ((.terminate, running) :: if forced then [(.kill, running)] else [])

section Settled

variable {α β : Type} {limited : Bool} {fault : Fault} {sent : List (Signal × Machine.Running)}

/-- What is `Settled` as a report is passed on as it is. -/
theorem Settled.error
    (h : Settled conduct limited running (.error fault : Except Fault α) none sent) :
    Settled conduct limited running (.error fault : Except Fault β) none sent := by
  cases h with
  | stopped hheard hport hstopped hclosed hfault =>
    exact .stopped hheard hport hstopped hclosed (congrArg Except.error (Except.error.inj hfault))

/-- Once the handshake is `Settled` with a port, nothing that comes later makes a difference to
it. -/
theorem Settled.of_ok {a : α} {port : Option Nat}
    (h : Settled conduct limited running (.ok a) port sent) (result : Except Fault β) :
    Settled conduct limited running result port sent := by
  cases h with
  | port hheard hport => exact .port hheard hport
  | stopped _ _ _ _ hfault => exact absurd hfault nofun

end Settled

/-- Going on after a process was asked to stop by `terminate`, whether asking failed or not. -/
theorem fares_terminate_bind {α : Type} {f : Attempt Session interface α}
    {post : Scene → Session → Except Fault α → Prop} (h : scene.performance.Idle)
    (hrest : ∀ later : Scene, later.performance.Idle →
      later.performance.done = Sign.andAll scene.performance.done conduct.atTerminate →
      later.performance.ahead = conduct.afterTerminate →
      signals later.past = signals scene.past ++ [(.terminate, running)] →
      Attempt.Fares (reply? conduct elsewhere) later f session post stuck) :
    Attempt.Fares (reply? conduct elsewhere) scene (do
      match ← ExceptT.lift (Ask.terminate (.process running)).outcome with
      | .ok () => pure ()
      | .error fault => report .debug ("Terminate after failed handshake: " ++ fault.message)
      f) session post stuck := by
  obtain ⟨hidle, hdone, hahead⟩ := h.asked conduct.atTerminate conduct.afterTerminate
  refine Attempt.fares_outcome_bind (Program.fares_ask (reply?_of_respond rfl) ?_)
  cases conduct.refusal with
  | none =>
    refine hrest _ hidle hdone hahead ?_
    rw [signals_append]
    rfl
  | some fault =>
    refine fares_report_bind fun later hperformance hsignals => ?_
    refine hrest later ?_ ?_ ?_ ?_
    · rw [hperformance]
      exact hidle
    · rw [hperformance]
      exact hdone
    · rw [hperformance]
      exact hahead
    · rw [hsignals, signals_append]
      rfl

/-- A `handshake` settles as the conduct of the process says. -/
theorem fares_handshake (h : Launched conduct scene.performance)
    (hquiet : signals scene.past = [])
    (hheard : conduct.heard known.options.handshakeTimeout.isSome = none → stuck)
    (hstopped : ∀ heard,
      conduct.stopped known.options.handshakeTimeout.isSome heard = none → stuck) :
    Attempt.Fares (reply? conduct elsewhere) scene (handshake known running) session
      (fun later last result => last = session ∧
        Settled conduct known.options.handshakeTimeout.isSome running result result.toOption
          (signals later.past)) stuck := by
  refine Attempt.fares_bind (Program.Fares.mono (fares_readPort h hheard) ?_)
  rintro later last _ ⟨rfl, hidle, hfirst, hsignals, rfl⟩
  dsimp only
  cases hport : Sign.port? later.performance.done with
  | some port =>
    refine Attempt.fares_pure ⟨rfl, ?_⟩
    rw [hsignals, hquiet]
    exact .port hfirst hport
  | none =>
    refine fares_terminate_bind hidle fun asked hasked hdone hahead hsignals' => ?_
    have hseen : conduct.drained known.options.handshakeTimeout.isSome asked.performance.done
        asked.performance.ahead
          = conduct.stopped known.options.handshakeTimeout.isSome later.performance.done := by
      rw [hdone, hahead, Conduct.stopped]
    refine Attempt.fares_bind (Program.Fares.mono
      (fares_drain hasked fun hnone => hstopped _ (hseen.symm.trans hnone)) ?_)
    rintro drained last _ ⟨rfl, forced, found, hended, rfl, hcollected, hkills⟩
    -- the exit code and the lines that were read are looked at last
    refine Attempt.fares_lift_ask_bind (reply?_of_respond rfl) ?_
    refine Attempt.fares_lift_ask_bind (reply?_of_respond rfl) ?_
    refine Attempt.fares_throw ⟨rfl, ?_⟩
    rw [signals_append_quiet, signals_append_quiet, hkills, hsignals', hsignals, hquiet]
    · have hlast : Sign.hasClosed drained.performance.done = true :=
        Conduct.hasClosed_of_drained hended
      dsimp only
      rw [hcollected.exitCode, hcollected.stdout, hcollected.stderr]
      exact .stopped hfirst hport (hseen.symm.trans hended) hlast rfl
    · rfl
    · rfl

end Handshake

/-! ## The whole start -/

section Start

variable {conduct : Conduct} {elsewhere : List Exchange → (r : Request) → interface.Reply r}
  {scene : Scene} {session : Session} {stuck : Prop}

/-- What a `start` has come to, as far as the process is concerned that it launched, if it did. -/
def Answered {α : Type} (conduct : Conduct) (limited : Bool) (later : Scene) (last : Session)
    (result : Except Fault α) : Prop :=
  ∀ running, last.process = some running →
    Settled conduct limited running result last.remotePort (signals later.past)

theorem answered_of_process_none {α : Type} {limited : Bool} {later : Scene} {last : Session}
    {result : Except Fault α} (h : last.process = none) :
    Answered conduct limited later last result := by
  intro running hrunning
  rw [h] at hrunning
  exact absurd hrunning nofun

theorem asks_stage (machine : Machine) (options : Options) :
    (stage machine options).outcome.Asks Request.Aside := by
  have hfill (directory : Machine.Directory) : Attempt.Observes Request.Aside _ :=
    observes_fill (fun _ _ => trivial) (fun _ => trivial) (fun _ _ => trivial) options directory
  have hsteps : (stageSteps options).outcome.Asks Request.Aside := by
    refine Program.asks_bind ⟨trivial, fun _ => trivial⟩ ?_
    rintro (fault | directory)
    · exact trivial
    · exact fun _ => (hfill directory).asks
  refine Program.asks_bind hsteps ?_
  rintro (fault | path) <;> exact trivial

/-- Once its `port` is known, nobody signals a process any more. -/
theorem fares_reach {machine : Machine} {running : Machine.Running} {known : Session} {port : Nat}
    {limited : Bool} (hprocess : session.process = some running)
    (hport : session.remotePort = some port)
    (hsettled : Settled conduct limited running (.ok port : Except Fault Nat) (some port)
      (signals scene.past)) :
    Attempt.Fares (reply? conduct elsewhere) scene (do
      record known .handshake { remotePort := some port }
      Ask.discardOutput running
      match machine.connectivity with
      | .direct => modify fun session => { session with localPort := none }
      | .tunnel _ =>
        let localPort ← Ask.freePort
        modify fun session => { session with localPort := some localPort }
        let forward ← Ask.openTunnel localPort port
        modify fun session => { session with tunnel := some forward }
        record known .tunnelOpened { remotePort := some port, localPort := some localPort })
      session (fun later last result => Answered conduct limited later last result) stuck := by
  -- wherever this stops, the process and its port are known
  have hanswered {later : Scene} {last : Session} {result : Except Fault Unit}
      (hlast : last.process = some running) (hknown : last.remotePort = some port)
      (hsignals : signals later.past = signals scene.past) :
      Answered conduct limited later last result := by
    intro running' hrunning
    obtain rfl := Option.some.inj (hlast.symm.trans hrunning)
    rw [hknown, hsignals]
    exact hsettled.of_ok result
  refine fares_record_bind fun recorded _ hrecorded => ?_
  refine Attempt.fares_bind (Program.fares_ask (reply?_of_respond rfl) ?_)
  have hdiscarded : signals (recorded.past ++ [⟨.control (.discardOutput running), .ok ()⟩])
      = signals scene.past := (signals_append_quiet rfl).trans hrecorded
  cases machine.connectivity with
  | direct => exact hanswered hprocess hport hdiscarded
  | tunnel name =>
    refine fares_observes_bind ⟨trivial, fun _ => trivial⟩ fun free _ hfree =>
      ⟨fun localPort => ?_, ?_⟩
    · refine Attempt.fares_modify_bind ?_
      refine fares_observes_bind ⟨trivial, fun _ => trivial⟩ fun opened _ hopened =>
        ⟨fun forward => ?_, ?_⟩
      · refine Attempt.fares_modify_bind (Program.Fares.mono (fares_observes
          (observes_record known _ _ fun _ _ _ _ _ => trivial)) ?_)
        rintro last _ result ⟨-, hsignals, rfl⟩
        exact hanswered hprocess hport
          (hsignals.trans (hopened.trans (hfree.trans hdiscarded)))
      · exact fun fault => hanswered hprocess hport (hopened.trans (hfree.trans hdiscarded))
    · exact fun fault => hanswered hprocess hport (hfree.trans hdiscarded)

theorem fares_acquire (surroundings : Surroundings) (hlaunched : Launched conduct scene.performance)
    (hquiet : signals scene.past = []) (hdirectory : session.tempDirectory = none)
    (hprocess : session.process = none) (hport : session.remotePort = none)
    (hheard : conduct.heard session.options.handshakeTimeout.isSome = none → stuck)
    (hstopped : ∀ heard,
      conduct.stopped session.options.handshakeTimeout.isSome heard = none → stuck) :
    Attempt.Fares (reply? conduct elsewhere) scene (acquire surroundings) session
      (fun later last result =>
        Answered conduct session.options.handshakeTimeout.isSome later last result) stuck := by
  rw [acquire]
  refine fares_observes_bind observes_requireMachine fun found hfound hfoundQuiet =>
    ⟨fun machine => ?_, fun fault => answered_of_process_none hprocess⟩
  refine Attempt.fares_get_bind ?_
  refine Attempt.fares_bind (Program.Fares.mono (fares_aside (asks_stage _ _)) ?_)
  rintro staged last (fault | path) ⟨hstaged, hstagedQuiet, exchanges, hrun⟩
  · obtain ⟨-, hsame, -⟩ := run_stage hdirectory hrun
    exact answered_of_process_none (hsame.trans hprocess)
  obtain ⟨directory, rfl⟩ := yields_stage _ _ hrun
  refine fares_record_bind fun recorded hrecorded hrecordedQuiet => ?_
  refine fares_observes_bind ?_ fun resolved hresolved hresolvedQuiet =>
    ⟨fun interpreter => ?_, fun fault => answered_of_process_none hprocess⟩
  · exact observes_resolveInterpreter (fun _ => trivial) (fun _ => trivial) surroundings _ _
  refine fares_observes_bind ?_ fun spawned hspawned hspawnedQuiet =>
    ⟨fun running => ?_, fun fault => answered_of_process_none hprocess⟩
  · exact observes_launch interpreter path fun _ _ => trivial
  refine Attempt.fares_modify_bind (fares_record_bind fun known hknown hknownQuiet => ?_)
  have hsame : known.performance = scene.performance := by
    rw [hknown, hspawned, hresolved, hrecorded, hstaged, hfound]
  have hknownQuiet' : signals known.past = [] := by
    rw [hknownQuiet, hspawnedQuiet, hresolvedQuiet, hrecordedQuiet, hstagedQuiet, hfoundQuiet,
      hquiet]
  have hlaunched' : Launched conduct known.performance := by
    rw [hsame]
    exact hlaunched
  refine Attempt.fares_bind (Program.Fares.mono
    (fares_handshake hlaunched' hknownQuiet' hheard hstopped) ?_)
  rintro later last (fault | port) ⟨rfl, hsettled⟩
  · -- nothing is known of a port, and this is the process that is reported
    intro running' hrunning
    obtain rfl := Option.some.inj hrunning
    rw [hport]
    exact hsettled.error
  · exact Attempt.fares_modify_bind (fares_reach rfl rfl hsettled)

/-- Marking the session as ready or as failed by `start` changes nothing about what it has
`Answered`. -/
theorem fares_start (surroundings : Surroundings) (hstate : session.state = .created)
    (hlaunched : Launched conduct scene.performance)
    (hquiet : signals scene.past = []) (hdirectory : session.tempDirectory = none)
    (hprocess : session.process = none) (hport : session.remotePort = none)
    (hheard : conduct.heard session.options.handshakeTimeout.isSome = none → stuck)
    (hstopped : ∀ heard,
      conduct.stopped session.options.handshakeTimeout.isSome heard = none → stuck) :
    Attempt.Fares (reply? conduct elsewhere) scene (start surroundings) session
      (fun later last result =>
        Answered conduct session.options.handshakeTimeout.isSome later last result) stuck := by
  rw [start]
  refine Attempt.fares_get_bind ?_
  rw [if_neg (not_not_intro hstate)]
  let starting : Session := { session with state := .starting }
  have hacquire : Attempt.Fares (reply? conduct elsewhere) scene (acquire surroundings) starting
      (fun later last result =>
        Answered conduct session.options.handshakeTimeout.isSome later last result) stuck :=
    fares_acquire surroundings hlaunched hquiet hdirectory hprocess hport hheard hstopped
  refine Attempt.fares_set_bind (Attempt.fares_bind (Attempt.fares_tryCatch
    (Program.Fares.mono hacquire ?_)))
  rintro later last (fault | ⟨⟩) hanswered
  · refine Attempt.fares_modify_bind (Attempt.fares_get_bind ?_)
    refine fares_record_bind fun recorded _ hrecorded => ?_
    refine Attempt.fares_throw fun running hrunning => ?_
    rw [hrecorded]
    exact hanswered running hrunning
  · refine Attempt.fares_modify_bind (Attempt.fares_get_bind ?_)
    refine fares_record_bind fun recorded _ hrecorded => ?_
    refine Program.Fares.mono (fares_observes (Attempt.observes_lift_ask trivial)) ?_
    rintro reported _ result ⟨-, hreported, rfl⟩ running hrunning
    rw [hreported, hrecorded]
    exact (hanswered running hrunning).of_ok result

end Start

/-! ## Two processes -/

/-- The `Conduct` of a process whose first line reports no port. It cannot be asked to stop, but
goes on writing and closes by itself. -/
def chatty : Conduct where
  pid := some (.int 4242)
  unasked := [.does [.output (Text.encodeUtf8 "no port\npar")]]
  refusal := some (.ofMessage "no such process")
  atTerminate := []
  afterTerminate :=
    [.does [.output (Text.encodeUtf8 "tial"), .errors (Text.encodeUtf8 "bye")],
      .does [.exited (.int 1), .closed]]
  atKill := [.closed]
  afterKill := []

/-- The `Conduct` of a process that does nothing at all until it is asked to stop. -/
def silent : Conduct where
  pid := some (.int 4242)
  unasked := []
  refusal := none
  atTerminate := [.closed]
  afterTerminate := []
  atKill := [.closed]
  afterKill := []

/-- **What becomes of a handshake.** The process that a start launches may do anything at any time
by its `Conduct`, asking it to stop may fail, and everything else may be replied to in any way. It
is waited for until it has completed a line or ended its standard output, or until the limit runs
out. If it has a first line by then that reports a port, that is the port of the session, and nobody
signals the process. Otherwise it is asked to stop, once, and it is stopped by force just if it is
not closed when the limit runs out again; the start fails with a report of everything that it ever
wrote and of its last exit code.

A start never ends only if it has no limit and its process neither completes a line nor ends its
output, or if the process does not close however it is stopped. -/
theorem handshake_settles {σ : Type} {machine : Machine} {input : Options.Input} {s s' : σ}
    {exchanges : List Exchange} {session : Session}
    (hcreate : Attempt.Run (create machine input : Attempt σ interface Session) s exchanges s'
      (.ok session))
    (surroundings : Surroundings) (conduct : Conduct)
    (elsewhere : List Exchange → (r : Request) → interface.Reply r) :
    Attempt.Fares (reply? conduct elsewhere) ⟨[], { ahead := conduct.unasked }⟩
      (start surroundings) session
      (fun later last result => ∀ running, last.process = some running →
        Settled conduct session.options.handshakeTimeout.isSome running result last.remotePort
          (signals later.past))
      ((session.options.handshakeTimeout = none ∧ conduct.heard false = none) ∨
        ¬ conduct.Closes session.options.handshakeTimeout.isSome) := by
  obtain ⟨id, options, rfl⟩ := eq_of_run_create hcreate
  refine fares_start surroundings rfl ⟨rfl, rfl, rfl⟩ rfl rfl rfl rfl (fun hheard => .inl ?_)
    fun heard hstopped => .inr fun hcloses => Conduct.stopped_ne_none hcloses heard hstopped
  dsimp only at hheard ⊢
  cases hlimit : options.handshakeTimeout with
  | none =>
    rw [hlimit] at hheard
    exact ⟨rfl, hheard⟩
  | some limit =>
    rw [hlimit] at hheard
    exact absurd (Option.map_eq_none_iff.1 hheard) (Beat.wait_limited_ne_none [] conduct.unasked)

/-- The `chatty` process is reported with the line that was read, what it wrote after it, and what
it wrote when it was to stop. -/
theorem reported_after_bad_line :
    Attempt.Run (create ⟨none, .direct⟩ briefInput : Attempt Unit interface Session) ()
        [⟨.freshId, "d-1"⟩] () (.ok brief) ∧
      ∃ later last running,
        (start ⟨"20.11.1", none⟩).outcome.attend (reply? chatty fun _ => granted)
            ⟨[], { ahead := chatty.unasked }⟩ brief
          = some (later, last, .error (.processFailed running.argv (.int 1)
              (Text.encodeUtf8 "no port\npartial") (Text.encodeUtf8 "bye"))) ∧
        last.process = some running ∧ last.remotePort = none ∧
        signals later.past = [(.terminate, running)] := by
  refine ⟨run_create_brief (), ?_⟩
  have hfares := handshake_settles (run_create_brief ()) ⟨"20.11.1", none⟩ chatty
  have hheard : chatty.heard false = some [.output (Text.encodeUtf8 "no port\npar")] := rfl
  let everything : List Sign := [.output (Text.encodeUtf8 "no port\npar"),
    .output (Text.encodeUtf8 "tial"), .errors (Text.encodeUtf8 "bye"), .exited (.int 1), .closed]
  have hall : chatty.stopped false [.output (Text.encodeUtf8 "no port\npar")]
      = some (everything, false) := rfl
  have hstdout : Sign.stdout everything = Text.encodeUtf8 "no port\npartial" := by decide +kernel
  have hstderr : Sign.stderr everything = Text.encodeUtf8 "bye" := by decide +kernel
  have hcloses : chatty.Closes false := by simp [Conduct.Closes, chatty, Beat.signs]
  have hstuck : ¬ ((brief.options.handshakeTimeout = none ∧ chatty.heard false = none) ∨
      ¬ chatty.Closes false) := by
    rintro (⟨-, hnone⟩ | hnot)
    · exact absurd (hheard.symm.trans hnone) nofun
    · exact hnot hcloses
  have hends (elsewhere : List Exchange → (r : Request) → interface.Reply r) :=
    Program.Fares.ends (hfares elsewhere) hstuck
  obtain ⟨later, last, result, hattend, hsettled⟩ := hends fun _ => granted
  have hlaunched : ((start ⟨"20.11.1", none⟩).outcome.attend (reply? chatty fun _ => granted)
      ⟨[], { ahead := chatty.unasked }⟩ brief).any (fun left => left.2.1.process.isSome)
        = true := by
    decide +kernel
  have hattend' : (start ⟨"20.11.1", none⟩).outcome.attend (reply? chatty fun _ => granted)
      ⟨[], { ahead := chatty.unasked }⟩ brief = some (later, last, result) := hattend
  rw [hattend'] at hlaunched
  obtain ⟨running, hrunning⟩ := Option.isSome_iff_exists.1 hlaunched
  have hnone : Sign.port? [.output (Text.encodeUtf8 "no port\npar")] = none := by decide +kernel
  have hsettled' := hsettled running hrunning
  generalize hremotePort : last.remotePort = port at hsettled'
  generalize hsignals : signals later.past = sent at hsettled'
  cases hsettled' with
  | port hheard' hport =>
    obtain rfl := Option.some.inj (hheard.symm.trans hheard')
    exact absurd (hnone.symm.trans hport) nofun
  | stopped hheard' hport hstopped hclosed hresult =>
    obtain rfl := Option.some.inj (hheard.symm.trans hheard')
    obtain ⟨rfl, rfl⟩ := Prod.mk.inj (Option.some.inj (hall.symm.trans hstopped))
    rw [hstdout, hstderr] at hresult
    obtain rfl := hresult
    exact ⟨later, last, running, hattend', hrunning, hremotePort, hsignals⟩

/-- A start without a limit goes on for ever with a `silent` process, although that would stop. -/
theorem pending_with_silent_process :
    Attempt.Run (create ⟨none, .direct⟩ briefInput : Attempt Unit interface Session) ()
        [⟨.freshId, "d-1"⟩] () (.ok brief) ∧
      silent.Closes false ∧ silent.Closes true ∧
      (start ⟨"20.11.1", none⟩).outcome.attend (reply? silent fun _ => granted)
        ⟨[], { ahead := silent.unasked }⟩ brief = none := by
  have hnone : ((start ⟨"20.11.1", none⟩).outcome.attend (reply? silent fun _ => granted)
      ⟨[], { ahead := silent.unasked }⟩ brief).isNone = true := by decide +kernel
  refine ⟨run_create_brief (), ?_, ?_, Option.isNone_iff_eq_none.1 hnone⟩
  · exact List.mem_cons_self
  · exact List.mem_cons_self

end Session

end Outpost

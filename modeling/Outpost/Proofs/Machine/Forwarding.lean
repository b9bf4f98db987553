import Outpost.Proofs.Machine.Waiting

/-!
# Forwards

A forward is a process of its own, which has to come up within fifteen seconds. Whatever that
process does, and whoever listens on its local port, a machine either hands the process over with
the forward or has seen its end: nothing is left running that nobody knows of.

## Contents

* `ForwardEnds`, `fares_awaitForward`: how the wait for a forward ends.
* `TunnelEnds`, `forward_handed_over_or_closed`: how a forward is opened, and how often its local
  port is tried.
-/

namespace Outpost.OpenSsh

/-- A local port is tried, by a `connect`. -/
def Exchange.isConnect : Exchange → Bool
  | ⟨.connect _, _⟩ => true
  | _ => false

/-- A round of `Rounds` in which the process of a forward runs, and its local port accepts no
connection. -/
inductive Unreached (child : Nat) (localPort : Port) : List Exchange → Prop
  | mk (fault : Fault) : Unreached child localPort
      [⟨.isClosed child, false⟩, ⟨.connect localPort, .error fault⟩]

/-- How the wait for a forward ends, with what was exchanged for that: before the `deadline` with a
connection, which is given up at once, or with the end of the process, all of whose complaints are
reported; after it with the end of the process, which is stopped. -/
inductive ForwardEnds (host : OpenSsh) (child : Nat) (localPort remotePort : Port)
    (deadline last : Number) (later : Scene) : List Exchange → Except Fault Unit → Prop
  | up (probe : Machine.Socket) (early : last.gap deadline ≠ 0) :
    ForwardEnds host child localPort remotePort deadline last later
      [⟨.isClosed child, false⟩, ⟨.connect localPort, .ok probe⟩, ⟨.destroy probe, ⟨⟩⟩] (.ok ())
  | exited (found : Output) (done : List Sign) (early : last.gap deadline ≠ 0)
      (gone : later.Over child done) :
    ForwardEnds host child localPort remotePort deadline last later
      [⟨.isClosed child, true⟩, ⟨.communicate child, found⟩]
      (.error (.ofMessage ("ssh tunnel to " ++ host.label ++ ":" ++ remotePort.text ++ " exited: "
        ++ Text.trim (Text.decodeUtf8 (Sign.stderr done)))))
  | expired (found : Output) (done : List Sign) (overdue : last.gap deadline = 0)
      (gone : later.Over child done) :
    ForwardEnds host child localPort remotePort deadline last later
      [⟨.kill child, .ok ()⟩, ⟨.communicate child, found⟩]
      (.error (.timedOut
        ("tunnel " ++ localPort.text ++ " → " ++ host.label ++ ":" ++ remotePort.text)
        (.ofNat readyTimeout)))

/-- How a forward is opened: not at all if there is no process for it, and else as the wait for that
process ends, by `ForwardEnds`. The forward goes by the number of the process. -/
inductive TunnelEnds (host : OpenSsh) (localPort remotePort : Port) (scene later : Scene) :
    List Exchange → Except Fault Machine.Forward → Prop
  | unlaunched (fault : Fault) : TunnelEnds host localPort remotePort scene later
      [⟨.spawn (host.forwardLaunch localPort remotePort), .error fault⟩] (.error fault)
  | launched (started : Child) (now last : Number) (waited ended : List Exchange)
      (result : Except Fault Unit) (number : started.id = scene.launched)
      (rounds : Rounds (Unreached started.id localPort) (now.add (.ofNat readyTimeout)) now waited
        last)
      (ends : ForwardEnds host started.id localPort remotePort (now.add (.ofNat readyTimeout)) last
        later ended result) :
    TunnelEnds host localPort remotePort scene later
      (⟨.spawn (host.forwardLaunch localPort remotePort), .ok started⟩ :: ⟨.clock, now⟩
        :: (waited ++ ended))
      (result.map fun _ => ⟨started.id, localPort, remotePort⟩)

variable {σ : Type} {system : System} {host : OpenSsh} {localPort remotePort : Port}

/-- The wait by `awaitForward` is over some day: each round brings the deadline nearer. -/
theorem fares_awaitForward {scene : Scene} {child : Nat} {deadline now : Number} {s : σ}
    (hstops : system.Stops) (hchild : scene.Watches child) :
    Attempt.Fares system.reply? scene (host.awaitForward child localPort remotePort deadline now) s
      (fun later s' result => s' = s ∧ ∃ waited last ended,
        later.past = scene.past ++ (waited ++ ended) ∧
        Rounds (Unreached child localPort) deadline now waited last ∧
        ForwardEnds host child localPort remotePort deadline last later ended result) False := by
  -- on how long it is to the deadline: nothing that the process or the port does may put it off
  induction hgap : now.gap deadline using Nat.strong_induction_on generalizing now scene with
  | h gap ih =>
    rw [awaitForward]
    split
    · next hoverdue =>
      refine fares_kill_communicate_bind hstops hchild fun found later done hpast hover _ =>
        Attempt.fares_throw ?_
      exact ⟨rfl, [], now, _, hpast, .nil _, .expired found done hoverdue hover⟩
    · next hearly =>
      refine fares_lift_bind nofun fun closed asked hclosed => ?_
      have hasked := hchild.next hclosed nofun
      dsimp only
      cases closed with
      | true =>
        have hgone := closed_of_reply? hchild hclosed
        refine fares_communicate_bind hasked
          (.inl (exists_reply?_communicate system hasked (.inl hgone)))
          fun found later done hfound hover hstderr => Attempt.fares_bind (Attempt.fares_throw ?_)
        rw [hstderr]
        refine ⟨rfl, [], now, _, ?_, .nil _, .exited found done hearly hover⟩
        rw [past_of_reply? hfound, past_of_reply? hclosed, List.append_assoc]
        rfl
      | false =>
        refine fares_lift_bind nofun fun connection tried hconnection => ?_
        have htried := hasked.next hconnection nofun
        cases connection with
        | ok probe =>
          refine Program.fares_bind (fares_ask nofun fun reply later hdestroy => ?_)
          refine ⟨rfl, [], now, _, ?_, .nil _, .up probe hearly⟩
          rw [past_of_reply? hdestroy, past_of_reply? hconnection, past_of_reply? hclosed,
            List.append_assoc, List.append_assoc]
          rfl
        | error fault =>
          refine fares_lift_bind nofun fun pausing paused hpause => ?_
          have hnearer : pausing.1.gap deadline < gap :=
            hgap ▸ Number.gap_lt_gap pausing.2 hearly
          refine Program.Fares.mono (ih _ hnearer (htried.next hpause nofun) rfl) ?_
          rintro later s' result ⟨rfl, waited, last, ended, hpast, hrounds, hends⟩
          refine ⟨rfl, _, last, ended, ?_, .cons hearly (.mk fault) hrounds, hends⟩
          rw [hpast, past_of_reply? hpause, past_of_reply? hconnection, past_of_reply? hclosed]
          simp only [List.append_assoc]
          rfl

theorem ForwardEnds.countP_isConnect {child : Nat} {deadline last : Number} {later : Scene}
    {ended : List Exchange} {result : Except Fault Unit}
    (h : ForwardEnds host child localPort remotePort deadline last later ended result) :
    ended.countP Exchange.isConnect ≤ 1 ∧
      (ended.countP Exchange.isConnect ≠ 0 → last.gap deadline ≠ 0) := by
  cases h with
  | up probe early => exact ⟨Nat.le_refl 1, fun _ => early⟩
  | exited found done early gone => exact ⟨Nat.zero_le 1, fun _ => early⟩
  | expired found done overdue gone => exact ⟨Nat.zero_le 1, fun htried => absurd rfl htried⟩

/-- A local port is tried 150 times at most when a forward is opened as in `TunnelEnds`. -/
theorem TunnelEnds.countP_isConnect_le {scene later : Scene} {exchanges : List Exchange}
    {result : Except Fault Machine.Forward}
    (h : TunnelEnds host localPort remotePort scene later exchanges result)
    (hpaced : ∀ exchange ∈ exchanges, exchange.Paced) :
    exchanges.countP Exchange.isConnect ≤ 150 := by
  cases h with
  | unlaunched fault => exact Nat.zero_le 150
  | launched started now last waited ended result number rounds ends =>
    rw [List.forall_mem_cons, List.forall_mem_cons, List.forall_mem_append] at hpaced
    obtain ⟨-, hclock, hwaited, -⟩ := hpaced
    obtain ⟨hended, hearly⟩ := ends.countP_isConnect
    have htried : (waited ++ ended).countP Exchange.isConnect ≤ 150 :=
      count_le_of_rounds hclock rounds (fun _ ⟨_⟩ => Nat.le_refl 1) (fun _ _ _ => rfl) hended hearly
        hwaited
    exact htried

/-- **A forward is handed over, or its process is closed.** Whatever its process does, and whoever
listens on its local port: to open a forward by `tunnel` ends. With the forward, once its local port
accepted a connection, which was given up again, and the process was not stopped; or with a fault,
and the process is closed: with all of what it complained of in the message if it was closed before
the deadline, and as too late once it has been stopped by force and waited for. With a clock by
which no pause is too short the local port is tried 150 times at most. -/
theorem forward_handed_over_or_closed (hstops : system.Stops) (host : OpenSsh)
    (localPort remotePort : Port) (scene : Scene) (s : σ) :
    ∃ exchanges later result,
      (host.tunnel localPort remotePort).outcome.attend system.reply? scene s
        = some (later, s, result) ∧
      later.past = scene.past ++ exchanges ∧
      TunnelEnds host localPort remotePort scene later exchanges result ∧
      ((∀ exchange ∈ exchanges, exchange.Paced) →
        exchanges.countP Exchange.isConnect ≤ 150) := by
  have hfares : Attempt.Fares system.reply? scene (host.tunnel localPort remotePort) s
      (fun later s' result => s' = s ∧ ∃ exchanges, later.past = scene.past ++ exchanges ∧
        TunnelEnds host localPort remotePort scene later exchanges result) False := by
    refine fares_spawn_bind (fun fault later hspawn => ?_) fun started spawned hspawn => ?_
    · exact ⟨rfl, _, past_of_reply? hspawn, .unlaunched fault⟩
    · obtain ⟨hnumber, hstarted⟩ := watches_of_reply? hspawn
      refine fares_lift_bind nofun fun now timed hclock => ?_
      refine Attempt.fares_bind (Program.Fares.mono
        (fares_awaitForward hstops (hstarted.next hclock nofun)) ?_)
      rintro later s' result ⟨rfl, waited, last, ended, hpast, hrounds, hends⟩
      have hopened : later.past
          = scene.past ++ ⟨.spawn (host.forwardLaunch localPort remotePort), .ok started⟩
            :: ⟨.clock, now⟩ :: (waited ++ ended) := by
        rw [hpast, past_of_reply? hclock, past_of_reply? hspawn]
        simp only [List.append_assoc]
        rfl
      have htunnel := TunnelEnds.launched started now last waited ended result hnumber hrounds hends
      cases result with
      | error fault => exact ⟨rfl, _, hopened, htunnel⟩
      | ok _ => exact ⟨rfl, _, hopened, htunnel⟩
  obtain ⟨later, s', result, hattend, rfl, exchanges, hpast, hends⟩ := hfares.ends nofun
  exact ⟨exchanges, later, result, hattend, hpast, hends, hends.countP_isConnect_le⟩

/-- A host with a control master that was launched elsewhere. -/
def alpha : OpenSsh where
  config := { host := some (.string "alpha") }
  master := ⟨7, none, [], false, true, true⟩
  controlDirectory := "/tmp/ctl"

/-- The process of a forward finds its local port in use, once that was tried. -/
def crowded : System := .ofConduct fun past _ =>
  if past.length = 4 then [.errors (Text.encodeUtf8 "in use\n"), .exited (.nat 255), .closed]
  else []

/-- The process of a forward closes while the machine waits, and its complaint is reported. -/
theorem crowded_port_reported : crowded.Stops ∧ ∃ exchanges later fault,
    (alpha.tunnel (.ofNat 8080) (.ofNat 80)).outcome.attend crowded.reply? Scene.initial ()
      = some (later, (), .error fault) ∧
    fault.message = "ssh tunnel to alpha:80 exited: in use" ∧
    later.past = exchanges ∧
    TunnelEnds alpha (.ofNat 8080) (.ofNat 80) Scene.initial later exchanges (.error fault) ∧
    ((∀ exchange ∈ exchanges, exchange.Paced) →
      exchanges.countP Exchange.isConnect ≤ 150) := by
  have hstops : crowded.Stops := System.stops_ofConduct _
  obtain ⟨exchanges, later, result, hattend, hpast, hends, hcount⟩ :=
    forward_handed_over_or_closed hstops alpha (.ofNat 8080) (.ofNat 80) Scene.initial ()
  have hmessage : ((alpha.tunnel (.ofNat 8080) (.ofNat 80)).outcome.attend crowded.reply?
      Scene.initial ()).map (fun left => match left.2.2 with
        | .error fault => fault.message
        | .ok _ => "") = some "ssh tunnel to alpha:80 exited: in use" := by
    decide +kernel
  rw [hattend] at hmessage
  cases result with
  | ok forward =>
    have hnothing : "" = "ssh tunnel to alpha:80 exited: in use" := Option.some.inj hmessage
    exact absurd hnothing (by decide)
  | error fault =>
    exact ⟨hstops, exchanges, later, fault, hattend, Option.some.inj hmessage, hpast, hends, hcount⟩

end Outpost.OpenSsh

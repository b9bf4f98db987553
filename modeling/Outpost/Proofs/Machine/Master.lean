import Outpost.Proofs.Machine.Waiting

/-!
# Control masters

To connect to a host acquires two things, one after the other: a directory for the control socket,
and the process of the control master. What becomes of them depends on how the master comes up,
which is asked of it by checks that are processes of their own.

Once there is a master, a connection that does not come up leaves nothing behind, and says what it
was that went wrong. A master that cannot be launched is the exception: the directory stays, and the
fault of the launch is all that is reported (`directory_left_by_unlaunched_master`).

## Contents

* `fares_runToEnd_bind`: how a process that has to end by itself fares.
* `MasterEnds`, `fares_awaitMaster`: how the wait for a master ends.
* `ConnectEnds`, `Unanswered`, `connect_leaves_nothing`: how a connection comes up or fails, and how
  often the master is checked.
-/

namespace Outpost.OpenSsh

/-- A child is launched, by a `spawn`. -/
def Exchange.isSpawn : Exchange → Bool
  | ⟨.spawn _, _⟩ => true
  | _ => false

/-- A child is stopped by `kill`, or a directory is removed. -/
def Exchange.isRelease : Exchange → Bool
  | ⟨.kill _, _⟩ => true
  | ⟨.removeDirectory _, _⟩ => true
  | _ => false

/-! ## Checks of a master -/

/-- A `check` of a master that is not closed is launched. -/
def asking (host : OpenSsh) (check : Child) : List Exchange :=
  [⟨.isClosed host.master.id, false⟩, ⟨.spawn (host.controlLaunch "check"), .ok check⟩]

/-- The reply to a `check`: what it wrote, and its exit code. -/
def answering (check : Child) (found : Output) (code : Json) : List Exchange :=
  [⟨.communicate check.id, found⟩, ⟨.exitCode check.id, code⟩]

/-- A round in which a master is checked by `host`, and does not accept commands yet. -/
inductive Unready (host : OpenSsh) : List Exchange → Prop
  | mk (check : Child) (found : Output) (code : Json) (failed : Machine.isSuccess code = false) :
    Unready host (asking host check ++ answering check found code)

/-- How the wait for a master ends, with what was exchanged for that: before the `deadline` with a
check that exits with success, with the end of the master, or with a check that cannot be launched;
and after the deadline with nothing more. -/
inductive MasterEnds (host : OpenSsh) (deadline last : Number) (later : Scene) :
    List Exchange → Except Fault Unit → Prop
  | up (check : Child) (found : Output) (done : List Sign) (early : last.gap deadline ≠ 0)
      (gone : later.Over check.id done) (accepts : Machine.isSuccess (Sign.exitCode done) = true) :
    MasterEnds host deadline last later
      (asking host check ++ answering check found (Sign.exitCode done)) (.ok ())
  | exited (code : Json) (early : last.gap deadline ≠ 0) :
    MasterEnds host deadline last later
      [⟨.isClosed host.master.id, true⟩, ⟨.exitCode host.master.id, code⟩]
      (.error (.ofMessage ("ssh master exited with code " ++ Fault.exitText code)))
  | unchecked (fault : Fault) (early : last.gap deadline ≠ 0) :
    MasterEnds host deadline last later
      [⟨.isClosed host.master.id, false⟩, ⟨.spawn (host.controlLaunch "check"), .error fault⟩]
      (.error fault)
  | expired (overdue : last.gap deadline = 0) :
    MasterEnds host deadline last later []
      (.error (.timedOut ("ssh master for " ++ host.label) (.ofNat readyTimeout)))

variable {σ α : Type} {system : System} {host : OpenSsh} {scene : Scene} {s : σ} {stuck : Prop}

/-- Running a process by `runToEnd`, if it ever ends, is of no concern to any other child. -/
theorem fares_runToEnd_bind {launch : Launch} {f : Machine.Finished → Attempt σ interface α}
    {post : Scene → σ → Except Fault α → Prop}
    (hstuck : ∀ child, .closed ∉ (system.awaited (scene.past ++ [⟨.spawn launch, .ok child⟩])
      child.id).flatMap Beat.signs → stuck)
    (herror : ∀ fault later, system.reply? scene (.spawn launch) = some (.error fault, later) →
      post later s (.error fault))
    (hok : ∀ child found done later,
      later.past = scene.past ++ (⟨.spawn launch, .ok child⟩
        :: answering child found (Sign.exitCode done)) →
      (∀ other, scene.Watches other → later.Watches other) → later.Over child.id done →
      Attempt.Fares system.reply? later
        (f ⟨Text.decodeUtf8 found.stdout, Text.decodeUtf8 found.stderr, Sign.exitCode done⟩) s post
        stuck) :
    Attempt.Fares system.reply? scene (runToEnd launch none >>= f) s post stuck := by
  have hrun : (runToEnd launch none >>= f : Attempt σ interface α)
      = spawn launch >>= fun child => communicate child.id >>= fun output =>
        exitCode child.id >>= fun code =>
          f ⟨Text.decodeUtf8 output.stdout, Text.decodeUtf8 output.stderr, code⟩ := by
    simp only [runToEnd, pure_bind, bind_assoc]
  rw [hrun]
  refine fares_spawn_bind herror fun child spawned hspawn => ?_
  obtain ⟨hnumber, hchild⟩ := watches_of_reply? hspawn
  have hends : (∃ found later,
      system.reply? spawned (.communicate child.id) = some (found, later)) ∨ stuck := by
    by_cases hcloses : .closed ∈ (system.awaited spawned.past child.id).flatMap Beat.signs
    · exact .inl (exists_reply?_communicate system hchild (.inr hcloses))
    · rw [past_of_reply? hspawn] at hcloses
      exact .inr (hstuck child hcloses)
  refine fares_communicate_bind hchild hends fun found ended done hfound hover _ => ?_
  refine fares_lift_bind nofun fun code later hcode => ?_
  obtain rfl := exitCode_of_reply? hover hcode
  refine hok child found done later ?_ (fun other hother => ?_) (hover.next hcode nofun)
  · rw [past_of_reply? hcode, past_of_reply? hfound, past_of_reply? hspawn]
    simp only [List.append_assoc]
    rfl
  · have hapart : Request.communicate child.id ≠ .communicate other := fun hsame =>
      absurd (Request.communicate.inj hsame ▸ hnumber ▸ hother.launched) (Nat.lt_irrefl _)
    exact ((hother.next hspawn nofun).next hfound hapart).next hcode nofun

/-- The wait by `awaitMaster` is over some day, if every check is. -/
theorem fares_awaitMaster {deadline now : Number} (hmaster : scene.Watches host.master.id)
    (hstuck : ∀ waited last check, Rounds (Unready host) deadline now waited last →
      last.gap deadline ≠ 0 →
      .closed ∉ (system.awaited (scene.past ++ (waited ++ asking host check))
        check.id).flatMap Beat.signs → stuck) :
    Attempt.Fares system.reply? scene (host.awaitMaster deadline now) s
      (fun later s' result => s' = s ∧ later.Watches host.master.id ∧ ∃ waited last ended,
        later.past = scene.past ++ (waited ++ ended) ∧
        Rounds (Unready host) deadline now waited last ∧
        MasterEnds host deadline last later ended result) stuck := by
  -- on how long it is to the deadline, which every pause brings nearer
  induction hgap : now.gap deadline using Nat.strong_induction_on generalizing now scene with
  | h gap ih =>
    rw [awaitMaster]
    split
    · next hoverdue =>
      refine Attempt.fares_throw ⟨rfl, hmaster, [], now, [], ?_, .nil _, .expired hoverdue⟩
      rw [List.append_nil, List.append_nil]
    · next hearly =>
      refine fares_lift_bind nofun fun closed asked hclosed => ?_
      have hasked := hmaster.next hclosed nofun
      dsimp only
      cases closed with
      | true =>
        refine fares_lift_bind nofun fun code later hcode =>
          Attempt.fares_bind (Attempt.fares_throw ?_)
        refine ⟨rfl, hasked.next hcode nofun, [], now, _, ?_, .nil _, .exited code hearly⟩
        rw [past_of_reply? hcode, past_of_reply? hclosed, List.append_assoc]
        rfl
      | false =>
        refine fares_runToEnd_bind (fun check hcloses => ?_) (fun fault later hspawn => ?_)
          fun check found done later hpast hkept hover => ?_
        · refine hstuck [] now check (.nil _) hearly ?_
          rw [past_of_reply? hclosed, List.append_assoc] at hcloses
          exact hcloses
        · refine ⟨rfl, hasked.next hspawn nofun, [], now, _, ?_, .nil _, .unchecked fault hearly⟩
          rw [past_of_reply? hspawn, past_of_reply? hclosed, List.append_assoc]
          rfl
        · have hchecked : later.past = scene.past
              ++ (asking host check ++ answering check found (Sign.exitCode done)) := by
            rw [hpast, past_of_reply? hclosed, List.append_assoc]
            rfl
          split
          · next haccepts =>
            exact Attempt.fares_pure ⟨rfl, hkept _ hasked, [], now, _, hchecked, .nil _,
              .up check found done hearly hover haccepts⟩
          · next hrefuses =>
            -- the round is over, and what is left is a wait that begins when the pause ends
            refine fares_lift_bind nofun fun pausing paused hpause => ?_
            have hnearer : pausing.1.gap deadline < gap :=
              hgap ▸ Number.gap_lt_gap pausing.2 hearly
            have hpaused : paused.past = scene.past
                ++ (asking host check ++ answering check found (Sign.exitCode done)
                  ++ [⟨.pause now pollPause, pausing⟩]) := by
              rw [past_of_reply? hpause, hchecked, List.append_assoc]
            have hround : Unready host
                (asking host check ++ answering check found (Sign.exitCode done)) :=
              .mk check found _ (Bool.eq_false_iff.2 hrefuses)
            refine Program.Fares.mono (ih _ hnearer ((hkept _ hasked).next hpause nofun)
              (fun waited last check hrounds hlast hcloses => ?_) rfl) ?_
            · -- a later check that never closes is one of this wait, too
              refine hstuck _ last check (.cons hearly hround hrounds) hlast ?_
              rw [hpaused] at hcloses
              simpa only [List.append_assoc, List.cons_append, List.nil_append] using hcloses
            · rintro final s' result ⟨rfl, hwatches, waited, last, ended, hfinal, hrounds, hends⟩
              refine ⟨rfl, hwatches, _, last, ended, ?_, .cons hearly hround hrounds, hends⟩
              rw [hfinal, hpaused]
              simp only [List.append_assoc, List.cons_append, List.nil_append]

/-! ## Connections -/

/-- The directory of a `host` is made, its master is launched, and the wait for it begins. -/
def opening (systemTemp : String) (host : OpenSsh) (now : Number) : List Exchange :=
  [⟨.makeDirectory (Path.join [systemTemp, "ephemeral-deploy-ssh-"]), .ok host.controlDirectory⟩,
    ⟨.spawn (masterLaunch host.config host.controlDirectory), .ok host.master⟩, ⟨.clock, now⟩]

/-- The master of a `host` is stopped, and its directory is removed. -/
def releasing (host : OpenSsh) (found : Output) : List Exchange :=
  [⟨.kill host.master.id, .ok ()⟩, ⟨.communicate host.master.id, found⟩,
    ⟨.removeDirectory host.controlDirectory, .ok ()⟩]

/-- The failure of a connection for some `reason`, with what its master complained of. -/
def failure (host : OpenSsh) (reason : Fault) (complaint : Bytes) : Fault :=
  let detail := Text.trim (Text.decodeUtf8 complaint)
  .error ("Failed to connect to " ++ host.label ++ ": " ++ reason.message
    ++ (if detail = "" then "" else " (" ++ detail ++ ")")) none (some reason)

/-- How a connection ends. Without a directory or without a master there is nothing but the fault;
else all depends on how the wait for the master ends, by `MasterEnds`. -/
inductive ConnectEnds (config : Config) (systemTemp : String) (later : Scene) :
    List Exchange → Except Fault OpenSsh → Prop
  | unplaced (fault : Fault) : ConnectEnds config systemTemp later
      [⟨.makeDirectory (Path.join [systemTemp, "ephemeral-deploy-ssh-"]), .error fault⟩]
      (.error fault)
  | unlaunched (path : String) (fault : Fault) : ConnectEnds config systemTemp later
      [⟨.makeDirectory (Path.join [systemTemp, "ephemeral-deploy-ssh-"]), .ok path⟩,
        ⟨.spawn (masterLaunch config path), .error fault⟩] (.error fault)
  | up (host : OpenSsh) (now last : Number) (waited ended : List Exchange)
      (known : host.config = config)
      (rounds : Rounds (Unready host) (now.add (.ofNat readyTimeout)) now waited last)
      (ends : MasterEnds host (now.add (.ofNat readyTimeout)) last later ended (.ok ())) :
    ConnectEnds config systemTemp later
      (opening systemTemp host now ++ (waited ++ ended)
        ++ [⟨.report ⟨.info, "SshMachine", "Connected to " ++ host.label⟩, ⟨⟩⟩]) (.ok host)
  | abandoned (host : OpenSsh) (now last : Number) (waited ended : List Exchange) (reason : Fault)
      (found : Output) (done : List Sign) (known : host.config = config)
      (rounds : Rounds (Unready host) (now.add (.ofNat readyTimeout)) now waited last)
      (ends : MasterEnds host (now.add (.ofNat readyTimeout)) last later ended (.error reason))
      (gone : later.Over host.master.id done) :
    ConnectEnds config systemTemp later
      (opening systemTemp host now ++ (waited ++ ended) ++ releasing host found)
      (.error (failure host reason (Sign.stderr done)))

/-- A `check` that never closes leaves a connection waiting for ever. -/
inductive Unanswered (system : System) (config : Config) (systemTemp : String)
    (past : List Exchange) : List Exchange → Prop
  | mk (host : OpenSsh) (now last : Number) (waited : List Exchange) (check : Child)
      (known : host.config = config)
      (rounds : Rounds (Unready host) (now.add (.ofNat readyTimeout)) now waited last)
      (early : last.gap (now.add (.ofNat readyTimeout)) ≠ 0)
      (endless : .closed ∉ (system.awaited
        (past ++ (opening systemTemp host now ++ (waited ++ asking host check)))
        check.id).flatMap Beat.signs) :
    Unanswered system config systemTemp past
      (opening systemTemp host now ++ (waited ++ asking host check))

variable {config : Config} {systemTemp : String}

/-- An end that was a failure is one whatever happens later. -/
theorem MasterEnds.of_error {deadline last : Number} {later final : Scene} {ended : List Exchange}
    {reason : Fault} (h : MasterEnds host deadline last later ended (.error reason)) :
    MasterEnds host deadline last final ended (.error reason) := by
  cases h with
  | exited code early => exact .exited code early
  | unchecked _ early => exact .unchecked reason early
  | expired overdue => exact .expired overdue

/-- A check that was over stays so. -/
theorem MasterEnds.next {deadline last : Number} {later final : Scene} {ended : List Exchange}
    {result : Except Fault Unit} {r : Request} {reply : interface.Reply r}
    (h : MasterEnds host deadline last later ended result)
    (hreply : system.reply? later r = some (reply, final))
    (hr : ∀ child, r ≠ .communicate child) :
    MasterEnds host deadline last final ended result := by
  cases h with
  | up check found done early gone accepts =>
    exact .up check found done early (gone.next hreply (hr _)) accepts
  | exited code early => exact .exited code early
  | unchecked fault early => exact .unchecked fault early
  | expired overdue => exact .expired overdue

theorem fares_removeTree_bind {path : String} {f : Unit → Attempt σ interface α}
    {post : Scene → σ → Except Fault α → Prop}
    (hremoves : ∀ past path, system.elsewhere past (.removeDirectory path) = .ok ())
    (h : ∀ later, system.reply? scene (.removeDirectory path) = some (.ok (), later) →
      Attempt.Fares system.reply? later (f ()) s post stuck) :
    Attempt.Fares system.reply? scene (removeTree path >>= f) s post stuck := by
  refine Attempt.fares_bind (fares_ask nofun fun removed later hremove => ?_)
  obtain rfl : removed = .ok () :=
    (Prod.mk.inj (Option.some.inj hremove)).1.symm.trans (hremoves _ _)
  exact h later hremove

/-- What a connection had acquired is released by `abandon`. -/
theorem fares_abandon {fault : Fault} (hstops : system.Stops)
    (hremoves : ∀ past path, system.elsewhere past (.removeDirectory path) = .ok ())
    (hmaster : scene.Watches host.master.id) :
    Attempt.Fares system.reply? scene (host.abandon fault : Attempt σ interface α) s
      (fun later s' result => s' = s ∧ ∃ found done,
        later.past = scene.past ++ releasing host found ∧ later.Over host.master.id done ∧
        result = .error (failure host fault (Sign.stderr done))) stuck := by
  refine fares_kill_communicate_bind hstops hmaster fun found ended done hpast hover hstderr => ?_
  refine fares_removeTree_bind hremoves fun later hremove => ?_
  refine Attempt.fares_throw ⟨rfl, found, done, ?_, hover.next hremove nofun, ?_⟩
  · rw [past_of_reply? hremove, hpast, List.append_assoc]
    rfl
  · rw [hstderr]
    rfl

/-- How `connect` fares, with all that it exchanges. -/
theorem fares_connect (hstops : system.Stops)
    (hremoves : ∀ past path, system.elsewhere past (.removeDirectory path) = .ok ()) :
    Attempt.Fares system.reply? scene (connect config systemTemp) s
      (fun later s' result => s' = s ∧ ∃ exchanges, later.past = scene.past ++ exchanges ∧
        ConnectEnds config systemTemp later exchanges result)
      (∃ exchanges, Unanswered system config systemTemp scene.past exchanges) := by
  refine Attempt.fares_bind (fares_ask nofun fun placed prepared hplace => ?_)
  cases placed with
  | error fault => exact ⟨rfl, _, past_of_reply? hplace, .unplaced fault⟩
  | ok path =>
    refine fares_spawn_bind (fun fault later hspawn => ?_) fun master launched hspawn => ?_
    · refine ⟨rfl, _, ?_, .unlaunched path fault⟩
      rw [past_of_reply? hspawn, past_of_reply? hplace, List.append_assoc]
      rfl
    · have hmaster := (watches_of_reply? hspawn).2
      refine fares_lift_bind nofun fun now timed hclock => ?_
      let host : OpenSsh := ⟨config, master, path⟩
      have hopened : timed.past = scene.past ++ opening systemTemp host now := by
        rw [past_of_reply? hclock, past_of_reply? hspawn, past_of_reply? hplace]
        simp only [List.append_assoc]
        rfl
      refine Attempt.fares_bind (Attempt.fares_tryCatch (Program.Fares.mono
        (fares_awaitMaster (hmaster.next hclock nofun)
          fun waited last check hrounds hearly hcloses => ?_) ?_))
      · rw [hopened, List.append_assoc] at hcloses
        exact ⟨_, .mk host now last waited check rfl hrounds hearly hcloses⟩
      · rintro awaited s' result ⟨rfl, hwatches, waited, last, ended, hpast, hrounds, hends⟩
        rw [hopened, List.append_assoc] at hpast
        cases result with
        | ok _ =>
          refine fares_lift_bind nofun fun reported later hreport => Attempt.fares_pure ?_
          refine ⟨rfl, _, ?_, .up host now last waited ended rfl hrounds
            (hends.next hreport nofun)⟩
          rw [past_of_reply? hreport, hpast, List.append_assoc]
          rfl
        | error reason =>
          refine Program.Fares.mono (fares_abandon hstops hremoves hwatches) ?_
          rintro later s' result ⟨rfl, found, done, hreleased, hover, rfl⟩
          refine ⟨rfl, _, ?_, .abandoned host now last waited ended reason found done rfl hrounds
            hends.of_error hover⟩
          rw [hreleased, hpast, List.append_assoc]

/-! ### What is exchanged -/

theorem MasterEnds.countP_isSpawn {deadline last : Number} {later : Scene} {ended : List Exchange}
    {result : Except Fault Unit} (h : MasterEnds host deadline last later ended result) :
    ended.countP Exchange.isSpawn ≤ 1 ∧
      (ended.countP Exchange.isSpawn ≠ 0 → last.gap deadline ≠ 0) := by
  cases h with
  | up check found done early gone accepts => exact ⟨Nat.le_refl 1, fun _ => early⟩
  | exited code early => exact ⟨Nat.zero_le 1, fun _ => early⟩
  | unchecked _ early => exact ⟨Nat.le_refl 1, fun _ => early⟩
  | expired overdue => exact ⟨Nat.zero_le 1, fun hlaunched => absurd rfl hlaunched⟩

/-- A master is launched, and checked 150 times at most, each time with a `spawn`. -/
theorem countP_isSpawn_le_of_rounds {now last : Number} {waited ended rest : List Exchange}
    (hrounds : Rounds (Unready host) (now.add (.ofNat readyTimeout)) now waited last)
    (hended : ended.countP Exchange.isSpawn ≤ 1 ∧
      (ended.countP Exchange.isSpawn ≠ 0 → last.gap (now.add (.ofNat readyTimeout)) ≠ 0))
    (hrest : rest.countP Exchange.isSpawn = 0)
    (hpaced : ∀ exchange ∈ opening systemTemp host now ++ (waited ++ ended) ++ rest,
      exchange.Paced) :
    (opening systemTemp host now ++ (waited ++ ended) ++ rest).countP Exchange.isSpawn
      ≤ 1 + 150 := by
  rw [List.forall_mem_append, List.forall_mem_append, List.forall_mem_append] at hpaced
  obtain ⟨⟨hopening, hwaited, -⟩, -⟩ := hpaced
  have hclock : Exchange.Paced ⟨.clock, now⟩ :=
    hopening _ (.tail _ (.tail _ (.head _)))
  have hchecks : (waited ++ ended).countP Exchange.isSpawn ≤ 150 :=
    count_le_of_rounds hclock hrounds (fun _ ⟨_, _, _, _⟩ => Nat.le_refl 1) (fun _ _ _ => rfl)
      hended.1 hended.2 hwaited
  have hmaster : (opening systemTemp host now).countP Exchange.isSpawn = 1 := rfl
  rw [List.countP_append, List.countP_append, hrest, hmaster]
  omega

theorem ConnectEnds.countP_isSpawn_le {later : Scene} {exchanges : List Exchange}
    {result : Except Fault OpenSsh} (h : ConnectEnds config systemTemp later exchanges result)
    (hpaced : ∀ exchange ∈ exchanges, exchange.Paced) :
    exchanges.countP Exchange.isSpawn ≤ 1 + 150 := by
  cases h with
  | unplaced fault => exact Nat.zero_le _
  | unlaunched path fault => exact Nat.le_add_right 1 150
  | up host now last waited ended known rounds ends =>
    exact countP_isSpawn_le_of_rounds rounds ends.countP_isSpawn rfl hpaced
  | abandoned host now last waited ended reason found done known rounds ends gone =>
    exact countP_isSpawn_le_of_rounds rounds ends.countP_isSpawn rfl hpaced

theorem Unanswered.countP_isSpawn_le {past exchanges : List Exchange}
    (h : Unanswered system config systemTemp past exchanges)
    (hpaced : ∀ exchange ∈ exchanges, exchange.Paced) :
    exchanges.countP Exchange.isSpawn ≤ 1 + 150 := by
  cases h with
  | mk host now last waited check known rounds early endless =>
    rw [← List.append_nil (opening systemTemp host now ++ _)] at hpaced ⊢
    exact countP_isSpawn_le_of_rounds rounds ⟨Nat.le_refl 1, fun _ => early⟩ rfl hpaced

/-- Nothing is released of a connection that came up: none of its exchanges `isRelease`. -/
theorem ConnectEnds.isRelease_eq_false {later : Scene} {exchanges : List Exchange}
    (h : ConnectEnds config systemTemp later exchanges (.ok host)) :
    ∀ exchange ∈ exchanges, exchange.isRelease = false := by
  cases h with
  | up _ now last waited ended known rounds ends =>
    have hwaited : ∀ exchange ∈ waited, exchange.isRelease = false := by
      refine rounds.forall_mem (fun asked hasked => ?_) fun _ _ _ => rfl
      obtain ⟨check, found, code, failed⟩ := hasked
      simp [asking, answering, Exchange.isRelease]
    have hended : ∀ exchange ∈ ended, exchange.isRelease = false := by
      cases ends with
      | up check found done early gone accepts => simp [asking, answering, Exchange.isRelease]
    simp only [List.forall_mem_append]
    refine ⟨⟨?_, hwaited, hended⟩, ?_⟩
    · simp [opening, Exchange.isRelease]
    · simp [Exchange.isRelease]

/-- **A connection leaves nothing behind once it has a master.** Whatever the master and its checks
do, where to stop the master by force and to remove the directory do not fail: a connection that
does not come up has stopped its master, seen its end and removed its directory, and is an error
whose cause is what went wrong, with what the master complained of; one that comes up was accepted
by a check that exited with success, and nothing was stopped or removed. Only a master that could
not be launched leaves its directory behind, and the fault of the launch is reported as it is. The
connection goes on for ever only with a check that never closes and leaves it `Unanswered`. With a
clock by which no pause is too short there is the launch of the master, and 150 checks at most. -/
theorem connect_leaves_nothing (hstops : system.Stops)
    (hremoves : ∀ past path, system.elsewhere past (.removeDirectory path) = .ok ())
    (config : Config) (systemTemp : String) (scene : Scene) (s : σ) :
    (∃ exchanges later result,
      (connect config systemTemp).outcome.attend system.reply? scene s
        = some (later, s, result) ∧
      later.past = scene.past ++ exchanges ∧
      ConnectEnds config systemTemp later exchanges result ∧
      (∀ host, result = .ok host → ∀ exchange ∈ exchanges, exchange.isRelease = false) ∧
      ((∀ exchange ∈ exchanges, exchange.Paced) →
        exchanges.countP Exchange.isSpawn ≤ 1 + 150)) ∨
    ((connect config systemTemp).outcome.attend system.reply? scene s = none ∧
      ∃ exchanges, Unanswered system config systemTemp scene.past exchanges ∧
        ((∀ exchange ∈ exchanges, exchange.Paced) →
          exchanges.countP Exchange.isSpawn ≤ 1 + 150)) := by
  have hfares : Attempt.Fares system.reply? scene (connect config systemTemp) s _ _ :=
    fares_connect hstops hremoves
  rcases hfares.ends_or_stuck with
    ⟨later, s', result, hattend, rfl, exchanges, hpast, hends⟩ | ⟨hattend, exchanges, hunanswered⟩
  · refine .inl ⟨exchanges, later, result, hattend, hpast, hends, ?_, hends.countP_isSpawn_le⟩
    rintro host rfl
    exact hends.isRelease_eq_false
  · exact .inr ⟨hattend, exchanges, hunanswered, hunanswered.countP_isSpawn_le⟩

/-- The master is not let in, and says so after the first check. -/
def unwelcome : System := .ofConduct fun past child =>
  if child = 0 ∧ past.length = 7 then
    [.errors (Text.encodeUtf8 "denied\n"), .exited (.nat 255), .closed]
  else []

/-- The directory of a master that is not let in is removed. -/
theorem unwelcome_master_abandoned : unwelcome.Stops ∧
    (∀ past path, unwelcome.elsewhere past (.removeDirectory path) = .ok ()) ∧
    ∃ exchanges later fault,
      (connect { host := some (.string "h") } "/tmp").outcome.attend unwelcome.reply? Scene.initial
        () = some (later, (), .error fault) ∧
      fault.message = "Failed to connect to h: ssh master exited with code 255 (denied)" ∧
      later.past = exchanges ∧
      ConnectEnds { host := some (.string "h") } "/tmp" later exchanges (.error fault) ∧
      ((∀ exchange ∈ exchanges, exchange.Paced) →
        exchanges.countP Exchange.isSpawn ≤ 1 + 150) := by
  have hstops : unwelcome.Stops := System.stops_ofConduct _
  have hmessage : ((connect { host := some (.string "h") } "/tmp").outcome.attend unwelcome.reply?
      Scene.initial ()).map (fun left => match left.2.2 with
        | .error fault => fault.message
        | .ok _ => "")
      = some "Failed to connect to h: ssh master exited with code 255 (denied)" := by
    decide +kernel
  refine ⟨hstops, fun _ _ => rfl, ?_⟩
  rcases connect_leaves_nothing hstops (fun _ _ => rfl) { host := some (.string "h") } "/tmp"
    Scene.initial () with
    ⟨exchanges, later, result, hattend, hpast, hends, -, hcount⟩ | ⟨hattend, -⟩
  · rw [hattend] at hmessage
    cases result with
    | ok host =>
      have hnothing : "" = "Failed to connect to h: ssh master exited with code 255 (denied)" :=
        Option.some.inj hmessage
      exact absurd hnothing (by decide)
    | error fault =>
      exact ⟨exchanges, later, fault, hattend, Option.some.inj hmessage, hpast, hends, hcount⟩
  · rw [hattend] at hmessage
    exact absurd hmessage nofun

/-- Nothing can be launched. -/
def exhausted : System :=
  { System.ofConduct fun _ _ => [] with
    launch := fun _ _ => .error (.ofMessage "spawn ssh EAGAIN") }

/-- The directory of a master that cannot be launched is made and never removed, and the failure is
the fault of the launch, which has no cause. -/
theorem directory_left_by_unlaunched_master : exhausted.Stops ∧
    (∀ past path, exhausted.elsewhere past (.removeDirectory path) = .ok ()) ∧
    ∃ path later,
      (connect { host := some (.string "h") } "/tmp").outcome.attend exhausted.reply? Scene.initial
        () = some (later, (), .error (.ofMessage "spawn ssh EAGAIN")) ∧
      ⟨.makeDirectory path, .ok path⟩ ∈ later.past ∧
      (∀ exchange ∈ later.past, exchange.isRelease = false) ∧
      ∀ message cause, Fault.ofMessage "spawn ssh EAGAIN" ≠ .error message none (some cause) := by
  have hstops : exhausted.Stops :=
    ⟨fun _ _ => rfl, fun _ _ _ => List.mem_singleton.2 rfl⟩
  refine ⟨hstops, fun _ _ => rfl, _, _, rfl, .head _, ?_, fun message cause hsame => ?_⟩
  · decide +kernel
  · exact absurd (Fault.error.inj hsame).2.2 nofun

end Outpost.OpenSsh

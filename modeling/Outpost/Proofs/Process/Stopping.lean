import Outpost.Process.Channel
import Outpost.Proofs.Process.Expiry
import Outpost.Proofs.Run

/-!
# Stopping a process on a channel

A process on a channel is asked to stop at any time and by anybody, before its channel is there and
behind that, and the channel may be refused. `Tracks` says what a process knows of all this: whether
it is closed, its channel, and the request to stop that waits for the channel. One move after
another keeps it (`Tracks.step`), whatever the order.

Only one request is remembered, and it is the latest (`orders_over_life`): a request to stop at once
is forgotten if the process is then asked to stop gently before its channel opens
(`kill_forgotten_before_opening`). An open channel is told of every request.

## Contents

* `Move`, `Move.attempt`; `hasEnded`, `opened?`, `latest?`: what moves amount to.
* `orders`, `Carries`: what a channel is told to stop its process.
* `run_stop_iff_of_closed`, `run_stop_iff_of_unopened`, `run_stop_iff_of_open`,
  `run_attach_iff_of_alive`: what stopping and opening come to.
* `Tracks`, `Tracks.step`; `Life`, `Life.tracks_before`.
* `orders_over_life`.
-/

namespace Outpost

namespace Channel

/-! ## Moves -/

/-- Something that happens to a process on a `Channel`. -/
inductive Move where
  /-- The process is asked to stop by a `Signal`. -/
  | stop (signal : Signal)
  /-- Its channel is there. -/
  | opens (channel : Nat)
  /-- Something is reported of the channel, or that there will be none. -/
  | reports (event : Event)
  /-- Somebody takes a turn at its output. -/
  | turns (turn : Buffer.Turn)

/-- The way to stop a process with a `Signal`. -/
def stop : Signal → Attempt Channel interface Unit
  | .terminate => terminate
  | .kill => kill

/-- What a `Move` does, as an attempt on the `Channel`. -/
def Move.attempt (argv : List Json) : Move → Attempt Channel interface Unit
  | .stop signal => Channel.stop signal
  | .opens channel => attach channel
  | .reports event => modify fun process =>
      { process with buffer := event.stimuli.foldl Buffer.apply process.buffer }
  | .turns turn => modify fun process =>
      { process with buffer := (process.buffer.take none argv turn).1 }

/-- Whether the process is closed with a `Move`. -/
def Move.ends : Move → Bool
  | .reports .closed | .reports (.refused _) => true
  | .turns turn => turn.closes
  | _ => false

/-- How a `Move` asks the process to stop. -/
def Move.signal? : Move → Option Signal
  | .stop signal => some signal
  | _ => none

/-- The channel that comes with a `Move`. -/
def Move.channel? : Move → Option Nat
  | .opens channel => some channel
  | _ => none

section Moves

variable (moves : List Move)

/-- Whether the process is closed after the `moves`. -/
def hasEnded : Bool := moves.any Move.ends

/-- The channel that is open after the `moves`. -/
def opened? : Option Nat := (moves.filterMap Move.channel?).getLast?

/-- How the process was last asked to stop in the `moves`. -/
def latest? : Option Signal := (moves.filterMap Move.signal?).getLast?

end Moves

/-! ## What a channel is told -/

/-- The first thing that a channel is told to stop its process, for a `Signal`. -/
def firstOrder (channel : Nat) : Signal → Request
  | .terminate => .endInput channel
  | .kill => .signal channel .kill

/-- The other thing that it is told, for a `Signal`. -/
def lastOrder (channel : Nat) : Signal → Request
  | .terminate => .signal channel .terminate
  | .kill => .close channel

/-- What a channel is told to stop its process: the `firstOrder` and the `lastOrder`. -/
def orders (channel : Nat) (signal : Signal) : List Request :=
  [firstOrder channel signal, lastOrder channel signal]

/-- An exchange with a channel. -/
abbrev Exchange : Type := Program.Exchange interface

/-- Requests are made one after another, up to the first one that fails. -/
inductive Carries : List Request → List Exchange → Except Fault Unit → Prop
  | nil : Carries [] [] (.ok ())
  | failed {request : Request} {rest : List Request} {fault : Fault} :
      Carries (request :: rest) [⟨request, .error fault⟩] (.error fault)
  | cons {request : Request} {rest : List Request} {exchanges : List Exchange}
      {result : Except Fault Unit} :
      Carries rest exchanges result →
      Carries (request :: rest) (⟨request, .ok ()⟩ :: exchanges) result

theorem carries_nil_iff {exchanges : List Exchange} {result : Except Fault Unit} :
    Carries [] exchanges result ↔ exchanges = [] ∧ result = .ok () := by
  constructor
  · rintro ⟨⟩
    exact ⟨rfl, rfl⟩
  · rintro ⟨rfl, rfl⟩
    exact .nil

theorem carries_cons_iff {request : Request} {rest : List Request} {exchanges : List Exchange}
    {result : Except Fault Unit} :
    Carries (request :: rest) exchanges result ↔
      (∃ fault, exchanges = [⟨request, .error fault⟩] ∧ result = .error fault) ∨
        ∃ more, exchanges = ⟨request, .ok ()⟩ :: more ∧ Carries rest more result := by
  constructor
  · intro h
    cases h with
    | failed => exact .inl ⟨_, rfl, rfl⟩
    | cons hrest => exact .inr ⟨_, rfl, hrest⟩
  · rintro (⟨fault, rfl, rfl⟩ | ⟨more, rfl, hrest⟩)
    · exact .failed
    · exact .cons hrest

section Runs

variable {process after : Channel} {channel : Nat} {signal : Signal} {exchanges : List Exchange}
  {result : Except Fault Unit}

/-- The program of one request of a channel. -/
def tellOf (request : Request) : Attempt Channel interface Unit := ExceptT.mk (.ask request .done)

/-- However a process is asked to `stop`, it goes the same way. -/
theorem stop_eq (signal : Signal) : stop signal = (do
    let process ← get
    if process.buffer.closed then return
    match process.channel with
    | none => set { process with pending := some signal }
    | some channel =>
      tellOf (firstOrder channel signal)
      tellOf (lastOrder channel signal)) := by
  cases signal <;> rfl

/-- Two requests in a row are carried out as far as they go, as `Carries` says. -/
theorem run_both_iff {first second : Request} :
    Attempt.Run (do tellOf first; tellOf second) process exchanges after result ↔
      after = process ∧ Carries [first, second] exchanges result := by
  have hone {request : Request} {asked : List Exchange} {mid : Channel}
      {ending : Except Fault Unit} :
      Attempt.Run (tellOf request) process asked mid ending ↔
        asked = [⟨request, ending⟩] ∧ mid = process := Program.run_request_iff
  rw [Attempt.run_bind_iff]
  simp only [carries_cons_iff, carries_nil_iff]
  constructor
  · rintro (⟨fault, hfirst, rfl⟩ | ⟨mid, ⟨⟩, asked, more, hfirst, hsecond, rfl⟩)
    · obtain ⟨rfl, rfl⟩ := hone.1 hfirst
      exact ⟨rfl, .inl ⟨fault, rfl, rfl⟩⟩
    · obtain ⟨rfl, rfl⟩ := hone.1 hfirst
      obtain ⟨rfl, rfl⟩ := hone.1 hsecond
      refine ⟨rfl, .inr ⟨_, rfl, ?_⟩⟩
      cases result with
      | ok => exact .inr ⟨[], rfl, rfl, rfl⟩
      | error fault => exact .inl ⟨fault, rfl, rfl⟩
  · rintro ⟨rfl, ⟨fault, rfl, rfl⟩ | ⟨more, rfl, hmore⟩⟩
    · exact .inl ⟨fault, hone.2 ⟨rfl, rfl⟩, rfl⟩
    · refine .inr ⟨_, (), _, more, hone.2 ⟨rfl, rfl⟩, ?_, rfl⟩
      rcases hmore with ⟨fault, rfl, rfl⟩ | ⟨_, rfl, rfl, rfl⟩ <;> exact hone.2 ⟨rfl, rfl⟩

/-- A process whose buffer is `closed` is left alone. -/
theorem run_stop_iff_of_closed (hclosed : process.buffer.closed = true) :
    Attempt.Run (stop signal) process exchanges after result ↔
      after = process ∧ exchanges = [] ∧ result = .ok () := by
  rw [stop_eq, Attempt.run_get_bind_iff, if_pos hclosed, Attempt.run_pure_iff, and_left_comm]

/-- A process whose channel is not there yet remembers the request as `pending`. -/
theorem run_stop_iff_of_unopened (halive : process.buffer.closed = false)
    (hchannel : process.channel = none) :
    Attempt.Run (stop signal) process exchanges after result ↔
      after = { process with pending := some signal } ∧ exchanges = [] ∧ result = .ok () := by
  rw [stop_eq, Attempt.run_get_bind_iff, if_neg (Bool.eq_false_iff.1 halive), hchannel]
  exact (Program.run_write_iff.trans Program.run_done_iff).trans and_left_comm

/-- An open `channel` is told the `orders`. -/
theorem run_stop_iff_of_open (halive : process.buffer.closed = false)
    (hchannel : process.channel = some channel) :
    Attempt.Run (stop signal) process exchanges after result ↔
      after = process ∧ Carries (orders channel signal) exchanges result := by
  rw [stop_eq, Attempt.run_get_bind_iff, if_neg (Bool.eq_false_iff.1 halive), hchannel]
  exact run_both_iff

/-- A channel that opens is used by `attach` to stop its process as it was remembered. -/
theorem run_attach_iff : Attempt.Run (attach channel) process exchanges after result ↔
    Attempt.Run (process.pending.elim (pure ()) stop)
      { process with channel := some channel, pending := none } exchanges after result := by
  have hattach : attach channel = (do
      let process ← get
      set { process with channel := some channel, pending := none }
      process.pending.elim (pure ()) stop) := by
    rw [attach]
    congr 1
    funext process
    cases process.pending with
    | none => rfl
    | some signal => cases signal <;> rfl
  rw [hattach, Attempt.run_get_bind_iff, Attempt.run_set_bind_iff]

theorem run_attach_iff_of_closed (hclosed : process.buffer.closed = true) :
    Attempt.Run (attach channel) process exchanges after result ↔
      after = { process with channel := some channel, pending := none } ∧
        exchanges = [] ∧ result = .ok () := by
  rw [run_attach_iff]
  cases process.pending with
  | none => exact Attempt.run_pure_iff.trans and_left_comm
  | some signal => exact run_stop_iff_of_closed hclosed

theorem run_attach_iff_of_alive (halive : process.buffer.closed = false) :
    Attempt.Run (attach channel) process exchanges after result ↔
      after = { process with channel := some channel, pending := none } ∧
        Carries (process.pending.elim [] (orders channel)) exchanges result := by
  rw [run_attach_iff]
  cases process.pending with
  | none =>
    refine (Attempt.run_pure_iff.trans and_left_comm).trans ?_
    exact and_congr_right fun _ => carries_nil_iff.symm
  | some signal => exact run_stop_iff_of_open halive rfl

end Runs

/-! ## What a process knows -/

/-- What a process knows of the `moves` that there were. -/
structure Tracks (moves : List Move) (process : Channel) : Prop where
  closed : process.buffer.closed = hasEnded moves
  channel : process.channel = opened? moves
  /-- As long as there is no channel, the latest request is remembered. -/
  pending : hasEnded moves = false → opened? moves = none → process.pending = latest? moves

theorem tracks_nil : Tracks [] {} := ⟨rfl, rfl, fun _ _ => rfl⟩

section Tracking

variable {moves : List Move} {move : Move} {argv : List Json} {process after : Channel}
  {exchanges : List Exchange} {result : Except Fault Unit}

theorem hasEnded_append (moves : List Move) (move : Move) :
    hasEnded (moves ++ [move]) = (hasEnded moves || move.ends) := by
  rw [hasEnded, hasEnded, List.any_append, List.any_cons, List.any_nil, Bool.or_false]

theorem opened?_append (moves : List Move) (move : Move) :
    opened? (moves ++ [move]) = move.channel?.or (opened? moves) := by
  rw [opened?, List.filterMap_append, List.filterMap_cons]
  cases move.channel? with
  | none => simp [opened?]
  | some channel => simp

theorem latest?_append (moves : List Move) (move : Move) :
    latest? (moves ++ [move]) = move.signal?.or (latest? moves) := by
  rw [latest?, List.filterMap_append, List.filterMap_cons]
  cases move.signal? with
  | none => simp [latest?]
  | some signal => simp

/-- Only the end of a process closes its `Buffer`. -/
theorem closed_foldl_stimuli (event : Event) (b : Buffer) :
    (event.stimuli.foldl Buffer.apply b).closed = (b.closed || (Move.reports event).ends) := by
  have happly (b : Buffer) (stimulus : Stimulus) :
      (b.apply stimulus).closed = (b.closed || (Buffer.Turn.arrives stimulus).closes) :=
    @Buffer.closed_take none [] b (.arrives stimulus)
  cases event <;> simp [Event.stimuli, happly, Buffer.Turn.closes, Move.ends]

/-- What is neither a request nor a channel leaves everything as it was, but for the end of the
process: it still `Tracks` the moves. -/
theorem Tracks.onward (h : Tracks moves process) (hsignal : move.signal? = none)
    (hchannel : move.channel? = none) (b : Buffer)
    (hclosed : b.closed = (process.buffer.closed || move.ends)) :
    Tracks (moves ++ [move]) { process with buffer := b } where
  closed := by rw [hasEnded_append, ← h.closed, hclosed]
  channel := by rw [opened?_append, hchannel, h.channel, Option.none_or]
  pending halive hunopened := by
    rw [hasEnded_append, Bool.or_eq_false_iff] at halive
    rw [opened?_append, hchannel, Option.none_or] at hunopened
    rw [latest?_append, hsignal, Option.none_or]
    exact h.pending halive.1 hunopened

theorem Tracks.stop {signal : Signal} (h : Tracks moves process)
    (hrun : Attempt.Run (Channel.stop signal) process exchanges after result) :
    Tracks (moves ++ [.stop signal]) after := by
  have hended : hasEnded (moves ++ [.stop signal]) = hasEnded moves :=
    (hasEnded_append moves _).trans (Bool.or_false _)
  have hopened : opened? (moves ++ [.stop signal]) = opened? moves := opened?_append moves _
  have hlatest : latest? (moves ++ [.stop signal]) = some signal := latest?_append moves _
  cases hclosed : process.buffer.closed with
  | true =>
    obtain ⟨rfl, -⟩ := (run_stop_iff_of_closed hclosed).1 hrun
    refine ⟨hended ▸ h.closed, hopened ▸ h.channel, fun halive => ?_⟩
    rw [hended, ← h.closed, hclosed] at halive
    exact absurd halive nofun
  | false =>
    cases hchannel : process.channel with
    | none =>
      obtain ⟨rfl, -⟩ := (run_stop_iff_of_unopened hclosed hchannel).1 hrun
      exact ⟨hended ▸ h.closed, hopened ▸ h.channel, fun _ _ => hlatest.symm⟩
    | some channel =>
      obtain ⟨rfl, -⟩ := (run_stop_iff_of_open hclosed hchannel).1 hrun
      refine ⟨hended ▸ h.closed, hopened ▸ h.channel, fun _ hunopened => ?_⟩
      rw [hopened, ← h.channel, hchannel] at hunopened
      exact absurd hunopened nofun

theorem Tracks.attach {channel : Nat} (h : Tracks moves process)
    (hrun : Attempt.Run (Channel.attach channel) process exchanges after result) :
    Tracks (moves ++ [.opens channel]) after := by
  have hafter : after = { process with channel := some channel, pending := none } := by
    cases hclosed : process.buffer.closed with
    | true => exact ((run_attach_iff_of_closed hclosed).1 hrun).1
    | false => exact ((run_attach_iff_of_alive hclosed).1 hrun).1
  subst hafter
  have hended : hasEnded (moves ++ [.opens channel]) = hasEnded moves :=
    (hasEnded_append moves _).trans (Bool.or_false _)
  have hopened : opened? (moves ++ [.opens channel]) = some channel := opened?_append moves _
  exact ⟨hended ▸ h.closed, hopened.symm,
    fun _ hunopened => absurd (hopened.symm.trans hunopened) nofun⟩

/-- A process that `Tracks` some moves tracks one more. -/
theorem Tracks.step (h : Tracks moves process)
    (hrun : Attempt.Run (move.attempt argv) process exchanges after result) :
    Tracks (moves ++ [move]) after := by
  cases move with
  | stop signal => exact h.stop hrun
  | opens channel => exact h.attach hrun
  | reports event =>
    obtain ⟨-, rfl, -⟩ := Attempt.run_modify_iff.1 hrun
    exact h.onward rfl rfl _ (closed_foldl_stimuli event process.buffer)
  | turns turn =>
    obtain ⟨-, rfl, -⟩ := Attempt.run_modify_iff.1 hrun
    exact h.onward rfl rfl _ (Buffer.closed_take process.buffer turn)

end Tracking

/-! ## Lives -/

/-- A `Move` that was made, with all that came of it. -/
structure Moment where
  move : Move
  exchanges : List Exchange
  /-- The process after the move. -/
  after : Channel
  result : Except Fault Unit

/-- What was asked for with a move, as its `exchanges` show. -/
def Moment.requests (moment : Moment) : List Request :=
  moment.exchanges.map fun exchange => exchange.request

/-- The moves of a process, each a `Moment`, from one state of it to another. -/
inductive Life (argv : List Json) : Channel → List Moment → Channel → Prop
  | nil (process : Channel) : Life argv process [] process
  | cons {process last : Channel} {moment : Moment} {moments : List Moment} :
      Attempt.Run (moment.move.attempt argv) process moment.exchanges moment.after moment.result →
      Life argv moment.after moments last → Life argv process (moment :: moments) last

section Lives

variable {argv : List Json} {process last : Channel} {moves : List Move} {moment : Moment}
  {before moments : List Moment}

/-- At every moment of a `Life` the process `Tracks` the moves before it. -/
theorem Life.tracks_before (h : Life argv process (before ++ moment :: moments) last)
    (htracks : Tracks moves process) :
    ∃ mid, Tracks (moves ++ before.map Moment.move) mid ∧
      Attempt.Run (moment.move.attempt argv) mid moment.exchanges moment.after moment.result := by
  induction before generalizing process moves with
  | nil =>
    cases h with
    | cons hrun _ => exact ⟨process, by simpa using htracks, hrun⟩
  | cons first before ih =>
    cases h with
    | cons hrun hrest =>
      obtain ⟨mid, hmid, hmoment⟩ := ih hrest (htracks.step hrun)
      exact ⟨mid, by simpa using hmid, hmoment⟩

/-- A process that is asked to stop twice before its channel opens, and a channel that does as it is
told. -/
def obeyed (first second : Signal) : List Moment :=
  [⟨.stop first, [], { pending := some first }, .ok ()⟩,
    ⟨.stop second, [], { pending := some second }, .ok ()⟩,
    ⟨.opens 0, (orders 0 second).map fun request => ⟨request, .ok ()⟩, { channel := some 0 },
      .ok ()⟩]

theorem life_obeyed (first second : Signal) :
    Life argv {} (obeyed first second) { channel := some 0 } := by
  refine .cons ?_ (.cons ?_ (.cons ?_ (.nil _)))
  · exact (run_stop_iff_of_unopened rfl rfl).2 ⟨rfl, rfl, rfl⟩
  · exact (run_stop_iff_of_unopened rfl rfl).2 ⟨rfl, rfl, rfl⟩
  · exact (run_attach_iff_of_alive rfl).2 ⟨rfl, .cons (.cons .nil)⟩

/-- **What a channel is told.** Over every `Life` of a process, whenever it is asked to stop, and
whatever else happens before: when its channel opens, it is told the `orders` of the latest request,
or nothing if there was none, however many there were; until then nobody is told anything; an open
channel is told of every request; and nothing is told to anybody once the process is closed, even if
it never had a channel. What a channel is told it is told in this order, up to the first request
that fails. -/
theorem orders_over_life (hlife : Life argv {} (before ++ moment :: moments) last) :
    (hasEnded (before.map Moment.move) = true → moment.exchanges = []) ∧
    (hasEnded (before.map Moment.move) = false →
      (∀ channel, moment.move = .opens channel → opened? (before.map Moment.move) = none →
        Carries ((latest? (before.map Moment.move)).elim [] (orders channel)) moment.exchanges
          moment.result) ∧
      ∀ signal, moment.move = .stop signal →
        Carries ((opened? (before.map Moment.move)).elim [] fun channel => orders channel signal)
          moment.exchanges moment.result) := by
  obtain ⟨mid, htracks, hrun⟩ := hlife.tracks_before tracks_nil
  rw [List.nil_append] at htracks
  obtain ⟨move, exchanges, after, result⟩ := moment
  rw [← htracks.closed, ← htracks.channel]
  refine ⟨fun hclosed => ?_, fun halive => ⟨?_, ?_⟩⟩
  · cases move with
    | stop signal => exact ((run_stop_iff_of_closed hclosed).1 hrun).2.1
    | opens channel => exact ((run_attach_iff_of_closed hclosed).1 hrun).2.1
    | reports | turns => exact (Attempt.run_modify_iff.1 hrun).1
  · rintro channel rfl hunopened
    rw [← htracks.pending (htracks.closed ▸ halive) (htracks.channel ▸ hunopened)]
    exact ((run_attach_iff_of_alive halive).1 hrun).2
  · rintro signal rfl
    cases hchannel : mid.channel with
    | none =>
      obtain ⟨-, rfl, rfl⟩ := (run_stop_iff_of_unopened halive hchannel).1 hrun
      exact .nil
    | some channel => exact ((run_stop_iff_of_open halive hchannel).1 hrun).2

/-- Who asks twice is heard once. -/
theorem stopped_once_on_opening : ∃ before moment last,
    Life [] {} (before ++ [moment]) last ∧
    before.map Moment.move = [.stop .terminate, .stop .terminate] ∧ moment.move = .opens 0 ∧
    Carries [.endInput 0, .signal 0 .terminate] moment.exchanges moment.result := by
  have hlife : Life [] {} ((obeyed .terminate .terminate).take 2
      ++ (obeyed .terminate .terminate)[2] :: []) { channel := some 0 } := life_obeyed _ _
  exact ⟨_, _, _, hlife, rfl, rfl, ((orders_over_life hlife).2 rfl).1 0 rfl rfl⟩

/-- A process that is to be stopped at once by `kill`, and then asked to stop while its channel is
not there yet, is only asked to stop. -/
theorem kill_forgotten_before_opening : ∃ moments last,
    Life [] {} moments last ∧
    moments.map Moment.move = [.stop .kill, .stop .terminate, .opens 0] ∧
    (∀ moment ∈ moments, moment.result = .ok ()) ∧
    moments.flatMap Moment.requests = [.endInput 0, .signal 0 .terminate] ∧
    .signal 0 .kill ∉ moments.flatMap Moment.requests := by
  have hasked : (obeyed .kill .terminate).flatMap Moment.requests
      = [.endInput 0, .signal 0 .terminate] := rfl
  refine ⟨obeyed .kill .terminate, _, life_obeyed _ _, rfl, ?_, hasked, ?_⟩
  · simp [obeyed]
  · rw [hasked]
    simp

end Lives

end Channel

end Outpost

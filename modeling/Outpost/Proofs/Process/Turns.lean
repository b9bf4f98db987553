import Outpost.Proofs.Process.Readers

/-!
# Turn by turn

A buffer together with those who wait at it, one turn after another: something arrives, one reader
or one collector looks whether its wait is over, or the limit of a collector's wait runs out. Who
looks when is left to the turns, so a list of them is one of all the ways in which the calls of a
process can go. Whoever looks too early goes on waiting, and whoever is not waiting finds nothing.

Serving everybody is a turn of each of them, in the order in which they wait
(`live_everybody`).

## Contents

* `Buffer.Turn`, `Buffer.Told`: a turn, and what is told with it. `Buffer.Told.ending?`: what a
  collector is told, apart from output.
* `Buffer.take`, `Buffer.live`: what one turn leads to, and what any number of them do.
* `Buffer.live_everybody`: turns for everybody who waits.
* `Buffer.readers_of_live`: every reader who comes is told something or waits.
-/

namespace Outpost

namespace Buffer

/-! ## Turns -/

/-- What happens to a `Buffer`, or what one of those does who wait at it. -/
inductive Turn where
  | arrives (stimulus : Stimulus)
  /-- A reader looks by `takeLine?` for a line. -/
  | reads (ticket : Nat)
  /-- A collector looks whether the process is closed. -/
  | collects (ticket : Nat)
  /-- The limit of a collector's wait runs out. -/
  | expires (ticket : Nat) (limit : Timeout)

/-- The reader that a `Turn` brings. -/
def Turn.reader? : Turn → Option Nat
  | .arrives stimulus => stimulus.reader?
  | _ => none

/-- What somebody is told whose wait is over, by a `ticket`. -/
abbrev Told : Type := Nat × Except Fault Answer

/-- The reader among those who are `Told` something. -/
def Told.reader? : Told → Option Nat
  | (ticket, .ok (.line _)) => some ticket
  | _ => none

/-- How the wait of a collector ended, whatever it was `Told` of the output. -/
def Told.ending? : Told → Option (Nat × Except Fault Unit)
  | (ticket, .ok (.output _)) => some (ticket, .ok ())
  | (ticket, .error fault) => some (ticket, .error fault)
  | (_, .ok (.line _)) => none

/-- Answers of `serve` are told as they are. -/
def answered (answers : List (Nat × Answer)) : List Told :=
  answers.map fun told => (told.1, .ok told.2)

section Turns

variable (pid : Option Json) (argv : List Json)

/-- What a `Turn` leads to. -/
def take (b : Buffer) : Turn → Buffer × List Told
  | .arrives stimulus => (b.apply stimulus, [])
  | .reads ticket =>
    if ticket ∈ b.readers then
      match b.takeLine? with
      | some (line, next) =>
        ({ next with readers := b.readers.erase ticket }, answered [told ticket line])
      | none =>
        if b.ended then
          ({ b with readers := b.readers.erase ticket }, answered [missed ticket])
        else (b, [])
    else (b, [])
  | .collects ticket =>
    if ticket ∈ b.collectors ∧ b.closed = true then
      ({ b.collect.2 with collectors := b.collectors.erase ticket },
        answered [(ticket, .output b.collect.1)])
    else (b, [])
  | .expires ticket limit =>
    if ticket ∈ b.collectors ∧ b.closed = false then
      (b.apply (.giveUp ticket), [(ticket, .error (overdue pid argv limit))])
    else (b, [])

/-- What turns lead to, one `take` after another. -/
def live (b : Buffer) : List Turn → Buffer × List Told
  | [] => (b, [])
  | turn :: turns =>
    let (mid, first) := b.take pid argv turn
    let (last, later) := mid.live turns
    (last, first ++ later)

variable {pid argv} {b next : Buffer} {ticket : Nat}

theorem live_cons (turn : Turn) (turns : List Turn) :
    b.live pid argv (turn :: turns)
      = (((b.take pid argv turn).1.live pid argv turns).1,
        (b.take pid argv turn).2 ++ ((b.take pid argv turn).1.live pid argv turns).2) := rfl

/-- With a stimulus nobody is told anything yet: it is only one `apply`. -/
theorem live_arrives (stimulus : Stimulus) (turns : List Turn) :
    b.live pid argv (.arrives stimulus :: turns) = (b.apply stimulus).live pid argv turns := rfl

theorem live_append (turns more : List Turn) :
    b.live pid argv (turns ++ more)
      = (((b.live pid argv turns).1.live pid argv more).1,
        (b.live pid argv turns).2 ++ ((b.live pid argv turns).1.live pid argv more).2) := by
  induction turns generalizing b with
  | nil => rfl
  | cons turn turns ih =>
    rw [List.cons_append, live_cons, ih, live_cons, List.append_assoc]

/-- Turns that lead to nothing one by one lead to nothing. -/
theorem live_of_still {turns : List Turn}
    (h : ∀ turn ∈ turns, b.take pid argv turn = (b, [])) : b.live pid argv turns = (b, []) := by
  induction turns with
  | nil => rfl
  | cons turn turns ih =>
    obtain ⟨hturn, hturns⟩ := List.forall_mem_cons.1 h
    rw [live_cons, hturn]
    dsimp only
    rw [ih hturns, List.nil_append]

/-! ### One turn -/

/-- Whoever is not waiting finds nothing by a `take`. -/
theorem take_reads_of_absent (hmem : ticket ∉ b.readers) :
    b.take pid argv (.reads ticket) = (b, []) :=
  if_neg hmem

/-- A reader that finds a line takes it, by `takeLine?`. -/
theorem take_reads_of_line {line : Bytes} (hmem : ticket ∈ b.readers)
    (hline : b.takeLine? = some (line, next)) :
    b.take pid argv (.reads ticket)
      = ({ next with readers := b.readers.erase ticket }, answered [told ticket line]) := by
  rw [take, if_pos hmem, hline]

/-- A reader that finds no line once the output has `ended` is told so. -/
theorem take_reads_of_dry (hmem : ticket ∈ b.readers) (hdry : b.takeLine? = none)
    (hended : b.ended = true) :
    b.take pid argv (.reads ticket)
      = ({ b with readers := b.readers.erase ticket }, answered [missed ticket]) := by
  rw [take, if_pos hmem, hdry]
  exact if_pos hended

/-- Before the end a reader without a line goes on waiting. -/
theorem take_reads_of_blocked (hdry : b.takeLine? = none) (hended : b.ended = false) :
    b.take pid argv (.reads ticket) = (b, []) := by
  by_cases hmem : ticket ∈ b.readers
  · rw [take, if_pos hmem, hdry]
    exact if_neg (ne_true_of_eq_false hended)
  · exact take_reads_of_absent hmem

/-- A collector of a process that is `closed` gets everything. -/
theorem take_collects_of_closed (hmem : ticket ∈ b.collectors) (hclosed : b.closed = true) :
    b.take pid argv (.collects ticket)
      = ({ b.collect.2 with collectors := b.collectors.erase ticket },
        answered [(ticket, .output b.collect.1)]) :=
  if_pos ⟨hmem, hclosed⟩

/-- Until then a collector goes on waiting. -/
theorem take_collects_of_open (hopen : b.closed = false) :
    b.take pid argv (.collects ticket) = (b, []) :=
  if_neg fun h => ne_true_of_eq_false hopen h.2

/-- What a reader does by `reads` is nothing to a collector. -/
theorem take_reads_aside (b : Buffer) (ticket : Nat) :
    (b.take pid argv (.reads ticket)).1.exitCode = b.exitCode ∧
      (b.take pid argv (.reads ticket)).1.closed = b.closed ∧
      (b.take pid argv (.reads ticket)).1.collectors = b.collectors ∧
      (b.take pid argv (.reads ticket)).2.filterMap Told.ending? = [] := by
  by_cases hmem : ticket ∈ b.readers
  · cases htake : b.takeLine? with
    | some found =>
      obtain ⟨line, next⟩ := found
      rw [take_reads_of_line hmem htake]
      obtain ⟨-, rfl⟩ := eq_of_takeLine? htake
      exact ⟨rfl, rfl, rfl, rfl⟩
    | none =>
      cases hended : b.ended with
      | true =>
        rw [take_reads_of_dry hmem htake hended]
        exact ⟨rfl, rfl, rfl, rfl⟩
      | false =>
        rw [take_reads_of_blocked htake hended]
        exact ⟨rfl, rfl, rfl, rfl⟩
  · rw [take_reads_of_absent hmem]
    exact ⟨rfl, rfl, rfl, rfl⟩

/-! ### Everybody -/

/-- A `Turn` for each of those who wait, readers before collectors. -/
def everybody (b : Buffer) : List Turn := b.readers.map .reads ++ b.collectors.map .collects

/-- Readers look one after another and are served as by `serveReaders`. -/
theorem live_reads (tickets : List Nat) (b : Buffer) :
    live pid argv { b with readers := tickets } (tickets.map .reads)
      = ((serveReaders tickets b).1, answered (serveReaders tickets b).2) := by
  induction tickets generalizing b with
  | nil => rfl
  | cons ticket tickets ih =>
    have hfirst : ticket ∈ ({ b with readers := ticket :: tickets } : Buffer).readers :=
      List.mem_cons_self
    have hrest :
        ({ b with readers := ticket :: tickets } : Buffer).readers.erase ticket = tickets :=
      List.erase_cons_head ..
    have hfound := takeLine?_readers b (ticket :: tickets)
    rw [List.map_cons, live_cons]
    cases htake : b.takeLine? with
    | some found =>
      obtain ⟨line, next⟩ := found
      rw [htake] at hfound
      rw [take_reads_of_line hfirst hfound, hrest, serveReaders_of_line htake]
      dsimp only
      rw [ih next]
      rfl
    | none =>
      rw [htake] at hfound
      by_cases hended : b.ended = true
      · rw [take_reads_of_dry hfirst hfound hended, hrest]
        dsimp only
        rw [ih b, serveReaders_of_dry htake hended, serveReaders_of_dry htake hended]
        rfl
      · have hneg := eq_false_of_ne_true hended
        rw [serveReaders_of_blocked htake hneg, take_reads_of_blocked hfound hneg]
        refine live_of_still fun turn hturn => ?_
        obtain ⟨other, -, rfl⟩ := List.mem_map.1 hturn
        exact take_reads_of_blocked hfound hneg

/-- So do collectors, as by `serveCollectors`, once the process is closed. -/
theorem live_collects (tickets : List Nat) {b : Buffer} (hclosed : b.closed = true) :
    live pid argv { b with collectors := tickets } (tickets.map .collects)
      = ((serveCollectors tickets b).1, answered (serveCollectors tickets b).2) := by
  induction tickets generalizing b with
  | nil => rfl
  | cons ticket tickets ih =>
    have hfirst : ticket ∈ ({ b with collectors := ticket :: tickets } : Buffer).collectors :=
      List.mem_cons_self
    have hrest : ({ b with collectors := ticket :: tickets } : Buffer).collectors.erase ticket
        = tickets := List.erase_cons_head ..
    have htake : take pid argv { b with collectors := ticket :: tickets } (.collects ticket)
        = ({ b.collect.2 with collectors := tickets },
          answered [(ticket, .output b.collect.1)]) := by
      rw [take_collects_of_closed hfirst hclosed, hrest]
      rfl
    have hstill : b.collect.2.closed = true := hclosed
    rw [List.map_cons, live_cons, htake]
    dsimp only
    rw [ih hstill]
    rfl

/-- Readers have nothing to do with who collects, nor with the end of the process. -/
theorem serveReaders_aside (tickets : List Nat) (b : Buffer) :
    (serveReaders tickets b).1.collectors = b.collectors ∧
      (serveReaders tickets b).1.closed = b.closed := by
  induction tickets generalizing b with
  | nil => exact ⟨rfl, rfl⟩
  | cons ticket tickets ih =>
    cases htake : b.takeLine? with
    | some found =>
      obtain ⟨line, next⟩ := found
      rw [serveReaders_of_line htake]
      obtain ⟨-, rfl⟩ := eq_of_takeLine? htake
      exact ih _
    | none =>
      by_cases hended : b.ended = true
      · rw [serveReaders_of_dry htake hended]
        exact ⟨rfl, rfl⟩
      · rw [serveReaders_of_blocked htake (eq_false_of_ne_true hended)]
        exact ⟨rfl, rfl⟩

/-- Serving everybody by `serve` is a turn for each of them. -/
theorem live_everybody (b : Buffer) :
    b.live pid argv b.everybody = (b.serve.1, answered b.serve.2) := by
  have hreads : b.live pid argv (b.readers.map .reads)
      = ((serveReaders b.readers b).1, answered (serveReaders b.readers b).2) :=
    live_reads b.readers b
  rw [everybody, live_append, hreads, serve, ← (serveReaders_aside b.readers b).1]
  generalize serveReaders b.readers b = served
  obtain ⟨mid, lines⟩ := served
  cases hclosed : mid.closed with
  | true =>
    have hcollects : mid.live pid argv (mid.collectors.map .collects)
        = ((serveCollectors mid.collectors mid).1,
          answered (serveCollectors mid.collectors mid).2) :=
      live_collects mid.collectors hclosed
    simp only [hcollects, hclosed, if_true, answered, List.map_append]
  | false =>
    have hcollects : mid.live pid argv (mid.collectors.map .collects) = (mid, []) := by
      refine live_of_still fun turn hturn => ?_
      obtain ⟨other, -, rfl⟩ := List.mem_map.1 hturn
      exact take_collects_of_open hclosed
    simp only [hcollects, hclosed, Bool.false_eq_true, if_false, List.append_nil]

/-! ### Nobody is forgotten -/

theorem readers_apply (b : Buffer) (stimulus : Stimulus) :
    (b.apply stimulus).readers = b.readers ++ stimulus.reader?.toList := by
  cases stimulus with
  | readLine => rfl
  | output | errors =>
    rw [apply]
    split <;> exact (List.append_nil _).symm
  | ended | exited | closed | collect | giveUp | discard => exact (List.append_nil _).symm

/-- Whoever waits with a `Turn`, or comes with it, is told something or waits. -/
theorem readers_of_take (b : Buffer) (turn : Turn) :
    (b.readers ++ turn.reader?.toList).Perm
      ((b.take pid argv turn).2.filterMap Told.reader? ++ (b.take pid argv turn).1.readers) := by
  have hstill : (b.readers ++ []).Perm ([].filterMap Told.reader? ++ b.readers) := by
    rw [List.append_nil]
    exact .refl _
  cases turn with
  | arrives stimulus =>
    rw [take, readers_apply]
    exact .refl _
  | reads ticket =>
    by_cases hmem : ticket ∈ b.readers
    · have hgone : (b.readers ++ []).Perm ([ticket] ++ b.readers.erase ticket) := by
        rw [List.append_nil]
        exact List.perm_cons_erase hmem
      cases htake : b.takeLine? with
      | some found =>
        rw [take_reads_of_line hmem htake]
        exact hgone
      | none =>
        cases hended : b.ended with
        | true =>
          rw [take_reads_of_dry hmem htake hended]
          exact hgone
        | false =>
          rw [take_reads_of_blocked htake hended]
          exact hstill
    · rw [take_reads_of_absent hmem]
      exact hstill
  | collects ticket =>
    rw [take]
    split <;> exact hstill
  | expires ticket limit =>
    rw [take]
    split <;> exact hstill

/-- However it goes, every reader is told something or waits, and nobody else does. -/
theorem readers_of_live (b : Buffer) (turns : List Turn) :
    (b.readers ++ turns.filterMap Turn.reader?).Perm
      ((b.live pid argv turns).2.filterMap Told.reader? ++ (b.live pid argv turns).1.readers) := by
  induction turns generalizing b with
  | nil =>
    rw [List.filterMap_nil, List.append_nil]
    exact .refl _
  | cons turn turns ih =>
    have hcomers : (turn :: turns).filterMap Turn.reader?
        = turn.reader?.toList ++ turns.filterMap Turn.reader? := by
      rw [List.filterMap_cons]
      cases turn.reader? <;> rfl
    have hfirst : (b.readers ++ turn.reader?.toList).Perm
        ((b.take pid argv turn).2.filterMap Told.reader? ++ (b.take pid argv turn).1.readers) :=
      readers_of_take b turn
    have hlater := ih (b.take pid argv turn).1
    rw [hcomers, live_cons, List.filterMap_append, ← List.append_assoc]
    refine (hfirst.append_right _).trans ?_
    rw [List.append_assoc, List.append_assoc]
    exact hlater.append_left _

end Turns

end Buffer

end Outpost

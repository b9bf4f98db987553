import Outpost.Process.Buffer

/-!
# No byte is lost

A buffer stands between those who write and those who take. Everything that happens to it is broken
up into moves here: a stimulus arrives, one waiting reader takes a line or is told that there is
none, or one waiting collector takes everything. Who of those waiting goes on next is left open, and
so is what arrives in between, so every interleaving is a course of moves. Serving everybody at once
is one of them (`course_serve`).

In every course what was written is what was taken, piece after piece, and then what is still
unread (`output_conserved`).

## Contents

* `Buffer.Move`, `Buffer.Moves`, `Buffer.Course`.
* `Buffer.course_serve`: answering everybody is a course.
* `Buffer.Balanced`, `Buffer.Moves.balanced`: what a move does to the books.
* `Buffer.output_conserved`.
-/

namespace Outpost

namespace Buffer

/-- A thing that happens to a `Buffer`: a stimulus, or an answer to somebody who waits. -/
inductive Move where
  | stimulus (stimulus : Stimulus)
  /-- A reader takes a line, given without its line feed. -/
  | tookLine (ticket : Nat) (line : Bytes)
  /-- A reader is told that there is no line to come. -/
  | missedLine (ticket : Nat)
  /-- A collector takes everything that is left. -/
  | collected (ticket : Nat) (found : Output)

namespace Move

/-- What a `Move` writes to standard output. -/
def written : Move → Bytes
  | .stimulus (.output chunk) => chunk
  | _ => []

/-- What a `Move` writes to standard error. -/
def writtenErrors : Move → Bytes
  | .stimulus (.errors chunk) => chunk
  | _ => []

/-- The piece that a reader takes, with its `lineFeed`. -/
def read : Move → Bytes
  | .tookLine _ line => line ++ [lineFeed]
  | _ => []

/-- What a `Move` takes from standard output. -/
def taken : Move → Bytes
  | .tookLine _ line => line ++ [lineFeed]
  | .collected _ found => found.stdout
  | _ => []

/-- What a `Move` takes from standard error. -/
def takenErrors : Move → Bytes
  | .collected _ found => found.stderr
  | _ => []

/-- What somebody who waited is told with a `Move`. -/
def answer? : Move → Option (Nat × Answer)
  | .stimulus _ => none
  | .tookLine ticket line => some (ticket, .line (some (Text.decodeUtf8 line)))
  | .missedLine ticket => some (ticket, .line none)
  | .collected ticket found => some (ticket, .output found)

end Move

/-- What may happen to a buffer while its output is kept, so that it is not `discarding`. -/
inductive Moves : Buffer → Move → Buffer → Prop
  | arrives {b : Buffer} {stimulus : Stimulus} : stimulus ≠ .discard →
      Moves b (.stimulus stimulus) (b.apply stimulus)
  | takesLine {b next : Buffer} {ticket : Nat} {line : Bytes} : ticket ∈ b.readers →
      b.takeLine? = some (line, next) →
      Moves b (.tookLine ticket line) { next with readers := b.readers.erase ticket }
  | missesLine {b : Buffer} {ticket : Nat} : ticket ∈ b.readers → b.takeLine? = none →
      b.ended = true →
      Moves b (.missedLine ticket) { b with readers := b.readers.erase ticket }
  | collects {b : Buffer} {ticket : Nat} : ticket ∈ b.collectors → b.closed = true →
      Moves b (.collected ticket b.collect.1)
        { b.collect.2 with collectors := b.collectors.erase ticket }

/-- Any number of `Moves`, one after the other. -/
inductive Course : Buffer → List Move → Buffer → Prop
  | nil (b : Buffer) : Course b [] b
  | cons {b mid last : Buffer} {move : Move} {moves : List Move} :
      Moves b move mid → Course mid moves last → Course b (move :: moves) last

theorem Course.append {b mid last : Buffer} {moves moves' : List Move} (h : Course b moves mid)
    (h' : Course mid moves' last) : Course b (moves ++ moves') last := by
  induction h with
  | nil => exact h'
  | cons hmove _ ih => exact .cons hmove (ih h')

/-! ## Serving everybody -/

/-- A line is found by `takeLine?` in a buffer whoever waits for it. -/
theorem takeLine?_readers (b : Buffer) (readers : List Nat) :
    takeLine? { b with readers := readers }
      = b.takeLine?.map fun found => (found.1, { found.2 with readers := readers }) := by
  rw [takeLine?, takeLine?]
  by_cases h : lineFeed ∈ b.unread
  · rw [if_pos h, if_pos h]
    rfl
  · rw [if_neg h, if_neg h]
    rfl

/-- Serving readers in their order by `serveReaders` is a `Course` of their moves, with the same
answers. -/
theorem course_serveReaders (waiting : List Nat) (b : Buffer) :
    ∃ moves, Course { b with readers := waiting } moves (serveReaders waiting b).1 ∧
      moves.filterMap Move.answer? = (serveReaders waiting b).2 := by
  -- the buffer keeps its old list of readers until everybody is served, hence the update
  induction waiting generalizing b with
  | nil => exact ⟨[], .nil _, rfl⟩
  | cons ticket waiting ih =>
    have hfound := takeLine?_readers b (ticket :: waiting)
    rw [serveReaders]
    cases htake : b.takeLine? with
    | some found =>
      obtain ⟨line, next⟩ := found
      rw [htake] at hfound
      have hmove := Moves.takesLine (List.mem_cons_self : ticket ∈ ticket :: waiting) hfound
      rw [List.erase_cons_head] at hmove
      obtain ⟨moves, hcourse, hanswers⟩ := ih next
      exact ⟨.tookLine ticket line :: moves, .cons hmove hcourse, congrArg _ hanswers⟩
    | none =>
      rw [htake] at hfound
      by_cases hended : b.ended = true
      · have hmove : Moves { b with readers := ticket :: waiting } (.missedLine ticket)
            { b with readers := (ticket :: waiting).erase ticket } :=
          .missesLine List.mem_cons_self hfound hended
        rw [List.erase_cons_head] at hmove
        obtain ⟨moves, hcourse, hanswers⟩ := ih b
        dsimp only
        rw [if_pos hended]
        exact ⟨.missedLine ticket :: moves, .cons hmove hcourse, congrArg _ hanswers⟩
      · dsimp only
        rw [if_neg hended]
        exact ⟨[], .nil _, rfl⟩

/-- So is serving collectors by `serveCollectors`, once the process is closed. -/
theorem course_serveCollectors (waiting : List Nat) (b : Buffer) (hclosed : b.closed = true) :
    ∃ moves, Course { b with collectors := waiting } moves (serveCollectors waiting b).1 ∧
      moves.filterMap Move.answer? = (serveCollectors waiting b).2 := by
  induction waiting generalizing b with
  | nil => exact ⟨[], .nil _, rfl⟩
  | cons ticket waiting ih =>
    have hmove : Moves { b with collectors := ticket :: waiting } (.collected ticket b.collect.1)
        { b.collect.2 with collectors := (ticket :: waiting).erase ticket } :=
      .collects List.mem_cons_self hclosed
    rw [List.erase_cons_head] at hmove
    obtain ⟨moves, hcourse, hanswers⟩ := ih b.collect.2 hclosed
    exact ⟨.collected ticket b.collect.1 :: moves, .cons hmove hcourse, congrArg _ hanswers⟩

/-- Answering by `serve` everybody whose wait is over is a `Course` of moves with exactly these
answers. -/
theorem course_serve (b : Buffer) :
    ∃ moves, Course b moves b.serve.1 ∧ moves.filterMap Move.answer? = b.serve.2 := by
  obtain ⟨lines, hlines, hread⟩ := course_serveReaders b.readers b
  rw [serve]
  by_cases hclosed : (serveReaders b.readers b).1.closed = true
  · obtain ⟨outputs, houtputs, hcollected⟩ :=
      course_serveCollectors (serveReaders b.readers b).1.collectors _ hclosed
    simp only [hclosed, if_true]
    refine ⟨lines ++ outputs, hlines.append houtputs, ?_⟩
    rw [List.filterMap_append, hread, hcollected]
  · simp only [hclosed, Bool.false_eq_true, if_false]
    exact ⟨lines, hlines, hread⟩

/-! ## The books of a course -/

/-- What a `Move` does to the books of a buffer whose output is kept: what was there and what it
writes is what it takes and what is there then. -/
structure Balanced (b : Buffer) (move : Move) (next : Buffer) : Prop where
  output : b.unread ++ move.written = move.taken ++ next.unread
  consumed : next.consumed = b.consumed ++ move.read
  errors : b.errors ++ move.writtenErrors = move.takenErrors ++ next.errors
  kept : next.discarding = false

/-- What has a `lineFeed` begins with its first line and that line feed. -/
theorem eq_line_append {bytes : Bytes} (h : lineFeed ∈ bytes) :
    bytes = bytes.takeWhile (· ≠ lineFeed)
      ++ lineFeed :: bytes.drop ((bytes.takeWhile (· ≠ lineFeed)).length + 1) := by
  induction bytes with
  | nil => exact absurd h List.not_mem_nil
  | cons byte bytes ih =>
    by_cases hbyte : byte = lineFeed
    · subst hbyte
      simp
    · have hrest : lineFeed ∈ bytes := List.mem_of_ne_of_mem (Ne.symm hbyte) h
      have hcons : (byte :: bytes).takeWhile (· ≠ lineFeed)
          = byte :: bytes.takeWhile (· ≠ lineFeed) :=
        List.takeWhile_cons_of_pos (decide_eq_true hbyte)
      rw [hcons]
      exact congrArg (byte :: ·) (ih hrest)

/-- The line that `takeLine?` takes from a buffer was in front of the rest. -/
theorem unread_of_takeLine? {b next : Buffer} {line : Bytes}
    (h : b.takeLine? = some (line, next)) :
    b.unread = line ++ [lineFeed] ++ next.unread ∧
    next.consumed = b.consumed ++ (line ++ [lineFeed]) ∧
      next.errors = b.errors ∧ next.discarding = b.discarding := by
  rw [takeLine?] at h
  by_cases hline : lineFeed ∈ b.unread
  · rw [if_pos hline] at h
    obtain ⟨rfl, rfl⟩ := Prod.mk.inj (Option.some.inj h)
    refine ⟨?_, List.append_assoc _ _ _, rfl, rfl⟩
    rw [List.append_assoc]
    exact eq_line_append hline
  · rw [if_neg hline] at h
    exact absurd h nofun

/-- A stimulus only adds by `apply` what it writes. -/
theorem balanced_apply {b : Buffer} {stimulus : Stimulus} (hstimulus : stimulus ≠ .discard)
    (hkept : b.discarding = false) : Balanced b (.stimulus stimulus) (b.apply stimulus) := by
  have hneg : ¬ b.discarding = true := ne_true_of_eq_false hkept
  cases stimulus with
  | discard => exact absurd rfl hstimulus
  | output chunk =>
    rw [apply, if_neg hneg]
    exact ⟨rfl, (List.append_nil _).symm, List.append_nil _, hkept⟩
  | errors chunk =>
    rw [apply, if_neg hneg]
    exact ⟨List.append_nil _, (List.append_nil _).symm, rfl, hkept⟩
  | ended | exited | closed | readLine | collect | giveUp =>
    exact ⟨List.append_nil _, (List.append_nil _).symm, List.append_nil _, hkept⟩

/-- None of the `Moves` loses, repeats or reorders a byte. -/
theorem Moves.balanced {b next : Buffer} {move : Move} (h : Moves b move next)
    (hkept : b.discarding = false) : Balanced b move next := by
  cases h with
  | arrives hstimulus => exact balanced_apply hstimulus hkept
  | takesLine _ hfound =>
    obtain ⟨hunread, hconsumed, herrors, hdiscarding⟩ := unread_of_takeLine? hfound
    refine ⟨?_, hconsumed, ?_, hdiscarding.trans hkept⟩
    · exact (List.append_nil _).trans hunread
    · exact (List.append_nil _).trans herrors.symm
  | missesLine =>
    exact ⟨List.append_nil _, (List.append_nil _).symm, List.append_nil _, hkept⟩
  | collects =>
    -- what a collector takes is all that is there, and nothing of it counts as consumed
    exact ⟨rfl, (List.append_nil _).symm, rfl, hkept⟩

/-- Nor does any `Course` of them. -/
theorem Course.balanced {b last : Buffer} {moves : List Move} (h : Course b moves last)
    (hkept : b.discarding = false) :
    b.unread ++ moves.flatMap Move.written = moves.flatMap Move.taken ++ last.unread ∧
      last.consumed = b.consumed ++ moves.flatMap Move.read ∧
      b.errors ++ moves.flatMap Move.writtenErrors
        = moves.flatMap Move.takenErrors ++ last.errors := by
  induction h with
  | nil => exact ⟨List.append_nil _, (List.append_nil _).symm, List.append_nil _⟩
  | cons hmove _ ih =>
    obtain ⟨houtput, hconsumed, herrors, hkept'⟩ := hmove.balanced hkept
    obtain ⟨houtput', hconsumed', herrors'⟩ := ih hkept'
    simp only [List.flatMap_cons]
    refine ⟨?_, ?_, ?_⟩
    · rw [← List.append_assoc, houtput, List.append_assoc, houtput', List.append_assoc]
    · rw [hconsumed', hconsumed, List.append_assoc]
    · rw [← List.append_assoc, herrors, List.append_assoc, herrors', List.append_assoc]

/-- **No byte is lost, repeated or reordered.** Whatever `Course` is run through from a new buffer
whose output is kept, in whatever order readers and collectors go on: what was written to standard
output is what was taken from it, in the order of taking, and then what is unread; what readers took
is what is `consumed`; and what was written to standard error is what collectors took and then what
is left of it. In every state that is reached so, answering by `serve` everybody whose wait is over
is a course that goes on from there, with exactly the answers that they get. -/
theorem output_conserved {ended : Bool} {moves : List Move} {b : Buffer}
    (h : Course { ended := ended } moves b) :
    moves.flatMap Move.written = moves.flatMap Move.taken ++ b.unread ∧
      b.consumed = moves.flatMap Move.read ∧
      moves.flatMap Move.writtenErrors = moves.flatMap Move.takenErrors ++ b.errors ∧
      ∃ answering, Course { ended := ended } (moves ++ answering) b.serve.1 ∧
        answering.filterMap Move.answer? = b.serve.2 := by
  obtain ⟨houtput, hconsumed, herrors⟩ := h.balanced rfl
  obtain ⟨answering, hcourse, hanswers⟩ := course_serve b
  exact ⟨houtput, hconsumed, herrors, answering, h.append hcourse, hanswers⟩

/-- A reader that takes a line while a collector waits, another that goes on waiting, a collector
that gives up, and one that gets the rest. -/
theorem output_conserved_after_give_up :
    ∃ moves, Course { ended := false } moves
        { consumed := [0x61, 0x0a], ended := true, closed := true, readers := [2] } ∧
      moves.filterMap Move.answer?
        = [(0, .line (some (Text.decodeUtf8 [0x61]))), (3, .output ⟨[0x62], [0x21]⟩)] ∧
      moves.flatMap Move.written = [0x61, 0x0a, 0x62] ∧
      moves.flatMap Move.written = moves.flatMap Move.taken ++ [] := by
  have hcourse : Course { ended := false }
      [.stimulus (.readLine 0), .stimulus (.collect 1), .stimulus (.output [0x61, 0x0a, 0x62]),
        .tookLine 0 [0x61], .stimulus (.readLine 2), .stimulus (.giveUp 1),
        .stimulus (.errors [0x21]), .stimulus .closed, .stimulus (.collect 3),
        .collected 3 ⟨[0x62], [0x21]⟩]
      { consumed := [0x61, 0x0a], ended := true, closed := true, readers := [2] } := by
    refine .cons (.arrives nofun) (.cons (.arrives nofun) (.cons (.arrives nofun) ?_))
    refine .cons (.takesLine (by decide) rfl) (.cons (.arrives nofun) (.cons (.arrives nofun) ?_))
    refine .cons (.arrives nofun) (.cons (.arrives nofun) (.cons (.arrives nofun) ?_))
    exact .cons (.collects (by decide) rfl) (.nil _)
  exact ⟨_, hcourse, rfl, rfl, (output_conserved hcourse).1⟩

end Buffer

end Outpost

import Outpost.Session.Start
import Outpost.Process.Child
import Outpost.Proofs.Process.Readers

/-!
# What a process does

A process writes, ends its output, exits and closes, in any order and as often as it likes, until it
is closed: then it does nothing any more. What it does depends on whether it was asked to stop, and
then on whether it was stopped by force (`Conduct`). Whoever waits for it sees what it does in
batches, between which everybody whose wait is over goes on; a wait that has a limit may run out
between any two of them (`Beat`).

When a wait is over depends only on what the process has done so far (`Beat.wait`). The buffer
agrees: a reader is told the first line or that there is none, and a collector gets the rest, just
then (`Performance.readLine_spec`, `Performance.communicate_spec`). In between it holds everything
that the process did (`Kept`).

## Contents

* `Sign`, with what some of them amount to: `Sign.stdout`, `Sign.stderr`, `Sign.exitCode`.
* `Beat`, `Beat.wait`.
* `Conduct`, `Conduct.heard`, `Conduct.stopped`: a handshake as the process sees it.
* `Performance`: a process as far as it has come, with the buffer that stands before it.
* `Kept`, `Performance.Idle`: the invariants. `Performance.Collected`: what is left of them.
-/

namespace Outpost

/-! ## Signs -/

/-- Something that a process does, as its `Buffer` hears of it. -/
inductive Sign where
  | output (chunk : Bytes)
  | errors (chunk : Bytes)
  /-- Standard output ends. -/
  | ended
  | exited (code : Json)
  /-- The process has `exited` and its output is closed. -/
  | closed

namespace Sign

/-- What a sign is to a `Buffer`. -/
def stimulus : Sign → Stimulus
  | .output chunk => .output chunk
  | .errors chunk => .errors chunk
  | .ended => .ended
  | .exited code => .exited code
  | .closed => .closed

/-- What is written to standard error. -/
def writtenErrors : Sign → Bytes
  | .errors chunk => chunk
  | _ => []

/-- The exit code after a sign. -/
def codeAfter (code : Json) : Sign → Json
  | .exited next => next
  | _ => code

/-- Whether this is the last thing that a process does. -/
def closes : Sign → Bool
  | .closed => true
  | _ => false

/-- What the signs `done` write to standard output. -/
def stdout (done : List Sign) : Bytes := done.flatMap fun sign => sign.stimulus.written

/-- What the signs `done` write to standard error. -/
def stderr (done : List Sign) : Bytes := done.flatMap writtenErrors

/-- The `exited` code that was reported last, null if none was. -/
def exitCode (done : List Sign) : Json := done.foldl codeAfter .null

/-- Whether standard output has `ended`. -/
def hasEnded (done : List Sign) : Bool := done.any fun sign => sign.stimulus.endsOutput

/-- Whether the process is `closed`. -/
def hasClosed (done : List Sign) : Bool := done.any closes

/-- What a process has `done` after one sign more. A closed process does nothing. -/
def andThen (done : List Sign) (sign : Sign) : List Sign :=
  if hasClosed done then done else done ++ [sign]

/-- What a process has `done` after `more` signs. -/
def andAll (done more : List Sign) : List Sign := more.foldl andThen done

/-- The first line that was written to `stdout`, if a line was completed. -/
def firstLine (done : List Sign) : Option String :=
  (Buffer.lines (stdout done)).head?.map Text.decodeUtf8

/-- Whether a line was completed, or will never be. -/
def hasLineOrEnd (done : List Sign) : Bool :=
  decide (Buffer.lineFeed ∈ stdout done) || hasEnded done

/-- The port that the `firstLine` reports. -/
def port? (done : List Sign) : Option Nat := PortLine.parse? (firstLine done)

end Sign

/-! ## Waiting -/

/-- Something that happens while somebody waits for a process: it `does` something, or a limit runs
out. -/
inductive Beat where
  /-- The process does some things, at once. -/
  | does (signs : List Sign)
  /-- The limit of the wait runs out, if it has one. -/
  | alarm

namespace Beat

/-- The signs of a beat. -/
def signs : Beat → List Sign
  | .does signs => signs
  | .alarm => []

/-- What a process has done when a wait until that is `enough` ends, and what is still ahead of it
then. A wait that has a limit ends at the latest when nothing is left to happen; another one never
ends then. -/
def wait (enough : List Sign → Bool) (limited : Bool) :
    List Sign → List Beat → Option (List Sign × List Beat)
  | done, [] => if enough done || limited then some (done, []) else none
  | done, .alarm :: rest =>
    if enough done then some (done, .alarm :: rest)
    else if limited then some (done, rest)
    else wait enough limited done rest
  | done, .does signs :: rest =>
    if enough done then some (done, .does signs :: rest)
    else wait enough limited (Sign.andAll done signs) rest

end Beat

/-! ## Conduct -/

/-- What a process does, as long as it is left alone, once it was asked to stop, and once it was
stopped by force. -/
structure Conduct where
  /-- The number `pid` of the process, if it has one. -/
  pid : Option Json
  unasked : List Beat
  /-- What asking it to stop fails with, if it does. -/
  refusal : Option Fault
  atTerminate : List Sign
  afterTerminate : List Beat
  atKill : List Sign
  afterKill : List Beat

namespace Conduct

/-- What the process has done when a `Beat.wait` for its first line is over. -/
def heard (conduct : Conduct) (limited : Bool) : Option (List Sign) :=
  (Beat.wait Sign.hasLineOrEnd limited [] conduct.unasked).map Prod.fst

/-- What the process has done when it is closed, by `hasClosed`, and whether force was needed: it is
stopped by force if a wait for its end runs out. -/
def drained (conduct : Conduct) (limited : Bool) (done : List Sign) (ahead : List Beat) :
    Option (List Sign × Bool) :=
  match Beat.wait Sign.hasClosed limited done ahead with
  | none => none
  | some (done, _) =>
    if Sign.hasClosed done then some (done, false)
    else
      match Beat.wait Sign.hasClosed false (Sign.andAll done conduct.atKill) conduct.afterKill with
      | none => none
      | some (done, _) => some (done, true)

/-- The same for a process that did `heard` and is then asked to stop. -/
def stopped (conduct : Conduct) (limited : Bool) (heard : List Sign) : Option (List Sign × Bool) :=
  conduct.drained limited (Sign.andAll heard conduct.atTerminate) conduct.afterTerminate

/-- A process that closes in the end, once it was stopped by force, or as soon as it was asked to
stop if nobody is going to use force. -/
def Closes (conduct : Conduct) (limited : Bool) : Prop :=
  if limited then .closed ∈ conduct.atKill ++ conduct.afterKill.flatMap Beat.signs
  else .closed ∈ conduct.atTerminate ++ conduct.afterTerminate.flatMap Beat.signs

end Conduct

namespace Sign

variable {done more : List Sign} {sign : Sign}

theorem stdout_append (done more : List Sign) :
    stdout (done ++ more) = stdout done ++ stdout more :=
  List.flatMap_append

theorem stderr_append (done more : List Sign) :
    stderr (done ++ more) = stderr done ++ stderr more :=
  List.flatMap_append

theorem hasClosed_andThen (h : hasClosed done = true) (sign : Sign) : andThen done sign = done :=
  if_pos h

/-- What `hasClosed` does nothing more. -/
theorem andAll_of_hasClosed (h : hasClosed done = true) (more : List Sign) :
    andAll done more = done := by
  induction more with
  | nil => rfl
  | cons sign more ih =>
    rw [andAll, List.foldl_cons, hasClosed_andThen h]
    exact ih

theorem andAll_cons (done : List Sign) (sign : Sign) (more : List Sign) :
    andAll done (sign :: more) = andAll (andThen done sign) more := rfl

theorem hasClosed_append (done more : List Sign) :
    hasClosed (done ++ more) = (hasClosed done || hasClosed more) := List.any_append

/-- What does the sign `closed` has closed. -/
theorem hasClosed_andAll (h : .closed ∈ more) (done : List Sign) :
    hasClosed (andAll done more) = true := by
  induction more generalizing done with
  | nil => exact absurd h List.not_mem_nil
  | cons sign more ih =>
    by_cases hdone : hasClosed done = true
    · rw [andAll_of_hasClosed hdone]
      exact hdone
    · rw [andAll_cons]
      rcases List.mem_cons.1 h with rfl | hmore
      · have hlast : hasClosed (andThen done .closed) = true := by
          rw [andThen, if_neg hdone, hasClosed_append]
          exact Bool.or_true _
        rw [andAll_of_hasClosed hlast]
        exact hlast
      · exact ih hmore _

/-- As long as a wait for a line is not over, there is no `port?`. -/
theorem port?_of_not_over (h : hasLineOrEnd done = false) : port? done = none := by
  obtain ⟨hfeed, -⟩ := Bool.or_eq_false_iff.1 h
  rw [port?, firstLine, Buffer.lines_of_not_mem (of_decide_eq_false hfeed)]
  rfl

end Sign

section Wait

variable {enough : List Sign → Bool} {limited : Bool} {done last : List Sign}
  {ahead beats : List Beat}

/-- A `Beat.wait` that is over already. -/
theorem Beat.wait_of_over (h : enough done = true) (beats : List Beat) :
    Beat.wait enough limited done beats = some (done, beats) := by
  cases beats with
  | nil => rw [wait, h, Bool.true_or, if_pos rfl]
  | cons beat rest => cases beat <;> rw [wait, if_pos h]

/-- A `Beat.wait` that goes on and sees the process do something. -/
theorem Beat.wait_does (h : ¬ enough done = true) (signs : List Sign) (rest : List Beat) :
    Beat.wait enough limited done (.does signs :: rest)
      = Beat.wait enough limited (Sign.andAll done signs) rest := by
  rw [wait, if_neg h]

/-- A `Beat.wait` that goes on until its limit runs out, or past somebody else's. -/
theorem Beat.wait_alarm (h : ¬ enough done = true) (rest : List Beat) :
    Beat.wait enough limited done (.alarm :: rest)
      = if limited then some (done, rest) else Beat.wait enough limited done rest := by
  rw [wait, if_neg h]

/-- A `Beat.wait` that has a limit ends. -/
theorem Beat.wait_limited_ne_none (done : List Sign) (beats : List Beat) :
    Beat.wait enough true done beats ≠ none := by
  induction beats generalizing done with
  | nil =>
    rw [wait, Bool.or_true, if_pos rfl]
    exact nofun
  | cons beat rest ih =>
    by_cases hover : enough done = true
    · rw [wait_of_over hover]
      exact nofun
    · cases beat with
      | alarm =>
        rw [wait_alarm hover, if_pos rfl]
        exact nofun
      | does signs =>
        rw [wait_does hover]
        exact ih _

/-- A `Beat.wait` without a limit is over when it ends. -/
theorem Beat.over_of_wait (h : Beat.wait enough false done beats = some (last, ahead)) :
    enough last = true := by
  induction beats generalizing done with
  | nil =>
    by_cases hover : enough done = true
    · rw [wait_of_over hover] at h
      obtain ⟨rfl, -⟩ := Prod.mk.inj (Option.some.inj h)
      exact hover
    · rw [wait, Bool.or_false, if_neg hover] at h
      exact absurd h nofun
  | cons beat rest ih =>
    by_cases hover : enough done = true
    · rw [wait_of_over hover] at h
      obtain ⟨rfl, -⟩ := Prod.mk.inj (Option.some.inj h)
      exact hover
    · cases beat with
      | alarm =>
        rw [wait_alarm hover, if_neg Bool.false_ne_true] at h
        exact ih h
      | does signs =>
        rw [wait_does hover] at h
        exact ih h

/-- A wait for the end of a process that closes ends. -/
theorem Beat.wait_closed_ne_none (h : .closed ∈ beats.flatMap Beat.signs) (done : List Sign) :
    Beat.wait Sign.hasClosed limited done beats ≠ none := by
  induction beats generalizing done with
  | nil => exact absurd h List.not_mem_nil
  | cons beat rest ih =>
    by_cases hover : Sign.hasClosed done = true
    · rw [wait_of_over hover]
      exact nofun
    · rw [List.flatMap_cons, List.mem_append] at h
      cases beat with
      | alarm =>
        rw [wait_alarm hover]
        split
        · exact nofun
        · exact ih (h.resolve_left List.not_mem_nil) done
      | does signs =>
        rw [wait_does hover]
        rcases h with hsigns | hrest
        · have hclosed : Sign.hasClosed (Sign.andAll done signs) = true :=
            Sign.hasClosed_andAll hsigns done
          rw [wait_of_over hclosed]
          exact nofun
        · exact ih hrest _

/-- A process that `Closes` in the end is seen to its end, however far it has come. -/
theorem Conduct.stopped_ne_none {conduct : Conduct} (h : conduct.Closes limited)
    (heard : List Sign) : conduct.stopped limited heard ≠ none := by
  -- waiting for the end of a process that is closed, or that closes while one waits
  have hends {signs : List Sign} {beats : List Beat}
      (hcloses : .closed ∈ signs ++ beats.flatMap Beat.signs) (done : List Sign) :
      Beat.wait Sign.hasClosed false (Sign.andAll done signs) beats ≠ none := by
    rcases List.mem_append.1 hcloses with hsigns | hbeats
    · rw [Beat.wait_of_over (Sign.hasClosed_andAll hsigns done)]
      exact nofun
    · exact Beat.wait_closed_ne_none hbeats _
  rw [stopped, drained]
  cases limited with
  | false =>
    cases hfirst : Beat.wait Sign.hasClosed false (Sign.andAll heard conduct.atTerminate)
        conduct.afterTerminate with
    | none => exact absurd hfirst (hends h heard)
    | some left =>
      dsimp only
      rw [if_pos (Beat.over_of_wait hfirst)]
      exact nofun
  | true =>
    cases hfirst : Beat.wait Sign.hasClosed true (Sign.andAll heard conduct.atTerminate)
        conduct.afterTerminate with
    | none => exact absurd hfirst (Beat.wait_limited_ne_none _ _)
    | some left =>
      dsimp only
      split
      · exact nofun
      · cases hsecond : Beat.wait Sign.hasClosed false (Sign.andAll left.1 conduct.atKill)
            conduct.afterKill with
        | none => exact absurd hsecond (hends h left.1)
        | some last => exact nofun

/-- What is seen in the end by `drained` is all that the process ever does. -/
theorem Conduct.hasClosed_of_drained {conduct : Conduct} {forced : Bool}
    (h : conduct.drained limited done beats = some (last, forced)) :
    Sign.hasClosed last = true := by
  rw [drained] at h
  split at h
  · exact absurd h nofun
  · split at h
    · obtain ⟨rfl, -⟩ := Prod.mk.inj (Option.some.inj h)
      assumption
    · split at h
      · exact absurd h nofun
      · rename_i hlast
        obtain ⟨rfl, -⟩ := Prod.mk.inj (Option.some.inj h)
        exact Beat.over_of_wait hlast

end Wait

/-! ## The buffer before a process -/

/-- What a `Buffer` keeps of everything that a process did, as long as nobody has collected it. -/
structure Kept (done : List Sign) (b : Buffer) : Prop where
  output : b.consumed ++ b.unread = Sign.stdout done
  errors : b.errors = Sign.stderr done
  exitCode : b.exitCode = Sign.exitCode done
  ended : b.ended = Sign.hasEnded done
  closed : b.closed = Sign.hasClosed done
  kept : b.discarding = false

section Kept

open Buffer

variable {done : List Sign} {b next : Buffer} {line : Bytes}

theorem kept_new : Kept [] {} := ⟨rfl, rfl, rfl, rfl, rfl, rfl⟩

/-- Who waits makes no difference to what is `Kept`. -/
theorem Kept.waiting (h : Kept done b) (readers collectors : List Nat) :
    Kept done { b with readers, collectors } :=
  ⟨h.output, h.errors, h.exitCode, h.ended, h.closed, h.kept⟩

/-- What a sign changes in a buffer that is not `discarding`. -/
theorem apply_sign (hkept : b.discarding = false) (sign : Sign) :
    b.apply sign.stimulus = { b with
      unread := b.unread ++ sign.stimulus.written
      errors := b.errors ++ sign.writtenErrors
      exitCode := sign.codeAfter b.exitCode
      ended := b.ended || sign.stimulus.endsOutput
      closed := b.closed || sign.closes } := by
  cases sign <;>
    simp [Buffer.apply, hkept, Sign.stimulus, Stimulus.written, Stimulus.endsOutput,
      Sign.writtenErrors, Sign.codeAfter, Sign.closes]

/-- Whatever the process does is `Kept`. -/
theorem Kept.andSign (h : Kept done b) (sign : Sign) :
    Kept (done ++ [sign]) (b.apply sign.stimulus) := by
  rw [apply_sign h.kept sign]
  refine ⟨?_, ?_, ?_, ?_, ?_, h.kept⟩
  · rw [Sign.stdout_append, ← h.output, List.append_assoc]
    exact congrArg (fun rest => b.consumed ++ (b.unread ++ rest)) (List.append_nil _).symm
  · rw [Sign.stderr_append, ← h.errors]
    exact congrArg (b.errors ++ ·) (List.append_nil _).symm
  · rw [Sign.exitCode, List.foldl_append, ← Sign.exitCode, ← h.exitCode]
    rfl
  · rw [Sign.hasEnded, List.any_append, ← Sign.hasEnded, ← h.ended]
    exact congrArg (b.ended || ·) (Bool.or_false _).symm
  · rw [Sign.hasClosed_append, ← h.closed]
    exact congrArg (b.closed || ·) (Bool.or_false _).symm

/-- A line that `takeLine?` takes is kept as `consumed`. -/
theorem Kept.of_takeLine? (h : Kept done b) (htake : b.takeLine? = some (line, next)) :
    Kept done next := by
  obtain ⟨hunread, hconsumed, herrors, hdiscarding⟩ := unread_of_takeLine? htake
  obtain ⟨hended, hclosed, hcode⟩ :
      next.ended = b.ended ∧ next.closed = b.closed ∧ next.exitCode = b.exitCode := by
    obtain ⟨-, rfl⟩ := eq_of_takeLine? htake
    exact ⟨rfl, rfl, rfl⟩
  refine ⟨?_, herrors.trans h.errors, hcode.trans h.exitCode, hended.trans h.ended,
    hclosed.trans h.closed, hdiscarding.trans h.kept⟩
  rw [← h.output, hconsumed, hunread, List.append_assoc]

/-- Serving readers by `serveReaders` loses nothing, and answers nobody else. -/
theorem Kept.serveReaders (h : Kept done b) (waiting : List Nat) :
    Kept done (serveReaders waiting b).1 ∧
      (serveReaders waiting b).1.collectors = b.collectors ∧
      (∀ ticket ∈ (serveReaders waiting b).1.readers, ticket ∈ waiting) ∧
      ∀ answer ∈ (serveReaders waiting b).2, answer.1 ∈ waiting := by
  induction waiting generalizing b with
  | nil => exact ⟨h.waiting [] b.collectors, rfl, nofun, nofun⟩
  | cons ticket waiting ih =>
    cases htake : b.takeLine? with
    | some found =>
      obtain ⟨line, next⟩ := found
      obtain ⟨hkept, hcollectors, hreaders, hanswers⟩ := ih (h.of_takeLine? htake)
      rw [serveReaders_of_line htake]
      refine ⟨hkept, hcollectors.trans (collectors_of_takeLine? htake), ?_, ?_⟩
      · exact fun other hother => List.mem_cons_of_mem _ (hreaders other hother)
      · refine List.forall_mem_cons.2 ⟨List.mem_cons_self, ?_⟩
        exact fun answer hanswer => List.mem_cons_of_mem _ (hanswers answer hanswer)
    | none =>
      by_cases hended : b.ended = true
      · rw [serveReaders_of_dry htake hended]
        refine ⟨h.waiting [] b.collectors, rfl, nofun, ?_⟩
        intro answer hanswer
        obtain ⟨other, hother, rfl⟩ := List.mem_map.1 hanswer
        exact hother
      · rw [serveReaders_of_blocked htake (eq_false_of_ne_true hended)]
        exact ⟨h.waiting _ b.collectors, rfl, fun _ hother => hother, nofun⟩

end Kept

/-! ## A process as far as it has come -/

/-- What a process has `done`, what it is going to do if it is left alone, and the `buffer` before
it. -/
structure Performance where
  done : List Sign := []
  ahead : List Beat
  buffer : Buffer := {}
  /-- The ticket of whoever waits next. -/
  tickets : Nat := 0

namespace Performance

/-- The process does something by a `Sign`, unless it is closed. -/
def happen (performance : Performance) (sign : Sign) : Performance :=
  if Sign.hasClosed performance.done then performance
  else { performance with
    done := performance.done ++ [sign]
    buffer := performance.buffer.apply sign.stimulus }

/-- The process does some `signs` at once. -/
def after (performance : Performance) (signs : List Sign) : Performance :=
  signs.foldl happen performance

/-- Something makes the process do some `signs` at once, and changes what it is going to do. -/
def asked (performance : Performance) (signs : List Sign) (beats : List Beat) : Performance :=
  { performance.after signs with ahead := beats }

/-- Goes on until whoever waits under a `ticket` is answered, or the limit of that wait runs out.
Before each `Beat` everybody whose wait is over is answered. -/
def await (ticket : Nat) (limited : Bool) :
    List Beat → Performance → Option (Option Answer × Performance)
  | [], performance =>
    let (buffer, answers) := performance.buffer.serve
    let served := { performance with buffer, ahead := [] }
    match answers.lookup ticket with
    | some answer => some (some answer, served)
    | none => if limited then some (none, served) else none
  | .alarm :: rest, performance =>
    let (buffer, answers) := performance.buffer.serve
    match answers.lookup ticket with
    | some answer => some (some answer, { performance with buffer, ahead := .alarm :: rest })
    | none =>
      if limited then some (none, { performance with buffer, ahead := rest })
      else await ticket limited rest { performance with buffer }
  | .does signs :: rest, performance =>
    let (buffer, answers) := performance.buffer.serve
    match answers.lookup ticket with
    | some answer => some (some answer, { performance with buffer, ahead := .does signs :: rest })
    | none => await ticket limited rest ({ performance with buffer }.after signs)

/-- Reads a line. The reply is `none` if the limit runs out first. -/
def readLine (limit : Option Timeout) (performance : Performance) :
    Option (Option (Except Fault (Option String)) × Performance) :=
  let asking := { performance with
    buffer := performance.buffer.apply (.readLine performance.tickets)
    tickets := performance.tickets + 1 }
  match asking.await performance.tickets limit.isSome asking.ahead with
  | some (some (.line text), later) => some (some (.ok text), later)
  | some (_, later) => some (none, later)
  | none => none

/-- Waits by `await` for the end of the process and collects what nobody read. If the limit runs out
first, whoever waits gives up. -/
def communicate (overdue : Timeout → Fault) (limit : Option Timeout) (performance : Performance) :
    Option (Except Fault Output × Performance) :=
  let asking := { performance with
    buffer := performance.buffer.apply (.collect performance.tickets)
    tickets := performance.tickets + 1 }
  match asking.await performance.tickets limit.isSome asking.ahead with
  | some (some (.output found), later) => some (.ok found, later)
  | some (_, later) =>
    some (.error (overdue (limit.getD (.ofNat 0))),
      { later with buffer := later.buffer.apply (.giveUp performance.tickets) })
  | none => none

/-! ### Waiting -/

/-- Being answered under a `ticket` agrees with a condition on what the process has done, as long as
the invariant `holds` of that and of the buffer. -/
structure Agrees (enough : List Sign → Bool) (ticket : Nat) (holds : List Sign → Buffer → Prop) :
    Prop where
  sign : ∀ {done b}, holds done b → ∀ sign, holds (done ++ [sign]) (b.apply sign.stimulus)
  answered : ∀ {done b}, holds done b → enough done = true →
    (b.serve.2.lookup ticket).isSome = true
  waits : ∀ {done b}, holds done b → enough done = false →
    b.serve.2.lookup ticket = none ∧ holds done b.serve.1

section Await

variable {enough : List Sign → Bool} {holds : List Sign → Buffer → Prop} {ticket : Nat}
  {limited : Bool}

/-- Who is answered by `serve` goes on. -/
theorem await_of_answer {performance : Performance} {answer : Answer}
    (h : performance.buffer.serve.2.lookup ticket = some answer) (beats : List Beat) :
    await ticket limited beats performance
      = some (some answer, { performance with
          buffer := performance.buffer.serve.1
          ahead := beats }) := by
  cases beats with
  | nil => simp only [await, h]
  | cons beat rest => cases beat <;> simp only [await, h]

/-- What the process does at once keeps an invariant `holds` up that each thing that it does keeps
up. -/
theorem after_spec
    (hsign : ∀ {done b}, holds done b → ∀ sign, holds (done ++ [sign]) (b.apply sign.stimulus))
    (signs : List Sign) (performance : Performance)
    (h : holds performance.done performance.buffer) :
    ∃ b, holds (Sign.andAll performance.done signs) b ∧ performance.after signs
      = { performance with done := Sign.andAll performance.done signs, buffer := b } := by
  induction signs generalizing performance with
  | nil => exact ⟨performance.buffer, h, rfl⟩
  | cons sign signs ih =>
    rw [after, List.foldl_cons, ← after, Sign.andAll_cons]
    by_cases hclosed : Sign.hasClosed performance.done = true
    · rw [happen, if_pos hclosed, Sign.hasClosed_andThen hclosed]
      exact ih performance h
    · rw [happen, if_neg hclosed, Sign.andThen, if_neg hclosed]
      exact ih
        { performance with
          done := performance.done ++ [sign]
          buffer := performance.buffer.apply sign.stimulus }
        (hsign h sign)

/-- An `await` goes as its condition says by `Beat.wait`, if being answered `Agrees` with the
condition. -/
theorem await_spec (hagrees : Agrees enough ticket holds) (limited : Bool)
    (beats : List Beat) (performance : Performance)
    (h : holds performance.done performance.buffer) :
    match Beat.wait enough limited performance.done beats with
    | none => await ticket limited beats performance = none
    | some (done, ahead) => ∃ b, holds done b ∧
        await ticket limited beats performance = some (b.serve.2.lookup ticket,
          { performance with done, ahead, buffer := b.serve.1 }) := by
  induction beats generalizing performance with
  | nil =>
    cases hdone : enough performance.done with
    | true =>
      obtain ⟨answer, hanswer⟩ := Option.isSome_iff_exists.1 (hagrees.answered h hdone)
      rw [Beat.wait_of_over hdone]
      refine ⟨performance.buffer, h, ?_⟩
      rw [await_of_answer hanswer, hanswer]
    | false =>
      obtain ⟨hnone, -⟩ := hagrees.waits h hdone
      rw [Beat.wait, hdone, Bool.false_or]
      cases limited with
      | true =>
        refine ⟨performance.buffer, h, ?_⟩
        simp only [await, hnone, if_true]
      | false => simp [await, hnone]
  | cons beat rest ih =>
    cases hdone : enough performance.done with
    | true =>
      obtain ⟨answer, hanswer⟩ := Option.isSome_iff_exists.1 (hagrees.answered h hdone)
      rw [Beat.wait_of_over hdone]
      refine ⟨performance.buffer, h, ?_⟩
      rw [await_of_answer hanswer, hanswer]
    | false =>
      have hnot := ne_true_of_eq_false hdone
      obtain ⟨hnone, hserved⟩ := hagrees.waits h hdone
      cases beat with
      | alarm =>
        rw [Beat.wait_alarm hnot]
        cases limited with
        | true =>
          refine ⟨performance.buffer, h, ?_⟩
          simp only [await, hnone, if_true]
        | false =>
          simp only [await, hnone, Bool.false_eq_true, if_false]
          exact ih { performance with buffer := performance.buffer.serve.1 } hserved
      | does signs =>
        -- what the process does comes behind everybody who was answered before
        obtain ⟨b, hb, hafter⟩ :=
          after_spec hagrees.sign signs { performance with buffer := performance.buffer.serve.1 }
            hserved
        rw [Beat.wait_does hnot]
        simp only [await, hnone, hafter]
        exact ih { performance with done := Sign.andAll performance.done signs, buffer := b } hb

end Await

/-! ### Reading the first line -/

/-- A buffer that somebody waits for the first line of under a `ticket`. -/
structure Reading (ticket : Nat) (done : List Sign) (b : Buffer) : Prop where
  kept : Kept done b
  unconsumed : b.consumed = []
  readers : b.readers = [ticket]
  collectors : b.collectors = []

/-- A buffer that nobody collects from, and readers under earlier tickets only. -/
structure Resting (tickets : Nat) (done : List Sign) (b : Buffer) : Prop where
  kept : Kept done b
  collectors : b.collectors = []
  fresh : ∀ ticket ∈ b.readers, ticket < tickets

/-- A process of which everything is `Kept` and that nobody collects from. -/
abbrev Idle (performance : Performance) : Prop :=
  Resting performance.tickets performance.done performance.buffer

section Reading

open Buffer

variable {ticket : Nat} {done : List Sign} {b : Buffer}

theorem Reading.andSign (h : Reading ticket done b) (sign : Sign) :
    Reading ticket (done ++ [sign]) (b.apply sign.stimulus) := by
  have hkept := h.kept.andSign sign
  rw [apply_sign h.kept.kept sign] at hkept ⊢
  exact ⟨hkept, h.unconsumed, h.readers, h.collectors⟩

/-- Nothing was read of what was written while somebody is `Reading`. -/
theorem Reading.unread (h : Reading ticket done b) : b.unread = Sign.stdout done := by
  have houtput := h.kept.output
  rw [h.unconsumed] at houtput
  exact houtput

/-- Whoever waits for the first line is told it, or that there is none. -/
theorem Reading.serve (h : Reading ticket done b) (hover : Sign.hasLineOrEnd done = true) :
    b.serve.2 = [(ticket, .line (Sign.firstLine done))] ∧ Kept done b.serve.1 ∧
      b.serve.1.readers = [] ∧ b.serve.1.collectors = [] := by
  have hreadOnly : ReadOnly b := ⟨h.kept.kept, h.collectors⟩
  obtain ⟨hkept, hcollectors, -⟩ := h.kept.serveReaders [ticket]
  rw [serve_of_readOnly hreadOnly, h.readers]
  have hcollectors' := hcollectors.trans h.collectors
  cases htake : b.takeLine? with
  | some found =>
    obtain ⟨line, next⟩ := found
    obtain ⟨hline, hunread, -⟩ := line_of_takeLine? htake
    have hfirst : Sign.firstLine done = some (Text.decodeUtf8 line) := by
      rw [Sign.firstLine, ← h.unread, hunread, lines_line_append hline]
      rfl
    rw [serveReaders_of_line htake] at hkept hcollectors' ⊢
    rw [hfirst]
    exact ⟨rfl, hkept, rfl, hcollectors'⟩
  | none =>
    have hfeed := not_mem_of_takeLine? htake
    have hended : b.ended = true := by
      rw [Sign.hasLineOrEnd, ← h.unread, decide_eq_false hfeed, Bool.false_or] at hover
      exact h.kept.ended.trans hover
    have hfirst : Sign.firstLine done = none := by
      rw [Sign.firstLine, ← h.unread, lines_of_not_mem hfeed]
      rfl
    rw [serveReaders_of_dry htake hended] at hkept hcollectors' ⊢
    rw [hfirst]
    exact ⟨rfl, hkept, rfl, hcollectors'⟩

/-- Before that, whoever waits goes on waiting. -/
theorem Reading.serve_of_not_over (h : Reading ticket done b)
    (hover : Sign.hasLineOrEnd done = false) : b.serve = (b, []) := by
  have hreadOnly : ReadOnly b := ⟨h.kept.kept, h.collectors⟩
  rw [Sign.hasLineOrEnd, Bool.or_eq_false_iff, ← h.unread, ← h.kept.ended] at hover
  obtain ⟨hfeed, hended⟩ := hover
  have hdry : b.takeLine? = none := by
    rw [takeLine?, if_neg (of_decide_eq_false hfeed)]
  rw [serve_of_readOnly hreadOnly, serveReaders_of_blocked hdry hended]

theorem reading_agrees (ticket : Nat) : Agrees Sign.hasLineOrEnd ticket (Reading ticket) where
  sign := fun h sign => h.andSign sign
  answered := by
    intro done b h hover
    rw [(h.serve hover).1, List.lookup_cons_self]
    rfl
  waits := by
    intro done b h hover
    rw [h.serve_of_not_over hover]
    exact ⟨rfl, h⟩

/-- By `readLine`, the first reader of a process is told its first line, or that there is none, as
soon as that is certain; if the limit runs out first, it goes on waiting for it all the same. -/
theorem readLine_spec {performance : Performance} (h : performance.Idle)
    (hconsumed : performance.buffer.consumed = []) (hreaders : performance.buffer.readers = [])
    (limit : Option Timeout) :
    match Beat.wait Sign.hasLineOrEnd limit.isSome performance.done performance.ahead with
    | none => performance.readLine limit = none
    | some (done, ahead) => ∃ later : Performance, later.Idle ∧ later.done = done ∧
        later.ahead = ahead ∧ performance.readLine limit
          = some (if Sign.hasLineOrEnd done then some (.ok (Sign.firstLine done)) else none,
            later) := by
  have hasking : Reading performance.tickets performance.done
      (performance.buffer.apply (.readLine performance.tickets)) := by
    refine ⟨h.kept.waiting _ performance.buffer.collectors, hconsumed, ?_, h.collectors⟩
    rw [Buffer.apply, hreaders]
    rfl
  have hspec := await_spec (reading_agrees performance.tickets) limit.isSome performance.ahead
    { performance with
      buffer := performance.buffer.apply (.readLine performance.tickets)
      tickets := performance.tickets + 1 } hasking
  rw [readLine]
  dsimp only at hspec ⊢
  cases hwait : Beat.wait Sign.hasLineOrEnd limit.isSome performance.done performance.ahead with
  | none =>
    rw [hwait] at hspec
    dsimp only at hspec ⊢
    rw [hspec]
  | some left =>
    obtain ⟨done, ahead⟩ := left
    rw [hwait] at hspec
    obtain ⟨b, hb, hawait⟩ := hspec
    dsimp only
    rw [hawait]
    cases hover : Sign.hasLineOrEnd done with
    | true =>
      obtain ⟨hanswers, hkept, hreaders', hcollectors'⟩ := hb.serve hover
      rw [hanswers, List.lookup_cons_self, if_pos rfl]
      refine ⟨_, ⟨hkept, hcollectors', ?_⟩, rfl, rfl, rfl⟩
      dsimp only
      rw [hreaders']
      exact fun _ hother => absurd hother List.not_mem_nil
    | false =>
      rw [hb.serve_of_not_over hover, if_neg Bool.false_ne_true]
      refine ⟨_, ⟨hb.kept, hb.collectors, ?_⟩, rfl, rfl, rfl⟩
      dsimp only
      rw [hb.readers]
      intro other hother
      rw [List.mem_singleton.1 hother]
      exact Nat.lt_succ_self _

end Reading

/-! ### Collecting the rest -/

/-- What was collected as an `Output`, together with what readers took, is all that a process
did. -/
structure Collected (done : List Sign) (b : Buffer) (found : Output) : Prop where
  stdout : b.consumed ++ found.stdout = Sign.stdout done
  stderr : found.stderr = Sign.stderr done
  exitCode : b.exitCode = Sign.exitCode done

/-- A buffer that somebody waits for the end of, behind readers that came before. -/
structure Collecting (ticket : Nat) (done : List Sign) (b : Buffer) : Prop where
  kept : Kept done b
  collectors : b.collectors = [ticket]
  earlier : ∀ reader ∈ b.readers, reader < ticket

section Collecting

open Buffer

variable {ticket : Nat} {done : List Sign} {b : Buffer}

theorem Collecting.andSign (h : Collecting ticket done b) (sign : Sign) :
    Collecting ticket (done ++ [sign]) (b.apply sign.stimulus) := by
  have hkept := h.kept.andSign sign
  rw [apply_sign h.kept.kept sign] at hkept ⊢
  exact ⟨hkept, h.collectors, h.earlier⟩

/-- Readers that are served meanwhile are not the collector. -/
theorem Collecting.lookup_serveReaders (h : Collecting ticket done b) :
    (serveReaders b.readers b).2.lookup ticket = none := by
  obtain ⟨-, -, -, hanswers⟩ := h.kept.serveReaders b.readers
  refine List.lookup_eq_none_iff.2 fun answer hanswer => ?_
  have hearlier := h.earlier answer.1 (hanswers answer hanswer)
  exact bne_iff_ne.2 (Nat.ne_of_gt hearlier)

/-- Whoever waits for the end gets all that readers have left, once the process `hasClosed`. -/
theorem Collecting.serve (h : Collecting ticket done b) (hover : Sign.hasClosed done = true) :
    ∃ found, b.serve.2.lookup ticket = some (.output found) ∧ Collected done b.serve.1 found := by
  obtain ⟨hkept, hcollectors, -⟩ := h.kept.serveReaders b.readers
  have hnone := h.lookup_serveReaders
  rw [Buffer.serve]
  generalize serveReaders b.readers b = served at hkept hcollectors hnone
  obtain ⟨mid, lines⟩ := served
  dsimp only at hkept hcollectors hnone ⊢
  rw [if_pos (hkept.closed.trans hover), hcollectors, h.collectors]
  refine ⟨⟨mid.unread, mid.errors⟩, ?_, ⟨hkept.output, hkept.errors, hkept.exitCode⟩⟩
  rw [List.lookup_append, hnone, Option.none_or]
  exact List.lookup_cons_self

/-- Before that, whoever waits goes on waiting. -/
theorem Collecting.serve_of_not_over (h : Collecting ticket done b)
    (hover : Sign.hasClosed done = false) :
    b.serve.2.lookup ticket = none ∧ Collecting ticket done b.serve.1 := by
  obtain ⟨hkept, hcollectors, hreaders, -⟩ := h.kept.serveReaders b.readers
  have hnone := h.lookup_serveReaders
  rw [Buffer.serve]
  generalize serveReaders b.readers b = served at hkept hcollectors hreaders hnone
  obtain ⟨mid, lines⟩ := served
  dsimp only at hkept hcollectors hreaders hnone ⊢
  rw [if_neg (ne_true_of_eq_false (hkept.closed.trans hover))]
  exact ⟨hnone, hkept, hcollectors.trans h.collectors,
    fun reader hreader => h.earlier reader (hreaders reader hreader)⟩

theorem collecting_agrees (ticket : Nat) : Agrees Sign.hasClosed ticket (Collecting ticket) where
  sign := fun h sign => h.andSign sign
  answered := by
    intro done b h hover
    obtain ⟨found, hfound, -⟩ := h.serve hover
    rw [hfound]
    rfl
  waits := fun h hover => h.serve_of_not_over hover

/-- By `communicate`, a collector gets what readers have left of everything that the process ever
wrote, as soon as the process is closed; if the limit runs out first, it gives up. -/
theorem communicate_spec {performance : Performance} (h : performance.Idle)
    (overdue : Timeout → Fault) (limit : Option Timeout) :
    match Beat.wait Sign.hasClosed limit.isSome performance.done performance.ahead with
    | none => performance.communicate overdue limit = none
    | some (done, ahead) => ∃ later : Performance, later.done = done ∧ later.ahead = ahead ∧
        if Sign.hasClosed done then
          ∃ found, performance.communicate overdue limit = some (.ok found, later) ∧
            Collected done later.buffer found
        else
          performance.communicate overdue limit
              = some (.error (overdue (limit.getD (.ofNat 0))), later) ∧ later.Idle := by
  have hasking : Collecting performance.tickets performance.done
      (performance.buffer.apply (.collect performance.tickets)) := by
    refine ⟨h.kept.waiting performance.buffer.readers _, ?_, h.fresh⟩
    rw [Buffer.apply, h.collectors]
    rfl
  have hspec := await_spec (collecting_agrees performance.tickets) limit.isSome performance.ahead
    { performance with
      buffer := performance.buffer.apply (.collect performance.tickets)
      tickets := performance.tickets + 1 } hasking
  rw [communicate]
  dsimp only at hspec ⊢
  cases hwait : Beat.wait Sign.hasClosed limit.isSome performance.done performance.ahead with
  | none =>
    rw [hwait] at hspec
    dsimp only at hspec ⊢
    rw [hspec]
  | some left =>
    obtain ⟨done, ahead⟩ := left
    rw [hwait] at hspec
    obtain ⟨b, hb, hawait⟩ := hspec
    dsimp only
    rw [hawait]
    cases hover : Sign.hasClosed done with
    | true =>
      obtain ⟨found, hfound, hcollected⟩ := hb.serve hover
      rw [hfound]
      exact ⟨_, rfl, rfl, found, rfl, hcollected⟩
    | false =>
      obtain ⟨hnone, hkept, hcollectors, hearlier⟩ := hb.serve_of_not_over hover
      rw [hnone]
      refine ⟨_, rfl, rfl, rfl, hkept.waiting b.serve.1.readers _, ?_, ?_⟩
      · dsimp only
        rw [Buffer.apply, hcollectors]
        simp
      · exact fun reader hreader => Nat.lt_succ_of_lt (hearlier reader hreader)

end Collecting

/-! ### Stopping -/

theorem Resting.andSign {tickets : Nat} {done : List Sign} {b : Buffer}
    (h : Resting tickets done b) (sign : Sign) :
    Resting tickets (done ++ [sign]) (b.apply sign.stimulus) := by
  have hkept := h.kept.andSign sign
  rw [apply_sign h.kept.kept sign] at hkept ⊢
  exact ⟨hkept, h.collectors, h.fresh⟩

/-- A process that is `asked` for something goes on keeping everything. -/
theorem Idle.asked {performance : Performance} (h : performance.Idle) (signs : List Sign)
    (beats : List Beat) :
    (performance.asked signs beats).Idle ∧
      (performance.asked signs beats).done = Sign.andAll performance.done signs ∧
      (performance.asked signs beats).ahead = beats := by
  obtain ⟨b, hb, hafter⟩ := after_spec (fun hb sign => hb.andSign sign) signs performance h
  rw [Performance.asked, hafter]
  exact ⟨hb, rfl, rfl⟩

end Performance

end Outpost

import Outpost.EventLog.Queue
import Outpost.Proofs.Text.Lines
import Outpost.Proofs.Text.Utf8

/-!
# A log that many write to

Calls to record and to trim are issued at any time, also while an operation of an earlier call is
under way, and any operation on the file may fail. Here the queue of a log works on a file, step by
step: a call is issued, or the operation that is under way is answered (`Journal.step`).

Whatever the order of these steps, what the queue has still to do to the file and what it has done
so far make up what the calls do one at a time (`Journal.Accords`). So the file is, once the queue
is empty, as if each call had waited for the one before it, and a call that failed has kept none
from being made.

## Contents

* `File`, `Mishaps`, `File.answer`: a file whose operations may fail.
* `Call`, `Call.change`, `Call.result`, `oneByOne`: what calls do, one at a time.
* `Journal`, `Journal.step`: the queue at work.
* `carry`, `carry_program`: a job that is not interrupted.
* `Within`, `within_program`: how many requests a job makes.
* `Journal.Accords`, with its step lemmas.
-/

namespace Outpost

namespace EventLog

/-! ## A file that operations may fail on -/

/-- The bytes of a file, if it exists. -/
abbrev File := Option Bytes

/-- What a `File` reads as; one that does not exist reads as nothing. -/
def File.text (file : File) : List Char := Text.decodeBytes (file.getD [])

/-- The `ENOENT` of reading a file that does not exist. -/
def missingFile (path : String) : Fault :=
  .error ("ENOENT: no such file or directory, open '" ++ path ++ "'") (some "ENOENT") none

/-- The operations of a `Job` that fail, with their faults. -/
structure Mishaps where
  append : Option Fault := none
  read : Option Fault := none
  write : Option Fault := none

/-- The reply to an `EventLog.Request`, and what becomes of the file of the log. An operation that
fails leaves the file as it is. -/
def File.answer (log : EventLog) (mishaps : Mishaps) :
    (r : Request) → StateM File (interface.Reply r)
  | .appendFile path text, file =>
    if path = log.path then
      match mishaps.append with
      | some fault => (.error fault, file)
      | none => (.ok (), some (file.getD [] ++ Text.encodeUtf8 text))
    else (.ok (), file)
  | .contents path, file =>
    if path = log.path then
      match mishaps.read, file with
      | some fault, _ => (.error fault, file)
      | none, some bytes => (.ok (Text.decodeUtf8 bytes), file)
      | none, none => (.error (missingFile path), file)
    else (.error (missingFile path), file)
  | .writeFile path text, file =>
    if path = log.path then
      match mishaps.write with
      | some fault => (.error fault, file)
      | none => (.ok (), some (Text.encodeUtf8 text))
    else (.ok (), file)
  | .makeDirectory _, file => (.ok (), file)
  | .flush, file => ((), file)
  | .report _, file => ((), file)

/-! ## Calls, one at a time -/

/-- What is asked of an `EventLog` by those who write to it. -/
inductive Call where
  /-- An entry is recorded at the time `now`. -/
  | record (now : Number) (entry : Json)
  | trim

/-- The job that a `Call` puts into the queue. -/
def Call.job : Call → Job
  | .record now entry => .append (line now entry)
  | .trim => .trim

/-- The last lines that a `trim` keeps, of lines that are too many. -/
def lastLines (lines : List (List Char)) : List (List Char) := lines.drop (lines.length - 8000)

/-- What a `Call` alone does to a file. -/
def Call.change (mishaps : Mishaps) : Call → File → File
  | .record now entry, file =>
    if mishaps.append.isSome then file else some (file.getD [] ++ Text.encodeUtf8 (line now entry))
  | .trim, file =>
    let lines := filledLines file.text
    if mishaps.read.isNone && mishaps.write.isNone && decide (10000 < lines.length) then
      some (Text.encodeChars (['\n'].intercalate (lastLines lines) ++ ['\n']))
    else file

/-- What a `Call` alone tells its caller. -/
def Call.result (mishaps : Mishaps) : Call → File → Except Fault Unit
  | .record .., _ => .ok ()
  | .trim, file =>
    match mishaps.read with
    | some fault => if isMissingFile fault then .ok () else .error fault
    | none =>
      if 10000 < (filledLines file.text).length then
        match mishaps.write with
        | some fault => .error fault
        | none => .ok ()
      else .ok ()

/-- What calls do when each waits for the one before it: the file in the end, and the results under
the numbers of the calls. -/
def oneByOne (luck : Nat → Mishaps) :
    Nat → List Call → File → File × List (Nat × Except Fault Unit)
  | _, [], file => (file, [])
  | number, call :: rest, file =>
    let later := oneByOne luck (number + 1) rest (call.change (luck number) file)
    (later.1, (number, call.result (luck number) file) :: later.2)

/-! ## The queue at work -/

/-- An `EventLog` at work on its file. -/
structure Journal where
  queue : Queue
  file : File
  /-- The `Call`s that were issued so far. -/
  calls : List Call := []
  /-- The results of those `calls` that have ended, under their numbers. -/
  results : List (Nat × Except Fault Unit) := []

/-- What can happen to a `Journal`. -/
inductive Happening where
  | issue (call : Call)
  /-- The operation of the `queue` that is under way, if there is one, is made and answered. -/
  | answer

/-- The calls that a `Happening` issues. -/
def Happening.call? : Happening → Option Call
  | .issue call => some call
  | .answer => none

namespace Journal

/-- A log that nothing was asked of yet, with its `file`. -/
def new (log : EventLog) (file : File) : Journal := { queue := .ofLog log, file }

/-- One step of a `Journal`: a call is issued, or the operation that is under way is answered. -/
def step (luck : Nat → Mishaps) (journal : Journal) : Happening → Journal
  | .issue call =>
    let after := journal.queue.issue journal.calls.length call.job
    { journal with
      queue := after.1
      calls := journal.calls ++ [call]
      results := journal.results ++ after.2 }
  | .answer =>
    match journal.queue.current with
    | none => journal
    | some (number, waiting) =>
      let made := File.answer journal.queue.log (luck number) waiting.request journal.file
      let after := journal.queue.resume number (waiting.next made.1)
      { journal with
        queue := after.1
        file := made.2
        results := journal.results ++ after.2 }

/-- Many happenings, each a `step`. -/
def run (luck : Nat → Mishaps) (journal : Journal) (happenings : List Happening) : Journal :=
  happenings.foldl (step luck) journal

end Journal

/-! ## A job that is not interrupted -/

/-- Carries a program out on the file, by `File.answer`. -/
def carry {α : Type} (log : EventLog) (mishaps : Mishaps) (p : Program Unit interface α) :
    StateM File α :=
  p.interpret (pure ()) (fun _ => pure ()) (File.answer log mishaps)

section Carry

variable {log : EventLog} {mishaps : Mishaps} {luck : Nat → Mishaps}

/-- A program goes on after an `ask` as it was going to. -/
theorem carry_ask {α : Type} (r : Request) (next : interface.Reply r → Program Unit interface α)
    (file : File) :
    carry log mishaps (.ask r next) file
      = carry log mishaps (next (File.answer log mishaps r file).1)
          (File.answer log mishaps r file).2 := rfl

theorem carry_bind {α β : Type} (p : Program Unit interface α) (f : α → Program Unit interface β)
    (file : File) :
    carry log mishaps (p >>= f) file
      = carry log mishaps (f (carry log mishaps p file).1) (carry log mishaps p file).2 := by
  have hbind : carry log mishaps (p >>= f)
      = carry log mishaps p >>= fun a => carry log mishaps (f a) := Program.interpret_bind p f
  rw [hbind]
  rfl

/-- Up to its first request, by `Queue.advance`, a job does nothing to the file. -/
theorem carry_advance (p : Program Unit interface (Except Fault Unit)) (file : File) :
    carry log mishaps p file =
      match Queue.advance p with
      | .inl result => (result, file)
      | .inr waiting => carry log mishaps (.ask waiting.request waiting.next) file := by
  induction p with
  | done result => rfl
  | read next ih => exact ih ()
  | write s next ih => exact ih
  | ask r next ih => rfl

theorem answer_appendFile (text : String) (file : File) :
    File.answer log mishaps (.appendFile log.path text) file =
      match mishaps.append with
      | some fault => (.error fault, file)
      | none => (.ok (), some (file.getD [] ++ Text.encodeUtf8 text)) := if_pos rfl

theorem answer_contents (file : File) :
    File.answer log mishaps (.contents log.path) file =
      match mishaps.read, file with
      | some fault, _ => (.error fault, file)
      | none, some bytes => (.ok (Text.decodeUtf8 bytes), file)
      | none, none => (.error (missingFile log.path), file) := if_pos rfl

theorem answer_writeFile (text : String) (file : File) :
    File.answer log mishaps (.writeFile log.path text) file =
      match mishaps.write with
      | some fault => (.error fault, file)
      | none => (.ok (), some (Text.encodeUtf8 text)) := if_pos rfl

/-- Reading by `readLines` finds the lines of the file, or fails as the operation does. -/
theorem carry_readLines_bind {α : Type}
    {f : List (List Char) → Attempt Unit interface α} (file : File) :
    carry log mishaps (readLines log >>= f).outcome file =
      match mishaps.read with
      | some fault =>
        if isMissingFile fault then carry log mishaps (f []).outcome file
        else (.error fault, file)
      | none => carry log mishaps (f (filledLines file.text)).outcome file := by
  refine (carry_ask (.contents log.path) _ file).trans ?_
  rw [answer_contents]
  cases mishaps.read with
  | some fault =>
    show carry log mishaps ((if isMissingFile fault then pure [] else throw fault
      : Attempt Unit interface (List (List Char))) >>= f).outcome file = _
    dsimp only
    split
    · rfl
    · rfl
  | none =>
    cases file with
    | none => rfl
    | some bytes =>
      have htext : (Text.decodeUtf8 bytes).toList = File.text (some bytes) := by
        simp [Text.decodeUtf8, File.text]
      show carry log mishaps (f (filledLines (Text.decodeUtf8 bytes).toList)).outcome (some bytes)
        = carry log mishaps (f (filledLines (File.text (some bytes)))).outcome (some bytes)
      rw [htext]

/-- A `trim` shortens the log if it has too many lines and no operation fails. -/
theorem carry_trim (file : File) :
    carry log mishaps (trim log).outcome file
      = (Call.result mishaps .trim file, Call.change mishaps .trim file) := by
  rw [trim, carry_readLines_bind]
  cases hread : mishaps.read with
  | some fault =>
    have hchange : Call.change mishaps .trim file = file := by
      simp [Call.change, hread]
    rw [hchange, Call.result, hread]
    dsimp only
    split
    · rfl
    · rfl
  | none =>
    have hlimits : Settings.maxLogLines = 10000 := rfl
    dsimp only
    by_cases hmany : 10000 < (filledLines file.text).length
    · have hlong : ¬ (filledLines file.text).length ≤ Settings.maxLogLines := by
        rw [hlimits]
        omega
      rw [if_neg hlong]
      refine (carry_ask (.writeFile log.path (joinLines (keptLines (filledLines file.text)))) _
        file).trans ?_
      rw [answer_writeFile, Call.result, hread]
      dsimp only
      rw [if_pos hmany]
      cases hwrite : mishaps.write with
      | some fault =>
        have hchange : Call.change mishaps .trim file = file := by
          simp [Call.change, hread, hwrite]
        rw [hchange]
        rfl
      | none =>
        have hchange : Call.change mishaps .trim file
            = some (Text.encodeUtf8 (joinLines (keptLines (filledLines file.text)))) := by
          simp [Call.change, hread, hwrite, hmany, Text.encodeUtf8, joinLines, keptLines, lastLines,
            Settings.keptLogLines]
        rw [hchange]
        rfl
    · have hshort : (filledLines file.text).length ≤ Settings.maxLogLines := by
        rw [hlimits]
        omega
      have hchange : Call.change mishaps .trim file = file := by
        simp [Call.change, hmany]
      rw [if_pos hshort, hchange, Call.result, hread]
      dsimp only
      rw [if_neg hmany]
      rfl

/-- The job of a `Call` does to the file its `change`, and has its `result`. -/
theorem carry_program (call : Call) (file : File) :
    carry log mishaps (call.job.program log) file
      = (call.result mishaps file, call.change mishaps file) := by
  cases call with
  | record now entry =>
    refine (carry_ask (.appendFile log.path (line now entry)) _ file).trans ?_
    rw [answer_appendFile, Call.change, Call.result]
    cases mishaps.append with
    | some fault => rfl
    | none => rfl
  | trim =>
    refine (carry_bind (trim log).outcome _ file).trans ?_
    rw [carry_trim]
    cases Call.result mishaps .trim file with
    | error fault => rfl
    | ok => rfl

end Carry

/-! ## Jobs one after another -/

/-- What jobs do when each waits for the one before it: the file in the end, and the results under
their tickets. -/
def carryAll (log : EventLog) (luck : Nat → Mishaps) :
    List (Nat × Job) → File → File × List (Nat × Except Fault Unit)
  | [], file => (file, [])
  | (ticket, job) :: rest, file =>
    let made := carry log (luck ticket) (job.program log) file
    let later := carryAll log luck rest made.2
    (later.1, (ticket, made.1) :: later.2)

/-- The jobs of calls, under numbers from `number` on. -/
def numbered (number : Nat) (calls : List Call) : List (Nat × Job) :=
  (calls.zipIdx number).map fun (call, ticket) => (ticket, call.job)

section Jobs

variable {log : EventLog} (luck : Nat → Mishaps)

theorem carryAll_append (jobs more : List (Nat × Job)) (file : File) :
    carryAll log luck (jobs ++ more) file
      = ((carryAll log luck more (carryAll log luck jobs file).1).1,
          (carryAll log luck jobs file).2
            ++ (carryAll log luck more (carryAll log luck jobs file).1).2) := by
  induction jobs generalizing file with
  | nil => rfl
  | cons job jobs ih =>
    rw [List.cons_append, carryAll, carryAll, ih]
    rfl

variable (log) in
/-- The jobs of calls do what the calls do, by `oneByOne`. -/
theorem carryAll_numbered (number : Nat) (calls : List Call) (file : File) :
    carryAll log luck (numbered number calls) file = oneByOne luck number calls file := by
  induction calls generalizing number file with
  | nil => rfl
  | cons call calls ih =>
    have hnumbered : numbered number (call :: calls)
        = (number, call.job) :: numbered (number + 1) calls := rfl
    rw [hnumbered, carryAll, oneByOne, carry_program, ih]

theorem numbered_append (calls : List Call) (call : Call) :
    numbered 0 (calls ++ [call]) = numbered 0 calls ++ [(calls.length, call.job)] := by
  simp [numbered, List.zipIdx_append]

/-! ## What the queue has still to do -/

/-- What the queue does from here on if nothing else is issued: the rest of the job in front, and
the jobs behind it. -/
def Queue.remaining (luck : Nat → Mishaps) (queue : Queue) (file : File) :
    File × List (Nat × Except Fault Unit) :=
  match queue.current with
  | none => (file, [])
  | some (ticket, waiting) =>
    let made := carry queue.log (luck ticket) (.ask waiting.request waiting.next) file
    let later := carryAll queue.log luck queue.behind made.2
    (later.1, (ticket, made.1) :: later.2)

/-- A `Queue` of a log in which no job waits while none is under way. -/
structure Queue.Sound (log : EventLog) (queue : Queue) : Prop where
  log : queue.log = log
  idle : queue.current = none → queue.behind = []

/-- Starting jobs by `startNext` takes nothing away from what they do. -/
theorem remaining_startNext (jobs : List (Nat × Job)) (file : File) :
    (Queue.startNext log jobs).1.Sound log ∧
      (((Queue.startNext log jobs).1.remaining luck file).1,
        (Queue.startNext log jobs).2 ++ ((Queue.startNext log jobs).1.remaining luck file).2)
      = carryAll log luck jobs file := by
  -- jobs that make no request end at once, so the induction is on the jobs in front
  induction jobs with
  | nil => exact ⟨⟨rfl, fun _ => rfl⟩, rfl⟩
  | cons job jobs ih =>
    obtain ⟨ticket, job⟩ := job
    have hcarry : carry log (luck ticket) (job.program log) file = _ := carry_advance _ file
    rw [carryAll, hcarry]
    cases hjob : Queue.advance (job.program log) with
    | inl result =>
      have hstart : Queue.startNext log ((ticket, job) :: jobs)
          = ((Queue.startNext log jobs).1, (ticket, result) :: (Queue.startNext log jobs).2) := by
        simp only [Queue.startNext, hjob]
      rw [hstart]
      refine ⟨ih.1, ?_⟩
      dsimp only
      rw [← ih.2]
      rfl
    | inr waiting =>
      have hstart : Queue.startNext log ((ticket, job) :: jobs)
          = ({ log, current := some (ticket, waiting), behind := jobs }, []) := by
        simp only [Queue.startNext, hjob]
      rw [hstart]
      exact ⟨⟨rfl, nofun⟩, rfl⟩

/-- A job that `issue` puts into the queue is done behind everything else. -/
theorem remaining_issue {queue : Queue} (h : queue.Sound log) (ticket : Nat) (job : Job)
    (file : File) :
    (queue.issue ticket job).1.Sound log ∧
      (((queue.issue ticket job).1.remaining luck file).1,
        (queue.issue ticket job).2 ++ ((queue.issue ticket job).1.remaining luck file).2)
      = ((carryAll log luck [(ticket, job)] (queue.remaining luck file).1).1,
          (queue.remaining luck file).2
            ++ (carryAll log luck [(ticket, job)] (queue.remaining luck file).1).2) := by
  obtain ⟨queueLog, current, behind⟩ := queue
  obtain rfl : queueLog = log := h.log
  cases current with
  | none =>
    obtain rfl : behind = [] := h.idle rfl
    exact remaining_startNext luck [(ticket, job)] file
  | some front =>
    obtain ⟨number, waiting⟩ := front
    refine ⟨⟨rfl, nofun⟩, ?_⟩
    simp only [Queue.issue, Queue.remaining, carryAll_append, List.nil_append, List.cons_append]

/-- Answering the job in front by `resume` takes nothing away from what the queue does. -/
theorem remaining_resume {queue : Queue} (h : queue.Sound log) {ticket : Nat} {waiting : Waiting}
    (hcurrent : queue.current = some (ticket, waiting)) (file : File) :
    let made := File.answer log (luck ticket) waiting.request file
    let after := queue.resume ticket (waiting.next made.1)
    after.1.Sound log ∧
      ((after.1.remaining luck made.2).1, after.2 ++ (after.1.remaining luck made.2).2)
      = queue.remaining luck file := by
  obtain ⟨queueLog, current, behind⟩ := queue
  obtain rfl : queueLog = log := h.log
  obtain rfl : current = some (ticket, waiting) := hcurrent
  intro made after
  have hremaining : Queue.remaining luck ⟨queueLog, some (ticket, waiting), behind⟩ file
      = ((carryAll queueLog luck behind
            (carry queueLog (luck ticket) (waiting.next made.1) made.2).2).1,
          (ticket, (carry queueLog (luck ticket) (waiting.next made.1) made.2).1)
            :: (carryAll queueLog luck behind
                (carry queueLog (luck ticket) (waiting.next made.1) made.2).2).2) := rfl
  have hcarry : carry queueLog (luck ticket) (waiting.next made.1) made.2 = _ :=
    carry_advance _ made.2
  rw [hremaining, hcarry]
  cases hnext : Queue.advance (waiting.next made.1) with
  | inl result =>
    have hafter : after = ((Queue.startNext queueLog behind).1,
        (ticket, result) :: (Queue.startNext queueLog behind).2) := by
      simp only [after, Queue.resume, hnext]
    obtain ⟨hsound, hends⟩ := remaining_startNext luck behind made.2
    rw [hafter]
    refine ⟨hsound, ?_⟩
    dsimp only
    rw [← hends]
    rfl
  | inr later =>
    have hafter : after = (⟨queueLog, some (ticket, later), behind⟩, []) := by
      simp only [after, Queue.resume, hnext]
    rw [hafter]
    exact ⟨⟨rfl, nofun⟩, rfl⟩

end Jobs

/-! ## How long it takes -/

/-- A program that makes `n` requests at most, whatever is replied. -/
def Within {α : Type} : Nat → Program Unit interface α → Prop
  | _, .done _ => True
  | n, .read next => ∀ s, Within n (next s)
  | n, .write _ next => Within n next
  | 0, .ask .. => False
  | n + 1, .ask _ next => ∀ reply, Within n (next reply)

theorem Within.mono {α : Type} {n m : Nat} {p : Program Unit interface α} (h : Within n p)
    (hle : n ≤ m) : Within m p := by
  induction p generalizing n m with
  | done a => trivial
  | read next ih => exact fun s => ih s (h s) hle
  | write s next ih => exact ih h hle
  | ask r next ih =>
    cases n with
    | zero => exact h.elim
    | succ n =>
      obtain ⟨k, rfl⟩ := Nat.exists_eq_add_of_le' hle
      exact fun reply => ih reply (h reply) (Nat.le_add_left n k)

theorem within_advance {n : Nat} {p : Program Unit interface (Except Fault Unit)}
    {waiting : Waiting} (hp : Within n p) (hwaiting : Queue.advance p = .inr waiting) :
    ∃ k, n = k + 1 ∧ ∀ reply, Within k (waiting.next reply) := by
  induction p with
  | done result => exact absurd hwaiting nofun
  | read next ih => exact ih () (hp ()) hwaiting
  | write s next ih => exact ih hp hwaiting
  | ask r next ih =>
    obtain rfl := Sum.inr.inj hwaiting
    cases n with
    | zero => exact hp.elim
    | succ k => exact ⟨k, rfl, hp⟩

theorem within_bind {α β : Type} {n m : Nat} {p : Program Unit interface α}
    {f : α → Program Unit interface β} (hp : Within n p) (hf : ∀ a, Within m (f a)) :
    Within (m + n) (p >>= f) := by
  induction p generalizing n with
  | done a =>
    exact (hf a).mono (Nat.le_add_right m n)
  | read next ih => exact fun s => ih s (hp s)
  | write s next ih => exact ih hp
  | ask r next ih =>
    cases n with
    | zero => exact hp.elim
    | succ n => exact fun reply => ih reply (hp reply)

theorem within_attempt_bind {α β : Type} {n m : Nat} {x : Attempt Unit interface α}
    {f : α → Attempt Unit interface β} (hx : Within n x.outcome)
    (hf : ∀ a, Within m (f a).outcome) : Within (m + n) (x >>= f).outcome := by
  refine within_bind hx ?_
  rintro (fault | a)
  · exact trivial
  · exact hf a

/-- Every `Job` makes at most four requests: a trim reads, writes and reports one thing or two. -/
theorem within_program (log : EventLog) (job : Job) : Within 4 (job.program log) := by
  cases job with
  | append line =>
    intro reply
    cases reply with
    | error fault => exact fun _ => trivial
    | ok => trivial
  | trim =>
    have hread : Within 1 (readLines log).outcome := by
      intro reply
      cases reply with
      | error fault =>
        show Within 0 (if isMissingFile fault then pure [] else throw fault
          : Attempt Unit interface (List (List Char))).outcome
        split <;> trivial
      | ok text => trivial
    have htrim : Within 3 (trim log).outcome := by
      refine within_attempt_bind hread fun lines => ?_
      split
      · trivial
      · intro reply
        cases reply with
        | error fault => trivial
        | ok => exact fun _ => trivial
    refine within_bind htrim fun result => ?_
    cases result with
    | error fault => exact fun _ => trivial
    | ok => trivial

/-- At most `n` requests are made until everything in a queue is done. -/
def Queue.Due (n : Nat) (queue : Queue) : Prop :=
  match queue.current with
  | none => True
  | some (_, waiting) =>
    ∃ k, (∀ reply, Within k (waiting.next reply)) ∧ k + 1 + 4 * queue.behind.length ≤ n

section Due

variable {log : EventLog} {queue : Queue} {n : Nat}

theorem Queue.Due.idle (h : queue.Due 0) : queue.current = none := by
  obtain ⟨queueLog, current, behind⟩ := queue
  cases current with
  | none => rfl
  | some front =>
    obtain ⟨k, -, hle⟩ := h
    omega

theorem Queue.Due.mono {m : Nat} (h : queue.Due n) (hle : n ≤ m) : queue.Due m := by
  obtain ⟨queueLog, current, behind⟩ := queue
  cases current with
  | none => trivial
  | some front =>
    obtain ⟨k, hwithin, hdue⟩ := h
    exact ⟨k, hwithin, Nat.le_trans hdue hle⟩

theorem due_startNext (log : EventLog) (jobs : List (Nat × Job)) :
    (Queue.startNext log jobs).1.Due (4 * jobs.length) := by
  induction jobs with
  | nil => trivial
  | cons job jobs ih =>
    obtain ⟨ticket, job⟩ := job
    rw [List.length_cons]
    cases hjob : Queue.advance (job.program log) with
    | inl result =>
      simp only [Queue.startNext, hjob]
      exact ih.mono (by omega)
    | inr waiting =>
      obtain ⟨k, hk, hwithin⟩ := within_advance (within_program log job) hjob
      simp only [Queue.startNext, hjob]
      refine ⟨k, hwithin, ?_⟩
      dsimp only
      omega

theorem due_issue (hsound : queue.Sound log) (h : queue.Due n) (ticket : Nat) (job : Job) :
    (queue.issue ticket job).1.Due (n + 4) := by
  obtain ⟨queueLog, current, behind⟩ := queue
  cases current with
  | none =>
    obtain rfl : behind = [] := hsound.idle rfl
    exact (due_startNext queueLog [(ticket, job)]).mono (by simp)
  | some front =>
    obtain ⟨k, hwithin, hdue⟩ := h
    refine ⟨k, hwithin, ?_⟩
    simp only [Queue.issue, List.length_append, List.length_singleton] at hdue ⊢
    omega

theorem due_resume {ticket : Nat} {waiting : Waiting} (h : queue.Due (n + 1))
    (hcurrent : queue.current = some (ticket, waiting)) (reply : interface.Reply waiting.request) :
    (queue.resume ticket (waiting.next reply)).1.Due n := by
  obtain ⟨queueLog, current, behind⟩ := queue
  obtain rfl : current = some (ticket, waiting) := hcurrent
  obtain ⟨k, hwithin, hdue⟩ := h
  dsimp only at hdue
  cases hnext : Queue.advance (waiting.next reply) with
  | inl result =>
    simp only [Queue.resume, hnext]
    exact (due_startNext queueLog behind).mono (by omega)
  | inr later =>
    obtain ⟨j, rfl, hlater⟩ := within_advance (hwithin reply) hnext
    simp only [Queue.resume, hnext]
    refine ⟨j, hlater, ?_⟩
    dsimp only
    omega

end Due

/-! ## The whole log -/

namespace Journal

variable {log : EventLog} {luck : Nat → Mishaps} {initial : File} {journal : Journal}

/-- What the queue has still to do, behind what it has done, is what the calls do `oneByOne`. -/
structure Accords (log : EventLog) (luck : Nat → Mishaps) (initial : File) (journal : Journal) :
    Prop where
  queue : journal.queue.Sound log
  ends : ((journal.queue.remaining luck journal.file).1,
      journal.results ++ (journal.queue.remaining luck journal.file).2)
    = oneByOne luck 0 journal.calls initial

theorem accords_new : Accords log luck initial (new log initial) := ⟨⟨rfl, fun _ => rfl⟩, rfl⟩

/-- No `step` changes what is done in the end, but for the call that it issues. -/
theorem Accords.step (h : Accords log luck initial journal) (happening : Happening) :
    Accords log luck initial (journal.step luck happening) := by
  have hends := h.ends
  cases happening with
  | issue call =>
    obtain ⟨hsound, hissue⟩ :=
      remaining_issue luck h.queue journal.calls.length call.job journal.file
    obtain ⟨hfile, hresults⟩ := Prod.mk.inj hissue
    refine ⟨hsound, ?_⟩
    have hcalls : (journal.step luck (.issue call)).calls = journal.calls ++ [call] := rfl
    rw [← carryAll_numbered log] at hends
    rw [← carryAll_numbered log, hcalls, numbered_append, carryAll_append, ← hends]
    refine Prod.ext hfile ?_
    show (journal.results ++ _) ++ _ = (journal.results ++ _) ++ _
    rw [List.append_assoc, List.append_assoc, ← hresults]
    rfl
  | answer =>
    cases hcurrent : journal.queue.current with
    | none =>
      have hstep : journal.step luck .answer = journal := by
        simp only [Journal.step, hcurrent]
      rw [hstep]
      exact h
    | some front =>
      obtain ⟨ticket, waiting⟩ := front
      obtain ⟨hsound, hresume⟩ := remaining_resume luck h.queue hcurrent journal.file
      have hfile := congrArg Prod.fst hresume
      have hresults := congrArg Prod.snd hresume
      have hstep : journal.step luck .answer =
          let made := File.answer log (luck ticket) waiting.request journal.file
          let after := journal.queue.resume ticket (waiting.next made.1)
          { journal with
            queue := after.1
            file := made.2
            results := journal.results ++ after.2 } := by
        simp only [Journal.step, hcurrent, h.queue.log]
      rw [hstep]
      refine ⟨hsound, ?_⟩
      dsimp only at hfile hresults ⊢
      rw [← hends, ← hfile, ← hresults, List.append_assoc]

theorem Accords.run (h : Accords log luck initial journal) (happenings : List Happening) :
    Accords log luck initial (journal.run luck happenings) := by
  induction happenings generalizing journal with
  | nil => exact h
  | cons happening rest ih => exact ih (h.step happening)

/-- The `calls` that were issued, in their order. -/
theorem calls_run (happenings : List Happening) :
    (journal.run luck happenings).calls
      = journal.calls ++ happenings.filterMap Happening.call? := by
  induction happenings generalizing journal with
  | nil => exact (List.append_nil _).symm
  | cons happening rest ih =>
    have hrun : journal.run luck (happening :: rest)
        = (journal.step luck happening).run luck rest := rfl
    rw [hrun, ih]
    cases happening with
    | issue call =>
      have hcalls : (journal.step luck (.issue call)).calls = journal.calls ++ [call] := rfl
      rw [hcalls, List.append_assoc]
      rfl
    | answer =>
      have hcalls : (journal.step luck .answer).calls = journal.calls := by
        rw [step]
        split <;> rfl
      rw [hcalls]
      rfl

/-- A call brings at most four requests, and an `answer` never adds to what is to be done. -/
theorem due_run (h : Accords log luck initial journal)
    (hdue : journal.queue.Due (4 * journal.calls.length)) (happenings : List Happening) :
    (journal.run luck happenings).queue.Due (4 * (journal.run luck happenings).calls.length) := by
  induction happenings generalizing journal with
  | nil => exact hdue
  | cons happening rest ih =>
    refine ih (h.step happening) ?_
    cases happening with
    | issue call =>
      have hlength : (journal.step luck (.issue call)).calls.length = journal.calls.length + 1 :=
        List.length_append
      rw [hlength]
      exact due_issue h.queue hdue _ _
    | answer =>
      rw [step]
      split
      · exact hdue
      · rename_i ticket waiting hcurrent
        exact due_resume (hdue.mono (Nat.le_succ _)) hcurrent _

/-- Answers alone bring a log to rest: there is no `current` job. -/
theorem idle_of_answers {n : Nat} (hdue : journal.queue.Due n) :
    (journal.run luck (List.replicate n .answer)).queue.current = none := by
  induction n generalizing journal with
  | zero => exact hdue.idle
  | succ n ih =>
    have hrun : journal.run luck (List.replicate (n + 1) .answer)
        = (journal.step luck .answer).run luck (List.replicate n .answer) := rfl
    rw [hrun]
    refine ih ?_
    rw [step]
    split
    · rename_i hcurrent
      rw [Queue.Due, hcurrent]
      trivial
    · rename_i ticket waiting hcurrent
      exact due_resume hdue hcurrent _

/-- What has ended so far has ended as it does `oneByOne`. -/
theorem Accords.results_prefix (h : Accords log luck initial journal) :
    journal.results <+: (oneByOne luck 0 journal.calls initial).2 := by
  have hresults := congrArg Prod.snd h.ends
  exact ⟨_, hresults⟩

theorem Accords.ends_of_idle (h : Accords log luck initial journal)
    (hidle : journal.queue.current = none) :
    (journal.file, journal.results) = oneByOne luck 0 journal.calls initial := by
  have hremaining : journal.queue.remaining luck journal.file = (journal.file, []) := by
    rw [Queue.remaining, hidle]
  have hends := h.ends
  rwa [hremaining, List.append_nil] at hends

/-- Answers alone bring the file to what the calls make of it `oneByOne`. -/
theorem Accords.file_of_answers (h : Accords log luck initial journal)
    (hdue : journal.queue.Due (4 * journal.calls.length)) :
    (journal.run luck (List.replicate (4 * journal.calls.length) .answer)).file
      = (oneByOne luck 0 journal.calls initial).1 := by
  generalize hanswers : List.replicate (4 * journal.calls.length) Happening.answer = answers
  have hnone : answers.filterMap Happening.call? = [] := by
    rw [← hanswers, List.filterMap_replicate_of_none rfl]
  have hidle : (journal.run luck answers).queue.current = none := hanswers ▸ idle_of_answers hdue
  have hends := congrArg Prod.fst ((h.run answers).ends_of_idle hidle)
  rwa [calls_run, hnone, List.append_nil] at hends

end Journal

end EventLog

end Outpost

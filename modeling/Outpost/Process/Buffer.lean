import Outpost.Fault

/-!
# Buffered processes

What is kept of a running process: the output that nobody has consumed yet, from the moment of its
launch, so that nothing written before a reader appears is lost. A reader takes standard output up
to the next line feed; a collector waits until the process is closed and takes everything that was
not consumed. Once the output is discarded, neither keeps anything.

Readers and collectors wait under tickets. Something that happens to a process is a `Stimulus`:
`Buffer.apply` says what it changes at once, and `Buffer.serve` answers everybody whose wait is
over, readers before collectors, each in the order in which they began to wait.

## Contents

* `Buffer`, `Stimulus`, `Answer`.
* `Buffer.takeLine?`, `Buffer.collect`: how output is consumed.
* `Buffer.apply`, `Buffer.serve`, `Buffer.step`.
-/

namespace Outpost

/-- What a process wrote that nobody has consumed, on its `stdout` and its `stderr`. -/
structure Output where
  stdout : Bytes
  stderr : Bytes
deriving DecidableEq

/-- No output. -/
def Output.nothing : Output := ⟨[], []⟩

/-- What is kept of a process, and who waits for it. -/
structure Buffer where
  /-- Standard output that was not `consumed`. -/
  unread : Bytes := []
  /-- Standard output that readers took, line feeds included. -/
  consumed : Bytes := []
  /-- Standard error that was not collected, by `collect`. -/
  errors : Bytes := []
  /-- Whether standard output has `ended`. -/
  ended : Bool := false
  /-- Whether output is no longer kept, after `discard`. -/
  discarding : Bool := false
  /-- The exit code that was reported; `null` as long as there is none. -/
  exitCode : Json := .null
  /-- Whether the process has exited and its output is closed. -/
  closed : Bool := false
  /-- The tickets of waiting readers, first come first. -/
  readers : List Nat := []
  /-- The tickets of waiting collectors, first come first. -/
  collectors : List Nat := []
deriving BEq

/-- Something that happens to a process, as `step` takes it. -/
inductive Stimulus where
  /-- Standard output is written, one `chunk` of it. -/
  | output (chunk : Bytes)
  /-- Standard error is written, one `chunk` of it. -/
  | errors (chunk : Bytes)
  /-- Standard output ends. -/
  | ended
  /-- The process exits, with a `code` or without. -/
  | exited (code : Json)
  /-- The process has exited and its output is closed. -/
  | closed
  /-- A reader asks for a line, under a `ticket`. -/
  | readLine (ticket : Nat)
  /-- A collector asks for the unread output, under a `ticket`. -/
  | collect (ticket : Nat)
  /-- The collector with this `ticket` gives up. -/
  | giveUp (ticket : Nat)
  /-- The output is no longer wanted. -/
  | discard
deriving BEq

/-- What a reader or a collector is told, by its ticket. -/
inductive Answer where
  /-- A line without its line feed, or `none` if the output ended before one. -/
  | line (text : Option String)
  /-- Everything that was `unread` when the process was `closed`. -/
  | output (found : Output)
deriving DecidableEq

namespace Buffer

/-- The line feed. -/
def lineFeed : UInt8 := 0x0a

/-- The first line of the `unread` output, without its line feed, and the buffer without it. -/
def takeLine? (b : Buffer) : Option (Bytes × Buffer) :=
  if lineFeed ∈ b.unread then
    let line := b.unread.takeWhile (· ≠ lineFeed)
    some (line, { b with
      unread := b.unread.drop (line.length + 1)
      consumed := b.consumed ++ line ++ [lineFeed] })
  else none

/-- Everything that is `unread`, with the `errors`, and the buffer without it. -/
def collect (b : Buffer) : Output × Buffer :=
  (⟨b.unread, b.errors⟩, { b with unread := [], errors := [] })

/-- What a `Stimulus` changes at once, before anybody is answered. -/
def apply (b : Buffer) : Stimulus → Buffer
  | .output chunk => if b.discarding then b else { b with unread := b.unread ++ chunk }
  | .errors chunk => if b.discarding then b else { b with errors := b.errors ++ chunk }
  | .ended => { b with ended := true }
  | .exited code => { b with exitCode := code }
  | .closed => { b with closed := true, ended := true }
  | .readLine ticket => { b with readers := b.readers ++ [ticket] }
  | .collect ticket => { b with collectors := b.collectors ++ [ticket] }
  | .giveUp ticket => { b with collectors := b.collectors.filter (· ≠ ticket) }
  | .discard =>
    { b with discarding := true, unread := [], consumed := [], errors := [], ended := true }

/-- Answers readers in their order for as long as `takeLine?` finds lines, and all of them once the
output has `ended`. The rest go on waiting. -/
def serveReaders : List Nat → Buffer → Buffer × List (Nat × Answer)
  | [], b => ({ b with readers := [] }, [])
  | ticket :: waiting, b =>
    match b.takeLine? with
    | some (line, next) =>
      let (last, answers) := serveReaders waiting next
      (last, (ticket, .line (some (Text.decodeUtf8 line))) :: answers)
    | none =>
      if b.ended then
        let (last, answers) := serveReaders waiting b
        (last, (ticket, .line none) :: answers)
      else ({ b with readers := ticket :: waiting }, [])

/-- Answers collectors in their order: the first gets everything, by `collect`, the others
nothing. -/
def serveCollectors : List Nat → Buffer → Buffer × List (Nat × Answer)
  | [], b => ({ b with collectors := [] }, [])
  | ticket :: waiting, b =>
    let (found, next) := b.collect
    let (last, answers) := serveCollectors waiting next
    (last, (ticket, .output found) :: answers)

/-- Answers everybody whose wait is over, by `serveReaders` and `serveCollectors`. -/
def serve (b : Buffer) : Buffer × List (Nat × Answer) :=
  let (afterReaders, lines) := serveReaders b.readers b
  if afterReaders.closed then
    let (last, outputs) := serveCollectors afterReaders.collectors afterReaders
    (last, lines ++ outputs)
  else (afterReaders, lines)

/-- What a `stimulus` leads to: `apply`, and then `serve`, so that everybody whose wait it ends is
answered. -/
def step (b : Buffer) (stimulus : Stimulus) : Buffer × List (Nat × Answer) :=
  (b.apply stimulus).serve

/-- The fault of a wait for a process that took longer than `timeout`. A process without a `pid` is
named by its `argv`. -/
def overdue (pid : Option Json) (argv : List Json) (timeout : Timeout) : Fault :=
  .timedOut ("process " ++ Json.textOf (pid <|> argv.head?) ++ " to exit") timeout

end Buffer

end Outpost

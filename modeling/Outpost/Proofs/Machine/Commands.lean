import Outpost.Machine.OpenSsh
import Outpost.Machine.SshClient
import Outpost.Proofs.Process.Conduct
import Outpost.Proofs.Run
import Outpost.Proofs.Text.Chunks

/-!
# The same command on two hosts

A command line is run on a host that is reached through a client, and on one that is reached
through `ssh`. It does the same both times, though its output may come in different chunks. The
`ssh` process keeps the bytes and decodes them together at the end; the client's machine decodes
each chunk on its own. Both know the same exit code, and their texts are the same just if no chunk
that the client was given ends inside a sequence (`command_read_alike_iff_uncut`). In that case both
find the same paths.

## Contents

* `SshClient.Execution.of`, `SshClient.Hears`: a command on a channel.
* `OpenSsh.Spawns`: a command in an `ssh` process. `Performance.communicate_of_unread`: what is
  collected of it.
* `Alike`: commands that did the same.
* `command_read_alike_iff_uncut`.
-/

namespace Outpost

/-! ## What is collected from a process that nobody reads -/

namespace Performance

/-- A buffer that somebody waits for the end of and that nobody reads from. -/
structure Unread (ticket : Nat) (done : List Sign) (b : Buffer) : Prop where
  kept : Kept done b
  collectors : b.collectors = [ticket]
  readers : b.readers = []
  unconsumed : b.consumed = []

section Unread

variable {ticket : Nat} {done : List Sign} {b : Buffer}

theorem Unread.collecting (h : Unread ticket done b) : Collecting ticket done b := by
  refine ⟨h.kept, h.collectors, ?_⟩
  rw [h.readers]
  exact nofun

theorem Unread.andSign (h : Unread ticket done b) (sign : Sign) :
    Unread ticket (done ++ [sign]) (b.apply sign.stimulus) := by
  have hkept := h.kept.andSign sign
  rw [apply_sign h.kept.kept sign] at hkept ⊢
  exact ⟨hkept, h.collectors, h.readers, h.unconsumed⟩

/-- Nobody is served by `serve` as long as the process is not closed. -/
theorem Unread.serve_of_not_over (h : Unread ticket done b) (hover : Sign.hasClosed done = false) :
    b.serve = (b, []) := by
  have hsame : ({ b with readers := [] } : Buffer) = b := by
    rw [← h.readers]
  rw [Buffer.serve, h.readers, Buffer.serveReaders, hsame]
  exact if_neg (ne_true_of_eq_false (h.kept.closed.trans hover))

/-- Once the process is closed, all that it wrote is collected by `serve`. -/
theorem Unread.serve (h : Unread ticket done b) (hover : Sign.hasClosed done = true) :
    b.serve.2.lookup ticket = some (.output ⟨Sign.stdout done, Sign.stderr done⟩) ∧
      b.serve.1.exitCode = Sign.exitCode done := by
  have hsame : ({ b with readers := [] } : Buffer) = b := by
    rw [← h.readers]
  have houtput : b.unread = Sign.stdout done := by
    have hkept := h.kept.output
    rwa [h.unconsumed, List.nil_append] at hkept
  rw [Buffer.serve, h.readers, Buffer.serveReaders, hsame]
  simp only [h.kept.closed.trans hover, if_true, h.collectors, Buffer.serveCollectors,
    Buffer.collect, houtput, h.kept.errors]
  exact ⟨List.lookup_cons_self, h.kept.exitCode⟩

theorem unread_agrees (ticket : Nat) : Agrees Sign.hasClosed ticket (Unread ticket) where
  sign := fun h sign => h.andSign sign
  answered := fun h hover => (collecting_agrees ticket).answered h.collecting hover
  waits := by
    intro done b h hover
    rw [h.serve_of_not_over hover]
    exact ⟨rfl, h⟩

/-- Whoever waits by `communicate` for the end of a process that nobody reads gets all that it
wrote, and the exit code is known then. -/
theorem communicate_of_unread {beats ahead : List Beat}
    (h : Beat.wait Sign.hasClosed false [] beats = some (done, ahead)) (overdue : Timeout → Fault) :
    ∃ later, ({ ahead := beats } : Performance).communicate overdue none
        = some (.ok ⟨Sign.stdout done, Sign.stderr done⟩, later) ∧
      later.buffer.exitCode = Sign.exitCode done := by
  have hasking : Unread 0 [] (({} : Buffer).apply (.collect 0)) :=
    ⟨kept_new.waiting [] [0], rfl, rfl, rfl⟩
  have hspec := await_spec (unread_agrees 0) false beats
    { ahead := beats, buffer := ({} : Buffer).apply (.collect 0), tickets := 1 } hasking
  rw [h] at hspec
  obtain ⟨b, hb, hawait⟩ := hspec
  obtain ⟨hfound, hcode⟩ := hb.serve (Beat.over_of_wait h)
  rw [hfound] at hawait
  refine ⟨⟨done, ahead, b.serve.1, 1⟩, ?_, hcode⟩
  rw [communicate]
  dsimp only [Option.isSome_none, Nat.zero_add]
  rw [hawait]

end Unread

end Performance

/-! ## Commands in both kinds of surroundings -/

namespace Attempt

variable {σ : Type} {I : Interface} {α β : Type} {x : Attempt σ I α} {s s' : σ}
  {exchanges : List (Program.Exchange I)}

/-- What `f` makes of a result without asking for anything. -/
theorem run_bind_ofExcept_iff {f : α → Except Fault β} {result : Except Fault β} :
    Run (x >>= fun a => ofExcept (f a)) s exchanges s' result ↔
      ∃ ending, Run x s exchanges s' ending ∧ result = ending.bind f := by
  rw [run_bind_iff]
  constructor
  · rintro (⟨fault, h, rfl⟩ | ⟨mid, a, first, second, h₁, h₂, rfl⟩)
    · exact ⟨.error fault, h, rfl⟩
    · obtain ⟨rfl, rfl, rfl⟩ := run_ofExcept_iff.1 h₂
      rw [List.append_nil]
      exact ⟨.ok a, h₁, rfl⟩
  · rintro ⟨fault | a, h, rfl⟩
    · exact .inl ⟨fault, h, rfl⟩
    · exact .inr ⟨s', a, exchanges, [], h, run_ofExcept_iff.2 ⟨rfl, rfl, rfl⟩,
        (List.append_nil _).symm⟩

end Attempt

namespace SshClient

variable {σ α β : Type} {events : List Channel.Event} {s : σ}

/-- What a command left behind of which `events` were reported. -/
def Execution.of (events : List Channel.Event) : Execution := events.foldl Execution.after .silent

/-- How an attempt ends that runs one command, of which the client hears `events`. -/
def Hears (events : List Channel.Event) (x : Attempt σ interface α) (s : σ)
    (result : Except Fault α) : Prop :=
  ∃ line, Attempt.Run x s [⟨.execute line, .ok (.of events)⟩] s result

theorem hears_bind_iff {x : Attempt σ interface α} {f : α → Except Fault β}
    {result : Except Fault β} :
    Hears events (x >>= fun a => Attempt.ofExcept (f a)) s result ↔
      ∃ ending, Hears events x s ending ∧ result = ending.bind f := by
  simp only [Hears, Attempt.run_bind_ofExcept_iff]
  constructor
  · rintro ⟨line, ending, h, rfl⟩
    exact ⟨ending, ⟨line, h⟩, rfl⟩
  · rintro ⟨ending, ⟨line, h⟩, rfl⟩
    exact ⟨line, ending, h, rfl⟩

/-- What the machine makes of the `Execution` of a command. -/
def Execution.finished (execution : Execution) : Machine.Finished :=
  ⟨decodeChunks execution.stdout, decodeChunks execution.stderr,
    Channel.exitCode (Json.shown execution.report)⟩

theorem run_eq_bind (line : String) :
    (run line : Attempt σ interface Machine.Finished)
      = (ExceptT.mk (.ask (.execute line) .done) : Attempt σ interface Execution)
        >>= fun execution => Attempt.ofExcept (.ok execution.finished) := rfl

/-- A command that was carried out by `run` is read, however it exits. -/
theorem hears_run_iff {line : String} {result : Except Fault Machine.Finished} :
    Hears events (run line) s result ↔ result = .ok (Execution.of events).finished := by
  have hask {ending : Except Fault Execution} :
      Hears events (ExceptT.mk (.ask (.execute line) .done)) s ending ↔
        ending = .ok (.of events) := by
    constructor
    · rintro ⟨line', h⟩
      obtain ⟨h, -⟩ := Program.run_request_iff.1 h
      cases (List.cons.inj h).1
      rfl
    · rintro rfl
      exact ⟨line, Program.run_request_iff.2 ⟨rfl, rfl⟩⟩
  rw [run_eq_bind, hears_bind_iff]
  simp only [hask, exists_eq_left]
  rfl

/-- A command that has to succeed, by `runChecked`. -/
theorem hears_runChecked_iff {host : SshClient} {line : String} {result : Except Fault String} :
    Hears events (host.runChecked line) s result ↔
      result = (Execution.of events).finished.require host.name line := by
  rw [runChecked, hears_bind_iff]
  simp only [hears_run_iff, exists_eq_left]
  rfl

theorem tempDirectory_eq_bind (host : SshClient) :
    (host.tempDirectory : Attempt σ interface Machine.Directory)
      = (host.runChecked Machine.makeDirectoryLine : Attempt σ interface String)
        >>= fun output => Attempt.ofExcept (.ok ⟨Text.trim output⟩) := rfl

theorem hears_tempDirectory_iff {host : SshClient} {result : Except Fault Machine.Directory} :
    Hears events host.tempDirectory s result ↔
      result = ((Execution.of events).finished.require host.name Machine.makeDirectoryLine).map
        fun output => ⟨Text.trim output⟩ := by
  rw [tempDirectory_eq_bind, hears_bind_iff]
  simp only [hears_runChecked_iff, exists_eq_left]
  rfl

theorem hears_which_iff {host : SshClient} {name : String} {result : Except Fault Machine.Command} :
    Hears events (host.which name) s result ↔
      result = (Execution.of events).finished.command host.machine.name name := by
  rw [which, hears_bind_iff]
  simp only [hears_run_iff, exists_eq_left]
  rfl

end SshClient

namespace OpenSsh

variable {τ α β : Type} {beats : List Beat} {t : τ}

/-- How an attempt ends that starts one `ssh` process, which does `beats`. -/
def Spawns (beats : List Beat) (x : Attempt τ interface α) (t : τ) (result : Except Fault α) :
    Prop :=
  ∃ launch child overdue found later,
    ({ ahead := beats } : Performance).communicate overdue none = some (.ok found, later) ∧
      Attempt.Run x t [⟨.spawn launch, .ok child⟩, ⟨.communicate child.id, found⟩,
        ⟨.exitCode child.id, later.buffer.exitCode⟩] t result

theorem tempDirectory_eq_bind (host : OpenSsh) :
    (host.tempDirectory : Attempt τ interface Machine.Directory)
      = (host.runChecked Machine.makeDirectoryLine none : Attempt τ interface String)
        >>= fun output => Attempt.ofExcept (.ok ⟨Text.trim output⟩) := rfl

theorem spawns_bind_iff {x : Attempt τ interface α} {f : α → Except Fault β}
    {result : Except Fault β} :
    Spawns beats (x >>= fun a => Attempt.ofExcept (f a)) t result ↔
      ∃ ending, Spawns beats x t ending ∧ result = ending.bind f := by
  simp only [Spawns, Attempt.run_bind_ofExcept_iff]
  constructor
  · rintro ⟨launch, child, overdue, found, later, hfound, ending, h, rfl⟩
    exact ⟨ending, ⟨launch, child, overdue, found, later, hfound, h⟩, rfl⟩
  · rintro ⟨ending, ⟨launch, child, overdue, found, later, hfound, h⟩, rfl⟩
    exact ⟨launch, child, overdue, found, later, hfound, ending, h, rfl⟩

section Closed

variable {done : List Sign} {ahead : List Beat}

/-- What the machine makes of a command whose process did `done`. -/
def finished (done : List Sign) : Machine.Finished :=
  ⟨Text.decodeUtf8 (Sign.stdout done), Text.decodeUtf8 (Sign.stderr done), Sign.exitCode done⟩

/-- A command whose process is closed in the end is read by `run`, however it exits. -/
theorem spawns_run_iff (h : Beat.wait Sign.hasClosed false [] beats = some (done, ahead))
    {host : OpenSsh} {line : String} {result : Except Fault Machine.Finished} :
    Spawns beats (host.run line none) t result ↔ result = .ok (finished done) := by
  constructor
  · rintro ⟨launch, child, overdue, found, later, hfound, hrun⟩
    obtain ⟨later', hfound', hcode⟩ := Performance.communicate_of_unread h overdue
    obtain ⟨hfound, rfl⟩ := Prod.mk.inj (Option.some.inj (hfound.symm.trans hfound'))
    obtain rfl := Except.ok.inj hfound
    obtain ⟨reply, rest, heq, hrun⟩ := Program.run_ask_iff.1 hrun
    cases heq
    obtain ⟨reply, rest, heq, hrun⟩ := Program.run_ask_iff.1 hrun
    cases heq
    obtain ⟨reply, rest, heq, hrun⟩ := Program.run_ask_iff.1 hrun
    cases heq
    rw [(Program.run_done_iff.1 hrun).2.2, hcode]
    rfl
  · rintro rfl
    let child : Child := ⟨0, none, [], false, true, true⟩
    obtain ⟨later, hfound, hcode⟩ := Performance.communicate_of_unread h (Buffer.overdue none [])
    refine ⟨host.remoteLaunch line, child, _, _, later, hfound, ?_⟩
    rw [hcode]
    refine Program.run_ask_iff.2 ⟨_, _, rfl, ?_⟩
    exact .ask _ (.ask _ (.done _ _))

variable (h : Beat.wait Sign.hasClosed false [] beats = some (done, ahead))

include h

/-- A command that has to succeed, by `runChecked`. -/
theorem spawns_runChecked_iff {host : OpenSsh} {line : String} {result : Except Fault String} :
    Spawns beats (host.runChecked line none) t result ↔
      result = (finished done).require host.label line := by
  rw [runChecked, spawns_bind_iff]
  simp only [spawns_run_iff h, exists_eq_left]
  rfl

theorem spawns_tempDirectory_iff {host : OpenSsh} {result : Except Fault Machine.Directory} :
    Spawns beats host.tempDirectory t result ↔
      result = ((finished done).require host.label Machine.makeDirectoryLine).map
        fun output => ⟨Text.trim output⟩ := by
  rw [tempDirectory_eq_bind, spawns_bind_iff]
  simp only [spawns_runChecked_iff h, exists_eq_left]
  rfl

theorem spawns_which_iff {host : OpenSsh} {name : String} {result : Except Fault Machine.Command} :
    Spawns beats (host.which name) t result ↔
      result = (finished done).command host.machine.name name := by
  rw [which, spawns_bind_iff]
  simp only [spawns_run_iff h, exists_eq_left]
  rfl

end Closed

end OpenSsh

/-! ## The same command -/

namespace Machine

variable {result : Finished} {line name text : String} {machine : String}

theorem require_eq_ok_iff :
    result.require machine line = .ok text ↔ result.succeeded = true ∧ result.stdout = text := by
  rw [Finished.require]
  by_cases h : result.succeeded = true
  · simp [h]
  · simp [h]

theorem command_eq_ok_iff {machine : Option Json} {command : Command} :
    result.command machine name = .ok command ↔
      result.succeeded = true ∧ firstLine result.stdout ≠ "" ∧
        .found [.string (firstLine result.stdout)] = command := by
  rw [Finished.command]
  by_cases h : result.succeeded = true
  · by_cases hpath : firstLine result.stdout = ""
    · simp [h, hpath]
    · simp [h, hpath]
  · simp [h]

end Machine

theorem SshClient.decodeChunks_eq (chunks : List Bytes) :
    decodeChunks chunks = String.ofList (chunks.flatMap Text.decodeBytes) := by
  induction chunks with
  | nil => rfl
  | cons chunk chunks ih =>
    rw [List.flatMap_cons, String.ofList_append, ← ih]
    simp [decodeChunks, Text.decodeUtf8]

/-- The text of chunks is by `decodeChunks` that of their bytes just if none of them ends inside a
sequence that goes on in the next. -/
theorem SshClient.decodeChunks_eq_iff (chunks : List Bytes) :
    decodeChunks chunks = Text.decodeUtf8 chunks.flatten ↔ Text.Uncut chunks := by
  rw [decodeChunks_eq, Text.decodeUtf8, ← Text.flatMap_decodeBytes_eq_iff]
  exact String.ofList_inj

/-- A command of which `events` were reported on a channel, and one whose `ssh` process did `done`:
both wrote the same bytes and exited alike. -/
structure Alike (events : List Channel.Event) (done : List Sign) : Prop where
  stdout : (SshClient.Execution.of events).stdout.flatten = Sign.stdout done
  stderr : (SshClient.Execution.of events).stderr.flatten = Sign.stderr done
  exitCode : Channel.exitCode (Json.shown (SshClient.Execution.of events).report)
    = Sign.exitCode done

/-- Nothing but the text of standard output and the exit code decides what is found. -/
theorem Machine.Finished.finds_alike {ours theirs : Machine.Finished}
    (hstdout : ours.stdout = theirs.stdout) (hcode : ours.exitCode = theirs.exitCode) :
    (∀ machine machine' line text,
      ours.require machine line = .ok text ↔ theirs.require machine' line = .ok text) ∧
    ∀ machine machine' name command,
      ours.command machine name = .ok command ↔ theirs.command machine' name = .ok command := by
  have hsucceeded : ours.succeeded = theirs.succeeded := by
    rw [Machine.Finished.succeeded, Machine.Finished.succeeded, hcode]
  refine ⟨fun machine machine' line text => ?_, fun machine machine' name command => ?_⟩
  · rw [Machine.require_eq_ok_iff, Machine.require_eq_ok_iff, hsucceeded, hstdout]
  · rw [Machine.command_eq_ok_iff, Machine.command_eq_ok_iff, hsucceeded, hstdout]

/-- **Commands are read alike where no chunk is cut inside a sequence, and nowhere else.** A command
line is run through a client and through `ssh`, and does the same both times, whatever chunks its
output comes in. Both machines read it, whether it succeeds or not, with the same exit code; through
`ssh` each text is that of all the bytes together, and the client's machine has the same text just
if none of its chunks ends inside a sequence that goes on in the next. Where that is so for standard
output, both machines find the same temporary directory and the same commands, or both find none. -/
theorem command_read_alike_iff_uncut {σ τ : Type} (client : SshClient) (host : OpenSsh)
    (line : String) (s : σ) (t : τ) {events : List Channel.Event} {beats ahead : List Beat}
    {done : List Sign} (hclosed : Beat.wait Sign.hasClosed false [] beats = some (done, ahead))
    (halike : Alike events done) :
    ∃ ours theirs : Machine.Finished,
      (∀ result, SshClient.Hears events (SshClient.run line) s result ↔ result = .ok ours) ∧
      (∀ result, OpenSsh.Spawns beats (host.run line none) t result ↔ result = .ok theirs) ∧
      ours.exitCode = theirs.exitCode ∧
      theirs.stdout = Text.decodeUtf8 (SshClient.Execution.of events).stdout.flatten ∧
      theirs.stderr = Text.decodeUtf8 (SshClient.Execution.of events).stderr.flatten ∧
      (ours.stdout = theirs.stdout ↔ Text.Uncut (SshClient.Execution.of events).stdout) ∧
      (ours.stderr = theirs.stderr ↔ Text.Uncut (SshClient.Execution.of events).stderr) ∧
      (Text.Uncut (SshClient.Execution.of events).stdout →
        (∀ directory, SshClient.Hears events client.tempDirectory s (.ok directory) ↔
          OpenSsh.Spawns beats host.tempDirectory t (.ok directory)) ∧
        ∀ name command, SshClient.Hears events (client.which name) s (.ok command) ↔
          OpenSsh.Spawns beats (host.which name) t (.ok command)) := by
  have hstdout : Text.decodeUtf8 (SshClient.Execution.of events).stdout.flatten
      = (OpenSsh.finished done).stdout := congrArg Text.decodeUtf8 halike.stdout
  have hstderr : Text.decodeUtf8 (SshClient.Execution.of events).stderr.flatten
      = (OpenSsh.finished done).stderr := congrArg Text.decodeUtf8 halike.stderr
  have hout : (SshClient.Execution.of events).finished.stdout = (OpenSsh.finished done).stdout ↔
      Text.Uncut (SshClient.Execution.of events).stdout := by
    rw [← hstdout]
    exact SshClient.decodeChunks_eq_iff _
  have herr : (SshClient.Execution.of events).finished.stderr = (OpenSsh.finished done).stderr ↔
      Text.Uncut (SshClient.Execution.of events).stderr := by
    rw [← hstderr]
    exact SshClient.decodeChunks_eq_iff _
  refine ⟨(SshClient.Execution.of events).finished, OpenSsh.finished done,
    fun _ => SshClient.hears_run_iff, fun _ => OpenSsh.spawns_run_iff hclosed, halike.exitCode,
    hstdout.symm, hstderr.symm, hout, herr, fun huncut => ?_⟩
  obtain ⟨hrequire, hcommand⟩ :=
    Machine.Finished.finds_alike (hout.2 huncut) halike.exitCode
  refine ⟨fun directory => ?_, fun name command => ?_⟩
  · have hdirectory (output : Except Fault String) :
        .ok directory = output.map (fun path => (⟨Text.trim path⟩ : Machine.Directory)) ↔
          ∃ path, output = .ok path ∧ ⟨Text.trim path⟩ = directory := by
      cases output <;> simp [Except.map, eq_comm]
    rw [SshClient.hears_tempDirectory_iff, OpenSsh.spawns_tempDirectory_iff hclosed, hdirectory,
      hdirectory]
    simp only [hrequire client.name host.label]
  · rw [SshClient.hears_which_iff, OpenSsh.spawns_which_iff hclosed]
    have := hcommand client.machine.name host.machine.name name command
    rw [eq_comm, this, eq_comm]

/-- A host that has a name and nothing else of its own. -/
def OpenSsh.named (name : String) : OpenSsh where
  config := { host := some (.string name) }
  master := ⟨0, none, [], false, true, true⟩
  controlDirectory := "/"

/-- A directory whose name has a letter of two bytes, which the client is given in one chunk and
`ssh` in two. -/
theorem directory_found_across_chunks :
    Alike [.output [0x2f, 0xc3, 0xa9], .output [0x0a], .exited (.nat 0)]
        [.output [0x2f, 0xc3], .output [0xa9, 0x0a], .exited (.nat 0), .closed] ∧
      SshClient.Hears [.output [0x2f, 0xc3, 0xa9], .output [0x0a], .exited (.nat 0)]
        (⟨"a"⟩ : SshClient).tempDirectory () (.ok ⟨"/é"⟩) ∧
      OpenSsh.Spawns [.does [.output [0x2f, 0xc3]],
          .does [.output [0xa9, 0x0a], .exited (.nat 0), .closed]]
        (OpenSsh.named "b").tempDirectory () (.ok ⟨"/é"⟩) := by
  have halike : Alike [.output [0x2f, 0xc3, 0xa9], .output [0x0a], .exited (.nat 0)]
      [.output [0x2f, 0xc3], .output [0xa9, 0x0a], .exited (.nat 0), .closed] := ⟨rfl, rfl, rfl⟩
  have huncut : Text.Uncut [[0x2f, 0xc3, 0xa9], [0x0a]] :=
    (Text.flatMap_decodeBytes_eq_iff _).1 (by decide)
  have hheard : SshClient.Hears [.output [0x2f, 0xc3, 0xa9], .output [0x0a], .exited (.nat 0)]
      (⟨"a"⟩ : SshClient).tempDirectory () (.ok ⟨"/é"⟩) :=
    SshClient.hears_tempDirectory_iff.2 (by rfl)
  have hclosed : Beat.wait Sign.hasClosed false []
        [.does [.output [0x2f, 0xc3]], .does [.output [0xa9, 0x0a], .exited (.nat 0), .closed]]
      = some ([.output [0x2f, 0xc3], .output [0xa9, 0x0a], .exited (.nat 0), .closed], []) := rfl
  obtain ⟨_, _, -, -, -, -, -, -, -, hfound⟩ := command_read_alike_iff_uncut ⟨"a"⟩
    (OpenSsh.named "b") Machine.makeDirectoryLine () () hclosed halike
  exact ⟨halike, hheard, ((hfound huncut).1 _).1 hheard⟩

/-- Where the letter is cut in two, the client's machine finds a path that was not written. -/
theorem directory_lost_between_chunks :
    Alike [.output [0x2f, 0xc3], .output [0xa9, 0x0a], .exited (.nat 0)]
        [.output [0x2f, 0xc3, 0xa9, 0x0a], .exited (.nat 0), .closed] ∧
      OpenSsh.Spawns [.does [.output [0x2f, 0xc3, 0xa9, 0x0a], .exited (.nat 0), .closed]]
        (OpenSsh.named "b").tempDirectory () (.ok ⟨"/é"⟩) ∧
      SshClient.Hears [.output [0x2f, 0xc3], .output [0xa9, 0x0a], .exited (.nat 0)]
        (⟨"a"⟩ : SshClient).tempDirectory () (.ok ⟨"/\uFFFD\uFFFD"⟩) ∧
      ¬ SshClient.Hears [.output [0x2f, 0xc3], .output [0xa9, 0x0a], .exited (.nat 0)]
        (⟨"a"⟩ : SshClient).tempDirectory () (.ok ⟨"/é"⟩) := by
  refine ⟨⟨rfl, rfl, rfl⟩, (OpenSsh.spawns_tempDirectory_iff rfl).2 rfl,
    SshClient.hears_tempDirectory_iff.2 rfl, fun h => ?_⟩
  have hpath := Except.ok.inj (SshClient.hears_tempDirectory_iff.1 h)
  exact absurd hpath (by decide)

end Outpost

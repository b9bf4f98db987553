import Outpost.Machine.OpenSsh
import Outpost.Machine.SshClient
import Outpost.Proofs.Run

/-!
# What command lines say

A shell reads a command line as words. `Shell.words?` is such a reader, for the part of the language
in which nothing is expanded, substituted or redirected: a space ends a word, single quotes and
backslashes take what they protect literally, pieces without a space between them are one word, and
whatever else a shell could take for an instruction is refused. It knows nothing of how words are
quoted.

Quoting is exact with respect to this reader: a command line made of words is read as these words,
whatever the words hold, and so is every command line that a machine with a shell at its other end
sends for a list of words.

## Contents

* `Shell.inert`, `Shell.scan`, `Shell.words?`: the reader.
* `Shell.scan_quoteChars`: a word in its quotes, with anything behind it.
* `Shell.words?_join`: whole command lines.
* `Machine.Request.Says`: the words that a request stands for.
* `OpenSsh.Request.commandLine?`, `SshClient.Request.commandLine?`: the command lines that are sent.
* `command_lines_denote_words`.
-/

namespace Outpost

namespace Shell

/-! ## A reader of words -/

/-- Where a reader of a command line is: `bare` outside quotes, `quoted` between single ones. -/
inductive Place where
  /-- Outside quotes. -/
  | bare
  /-- Between single quotes. -/
  | quoted
  /-- Behind a backslash outside quotes. -/
  | escaped

/-- The characters that stand for themselves outside quotes. -/
def inert : List Char :=
  "ABCDEFGHIJKLMNOPQRSTUVWXYZabcdefghijklmnopqrstuvwxyz0123456789_@%+=:,./-".toList

/-- Reads on from a place, where `word` is what was read of a word so far; it is `none` between two
words. A quote opens a word even if nothing stands in it. -/
def scan : Place → Option (List Char) → List Char → Option (List (List Char))
  | .bare, word, [] => some word.toList
  | .bare, word, c :: rest =>
    if c = ' ' then (scan .bare none rest).map (word.toList ++ ·)
    else if c = '\'' then scan .quoted (some (word.getD [])) rest
    else if c = '\\' then scan .escaped (some (word.getD [])) rest
    else if c ∈ inert then scan .bare (some (word.getD [] ++ [c])) rest
    else none
  | .quoted, _, [] => none
  | .quoted, word, c :: rest =>
    if c = '\'' then scan .bare word rest
    else scan .quoted (some (word.getD [] ++ [c])) rest
  | .escaped, _, [] => none
  | .escaped, word, c :: rest => scan .bare (some (word.getD [] ++ [c])) rest

/-- The words that `scan` finds in a command line, if it has no unquoted character that means
anything to a shell and every quote is closed. -/
def words? (line : String) : Option (List String) :=
  (scan .bare none line.toList).map fun words => words.map String.ofList

/-! ## Quoted words -/

section Scan

variable {read : List Char} {word : Option (List Char)} {rest : List Char}

/-- What needs no quotes, by `isPlain`, is inert. -/
theorem mem_inert_of_isPlain {c : Char} (h : isPlain c = true) : c ∈ inert := by
  have hsmall : c.toNat < 128 := by
    have hval : c.toNat = c.val.toNat := rfl
    simp only [isPlain, Bool.or_eq_true, decide_eq_true_eq] at h
    rcases h with (((((((((h | rfl) | rfl) | rfl) | rfl) | rfl) | rfl) | rfl) | rfl) | rfl) | rfl
    · have hranges : ((decide (c.val ≥ 'A'.val ∧ c.val ≤ 'Z'.val)
          || (decide (c.val ≥ 'a'.val) && decide (c.val ≤ 'z'.val)))
          || (decide (c.val ≥ '0'.val) && decide (c.val ≤ '9'.val))) = true := h
      simp [UInt32.le_iff_toNat_le] at hranges
      omega
    all_goals decide
  have htable : ∀ n < 128, isPlain (Char.ofNat n) = true → Char.ofNat n ∈ inert := by
    decide +kernel
  have hmem := htable c.toNat hsmall
  rw [Char.ofNat_toNat] at hmem
  exact hmem h

/-- An `inert` character neither ends a word nor opens quotes. -/
theorem scan_cons_of_mem_inert {c : Char} (h : c ∈ inert) :
    scan .bare word (c :: rest) = scan .bare (some (word.getD [] ++ [c])) rest := by
  have hspecial : ' ' ∉ inert ∧ '\'' ∉ inert ∧ '\\' ∉ inert := by decide
  have hspace : c ≠ ' ' := fun hc => hspecial.1 (hc ▸ h)
  have hquote : c ≠ '\'' := fun hc => hspecial.2.1 (hc ▸ h)
  have hescape : c ≠ '\\' := fun hc => hspecial.2.2 (hc ▸ h)
  simp only [scan, if_neg hspace, if_neg hquote, if_neg hescape, if_pos h]

/-- Characters that are `inert` are read by `scan` one by one. -/
theorem scan_append_of_inert {chars : List Char} (h : ∀ c ∈ chars, c ∈ inert) :
    scan .bare (some read) (chars ++ rest) = scan .bare (some (read ++ chars)) rest := by
  induction chars generalizing read with
  | nil => simp
  | cons c chars ih =>
    obtain ⟨hc, hchars⟩ := List.forall_mem_cons.1 h
    rw [List.cons_append, scan_cons_of_mem_inert hc, Option.getD_some, ih hchars]
    simp

/-- Inside quotes `scan` reads everything as it was before `quoteChar`, until the quotes are
closed. -/
theorem scan_quoted_append (chars : List Char) :
    scan .quoted (some read) (chars.flatMap quoteChar ++ '\'' :: rest)
      = scan .bare (some (read ++ chars)) rest := by
  induction chars generalizing read with
  | nil => simp [scan]
  | cons c chars ih =>
    have hnext : scan .quoted (some (read ++ [c])) (chars.flatMap quoteChar ++ '\'' :: rest)
        = scan .bare (some (read ++ c :: chars)) rest := by
      rw [ih]
      simp
    by_cases hc : c = '\''
    · -- out of the quotes, the quote behind its backslash, and into quotes again
      subst hc
      simpa [quoteChar, scan] using hnext
    · simpa [quoteChar, scan, hc] using hnext

/-- A word as `quoteChars` writes it is read back, whatever comes behind it. -/
theorem scan_quoteChars (chars : List Char) :
    scan .bare none (quoteChars chars ++ rest) = scan .bare (some chars) rest := by
  rw [quoteChars]
  split
  · rename_i hplain
    obtain ⟨hne, hall⟩ := Bool.and_eq_true_iff.1 hplain
    have hinert : ∀ c ∈ chars, c ∈ inert := fun c hc =>
      mem_inert_of_isPlain (List.all_eq_true.1 hall c hc)
    cases chars with
    | nil => exact absurd rfl (of_decide_eq_true hne)
    | cons c chars =>
      obtain ⟨hc, hchars⟩ := List.forall_mem_cons.1 hinert
      rw [List.cons_append, scan_cons_of_mem_inert hc, Option.getD_none, List.nil_append,
        scan_append_of_inert hchars, List.singleton_append]
  · have hopen : scan .bare none ('\'' :: (chars.flatMap quoteChar ++ '\'' :: rest))
        = scan .quoted (some []) (chars.flatMap quoteChar ++ '\'' :: rest) := by
      simp [scan]
    simp only [List.cons_append, List.append_assoc, List.nil_append]
    rw [hopen, scan_quoted_append, List.nil_append]

end Scan

/-! ## Command lines -/

/-- A command line made of words is read by `scan` as these words. -/
theorem scan_intercalate_quoteChars (words : List (List Char)) :
    scan .bare none ([' '].intercalate (words.map quoteChars)) = some words := by
  induction words with
  | nil => rfl
  | cons word words ih =>
    cases words with
    | nil =>
      have hone : scan .bare none (quoteChars word) = scan .bare (some word) [] := by
        rw [← scan_quoteChars, List.append_nil]
      simpa [scan] using hone
    | cons next words =>
      rw [List.map_cons, List.map_cons, List.intercalate_cons_cons, List.append_assoc,
        scan_quoteChars]
      rw [List.map_cons] at ih
      simp [scan, ih]

/-- **Quoting is exact: `words?` undoes `join`.** -/
theorem words?_join (words : List String) : words? (join words) = some words := by
  have hline : (join words).toList
      = [' '].intercalate ((words.map String.toList).map quoteChars) := by
    have hquote : String.toList ∘ quote = quoteChars ∘ String.toList := by
      funext word
      simp [quote]
    rw [join, String.toList_intercalate, List.map_map, List.map_map, hquote]
    rfl
  have htexts : String.ofList ∘ String.toList = id := by
    funext word
    simp
  rw [words?, hline, scan_intercalate_quoteChars, Option.map_some, List.map_map, htexts,
    List.map_id]

/-- Values that are texts are joined by `joinValues` as `join` joins these texts. -/
theorem joinValues_map_string (words : List String) :
    joinValues (words.map Json.string) = join words := by
  have hitems : Json.displayItems ((words.map Json.string).map quoteValue) = words.map quote := by
    induction words with
    | nil => rfl
    | cons word words ih =>
      simp only [List.map_cons, quoteValue, Json.displayItems, Json.display]
      rw [ih]
  rw [joinValues, Json.joined, hitems, join]

end Shell

/-! ## What machines send -/

/-- The words that a `Machine.Request` to a machine with a shell at its other end stands for. -/
def Machine.Request.Says : Machine.Request → List String → Prop
  | .spawn command arguments _, words => command.argv ++ arguments = words.map Json.string
  | .removeDirectory directory, words => words = ["rm", "-rf", "--", directory.path]
  | .tempDirectory, words => words = ["mktemp", "-d"]
  | .which name, words => words = ["command", "-v", name]
  | _, _ => False

/-- The command line that a request has an `ssh` process send: the last argument. -/
def OpenSsh.Request.commandLine? : OpenSsh.Request → Option String
  | .spawn launch =>
    match launch.arguments.getLast? with
    | some (.string line) => some line
    | _ => none
  | _ => none

/-- The command line that an `SshClient.Request` has the client send. -/
def SshClient.Request.commandLine? : SshClient.Request → Option String
  | .execute line => some line
  | .spawn argv => some (Channel.commandLine argv)
  | _ => none

/-- The `removeDirectoryLine` quotes its words one by one, as any other command line does. -/
theorem Machine.removeDirectoryLine_eq (directory : Machine.Directory) :
    Machine.removeDirectoryLine directory
      = Shell.join ["rm", "-rf", "--", directory.path] := by
  have hquoted : ["rm", "-rf", "--"].map Shell.quote = ["rm", "-rf", "--"] := by decide
  simp only [List.map_cons, List.map_nil, List.cons.injEq, and_true] at hquoted
  obtain ⟨hrm, hflags, hend⟩ := hquoted
  apply String.toList_injective
  simp [Machine.removeDirectoryLine, Shell.join, hrm, hflags, hend]

theorem Machine.lookupLine_eq (name : String) :
    Machine.lookupLine name = Shell.join ["command", "-v", name] := by
  have hquoted : ["command", "-v"].map Shell.quote = ["command", "-v"] := by decide
  simp only [List.map_cons, List.map_nil, List.cons.injEq, and_true] at hquoted
  obtain ⟨hcommand, hflag⟩ := hquoted
  apply String.toList_injective
  simp [Machine.lookupLine, Shell.join, hcommand, hflag]

theorem Machine.makeDirectoryLine_eq : Machine.makeDirectoryLine = Shell.join ["mktemp", "-d"] := by
  decide

namespace OpenSsh

variable {σ : Type}

/-- No command line is sent. -/
def Request.Quiet (r : Request) : Prop := r.commandLine? = none

theorem commandLine?_remoteLaunch (host : OpenSsh) (line : String)
    (options : Machine.SpawnOptions) :
    (Request.spawn (host.remoteLaunch line options)).commandLine? = some line := by
  simp [Request.commandLine?, remoteLaunch]

/-- Running a child by `runToEnd` begins with its launch, and nothing else is launched. -/
theorem opens_runToEnd (launch : Launch) (input : Option Json) :
    Attempt.Opens (Request.spawn launch) Request.Quiet
      (runToEnd launch input : Attempt σ interface Machine.Finished) := by
  refine Attempt.opens_bind ⟨rfl, fun _ => trivial⟩ fun child => ?_
  have hrest : Attempt.Observes Request.Quiet (do
      let output ← communicate child.id
      let code ← exitCode child.id
      return ⟨Text.decodeUtf8 output.stdout, Text.decodeUtf8 output.stderr, code⟩
        : Attempt σ interface Machine.Finished) := by
    refine Attempt.observes_bind (Attempt.observes_lift_ask rfl) fun output => ?_
    exact Attempt.observes_bind (Attempt.observes_lift_ask rfl) fun code => trivial
  cases input with
  | none => exact hrest
  | some last =>
    dsimp only
    split
    · exact Attempt.observes_bind ⟨rfl, fun _ => trivial⟩ fun _ => hrest
    · exact hrest

/-- Whatever `f` makes of the output of a command, the command is all that is sent. -/
theorem opens_run_bind {α : Type} (host : OpenSsh) (line : String) (input : Option Json)
    {f : Machine.Finished → Attempt σ interface α}
    (hf : ∀ result, Attempt.Observes Request.Quiet (f result)) :
    Attempt.Opens (Request.spawn (host.remoteLaunch line)) Request.Quiet
      (host.run line input >>= f) :=
  Attempt.opens_bind (opens_runToEnd _ _) hf

/-- An `upload` packs the tree on this side and sends at most the line that unpacks it. -/
theorem commandLines_of_run_upload {host : OpenSsh} {source destination : String} {s s' : σ}
    {exchanges : List (Program.Exchange interface)} {result : Except Fault Unit}
    (h : Attempt.Run (host.upload source destination) s exchanges s' result) :
    ∀ line ∈ exchanges.filterMap (fun x => Request.commandLine? x.request),
      line = Shell.join (unpackCommand destination) := by
  rcases Attempt.run_bind_iff.1 h with
    ⟨fault, hpack, -⟩ | ⟨mid, pack, first, second, hpack, hrest, rfl⟩
  · obtain ⟨rfl, -⟩ := Program.run_request_iff.1 hpack
    simp [Request.commandLine?]
  · obtain ⟨rfl, -⟩ := Program.run_request_iff.1 hpack
    have hsent : second.filterMap (fun x => Request.commandLine? x.request)
        = [Shell.join (unpackCommand destination)] := by
      refine Program.Run.filterMap_of_opens (host.commandLine?_remoteLaunch _ {}) hrest
        (Attempt.opens_bind ⟨rfl, fun _ => trivial⟩ fun unpack => ?_)
      extract_lets wait
      -- from here on there is only waiting for the two and a look at how they ended
      have hwait (u : Unit) : Attempt.Observes Request.Quiet (wait u) := by
        refine Attempt.observes_bind (Attempt.observes_lift_ask rfl) fun _ => ?_
        refine Attempt.observes_bind (Attempt.observes_lift_ask rfl) fun outputs => ?_
        refine Attempt.observes_bind (Attempt.observes_lift_ask rfl) fun packCode => ?_
        have hunpacked : Attempt.Observes Request.Quiet (do
            let unpackCode ← exitCode unpack.id
            if !Machine.isSuccess unpackCode then
              throw (.ofMessage ("Remote tar failed (exit " ++ unpackCode.display ++ "): "
                ++ Text.trim (Text.decodeUtf8 outputs.2.stderr))) : Attempt σ interface Unit) := by
          refine Attempt.observes_bind (Attempt.observes_lift_ask rfl) fun unpackCode => ?_
          split <;> trivial
        split
        · trivial
        · exact hunpacked
      split
      · trivial
      · exact hwait ()
    intro line hline
    rw [List.filterMap_append, hsent] at hline
    simpa [Request.commandLine?] using hline

/-- Whatever is asked of an `OpenSsh` host by words, one command line is sent for it, which says
these words. -/
theorem commandLines_of_run_answer {host : OpenSsh} {request : Machine.Request}
    {words : List String} (hmeans : request.Says words) {closed closed' : Bool}
    {exchanges : List (Program.Exchange interface)} {reply : Machine.interface.Reply request}
    (h : Program.Run (host.answer request) closed exchanges closed' reply) :
    exchanges.filterMap (fun x => Request.commandLine? x.request) = [Shell.join words] := by
  have hone {line : String} (options : Machine.SpawnOptions) (hline : line = Shell.join words)
      (hopens : (host.answer request).Opens (Request.spawn (host.remoteLaunch line options))
        Request.Quiet) :
      exchanges.filterMap (fun x => Request.commandLine? x.request) = [Shell.join words] :=
    hline ▸ h.filterMap_of_opens (host.commandLine?_remoteLaunch line options) hopens
  have hof {α : Type} (result : Except Fault α) : Attempt.Observes Request.Quiet
      (Attempt.ofExcept result : Attempt Bool interface α) := trivial
  cases request with
  | tempDirectory =>
    obtain rfl := hmeans
    refine hone {} Machine.makeDirectoryLine_eq ?_
    exact Attempt.opens_bind (opens_run_bind host _ none fun _ => hof _) fun _ => trivial
  | which name =>
    obtain rfl := hmeans
    refine hone {} (Machine.lookupLine_eq name) ?_
    exact opens_run_bind host _ none fun _ => hof _
  | spawn command arguments options =>
    have hwords : command.argv ++ arguments = words.map Json.string := hmeans
    have hline : Shell.joinValues (command.argv ++ arguments) = Shell.join words := by
      rw [hwords, Shell.joinValues_map_string]
    exact hone options hline (Attempt.opens_bind ⟨rfl, fun _ => trivial⟩ fun _ => trivial)
  | removeDirectory directory =>
    obtain rfl := hmeans
    refine hone {} (Machine.removeDirectoryLine_eq directory) ?_
    exact Attempt.opens_bind (opens_run_bind host _ none fun _ => hof _) fun _ => trivial
  | upload | joinPath | writeFile | connect | openTunnel | closeTunnel | close => exact hmeans.elim

end OpenSsh

namespace SshClient

variable {σ : Type}

/-- No command line is sent. -/
def Request.Quiet (r : Request) : Prop := r.commandLine? = none

/-- Whatever `f` makes of the output of a command, the command is all that is sent. -/
theorem opens_run_bind {α : Type} (line : String) {f : Machine.Finished → Attempt σ interface α}
    (hf : ∀ result, Attempt.Observes Request.Quiet (f result)) :
    Attempt.Opens (Request.execute line) Request.Quiet (run line >>= f) :=
  Attempt.opens_bind (Attempt.opens_bind ⟨rfl, fun _ => trivial⟩ fun _ => trivial) hf

/-- Whatever is asked of an `SshClient` host by words, one command line is sent for it, which says
these words. -/
theorem commandLines_of_run_answer {host : SshClient} {request : Machine.Request}
    {words : List String} (hmeans : request.Says words) {link link' : Link}
    {exchanges : List (Program.Exchange interface)} {reply : Machine.interface.Reply request}
    (h : Program.Run (host.answer request) link exchanges link' reply) :
    exchanges.filterMap (fun x => Request.commandLine? x.request) = [Shell.join words] := by
  have hone {r : Request} (hline : r.commandLine? = some (Shell.join words))
      (hopens : (host.answer request).Opens r Request.Quiet) :
      exchanges.filterMap (fun x => Request.commandLine? x.request) = [Shell.join words] :=
    h.filterMap_of_opens hline hopens
  have hof {α : Type} (result : Except Fault α) : Attempt.Observes Request.Quiet
      (Attempt.ofExcept result : Attempt Link interface α) := trivial
  cases request with
  | tempDirectory =>
    obtain rfl := hmeans
    refine hone (r := .execute _) (congrArg some Machine.makeDirectoryLine_eq) ?_
    exact Attempt.opens_bind (opens_run_bind _ fun _ => hof _) fun _ => trivial
  | which name =>
    obtain rfl := hmeans
    refine hone (r := .execute _) (congrArg some (Machine.lookupLine_eq name)) ?_
    exact opens_run_bind _ fun _ => hof _
  | spawn command arguments options =>
    have hwords : command.argv ++ arguments = words.map Json.string := hmeans
    have hline : Channel.commandLine (command.argv ++ arguments) = Shell.join words := by
      rw [Channel.commandLine, hwords, Shell.joinValues_map_string]
    exact hone (r := .spawn _) (congrArg some hline) ⟨rfl, fun _ => trivial⟩
  | removeDirectory directory =>
    obtain rfl := hmeans
    refine hone (r := .execute _) (congrArg some (Machine.removeDirectoryLine_eq directory)) ?_
    exact Attempt.opens_bind (opens_run_bind _ fun _ => hof _) fun _ => trivial
  | upload | joinPath | writeFile | connect | openTunnel | closeTunnel | close => exact hmeans.elim

end SshClient

/-- **Command lines say what was meant.** Every list of words is read back by `Shell.words?` from
the command line that `Shell.join` makes of it, whatever the words hold. So the one command line
that a host is sent for a request that `Says` words, to run a command with its arguments, to remove
or make a directory or to look up a name, is read as exactly the words of that; and so is the line
that unpacks an upload. -/
theorem command_lines_denote_words :
    (∀ words : List String, Shell.words? (Shell.join words) = some words) ∧
    (∀ (host : OpenSsh) (request : Machine.Request) (words : List String) (closed closed' : Bool)
        (exchanges : List (Program.Exchange OpenSsh.interface))
        (reply : Machine.interface.Reply request), request.Says words →
      Program.Run (host.answer request) closed exchanges closed' reply →
      ∃ line, exchanges.filterMap (fun x => OpenSsh.Request.commandLine? x.request) = [line] ∧
        Shell.words? line = some words) ∧
    (∀ (host : SshClient) (request : Machine.Request) (words : List String)
        (link link' : SshClient.Link) (exchanges : List (Program.Exchange SshClient.interface))
        (reply : Machine.interface.Reply request), request.Says words →
      Program.Run (host.answer request) link exchanges link' reply →
      ∃ line, exchanges.filterMap (fun x => SshClient.Request.commandLine? x.request) = [line] ∧
        Shell.words? line = some words) ∧
    ∀ (host : OpenSsh) (source destination : String) (closed closed' : Bool)
        (exchanges : List (Program.Exchange OpenSsh.interface)) (result : Except Fault Unit),
      Program.Run (host.answer (.upload source destination)) closed exchanges closed' result →
      ∀ line ∈ exchanges.filterMap (fun x => OpenSsh.Request.commandLine? x.request),
        Shell.words? line = some ["tar", "-C", destination, "-xf", "-"] := by
  refine ⟨Shell.words?_join, ?_, ?_, ?_⟩
  · intro host request words closed closed' exchanges reply hmeans h
    exact ⟨_, OpenSsh.commandLines_of_run_answer hmeans h, Shell.words?_join words⟩
  · intro host request words link link' exchanges reply hmeans h
    exact ⟨_, SshClient.commandLines_of_run_answer hmeans h, Shell.words?_join words⟩
  · intro host source destination closed closed' exchanges result h line hline
    rw [OpenSsh.commandLines_of_run_upload h line hline]
    exact Shell.words?_join _

/-- A directory with a quote, a blank and a wildcard in its path is removed as the one it is. -/
theorem command_line_of_awkward_directory :
    ∃ exchanges, Program.Run ((⟨"web"⟩ : SshClient).answer (.removeDirectory ⟨"/tmp/it's *"⟩)) {}
        exchanges {} (.error (.ofMessage "gone")) ∧
      exchanges.map (·.request) = [.execute "rm -rf -- '/tmp/it'\\''s *'"] ∧
      Shell.words? "rm -rf -- '/tmp/it'\\''s *'" = some ["rm", "-rf", "--", "/tmp/it's *"] := by
  have hline : Machine.removeDirectoryLine ⟨"/tmp/it's *"⟩ = "rm -rf -- '/tmp/it'\\''s *'" := by
    decide
  have hrun : Program.Run ((⟨"web"⟩ : SshClient).answer (.removeDirectory ⟨"/tmp/it's *"⟩)) {}
      [⟨.execute (Machine.removeDirectoryLine ⟨"/tmp/it's *"⟩), .error (.ofMessage "gone")⟩] {}
      (.error (.ofMessage "gone")) :=
    .ask _ (.done _ _)
  obtain ⟨line, hsent, hwords⟩ :=
    command_lines_denote_words.2.2.1 ⟨"web"⟩ (.removeDirectory ⟨"/tmp/it's *"⟩) _ _ _ _ _ rfl hrun
  rw [hline] at hrun hsent
  obtain rfl : "rm -rf -- '/tmp/it'\\''s *'" = line := by
    simpa [SshClient.Request.commandLine?] using hsent
  exact ⟨_, hrun, rfl, hwords⟩

end Outpost

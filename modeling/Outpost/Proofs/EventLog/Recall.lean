import Outpost.Proofs.Event
import Outpost.Proofs.EventLog.Survival
import Outpost.Proofs.Text.Blank

/-!
# What is recorded is found

An event that was recorded is read from its line as it was, for any texts in it, and whatever else
stands in the file: a line that is no event counts for nothing, be it blank, no JSON, or JSON of
another shape. So a query finds the events that the file held and then those that were recorded, the
newest first (`query_finds_recorded`).

## Contents

* `entries`, `Filter.Matches`: what a file holds, and what a filter asks for.
* `Recording`, `Recording.Faithful`, `Recording.parse_line`: an event and the entry that it is
  recorded as.
* `select_eq`, `File.lines`, `carry_query_of_room`: what a query finds among lines, and in a file.
* `parseChars?_of_allBlank`, `entries_eq`: blank lines.
* `text_of_recordings`, `filledLines_append_endedLines`: recorded lines behind those of a file.
* `query_finds_recorded`.
-/

namespace Outpost

namespace EventLog

/-! ## What is asked for -/

/-- The events that a text holds: the lines that are read by `Event.ofJson?`. -/
def entries (text : List Char) : List Event :=
  (Text.split '\n' text).filterMap fun line => (Json.parseChars? line).bind Event.ofJson?

/-- An event agrees with every field that a `Filter` gives. -/
structure Filter.Matches (filter : Filter) (event : Event) : Prop where
  deployment : ∀ deployment ∈ filter.deployment, event.deployment = deployment
  kind : ∀ kind ∈ filter.kind, event.kind.name = kind
  since : ∀ since ∈ filter.since, Number.le since event.time = true

theorem accepts_iff (filter : Filter) (event : Event) :
    filter.accepts event = true ↔ filter.Matches event := by
  have haccepts : filter.accepts event =
      (filter.deployment.all (fun deployment => decide (event.deployment = deployment))
        && filter.kind.all (fun kind => decide (event.kind.name = kind))
        && filter.since.all fun since => Number.le since event.time) := by
    rw [Filter.accepts]
    congr 2
    · cases filter.deployment <;> rfl
    · cases filter.kind <;> rfl
    · cases filter.since <;> rfl
  rw [haccepts]
  simp only [Bool.and_eq_true, Option.all_eq_true, decide_eq_true_eq]
  constructor
  · rintro ⟨⟨hdeployment, hkind⟩, hsince⟩
    exact ⟨hdeployment, hkind, hsince⟩
  · rintro ⟨hdeployment, hkind, hsince⟩
    exact ⟨⟨hdeployment, hkind⟩, hsince⟩

instance (filter : Filter) (event : Event) : Decidable (filter.Matches event) :=
  decidable_of_iff _ (accepts_iff filter event)

/-- A limit takes by `newest` as many of the last items as it has whole units. One that has none
takes all. -/
theorem newest_finite {α : Type} (limit : Dyadic) (items : List α) :
    newest (.finite limit) items =
      if ⌊limit.toRat⌋₊ = 0 then items else items.drop (items.length - ⌊limit.toRat⌋₊) := by
  rw [newest, Number.toNat_truncateDyadic]

theorem newest_ofNat {α : Type} {limit : Nat} (hlimit : 0 < limit) (items : List α) :
    newest (.ofNat limit) items = items.drop (items.length - limit) := by
  have hunits : ⌊(Dyadic.ofInt limit).toRat⌋₊ = limit := by
    rw [Number.toRat_ofInt, Int.cast_natCast, Nat.floor_natCast]
  rw [Number.ofNat, Number.ofInt, newest_finite, hunits, if_neg hlimit.ne']

theorem filter_accepts (filter : Filter) (events : List Event) :
    events.filter filter.accepts = events.filter fun event => filter.Matches event :=
  List.filter_congr fun event _ => by rw [Bool.eq_iff_iff, accepts_iff, decide_eq_true_eq]

/-- What a query finds among lines by `select`. -/
theorem select_eq {limit : Nat} (hlimit : 0 < limit) (filter : Filter)
    (lines : List (List Char)) :
    select filter (.ofNat limit) lines
      = ((lines.filterMap fun line => (Json.parseChars? line).bind Event.ofJson?).filter
          fun event => filter.Matches event).reverse.take limit := by
  rw [select, newest_ofNat hlimit, filter_accepts, List.take_reverse]

/-! ## A query on a file -/

/-- The lines that a `File` is read as, or the fault of reading it. A file that does not exist has
none. -/
def File.lines (mishaps : Mishaps) (file : File) : Except Fault (List (List Char)) :=
  match mishaps.read with
  | some fault => if isMissingFile fault then .ok [] else .error fault
  | none => .ok (filledLines file.text)

section Query

variable {log : EventLog} {mishaps : Mishaps}

theorem carry_lift_bind {α β : Type} (p : Program Unit interface α)
    {f : α → Attempt Unit interface β} (file : File) :
    carry log mishaps (ExceptT.lift p >>= f : Attempt Unit interface β).outcome file
      = carry log mishaps (f (carry log mishaps p file).1).outcome
          (carry log mishaps p file).2 := by
  rw [Attempt.outcome, ExceptT.run_bind_lift]
  exact carry_bind p _ file

theorem carry_reportMalformed (lines : List (List Char)) (file : File) :
    carry log mishaps (reportMalformed lines) file = ((), file) := by
  induction lines with
  | nil => rfl
  | cons line lines ih =>
    rw [reportMalformed]
    cases Json.parseChars? line with
    | some found => exact ih
    | none => exact ih

/-- A `query` with room for an entry reads the file and leaves it as it is. -/
theorem carry_query_of_room {filter : Filter}
    (hroom : Number.lt (.ofInt 0) filter.effectiveLimit = true) (file : File) :
    carry log mishaps (query log filter).outcome file
      = ((file.lines mishaps).map (select filter filter.effectiveLimit), file) := by
  have hguard : Number.le filter.effectiveLimit (.ofInt 0) = false := by
    rw [Number.le, hroom, Bool.not_true]
  have hlines (lines : List (List Char)) :
      carry log mishaps ((do
        ExceptT.lift (reportMalformed lines)
        return select filter filter.effectiveLimit lines :
          Attempt Unit interface (List Event))).outcome file
        = (.ok (select filter filter.effectiveLimit lines), file) := by
    refine (carry_lift_bind (reportMalformed lines) file).trans ?_
    rw [carry_reportMalformed]
    rfl
  rw [query]
  simp only [hguard, Bool.false_eq_true, if_false]
  refine (carry_ask .flush _ file).trans ?_
  refine (carry_readLines_bind file).trans ?_
  rw [File.lines]
  cases mishaps.read with
  | none => exact hlines _
  | some fault =>
    dsimp only
    split
    · exact hlines []
    · rfl

theorem carry_query_of_effectiveLimit (hread : mishaps.read = none) {filter : Filter} {limit : Nat}
    (hlimit : 0 < limit) (heffective : filter.effectiveLimit = .ofNat limit) (file : File) :
    carry log mishaps (query log filter).outcome file
      = (.ok (select filter (.ofNat limit) (filledLines file.text)), file) := by
  have hroom : Number.lt (.ofInt 0) filter.effectiveLimit = true := by
    rw [heffective]
    exact Number.lt_ofInt_iff.2 (Int.natCast_pos.2 hlimit)
  rw [carry_query_of_room hroom, File.lines, hread, heffective]
  rfl

theorem carry_query (hread : mishaps.read = none) {filter : Filter} {limit : Nat}
    (hlimit : 0 < limit) (hfilter : filter.limit = some (.ofNat limit)) (file : File) :
    carry log mishaps (query log filter).outcome file
      = (.ok (select filter (.ofNat limit) (filledLines file.text)), file) := by
  refine carry_query_of_effectiveLimit hread hlimit ?_ file
  rw [Filter.effectiveLimit, hfilter, Option.getD_some]

end Query

/-! ## Lines that hold nothing -/

/-- No `numeral` begins with anything but a digit or a sign. -/
theorem numeral_eq_none {s : List Char} (h : ∀ c ∈ s.head?, c.isDigit = false ∧ c ≠ '-') :
    Json.numeral s = none := by
  have hnone : ∀ c ∈ ([] : List Char), c.isDigit = true := nofun
  have hspan : s.span Char.isDigit = ([], s) := Json.span_digits hnone fun c hc => (h c hc).1
  have hmagnitude : Json.magnitude false s = none := by
    rw [Json.magnitude, hspan]
    rfl
  rw [Json.numeral]
  · exact hmagnitude
  · rintro rest rfl
    exact (h '-' rfl).2 rfl

/-- No `value` begins with a blank. -/
theorem value_of_allBlank {fuel : Nat} {line : List Char} (h : Text.allBlank line = true) :
    Json.value fuel line = none := by
  have hblank : ∀ c ∈ (Json.skipSpace line).head?, Text.isBlank c = true := fun c hc =>
    List.all_eq_true.1 h c ((List.dropWhile_suffix _).subset (List.mem_of_mem_head? hc))
  have htable : ['n', 't', 'f', '"', '[', '\x7b', '-'].all (fun c => !Text.isBlank c) = true := by
    decide
  have hother {c : Char} {rest : List Char} (hline : Json.skipSpace line = c :: rest)
      (hc : c ∈ ['n', 't', 'f', '"', '[', '\x7b', '-']) : False := by
    have hfirst : Text.isBlank c = true := hblank c (by rw [hline]; rfl)
    have hnot := List.all_eq_true.1 htable c hc
    rw [hfirst] at hnot
    exact Bool.false_ne_true hnot
  have hnumeral : Json.numeral (Json.skipSpace line) = none := by
    refine numeral_eq_none fun c hc => ⟨Text.isDigit_of_isBlank (hblank c hc), ?_⟩
    rintro rfl
    exact absurd (hblank '-' hc) (by decide)
  cases fuel with
  | zero => rw [Json.value]
  | succ fuel =>
    rw [Json.value]
    split
    all_goals first
      | exact hnumeral
      | exact (hother (by assumption) (by simp)).elim

/-- A blank line is no JSON for `parseChars?`. -/
theorem parseChars?_of_allBlank {line : List Char} (h : Text.allBlank line = true) :
    Json.parseChars? line = none := by
  rw [Json.parseChars?, value_of_allBlank h]

theorem entries_eq (text : List Char) :
    entries text
      = (filledLines text).filterMap fun line => (Json.parseChars? line).bind Event.ofJson? := by
  rw [entries, filledLines, List.filterMap_filter]
  refine List.filterMap_congr fun line _ => ?_
  cases hblank : Text.allBlank line with
  | false => rfl
  | true =>
    rw [parseChars?_of_allBlank hblank]
    rfl

/-! ## Recording -/

/-- An `Event`, the fields of the entry that it is recorded as, and the time of that. -/
structure Recording where
  event : Event
  fields : List (String × Json)
  now : Number

namespace Recording

/-- The `Call` that records it. -/
def call (recording : Recording) : Call := .record recording.now (.object recording.fields)

/-- The `line` of the entry, without its end. -/
def line (recording : Recording) : List Char :=
  entryLine recording.now (.object recording.fields)

/-- The entry has the fields of the event, in some order; its time `ts` may be left out where the
event happened when it was recorded. -/
structure Faithful (recording : Recording) : Prop where
  sound : recording.event.Sound
  fields : recording.fields.Perm recording.event.fields ∨
    (("ts", .number recording.now) :: recording.fields).Perm recording.event.fields

/-- What the entry is written as has the `fields` of the event. -/
theorem Faithful.perm {recording : Recording} (h : recording.Faithful) :
    (("ts", (Json.lookup "ts" recording.fields).getD (.number recording.now))
      :: recording.fields.filter fun field => field.1 ≠ "ts").Perm recording.event.fields := by
  have hkeys := recording.event.nodup_keys
  rcases h.fields with hall | hothers
  · -- the entry has a time
    have hfields := (hall.map Prod.fst).nodup_iff.2 hkeys
    have htime : ("ts", Json.number recording.event.time) ∈ recording.fields :=
      hall.mem_iff.2 (by simp [Event.fields])
    rw [(Json.lookup_eq_some_iff hfields _ _).2 htime, Option.getD_some]
    exact (Json.cons_filter_perm hfields htime).trans hall
  · have hfields := (hothers.map Prod.fst).nodup_iff.2 hkeys
    rw [List.map_cons, List.nodup_cons] at hfields
    rw [Json.lookup_of_not_mem hfields.1, Option.getD_none, Json.filter_of_not_mem hfields.1]
    exact hothers

/-- **An event is read by `Event.ofJson?` from its line as it was recorded.** -/
theorem parse_line {recording : Recording} (h : recording.Faithful) :
    (Json.parseChars? recording.line).bind Event.ofJson? = some recording.event := by
  rw [line, entryLine_object, Event.mkObject_of_perm h.perm,
    Json.parseChars?_renderChars (Event.writable_of_perm h.sound h.perm), Option.bind_some,
    Event.ofJson?_of_perm h.perm]

end Recording

/-- Recording adds lines at the end, where no `append` fails. -/
theorem text_oneByOne_call {luck : Nat → Mishaps} (hluck : ∀ number, (luck number).append = none)
    (recordings : List Recording) (number : Nat) (file : File) :
    (oneByOne luck number (recordings.map Recording.call) file).1.text
      = file.text ++ endedLines (recordings.map Recording.line) := by
  induction recordings generalizing number file with
  | nil => exact (List.append_nil _).symm
  | cons recording recordings ih =>
    rw [List.map_cons, oneByOne, ih, Recording.call, text_change_record (hluck number)]
    simp [endedLines, Recording.line]

/-! ## Files that end with a line -/

/-- A file that is not there, that is empty, or whose last line is ended. -/
def File.Ended (file : File) : Prop :=
  file = none ∨ file = some [] ∨ ∃ bytes, file = some (bytes ++ [0x0a])

theorem File.Ended.text {file : File} (h : file.Ended) :
    file.text = [] ∨ ∃ text, file.text = text ++ ['\n'] := by
  rcases h with rfl | rfl | ⟨bytes, rfl⟩
  · exact .inl rfl
  · exact .inl rfl
  · exact .inr ⟨Text.decodeBytes bytes, Text.decodeBytes_append bytes ['\n']⟩

/-- Lines behind the last end of a line are `filledLines` of their own. -/
theorem filledLines_append_endedLines {file : File} (hended : file.Ended) {lines : List (List Char)}
    (hlines : ∀ line ∈ lines, IsLine line) :
    filledLines (file.text ++ endedLines lines) = filledLines file.text ++ lines := by
  have hnil : filledLines [] = [] := rfl
  rcases hended.text with htext | ⟨text, htext⟩
  · rw [htext, List.nil_append, filledLines_endedLines hlines, hnil, List.nil_append]
  · rw [htext, filledLines_append_end, hnil, List.append_nil, List.append_assoc,
      List.singleton_append, filledLines_append_end, filledLines_endedLines hlines]

/-- The lines of recorded events hold these events, if each recording is `Faithful`. -/
theorem filterMap_lines {recordings : List Recording}
    (hfaithful : ∀ recording ∈ recordings, recording.Faithful) :
    ((recordings.map Recording.line).filterMap
      fun line => (Json.parseChars? line).bind Event.ofJson?)
      = recordings.map Recording.event := by
  rw [List.filterMap_map, ← List.filterMap_eq_map]
  exact List.filterMap_congr fun recording hmem => Recording.parse_line (hfaithful recording hmem)

/-- What a log holds on which events were recorded, issued at any time, where no `append` fails. -/
theorem text_of_recordings {log : EventLog} {initial : File} {luck : Nat → Mishaps}
    (hluck : ∀ number, (luck number).append = none) {recordings : List Recording}
    {happenings : List Happening}
    (hcalls : happenings.filterMap Happening.call? = recordings.map Recording.call)
    {last : Journal} (hlast : last = (Journal.new log initial).run luck happenings)
    (hidle : last.queue.current = none) :
    last.file.text = initial.text ++ endedLines (recordings.map Recording.line) := by
  have haccords : last.Accords log luck initial := hlast ▸ Journal.accords_new.run happenings
  have hissued : last.calls = recordings.map Recording.call := by
    rw [hlast, Journal.calls_run, ← hcalls]
    rfl
  have hfile : last.file = (oneByOne luck 0 last.calls initial).1 :=
    congrArg Prod.fst (haccords.ends_of_idle hidle)
  rw [hfile, hissued, text_oneByOne_call hluck]

/-- Events are recorded on a log, issued at any time, and no appending fails. A `query` with room
for an entry then finds, the newest first, the last of the events that the file held and of those
that were recorded, in this order, that agree with its filter. -/
theorem query_finds_recorded (log : EventLog) {initial : File} (hended : initial.Ended)
    {luck : Nat → Mishaps} (hluck : ∀ number, (luck number).append = none)
    {recordings : List Recording} (hfaithful : ∀ recording ∈ recordings, recording.Faithful)
    {happenings : List Happening}
    (hcalls : happenings.filterMap Happening.call? = recordings.map Recording.call)
    {last : Journal} (hlast : last = (Journal.new log initial).run luck happenings)
    (hidle : last.queue.current = none) {mishaps : Mishaps} (hread : mishaps.read = none)
    {filter : Filter} {limit : Nat} (hlimit : 0 < limit)
    (hfilter : filter.limit = some (.ofNat limit)) :
    carry log mishaps (query log filter).outcome last.file
      = (.ok (((entries initial.text ++ recordings.map Recording.event).filter
          fun event => filter.Matches event).reverse.take limit), last.file) := by
  have hlines : ∀ line ∈ recordings.map Recording.line, IsLine line :=
    List.forall_mem_map.2 fun recording _ => isLine_entryLine _ _
  rw [carry_query hread hlimit hfilter, select_eq hlimit,
    text_of_recordings hluck hcalls hlast hidle, filledLines_append_endedLines hended hlines,
    List.filterMap_append, filterMap_lines hfaithful, entries_eq]

/-- An event with a text that needs escapes, recorded without its time and with its fields in
another order. -/
def awkwardRecording : Recording where
  event :=
    { time := .ofNat 7
      kind := .startFailed
      deployment := .ofString "a"
      machine := .ofString "m"
      remotePort := none
      localPort := none
      reason := some (.ofString "line one\nline \"two\"\u2028")
      exitCode := some none }
  fields :=
    [("deploymentId", .string "a"), ("event", .string "start_failed"), ("machine", .string "m"),
      ("reason", .string "line one\nline \"two\"\u2028"), ("exitCode", .null)]
  now := .ofNat 7

theorem faithful_awkwardRecording : awkwardRecording.Faithful := by
  have hseven : Number.IsBinary64 (Dyadic.ofInt 7) := Number.isBinary64_ofInt (by decide)
  have hsound : awkwardRecording.event.Sound := by
    refine ⟨⟨_, rfl, hseven⟩, Text.Loose.sound_ofString _, Text.Loose.sound_ofString _, nofun,
      nofun, fun reason hreason => ?_, fun code hcode => ?_⟩
    · obtain rfl := Option.some.inj hreason
      exact Text.Loose.sound_ofString _
    · obtain rfl := Option.some.inj hcode
      exact nofun
  exact ⟨hsound, .inr ((List.Perm.swap _ _ _).cons _)⟩

/-- An awkward event is found as it was recorded, behind a line that is no JSON. -/
theorem query_finds_awkward :
    let initial : File := some (Text.encodeUtf8 "oops\n")
    let last := (Journal.new ⟨"log"⟩ initial).run (fun _ => {})
      [.issue awkwardRecording.call, .answer]
    let filter : Filter := { kind := some "start_failed", limit := some (.ofNat 5) }
    last.queue.current = none ∧
    carry ⟨"log"⟩ {} (query ⟨"log"⟩ filter).outcome last.file
      = (.ok [awkwardRecording.event], last.file) := by
  intro initial last filter
  have hidle : last.queue.current = none := rfl
  have hended : initial.Ended := .inr (.inr ⟨Text.encodeUtf8 "oops", rfl⟩)
  have hfound := query_finds_recorded ⟨"log"⟩ hended (fun _ => rfl)
    (List.forall_mem_singleton.2 faithful_awkwardRecording) rfl (rfl : last = _) hidle
    (rfl : ({} : Mishaps).read = none) (show 0 < 5 by decide)
    (rfl : filter.limit = some (.ofNat 5))
  have hnothing : entries initial.text = [] := by
    decide +kernel
  have hmatches : filter.Matches awkwardRecording.event := by
    decide
  refine ⟨hidle, hfound.trans ?_⟩
  simp [hnothing, hmatches]

end EventLog

end Outpost

import Outpost.Proofs.EventLog.Recall

/-!
# What a trim leaves to be found

A trim drops lines at the front of a log, and a query takes events from its end. So whatever the
lines hold, and whatever a filter asks for, a query finds the same events after a trim as before it,
the newest first, but that it may run out of them earlier. Lines and events are counted apart: the
lines that a trim keeps may hold fewer events than a query would take, or none.

A log that was trimmed is short enough for any number of further trims.

## Contents

* `matching`, `select_eq_take`: the events among lines that a filter asks for.
* `prefix_select_lastLines`, `select_lastLines_eq`: a query on the lines that a trim keeps.
* `change_trim_of_ok`, `oneByOne_trims`: a trim that succeeds, and trims of a short log.
* `trim_keeps_newest`.
-/

namespace Outpost

namespace EventLog

/-! ## Queries on the last lines -/

/-- The events among some lines that a `filter` asks for. -/
def matching (filter : Filter) (lines : List (List Char)) : List Event :=
  (lines.filterMap fun line => (Json.parseChars? line).bind Event.ofJson?).filter
    fun event => filter.Matches event

theorem matching_append (filter : Filter) (lines more : List (List Char)) :
    matching filter (lines ++ more) = matching filter lines ++ matching filter more := by
  rw [matching, List.filterMap_append, List.filter_append]
  rfl

/-- What a query finds among lines by `select` are the last events that its filter asks for. -/
theorem select_eq_take {limit : Nat} (hlimit : 0 < limit) (filter : Filter)
    (lines : List (List Char)) :
    select filter (.ofNat limit) lines = (matching filter lines).reverse.take limit :=
  select_eq hlimit filter lines

section LastLines

variable {limit : Nat} {filter : Filter}

/-- The events of all lines, the newest first, begin with those of the `lastLines`. -/
theorem exists_reverse_matching_eq (filter : Filter) (lines : List (List Char)) :
    ∃ older, (matching filter lines).reverse
      = (matching filter (lastLines lines)).reverse ++ older := by
  obtain ⟨dropped, hdropped⟩ := lastLines_suffix lines
  refine ⟨(matching filter dropped).reverse, ?_⟩
  conv_lhs => rw [← hdropped]
  rw [matching_append, List.reverse_append]

theorem prefix_select_lastLines (hlimit : 0 < limit) (filter : Filter)
    (lines : List (List Char)) :
    select filter (.ofNat limit) (lastLines lines) <+: select filter (.ofNat limit) lines := by
  obtain ⟨older, holder⟩ := exists_reverse_matching_eq filter lines
  rw [select_eq_take hlimit, select_eq_take hlimit, holder, List.take_append]
  exact List.prefix_append _ _

/-- Nothing is missed where the `lastLines` hold as many events as are asked for. -/
theorem select_lastLines_eq (hlimit : 0 < limit) {lines : List (List Char)}
    (henough : limit ≤ (matching filter (lastLines lines)).length) :
    select filter (.ofNat limit) (lastLines lines) = select filter (.ofNat limit) lines := by
  obtain ⟨older, holder⟩ := exists_reverse_matching_eq filter lines
  rw [select_eq_take hlimit, select_eq_take hlimit, holder, List.take_append_of_le_length]
  rwa [List.length_reverse]

end LastLines

/-! ## Trims that succeed -/

/-- A `trim` that succeeds leaves a short log as it is, and of a long one the last lines. That a
file is missing is not to be told of one that is there. -/
theorem change_trim_of_ok {mishaps : Mishaps} {file : File}
    (htrue : ∀ fault ∈ mishaps.read, isMissingFile fault = false)
    (hok : Call.trim.result mishaps file = .ok ()) :
    (filledLines file.text).length ≤ 10000 ∧ Call.trim.change mishaps file = file ∨
      10000 < (filledLines file.text).length ∧
        filledLines (Call.trim.change mishaps file).text = lastLines (filledLines file.text) := by
  have hread : mishaps.read = none := by
    cases hread : mishaps.read with
    | none => rfl
    | some fault =>
      have hfault := htrue fault hread
      simp only [Call.result, hread, hfault, Bool.false_eq_true, if_false] at hok
      cases hok
  rcases Nat.lt_or_ge 10000 (filledLines file.text).length with hmany | hfew
  · have hwrite : mishaps.write = none := by
      cases hwrite : mishaps.write with
      | none => rfl
      | some fault =>
        simp only [Call.result, hread, if_pos hmany, hwrite] at hok
        cases hok
    have hchange : Call.trim.change mishaps file
        = some (Text.encodeChars
          (['\n'].intercalate (lastLines (filledLines file.text)) ++ ['\n'])) := by
      simp [Call.change, hread, hwrite, hmany]
    refine .inr ⟨hmany, ?_⟩
    rw [hchange, text_of_lastLines hmany]
    exact filledLines_endedLines fun line hline =>
      isLine_of_mem_filledLines ((lastLines_suffix _).subset hline)
  · exact .inl ⟨hfew, by simp [Call.change, hfew]⟩

/-- After a `trim` that succeeded, no log is too long. -/
theorem length_filledLines_le_of_trim {mishaps : Mishaps} {file : File}
    (htrue : ∀ fault ∈ mishaps.read, isMissingFile fault = false)
    (hok : Call.trim.result mishaps file = .ok ()) :
    (filledLines (Call.trim.change mishaps file).text).length ≤ 10000 := by
  rcases change_trim_of_ok htrue hok with ⟨hfew, hchange⟩ | ⟨hmany, hlines⟩
  · rw [hchange]
    exact hfew
  · rw [hlines, length_lastLines hmany]
    decide

/-- Trims by `oneByOne` leave a log as it is that is not too long. -/
theorem oneByOne_trims (luck : Nat → Mishaps) {calls : List Call}
    (htrims : ∀ call ∈ calls, call = .trim) (number : Nat) {file : File}
    (hshort : (filledLines file.text).length ≤ 10000) :
    (oneByOne luck number calls file).1 = file := by
  induction calls generalizing number with
  | nil => rfl
  | cons call calls ih =>
    obtain ⟨rfl, hrest⟩ := List.forall_mem_cons.1 htrims
    have hchange : Call.trim.change (luck number) file = file := by
      simp [Call.change, hshort]
    rw [oneByOne, hchange]
    exact ih hrest (number + 1)

/-! ## The log at work -/

/-- **A trim never changes what the newest entries are.** On a log of any content a `trim` succeeds.
A `query` with room for an entry then finds a prefix of what it would have found before, and all of
it if the log was not too long or if the last 8000 lines hold as many events as are asked for. Trims
that are issued later, at any time, leave the file as it is. -/
theorem trim_keeps_newest (log : EventLog) (initial : File) {luck : Nat → Mishaps}
    (htrue : ∀ fault ∈ (luck 0).read, isMissingFile fault = false) {happenings : List Happening}
    (hcalls : happenings.filterMap Happening.call? = [.trim]) {last : Journal}
    (hlast : last = (Journal.new log initial).run luck happenings)
    (hidle : last.queue.current = none) (hok : (0, .ok ()) ∈ last.results) {mishaps : Mishaps}
    (hread : mishaps.read = none) (filter : Filter) {limit : Nat} (hlimit : 0 < limit)
    (hfilter : filter.effectiveLimit = .ofNat limit) :
    let lines := filledLines initial.text
    (∃ before after,
      carry log mishaps (query log filter).outcome initial = (.ok before, initial) ∧
      carry log mishaps (query log filter).outcome last.file = (.ok after, last.file) ∧
      after <+: before ∧
      (lines.length ≤ 10000 ∨ limit ≤ (matching filter (lastLines lines)).length →
        after = before)) ∧
    ∀ later, (∀ call ∈ later.filterMap Happening.call?, call = .trim) →
      let again := last.run luck later
      (again.run luck (List.replicate (4 * again.calls.length) .answer)).file = last.file := by
  intro lines
  have haccords : last.Accords log luck initial := hlast ▸ Journal.accords_new.run happenings
  have hissued : last.calls = [.trim] := by
    rw [hlast, Journal.calls_run, hcalls]
    rfl
  obtain ⟨hfile, hresults⟩ := Prod.mk.inj (haccords.ends_of_idle hidle)
  rw [hissued] at hfile hresults
  have hchange : last.file = Call.trim.change (luck 0) initial := hfile
  have hsucceeds : Call.trim.result (luck 0) initial = .ok () := by
    rw [hresults] at hok
    exact ((Prod.mk.inj (List.mem_singleton.1 hok)).2).symm
  refine ⟨⟨_, _, carry_query_of_effectiveLimit hread hlimit hfilter initial,
    carry_query_of_effectiveLimit hread hlimit hfilter last.file, ?_⟩, fun later htrims => ?_⟩
  · rw [hchange]
    rcases change_trim_of_ok htrue hsucceeds with ⟨-, hsame⟩ | ⟨hmany, hlines⟩
    · rw [hsame]
      exact ⟨List.prefix_rfl, fun _ => rfl⟩
    · rw [hlines]
      refine ⟨prefix_select_lastLines hlimit filter _, fun henough => ?_⟩
      exact select_lastLines_eq hlimit (henough.resolve_left (Nat.not_le.2 hmany))
  · intro again
    have hagain : again.Accords log luck initial := haccords.run later
    have hdue : last.queue.Due (4 * last.calls.length) :=
      hlast ▸ Journal.due_run Journal.accords_new trivial happenings
    have hcalls : again.calls = .trim :: later.filterMap Happening.call? := by
      rw [Journal.calls_run, hissued]
      rfl
    have hfinal := hagain.file_of_answers (Journal.due_run haccords hdue later)
    rw [hfinal, hcalls, oneByOne, oneByOne_trims luck htrims 1
      (length_filledLines_le_of_trim htrue hsucceeds), hchange]

/-- Lines that are too many, with an event in the last one. -/
def longLines : List (List Char) := List.replicate 10000 ['x'] ++ [awkwardRecording.line]

theorem length_longLines : longLines.length = 10001 := by
  rw [longLines, List.length_append, List.length_replicate]
  rfl

theorem isLine_of_mem_longLines {line : List Char} (h : line ∈ longLines) : IsLine line := by
  rcases List.mem_append.1 h with hfirst | hlast
  · rw [List.eq_of_mem_replicate hfirst]
    exact ⟨by decide, by decide⟩
  · rw [List.mem_singleton.1 hlast]
    exact isLine_entryLine _ _

theorem matching_awkward :
    matching { limit := some (.ofNat 1) } [awkwardRecording.line] = [awkwardRecording.event] := by
  simp [matching, Recording.parse_line faithful_awkwardRecording, ← accepts_iff, Filter.accepts]

/-- A trim that nothing befalls succeeds. -/
theorem trim_ends (log : EventLog) (initial : File) {last : Journal}
    (hlast : last = (Journal.new log initial).run (fun _ => {})
      (.issue .trim :: List.replicate 4 .answer)) :
    last.queue.current = none ∧ (0, .ok ()) ∈ last.results := by
  have hcalls : ((Journal.new log initial).run (fun _ => {}) [.issue .trim]).calls = [.trim] := by
    rw [Journal.calls_run]
    rfl
  have hsplit : last = ((Journal.new log initial).run (fun _ => {}) [.issue .trim]).run
      (fun _ => {}) (List.replicate 4 .answer) := by
    rw [hlast, Journal.run, Journal.run, Journal.run, ← List.foldl_append, List.singleton_append]
  have hdue := @Journal.due_run log (fun _ => {}) initial _ Journal.accords_new trivial
    [.issue .trim]
  have haccords : Journal.Accords log (fun _ => {}) initial last :=
    hlast ▸ Journal.accords_new.run _
  have hlasting : last.calls = [.trim] := by
    rw [hlast, Journal.calls_run]
    rfl
  rw [hcalls] at hdue
  have hidle : last.queue.current = none := by
    rw [hsplit]
    exact Journal.idle_of_answers hdue
  obtain ⟨-, hresults⟩ := Prod.mk.inj (haccords.ends_of_idle hidle)
  have hresult : Call.trim.result {} initial = .ok () := by
    rw [Call.result]
    dsimp only
    split <;> rfl
  refine ⟨hidle, ?_⟩
  rw [hresults, hlasting, oneByOne, hresult]
  exact List.mem_cons_self

/-- An event is found behind the lines that a trim drops. -/
theorem newest_found_after_trim :
    let initial : File := some (Text.encodeChars (endedLines longLines))
    let last := (Journal.new ⟨"log"⟩ initial).run (fun _ => {})
      (.issue .trim :: List.replicate 4 .answer)
    let filter : Filter := { limit := some (.ofNat 1) }
    10000 < (filledLines initial.text).length ∧
    carry ⟨"log"⟩ {} (query ⟨"log"⟩ filter).outcome last.file
      = (.ok [awkwardRecording.event], last.file) := by
  intro initial last filter
  have hlines : filledLines initial.text = longLines := by
    rw [File.text, Option.getD_some, Text.decodeBytes_encodeChars]
    exact filledLines_endedLines fun _ => isLine_of_mem_longLines
  clear_value initial
  obtain ⟨hidle, hok⟩ := trim_ends ⟨"log"⟩ initial (rfl : last = _)
  obtain ⟨⟨before, after, hbefore, hafter, -, hsame⟩, -⟩ :=
    @trim_keeps_newest ⟨"log"⟩ initial (fun _ => {}) (by simp) _ rfl last rfl hidle hok {} rfl
      filter 1
      (by decide) rfl
  have hkept : lastLines longLines
      = (List.replicate 10000 ['x']).drop 2001 ++ [awkwardRecording.line] := by
    rw [lastLines, length_longLines, longLines, List.drop_append_of_le_length]
    rw [List.length_replicate]
    decide
  have henough : 1 ≤ (matching filter (lastLines (filledLines initial.text))).length := by
    rw [hlines, hkept, matching_append, matching_awkward, List.length_append]
    exact Nat.le_add_left _ _
  have hfound : select filter (.ofNat 1) (filledLines initial.text) = [awkwardRecording.event] := by
    rw [hlines, longLines, select_eq_take (by decide), matching_append, matching_awkward,
      List.reverse_append, List.reverse_singleton, List.singleton_append, List.take_succ_cons,
      List.take_zero]
  have hquery := @carry_query_of_effectiveLimit ⟨"log"⟩ {} rfl filter 1 (by decide) rfl initial
  obtain rfl : before = [awkwardRecording.event] := by
    rw [hfound, hbefore] at hquery
    exact Except.ok.inj (Prod.mk.inj hquery).1
  refine ⟨?_, hafter.trans (by rw [hsame (.inr henough)])⟩
  rw [hlines, length_longLines]
  decide

end EventLog

end Outpost

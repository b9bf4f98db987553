import Mathlib.Data.List.DropRight
import Outpost.Proofs.EventLog.Recall
import Outpost.Proofs.Json.Joined

/-!
# What is recorded behind a line that was not ended

Recording appends a line and its end, and looks at nothing that is in the file. So where the file
does not end with the end of a line, the first event that is recorded joins up with what stands
there. The joined line is no JSON unless that is blank, and a reader passes over it: the event is
lost, and so is an event that stood there. Everything else is found.

## Contents

* `endedPart`, `unendedPart`: a text up to the last end of a line, and what stands behind it.
* `entries_append_lineFeed`, `entries_endedPart_append`: events of joined texts.
* `Recording.isObject_line`, `Recording.parse_append_line`: a recorded line behind other text.
* `entries_append_recordings`, `recordings_found_behind`.
-/

namespace Outpost

namespace EventLog

/-! ## The end of a text -/

/-- A text up to the last end of a line, with it. -/
def endedPart (text : List Char) : List Char := text.rdropWhile (· ≠ '\n')

/-- What stands behind the last end of a line. -/
def unendedPart (text : List Char) : List Char := text.rtakeWhile (· ≠ '\n')

theorem endedPart_append_unendedPart (text : List Char) :
    endedPart text ++ unendedPart text = text :=
  List.rdropWhile_append_rtakeWhile

theorem lineFeed_not_mem_unendedPart (text : List Char) : '\n' ∉ unendedPart text := by
  intro h
  have hother := List.mem_rtakeWhile_imp h
  rw [decide_eq_true_eq] at hother
  exact hother rfl

/-- The `endedPart` of a text is empty or has an end of a line at its end. -/
theorem endedPart_eq (text : List Char) :
    endedPart text = [] ∨ ∃ front, endedPart text = front ++ ['\n'] := by
  by_cases hnil : endedPart text = []
  · exact .inl hnil
  · have hlast : (endedPart text).getLast hnil = '\n' := by
      have hnot := List.rdropWhile_last_not _ _ hnil
      rw [decide_eq_true_eq, not_not] at hnot
      exact hnot
    refine .inr ⟨(endedPart text).dropLast, ?_⟩
    rw [← hlast, List.dropLast_append_getLast]

/-! ## Events of joined texts -/

/-- Two texts with an end of a line between them hold the `entries` of both. -/
theorem entries_append_lineFeed (text more : List Char) :
    entries (text ++ '\n' :: more) = entries text ++ entries more := by
  rw [entries, Text.split_append_mark, List.filterMap_append]
  rfl

/-- The `entries` of a text that is one line are the event of that line, if it is one. -/
theorem entries_of_not_mem {line : List Char} (h : '\n' ∉ line) :
    entries line = ((Json.parseChars? line).bind Event.ofJson?).toList := by
  rw [entries, Text.split_of_not_mem h]
  cases hevent : (Json.parseChars? line).bind Event.ofJson? with
  | none => simp [hevent]
  | some event => simp [hevent]

/-- The `endedPart` of a text does not join up with what comes behind it. -/
theorem entries_endedPart_append (text more : List Char) :
    entries (endedPart text ++ more) = entries (endedPart text) ++ entries more := by
  have hnone : entries [] = [] := by
    rw [entries_of_not_mem List.not_mem_nil, parseChars?_of_allBlank rfl]
    rfl
  rcases endedPart_eq text with hnil | ⟨front, hfront⟩
  · rw [hnil, hnone, List.nil_append, List.nil_append]
  · rw [hfront, List.append_assoc, List.singleton_append, entries_append_lineFeed,
      entries_append_lineFeed, hnone, List.append_nil]

/-! ## Recorded lines behind other text -/

namespace Recording

variable {recording : Recording}

/-- A recorded line `IsObject`, with the time in front. -/
theorem isObject_line (h : recording.Faithful) : Json.IsObject recording.line := by
  rw [line, entryLine_object, Event.mkObject_of_perm h.perm]
  exact @Json.isObject_renderChars _ _ _ (Event.writable_of_perm h.sound h.perm) 't' ['s']
    (by decide) (by decide)

/-- A recorded line behind other text is the event, if that text is blank, each character
`Json.isSpace`, and otherwise no event. -/
theorem parse_append_line (h : recording.Faithful) (front : List Char) :
    (Json.parseChars? (front ++ recording.line)).bind Event.ofJson?
      = if front.all Json.isSpace then some recording.event else none := by
  have hparse := parse_line h
  split
  · rename_i hblank
    cases hline : Json.parseChars? recording.line with
    | none =>
      rw [hline] at hparse
      exact absurd hparse nofun
    | some found =>
      rw [Json.parseChars?_append_of_blank (List.all_eq_true.1 hblank) hline, ← hline]
      exact hparse
  · rename_i hother
    have hfront : ∃ c ∈ front, Json.isSpace c = false := by simpa using hother
    rw [Json.parseChars?_append_eq_none (isObject_line h) hfront]
    rfl

end Recording

/-- The events of a text behind which events were recorded: those of its `endedPart` and those that
were recorded, without the first one if the `unendedPart` is not blank. -/
theorem entries_append_recordings (text : List Char) {recordings : List Recording}
    (hsome : recordings ≠ []) (hfaithful : ∀ recording ∈ recordings, recording.Faithful) :
    entries (text ++ endedLines (recordings.map Recording.line))
      = entries (endedPart text) ++
        if (unendedPart text).all Json.isSpace then recordings.map Recording.event
        else (recordings.map Recording.event).tail := by
  obtain ⟨first, recordings, rfl⟩ := List.exists_cons_of_ne_nil hsome
  obtain ⟨hfirst, hothers⟩ := List.forall_mem_cons.1 hfaithful
  have hlines : ∀ line ∈ recordings.map Recording.line, IsLine line :=
    List.forall_mem_map.2 fun recording _ => isLine_entryLine _ _
  have hsplit : text ++ endedLines ((first :: recordings).map Recording.line)
      = endedPart text ++ ((unendedPart text ++ first.line)
          ++ '\n' :: endedLines (recordings.map Recording.line)) := by
    conv_lhs => rw [← endedPart_append_unendedPart text]
    simp [endedLines]
  have hjoined : '\n' ∉ unendedPart text ++ first.line := by
    rw [List.mem_append, not_or]
    exact ⟨lineFeed_not_mem_unendedPart text, (isLine_entryLine _ _).single⟩
  rw [hsplit, entries_endedPart_append, entries_append_lineFeed, entries_of_not_mem hjoined,
    first.parse_append_line hfirst, entries_eq (endedLines _), filledLines_endedLines hlines,
    filterMap_lines hothers]
  split
  · rfl
  · rfl

/-- Events are recorded on a log of any content, issued at any time, and no appending fails. A
`query` without conditions, with room for all of them, then finds them, the newest first, and behind
them the newest of the events in the `endedPart` of the file, as many as there is room for. But the
event that was recorded first is lost if the `unendedPart` of the file is not blank. -/
theorem recordings_found_behind (log : EventLog) (initial : File)
    {luck : Nat → Mishaps} (hluck : ∀ number, (luck number).append = none)
    {recordings : List Recording} (hsome : recordings ≠ [])
    (hfaithful : ∀ recording ∈ recordings, recording.Faithful)
    {happenings : List Happening}
    (hcalls : happenings.filterMap Happening.call? = recordings.map Recording.call)
    {last : Journal} (hlast : last = (Journal.new log initial).run luck happenings)
    (hidle : last.queue.current = none) {mishaps : Mishaps} (hread : mishaps.read = none)
    {filter : Filter} (hall : ∀ event, filter.Matches event) {limit : Nat}
    (hroom : recordings.length ≤ limit) (hfilter : filter.effectiveLimit = .ofNat limit) :
    let events := recordings.map Recording.event
    let kept := if (unendedPart initial.text).all Json.isSpace then events else events.tail
    let older := entries (endedPart initial.text)
    carry log mishaps (query log filter).outcome last.file
      = (.ok (kept.reverse ++ older.reverse.take (limit - kept.length)), last.file) := by
  intro events kept older
  have hlimit : 0 < limit := (List.length_pos_of_ne_nil hsome).trans_le hroom
  have hfound : entries last.file.text = older ++ kept := by
    rw [text_of_recordings hluck hcalls hlast hidle, entries_append_recordings _ hsome hfaithful]
  have hkept : kept.reverse.length ≤ limit := by
    rw [List.length_reverse]
    refine Nat.le_trans ?_ hroom
    simp only [kept]
    split
    · simp [events]
    · simp [events]
  have hmatches : (entries last.file.text).filter (fun event => filter.Matches event)
      = entries last.file.text :=
    List.filter_eq_self.2 fun event _ => decide_eq_true (hall event)
  rw [carry_query_of_effectiveLimit hread hlimit hfilter, select_eq hlimit, ← entries_eq, hmatches,
    hfound, List.reverse_append, List.take_append, List.take_of_length_le hkept,
    List.length_reverse]

/-- Of two `Recording`s that are made behind a line that was cut short, the second is found. -/
theorem second_found_behind_cut_line :
    let initial : File := some (Text.encodeUtf8 "\x7b\"ts\":1")
    let last := (Journal.new ⟨"log"⟩ initial).run (fun _ => {})
      [.issue awkwardRecording.call, .issue awkwardRecording.call, .answer, .answer]
    let filter : Filter := { limit := some (.ofNat 5) }
    last.queue.current = none ∧
    carry ⟨"log"⟩ {} (query ⟨"log"⟩ filter).outcome last.file
      = (.ok [awkwardRecording.event], last.file) := by
  intro initial last filter
  have hidle : last.queue.current = none := rfl
  have hfound := @recordings_found_behind ⟨"log"⟩ initial (fun _ => {}) (fun _ => rfl)
    [awkwardRecording, awkwardRecording] (List.cons_ne_nil _ _)
    (by simp [faithful_awkwardRecording]) _ rfl last rfl hidle {} rfl filter
    (fun _ => ⟨nofun, nofun, nofun⟩) 5 (by decide) rfl
  have hcut : (unendedPart initial.text).all Json.isSpace = false := by decide +kernel
  have hnothing : entries (endedPart initial.text) = [] := by decide +kernel
  refine ⟨hidle, hfound.trans ?_⟩
  simp [hcut, hnothing]

/-- An event that is recorded behind a line that was cut short is not found. -/
theorem recording_lost_behind_cut_line :
    let initial : File := some (Text.encodeUtf8 "\x7b\"ts\":1")
    let last := (Journal.new ⟨"log"⟩ initial).run (fun _ => {})
      [.issue awkwardRecording.call, .answer]
    let filter : Filter := { limit := some (.ofNat 5) }
    awkwardRecording.Faithful ∧ last.queue.current = none ∧ last.results = [(0, .ok ())] ∧
    carry ⟨"log"⟩ {} (query ⟨"log"⟩ filter).outcome last.file = (.ok [], last.file) := by
  intro initial last filter
  have hidle : last.queue.current = none := rfl
  refine ⟨faithful_awkwardRecording, hidle, rfl, ?_⟩
  have htext := @text_of_recordings ⟨"log"⟩ initial (fun _ => {}) (fun _ => rfl) [awkwardRecording]
    _ rfl last rfl hidle
  have hnothing : entries last.file.text = [] := by
    rw [htext, entries_append_recordings _ (List.cons_ne_nil _ _)
      (List.forall_mem_singleton.2 faithful_awkwardRecording)]
    decide +kernel
  rw [carry_query_of_effectiveLimit rfl (show 0 < 5 by decide) rfl, select_eq (by decide),
    ← entries_eq, hnothing]
  rfl

end EventLog

end Outpost

import Outpost.Proofs.EventLog.Journal
import Outpost.Proofs.Json.OneLine

/-!
# What becomes of lines

A line that was recorded is in the log until a trim finds it too old. In terms of the text: the log
is a part of the old text and then recorded lines, in the order in which they were recorded, none
twice. Lines are only lost at the front, first those of the old text; and where a recorded line was
lost, the newest 8000 are still there (`Keeps`).

Together with the order in which the queue makes the changes, this is what can be said of a log that
many write to at once (`log_refines_calls`).

## Contents

* `entryLine`, `recorded`: the lines that calls record.
* `Keeps`, `Keeps.record`, `Keeps.trim`, `keeps_oneByOne`: what is kept of lines, call after call.
* `log_refines_calls`.
-/

namespace Outpost

namespace EventLog

/-! ## Recorded lines -/

/-- The `line` of an entry, without its end. -/
def entryLine (now : Number) (entry : Json) : List Char := (line now entry).toList.dropLast

theorem toList_line (now : Number) (entry : Json) :
    (line now entry).toList = entryLine now entry ++ ['\n'] := by
  simp [entryLine, line]

/-- The `entryLine` of an object has its fields behind its time. -/
theorem entryLine_object (now : Number) (fields : List (String × Json)) :
    entryLine now (.object fields) = Json.renderChars (Json.mkObject
      (("ts", (Json.lookup "ts" fields).getD (.number now))
        :: fields.filter fun field => field.1 ≠ "ts")) := by
  simp [entryLine, line, Json.render]

theorem isLine_entryLine (now : Number) (entry : Json) : IsLine (entryLine now entry) := by
  obtain ⟨fields, hline⟩ : ∃ fields, line now entry = (Json.object fields).render ++ "\n" :=
    ⟨_, rfl⟩
  have hentry : entryLine now entry = Json.renderChars (.object fields) := by
    simp [entryLine, hline, Json.render]
  rw [hentry]
  constructor
  · exact Json.lineFeed_not_mem_renderChars _
  · -- an object begins with a brace
    simp [Json.renderChars, Text.allBlank, Text.isBlank]

/-- The lines that `record` calls put down, of those whose appending does not fail. -/
def recorded (luck : Nat → Mishaps) : Nat → List Call → List (List Char)
  | _, [] => []
  | number, .record now entry :: rest =>
    if (luck number).append.isNone then entryLine now entry :: recorded luck (number + 1) rest
    else recorded luck (number + 1) rest
  | number, .trim :: rest => recorded luck (number + 1) rest

/-! ## What is kept of them -/

/-- A text is what is left of an old text and of the lines that were recorded since. -/
structure Keeps (old : List Char) (recorded : List (List Char)) (text head : List Char)
    (kept : List (List Char)) : Prop where
  text_eq : text = head ++ endedLines kept
  /-- The recorded lines that are left are the newest ones, in their order. -/
  newest : kept <:+ recorded
  /-- The lines that are left of the old text are its last ones. -/
  old_newest : filledLines head <:+ filledLines old
  /-- A recorded line is only lost when nothing of the old text and 8000 newer lines are left. -/
  full : kept ≠ recorded → head = [] ∧ 8000 ≤ kept.length

section Keeps

variable {old text head : List Char} {lines kept : List (List Char)} {line : List Char}

/-- A line that is recorded is kept, and so is everything else that a log `Keeps`. -/
theorem Keeps.record (h : Keeps old lines text head kept) (line : List Char) :
    Keeps old (lines ++ [line]) (text ++ line ++ ['\n']) head (kept ++ [line]) where
  text_eq := by
    rw [h.text_eq, endedLines_append]
    simp [endedLines]
  newest := by
    obtain ⟨lost, hlost⟩ := h.newest
    exact ⟨lost, by rw [← hlost, List.append_assoc]⟩
  old_newest := h.old_newest
  full := by
    intro hlost
    obtain ⟨hhead, hlength⟩ := h.full fun heq => hlost (by rw [heq])
    refine ⟨hhead, ?_⟩
    rw [List.length_append]
    omega

theorem lastLines_suffix (lines : List (List Char)) : lastLines lines <:+ lines :=
  List.drop_suffix _ _

theorem length_lastLines (h : 10000 < lines.length) : (lastLines lines).length = 8000 := by
  rw [lastLines, List.length_drop]
  omega

/-- A `trim` keeps the newest of the recorded lines, where nothing is left of the old text. -/
theorem Keeps.trim_recorded (h : Keeps old lines text [] kept) (hkept : ∀ line ∈ kept, IsLine line)
    (hmany : 10000 < (filledLines text).length) :
    Keeps old lines (endedLines (lastLines (filledLines text))) [] (lastLines kept) := by
  have htext : filledLines text = kept := by
    rw [h.text_eq, List.nil_append, filledLines_endedLines hkept]
  rw [htext] at hmany ⊢
  have hlength := length_lastLines hmany
  refine ⟨(List.nil_append _).symm, (lastLines_suffix kept).trans h.newest, List.nil_suffix,
    fun _ => ⟨rfl, ?_⟩⟩
  omega

/-- A `trim` keeps the last of the old lines, where nothing was recorded. -/
theorem Keeps.trim_old (h : Keeps old [] text head []) :
    Keeps old [] (endedLines (lastLines (filledLines text)))
      (endedLines (lastLines (filledLines text))) [] := by
  have htext : text = head := by
    rw [h.text_eq]
    exact List.append_nil head
  have hfound : ∀ line ∈ lastLines (filledLines text), IsLine line := fun line hline =>
    isLine_of_mem_filledLines ((lastLines_suffix _).subset hline)
  refine ⟨(List.append_nil _).symm, List.nil_suffix, ?_, fun hlost => absurd rfl hlost⟩
  rw [filledLines_endedLines hfound, htext]
  exact (lastLines_suffix _).trans h.old_newest

/-- A `trim` keeps recorded lines rather than old ones. The first recorded line may stand behind the
rest of an old line that was not ended. -/
theorem Keeps.trim_across {first : List Char}
    (h : Keeps old (first :: lines) text head (first :: lines))
    (hlines : ∀ line ∈ first :: lines, IsLine line) (hmany : 10000 < (filledLines text).length) :
    ∃ head' kept',
      Keeps old (first :: lines) (endedLines (lastLines (filledLines text))) head' kept' := by
  obtain ⟨hfirst, hlines⟩ := List.forall_mem_cons.1 hlines
  obtain ⟨whole, rest, hwhole, -, hold, happend⟩ := exists_filledLines_append head
  have hfound : filledLines text = whole ++ (rest ++ first) :: lines := by
    have htext : text = (head ++ first) ++ '\n' :: endedLines lines := by
      rw [h.text_eq]
      simp [endedLines]
    rw [htext, filledLines_append_end, happend hfirst, filledLines_endedLines hlines,
      List.append_assoc]
    rfl
  rw [hfound] at hmany ⊢
  generalize hdrop : (whole ++ (rest ++ first) :: lines).length - 8000 = n
  have hlast : lastLines (whole ++ (rest ++ first) :: lines)
      = (whole ++ (rest ++ first) :: lines).drop n := by
    rw [lastLines, hdrop]
  have hlength := length_lastLines hmany
  rw [hlast] at hlength ⊢
  by_cases hn : n ≤ whole.length
  · -- what is dropped is all old
    rw [List.drop_append_of_le_length hn]
    refine ⟨endedLines (whole.drop n) ++ rest, first :: lines, ?_, h.newest, ?_,
      fun hlost => absurd rfl hlost⟩
    · simp [endedLines]
    · have hdropped : ∀ line ∈ whole.drop n, IsLine line := fun line hline =>
        hwhole line (List.mem_of_mem_drop hline)
      refine List.IsSuffix.trans ?_ h.old_newest
      rw [filledLines_endedLines_append hdropped, hold]
      obtain ⟨lost, hlost⟩ := List.drop_suffix n whole
      exact ⟨lost, by rw [← List.append_assoc, hlost]⟩
  · -- everything old is dropped, and the first recorded line with it
    obtain ⟨m, rfl⟩ : ∃ m, n = whole.length + (m + 1) := ⟨n - whole.length - 1, by omega⟩
    rw [List.drop_length_add_append, List.drop_succ_cons] at hlength ⊢
    refine ⟨[], lines.drop m, (List.nil_append _).symm, ?_, List.nil_suffix, fun _ => ⟨rfl, ?_⟩⟩
    · exact (List.drop_suffix m lines).trans (List.suffix_cons first lines)
    · omega

/-- A `trim` keeps the newest lines. -/
theorem Keeps.trim (h : Keeps old lines text head kept) (hlines : ∀ line ∈ lines, IsLine line)
    (hmany : 10000 < (filledLines text).length) :
    ∃ head' kept', Keeps old lines (endedLines (lastLines (filledLines text))) head' kept' := by
  by_cases hhead : head = []
  · subst hhead
    exact ⟨_, _, h.trim_recorded (fun line hline => hlines line (h.newest.subset hline)) hmany⟩
  · -- no recorded line was lost as long as something of the old text is left
    obtain rfl : kept = lines := Decidable.byContradiction fun hlost => hhead (h.full hlost).1
    cases kept with
    | nil => exact ⟨_, _, h.trim_old⟩
    | cons first kept => exact h.trim_across hlines hmany

end Keeps

/-! ## Calls one at a time -/

/-- The line that is recorded by a call whose `append` does not fail. -/
theorem text_change_record {mishaps : Mishaps} (h : mishaps.append = none) (now : Number)
    (entry : Json) (file : File) :
    ((Call.record now entry).change mishaps file).text
      = file.text ++ entryLine now entry ++ ['\n'] := by
  have hchange : (Call.record now entry).change mishaps file
      = some (file.getD [] ++ Text.encodeUtf8 (line now entry)) := by
    simp [Call.change, h]
  rw [hchange, File.text, Option.getD_some, Text.encodeUtf8, Text.decodeBytes_append, toList_line,
    List.append_assoc]
  rfl

/-- What a trim writes are the `lastLines` that it keeps, each ended. -/
theorem text_of_lastLines {lines : List (List Char)} (hmany : 10000 < lines.length) :
    File.text (some (Text.encodeChars (['\n'].intercalate (lastLines lines) ++ ['\n'])))
      = endedLines (lastLines lines) := by
  have hsome : lastLines lines ≠ [] := by
    intro hnil
    have hlength := length_lastLines hmany
    rw [hnil, List.length_nil] at hlength
    omega
  rw [File.text, Option.getD_some, Text.decodeBytes_encodeChars, intercalate_append_end hsome]

/-- The `change` of a trim leaves the text as it is or drops lines that are too many. -/
theorem text_change_trim (mishaps : Mishaps) (file : File) :
    (Call.trim.change mishaps file).text = file.text ∨
      10000 < (filledLines file.text).length ∧
        (Call.trim.change mishaps file).text
          = endedLines (lastLines (filledLines file.text)) := by
  rw [Call.change]
  split
  · rename_i hmade
    simp only [Bool.and_eq_true, decide_eq_true_eq] at hmade
    obtain ⟨-, hmany⟩ := hmade
    exact .inr ⟨hmany, text_of_lastLines hmany⟩
  · exact .inl rfl

/-- What calls do `oneByOne` keeps the lines that they record. -/
theorem keeps_oneByOne (luck : Nat → Mishaps) {calls : List Call} {number : Nat} {file : File}
    {old head : List Char} {lines kept : List (List Char)}
    (h : Keeps old lines file.text head kept) (hlines : ∀ line ∈ lines, IsLine line) :
    ∃ head' kept', Keeps old (lines ++ recorded luck number calls)
      (oneByOne luck number calls file).1.text head' kept' := by
  induction calls generalizing number file head lines kept with
  | nil =>
    rw [recorded, List.append_nil]
    exact ⟨head, kept, h⟩
  | cons call calls ih =>
    cases call with
    | record now entry =>
      cases happend : (luck number).append with
      | none =>
        have hrecorded : lines ++ recorded luck number (.record now entry :: calls)
            = (lines ++ [entryLine now entry]) ++ recorded luck (number + 1) calls := by
          simp [recorded, happend]
        rw [hrecorded]
        have hkeeps := h.record (entryLine now entry)
        rw [← text_change_record happend] at hkeeps
        refine ih hkeeps (List.forall_mem_append.2 ⟨hlines, ?_⟩)
        exact List.forall_mem_singleton.2 (isLine_entryLine now entry)
      | some fault =>
        have hrecorded : recorded luck number (.record now entry :: calls)
            = recorded luck (number + 1) calls := by
          simp [recorded, happend]
        have hchange : (Call.record now entry).change (luck number) file = file := by
          simp [Call.change, happend]
        rw [hrecorded]
        rw [← hchange] at h
        exact ih h hlines
    | trim =>
      rcases text_change_trim (luck number) file with htext | ⟨hmany, htext⟩
      · rw [← htext] at h
        exact ih h hlines
      · obtain ⟨head', kept', hkeeps⟩ := h.trim hlines hmany
        rw [← htext] at hkeeps
        exact ih hkeeps hlines

/-- Nothing has become of an `old` text at first. -/
theorem keeps_self (old : List Char) : Keeps old [] old old [] where
  text_eq := (List.append_nil old).symm
  newest := List.suffix_rfl
  old_newest := List.suffix_rfl
  full := fun hlost => absurd rfl hlost

/-- A result is that of the call with its number, in `oneByOne`. -/
theorem exists_of_mem_oneByOne (luck : Nat → Mishaps) {calls : List Call} {number ticket : Nat}
    {file : File} {result : Except Fault Unit}
    (h : (ticket, result) ∈ (oneByOne luck number calls file).2) :
    ∃ i call before, ticket = number + i ∧ calls[i]? = some call ∧
      result = call.result (luck ticket) before := by
  induction calls generalizing number file with
  | nil => exact absurd h List.not_mem_nil
  | cons call calls ih =>
    rcases List.mem_cons.1 h with heq | hmem
    · obtain ⟨rfl, rfl⟩ := Prod.mk.inj heq
      exact ⟨0, call, file, rfl, rfl, rfl⟩
    · obtain ⟨i, later, before, hticket, hlater, hresult⟩ := ih hmem
      exact ⟨i + 1, later, before, by omega, hlater, hresult⟩

/-! ## The whole log -/

/-- Calls are issued by `Happening.issue` on a log at any time, also while operations of earlier
ones are under way, and any operation may fail. Once nothing is left to do, the file is what the
calls make of it `oneByOne`, in the order in which they were issued, and it has lost lines to trims
only. No call to record fails, and answering what is under way brings the log to rest. -/
theorem log_refines_calls (log : EventLog) (initial : File) (luck : Nat → Mishaps)
    (happenings : List Happening) :
    let last := (Journal.new log initial).run luck happenings
    last.calls = happenings.filterMap Happening.call? ∧
    (last.queue.current = none →
      (last.file, last.results) = oneByOne luck 0 last.calls initial ∧
      ∃ head kept, Keeps initial.text (recorded luck 0 last.calls) last.file.text head kept) ∧
    (∀ number now entry result, last.calls[number]? = some (.record now entry) →
      (number, result) ∈ last.results → result = .ok ()) ∧
    (last.run luck (List.replicate (4 * last.calls.length) .answer)).queue.current = none := by
  intro last
  have haccords : last.Accords log luck initial := Journal.accords_new.run happenings
  refine ⟨Journal.calls_run happenings, fun hidle => ?_, ?_, ?_⟩
  · have hends := haccords.ends_of_idle hidle
    refine ⟨hends, ?_⟩
    have hfile : last.file = (oneByOne luck 0 last.calls initial).1 := congrArg Prod.fst hends
    rw [hfile]
    exact keeps_oneByOne luck (keeps_self initial.text) fun _ hline => nomatch hline
  · intro number now entry result hcall hresult
    obtain ⟨i, call, before, hnumber, hcall', hresult'⟩ :=
      exists_of_mem_oneByOne luck (haccords.results_prefix.subset hresult)
    obtain rfl : number = i := by omega
    obtain rfl := Option.some.inj (hcall.symm.trans hcall')
    exact hresult'
  · exact Journal.idle_of_answers (Journal.due_run Journal.accords_new trivial happenings)

/-- A record that is issued while a trim is pending waits for it, and its line is in the file when
both have been made. -/
theorem record_during_trim :
    let last := (Journal.new ⟨"log"⟩ (some [0x61, 0x0a])).run (fun _ => {})
      [.issue .trim, .issue (.record (.ofNat 7) (.object [])), .answer, .answer]
    last.queue.current = none ∧
    (last.file, last.results) = oneByOne (fun _ => {}) 0 last.calls (some [0x61, 0x0a]) ∧
    last.file = some ([0x61, 0x0a] ++ Text.encodeUtf8 (line (.ofNat 7) (.object []))) ∧
    (∃ head kept,
      Keeps ['a', '\n'] (recorded (fun _ => {}) 0 last.calls) last.file.text head kept) ∧
    ∀ result, (1, result) ∈ last.results → result = .ok () := by
  intro last
  have hidle : last.queue.current = none := rfl
  obtain ⟨-, hends, hrecords, -⟩ := log_refines_calls ⟨"log"⟩ (some [0x61, 0x0a]) (fun _ => {})
    [.issue .trim, .issue (.record (.ofNat 7) (.object [])), .answer, .answer]
  exact ⟨hidle, (hends hidle).1, rfl, (hends hidle).2, fun result => hrecords 1 _ _ result rfl⟩

end EventLog

end Outpost

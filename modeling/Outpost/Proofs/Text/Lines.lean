import Outpost.EventLog

/-!
# Lines of a text

Splitting at a mark, and the lines of a log as splitting finds them. Lines that are each ended by a
line feed are found again, in front of anything that comes behind them. Text that is not ended joins
up with what is appended to it.

## Contents

* `Text.exists_split_append`: where two texts meet, so do the last part of one and the first part of
  the other.
* `EventLog.IsLine`, `EventLog.endedLines`: lines with their ends.
* `EventLog.filledLines_endedLines_append`, `EventLog.exists_filledLines_append`.
-/

namespace Outpost

namespace Text

variable {mark : Char}

theorem split_mark (text : List Char) : split mark (mark :: text) = [] :: split mark text := by
  show splitStep mark mark (split mark text) = [] :: split mark text
  rw [splitStep.eq_def, if_pos rfl]

theorem split_cons {c : Char} (hc : c ≠ mark) {text first : List Char} {rest : List (List Char)}
    (h : split mark text = first :: rest) : split mark (c :: text) = (c :: first) :: rest := by
  show splitStep mark c (split mark text) = (c :: first) :: rest
  rw [h, splitStep.eq_def, if_neg hc]

/-- A `split` text that begins with another one: only the `last` part of that one goes on. -/
theorem exists_split_append (mark : Char) (text : List Char) :
    ∃ parts last, split mark text = parts ++ [last] ∧
      ∀ {more first rest}, split mark more = first :: rest →
        split mark (text ++ more) = parts ++ (last ++ first) :: rest := by
  induction text with
  | nil => exact ⟨[], [], rfl, fun h => h⟩
  | cons c text ih =>
    obtain ⟨parts, last, htext, happend⟩ := ih
    by_cases hc : c = mark
    · subst hc
      refine ⟨[] :: parts, last, ?_, fun h => ?_⟩
      · rw [split_mark, htext, List.cons_append]
      · rw [List.cons_append, split_mark, happend h, List.cons_append]
    · cases parts with
      | nil => exact ⟨[], c :: last, split_cons hc htext, fun h => split_cons hc (happend h)⟩
      | cons part parts =>
        exact ⟨(c :: part) :: parts, last, split_cons hc htext, fun h => split_cons hc (happend h)⟩

/-- Two texts with a `mark` between them are `split` one by one. -/
theorem split_append_mark (text more : List Char) :
    split mark (text ++ mark :: more) = split mark text ++ split mark more := by
  obtain ⟨parts, last, htext, happend⟩ := exists_split_append mark text
  rw [happend (split_mark more), htext, List.append_nil, List.append_assoc]
  rfl

theorem exists_split_eq_cons (mark : Char) (text : List Char) :
    ∃ first rest, split mark text = first :: rest := by
  obtain ⟨parts, last, htext, -⟩ := exists_split_append mark text
  cases parts with
  | nil => exact ⟨last, [], htext⟩
  | cons first parts => exact ⟨first, parts ++ [last], htext⟩

/-- A text without a mark is one part. -/
theorem split_of_not_mem {text : List Char} (h : mark ∉ text) : split mark text = [text] := by
  induction text with
  | nil => rfl
  | cons c text ih =>
    obtain ⟨hc, htext⟩ := not_or.1 (mt List.mem_cons.2 h)
    exact split_cons (Ne.symm hc) (ih htext)

/-- No part of a `split` has the mark in it. -/
theorem not_mem_of_mem_split {text part : List Char} (h : part ∈ split mark text) :
    mark ∉ part := by
  induction text generalizing part with
  | nil =>
    obtain rfl := List.mem_singleton.1 h
    exact List.not_mem_nil
  | cons c text ih =>
    by_cases hc : c = mark
    · subst hc
      rw [split_mark] at h
      rcases List.mem_cons.1 h with rfl | hmem
      · exact List.not_mem_nil
      · exact ih hmem
    · obtain ⟨first, rest, hparts⟩ := exists_split_eq_cons mark text
      rw [split_cons hc hparts] at h
      rw [hparts] at ih
      rcases List.mem_cons.1 h with rfl | hmem
      · have hfirst : mark ∉ first := ih List.mem_cons_self
        simp [hfirst, Ne.symm hc]
      · exact ih (List.mem_cons_of_mem _ hmem)

end Text

namespace EventLog

/-! ## Lines with their ends -/

/-- What reading a log can find as a line: one of the `filledLines` of a text. -/
structure IsLine (line : List Char) : Prop where
  single : '\n' ∉ line
  filled : Text.allBlank line = false

/-- Lines, each with its end `'\n'`. -/
def endedLines (lines : List (List Char)) : List Char := lines.flatMap (· ++ ['\n'])

theorem endedLines_append (lines more : List (List Char)) :
    endedLines (lines ++ more) = endedLines lines ++ endedLines more := List.flatMap_append

/-- Lines joined by `intercalate` and ended are the `endedLines`, if there are any. -/
theorem intercalate_append_end {lines : List (List Char)} (h : lines ≠ []) :
    ['\n'].intercalate lines ++ ['\n'] = endedLines lines := by
  induction lines with
  | nil => exact absurd rfl h
  | cons line lines ih =>
    cases lines with
    | nil => simp [endedLines]
    | cons next lines =>
      rw [List.intercalate_cons_cons, List.append_assoc, ih (List.cons_ne_nil _ _)]
      simp [endedLines]

variable {line : List Char} {lines : List (List Char)}

theorem isLine_of_mem_filledLines {text : List Char} (h : line ∈ filledLines text) :
    IsLine line := by
  obtain ⟨hpart, hfilled⟩ := List.mem_filter.1 h
  exact ⟨Text.not_mem_of_mem_split hpart, by simpa using hfilled⟩

/-- Two texts with an end of a line between them have the `filledLines` of both. -/
theorem filledLines_append_end (text more : List Char) :
    filledLines (text ++ '\n' :: more) = filledLines text ++ filledLines more := by
  rw [filledLines, Text.split_append_mark, List.filter_append]
  rfl

theorem filledLines_of_isLine (h : IsLine line) : filledLines line = [line] := by
  rw [filledLines, Text.split_of_not_mem h.single]
  simp [h.filled]

/-- The `endedLines` are found again among the `filledLines`. -/
theorem filledLines_endedLines_append (h : ∀ line ∈ lines, IsLine line) (more : List Char) :
    filledLines (endedLines lines ++ more) = lines ++ filledLines more := by
  induction lines with
  | nil => rfl
  | cons line lines ih =>
    obtain ⟨hline, hlines⟩ := List.forall_mem_cons.1 h
    have hended : endedLines (line :: lines) ++ more
        = line ++ '\n' :: (endedLines lines ++ more) := by
      simp [endedLines]
    rw [hended, filledLines_append_end, filledLines_of_isLine hline, ih hlines]
    rfl

theorem filledLines_endedLines (h : ∀ line ∈ lines, IsLine line) :
    filledLines (endedLines lines) = lines := by
  have happend := filledLines_endedLines_append h []
  have hnil : filledLines [] = [] := rfl
  rwa [List.append_nil, hnil, List.append_nil] at happend

/-- Ended lines behind a text: the first of them joins up with the `rest` of the text that is not
ended. -/
theorem exists_filledLines_append (text : List Char) :
    ∃ whole rest, (∀ line ∈ whole, IsLine line) ∧ '\n' ∉ rest ∧
      filledLines text = whole ++ filledLines rest ∧
      ∀ {line}, IsLine line → filledLines (text ++ line) = whole ++ [rest ++ line] := by
  obtain ⟨parts, last, htext, happend⟩ := Text.exists_split_append '\n' text
  have hlast : '\n' ∉ last := by
    have hmem : last ∈ Text.split '\n' text := by
      rw [htext]
      exact List.mem_append_right _ List.mem_cons_self
    exact Text.not_mem_of_mem_split hmem
  refine ⟨parts.filter fun line => !Text.allBlank line, last, fun line hline => ?_, hlast, ?_,
    fun {line} hline => ?_⟩
  · have hmem : line ∈ filledLines text := by
      rw [filledLines, htext, List.filter_append]
      exact List.mem_append_left _ hline
    exact isLine_of_mem_filledLines hmem
  · rw [filledLines, filledLines, htext, List.filter_append, Text.split_of_not_mem hlast]
  · have hfilled : Text.allBlank (last ++ line) = false := by
      rw [Text.allBlank, List.all_append]
      exact Bool.and_eq_false_imp.2 fun _ => hline.filled
    rw [filledLines, happend (Text.split_of_not_mem hline.single), List.filter_append]
    simp [hfilled]

end EventLog

end Outpost

import Mathlib.Data.List.Basic
import Outpost.Text

/-!
# White space and trimming

The characters that trimming removes are a list of twenty-five, no digit among them. What has none
of them in it is what is left of it between blanks.

## Contents

* `Text.whiteSpace`, `Text.isBlank_iff`, `Text.isDigit_of_isBlank`.
* `Text.exists_trimChars`, `Text.trimChars_append`: what trimming leaves.
-/

namespace Outpost

namespace Text

/-- What `isBlank` finds to be white space: tab, line feed, vertical tab, form feed and carriage
return, the spaces of Unicode, the line and the paragraph separator, and the byte order mark. -/
def whiteSpace : List Char :=
  ['\t', '\n', '\x0b', '\x0c', '\r', ' ', '\u00a0', '\u1680', '\u2000', '\u2001', '\u2002',
    '\u2003', '\u2004', '\u2005', '\u2006', '\u2007', '\u2008', '\u2009', '\u200a', '\u2028',
    '\u2029', '\u202f', '\u205f', '\u3000', '\ufeff']

theorem isBlank_iff (c : Char) : isBlank c = true ↔ c ∈ whiteSpace := by
  have hcode (d : Char) : c = d ↔ c.toNat = d.toNat := Char.toNat_inj.symm
  simp only [whiteSpace, List.mem_cons, List.not_mem_nil, or_false, hcode, isBlank,
    Bool.or_eq_true, Bool.and_eq_true, decide_eq_true_eq, Char.reduceToNat]
  omega

theorem allBlank_iff (s : List Char) : allBlank s = true ↔ ∀ c ∈ s, c ∈ whiteSpace := by
  simp only [allBlank, List.all_eq_true, isBlank_iff]

/-- No white space is a digit. -/
theorem isDigit_of_isBlank {c : Char} (h : isBlank c = true) : c.isDigit = false := by
  have htable : whiteSpace.all (fun c => !c.isDigit) = true := by decide
  simpa using List.all_eq_true.1 htable c ((isBlank_iff c).1 h)

/-! ## Trimming -/

/-- What `trimChars` takes away is blank. -/
theorem exists_trimChars (s : List Char) :
    ∃ before after, s = before ++ trimChars s ++ after ∧ allBlank before = true ∧
      allBlank after = true := by
  refine ⟨s.takeWhile isBlank, ((s.dropWhile isBlank).reverse.takeWhile isBlank).reverse,
    ?_, ?_, ?_⟩
  · rw [trimChars, List.append_assoc, ← List.reverse_append, List.takeWhile_append_dropWhile,
      List.reverse_reverse, List.takeWhile_append_dropWhile]
  · exact List.all_takeWhile
  · rw [allBlank, List.all_reverse]
    exact List.all_takeWhile

/-- Blanks are dropped by `dropWhile isBlank` up to the first other character. -/
theorem dropWhile_append_of_allBlank {blanks more : List Char} (hblanks : allBlank blanks = true)
    (hmore : ∀ c ∈ more.head?, isBlank c = false) : (blanks ++ more).dropWhile isBlank = more := by
  rw [List.dropWhile_append_of_pos (List.all_eq_true.1 hblanks)]
  cases more with
  | nil => rfl
  | cons c more =>
    rw [List.dropWhile_cons, hmore c rfl]
    rfl

/-- What has no blanks in it is what `trimChars` leaves of it between blanks. -/
theorem trimChars_append {before middle after : List Char} (hbefore : allBlank before = true)
    (hmiddle : ∀ c ∈ middle, isBlank c = false) (hsome : middle ≠ [])
    (hafter : allBlank after = true) : trimChars (before ++ middle ++ after) = middle := by
  have hfirst : (before ++ (middle ++ after)).dropWhile isBlank = middle ++ after := by
    refine dropWhile_append_of_allBlank hbefore fun c hc => hmiddle c ?_
    rw [List.head?_append_of_ne_nil middle hsome] at hc
    exact List.mem_of_mem_head? hc
  have hlast : (after.reverse ++ middle.reverse).dropWhile isBlank = middle.reverse := by
    refine dropWhile_append_of_allBlank (by rwa [allBlank, List.all_reverse]) fun c hc => ?_
    exact hmiddle c (List.mem_reverse.1 (List.mem_of_mem_head? hc))
  rw [trimChars, List.append_assoc, hfirst, List.reverse_append, hlast, List.reverse_reverse]

end Text

end Outpost

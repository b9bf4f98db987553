import Outpost.Json.Printer

/-!
# Values on one line

Whatever a value is, its text has no line feed in it: strings escape theirs, and nothing else that
is written could be one. So a value is one line of a log.

## Contents

* `Number.not_mem_chars`: numbers.
* `Json.lineFeed_not_mem_renderChars`: values.
-/

namespace Outpost

/-! ## Numbers -/

namespace Number

/-- The digits of a number are digits. -/
theorem not_mem_toDigits {c : Char} (hc : c.isDigit = false) (n : Nat) : c ∉ Nat.toDigits 10 n := by
  intro hmem
  have hdigit := Nat.isDigit_of_mem_toDigits (b := 10) (by decide) (by decide) hmem
  rw [hc] at hdigit
  exact absurd hdigit Bool.false_ne_true

/-- Laying out digits by `layout` adds zeros, a point and an exponent. -/
theorem not_mem_layout {c : Char} (hc : c.isDigit = false) (hsigns : c ∉ ['.', 'e', '-', '+'])
    {digits : List Char} (hdigits : c ∉ digits) (point : Int) : c ∉ layout digits point := by
  have hzero : c ≠ '0' := by
    rintro rfl
    exact absurd hc (by decide)
  have hexponent (n : Nat) : c ∉ Nat.toDigits 10 n := not_mem_toDigits hc n
  simp only [List.mem_cons, List.not_mem_nil, or_false, not_or] at hsigns
  rw [layout]
  split
  · simp [hdigits, hzero]
  split
  · have htake : c ∉ digits.take point.toNat := fun h => hdigits (List.mem_of_mem_take h)
    have hdrop : c ∉ digits.drop point.toNat := fun h => hdigits (List.mem_of_mem_drop h)
    simp [htake, hdrop, hsigns]
  split
  · simp [hdigits, hzero, hsigns]
  · extract_lets exponent tail
    have htail : c ∉ tail := by
      simp only [tail]
      split <;> simp [hexponent, hsigns]
    split
    · exact htail
    · simp_all
    · simp_all

theorem not_mem_chars {c : Char} (hc : c.isDigit = false)
    (hsigns : c ∉ ['.', 'e', '-', '+', 'I', 'n', 'f', 'i', 't', 'y']) (x : Number) :
    c ∉ x.chars := by
  simp only [List.mem_cons, List.not_mem_nil, or_false, not_or] at hsigns
  have hmagnitude (value : Dyadic) : c ∉ magnitudeText value := by
    refine not_mem_layout hc ?_ (not_mem_toDigits hc _) _
    simp [hsigns]
  have hzero : c ≠ '0' := by
    rintro rfl
    exact absurd hc (by decide)
  cases x with
  | infinite negative =>
    cases negative <;> simp [chars, hsigns]
  | finite value =>
    rw [chars]
    split
    · simp [hzero]
    split
    · simp [hmagnitude, hsigns]
    · exact hmagnitude value

end Number

/-! ## Values -/

namespace Json

theorem hexDigit_ne_lineFeed {n : Nat} (h : n < 16) : hexDigit n ≠ '\n' := by
  have htable : ∀ n < 16, hexDigit n ≠ '\n' := by decide
  exact htable n h

theorem lineFeed_not_mem_escape (c : Char) : '\n' ∉ escape c := by
  rw [escape]
  split
  · decide
  split
  · decide
  split
  · decide
  split
  · decide
  split
  · decide
  split
  · decide
  split
  · decide
  rename_i hfeed hreturn htab
  split
  · have hhigh := hexDigit_ne_lineFeed (n := c.toNat / 16) (by omega)
    have hlow := hexDigit_ne_lineFeed (n := c.toNat % 16) (by omega)
    simp [hhigh.symm, hlow.symm]
  · simpa using Ne.symm hfeed

theorem lineFeed_not_mem_escapePiece (piece : Text.Piece) : '\n' ∉ escapePiece piece := by
  cases piece with
  | char c => exact lineFeed_not_mem_escape c
  | half unit =>
    have hbound : unit.toNat < 65536 := unit.toNat_lt
    have hdigit (n : Nat) (h : n < 16) : '\n' ≠ hexDigit n := (hexDigit_ne_lineFeed h).symm
    rw [escapePiece]
    simp [hdigit _ (show unit.toNat / 0x1000 < 16 by omega),
      hdigit _ (show unit.toNat / 0x100 % 16 < 16 by omega),
      hdigit _ (show unit.toNat / 0x10 % 16 < 16 by omega),
      hdigit _ (show unit.toNat % 16 < 16 by omega)]

theorem lineFeed_not_mem_quoted (s : List Char) : '\n' ∉ quoted s := by
  have hbody : '\n' ∉ s.flatMap escape := fun h => by
    obtain ⟨c, -, hc⟩ := List.mem_flatMap.1 h
    exact lineFeed_not_mem_escape c hc
  simp [quoted, hbody]

mutual

/-- **A value is written by `renderChars` on one line.** -/
theorem lineFeed_not_mem_renderChars : ∀ value : Json, '\n' ∉ renderChars value
  | .null => by decide
  | .bool true => by decide
  | .bool false => by decide
  | .number (.infinite _) => by simp [renderChars]
  | .number (.finite x) => by
    rw [renderChars]
    · exact Number.not_mem_chars (by decide) (by decide) _
    · exact nofun
  | .string s => lineFeed_not_mem_quoted s.toList
  | .loose text => by
    have hbody : '\n' ∉ text.flatMap escapePiece := fun h => by
      obtain ⟨piece, -, hpiece⟩ := List.mem_flatMap.1 h
      exact lineFeed_not_mem_escapePiece piece hpiece
    simp [renderChars, hbody]
  | .array items => by
    have hitems := lineFeed_not_mem_renderItems items
    simp [renderChars, hitems]
  | .object fields => by
    have hfields := lineFeed_not_mem_renderFields fields
    simp [renderChars, hfields]

theorem lineFeed_not_mem_renderItems : ∀ items : List Json, '\n' ∉ renderItems items
  | [] => by decide
  | [item] => by
    have hitem := lineFeed_not_mem_renderChars item
    simp [renderItems, hitem]
  | item :: next :: rest => by
    have hitem := lineFeed_not_mem_renderChars item
    have hrest := lineFeed_not_mem_renderItems (next :: rest)
    simp [renderItems, hitem, hrest]

theorem lineFeed_not_mem_renderFields : ∀ fields : List (String × Json),
    '\n' ∉ renderFields fields
  | [] => by decide
  | [(key, value)] => by
    have hkey := lineFeed_not_mem_quoted key.toList
    have hvalue := lineFeed_not_mem_renderChars value
    simp [renderFields, hkey, hvalue]
  | (key, value) :: next :: rest => by
    have hkey := lineFeed_not_mem_quoted key.toList
    have hvalue := lineFeed_not_mem_renderChars value
    have hrest := lineFeed_not_mem_renderFields (next :: rest)
    simp [renderFields, hkey, hvalue, hrest]

end

end Json

end Outpost

import Outpost.Json.Parser
import Outpost.Json.Printer

/-!
# Strings that read back

A string is read as what was written, whatever is in it. One thing has to be looked at: a half of a
pair is written as an escape, and reading joins the escapes of a high half and of a low half that
follows it. In a text of UTF-16 units such halves are one character (`Text.Loose.Sound`), so they do
not come one after the other.

## Contents

* `Text.Loose.Sound`: the loose texts that sequences of UTF-16 units are.
* `hexFour?_hexDigits`, `stringBody_escape`, `stringBody_high`: pieces of a string.
* `stringBody_flatMap_escapePiece`, `stringBody_flatMap_escape`.
-/

namespace Outpost

/-- The `Text.Loose` values that sequences of UTF-16 units are: a half is the first or the second
one of a pair, and two that make a pair are one character. -/
def Text.Loose.Sound : Text.Loose → Prop
  | [] => True
  | .char _ :: rest => Sound rest
  | .half unit :: rest =>
    (Json.isHighHalf unit.toNat = true ∨ Json.isLowHalf unit.toNat = true) ∧
    (Json.isHighHalf unit.toNat = true →
      ∀ other, .half other ∈ rest.head? → Json.isLowHalf other.toNat = false) ∧
    Sound rest

theorem Text.Loose.sound_ofString (text : String) : (Text.Loose.ofString text).Sound := by
  have hchars (chars : List Char) : Text.Loose.Sound (chars.map Text.Piece.char) := by
    induction chars with
    | nil => trivial
    | cons c chars ih => exact ih
  exact hchars text.toList

namespace Json

/-! ## Escapes -/

theorem hexValue?_hexDigit {n : Nat} (h : n < 16) : hexValue? (hexDigit n) = some n := by
  have htable : ∀ n < 16, hexValue? (hexDigit n) = some n := by decide
  exact htable n h

/-- Four digits are read by `hexFour?` as the number that they were made of. -/
theorem hexFour?_hexDigits {n : Nat} (h : n < 0x10000) :
    hexFour? (hexDigit (n / 0x1000)) (hexDigit (n / 0x100 % 16)) (hexDigit (n / 0x10 % 16))
      (hexDigit (n % 16)) = some n := by
  have hvalue : (((n / 0x1000) * 16 + n / 0x100 % 16) * 16 + n / 0x10 % 16) * 16 + n % 16 = n := by
    omega
  rw [hexFour?, hexValue?_hexDigit (by omega), hexValue?_hexDigit (by omega),
    hexValue?_hexDigit (by omega), hexValue?_hexDigit (by omega)]
  exact congrArg some hvalue

/-- A control character is written with two digits behind two zeros. -/
theorem hexFour?_control {n : Nat} (h : n < 0x20) :
    hexFour? '0' '0' (hexDigit (n / 16)) (hexDigit (n % 16)) = some n := by
  have hfirst : n / 0x1000 = 0 := by omega
  have hsecond : n / 0x100 % 16 = 0 := by omega
  have hthird : n / 0x10 % 16 = n / 16 := by omega
  have hdigits := hexFour?_hexDigits (n := n) (by omega)
  rwa [hfirst, hsecond, hthird] at hdigits

theorem isLowHalf_of_control {n : Nat} (h : n < 0x20) : isLowHalf n = false := by
  simp [isLowHalf]
  omega

theorem isHighHalf_of_control {n : Nat} (h : n < 0x20) : isHighHalf n = false := by
  simp [isHighHalf]
  omega

section Pieces

variable (tail : List Char)

theorem stringBody_quote : stringBody ('"' :: tail) = some ([], tail) := by
  rw [stringBody]

theorem stringBody_plain {c : Char} (hquote : c ≠ '"') (hslash : c ≠ '\\')
    (hprinted : ¬ c.toNat < 0x20) :
    stringBody (c :: tail) = prepend (.char c) (stringBody tail) := by
  rw [stringBody]
  · simp [hprinted, hslash]
  all_goals simp_all

/-- An escape of one letter, which `unescape?` knows. -/
theorem stringBody_letter {letter plain : Char} (hletter : letter ≠ 'u')
    (h : unescape? letter = some plain) :
    stringBody ('\\' :: letter :: tail) = prepend (.char plain) (stringBody tail) := by
  rw [stringBody]
  · simp only [h]
  · intro a b c d rest heq
    exact absurd heq hletter

variable {a b c d : Char} {n : Nat}

/-- The escape of a character is read by `stringBody`. -/
theorem stringBody_unicode (h : hexFour? a b c d = some n) (hhigh : isHighHalf n = false)
    (hlow : isLowHalf n = false) :
    stringBody ('\\' :: 'u' :: a :: b :: c :: d :: tail)
      = prepend (.char (Char.ofNat n)) (stringBody tail) := by
  rw [stringBody]
  simp [h, hhigh, hlow]

/-- `stringBody` reads the escape of the second half of a pair. -/
theorem stringBody_low (h : hexFour? a b c d = some n) (hhigh : isHighHalf n = false)
    (hlow : isLowHalf n = true) :
    stringBody ('\\' :: 'u' :: a :: b :: c :: d :: tail)
      = prepend (.half n.toUInt16) (stringBody tail) := by
  rw [stringBody]
  simp [h, hhigh, hlow]

/-- What does not begin with the escape of the second half of a pair: where an escape with digits
comes first, it is that of something else. -/
def NoLowHalf (s : List Char) : Prop :=
  ∀ {e f g h more}, s = '\\' :: 'u' :: e :: f :: g :: h :: more →
    ∃ m, hexFour? e f g h = some m ∧ isLowHalf m = false

/-- The escape of the first half of a pair that the second one does not follow is read as a
`half`. -/
theorem stringBody_high (h : hexFour? a b c d = some n) (hhigh : isHighHalf n = true)
    (htail : NoLowHalf tail) :
    stringBody ('\\' :: 'u' :: a :: b :: c :: d :: tail)
      = prepend (.half n.toUInt16) (stringBody tail) := by
  rw [stringBody]
  simp only [h, hhigh, if_true]
  split
  · rename_i e f g i more
    obtain ⟨m, hm, hlow⟩ := htail rfl
    simp [hm, hlow]
  · rfl

/-! ## Pieces -/

/-- A character is read by `stringBody` as what `escape` wrote for it. -/
theorem stringBody_escape (c : Char) :
    stringBody (escape c ++ tail) = prepend (.char c) (stringBody tail) := by
  rw [escape]
  split
  · rename_i h
    rw [h]
    exact stringBody_letter tail (by decide) rfl
  split
  · rename_i h
    rw [h]
    exact stringBody_letter tail (by decide) rfl
  split
  · rename_i h
    rw [h]
    exact stringBody_letter tail (by decide) rfl
  split
  · rename_i h
    rw [h]
    exact stringBody_letter tail (by decide) rfl
  split
  · rename_i h
    rw [h]
    exact stringBody_letter tail (by decide) rfl
  split
  · rename_i h
    rw [h]
    exact stringBody_letter tail (by decide) rfl
  split
  · rename_i h
    rw [h]
    exact stringBody_letter tail (by decide) rfl
  split
  · rename_i hcontrol
    have hread := stringBody_unicode tail (hexFour?_control hcontrol)
      (isHighHalf_of_control hcontrol) (isLowHalf_of_control hcontrol)
    rw [Char.ofNat_toNat] at hread
    exact hread
  · rename_i hquote hslash _ _ _ _ _ hprinted
    exact stringBody_plain tail hquote hslash hprinted

/-- A `half` is read as what was written for it, if no half follows that makes a pair with it. -/
theorem stringBody_half {unit : UInt16}
    (hunit : isHighHalf unit.toNat = true ∨ isLowHalf unit.toNat = true)
    (htail : isHighHalf unit.toNat = true → NoLowHalf tail) :
    stringBody (escapePiece (.half unit) ++ tail) = prepend (.half unit) (stringBody tail) := by
  have hdigits := hexFour?_hexDigits (n := unit.toNat) unit.toNat_lt
  have hback : unit.toNat.toUInt16 = unit := UInt16.ofNat_toNat
  cases hhigh : isHighHalf unit.toNat with
  | true =>
    have hread := stringBody_high tail hdigits hhigh (htail hhigh)
    rw [hback] at hread
    exact hread
  | false =>
    rw [hhigh] at hunit
    have hread := stringBody_low tail hdigits hhigh (hunit.resolve_left Bool.false_ne_true)
    rw [hback] at hread
    exact hread

/-- What `escape` writes for a character is not the second half of a pair. -/
theorem noLowHalf_escape (c : Char) : NoLowHalf (escape c ++ tail) := by
  intro e f g i more heq
  rw [escape] at heq
  split at heq
  · simp at heq
  split at heq
  · simp at heq
  split at heq
  · simp at heq
  split at heq
  · simp at heq
  split at heq
  · simp at heq
  split at heq
  · simp at heq
  split at heq
  · simp at heq
  split at heq
  · rename_i hcontrol
    simp only [List.cons_append, List.cons.injEq] at heq
    obtain ⟨-, -, rfl, rfl, rfl, rfl, -⟩ := heq
    exact ⟨c.toNat, hexFour?_control hcontrol, isLowHalf_of_control hcontrol⟩
  · rename_i hslash _ _ _ _ _ _
    exact absurd (List.cons.inj heq).1 hslash

end Pieces

/-! ## Strings -/

/-- What `escapePiece` writes for the rest of a string does not begin with the second half of a pair
unless the rest does. -/
theorem noLowHalf_flatMap {text : Text.Loose}
    (h : ∀ other, .half other ∈ text.head? → isLowHalf other.toNat = false) (rest : List Char) :
    NoLowHalf (text.flatMap escapePiece ++ '"' :: rest) := by
  cases text with
  | nil => exact nofun
  | cons piece text =>
    rw [List.flatMap_cons, List.append_assoc]
    cases piece with
    | char c => exact noLowHalf_escape _ c
    | half unit =>
      intro e f g i more heq
      have hdigits := hexFour?_hexDigits (n := unit.toNat) unit.toNat_lt
      simp only [escapePiece, List.cons_append, List.cons.injEq] at heq
      obtain ⟨-, -, rfl, rfl, rfl, rfl, -⟩ := heq
      exact ⟨unit.toNat, hdigits, h unit rfl⟩

/-- **A string is read by `stringBody` as what `escapePiece` wrote of it.** -/
theorem stringBody_flatMap_escapePiece {text : Text.Loose} (h : text.Sound) (rest : List Char) :
    stringBody (text.flatMap escapePiece ++ '"' :: rest) = some (text, rest) := by
  induction text with
  | nil => exact stringBody_quote rest
  | cons piece text ih =>
    rw [List.flatMap_cons, List.append_assoc]
    cases piece with
    | char c => rw [escapePiece, stringBody_escape, ih h, prepend]
    | half unit =>
      obtain ⟨hunit, hnext, hrest⟩ := h
      rw [stringBody_half _ hunit fun hhigh => noLowHalf_flatMap (hnext hhigh) rest, ih hrest,
        prepend]

theorem stringBody_flatMap_escape (text : String) (rest : List Char) :
    stringBody (text.toList.flatMap escape ++ '"' :: rest)
      = some (Text.Loose.ofString text, rest) := by
  have hpieces : text.toList.flatMap escape = (Text.Loose.ofString text).flatMap escapePiece := by
    rw [Text.Loose.ofString, List.flatMap_map]
    rfl
  rw [hpieces, stringBody_flatMap_escapePiece (Text.Loose.sound_ofString text)]

end Json

end Outpost

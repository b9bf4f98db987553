import Mathlib.Data.List.Infix
import Mathlib.Data.List.TakeWhile
import Outpost.Proofs.Json.RoundTrip

/-!
# An object behind other text

A text that ends with an object is read as that object if there are only blanks in front of it, and
otherwise it is no JSON at all: whatever is read of the text in front, what follows is the object
with its brace, or its first key without the quote that opens it, and neither can go on or end what
was begun.

## Contents

* `value_of_le`: the bound on the depth makes no difference where it suffices.
* `Takes`, `takes_numeral`: reading over text without an opening brace.
* `IsObject`, `isObject_renderChars`: texts of objects.
* `Meets`, `meets_stringBody`, `meets_of_read`: where a reader is once it has read something in
  front of an object.
* `parseChars?_append_of_blank`, `parseChars?_append_eq_none`.
-/

namespace Outpost

namespace Json

/-! ## The bound on the depth -/

section Bound

variable {n : Nat}

/-- A `value` is read with a greater bound if what it consists of is. -/
theorem value_succ_of_some
    (hitems : ∀ s found, arrayBody n s = some found → arrayBody (n + 1) s = some found)
    (hfields : ∀ s found, objectBody n s = some found → objectBody (n + 1) s = some found)
    {s : List Char} {found : Json × List Char} (h : value (n + 1) s = some found) :
    value (n + 2) s = some found := by
  rw [value] at h ⊢
  generalize skipSpace s = t at h ⊢
  split at h
  case h_5 rest =>
    dsimp only
    split at h
    · exact h
    · obtain ⟨items, hread, rfl⟩ := Option.map_eq_some_iff.1 h
      rw [hitems _ _ hread]
      rfl
  case h_6 rest =>
    dsimp only
    split at h
    · exact h
    · obtain ⟨fields, hread, rfl⟩ := Option.map_eq_some_iff.1 h
      rw [hfields _ _ hread]
      rfl
  all_goals exact h

theorem arrayBody_succ_of_some
    (hvalue : ∀ s found, value n s = some found → value (n + 1) s = some found)
    (hmore : ∀ s found, arrayBody n s = some found → arrayBody (n + 1) s = some found)
    {s : List Char} {found : List Json × List Char} (h : arrayBody (n + 1) s = some found) :
    arrayBody (n + 2) s = some found := by
  rw [arrayBody] at h ⊢
  cases hfirst : value n s with
  | none =>
    rw [hfirst] at h
    cases h
  | some first =>
    rw [hfirst] at h
    rw [hvalue _ _ hfirst]
    dsimp only at h ⊢
    split at h
    · exact h
    · obtain ⟨items, hread, rfl⟩ := Option.map_eq_some_iff.1 h
      rw [hmore _ _ hread]
      rfl
    · cases h

theorem objectBody_succ_of_some
    (hvalue : ∀ s found, value n s = some found → value (n + 1) s = some found)
    (hmore : ∀ s found, objectBody n s = some found → objectBody (n + 1) s = some found)
    {s : List Char} {found : List (String × Json) × List Char}
    (h : objectBody (n + 1) s = some found) : objectBody (n + 2) s = some found := by
  rw [objectBody] at h ⊢
  generalize skipSpace s = t at h ⊢
  split at h
  · dsimp only
    split at h
    · cases h
    · rename_i key rest hkey
      dsimp only at h ⊢
      generalize skipSpace rest = u at h ⊢
      split at h
      · rename_i more
        cases hfirst : value n more with
        | none =>
          rw [hfirst] at h
          cases h
        | some first =>
          rw [hfirst] at h
          rw [hvalue _ _ hfirst]
          dsimp only at h ⊢
          split at h
          · exact h
          · obtain ⟨fields, hread, rfl⟩ := Option.map_eq_some_iff.1 h
            rw [hmore _ _ hread]
            rfl
          · cases h
      · cases h
  · cases h

/-- What is read is read with a greater bound, too. -/
theorem succ_of_some (n : Nat) :
    (∀ s found, value n s = some found → value (n + 1) s = some found) ∧
    (∀ s found, arrayBody n s = some found → arrayBody (n + 1) s = some found) ∧
    (∀ s found, objectBody n s = some found → objectBody (n + 1) s = some found) := by
  induction n with
  | zero =>
    refine ⟨fun s found h => absurd h ?_, fun s found h => absurd h ?_,
      fun s found h => absurd h ?_⟩
    · simp [value]
    · simp [arrayBody]
    · simp [objectBody]
  | succ n ih =>
    obtain ⟨hvalue, hitems, hfields⟩ := ih
    exact ⟨fun _ _ => value_succ_of_some hitems hfields,
      fun _ _ => arrayBody_succ_of_some hvalue hitems,
      fun _ _ => objectBody_succ_of_some hvalue hfields⟩

end Bound

theorem value_of_le {n m : Nat} (hle : n ≤ m) {s : List Char} {found : Json × List Char}
    (h : value n s = some found) : value m s = some found := by
  induction hle with
  | refl => exact h
  | step _ ih => exact (succ_of_some _).1 s found ih

/-- Blanks that `skipSpace` drops in front of a value count for nothing. -/
theorem value_congr {n : Nat} {s t : List Char} (h : skipSpace s = skipSpace t) :
    value n s = value n t := by
  cases n with
  | zero => rw [value, value]
  | succ n => rw [value, value, h]

/-! ## Text without an opening brace -/

/-- `Takes s rest`: a reader gets from a text to the rest of it over characters that are no opening
brace. -/
inductive Takes : List Char → List Char → Prop
  | refl (s : List Char) : Takes s s
  | cons {c : Char} {s rest : List Char} (hc : c ≠ '\x7b') (h : Takes s rest) : Takes (c :: s) rest

namespace Takes

variable {s t rest : List Char}

theorem trans (h : Takes s t) (hrest : Takes t rest) : Takes s rest := by
  induction h with
  | refl s => exact hrest
  | cons hc _ ih => exact .cons hc (ih hrest)

theorem append {word : List Char} (hword : ∀ c ∈ word, c ≠ '\x7b') (rest : List Char) :
    Takes (word ++ rest) rest := by
  induction word with
  | nil => exact .refl rest
  | cons c word ih =>
    obtain ⟨hc, hmore⟩ := List.forall_mem_cons.1 hword
    exact .cons hc (ih hmore)

/-- A text that begins with an opening brace is still ahead of what `Takes` leaves. -/
theorem suffix (h : Takes s rest) {tail : List Char} (hs : '\x7b' :: tail <:+ s) :
    '\x7b' :: tail <:+ rest := by
  induction h with
  | refl s => exact hs
  | cons hc _ ih =>
    rcases List.suffix_cons_iff.1 hs with heq | hrest
    · exact absurd (List.cons.inj heq).1.symm hc
    · exact ih hrest

end Takes

theorem takes_dropWhile {p : Char → Bool} (hp : p '\x7b' = false) (s : List Char) :
    Takes s (s.dropWhile p) := by
  have hword : ∀ c ∈ s.takeWhile p, c ≠ '\x7b' := by
    rintro c hc rfl
    rw [List.mem_takeWhile_imp hc] at hp
    exact Bool.noConfusion hp
  have happend := Takes.append hword (s.dropWhile p)
  rwa [List.takeWhile_append_dropWhile] at happend

theorem takes_skipSpace (s : List Char) : Takes s (skipSpace s) :=
  takes_dropWhile rfl s

section Numerals

variable {s rest : List Char}

theorem takes_span {digits : List Char} (h : s.span Char.isDigit = (digits, rest)) :
    Takes s rest := by
  rw [List.span_eq_takeWhile_dropWhile] at h
  obtain rfl := (Prod.mk.inj h).2
  exact takes_dropWhile rfl s

theorem takes_fractionPart {digits : List Char} (h : fractionPart s = some (digits, rest)) :
    Takes s rest := by
  rw [fractionPart.eq_def] at h
  split at h
  · rename_i more
    split at h
    · cases h
    · exact .cons (by decide) (takes_span (Option.some.inj h))
  · obtain rfl := (Prod.mk.inj (Option.some.inj h)).2
    exact .refl s

theorem takes_exponentPart {exponent : Int} (h : exponentPart s = some (exponent, rest)) :
    Takes s rest := by
  -- behind the letter come a sign, if any, and digits
  rw [exponentPart.eq_def] at h
  split at h
  case h_3 =>
    obtain rfl := (Prod.mk.inj (Option.some.inj h)).2
    exact .refl s
  all_goals
    refine .cons (by decide) ?_
    split at h
    rename_i sign negative digits hsign
    refine Takes.trans (t := digits) ?_ ?_
    · split at hsign
      · obtain rfl := (Prod.mk.inj hsign).2
        exact .cons (by decide) (.refl _)
      · obtain rfl := (Prod.mk.inj hsign).2
        exact .cons (by decide) (.refl _)
      · obtain rfl := (Prod.mk.inj hsign).2
        exact .refl _
    · split at h
      · cases h
      · rename_i hspan
        obtain rfl := (Prod.mk.inj (Option.some.inj h)).2
        exact takes_span hspan

theorem takes_magnitude {negative : Bool} {found : Json}
    (h : magnitude negative s = some (found, rest)) : Takes s rest := by
  rw [magnitude] at h
  obtain ⟨⟨whole, tail⟩, hwhole⟩ : ∃ split, s.span Char.isDigit = split := ⟨_, rfl⟩
  rw [hwhole] at h
  dsimp only at h
  split at h
  · cases h
  · obtain ⟨⟨fraction, after⟩, hfraction, h⟩ := Option.bind_eq_some_iff.1 h
    obtain ⟨⟨exponent, last⟩, hexponent, h⟩ := Option.bind_eq_some_iff.1 h
    obtain rfl := (Prod.mk.inj (Option.some.inj h)).2
    exact (takes_span hwhole).trans
      ((takes_fractionPart hfraction).trans (takes_exponentPart hexponent))

theorem takes_numeral {found : Json} (h : numeral s = some (found, rest)) : Takes s rest := by
  rw [numeral.eq_def] at h
  split at h
  · exact .cons (by decide) (takes_magnitude h)
  · exact takes_magnitude h

end Numerals

/-! ## Objects at the end of a text -/

/-- What may stand between the tokens of an array or an object, but for quotes and braces that
open. -/
def isMark (c : Char) : Bool := isSpace c || c = ',' || c = ':' || c = ']' || c = '\x7d'

theorem isSpace_of_isMark {c : Char} (h : isMark c = false) : isSpace c = false := by
  simp only [isMark, Bool.or_eq_false_iff] at h
  exact h.1.1.1.1

/-- A text that is an object with a field whose key does not begin with a mark. -/
structure IsObject (object : List Char) : Prop where
  begins : ∃ c more, object = '\x7b' :: '"' :: c :: more ∧ isMark c = false
  whole : ∀ {fuel found rest}, value fuel object = some (found, rest) → rest = []

/-- What a `Writable` value is written as is read to its end. -/
theorem rest_of_value_renderChars {j : Json} (h : Writable j) {fuel : Nat} {found : Json}
    {rest : List Char} (hread : value fuel (renderChars j) = some (found, rest)) : rest = [] := by
  have hends : EndsNumeral [] := fun _ hc => absurd hc (by simp)
  have hall : value (2 * (renderChars j).length) (renderChars j ++ []) = some (j, []) :=
    value_renderChars h (Nat.le_refl _) hends
  rw [List.append_nil] at hall
  have hone := value_of_le (Nat.le_add_right fuel (2 * (renderChars j).length)) hread
  rw [value_of_le (Nat.le_add_left _ fuel) hall] at hone
  exact ((Prod.mk.inj (Option.some.inj hone)).2).symm

/-- What an object is written as by `renderChars`, if its first key is written without a mark at its
beginning. -/
theorem isObject_renderChars {key : String} {first : Json} {fields : List (String × Json)}
    (h : Writable (.object ((key, first) :: fields))) {c : Char} {more : List Char}
    (hkey : key.toList.flatMap escape = c :: more) (hmark : isMark c = false) :
    IsObject (renderChars (.object ((key, first) :: fields))) where
  begins := by
    rw [renderChars]
    cases fields with
    | nil =>
      rw [renderFields, quoted_append, hkey]
      exact ⟨c, _, rfl, hmark⟩
    | cons field fields =>
      rw [renderFields, quoted_append, hkey]
      · exact ⟨c, _, rfl, hmark⟩
      · simp
  whole := rest_of_value_renderChars h

/-- Where, of the text of an `object`, a reader may be that began in front of it and did not take
it: still `ahead`, or behind the quote that opens its first key. -/
inductive Meets (object : List Char) : List Char → Prop
  | ahead {rest : List Char} (h : object <:+ rest) : Meets object rest
  | inside : Meets object (object.drop 2)

section Meeting

variable {object s rest : List Char}

namespace IsObject

theorem suffix_of_takes (hobject : IsObject object) (h : Takes s rest) (hs : object <:+ s) :
    object <:+ rest := by
  obtain ⟨c, more, rfl, -⟩ := hobject.begins
  exact h.suffix hs

/-- A reader that comes upon a mark has the object still in front of it: it is not `inside`. -/
theorem suffix_of_mark (hobject : IsObject object) (h : Meets object rest) {c : Char}
    {more : List Char} (hmark : isMark c = true) (hspace : skipSpace rest = c :: more) :
    object <:+ more := by
  obtain ⟨first, tail, hcons, hfirst⟩ := hobject.begins
  cases h with
  | ahead hrest =>
    have hmore : Takes rest more := by
      refine (takes_skipSpace rest).trans ?_
      rw [hspace]
      refine .cons ?_ (.refl more)
      rintro rfl
      exact absurd hmark (by decide)
    exact hobject.suffix_of_takes hmore hrest
  | inside =>
    rw [hcons, List.drop_succ_cons, List.drop_succ_cons, List.drop_zero,
      skipSpace_cons (isSpace_of_isMark hfirst)] at hspace
    obtain rfl := (List.cons.inj hspace).1
    rw [hfirst] at hmark
    exact absurd hmark nofun

end IsObject

/-! ## Strings in front of an object -/

/-- A reader `Takes` the escape of a character or of a half of a pair. -/
theorem takes_unicode {a b c d : Char} {n : Nat} (h : hexFour? a b c d = some n)
    (tail : List Char) : Takes ('\\' :: 'u' :: a :: b :: c :: d :: tail) tail := by
  have hbrace : hexValue? '\x7b' = none := by decide
  have hdigit {digit : Char} {value : Nat} (h : hexValue? digit = some value) :
      digit ≠ '\x7b' := by
    rintro rfl
    exact absurd (hbrace.symm.trans h) nofun
  simp only [hexFour?, Option.bind_eq_bind, Option.bind_eq_some_iff] at h
  obtain ⟨_, ha, _, hb, _, hc, _, hd, -⟩ := h
  exact .cons (by decide) (.cons (by decide) (.cons (hdigit ha) (.cons (hdigit hb)
    (.cons (hdigit hc) (.cons (hdigit hd) (.refl tail))))))

theorem stringBody_of_prepend {piece : Text.Piece} {found : Option (Text.Loose × List Char)}
    {body : Text.Loose} (h : prepend piece found = some (body, rest)) :
    ∃ more, found = some (more, rest) := by
  rw [prepend.eq_def] at h
  split at h
  · exact ⟨_, congrArg some (Prod.ext rfl (Prod.mk.inj (Option.some.inj h)).2)⟩
  · cases h

/-- A `stringBody` that begins in front of an object ends in front of it or with the quote that
opens its first key. -/
theorem meets_stringBody (hobject : IsObject object) {body : Text.Loose}
    (hs : object <:+ s) (h : stringBody s = some (body, rest)) : Meets object rest := by
  fun_induction stringBody s generalizing body with
  | case1 | case3 | case4 | case10 | case12 => cases h
  | case2 tail =>
    obtain rfl := (Prod.mk.inj (Option.some.inj h)).2
    exact .ahead (hobject.suffix_of_takes (.cons (by decide) (.refl _)) hs)
  | case5 a b c d n hfirst hhigh e f g i tail m hsecond hlow ih =>
    obtain ⟨more, hmore⟩ := stringBody_of_prepend h
    exact ih (hobject.suffix_of_takes
      ((takes_unicode hfirst _).trans (takes_unicode hsecond tail)) hs) hmore
  | case6 a b c d n hfirst hhigh e f g i tail m hsecond hlow ih =>
    obtain ⟨more, hmore⟩ := stringBody_of_prepend h
    exact ih (hobject.suffix_of_takes (takes_unicode hfirst _) hs) hmore
  | case7 a b c d n hfirst hhigh tail hother ih =>
    obtain ⟨more, hmore⟩ := stringBody_of_prepend h
    exact ih (hobject.suffix_of_takes (takes_unicode hfirst _) hs) hmore
  | case8 a b c d tail n hfirst hhigh hlow ih =>
    obtain ⟨more, hmore⟩ := stringBody_of_prepend h
    exact ih (hobject.suffix_of_takes (takes_unicode hfirst _) hs) hmore
  | case9 a b c d tail n hfirst hhigh hlow ih =>
    obtain ⟨more, hmore⟩ := stringBody_of_prepend h
    exact ih (hobject.suffix_of_takes (takes_unicode hfirst _) hs) hmore
  | case11 c tail hother plain hplain ih =>
    obtain ⟨more, hmore⟩ := stringBody_of_prepend h
    have hc : c ≠ '\x7b' := by
      have hbrace : unescape? '\x7b' = none := by decide
      rintro rfl
      exact absurd (hbrace.symm.trans hplain) nofun
    exact ih (hobject.suffix_of_takes (.cons (by decide) (.cons hc (.refl tail))) hs) hmore
  | case13 c tail hquote hunicode hslash hprinted ih =>
    obtain ⟨more, hmore⟩ := stringBody_of_prepend h
    rcases List.suffix_cons_iff.1 hs with heq | hs
    · -- the brace is a character of the string, and the quote behind it ends the string
      obtain ⟨first, key, hcons, -⟩ := hobject.begins
      rw [hcons] at heq
      obtain rfl := (List.cons.inj heq).2
      rw [stringBody_quote] at hmore
      obtain rfl := (Prod.mk.inj (Option.some.inj hmore)).2
      have hrest : object.drop 2 = first :: key := by rw [hcons]; rfl
      exact hrest ▸ .inside
    · exact ih hs hmore

/-! ## Values in front of an object -/

/-- Behind a value that begins in front of an object, any mark is in front of the object. -/
def PassesMarks (object : List Char) (fuel : Nat) : Prop :=
  ∀ {s found rest c more}, object <:+ s → value fuel s = some (found, rest) → isMark c = true →
    skipSpace rest = c :: more → object <:+ more

variable {fuel : Nat}

/-- An array that begins in front of an object ends there: `arrayBody` leaves the object. -/
theorem suffix_arrayBody (hpasses : PassesMarks object fuel)
    (hmore : ∀ {s found rest}, object <:+ s → arrayBody fuel s = some (found, rest) →
      object <:+ rest)
    {found : List Json} (hs : object <:+ s) (h : arrayBody (fuel + 1) s = some (found, rest)) :
    object <:+ rest := by
  rw [arrayBody] at h
  split at h
  · cases h
  · rename_i first tail hfirst
    split at h
    · rename_i hspace
      obtain rfl := (Prod.mk.inj (Option.some.inj h)).2
      exact hpasses hs hfirst rfl hspace
    · rename_i hspace
      obtain ⟨⟨items, last⟩, hitems, h⟩ := Option.map_eq_some_iff.1 h
      obtain rfl := (Prod.mk.inj h).2
      exact hmore (hpasses hs hfirst rfl hspace) hitems
    · cases h

/-- An object that begins in front of another one ends there: `objectBody` leaves the other one. -/
theorem suffix_objectBody (hobject : IsObject object) (hpasses : PassesMarks object fuel)
    (hmore : ∀ {s found rest}, object <:+ s → objectBody fuel s = some (found, rest) →
      object <:+ rest)
    {found : List (String × Json)} (hs : object <:+ s)
    (h : objectBody (fuel + 1) s = some (found, rest)) : object <:+ rest := by
  have hahead := hobject.suffix_of_takes (takes_skipSpace s) hs
  rw [objectBody] at h
  split at h
  · rename_i name hquote
    rw [hquote] at hahead
    have hname := hobject.suffix_of_takes (.cons (by decide) (.refl name)) hahead
    split at h
    · cases h
    · rename_i key tail hkey
      split at h
      · rename_i hcolon
        have hfield := hobject.suffix_of_mark (meets_stringBody hobject hname hkey) rfl hcolon
        split at h
        · cases h
        · rename_i first tail hfirst
          dsimp only at h
          split at h
          · rename_i hspace
            obtain rfl := (Prod.mk.inj (Option.some.inj h)).2
            exact hpasses hfield hfirst rfl hspace
          · rename_i hspace
            obtain ⟨⟨fields, last⟩, hfields, h⟩ := Option.map_eq_some_iff.1 h
            obtain rfl := (Prod.mk.inj h).2
            exact hmore (hpasses hfield hfirst rfl hspace) hfields
          · cases h
      · cases h
  · cases h

/-- A `value` that begins in front of an object is that object, read to its end, or ends in front of
it or with the quote that opens its first key. -/
theorem meets_value_succ (hobject : IsObject object)
    (hitems : ∀ {s found rest}, object <:+ s → arrayBody fuel s = some (found, rest) →
      object <:+ rest)
    (hfields : ∀ {s found rest}, object <:+ s → objectBody fuel s = some (found, rest) →
      object <:+ rest)
    {found : Json} (hs : object <:+ s) (h : value (fuel + 1) s = some (found, rest)) :
    skipSpace s = object ∧ rest = [] ∨ Meets object rest := by
  have hread := h
  have hahead := hobject.suffix_of_takes (takes_skipSpace s) hs
  have hliteral {word tail : List Char} {literal : Json} (hword : ∀ c ∈ word, c ≠ '\x7b')
      (hspace : skipSpace s = word ++ tail) (h : some (literal, tail) = some (found, rest)) :
      Meets object rest := by
    obtain rfl := (Prod.mk.inj (Option.some.inj h)).2
    rw [hspace] at hahead
    exact .ahead (hobject.suffix_of_takes (.append hword tail) hahead)
  rw [value] at h
  split at h
  case h_1 tail hspace => exact .inr (@hliteral ['n', 'u', 'l', 'l'] tail _ (by simp) hspace h)
  case h_2 tail hspace => exact .inr (@hliteral ['t', 'r', 'u', 'e'] tail _ (by simp) hspace h)
  case h_3 tail hspace => exact .inr (@hliteral ['f', 'a', 'l', 's', 'e'] tail _ (by simp) hspace h)
  case h_4 tail hspace =>
    obtain ⟨⟨body, last⟩, hbody, h⟩ := Option.map_eq_some_iff.1 h
    obtain rfl := (Prod.mk.inj h).2
    rw [hspace] at hahead
    exact .inr (meets_stringBody hobject
      (hobject.suffix_of_takes (.cons (by decide) (.refl tail)) hahead) hbody)
  case h_5 tail hspace =>
    rw [hspace] at hahead
    have htail := hobject.suffix_of_takes (.cons (by decide) (takes_skipSpace tail)) hahead
    split at h
    · rename_i last hclose
      obtain rfl := (Prod.mk.inj (Option.some.inj h)).2
      rw [hclose] at htail
      exact .inr (.ahead (hobject.suffix_of_takes (.cons (by decide) (.refl last)) htail))
    · obtain ⟨⟨items, last⟩, hbody, h⟩ := Option.map_eq_some_iff.1 h
      obtain rfl := (Prod.mk.inj h).2
      exact .inr (.ahead (hitems htail hbody))
  case h_6 tail hspace =>
    rw [hspace] at hahead
    rcases List.suffix_cons_iff.1 hahead with heq | htail
    · -- the reader comes upon the object itself
      have hself : skipSpace object = object := by
        rw [heq, skipSpace_cons (by decide)]
      have hcongr : skipSpace s = skipSpace object := by
        rw [hself, hspace, heq]
      rw [value_congr hcongr] at hread
      exact .inl ⟨hcongr.trans hself, hobject.whole hread⟩
    · have hfirst := hobject.suffix_of_takes (takes_skipSpace tail) htail
      split at h
      · rename_i last hclose
        obtain rfl := (Prod.mk.inj (Option.some.inj h)).2
        rw [hclose] at hfirst
        exact .inr (.ahead (hobject.suffix_of_takes (.cons (by decide) (.refl last)) hfirst))
      · obtain ⟨⟨fields, last⟩, hbody, h⟩ := Option.map_eq_some_iff.1 h
        obtain rfl := (Prod.mk.inj h).2
        exact .inr (.ahead (hfields hfirst hbody))
  case h_7 => exact .inr (.ahead (hobject.suffix_of_takes (takes_numeral h) hahead))

/-- Values, arrays and objects that begin in front of an object, whatever the `fuel`. -/
theorem meets_of_read (hobject : IsObject object) (fuel : Nat) :
    (∀ {s found rest}, object <:+ s → value fuel s = some (found, rest) →
      skipSpace s = object ∧ rest = [] ∨ Meets object rest) ∧
    (∀ {s found rest}, object <:+ s → arrayBody fuel s = some (found, rest) → object <:+ rest) ∧
    (∀ {s found rest}, object <:+ s → objectBody fuel s = some (found, rest) →
      object <:+ rest) := by
  induction fuel with
  | zero =>
    refine ⟨fun _ h => absurd h ?_, fun _ h => absurd h ?_, fun _ h => absurd h ?_⟩
    · simp [value]
    · simp [arrayBody]
    · simp [objectBody]
  | succ fuel ih =>
    obtain ⟨hvalue, hitems, hfields⟩ := ih
    have hpasses : PassesMarks object fuel := by
      intro s found rest c more hs h hmark hspace
      rcases hvalue hs h with ⟨-, rfl⟩ | hmeets
      · exact absurd hspace.symm (List.cons_ne_nil c more)
      · exact hobject.suffix_of_mark hmeets hmark hspace
    exact ⟨meets_value_succ hobject hitems hfields, suffix_arrayBody hpasses hitems,
      suffix_objectBody hobject hpasses hfields⟩

/-! ## Texts with an object at the end -/

/-- Blanks in front of a text count for nothing in `parseChars?`. -/
theorem parseChars?_append_of_blank {front : List Char} (hfront : ∀ c ∈ front, isSpace c = true)
    {found : Json} (h : parseChars? s = some found) : parseChars? (front ++ s) = some found := by
  have hskip : skipSpace (front ++ s) = skipSpace s := List.dropWhile_append_of_pos hfront
  rw [parseChars?] at h ⊢
  split at h
  · rename_i first rest hread
    have hmore : value (2 * (front ++ s).length + 2) s = some (first, rest) :=
      value_of_le (by simp) hread
    rw [value_congr hskip, hmore]
    exact h
  · cases h

/-- **What is joined to an object in front is no JSON for `parseChars?`, but for blanks.** -/
theorem parseChars?_append_eq_none (hobject : IsObject object) {front : List Char}
    (hfront : ∃ c ∈ front, isSpace c = false) : parseChars? (front ++ object) = none := by
  obtain ⟨first, key, hcons, hfirst⟩ := hobject.begins
  rw [parseChars?]
  split
  · rename_i found rest hread
    rw [if_neg]
    rw [List.isEmpty_iff]
    rcases (meets_of_read hobject _).1 (List.suffix_append front object) hread with
      ⟨hskip, -⟩ | (hrest | _)
    · -- the text in front is not blank, so it is not the object that is read
      obtain ⟨c, hc, hblank⟩ := hfront
      have hword : front.dropWhile isSpace ≠ [] := by
        rw [Ne, List.dropWhile_eq_nil_iff]
        intro hall
        rw [hall c hc] at hblank
        exact Bool.noConfusion hblank
      rw [skipSpace, List.dropWhile_append, if_neg (by rwa [List.isEmpty_iff])] at hskip
      exact absurd (List.append_left_eq_self.1 hskip) hword
    · intro hnil
      have hahead := hobject.suffix_of_takes (takes_skipSpace rest) hrest
      rw [hnil, List.suffix_nil, hcons] at hahead
      exact absurd hahead (List.cons_ne_nil _ _)
    · rw [hcons, List.drop_succ_cons, List.drop_succ_cons, List.drop_zero, skipSpace_cons]
      · exact List.cons_ne_nil first key
      · exact isSpace_of_isMark hfirst
  · rfl

end Meeting

end Json

end Outpost

import Outpost.Proofs.Json.Numeral
import Outpost.Proofs.Json.StringBody

/-!
# Values that read back

Reading undoes writing. A value is written so that it can be read again if its numbers are finite
values of binary64, its strings are sequences of UTF-16 units, and the fields of its objects stand
in the order in which an object shows them (`Writable`). Infinite numbers are none of these: they
are written `null`.

## Contents

* `Writable`: the values that can be read again.
* `foldl_insert`, `mkObject_of_nodup`: objects that are built from their own fields.
* `Opens`, `opens_renderChars`: the first character of a value.
* `value_number`, `value_loose`, `value_array`, `value_object`: values of each kind.
* `value_renderChars`, `parseChars?_renderChars`.
-/

namespace Outpost

namespace Json

/-- The values that can be read again by `parseChars?`. -/
inductive Writable : Json → Prop
  | null : Writable .null
  | bool (b : Bool) : Writable (.bool b)
  | number {x : Dyadic} (hfinite : Number.IsBinary64 x) : Writable (.number (.finite x))
  | string (text : String) : Writable (.string text)
  | loose {text : Text.Loose} (hsound : text.Sound) (hbroken : text.whole? = none) :
    Writable (.loose text)
  | array {items : List Json} (hitems : ∀ item ∈ items, Writable item) : Writable (.array items)
  | object {fields : List (String × Json)} (hfields : ∀ field ∈ fields, Writable field.2)
    (hkeys : (fields.map Prod.fst).Nodup) (hplaces : inOrder fields = fields) :
    Writable (.object fields)

/-! ## Objects -/

/-- A new `key` comes behind the others. -/
theorem insert_of_not_mem {key : String} {fields : List (String × Json)}
    (hkey : key ∉ fields.map Prod.fst) (value : Json) :
    insert key value fields = fields ++ [(key, value)] := by
  induction fields with
  | nil => rfl
  | cons field fields ih =>
    obtain ⟨k, v⟩ := field
    obtain ⟨hne, hrest⟩ := not_or.1 (mt List.mem_cons.2 hkey)
    rw [insert, if_neg (Ne.symm hne), ih hrest, List.cons_append]

/-- Settings of different keys are the fields of the object that they build. -/
theorem foldl_insert {settings fields : List (String × Json)}
    (hkeys : ((fields ++ settings).map Prod.fst).Nodup) :
    settings.foldl (fun fields (key, value) => insert key value fields) fields
      = fields ++ settings := by
  induction settings generalizing fields with
  | nil => exact (List.append_nil fields).symm
  | cons setting settings ih =>
    obtain ⟨key, value⟩ := setting
    have hkey : key ∉ fields.map Prod.fst := by
      intro hmem
      rw [List.map_append, List.nodup_append] at hkeys
      exact hkeys.2.2 key hmem key List.mem_cons_self rfl
    have happend : fields ++ (key, value) :: settings = (fields ++ [(key, value)]) ++ settings := by
      simp
    rw [happend] at hkeys ⊢
    rw [← ih hkeys, ← insert_of_not_mem hkey]
    rfl

theorem mkObject_of_nodup {settings : List (String × Json)}
    (hkeys : (settings.map Prod.fst).Nodup) : mkObject settings = .object (inOrder settings) := by
  rw [mkObject, foldl_insert (by simpa using hkeys), List.nil_append]

/-! ## The first character -/

theorem skipSpace_cons {c : Char} (hc : isSpace c = false) (rest : List Char) :
    skipSpace (c :: rest) = c :: rest := by
  rw [skipSpace, List.dropWhile_cons, hc]
  rfl

/-- A text that begins neither with a blank nor with a bracket that closes. -/
def Opens (s : List Char) : Prop := ∃ c rest, s = c :: rest ∧ isSpace c = false ∧ c ≠ ']'

/-- A finite number begins, in `Number.chars`, with none of the characters that another value begins
with. -/
theorem exists_chars_eq_cons_of_other (x : Dyadic) :
    ∃ first more, Number.chars (.finite x) = first :: more ∧
      ∀ c ∈ ['n', 't', 'f', '"', '[', ']', '\x7b', ' ', '\t', '\n', '\r'], first ≠ c := by
  obtain ⟨first, more, hcons, hfirst⟩ := exists_chars_eq_cons x
  refine ⟨first, more, hcons, fun c hc heq => ?_⟩
  have htable : ['n', 't', 'f', '"', '[', ']', '\x7b', ' ', '\t', '\n', '\r'].all
      (fun c => decide (¬ (c.isDigit = true ∨ c = '-'))) = true := by decide
  exact of_decide_eq_true (List.all_eq_true.1 htable c hc) (heq ▸ hfirst)

theorem opens_renderChars {j : Json} (h : Writable j) (rest : List Char) :
    Opens (renderChars j ++ rest) := by
  cases h with
  | null => exact ⟨'n', _, rfl, by decide⟩
  | bool b =>
    cases b with
    | false => exact ⟨'f', _, rfl, by decide⟩
    | true => exact ⟨'t', _, rfl, by decide⟩
  | @number x hfinite =>
    obtain ⟨first, more, hcons, hother⟩ := exists_chars_eq_cons_of_other x
    have hrender : renderChars (.number (.finite x)) = first :: more := by
      rw [renderChars, hcons]
      simp
    simp only [List.forall_mem_cons] at hother
    exact ⟨first, more ++ rest, by rw [hrender, List.cons_append], by simp [isSpace, hother]⟩
  | string text => exact ⟨'"', _, rfl, by decide⟩
  | loose hsound hbroken => exact ⟨'"', _, rfl, by decide⟩
  | array hitems => exact ⟨'[', _, rfl, by decide⟩
  | object hfields hkeys hplaces => exact ⟨'\x7b', _, rfl, by decide⟩

theorem quoted_append (key s : List Char) :
    quoted key ++ s = '"' :: (key.flatMap escape ++ '"' :: s) := by
  simp [quoted]

theorem opens_renderItems {item : Json} {items : List Json}
    (h : ∀ other ∈ item :: items, Writable other) (rest : List Char) :
    Opens (renderItems (item :: items) ++ rest) := by
  have hitem : Writable item := h item List.mem_cons_self
  cases items with
  | nil =>
    rw [renderItems, List.append_assoc]
    exact opens_renderChars hitem _
  | cons next items =>
    rw [renderItems, List.append_assoc]
    · exact opens_renderChars hitem _
    · simp

theorem exists_renderFields_eq_cons (field : String × Json) (fields : List (String × Json)) :
    ∃ tail, renderFields (field :: fields) = '"' :: tail := by
  obtain ⟨key, first⟩ := field
  cases fields with
  | nil =>
    rw [renderFields, quoted_append]
    exact ⟨_, rfl⟩
  | cons next fields =>
    rw [renderFields, quoted_append]
    · exact ⟨_, rfl⟩
    · simp

variable {fuel : Nat} {rest : List Char}

theorem value_number {x : Dyadic} (hfinite : Number.IsBinary64 x) (hrest : EndsNumeral rest) :
    value (fuel + 1) (Number.chars (.finite x) ++ rest) = some (.number (.finite x), rest) := by
  obtain ⟨first, more, hcons, hother⟩ := exists_chars_eq_cons_of_other x
  have hread := numeral_chars hfinite hrest
  have hspace : isSpace first = false := by
    simp only [List.forall_mem_cons] at hother
    simp [isSpace, hother]
  rw [hcons, List.cons_append] at hread ⊢
  rw [value, skipSpace_cons hspace]
  split
  all_goals first
    | exact hread
    | (rename_i heq
       exact absurd (List.cons.inj heq).1 (hother _ (by simp)))

theorem value_loose {text : Text.Loose} (hsound : text.Sound) :
    value (fuel + 1) ('"' :: (text.flatMap escapePiece ++ ['"']) ++ rest)
      = some (ofLoose text, rest) := by
  have hbody : '"' :: (text.flatMap escapePiece ++ ['"']) ++ rest
      = '"' :: (text.flatMap escapePiece ++ '"' :: rest) := by
    simp
  rw [hbody, value, skipSpace_cons (by decide)]
  simp only [stringBody_flatMap_escapePiece hsound, Option.map_some]

/-! ## Arrays and objects -/

section Bodies

variable {s more : List Char} {item : Json} {items : List Json} {key : String}
  {fields : List (String × Json)}

theorem value_array (hopens : Opens s) (hbody : arrayBody fuel s = some (items, rest)) :
    value (fuel + 1) ('[' :: s) = some (.array items, rest) := by
  obtain ⟨c, tail, rfl, hspace, hclose⟩ := hopens
  rw [value, skipSpace_cons (by decide)]
  simp only
  rw [skipSpace_cons hspace]
  split
  · rename_i heq
    exact absurd (List.cons.inj heq).1 hclose
  · rw [hbody]
    rfl

theorem arrayBody_last (hitem : value fuel s = some (item, ']' :: rest)) :
    arrayBody (fuel + 1) s = some ([item], rest) := by
  rw [arrayBody, hitem]
  rfl

theorem arrayBody_cons (hitem : value fuel s = some (item, ',' :: more))
    (hitems : arrayBody fuel more = some (items, rest)) :
    arrayBody (fuel + 1) s = some (item :: items, rest) := by
  rw [arrayBody, hitem]
  simp only [skipSpace_cons (show isSpace ',' = false by decide), hitems, Option.map_some]

theorem value_object (hbody : objectBody fuel ('"' :: s) = some (fields, rest)) :
    value (fuel + 1) ('\x7b' :: '"' :: s) = some (mkObject fields, rest) := by
  rw [value, skipSpace_cons (by decide)]
  simp only [skipSpace_cons (show isSpace '"' = false by decide)]
  split
  · rename_i heq
    exact absurd (List.cons.inj heq).1 (by decide)
  · rw [hbody]
    rfl

theorem objectBody_last (hitem : value fuel s = some (item, '\x7d' :: rest)) :
    objectBody (fuel + 1) (quoted key.toList ++ ':' :: s) = some ([(key, item)], rest) := by
  rw [quoted_append, objectBody, skipSpace_cons (by decide)]
  simp only [stringBody_flatMap_escape, skipSpace_cons (show isSpace ':' = false by decide), hitem,
    skipSpace_cons (show isSpace '\x7d' = false by decide), Text.Loose.shown_ofString]

theorem objectBody_cons (hitem : value fuel s = some (item, ',' :: more))
    (hfields : objectBody fuel more = some (fields, rest)) :
    objectBody (fuel + 1) (quoted key.toList ++ ':' :: s) = some ((key, item) :: fields, rest) := by
  rw [quoted_append, objectBody, skipSpace_cons (by decide)]
  simp only [stringBody_flatMap_escape, skipSpace_cons (show isSpace ':' = false by decide), hitem,
    skipSpace_cons (show isSpace ',' = false by decide), hfields, Option.map_some,
    Text.Loose.shown_ofString]

end Bodies

theorem endsNumeral_of_mem {c : Char} (hc : c ∈ [',', ']', '\x7d']) (rest : List Char) :
    EndsNumeral (c :: rest) := by
  have htable : [',', ']', '\x7d'].all
      (fun c => decide (c.isDigit = false ∧ c ≠ '.' ∧ c ≠ 'e' ∧ c ≠ 'E')) = true := by decide
  intro first hfirst
  obtain rfl := Option.some.inj hfirst
  exact of_decide_eq_true (List.all_eq_true.1 htable c hc)

mutual

/-- A `value` is read as what was written, if the `fuel` suffices. -/
theorem value_renderChars : ∀ {j : Json}, Writable j → ∀ {fuel : Nat} {rest : List Char},
    2 * (renderChars j).length ≤ fuel → EndsNumeral rest →
      value fuel (renderChars j ++ rest) = some (j, rest)
  | .null, _, fuel, rest, hfuel, hrest => by
    obtain ⟨k, rfl⟩ := Nat.exists_eq_add_of_le' hfuel
    rfl
  | .bool true, _, fuel, rest, hfuel, hrest => by
    obtain ⟨k, rfl⟩ := Nat.exists_eq_add_of_le' hfuel
    rfl
  | .bool false, _, fuel, rest, hfuel, hrest => by
    obtain ⟨k, rfl⟩ := Nat.exists_eq_add_of_le' hfuel
    rfl
  | .number n, h, fuel, rest, hfuel, hrest => by
    cases h with
    | @number x hfinite =>
      have hrender : renderChars (.number (.finite x)) = Number.chars (.finite x) := by
        rw [renderChars]
        simp
      obtain ⟨first, more, hcons, -⟩ := exists_chars_eq_cons x
      rw [hrender] at hfuel ⊢
      rw [hcons, List.length_cons] at hfuel
      obtain ⟨k, rfl⟩ := Nat.exists_eq_add_of_le' (show 1 ≤ fuel by omega)
      exact value_number hfinite hrest
  | .string s, _, fuel, rest, hfuel, hrest => by
    rw [renderChars, quoted, List.length_cons] at hfuel
    obtain ⟨k, rfl⟩ := Nat.exists_eq_add_of_le' (show 1 ≤ fuel by omega)
    rw [renderChars, quoted_append, value, skipSpace_cons (by decide)]
    simp only [stringBody_flatMap_escape, Option.map_some]
    rw [ofLoose, Text.Loose.whole?_ofString]
  | .loose text, h, fuel, rest, hfuel, hrest => by
    cases h with
    | loose hsound hbroken =>
      rw [renderChars] at hfuel ⊢
      rw [List.length_cons] at hfuel
      obtain ⟨k, rfl⟩ := Nat.exists_eq_add_of_le' (show 1 ≤ fuel by omega)
      rw [value_loose hsound, ofLoose, hbroken]
  | .array items, h, fuel, rest, hfuel, hrest => by
    cases h with
    | array hitems =>
      rw [renderChars] at hfuel ⊢
      rw [List.length_cons] at hfuel
      obtain ⟨k, rfl⟩ := Nat.exists_eq_add_of_le' (show 1 ≤ fuel by omega)
      cases items with
      | nil => rfl
      | cons item items =>
        have hbody : arrayBody k (renderItems (item :: items) ++ rest)
            = some (item :: items, rest) :=
          arrayBody_renderItems hitems (List.cons_ne_nil _ _) (by omega)
        exact value_array (opens_renderItems hitems rest) hbody
  | .object fields, h, fuel, rest, hfuel, hrest => by
    cases h with
    | object hfields hkeys hplaces =>
      rw [renderChars] at hfuel ⊢
      rw [List.length_cons] at hfuel
      obtain ⟨k, rfl⟩ := Nat.exists_eq_add_of_le' (show 1 ≤ fuel by omega)
      cases fields with
      | nil => rfl
      | cons field fields =>
        have hbody : objectBody k (renderFields (field :: fields) ++ rest)
            = some (field :: fields, rest) :=
          objectBody_renderFields hfields (List.cons_ne_nil _ _) (by omega)
        obtain ⟨tail, htail⟩ := exists_renderFields_eq_cons field fields
        rw [htail, List.cons_append] at hbody ⊢
        rw [← hplaces, ← mkObject_of_nodup hkeys]
        exact value_object hbody

theorem arrayBody_renderItems : ∀ {items : List Json}, (∀ item ∈ items, Writable item) →
    items ≠ [] → ∀ {fuel : Nat} {rest : List Char}, 2 * (renderItems items).length ≤ fuel →
      arrayBody fuel (renderItems items ++ rest) = some (items, rest)
  | [], _, hsome, _, _, _ => absurd rfl hsome
  | [item], h, _, fuel, rest, hfuel => by
    rw [renderItems] at hfuel ⊢
    rw [List.length_append, List.length_singleton] at hfuel
    obtain ⟨k, rfl⟩ := Nat.exists_eq_add_of_le' (show 1 ≤ fuel by omega)
    rw [List.append_assoc]
    exact arrayBody_last (value_renderChars (h item List.mem_cons_self) (by omega)
      (endsNumeral_of_mem (by simp) rest))
  | item :: next :: items, h, _, fuel, rest, hfuel => by
    obtain ⟨hitem, hitems⟩ := List.forall_mem_cons.1 h
    rw [renderItems] at hfuel ⊢
    · rw [List.length_append, List.length_cons] at hfuel
      obtain ⟨k, rfl⟩ := Nat.exists_eq_add_of_le' (show 1 ≤ fuel by omega)
      rw [List.append_assoc, List.cons_append]
      exact arrayBody_cons (value_renderChars hitem (by omega) (endsNumeral_of_mem (by simp) _))
        (arrayBody_renderItems hitems (List.cons_ne_nil _ _) (by omega))
    all_goals exact nofun

theorem objectBody_renderFields : ∀ {fields : List (String × Json)},
    (∀ field ∈ fields, Writable field.2) → fields ≠ [] → ∀ {fuel : Nat} {rest : List Char},
      2 * (renderFields fields).length ≤ fuel →
        objectBody fuel (renderFields fields ++ rest) = some (fields, rest)
  | [], _, hsome, _, _, _ => absurd rfl hsome
  | [(key, first)], h, _, fuel, rest, hfuel => by
    rw [renderFields] at hfuel ⊢
    rw [List.length_append, List.length_cons, List.length_append, List.length_singleton] at hfuel
    obtain ⟨k, rfl⟩ := Nat.exists_eq_add_of_le' (show 1 ≤ fuel by omega)
    rw [List.append_assoc, List.cons_append, List.append_assoc]
    have hfirst : Writable first := h (key, first) List.mem_cons_self
    exact objectBody_last (value_renderChars hfirst (by omega) (endsNumeral_of_mem (by simp) rest))
  | (key, first) :: next :: fields, h, _, fuel, rest, hfuel => by
    obtain ⟨hfield, hfields⟩ := List.forall_mem_cons.1 h
    have hfirst : Writable first := hfield
    rw [renderFields] at hfuel ⊢
    · rw [List.length_append, List.length_cons, List.length_append, List.length_cons] at hfuel
      obtain ⟨k, rfl⟩ := Nat.exists_eq_add_of_le' (show 1 ≤ fuel by omega)
      rw [List.append_assoc, List.cons_append, List.append_assoc, List.cons_append]
      exact objectBody_cons (value_renderChars hfirst (by omega) (endsNumeral_of_mem (by simp) _))
        (objectBody_renderFields hfields (List.cons_ne_nil _ _) (by omega))
    all_goals exact nofun

end

/-- **Reading undoes writing: `parseChars?` finds what `renderChars` wrote.** -/
theorem parseChars?_renderChars {j : Json} (h : Writable j) :
    parseChars? (renderChars j) = some j := by
  have hends : EndsNumeral [] := fun _ hc => absurd hc (by simp)
  have hread : value (2 * (renderChars j).length + 2) (renderChars j ++ []) = some (j, []) :=
    value_renderChars h (by omega) hends
  rw [List.append_nil] at hread
  rw [parseChars?, hread]
  rfl

end Json

end Outpost

import Outpost.Script

/-!
# Literal text

What it means that a text occurs in another, and what replacing its occurrences from left to right
amounts to: the text is cut at the occurrences into gaps that hold none, and the gaps are put
together again with something else between them (`exists_gaps`).

## Contents

* `occurs_iff`: occurrences as infixes.
* `replaceAll_token_append`, `replaceAll_cons`: how replacing goes on from left to right.
* `exists_gaps`.
-/

namespace Outpost

namespace Script

section Literal

variable {token value text rest : List Char} {c : Char}

theorem occurs_iff : occurs token text = true ↔ token <:+: text := by
  induction text with
  | nil => simp [occurs]
  | cons c rest ih =>
    rw [occurs, Bool.or_eq_true, ih, List.isPrefixOf_iff_prefix, List.infix_cons_iff]

/-! ## From left to right -/

/-- Characters that `replaceFrom` skips belong to what was replaced before. -/
theorem replaceFrom_eq_drop (token value : List Char) (skip : Nat) (text : List Char) :
    replaceFrom token value skip text = replaceAll token value (text.drop skip) := by
  induction skip generalizing text with
  | zero => rfl
  | succ skip ih =>
    cases text with
    | nil => rfl
    | cons c rest =>
      rw [replaceFrom, List.drop_succ_cons]
      exact ih rest

/-- An occurrence of the `token` at the beginning is replaced. -/
theorem replaceAll_token_append (htoken : token ≠ []) (value rest : List Char) :
    replaceAll token value (token ++ rest) = value ++ replaceAll token value rest := by
  obtain ⟨c, last, rfl⟩ := List.exists_cons_of_ne_nil htoken
  have hbegins : (c :: last).isPrefixOf (c :: (last ++ rest)) = true :=
    List.isPrefixOf_iff_prefix.2 (List.prefix_append (c :: last) rest)
  rw [replaceAll, List.cons_append, replaceFrom, if_pos hbegins, replaceFrom_eq_drop]
  simp

/-- A character that no occurrence of the `token` begins with stays. -/
theorem replaceAll_cons (h : ¬ token <+: c :: rest) (value : List Char) :
    replaceAll token value (c :: rest) = c :: replaceAll token value rest := by
  have hbegins : ¬ token.isPrefixOf (c :: rest) = true := by
    rwa [List.isPrefixOf_iff_prefix]
  rw [replaceAll, replaceFrom, if_neg hbegins]
  rfl

/-! ## Gaps -/

/-- A longer first gap makes a longer text. -/
theorem intercalate_cons_gap (between gap : List Char) (more : List (List Char)) (c : Char) :
    between.intercalate ((c :: gap) :: more) = c :: between.intercalate (gap :: more) := by
  cases more with
  | nil => simp
  | cons next more => simp [List.intercalate_cons_cons]

/-- A text that is joined by `intercalate` begins with its first gap. -/
theorem prefix_intercalate (between gap : List Char) (more : List (List Char)) :
    gap <+: between.intercalate (gap :: more) := by
  cases more with
  | nil => simp
  | cons next more =>
    rw [List.intercalate_cons_cons, List.append_assoc]
    exact List.prefix_append gap _

/-- Every text is cut by the occurrences of a `token`, found from left to right, into gaps that hold
none; replacing puts the same gaps together with the `value` between them. -/
theorem exists_gaps (htoken : token ≠ []) (text : List Char) :
    ∃ gap more, text = token.intercalate (gap :: more) ∧
      (∀ part ∈ gap :: more, ¬ token <:+: part) ∧
      ∀ value, replaceAll token value text = value.intercalate (gap :: more) := by
  have hnothing : ¬ token <:+: [] := by
    rwa [List.infix_nil]
  induction hlength : text.length using Nat.strongRecOn generalizing text with
  | ind n ih =>
    subst hlength
    by_cases hbegins : token <+: text
    · -- the text begins with an occurrence, behind an empty gap
      obtain ⟨rest, rfl⟩ := hbegins
      have hshorter : rest.length < (token ++ rest).length := by
        have := List.length_pos_iff.2 htoken
        rw [List.length_append]
        omega
      obtain ⟨gap, more, hrest, hparts, hreplaced⟩ := ih _ hshorter rest rfl
      refine ⟨[], gap :: more, ?_, ?_, fun value => ?_⟩
      · rw [List.intercalate_cons_cons, List.nil_append, ← hrest]
      · exact List.forall_mem_cons.2 ⟨hnothing, hparts⟩
      · rw [List.intercalate_cons_cons, List.nil_append, ← hreplaced,
          replaceAll_token_append htoken]
    · cases text with
      | nil =>
        refine ⟨[], [], rfl, ?_, fun value => rfl⟩
        exact List.forall_mem_cons.2 ⟨hnothing, nofun⟩
      | cons c rest =>
        -- it begins with a character of the first gap
        obtain ⟨gap, more, hrest, hparts, hreplaced⟩ := ih _ (Nat.lt_succ_self _) rest rfl
        obtain ⟨hgap, hmore⟩ := List.forall_mem_cons.1 hparts
        have htext : c :: rest = token.intercalate ((c :: gap) :: more) := by
          rw [intercalate_cons_gap, ← hrest]
        refine ⟨c :: gap, more, htext, List.forall_mem_cons.2 ⟨fun hwithin => ?_, hmore⟩,
          fun value => ?_⟩
        · rcases List.infix_cons_iff.1 hwithin with hhead | hinside
          · have hfirst : c :: gap <+: c :: rest := by
              rw [htext]
              exact prefix_intercalate token (c :: gap) more
            exact hbegins (hhead.trans hfirst)
          · exact hgap hinside
        · rw [replaceAll_cons hbegins, hreplaced, intercalate_cons_gap]

end Literal

end Script

end Outpost

import Outpost.Proofs.Script.Substitution

/-!
# Placeholders that are left over

A template must have every placeholder, and no value may hold one. What is rendered may hold one all
the same: where a value is put next to the text around it, the two may make up a placeholder that
neither of them holds. Replacing goes through the placeholders once, so one that is made up after
its turn stays.

That is the only way: whatever is left over was made up at such a seam, by the replacement of a
placeholder at its own turn or later (`leftover_made_at_seam`). A template whose placeholders stand
apart has no such seams, and nothing is left over of it.

## Contents

* `Sealed.not_infix_shown`: nothing is left over where placeholders stand apart.
* `exists_seam`: where a placeholder that is left over was made up.
* `leftover_made_at_seam`, `placeholder_left_over`.
-/

namespace Outpost

namespace Script

variable {values : Values}

/-! ## Placeholders that stand apart -/

/-- Once its holes among the `parts` are filled, a placeholder occurs nowhere. -/
theorem Sealed.not_infix_shown {parts : List Part} {done : List Placeholder} {q : Placeholder}
    (h : Sealed parts) (hq : q ∈ done)
    (hvalues : ∀ p ∈ done, ¬ q.chars <:+: (values.value p).toList) :
    ¬ q.chars <:+: parts.flatMap (Part.shown values done) := by
  have hword := isTokenChar_of_mem q
  induction h with
  | nil => exact fun hwithin => chars_ne_nil q (List.infix_nil.1 hwithin)
  | @literal c rest hnone hbefore hsealed ih =>
    intro hwithin
    rcases List.infix_cons_iff.1 hwithin with hbegins | hinside
    · exact hnone q (prefix_of_shown hword (.literal hnone hbefore hsealed) hbegins)
    · exact ih hinside
  | @hole p rest happart _ ih =>
    intro hwithin
    rw [List.flatMap_cons] at hwithin
    rcases infix_append_of_apart hword (apart_shown happart) hwithin with hhole | hinside
    · rw [Part.shown] at hhole
      by_cases hp : p ∈ done
      · rw [if_pos hp] at hhole
        exact hvalues p hp hhole
      · rw [if_neg hp] at hhole
        exact hp (eq_of_infix_chars hhole ▸ hq)
    · exact ih hinside

/-! ## Seams -/

/-- A text with the placeholders of `order` replaced, one after another. -/
def replaced (values : Values) (order : List Placeholder) (text : List Char) : List Char :=
  order.foldl (fun text p => replaceAll p.chars (values.value p).toList text) text

/-- Every gap is in the text that is made of them. -/
theorem infix_intercalate {between part : List Char} {gaps : List (List Char)} (h : part ∈ gaps) :
    part <:+: between.intercalate gaps := by
  induction gaps with
  | nil => exact absurd h List.not_mem_nil
  | cons gap more ih =>
    rcases List.mem_cons.1 h with rfl | hmore
    · exact (prefix_intercalate between part more).isInfix
    · rw [List.intercalate_cons_of_ne_nil (List.ne_nil_of_mem hmore)]
      exact (ih hmore).trans (List.suffix_append _ _).isInfix

/-- `Seam values p order text`: while the placeholders of `order` are replaced, one of them is whose
value makes up `p` together with the text around it, and `p` is not replaced after that. -/
def Seam (values : Values) (p : Placeholder) (order : List Placeholder) (text : List Char) : Prop :=
  ∃ earlier q later gap more, order = earlier ++ q :: later ∧ p ∉ later ∧
    replaced values earlier text = q.chars.intercalate (gap :: more) ∧
    replaced values (earlier ++ [q]) text = (values.value q).toList.intercalate (gap :: more) ∧
    (∀ part ∈ gap :: more, ¬ p.chars <:+: part) ∧
    p.chars <:+: (values.value q).toList.intercalate (gap :: more)

/-- What is there at the end was made up at a `Seam`, unless it was there from the beginning and was
not replaced. -/
theorem exists_seam {p : Placeholder} (order : List Placeholder) (text : List Char)
    (hleft : p.chars <:+: replaced values order text)
    (hnew : p ∈ order ∨ ¬ p.chars <:+: text) : Seam values p order text := by
  induction order generalizing text with
  | nil => exact absurd hleft (hnew.resolve_left List.not_mem_nil)
  | cons q order ih =>
    obtain ⟨gap, more, htext, hgaps, hreplaced⟩ := exists_gaps (chars_ne_nil q) text
    by_cases hlater : p ∈ order ∨ ¬ p.chars <:+: replaced values [q] text
    · obtain ⟨earlier, r, later, gap, more, rfl, hp, hbefore, hafter, hnone, hin⟩ :=
        ih (replaced values [q] text) hleft hlater
      exact ⟨q :: earlier, r, later, gap, more, rfl, hp, hbefore, hafter, hnone, hin⟩
    · obtain ⟨hp, hin⟩ := not_or.1 hlater
      have hin : p.chars <:+: replaced values [q] text := by
        by_cases h : p.chars <:+: replaced values [q] text
        · exact h
        · exact absurd h hin
      have hafter : replaced values [q] text = (values.value q).toList.intercalate (gap :: more) :=
        hreplaced _
      refine ⟨[], q, order, gap, more, rfl, hp, htext, hafter, ?_, hafter ▸ hin⟩
      intro part hpart hwithin
      rcases hnew with hmem | hnone
      · obtain rfl : p = q := (List.mem_cons.1 hmem).resolve_right hp
        exact hgaps part hpart hwithin
      · exact hnone (htext ▸ hwithin.trans (infix_intercalate hpart))

/-- What `render` renders had nothing against it: it was not `Refused`. -/
theorem not_refused_of_render {template text : String} (h : render template values = .ok text) :
    ¬ Refused template values ∧ text.toList = replaced values Placeholder.all template.toList := by
  have haccepted : ¬ Refused template values := by
    intro hrefused
    obtain ⟨problem, hproblem⟩ := render_of_refused hrefused
    exact absurd (h.symm.trans hproblem) nofun
  have htext := Except.ok.inj (h.symm.trans (render_of_not_refused haccepted))
  exact ⟨haccepted, htext ▸ String.toList_ofList⟩

/-- **What is left over was made up at a `Seam`.** When a script is rendered, none of the values
holds a placeholder. A script of a template whose placeholders are `Isolated` holds none either. If
a script holds one, then at its turn or after it a placeholder was replaced by a value that makes it
up together with the text around: no gap between the places of that value holds it, nor does the
value, but the text that they are put together to does. -/
theorem leftover_made_at_seam {template text : String} (h : render template values = .ok text) :
    (∀ p q : Placeholder, ¬ p.chars <:+: (values.value q).toList) ∧
      (Isolated template.toList → ∀ p : Placeholder, ¬ p.chars <:+: text.toList) ∧
      ∀ p : Placeholder, p.chars <:+: text.toList →
        Seam values p Placeholder.all template.toList := by
  obtain ⟨haccepted, htext⟩ := not_refused_of_render h
  have hvalues : ∀ p q : Placeholder, ¬ p.chars <:+: (values.value q).toList :=
    fun p q hp => haccepted (.inr ⟨q, p, hp⟩)
  refine ⟨hvalues, fun hisolated p => ?_, fun p hp => ?_⟩
  · obtain ⟨parts, hsealed, hwritten⟩ := exists_sealed hisolated
    have hrun := foldl_replaceAll_shown hsealed (fun q p => hvalues p q) Placeholder.all
      (by decide : (Placeholder.all ++ []).Nodup)
    rw [shown_nil, hwritten] at hrun
    rw [htext, replaced, hrun]
    exact hsealed.not_infix_shown (by simp [mem_all]) fun q _ => hvalues p q
  · exact exists_seam Placeholder.all template.toList (htext ▸ hp) (.inl (mem_all p))

/-- A template in which one placeholder stands inside what would be another. -/
def nested : String :=
  "$SERVER_MODULE$ $SERVER_CLASS$ $SERVICE_MODULE$ $SERVICE_CLASS$ $SERVER_$EXTRA_SETUP$MODULE$"

/-- Values with nothing to set up. -/
def plain : Values := ⟨"m", "c", "n", "d", ""⟩

/-- Once there is nothing in the place of the inner placeholder, the outer one is whole. -/
theorem render_nested : render nested plain = .ok "m c n d $SERVER_MODULE$" := by
  rfl

theorem infix_nested : Placeholder.serverModule.chars <:+: "m c n d $SERVER_MODULE$".toList :=
  occurs_iff.1 (by decide)

/-- It was made up at a `Seam`. -/
theorem nested_left_over_at_seam : render nested plain = .ok "m c n d $SERVER_MODULE$" ∧
    Placeholder.serverModule.chars <:+: "m c n d $SERVER_MODULE$".toList ∧
    Seam plain .serverModule Placeholder.all nested.toList :=
  ⟨render_nested, infix_nested, (leftover_made_at_seam render_nested).2.2 _ infix_nested⟩

/-- So not every script that `render` makes is free of placeholders. -/
theorem placeholder_left_over : ¬ ∀ (template text : String) (values : Values),
    render template values = .ok text → ∀ p : Placeholder, ¬ p.chars <:+: text.toList :=
  fun h => h nested _ plain render_nested .serverModule infix_nested

end Script

end Outpost

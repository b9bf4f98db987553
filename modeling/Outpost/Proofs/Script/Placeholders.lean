import Outpost.Proofs.Script.Literal

/-!
# Placeholders that stand apart

Placeholders are written with capitals, underscores and dollar signs. A placeholder of a template
stands apart if each side of it is an end of the template or any other character. Nothing that takes
its place becomes part of another placeholder, since none reaches across a character that is in none
(`append_eq_append_of_apart`).

The default template has all of its placeholders apart.

## Contents

* `isTokenChar`, `Apart`, `Isolated`. `eq_of_infix_chars`: no placeholder holds another.
* `append_eq_append_of_apart`: a placeholder is on one side of a character that is in none.
* `isolatedFrom`: whether the placeholders of a text stand apart. `isolated_append`.
* `isolated_defaultTemplate`, `infix_defaultTemplate`.
-/

namespace Outpost

namespace Script

/-! ## Characters of placeholders -/

/-- The characters of the `token` of a placeholder. -/
abbrev Placeholder.chars (p : Placeholder) : List Char := p.token.toList

/-- Whether a character is one of those that placeholders are written with. -/
def isTokenChar (c : Char) : Bool := c.isUpper || c = '_' || c = '$'

/-- A text that is empty or begins with a character that is no `isTokenChar`. -/
def Apart (text : List Char) : Prop := ∀ c ∈ text.head?, isTokenChar c = false

/-- A template in which every occurrence of a placeholder has, on each side, an end of the template
or a character that is no `isTokenChar`. -/
def Isolated (template : List Char) : Prop :=
  ∀ (before : List Char) (p : Placeholder) (after : List Char),
    template = before ++ p.chars ++ after →
      (∀ c ∈ before.getLast?, isTokenChar c = false) ∧ Apart after

theorem mem_all (p : Placeholder) : p ∈ Placeholder.all := by
  cases p <;> decide

theorem isTokenChar_of_mem (p : Placeholder) : ∀ c ∈ p.chars, isTokenChar c = true := by
  have hall : p.chars.all isTokenChar = true := by
    cases p <;> rfl
  exact List.all_eq_true.1 hall

theorem chars_ne_nil (p : Placeholder) : p.chars ≠ [] := by
  cases p <;> decide

theorem append_chars_ne_nil (before : List Char) (p : Placeholder) (after : List Char) :
    before ++ p.chars ++ after ≠ [] := by
  intro h
  exact chars_ne_nil p (List.append_eq_nil_iff.1 (List.append_eq_nil_iff.1 h).1).2

/-- No placeholder holds another. -/
theorem eq_of_infix_chars {p q : Placeholder} (h : p.chars <:+: q.chars) : p = q := by
  have hoccurs : occurs p.chars q.chars = true := occurs_iff.2 h
  revert hoccurs
  cases p <;> cases q <;> decide

section Apart

variable {before word after first second : List Char}

/-- A word of such characters does not reach across the beginning of a text that is `Apart`. -/
theorem append_eq_append_of_apart (hword : ∀ c ∈ word, isTokenChar c = true)
    (happart : Apart second) (h : before ++ word ++ after = first ++ second) :
    (∃ more, first = before ++ word ++ more ∧ after = more ++ second) ∨
      ∃ less, before = first ++ less ∧ second = less ++ word ++ after := by
  rcases List.append_eq_append_iff.1 h with ⟨more, hfirst, hafter⟩ | ⟨more, hbefore, hsecond⟩
  · exact .inl ⟨more, hfirst, hafter⟩
  · rcases List.append_eq_append_iff.1 hbefore with ⟨part, hfirst, hpart⟩ | ⟨less, hbefore, hless⟩
    · cases more with
      | nil =>
        refine .inl ⟨[], ?_, hsecond.symm⟩
        rw [List.append_nil] at hpart ⊢
        rw [hfirst, hpart]
      | cons c more =>
        -- the word would begin in the first text and end in the second
        have hin : isTokenChar c = true := hword c (by simp [hpart])
        have hout : isTokenChar c = false := happart c (by simp [hsecond])
        exact absurd hin (ne_true_of_eq_false hout)
    · refine .inr ⟨less, hbefore, ?_⟩
      rw [hsecond, hless]

/-- So, by `append_eq_append_of_apart`, it occurs in the one text or in the other. -/
theorem infix_append_of_apart (hword : ∀ c ∈ word, isTokenChar c = true) (happart : Apart second)
    (h : word <:+: first ++ second) : word <:+: first ∨ word <:+: second := by
  obtain ⟨before, after, heq⟩ := h
  rcases append_eq_append_of_apart hword happart heq with ⟨more, hfirst, -⟩ | ⟨less, -, hsecond⟩
  · exact .inl ⟨before, more, hfirst.symm⟩
  · exact .inr ⟨less, after, hsecond.symm⟩

/-- A text that begins with a placeholder is not `Apart`. -/
theorem not_apart_chars (p : Placeholder) (rest : List Char) : ¬ Apart (p.chars ++ rest) := by
  intro h
  cases p <;> exact absurd (h '$' rfl) (by decide)

end Apart

/-! ## Whether placeholders stand apart -/

/-- Whether the placeholders of a text that comes behind a character, if behind any, are `Isolated`.
Each of them begins with a dollar sign. -/
def isolatedFrom : Option Char → List Char → Bool
  | _, [] => true
  | before, c :: rest =>
    (c != '$' || Placeholder.all.all fun p => !p.chars.isPrefixOf (c :: rest) ||
      (before.all (!isTokenChar ·) &&
        ((c :: rest).drop p.chars.length).head?.all (!isTokenChar ·)))
      && isolatedFrom (some c) rest

theorem head?_chars (p : Placeholder) : p.chars.head? = some '$' := by
  cases p <;> decide

theorem isolated_of_isolatedFrom {text : List Char} (h : isolatedFrom none text = true) :
    Isolated text := by
  -- for the end of a text, given the character in front of it
  suffices hrest : ∀ (text : List Char) (last : Option Char), isolatedFrom last text = true →
      ∀ (before : List Char) (p : Placeholder) (after : List Char),
        text = before ++ p.chars ++ after →
        (∀ c ∈ before.getLast?.or last, isTokenChar c = false) ∧ Apart after by
    intro before p after heq
    have := hrest text none h before p after heq
    rwa [Option.or_none] at this
  intro text
  induction text with
  | nil =>
    intro last _ before p after heq
    exact absurd heq.symm (append_chars_ne_nil before p after)
  | cons c rest ih =>
    intro last h before p after heq
    obtain ⟨hhere, hrest⟩ := Bool.and_eq_true_iff.1 h
    cases before with
    | nil =>
      have hc : c = '$' := by
        have := head?_chars p
        cases hp : p.chars with
        | nil => exact absurd hp (chars_ne_nil p)
        | cons d more =>
          rw [hp] at this heq
          exact (List.cons.inj heq).1.trans (Option.some.inj this)
      have hbegins : p.chars.isPrefixOf (c :: rest) = true :=
        List.isPrefixOf_iff_prefix.2 ⟨after, heq.symm⟩
      have hafter : (c :: rest).drop p.chars.length = after := by
        rw [heq, List.nil_append, List.drop_left]
      have hall := (Bool.or_eq_true_iff.1 hhere).resolve_left (by simp [hc])
      have hsides := List.all_eq_true.1 hall p (mem_all p)
      rw [hbegins, hafter] at hsides
      simpa [Apart, Option.all_eq_true] using hsides
    | cons d before =>
      obtain ⟨rfl, hmore⟩ := List.cons.inj heq
      obtain ⟨hbefore, hafter⟩ := ih (some c) hrest before p after hmore
      refine ⟨?_, hafter⟩
      intro x hx
      refine hbefore x ?_
      cases hlast : before.getLast? <;> simp_all [List.getLast?_cons]

/-- Texts that are `Isolated` are so side by side, with a character between them that is no
`isTokenChar`. -/
theorem isolated_append {first second : List Char} {c : Char} (hc : isTokenChar c = false)
    (hfirst : Isolated first) (hsecond : Isolated second) : Isolated (first ++ c :: second) := by
  intro before p after heq
  have hborder : Apart (c :: second) := fun x hx => (Option.some.inj hx) ▸ hc
  rcases append_eq_append_of_apart (isTokenChar_of_mem p) hborder heq.symm with
    ⟨more, hmore, rfl⟩ | ⟨less, rfl, hless⟩
  · obtain ⟨hbefore, hafter⟩ := hfirst before p more hmore
    refine ⟨hbefore, ?_⟩
    cases more with
    | nil => exact hborder
    | cons d more => exact hafter
  · cases less with
    | nil =>
      exact absurd (hless ▸ hborder : Apart (p.chars ++ after)) (not_apart_chars p after)
    | cons d less =>
      obtain ⟨rfl, hrest⟩ := List.cons.inj hless
      obtain ⟨hbefore, hafter⟩ := hsecond less p after hrest
      refine ⟨fun x hx => ?_, hafter⟩
      have hlast : less.getLast?.getD c = x := by
        simpa [List.getLast?_cons] using hx
      cases hless : less.getLast? with
      | none =>
        rw [hless] at hlast
        exact hlast ▸ hc
      | some y =>
        rw [hless] at hlast
        exact hlast ▸ hbefore y hless

/-! ## The default template -/

theorem toList_defaultTemplate : defaultTemplate.toList
    = (defaultLines Settings.joinTimeout).flatMap fun line => line.toList ++ ['\n'] := by
  rw [defaultTemplate]
  generalize defaultLines Settings.joinTimeout = lines
  induction lines with
  | nil => rfl
  | cons line lines ih => simpa using ih

theorem isolated_of_eq {line : String} {chars : List Char} (h : line = String.ofList chars)
    (hcheck : isolatedFrom none chars = true) : Isolated line.toList := by
  rw [h, String.toList_ofList]
  exact isolated_of_isolatedFrom hcheck

/-- Every line of the `defaultTemplate`, and so the whole of it, has its placeholders apart. -/
theorem isolated_defaultTemplate : Isolated defaultTemplate.toList := by
  have hlines : ∀ line ∈ defaultLines Settings.joinTimeout, Isolated line.toList := by
    have hdigits : toString Settings.joinTimeout = "2000" := rfl
    rw [defaultLines, hdigits]
    simp only [String.reduceAppend]
    repeat' refine List.forall_mem_cons.2 ⟨isolated_of_eq rfl (by decide), ?_⟩
    exact nofun
  rw [toList_defaultTemplate]
  revert hlines
  generalize defaultLines Settings.joinTimeout = lines
  intro hlines
  induction lines with
  | nil => exact fun before p after heq => absurd heq.symm (append_chars_ne_nil before p after)
  | cons line lines ih =>
    obtain ⟨hline, hrest⟩ := List.forall_mem_cons.1 hlines
    rw [List.flatMap_cons, List.append_assoc]
    exact isolated_append (by decide) hline (ih hrest)

/-- The `defaultTemplate` has all of them. -/
theorem infix_defaultTemplate (p : Placeholder) : p.chars <:+: defaultTemplate.toList := by
  have hline {line : String} (hmem : line ∈ defaultLines Settings.joinTimeout)
      {chars : List Char} (h : line = String.ofList chars) (hcheck : occurs p.chars chars = true) :
      p.chars <:+: defaultTemplate.toList := by
    obtain ⟨front, back, hlines⟩ := List.append_of_mem hmem
    rw [toList_defaultTemplate, hlines, List.flatMap_append, List.flatMap_cons, h,
      String.toList_ofList]
    refine (occurs_iff.1 hcheck).trans ⟨front.flatMap fun line => line.toList ++ ['\n'],
      '\n' :: back.flatMap fun line => line.toList ++ ['\n'], ?_⟩
    simp
  cases p with
  | serverModule | serverClass =>
    exact @hline "const \x7b $SERVER_CLASS$: ServerCls \x7d = await import('$SERVER_MODULE$');"
      (by simp [defaultLines]) _ rfl (by decide)
  | serviceModule | serviceClass =>
    exact @hline "const \x7b $SERVICE_CLASS$: ServiceCls \x7d = await import('$SERVICE_MODULE$');"
      (by simp [defaultLines]) _ rfl (by decide)
  | extraSetup => exact @hline "$EXTRA_SETUP$" (by simp [defaultLines]) _ rfl (by decide)

end Script

end Outpost

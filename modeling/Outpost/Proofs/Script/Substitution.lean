import Outpost.Proofs.Script.Placeholders

/-!
# Filling a template all at once

Placeholders are replaced one after another, each in the text that the ones before left behind.
Where every placeholder of a template stands apart, this is the same as replacing all of them at
once: the template is read as literal characters and holes (`Reads`), and each hole gets its own
value.

The text in between has some holes filled and others not (`Part.shown`). A placeholder occurs in it
only where a hole is that is still open, since the next character on each side of a hole is in no
placeholder (`Sealed`), and no value holds one. So one replacement fills the holes of one
placeholder (`replaceAll_shown`), and any order of them fills all (`foldl_replaceAll_shown`).

## Contents

* `Part`, `Reads`: a template as literal characters and holes. `Sealed`, `exists_sealed`.
* `replaceAll_shown`, `foldl_replaceAll_shown`: one replacement, and any order of them.
* `Refused`: when nothing is rendered.
* `render_substitutes_at_once`.
-/

namespace Outpost

namespace Script

/-! ## Literal characters and holes -/

/-- A piece of a template: a `literal` character or the `hole` of a placeholder. -/
inductive Part where
  | literal (c : Char)
  | hole (p : Placeholder)

namespace Part

/-- How a `Part` is written in the template. -/
def written : Part → List Char
  | .literal c => [c]
  | .hole p => p.chars

/-- What a `Part` becomes: its hole takes the value of its own placeholder. -/
def filled (values : Values) : Part → List Char
  | .literal c => [c]
  | .hole p => (values.value p).toList

/-- What a `Part` is when the holes of the placeholders `done` are filled. -/
def shown (values : Values) (done : List Placeholder) : Part → List Char
  | .literal c => [c]
  | .hole p => if p ∈ done then (values.value p).toList else p.chars

end Part

/-- A template as literal characters and holes, the `parts`: every occurrence of a placeholder is a
hole. -/
structure Reads (template : List Char) (parts : List Part) : Prop where
  written : parts.flatMap Part.written = template
  complete : ∀ (before : List Char) (p : Placeholder) (after : List Char),
    template = before ++ p.chars ++ after →
      ∃ left right, parts = left ++ .hole p :: right ∧
        left.flatMap Part.written = before ∧ right.flatMap Part.written = after

/-- Pieces whose holes have, on each side, an end or a literal character that is no `isTokenChar`,
and at whose literal characters no placeholder begins. -/
inductive Sealed : List Part → Prop
  | nil : Sealed []
  | literal {c : Char} {rest : List Part} :
      (∀ p : Placeholder, ¬ p.chars <+: c :: rest.flatMap Part.written) →
      (∀ p more, rest = .hole p :: more → isTokenChar c = false) → Sealed rest →
      Sealed (.literal c :: rest)
  | hole {p : Placeholder} {rest : List Part} : Apart (rest.flatMap Part.written) → Sealed rest →
      Sealed (.hole p :: rest)

/-- Every template whose placeholders are `Isolated` is made of `Sealed` pieces. -/
theorem exists_sealed {template : List Char} (hisolated : Isolated template) :
    ∃ parts, Sealed parts ∧ parts.flatMap Part.written = template := by
  -- from every place on, given what stands before it
  suffices h : ∀ (text before : List Char), template = before ++ text →
      ∃ parts, Sealed parts ∧ parts.flatMap Part.written = text from h template [] rfl
  intro text
  induction hlength : text.length using Nat.strongRecOn generalizing text with
  | ind n ih =>
    subst hlength
    intro before htemplate
    by_cases hbegins : ∃ p : Placeholder, p.chars <+: text
    · obtain ⟨p, rest, rfl⟩ := hbegins
      have hshorter : rest.length < (p.chars ++ rest).length := by
        have := List.length_pos_iff.2 (chars_ne_nil p)
        rw [List.length_append]
        omega
      rw [← List.append_assoc] at htemplate
      obtain ⟨parts, hsealed, hwritten⟩ := ih _ hshorter rest rfl (before ++ p.chars) htemplate
      refine ⟨.hole p :: parts, .hole ?_ hsealed, ?_⟩
      · rw [hwritten]
        exact (hisolated before p rest htemplate).2
      · rw [List.flatMap_cons, hwritten]
        rfl
    · cases text with
      | nil => exact ⟨[], .nil, rfl⟩
      | cons c rest =>
        obtain ⟨parts, hsealed, hwritten⟩ :=
          ih _ (Nat.lt_succ_self _) rest rfl (before ++ [c]) (by simpa using htemplate)
        refine ⟨.literal c :: parts, .literal ?_ ?_ hsealed, ?_⟩
        · rw [hwritten]
          exact fun p hp => hbegins ⟨p, hp⟩
        · rintro p more rfl
          have hnext : template = before ++ [c] ++ p.chars ++ more.flatMap Part.written := by
            rw [htemplate, ← hwritten]
            simp [Part.written]
          exact (hisolated _ p _ hnext).1 c (by simp)
        · rw [List.flatMap_cons, hwritten]
          rfl

section Sealed

variable {parts : List Part} {values : Values} {done : List Placeholder} {q : Placeholder}

/-- Every occurrence of a placeholder in `Sealed` pieces is one of the holes. -/
theorem Sealed.reads (h : Sealed parts) : Reads (parts.flatMap Part.written) parts := by
  refine ⟨rfl, ?_⟩
  induction h with
  | nil =>
    intro before p after heq
    exact absurd heq.symm (append_chars_ne_nil before p after)
  | @literal c rest hnone _ _ ih =>
    intro before p after heq
    cases before with
    | nil => exact absurd ⟨after, heq.symm⟩ (hnone p)
    | cons d before =>
      obtain ⟨rfl, hrest⟩ := List.cons.inj heq
      obtain ⟨left, right, rfl, rfl, rfl⟩ := ih before p after hrest
      exact ⟨.literal c :: left, right, rfl, rfl, rfl⟩
  | @hole q rest happart _ ih =>
    intro before p after heq
    have hsplit : before ++ p.chars ++ after = q.chars ++ rest.flatMap Part.written := heq.symm
    rcases append_eq_append_of_apart (isTokenChar_of_mem p) happart hsplit with
      ⟨more, hfirst, hafter⟩ | ⟨less, hbefore, hrest⟩
    · obtain rfl : p = q := eq_of_infix_chars ⟨before, more, hfirst.symm⟩
      have hlength := congrArg List.length hfirst
      simp only [List.length_append] at hlength
      obtain rfl : before = [] := List.length_eq_zero_iff.1 (by omega)
      obtain rfl : more = [] := List.length_eq_zero_iff.1 (by omega)
      exact ⟨[], rest, rfl, rfl, hafter.symm⟩
    · obtain ⟨left, right, rfl, rfl, rfl⟩ := ih less p after hrest
      exact ⟨.hole q :: left, right, rfl, hbefore.symm, rfl⟩

/-! ## One replacement -/

/-- Filling holes leaves a text `Apart`. -/
theorem apart_shown (h : Apart (parts.flatMap Part.written)) :
    Apart (parts.flatMap (Part.shown values done)) := by
  cases parts with
  | nil => exact h
  | cons part rest =>
    cases part with
    | literal c => exact h
    | hole p => exact absurd h (not_apart_chars p _)

/-- Filling holes puts no placeholder at the beginning of a literal character. -/
theorem prefix_of_shown {c : Char} {word : List Char} (hword : ∀ x ∈ word, isTokenChar x = true)
    (h : Sealed (.literal c :: parts))
    (hbegins : word <+: c :: parts.flatMap (Part.shown values done)) :
    word <+: c :: parts.flatMap Part.written := by
  induction word generalizing c parts with
  | nil => exact List.nil_prefix
  | cons d word ih =>
    obtain ⟨rfl, hrest⟩ := List.cons_prefix_cons.1 hbegins
    refine List.cons_prefix_cons.2 ⟨rfl, ?_⟩
    have hin : isTokenChar d = true := hword d List.mem_cons_self
    have hword' : ∀ x ∈ word, isTokenChar x = true :=
      fun x hx => hword x (List.mem_cons_of_mem d hx)
    cases h with
    | literal _ hbefore hsealed =>
      cases parts with
      | nil => exact hrest
      | cons part rest =>
        cases part with
        | literal e => exact ih hword' hsealed hrest
        | hole p => exact absurd hin (ne_true_of_eq_false (hbefore p rest rfl))

/-- `replaceAll` goes past a text without occurrences to one that is apart. -/
theorem replaceAll_append_of_apart {word first second : List Char}
    (hword : ∀ c ∈ word, isTokenChar c = true) (hnone : ¬ word <:+: first)
    (happart : Apart second) (value : List Char) :
    replaceAll word value (first ++ second) = first ++ replaceAll word value second := by
  induction first with
  | nil => rfl
  | cons c first ih =>
    have hbegins : ¬ word <+: c :: (first ++ second) := by
      rintro ⟨after, heq⟩
      have hsplit : [] ++ word ++ after = (c :: first) ++ second := heq
      rcases append_eq_append_of_apart hword happart hsplit with ⟨more, hfirst, -⟩ | ⟨less, hnil, -⟩
      · exact hnone ⟨[], more, hfirst.symm⟩
      · exact absurd hnil nofun
    have hrest : ¬ word <:+: first := fun hwithin => hnone (List.infix_cons hwithin)
    rw [List.cons_append, replaceAll_cons hbegins, ih hrest, List.cons_append]

/-- `replaceAll` of one placeholder fills its holes and changes nothing else. -/
theorem replaceAll_shown (h : Sealed parts) (hq : q ∉ done)
    (hvalues : ∀ p ∈ done, ¬ q.chars <:+: (values.value p).toList) :
    replaceAll q.chars (values.value q).toList (parts.flatMap (Part.shown values done))
      = parts.flatMap (Part.shown values (q :: done)) := by
  have hword := isTokenChar_of_mem q
  induction h with
  | nil => rfl
  | @literal c rest hnone hbefore hsealed ih =>
    have hbegins : ¬ q.chars <+: c :: rest.flatMap (Part.shown values done) :=
      fun hbegins => hnone q (prefix_of_shown hword (.literal hnone hbefore hsealed) hbegins)
    rw [List.flatMap_cons, List.flatMap_cons, Part.shown, Part.shown, List.singleton_append,
      List.singleton_append, replaceAll_cons hbegins, ih]
  | @hole p rest happart _ ih =>
    have hrest : Apart (rest.flatMap (Part.shown values done)) := apart_shown happart
    rw [List.flatMap_cons, List.flatMap_cons, Part.shown, Part.shown]
    by_cases hp : p ∈ done
    · rw [if_pos hp, if_pos (List.mem_cons_of_mem q hp),
        replaceAll_append_of_apart hword (hvalues p hp) hrest, ih]
    · by_cases hpq : p = q
      · subst hpq
        rw [if_neg hp, if_pos List.mem_cons_self, replaceAll_token_append (chars_ne_nil p), ih]
      · have hnone : ¬ q.chars <:+: p.chars := fun hwithin => hpq (eq_of_infix_chars hwithin).symm
        have hq' : p ∉ q :: done := by simp [hpq, hp]
        rw [if_neg hp, if_neg hq', replaceAll_append_of_apart hword hnone hrest, ih]

/-! ## Any order of replacements -/

/-- Replacing the placeholders of `order` fills all of their holes. -/
theorem foldl_replaceAll_shown (h : Sealed parts)
    (hvalues : ∀ p q : Placeholder, ¬ q.chars <:+: (values.value p).toList)
    (order : List Placeholder) (hnodup : (order ++ done).Nodup) :
    order.foldl (fun text p => replaceAll p.chars (values.value p).toList text)
        (parts.flatMap (Part.shown values done))
      = parts.flatMap (Part.shown values (order.reverse ++ done)) := by
  induction order generalizing done with
  | nil => rfl
  | cons q order ih =>
    obtain ⟨hq, hrest⟩ := List.nodup_cons.1 hnodup
    have hnew : q ∉ done := fun hdone => hq (List.mem_append_right order hdone)
    have hnodup' : (order ++ q :: done).Nodup := (List.perm_middle.nodup_iff).2 hnodup
    rw [List.foldl_cons, replaceAll_shown h hnew fun p _ => hvalues p q, ih hnodup']
    simp

/-- Before any replacement the template is as it is `written`. -/
theorem shown_nil : Part.shown values [] = Part.written := by
  funext part
  cases part <;> rfl

/-- Once all placeholders are `done`, every hole is `filled`. -/
theorem shown_of_forall_mem (hdone : ∀ p, p ∈ done) :
    Part.shown values done = Part.filled values := by
  funext part
  cases part with
  | literal c => rfl
  | hole p => exact if_pos (hdone p)

end Sealed

/-! ## Rendering -/

/-- What makes a template or its values unusable: a placeholder that is missing, or a value that
holds one. -/
def Refused (template : String) (values : Values) : Prop :=
  (∃ p : Placeholder, ¬ p.chars <:+: template.toList) ∨
    ∃ p q : Placeholder, q.chars <:+: (values.value p).toList

section Rendering

variable {template : String} {values : Values} {p : Placeholder}

theorem problemAt?_eq_none_iff : problemAt? template values p = none ↔
    p.chars <:+: template.toList ∧
      ∀ q : Placeholder, ¬ q.chars <:+: (values.value p).toList := by
  rw [problemAt?]
  by_cases hin : p.occursIn template = true
  · have hin' : p.chars <:+: template.toList := occurs_iff.1 hin
    rw [if_pos hin, Option.map_eq_none_iff, List.find?_eq_none]
    refine ⟨fun h => ⟨hin', fun q hq => h q (mem_all q) (occurs_iff.2 hq)⟩, ?_⟩
    exact fun h q _ hq => h.2 q (occurs_iff.1 hq)
  · have hin' : ¬ p.chars <:+: template.toList := fun h => hin (occurs_iff.2 h)
    rw [if_neg hin]
    exact ⟨nofun, fun h => absurd h.1 hin'⟩

theorem findSome?_problemAt?_eq_none_iff :
    Placeholder.all.findSome? (problemAt? template values) = none ↔ ¬ Refused template values := by
  rw [List.findSome?_eq_none_iff]
  simp only [problemAt?_eq_none_iff]
  constructor
  · rintro h (⟨p, hp⟩ | ⟨p, q, hq⟩)
    · exact hp (h p (mem_all p)).1
    · exact (h p (mem_all p)).2 q hq
  · intro h p _
    refine ⟨?_, fun q hq => h (.inr ⟨p, q, hq⟩)⟩
    by_cases hp : p.chars <:+: template.toList
    · exact hp
    · exact absurd (.inl ⟨p, hp⟩) h

/-- A script is made just if nothing stands against it: where it is not `Refused`, `render` succeeds
with `fill`. -/
theorem render_of_not_refused (h : ¬ Refused template values) :
    render template values = .ok (String.ofList (fill values template.toList)) := by
  rw [render, findSome?_problemAt?_eq_none_iff.2 h]

theorem render_of_refused (h : Refused template values) :
    ∃ problem, render template values = .error problem := by
  cases hfound : Placeholder.all.findSome? (problemAt? template values) with
  | none => exact absurd h (findSome?_problemAt?_eq_none_iff.1 hfound)
  | some problem => exact ⟨problem, by rw [render, hfound]⟩

end Rendering

/-- **Rendering is substitution all at once.** Let the placeholders of a template be `Isolated`.
Then the template is made of literal characters and of holes, which are all the occurrences of
placeholders in it, such that for all values: if a placeholder is missing or a value holds one, it
is `Refused` and nothing is rendered; otherwise each hole is filled with its own value, and every
other character stays as it is. The order in which the placeholders are replaced makes no
difference. -/
theorem render_substitutes_at_once (template : String) (hisolated : Isolated template.toList) :
    ∃ parts, Reads template.toList parts ∧ ∀ values : Values,
      (Refused template values → ∃ problem, render template values = .error problem) ∧
      (¬ Refused template values →
        render template values = .ok (String.ofList (parts.flatMap (Part.filled values))) ∧
        ∀ order : List Placeholder, order.Perm Placeholder.all →
          order.foldl (fun text p => replaceAll p.chars (values.value p).toList text)
            template.toList = parts.flatMap (Part.filled values)) := by
  obtain ⟨parts, hsealed, hwritten⟩ := exists_sealed hisolated
  refine ⟨parts, hwritten ▸ hsealed.reads, fun values => ⟨render_of_refused, fun haccepted => ?_⟩⟩
  have hvalues : ∀ p q : Placeholder, ¬ q.chars <:+: (values.value p).toList :=
    fun p q hq => haccepted (.inr ⟨p, q, hq⟩)
  have horder : ∀ order : List Placeholder, order.Perm Placeholder.all →
      order.foldl (fun text p => replaceAll p.chars (values.value p).toList text)
        template.toList = parts.flatMap (Part.filled values) := by
    intro order hperm
    have hnodup : (order ++ []).Nodup := by
      rw [List.append_nil, hperm.nodup_iff]
      decide
    have hdone : ∀ p, p ∈ order.reverse ++ [] := by
      intro p
      rw [List.append_nil, List.mem_reverse, hperm.mem_iff]
      exact mem_all p
    have hrun := foldl_replaceAll_shown hsealed hvalues order hnodup
    rwa [shown_nil, hwritten, shown_of_forall_mem hdone] at hrun
  refine ⟨?_, horder⟩
  rw [render_of_not_refused haccepted]
  exact congrArg (fun text => Except.ok (String.ofList text)) (horder _ (List.Perm.refl _))

/-- Values with a line feed, with pieces of placeholders, and with what has a meaning elsewhere. -/
def awkward : Values where
  serverModule := "$&"
  serverClass := "$SERVER_"
  serviceModule := "a\nb$1"
  serviceClass := "MODULE$"

/-- The `defaultTemplate` is filled with them as it is with any others. -/
theorem defaultTemplate_filled_with_awkward : Isolated defaultTemplate.toList ∧
    ∃ parts, Reads defaultTemplate.toList parts ∧ render defaultTemplate awkward
      = .ok (String.ofList (parts.flatMap (Part.filled awkward))) := by
  have haccepted : ¬ Refused defaultTemplate awkward := by
    rintro (⟨p, hp⟩ | ⟨p, q, hq⟩)
    · exact hp (infix_defaultTemplate p)
    · have hoccurs : occurs q.chars (awkward.value p).toList = true := occurs_iff.2 hq
      revert hoccurs
      cases p <;> cases q <;> decide
  obtain ⟨parts, hreads, hfilled⟩ :=
    render_substitutes_at_once defaultTemplate isolated_defaultTemplate
  exact ⟨isolated_defaultTemplate, parts, hreads, ((hfilled awkward).2 haccepted).1⟩

end Script

end Outpost

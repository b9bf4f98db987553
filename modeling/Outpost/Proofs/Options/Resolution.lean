import Outpost.Proofs.Number.Rounding
import Outpost.Proofs.Options

/-!
# What options come to

The schema as its user knows it: which fields there are, what each of them admits, and what it is if
it is left out (`Field`). Resolving options keeps to it. If something is given for a field that the
field does not admit, the issues name just these fields, in the order of the schema; and otherwise
the result has for every field what was given for it, or else its default, and nothing else
(`resolution_keeps_to_schema`).

One statement for each check says all that is needed of it: the check lets just those values pass
that are admitted, it has something to say about any other, and it makes nothing new of the ones
that pass (`Faithful`).

## Contents

* `Field`, `Field.Admits`, `Field.default?`: the schema.
* `Options.value?`, `Options.entries`: options as values by the names of the fields.
* `Faithful`, with a lemma for each check.
* `resolveFields_eq_ok_iff`, `value?_of_resolveFields`: options that are accepted.
* `heading`, `eraseDups_headings`: what issues are about.
* `resolution_keeps_to_schema`.
-/

namespace Outpost

namespace Options

/-! ## The schema -/

/-- The fields of a set of `Options`. -/
inductive Field where
  | serverClass
  | serviceClass
  | serverScript
  | extraSetup
  | interpreter
  | codeDirectory
  | handshakeTimeout
  | eventLog
deriving DecidableEq, Repr

namespace Field

/-- The fields, in the order in which `Options` declares them. -/
def all : List Field :=
  [.serverClass, .serviceClass, .serverScript, .extraSetup, .interpreter, .codeDirectory,
    .handshakeTimeout, .eventLog]

/-- The name under which something is given for a `Field`. -/
def name : Field → String
  | .serverClass => "serverClass"
  | .serviceClass => "serviceClass"
  | .serverScript => "serverScript"
  | .extraSetup => "extraSetup"
  | .interpreter => "interpreter"
  | .codeDirectory => "codeDir"
  | .handshakeTimeout => "handshakeTimeoutMs"
  | .eventLog => "eventLog"

/-- What a `Field` is if it is left out, where it is anything. -/
def default? : Field → Option Value
  | .serverClass => some (.json (.string Settings.serverClass))
  | .serviceClass => some (.json (.string Settings.serviceClass))
  | .serverScript => some (.json (.string Script.defaultTemplate))
  | .extraSetup => some (.json (.string ""))
  | .codeDirectory => some (.json (.string Settings.codeDirectory))
  | .interpreter | .handshakeTimeout | .eventLog => none

end Field

/-- A reference, as the schema describes it: some text without a line end, a mark, and some text
without a mark. -/
def LooksLikeReference (text : List Char) : Prop :=
  ∃ before after, text = before ++ '#' :: after ∧ before ≠ [] ∧
    (∀ c ∈ before, Text.isLineEnd c = false) ∧ after ≠ [] ∧ '#' ∉ after

namespace Value

def IsText (value : Value) : Prop := ∃ s, value.string? = some s

def IsFilled (value : Value) : Prop := ∃ s, value.string? = some s ∧ s.shown ≠ ""

def IsReference (value : Value) : Prop :=
  ∃ s, value.string? = some s ∧ LooksLikeReference s.shown.toList

/-- A selector, or something that can spawn processes and has a list for an argument vector. -/
def IsInterpreter (value : Value) : Prop :=
  value.IsFilled ∨ ∃ argv, value = .command (some (.array argv))

/-- A positive integer, which no infinity is: the value of a timeout. -/
def IsTimeout (value : Value) : Prop :=
  ∃ n : Int, value = .json (.number (.ofInt n)) ∧ 0 < n

def IsEventLog (value : Value) : Prop := ∃ path, value = .eventLog path

end Value

/-- What the schema lets pass for a `Field`. -/
def Field.Admits : Field → Value → Prop
  | .serverClass | .serviceClass => Value.IsReference
  | .serverScript | .codeDirectory => Value.IsFilled
  | .extraSetup => Value.IsText
  | .interpreter => Value.IsInterpreter
  | .handshakeTimeout => Value.IsTimeout
  | .eventLog => Value.IsEventLog

/-- Something is `given` for a field that the field does not admit. -/
def Field.Misfits (given : List (String × Value)) (field : Field) : Prop :=
  ∃ value, find? field.name given = some value ∧ ¬ field.Admits value

/-- What a field comes to: what is `given` for it, or else its default. -/
def Field.resolved (given : List (String × Value)) (field : Field) : Option Value :=
  (find? field.name given).or field.default?

/-! ## Options as values -/

/-- The value of a string, as it was `Text.Given`. -/
def textValue (s : Text.Given) : Value := .json (.ofGiven s)

/-- The value that stands for an `InterpreterChoice`. -/
def choiceValue : InterpreterChoice → Value
  | .named selector => textValue selector
  | .command argv => .command (some (.array argv))

/-- What options have for a `Field`, where they have anything. -/
def value? (options : Options) : Field → Option Value
  | .serverClass => some (textValue options.serverClass)
  | .serviceClass => some (textValue options.serviceClass)
  | .serverScript => some (textValue options.serverScript)
  | .extraSetup => some (textValue options.extraSetup)
  | .interpreter => options.interpreter.map choiceValue
  | .codeDirectory => some (textValue options.codeDirectory)
  | .handshakeTimeout => options.handshakeTimeout.map fun n => .json (.number n)
  | .eventLog => options.eventLog.map .eventLog

/-- Options as they can be given again to `resolve`. -/
def entries (options : Options) : List (String × Value) :=
  Field.all.filterMap fun field => (options.value? field).map (field.name, ·)

section Entries

theorem nodup_names : (Field.all.map Field.name).Nodup := by decide

theorem mem_all (field : Field) : field ∈ Field.all := by
  cases field <;> decide

theorem name_injective : Function.Injective Field.name := by
  intro field field' h
  cases field <;> cases field' <;> first | rfl | exact absurd h (by decide)

/-- No value that options have by `value?` is none. -/
theorem given?_of_value? {options : Options} {field : Field} {value : Value}
    (h : options.value? field = some value) : value.given? = some value := by
  cases field with
  | interpreter =>
    obtain ⟨choice, -, rfl⟩ := Option.map_eq_some_iff.1 h
    cases choice <;> rfl
  | handshakeTimeout =>
    obtain ⟨n, -, rfl⟩ := Option.map_eq_some_iff.1 h
    rfl
  | eventLog =>
    obtain ⟨path, -, rfl⟩ := Option.map_eq_some_iff.1 h
    rfl
  | _ =>
    obtain rfl := Option.some.inj h
    rfl

/-- Among the `entries` of options is what they have for each field. -/
theorem find?_entries (options : Options) (field : Field) :
    find? field.name options.entries = options.value? field := by
  have hnamed (f : Field) :
      ((options.value? f).map (f.name, ·)).any (fun entry => entry.1 = field.name)
        = (decide (f = field) && (options.value? field).isSome) := by
    by_cases hf : f = field
    · subst hf
      cases options.value? f <;> simp
    · have hname : ¬ f.name = field.name := fun h => hf (name_injective h)
      cases options.value? f <;> simp [hf, hname]
  rw [find?, entries, List.find?_filterMap]
  simp only [hnamed]
  cases hvalue : options.value? field with
  | none =>
    have hnone : Field.all.find? (fun _ => false) = none := rfl
    simp [hnone]
  | some value =>
    have hfield : Field.all.find? (fun f => decide (f = field)) = some field := by
      cases field <;> rfl
    simp [hfield, hvalue, given?_of_value? hvalue]

end Entries

/-! ## Checks -/

section Checks

variable {α : Type} {value : Value} {s : Text.Given}

/-- The string that a value is by `string?` stands for this value. -/
theorem string?_eq_some_iff : value.string? = some s ↔ textValue s = value := by
  constructor
  · intro h
    cases value with
    | json value =>
      cases value with
      | string text | loose text =>
        obtain rfl := Option.some.inj h
        rfl
      | _ => exact absurd h nofun
    | _ => exact absurd h nofun
  · rintro rfl
    cases s <;> rfl

theorem isReference_iff_looksLikeReference {text : List Char} :
    isReference text = true ↔ LooksLikeReference text := by
  cases text with
  | nil => exact iff_of_false Bool.false_ne_true fun ⟨before, after, h, _⟩ => by simp at h
  | cons c rest =>
    rw [isReference, Bool.and_eq_true, Bool.not_eq_true', tailIsReference_iff]
    constructor
    · rintro ⟨hc, before, after, rfl, hbefore, hafter⟩
      exact ⟨c :: before, after, rfl, List.cons_ne_nil _ _, List.forall_mem_cons.2 ⟨hc, hbefore⟩,
        hafter⟩
    · rintro ⟨before, after, hcut, hsome, hbefore, hafter⟩
      obtain ⟨first, before, rfl⟩ := List.exists_cons_of_ne_nil hsome
      obtain ⟨rfl, rfl⟩ := List.cons.inj hcut
      obtain ⟨hfirst, hbefore⟩ := List.forall_mem_cons.1 hbefore
      exact ⟨hfirst, before, after, rfl, hbefore, hafter⟩

/-- What a check says of a value: it lets it pass if it `admits` it, and makes nothing else of it
then; otherwise it has something to say against it. -/
inductive Judged (admits : Value → Prop) (toValue : α → Value) (value : Value) :
    Except (List Problem) α → Prop
  | passed (a : α) : admits value → toValue a = value → Judged admits toValue value (.ok a)
  | refused (problems : List Problem) :
      problems ≠ [] → ¬ admits value → Judged admits toValue value (.error problems)

/-- A check that lets just those values pass that the schema `admits`, and leaves them as they
are. -/
def Faithful (check : Value → Except (List Problem) α) (admits : Value → Prop)
    (toValue : α → Value) : Prop :=
  ∀ value, Judged admits toValue value (check value)

namespace Faithful

variable {check : Value → Except (List Problem) α} {admits : Value → Prop} {toValue : α → Value}

theorem of_ok (h : Faithful check admits toValue) {a : α} (hcheck : check value = .ok a) :
    admits value ∧ toValue a = value := by
  have hjudged := h value
  rw [hcheck] at hjudged
  cases hjudged with
  | passed _ hadmits hsame => exact ⟨hadmits, hsame⟩

theorem of_error (h : Faithful check admits toValue) {problems : List Problem}
    (hcheck : check value = .error problems) : problems ≠ [] ∧ ¬ admits value := by
  have hjudged := h value
  rw [hcheck] at hjudged
  cases hjudged with
  | refused _ hsome hrefused => exact ⟨hsome, hrefused⟩

/-- What a `Faithful` check made of a value, it would make of it again. -/
theorem check_toValue (h : Faithful check admits toValue) {a : α} (hcheck : check value = .ok a) :
    check (toValue a) = .ok a := by
  rw [(h.of_ok hcheck).2, hcheck]

end Faithful

theorem not_exists_of_string? {p : Text.Given → Prop} (hstring : value.string? = some s)
    (hs : ¬ p s) : ¬ ∃ s, value.string? = some s ∧ p s := by
  rintro ⟨s', hs', hp⟩
  obtain rfl := Option.some.inj (hstring.symm.trans hs')
  exact hs hp

theorem not_exists_of_no_string {p : Text.Given → Prop} (hstring : value.string? = none) :
    ¬ ∃ s, value.string? = some s ∧ p s := by
  rintro ⟨s, hs, -⟩
  exact absurd (hstring.symm.trans hs) nofun

theorem faithful_checkText : Faithful checkText Value.IsText textValue := by
  intro value
  rw [checkText]
  cases hstring : value.string? with
  | some s => exact .passed s ⟨s, hstring⟩ (string?_eq_some_iff.1 hstring)
  | none =>
    refine .refused _ (List.cons_ne_nil _ _) ?_
    rintro ⟨s, hs⟩
    cases hstring.symm.trans hs

theorem faithful_checkFilled : Faithful checkFilled Value.IsFilled textValue := by
  intro value
  rw [checkFilled, checkText]
  cases hstring : value.string? with
  | some s =>
    by_cases hs : s.shown = ""
    · dsimp only
      rw [if_pos hs]
      exact .refused _ (List.cons_ne_nil _ _) (not_exists_of_string? hstring (not_not_intro hs))
    · dsimp only
      rw [if_neg hs]
      exact .passed s ⟨s, hstring, hs⟩ (string?_eq_some_iff.1 hstring)
  | none => exact .refused _ (List.cons_ne_nil _ _) (not_exists_of_no_string hstring)

theorem faithful_checkReference : Faithful checkReference Value.IsReference textValue := by
  intro value
  rw [checkReference, checkText]
  cases hstring : value.string? with
  | some s =>
    by_cases hs : isReference s.shown.toList = true
    · dsimp only
      rw [if_pos hs]
      exact .passed s ⟨s, hstring, isReference_iff_looksLikeReference.1 hs⟩
        (string?_eq_some_iff.1 hstring)
    · dsimp only
      rw [if_neg hs]
      rw [isReference_iff_looksLikeReference] at hs
      exact .refused _ (List.cons_ne_nil _ _) (not_exists_of_string? hstring hs)
  | none => exact .refused _ (List.cons_ne_nil _ _) (not_exists_of_no_string hstring)

theorem faithful_checkInterpreter :
    Faithful checkInterpreter Value.IsInterpreter choiceValue := by
  intro value
  rw [checkInterpreter.eq_def]
  split
  · rename_i argv
    exact .passed _ (.inr ⟨argv, rfl⟩) rfl
  · rename_i hcommand
    have hother (hfilled : ¬ value.IsFilled) : ¬ value.IsInterpreter := fun h =>
      h.elim hfilled fun ⟨argv, hvalue⟩ => hcommand argv hvalue
    cases hstring : value.string? with
    | some s =>
      by_cases hs : s.shown = ""
      · dsimp only
        rw [if_pos hs]
        exact .refused _ (List.cons_ne_nil _ _)
          (hother (not_exists_of_string? hstring (not_not_intro hs)))
      · dsimp only
        rw [if_neg hs]
        exact .passed _ (.inl ⟨s, hstring, hs⟩) (string?_eq_some_iff.1 hstring)
    | none => exact .refused _ (List.cons_ne_nil _ _) (hother (not_exists_of_no_string hstring))

theorem faithful_checkTimeout :
    Faithful checkTimeout Value.IsTimeout fun n => .json (.number n) := by
  intro value
  rw [checkTimeout.eq_def]
  split
  · rename_i n
    have hadmits : Value.IsTimeout (.json (.number n)) ↔
        n.isInteger = true ∧ Number.lt (.ofInt 0) n = true := by
      constructor
      · rintro ⟨i, hvalue, hpositive⟩
        obtain rfl := Json.number.inj (Value.json.inj hvalue)
        exact ⟨Number.isInteger_iff.2 ⟨i, rfl⟩, Number.lt_ofInt_iff.2 hpositive⟩
      · rintro ⟨hinteger, hpositive⟩
        obtain ⟨i, rfl⟩ := Number.isInteger_iff.1 hinteger
        exact ⟨i, rfl, Number.lt_ofInt_iff.1 hpositive⟩
    by_cases hfits : n.isInteger = true ∧ Number.lt (.ofInt 0) n = true
    · rw [if_pos hfits.1, if_pos hfits.2]
      exact .passed n (hadmits.2 hfits) rfl
    · have hproblems : (if n.isInteger then [] else [Problem.notInteger])
          ++ (if Number.lt (.ofInt 0) n then [] else [.notPositive]) ≠ [] := by
        intro hnone
        obtain ⟨hinteger, hpositive⟩ := List.append_eq_nil_iff.1 hnone
        refine hfits ⟨?_, ?_⟩
        · by_contra h
          rw [if_neg h] at hinteger
          exact absurd hinteger (List.cons_ne_nil _ _)
        · by_contra h
          rw [if_neg h] at hpositive
          exact absurd hpositive (List.cons_ne_nil _ _)
      dsimp only
      rw [if_neg hproblems]
      exact .refused _ hproblems (mt hadmits.1 hfits)
  · rename_i hother
    refine .refused _ (List.cons_ne_nil _ _) ?_
    rintro ⟨i, hvalue, -⟩
    exact hother _ hvalue

theorem faithful_checkEventLog : Faithful checkEventLog Value.IsEventLog .eventLog := by
  intro value
  rw [checkEventLog.eq_def]
  split
  · rename_i path
    exact .passed path ⟨path, rfl⟩ rfl
  · rename_i hother
    exact .refused _ (List.cons_ne_nil _ _) fun ⟨path, hvalue⟩ => hother path hvalue

end Checks

/-! ## Options that are accepted -/

section Accepted

variable {α : Type} {given : List (String × Value)} {name : String}
  {check : Value → Except (List Problem) α} {admits : Value → Prop} {toValue : α → Value}

/-- Options are accepted by `resolveFields` if each of their fields is. -/
theorem resolveFields_eq_ok_iff {options : Options} :
    resolveFields given = .ok options ↔
      withDefault given "serverClass" checkReference Settings.serverClass
          = .ok options.serverClass ∧
        withDefault given "serviceClass" checkReference Settings.serviceClass
          = .ok options.serviceClass ∧
        withDefault given "serverScript" checkFilled Script.defaultTemplate
          = .ok options.serverScript ∧
        withDefault given "extraSetup" checkText "" = .ok options.extraSetup ∧
        optional given "interpreter" checkInterpreter = .ok options.interpreter ∧
        withDefault given "codeDir" checkFilled Settings.codeDirectory
          = .ok options.codeDirectory ∧
        optional given "handshakeTimeoutMs" checkTimeout = .ok options.handshakeTimeout ∧
        optional given "eventLog" checkEventLog = .ok options.eventLog := by
  have hmap {x : Except (List Issue) Text.Given} {f} :
      x.map Options.mk = .ok f ↔ ∃ a, x = .ok a ∧ Options.mk a = f := by
    cases x <;> simp [Except.map]
  simp only [resolveFields, also_eq_ok_iff, hmap]
  constructor
  · rintro ⟨_, _, ⟨_, _, ⟨_, _, ⟨_, _, ⟨_, _, ⟨_, _, ⟨_, _, ⟨_, hserver, rfl⟩, hservice, rfl⟩,
      hscript, rfl⟩, hsetup, rfl⟩, hinterpreter, rfl⟩, hdirectory, rfl⟩, htimeout, rfl⟩, hlog, rfl⟩
    exact ⟨hserver, hservice, hscript, hsetup, hinterpreter, hdirectory, htimeout, hlog⟩
  · rintro ⟨hserver, hservice, hscript, hsetup, hinterpreter, hdirectory, htimeout, hlog⟩
    exact ⟨_, _, ⟨_, _, ⟨_, _, ⟨_, _, ⟨_, _, ⟨_, _, ⟨_, _, ⟨_, hserver, rfl⟩, hservice, rfl⟩,
      hscript, rfl⟩, hsetup, rfl⟩, hinterpreter, rfl⟩, hdirectory, rfl⟩, htimeout, rfl⟩, hlog, rfl⟩

namespace Faithful

/-- A field that may be left out is accepted just if what is given for it is admitted by a
`Faithful` check. -/
theorem refusals_eq_nil_iff (h : Faithful check admits toValue) {found : Option Value} :
    refusals check found = [] ↔ ∀ value, found = some value → admits value := by
  cases found with
  | none => exact iff_of_true rfl nofun
  | some value =>
    rw [refusals]
    cases hcheck : check value with
    | ok a => exact iff_of_true rfl fun _ hvalue => Option.some.inj hvalue ▸ (h.of_ok hcheck).1
    | error problems =>
      obtain ⟨hsome, hrefused⟩ := h.of_error hcheck
      exact iff_of_false hsome fun hadmits => hrefused (hadmits value rfl)

theorem exists_optional (h : Faithful check admits toValue)
    (hadmits : ∀ value, find? name given = some value → admits value) :
    ∃ found, optional given name check = .ok found := by
  rw [optional]
  cases hfound : find? name given with
  | none => exact ⟨none, rfl⟩
  | some value =>
    dsimp only
    cases hcheck : check value with
    | ok a => exact ⟨some a, rfl⟩
    | error problems => exact absurd (hadmits value hfound) (h.of_error hcheck).2

/-- What `optional` accepts was admitted, and it is as it was given. -/
theorem of_optional (h : Faithful check admits toValue) {found : Option α}
    (hfound : optional given name check = .ok found) :
    found.map toValue = find? name given ∧
      (∀ value, find? name given = some value → admits value) ∧
      ∀ a ∈ found, check (toValue a) = .ok a := by
  rw [optional] at hfound
  cases hvalue : find? name given with
  | none =>
    rw [hvalue] at hfound
    obtain rfl := Except.ok.inj hfound
    refine ⟨rfl, ?_, ?_⟩ <;> rintro _ ⟨⟩
  | some value =>
    rw [hvalue] at hfound
    dsimp only at hfound
    cases hcheck : check value with
    | error problems =>
      rw [hcheck] at hfound
      cases hfound
    | ok a =>
      rw [hcheck] at hfound
      obtain rfl := Except.ok.inj hfound
      obtain ⟨hadmits, hsame⟩ := h.of_ok hcheck
      refine ⟨congrArg some hsame, fun _ hsame => Option.some.inj hsame ▸ hadmits, fun b hb => ?_⟩
      obtain rfl := Option.some.inj hb
      exact h.check_toValue hcheck

/-- What `optional` accepted would be accepted again. -/
theorem optional_again {again : List (String × Value)} {found : Option α}
    (hcheck : ∀ a ∈ found, check (toValue a) = .ok a)
    (hagain : find? name again = found.map toValue) :
    optional again name check = .ok found := by
  rw [optional, hagain]
  cases found with
  | none => rfl
  | some a =>
    dsimp only [Option.map_some]
    rw [hcheck a rfl]

end Faithful

theorem withDefault_eq_ok_iff {default a : α} :
    withDefault given name check default = .ok a ↔
      ∃ found, optional given name check = .ok found ∧ found.getD default = a := by
  rw [withDefault]
  cases optional given name check <;> simp [Except.map]

namespace Faithful

theorem exists_withDefault (h : Faithful check admits toValue) (default : α)
    (hadmits : ∀ value, find? name given = some value → admits value) :
    ∃ a, withDefault given name check default = .ok a :=
  let ⟨found, hfound⟩ := h.exists_optional hadmits
  ⟨found.getD default, withDefault_eq_ok_iff.2 ⟨found, hfound, rfl⟩⟩

/-- What `withDefault` accepts was admitted, and it is as it was given, or is the default. -/
theorem of_withDefault (h : Faithful check admits toValue) {default a : α}
    (ha : withDefault given name check default = .ok a)
    (hdefault : check (toValue default) = .ok default) :
    some (toValue a) = (find? name given).or (some (toValue default)) ∧
      (∀ value, find? name given = some value → admits value) ∧ check (toValue a) = .ok a := by
  obtain ⟨found, hfound, rfl⟩ := withDefault_eq_ok_iff.1 ha
  obtain ⟨hsame, hadmits, hagain⟩ := h.of_optional hfound
  refine ⟨?_, hadmits, ?_⟩
  · rw [← hsame]
    cases found <;> rfl
  · cases found with
    | none => exact hdefault
    | some a => exact hagain a rfl

theorem withDefault_again {again : List (String × Value)} {default a : α}
    (hcheck : check (toValue a) = .ok a) (hagain : find? name again = some (toValue a)) :
    withDefault again name check default = .ok a := by
  refine withDefault_eq_ok_iff.2 ⟨some a, ?_, rfl⟩
  exact optional_again (fun b hb => Option.some.inj hb ▸ hcheck) hagain

end Faithful

end Accepted

/-! ### Defaults

Every default passes the check of its field. -/

section Defaults

variable {s : Text.Given}

theorem checkText_textValue (s : Text.Given) : checkText (textValue s) = .ok s := by
  cases s <;> rfl

theorem checkFilled_textValue (h : s.shown ≠ "") : checkFilled (textValue s) = .ok s := by
  rw [checkFilled, checkText_textValue]
  exact if_neg h

theorem checkReference_textValue (h : isReference s.shown.toList = true) :
    checkReference (textValue s) = .ok s := by
  rw [checkReference, checkText_textValue]
  exact if_pos h

theorem defaultTemplate_ne_empty : Script.defaultTemplate ≠ "" := by
  decide

theorem codeDirectory_ne_empty : Settings.codeDirectory ≠ "" := by
  decide

end Defaults

section Resolving

variable {given : List (String × Value)} {options : Options} {field : Field}

/-- Options that `resolveFields` accepts have for every field what it is `resolved` to. -/
theorem value?_of_resolveFields (h : resolveFields given = .ok options) (field : Field) :
    options.value? field = field.resolved given := by
  obtain ⟨hserver, hservice, hscript, hsetup, hinterpreter, hdirectory, htimeout, hlog⟩ :=
    resolveFields_eq_ok_iff.1 h
  cases field with
  | serverClass =>
    exact (faithful_checkReference.of_withDefault hserver
      (checkReference_textValue isReference_serverClass)).1
  | serviceClass =>
    exact (faithful_checkReference.of_withDefault hservice
      (checkReference_textValue isReference_serviceClass)).1
  | serverScript =>
    exact (faithful_checkFilled.of_withDefault hscript
      (checkFilled_textValue defaultTemplate_ne_empty)).1
  | extraSetup => exact (faithful_checkText.of_withDefault hsetup (checkText_textValue "")).1
  | interpreter =>
    exact (faithful_checkInterpreter.of_optional hinterpreter).1.trans Option.or_none.symm
  | codeDirectory =>
    exact (faithful_checkFilled.of_withDefault hdirectory
      (checkFilled_textValue codeDirectory_ne_empty)).1
  | handshakeTimeout =>
    exact (faithful_checkTimeout.of_optional htimeout).1.trans Option.or_none.symm
  | eventLog => exact (faithful_checkEventLog.of_optional hlog).1.trans Option.or_none.symm

/-- If nothing is given that `Misfits` a field, the options are accepted. -/
theorem exists_resolveFields (h : ∀ field : Field, ¬ field.Misfits given) :
    ∃ options, resolveFields given = .ok options := by
  have hadmits (field : Field) (value : Value) (hvalue : find? field.name given = some value) :
      field.Admits value := by
    by_contra hrefused
    exact h field ⟨value, hvalue, hrefused⟩
  obtain ⟨_, hserver⟩ := faithful_checkReference.exists_withDefault Settings.serverClass
    (hadmits .serverClass)
  obtain ⟨_, hservice⟩ := faithful_checkReference.exists_withDefault Settings.serviceClass
    (hadmits .serviceClass)
  obtain ⟨_, hscript⟩ := faithful_checkFilled.exists_withDefault Script.defaultTemplate
    (hadmits .serverScript)
  obtain ⟨_, hsetup⟩ := faithful_checkText.exists_withDefault "" (hadmits .extraSetup)
  obtain ⟨_, hinterpreter⟩ := faithful_checkInterpreter.exists_optional (hadmits .interpreter)
  obtain ⟨_, hdirectory⟩ := faithful_checkFilled.exists_withDefault Settings.codeDirectory
    (hadmits .codeDirectory)
  obtain ⟨_, htimeout⟩ := faithful_checkTimeout.exists_optional (hadmits .handshakeTimeout)
  obtain ⟨_, hlog⟩ := faithful_checkEventLog.exists_optional (hadmits .eventLog)
  exact ⟨⟨_, _, _, _, _, _, _, _⟩, resolveFields_eq_ok_iff.2
    ⟨hserver, hservice, hscript, hsetup, hinterpreter, hdirectory, htimeout, hlog⟩⟩

/-- Options that `resolveFields` accepted are accepted again, as they are. -/
theorem resolveFields_entries (h : resolveFields given = .ok options) :
    resolveFields options.entries = .ok options := by
  obtain ⟨hserver, hservice, hscript, hsetup, hinterpreter, hdirectory, htimeout, hlog⟩ :=
    resolveFields_eq_ok_iff.1 h
  refine resolveFields_eq_ok_iff.2 ⟨?_, ?_, ?_, ?_, ?_, ?_, ?_, ?_⟩
  · exact Faithful.withDefault_again (faithful_checkReference.of_withDefault hserver
      (checkReference_textValue isReference_serverClass)).2.2 (find?_entries options .serverClass)
  · exact Faithful.withDefault_again (faithful_checkReference.of_withDefault hservice
      (checkReference_textValue isReference_serviceClass)).2.2 (find?_entries options .serviceClass)
  · exact Faithful.withDefault_again (faithful_checkFilled.of_withDefault hscript
      (checkFilled_textValue defaultTemplate_ne_empty)).2.2 (find?_entries options .serverScript)
  · exact Faithful.withDefault_again (checkText_textValue _) (find?_entries options .extraSetup)
  · exact Faithful.optional_again (faithful_checkInterpreter.of_optional hinterpreter).2.2
      (find?_entries options .interpreter)
  · exact Faithful.withDefault_again (faithful_checkFilled.of_withDefault hdirectory
      (checkFilled_textValue codeDirectory_ne_empty)).2.2 (find?_entries options .codeDirectory)
  · exact Faithful.optional_again (faithful_checkTimeout.of_optional htimeout).2.2
      (find?_entries options .handshakeTimeout)
  · exact Faithful.optional_again (faithful_checkEventLog.of_optional hlog).2.2
      (find?_entries options .eventLog)

end Resolving

/-! ## Issues by fields -/

section Misfits

variable {given : List (String × Value)} {field : Field}

/-- What a `Field` has against what is found for it. -/
def Field.refusals : Field → Option Value → List Problem
  | .serverClass | .serviceClass => Options.refusals checkReference
  | .serverScript | .codeDirectory => Options.refusals checkFilled
  | .extraSetup => Options.refusals checkText
  | .interpreter => Options.refusals checkInterpreter
  | .handshakeTimeout => Options.refusals checkTimeout
  | .eventLog => Options.refusals checkEventLog

theorem complaints_eq_map (given : List (String × Value)) :
    complaints given
      = Field.all.map fun field => (field.name, field.refusals (find? field.name given)) := rfl

theorem Field.refusals_eq_nil_iff {found : Option Value} :
    field.refusals found = [] ↔ ∀ value, found = some value → field.Admits value := by
  cases field with
  | serverClass | serviceClass => exact faithful_checkReference.refusals_eq_nil_iff
  | serverScript | codeDirectory => exact faithful_checkFilled.refusals_eq_nil_iff
  | extraSetup => exact faithful_checkText.refusals_eq_nil_iff
  | interpreter => exact faithful_checkInterpreter.refusals_eq_nil_iff
  | handshakeTimeout => exact faithful_checkTimeout.refusals_eq_nil_iff
  | eventLog => exact faithful_checkEventLog.refusals_eq_nil_iff

theorem Field.misfits_iff :
    field.Misfits given ↔ field.refusals (find? field.name given) ≠ [] := by
  rw [Ne, Field.refusals_eq_nil_iff, not_forall]
  exact exists_congr fun value => Classical.not_imp.symm

instance : DecidablePred (Field.Misfits given) :=
  fun _ => decidable_of_iff _ Field.misfits_iff.symm

/-- The fields for which something is given that `Misfits` them, in the order of the schema. -/
def misfits (given : List (String × Value)) : List Field :=
  Field.all.filter fun field => field.Misfits given

/-- Whatever is given under names that no field has fits, and so does nothing. -/
example : misfits [("color", .foreign .symbol), ("extraSetup", .json .null),
    ("serverScript", .foreign .nothing), ("codeDir", .json (.string ""))]
      = [.extraSetup, .codeDirectory] := by decide

theorem misfits_eq_nil_iff : misfits given = [] ↔ ∀ field : Field, ¬ field.Misfits given := by
  rw [misfits, List.filter_eq_nil_iff]
  exact ⟨fun h field hmisfit => h field (mem_all field) (decide_eq_true hmisfit),
    fun h field _ hmisfit => h field (of_decide_eq_true hmisfit)⟩

end Misfits

/-! ### What an issue is about -/

section Headings

/-- What stands before the colon of a `text`. -/
def heading (text : String) : String :=
  String.ofList (text.toList.takeWhile (· ≠ ':'))

/-- An `Issue` with a field starts with the name of the field. -/
theorem heading_text (field : Field) (problem : Problem) :
    heading (Issue.text ⟨some field.name, problem⟩) = field.name := by
  have hcolon : ':' ∉ field.name.toList := by
    cases field <;> decide
  have hname : ∀ c ∈ field.name.toList, c ≠ ':' := fun c hc heq => hcolon (heq ▸ hc)
  have htext : (Issue.text ⟨some field.name, problem⟩).toList
      = field.name.toList ++ ':' :: ' ' :: problem.message.toList := by
    rw [Issue.text, Option.getD_some, String.toList_append, String.toList_append, List.append_assoc]
    rfl
  rw [heading, htext, List.takeWhile_append_of_pos (by simpa using hname),
    List.takeWhile_cons_of_neg (by simp), List.append_nil, String.ofList_toList]

/-- A block of one element, before a list without it, is that element without repetitions. -/
theorem eraseDups_replicate_append {α : Type} [BEq α] [LawfulBEq α] {a : α} {rest : List α}
    (n : Nat) (h : a ∉ rest) :
    (List.replicate n a ++ rest).eraseDups = (if n = 0 then [] else [a]) ++ rest.eraseDups := by
  cases n with
  | zero => rfl
  | succ n =>
    have hblock : (List.replicate n a).filter (fun b => !b == a) = [] := by
      simp
    have hrest : rest.filter (fun b => !b == a) = rest :=
      List.filter_eq_self.2 fun b hb => by
        have hba : b ≠ a := fun hba => h (hba ▸ hb)
        simp [hba]
    rw [List.replicate_succ, List.cons_append, List.eraseDups_cons, List.filter_append, hblock,
      List.nil_append, hrest]
    rfl

/-- Blocks of different elements, without repetitions, are the elements whose blocks are not
empty. -/
theorem eraseDups_flatMap_replicate {α β : Type} [BEq β] [LawfulBEq β] (name : α → β)
    (size : α → Nat) {fields : List α} (h : (fields.map name).Nodup) :
    (fields.flatMap fun field => List.replicate (size field) (name field)).eraseDups
      = (fields.filter fun field => size field ≠ 0).map name := by
  induction fields with
  | nil => rfl
  | cons field fields ih =>
    obtain ⟨hfresh, hrest⟩ := List.nodup_cons.1 h
    have hnot : name field ∉
        fields.flatMap fun field => List.replicate (size field) (name field) := by
      intro hmem
      obtain ⟨other, hother, hmem⟩ := List.mem_flatMap.1 hmem
      exact hfresh (List.mem_map.2 ⟨other, hother, (List.eq_of_mem_replicate hmem).symm⟩)
    rw [List.flatMap_cons, eraseDups_replicate_append _ hnot, ih hrest]
    by_cases hsize : size field = 0
    · rw [if_pos hsize, List.filter_cons_of_neg (by simpa using hsize)]
      rfl
    · rw [if_neg hsize, List.filter_cons_of_pos (by simpa using hsize)]
      rfl

/-- The issues of `resolveFields` with a set of options are about the fields that do not admit what
is given. -/
theorem eraseDups_headings (given : List (String × Value)) :
    (((issuesOf (resolveFields given)).map Issue.text).map heading).eraseDups
      = (misfits given).map Field.name := by
  have hheadings : ((issuesOf (resolveFields given)).map Issue.text).map heading
      = Field.all.flatMap fun field =>
          List.replicate (field.refusals (find? field.name given)).length field.name := by
    rw [issuesOf_resolveFields, complaints_eq_map, List.flatMap_map, List.map_flatMap,
      List.map_flatMap]
    refine List.flatMap_congr fun field _ => ?_
    rw [List.map_map, List.map_map, ← List.map_const']
    exact List.map_congr_left fun problem _ => heading_text field problem
  rw [hheadings, eraseDups_flatMap_replicate _ _ nodup_names, misfits]
  refine congrArg (List.map Field.name) (List.filter_congr fun field _ => ?_)
  rw [decide_eq_decide, Field.misfits_iff, Ne, List.length_eq_zero_iff]

end Headings

/-- Resolving options by `resolve` keeps to the schema. If a field does not admit what is given for
it, it fails, and its issues are about just these fields, in the order in which the fields are
declared. Otherwise it has for every field what is given for it, or else its default where it has
one, and nothing beyond that; and it makes the same of that again. -/
theorem resolution_keeps_to_schema (given : List (String × Value)) :
    (misfits given ≠ [] ∧ ∃ texts : List String,
        resolve (.fields given) = .error (.invalidOptions (texts.map .string)) ∧
          (texts.map heading).eraseDups = (misfits given).map Field.name) ∨
      (misfits given = [] ∧ ∃ options, resolve (.fields given) = .ok options ∧
        options.entries = (Field.all.filterMap fun field =>
          (field.resolved given).map (field.name, ·)) ∧
        resolve (.fields options.entries) = .ok options) := by
  have hissues := eraseDups_headings given
  cases hresolved : resolveFields given with
  | ok options =>
    refine .inr ⟨?_, options, ?_, ?_, ?_⟩
    · rw [hresolved] at hissues
      exact List.map_eq_nil_iff.1 hissues.symm
    · rw [resolve, check, hresolved]
    · exact List.filterMap_congr fun field _ => by rw [value?_of_resolveFields hresolved]
    · rw [resolve, check, resolveFields_entries hresolved]
  | error issues =>
    refine .inl ⟨?_, issues.map Issue.text, ?_, ?_⟩
    · intro hnone
      obtain ⟨options, haccepted⟩ := exists_resolveFields (misfits_eq_nil_iff.1 hnone)
      cases hresolved.symm.trans haccepted
    · rw [resolve, check, hresolved, List.map_map]
      rfl
    · rw [hresolved] at hissues
      exact hissues

/-- A `half` that stands alone in a string is kept as it was given. -/
example : (resolveFields [("extraSetup", .json (.loose [.char 'x', .half 0xd800]))]).map
    Options.extraSetup = .ok (.loose [.char 'x', .half 0xd800]) := rfl

end Options

end Outpost

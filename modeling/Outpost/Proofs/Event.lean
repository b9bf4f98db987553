import Outpost.Event
import Outpost.Proofs.Json.RoundTrip

/-!
# Events that read back

An event is read from the fields that it is shown as, in whatever order they stand, and fields that
it does not have are not there (`ofJson?_of_perm`). What it is shown as can be read again if its
numbers and its texts can (`Event.Sound`).

## Contents

* `Json.lookup_eq_some_iff`, `Json.lookup_of_perm`: fields without repeated keys.
* `Event.fields`, `Event.Sound`, `Event.ofJson?_toJson`, `Event.ofJson?_of_perm`,
  `Event.mkObject_of_perm`, `Event.writable_of_perm`.
-/

namespace Outpost

namespace Json

/-! ## Fields -/

variable {fields others : List (String × Json)}

theorem lookup_eq_some_iff (hkeys : (fields.map Prod.fst).Nodup) (key : String) (value : Json) :
    lookup key fields = some value ↔ (key, value) ∈ fields := by
  induction fields with
  | nil => simp [lookup]
  | cons field fields ih =>
    obtain ⟨k, v⟩ := field
    rw [List.map_cons, List.nodup_cons] at hkeys
    obtain ⟨hnew, hrest⟩ := hkeys
    rw [lookup]
    by_cases hkey : k = key
    · subst hkey
      have hnone : (k, value) ∉ fields := fun hmem => hnew (List.mem_map.2 ⟨_, hmem, rfl⟩)
      simp [hnone, eq_comm]
    · simp [hkey, Ne.symm hkey, ih hrest]

/-- The order of `fields` makes no difference for what `lookup` finds under a key. -/
theorem lookup_of_perm (hkeys : (fields.map Prod.fst).Nodup) (h : others.Perm fields)
    (key : String) : lookup key others = lookup key fields := by
  have hothers : (others.map Prod.fst).Nodup := (h.map Prod.fst).nodup_iff.2 hkeys
  ext value
  rw [lookup_eq_some_iff hkeys, lookup_eq_some_iff hothers, h.mem_iff]

theorem lookup_of_not_mem {key : String} (h : key ∉ fields.map Prod.fst) :
    lookup key fields = none := by
  induction fields with
  | nil => rfl
  | cons field fields ih =>
    obtain ⟨k, v⟩ := field
    obtain ⟨hkey, hrest⟩ := not_or.1 (mt List.mem_cons.2 h)
    rw [lookup, if_neg (Ne.symm hkey), ih hrest]

theorem filter_of_not_mem {key : String} (h : key ∉ fields.map Prod.fst) :
    (fields.filter fun field => field.1 ≠ key) = fields := by
  refine List.filter_eq_self.2 fun field hfield => decide_eq_true fun heq => h ?_
  exact List.mem_map.2 ⟨field, hfield, heq⟩

/-- A field in front of all others. -/
theorem cons_filter_perm (hkeys : (fields.map Prod.fst).Nodup) {key : String} {value : Json}
    (h : (key, value) ∈ fields) :
    ((key, value) :: fields.filter fun field => field.1 ≠ key).Perm fields := by
  induction fields with
  | nil => exact absurd h List.not_mem_nil
  | cons field fields ih =>
    rw [List.map_cons, List.nodup_cons] at hkeys
    obtain ⟨hnew, hrest⟩ := hkeys
    rcases List.mem_cons.1 h with rfl | hmem
    · rw [List.filter_cons_of_neg (by simp), filter_of_not_mem hnew]
    · have hkey : field.1 ≠ key := fun heq => hnew (heq ▸ List.mem_map_of_mem hmem)
      rw [List.filter_cons_of_pos (by simpa using hkey)]
      exact (List.Perm.swap field (key, value) _).trans ((ih hrest hmem).cons field)

theorem lookup_append (key : String) (fields others : List (String × Json)) :
    lookup key (fields ++ others) = (lookup key fields).or (lookup key others) := by
  induction fields with
  | nil => rfl
  | cons field fields ih =>
    obtain ⟨k, v⟩ := field
    rw [List.cons_append, lookup, lookup]
    split
    · rfl
    · exact ih

theorem lookup_fieldOf (key other : String) (value : Option Json) :
    lookup key (fieldOf other value) = if other = key then value else none := by
  cases value with
  | none => simp [fieldOf, lookup]
  | some value => rfl

/-- Fields whose keys are no `index?` stand `inOrder`, in the order in which they were set. -/
theorem inOrder_of_index? (h : ∀ field ∈ fields, index? field.1 = none) :
    inOrder fields = fields := by
  refine List.mergeSort_of_pairwise (List.pairwise_of_forall_mem_list fun a ha b hb => ?_)
  rw [precedes, h a ha, h b hb]

end Json

/-! ## Texts -/

theorem Text.Loose.ofString_of_whole? {text : Text.Loose} {whole : String}
    (h : text.whole? = some whole) : Text.Loose.ofString whole = text := by
  rw [Text.Loose.whole?] at h
  split at h
  · rename_i hchars
    obtain rfl := Option.some.inj h
    rw [Text.Loose.ofString, Text.Loose.shown, String.toList_ofList, List.map_map]
    have hpiece : ∀ piece ∈ text, (Text.Piece.char ∘ Text.Piece.shown) piece = id piece := by
      intro piece hmem
      have hchar : piece.isChar = true := List.all_eq_true.1 hchars piece hmem
      cases piece with
      | char c => rfl
      | half unit => exact absurd hchar Bool.false_ne_true
    rw [List.map_congr_left hpiece, List.map_id]
  · cases h

theorem Number.toInt?_ofInt (n : Int) : (Number.ofInt n).toInt? = some n := by
  have hvalue : (Dyadic.ofInt n).toRat = n := Dyadic.toRat_intCast n
  rw [ofInt, toInt?, hvalue, Rat.den_intCast, Rat.num_intCast, if_pos rfl]

namespace Event

theorem textOf?_ofLoose (text : Text.Loose) : textOf? (.ofLoose text) = some text := by
  rw [Json.ofLoose]
  cases hwhole : text.whole? with
  | none => rfl
  | some whole =>
    show some (Text.Loose.ofString whole) = some text
    rw [Text.Loose.ofString_of_whole? hwhole]

/-! ## Events and their fields -/

/-- The fields that an event is shown as by `toJson`. -/
def fields (event : Event) : List (String × Json) :=
  [("ts", .number event.time), ("event", .string event.kind.name),
    ("deploymentId", .ofLoose event.deployment), ("machine", .ofLoose event.machine)]
    ++ Json.fieldOf "remotePort" (event.remotePort.map Json.int)
    ++ Json.fieldOf "localPort" (event.localPort.map Json.int)
    ++ Json.fieldOf "reason" (event.reason.map Json.ofLoose)
    ++ Json.fieldOf "exitCode" (event.exitCode.map fun code => Json.shown (code.map Json.int))

/-- An event as the program has it: its numbers are finite values of binary64, and its texts are
sequences of UTF-16 units. -/
structure Sound (event : Event) : Prop where
  time : ∃ x, event.time = .finite x ∧ Number.IsBinary64 x
  deployment : event.deployment.Sound
  machine : event.machine.Sound
  remotePort : ∀ port ∈ event.remotePort, Number.IsBinary64 (Dyadic.ofInt port)
  localPort : ∀ port ∈ event.localPort, Number.IsBinary64 (Dyadic.ofInt port)
  reason : ∀ reason ∈ event.reason, reason.Sound
  exitCode : ∀ code ∈ event.exitCode, ∀ n ∈ code, Number.IsBinary64 (Dyadic.ofInt n)

theorem Kind.ofName?_name (kind : Kind) : Kind.ofName? kind.name = some kind := by
  cases kind <;> decide

theorem optionalInteger_map_int (n : Option Int) : optionalInteger (n.map Json.int) = some n := by
  cases n with
  | none => rfl
  | some n => exact congrArg (Option.map some) (Number.toInt?_ofInt n)

theorem optionalText_map_ofLoose (text : Option Text.Loose) :
    optionalText (text.map Json.ofLoose) = some text := by
  cases text with
  | none => rfl
  | some text => exact congrArg (Option.map some) (textOf?_ofLoose text)

theorem optionalExitCode_map_shown (code : Option (Option Int)) :
    optionalExitCode (code.map fun code => Json.shown (code.map Json.int)) = some code := by
  cases code with
  | none => rfl
  | some code =>
    cases code with
    | none => rfl
    | some n => exact congrArg (Option.map fun code => some (some code)) (Number.toInt?_ofInt n)

/-- **An event is read by `ofJson?` from what `toJson` shows it as.** -/
theorem ofJson?_toJson (event : Event) : ofJson? event.toJson = some event := by
  have hfield (key : String) : event.toJson.field? key = Json.lookup key event.fields := rfl
  have hkind : textOf? (.string event.kind.name) = some (.ofString event.kind.name) := rfl
  have htime : numberOf? (.number event.time) = some event.time := rfl
  simp [ofJson?, hfield, fields, Json.lookup_append, Json.lookup_fieldOf, Json.lookup, htime, hkind,
    textOf?_ofLoose, Kind.ofName?_name, optionalInteger_map_int, optionalText_map_ofLoose,
    optionalExitCode_map_shown]

/-- The keys of an event, in the order of its `fields`. -/
theorem keys_sublist (event : Event) : (event.fields.map Prod.fst).Sublist
    ["ts", "event", "deploymentId", "machine", "remotePort", "localPort", "reason",
      "exitCode"] := by
  have hfield (key : String) (value : Option Json) :
      ((Json.fieldOf key value).map Prod.fst).Sublist [key] := by
    cases value with
    | none => exact List.nil_sublist _
    | some value => exact List.Sublist.refl _
  simp only [fields, List.map_append]
  exact (((List.Sublist.refl ["ts", "event", "deploymentId", "machine"]).append
    (hfield "remotePort" _)).append (hfield "localPort" _)).append (hfield "reason" _) |>.append
    (hfield "exitCode" _)

theorem nodup_keys (event : Event) : (event.fields.map Prod.fst).Nodup :=
  event.keys_sublist.nodup (by decide)

theorem index?_of_mem_fields {event : Event} :
    ∀ field ∈ event.fields, Json.index? field.1 = none := by
  have htable : ∀ key ∈ ["ts", "event", "deploymentId", "machine", "remotePort", "localPort",
      "reason", "exitCode"], Json.index? key = none := by decide
  exact fun field hfield => htable _ (event.keys_sublist.subset (List.mem_map_of_mem hfield))

section Perm

variable {event : Event} {others : List (String × Json)}

/-- The order of the `fields` makes no difference for `ofJson?`. -/
theorem ofJson?_of_perm (h : others.Perm event.fields) : ofJson? (.object others) = some event := by
  have hfield (key : String) : Json.field? key (.object others) = event.toJson.field? key :=
    Json.lookup_of_perm event.nodup_keys h key
  rw [← ofJson?_toJson event]
  simp only [ofJson?, hfield]

theorem inOrder_of_perm (h : others.Perm event.fields) : Json.inOrder others = others :=
  Json.inOrder_of_index? fun field hfield => index?_of_mem_fields field (h.mem_iff.1 hfield)

theorem nodup_of_perm (h : others.Perm event.fields) : (others.map Prod.fst).Nodup :=
  (h.map Prod.fst).nodup_iff.2 event.nodup_keys

theorem mkObject_of_perm (h : others.Perm event.fields) :
    Json.mkObject others = .object others := by
  rw [Json.mkObject_of_nodup (nodup_of_perm h), inOrder_of_perm h]

theorem writable_ofLoose {text : Text.Loose} (h : text.Sound) : Json.Writable (.ofLoose text) := by
  rw [Json.ofLoose]
  cases hwhole : text.whole? with
  | none => exact .loose h hwhole
  | some whole => exact .string whole

theorem writable_int {n : Int} (h : Number.IsBinary64 (Dyadic.ofInt n)) :
    Json.Writable (Json.int n) := .number h

theorem writable_of_mem_fieldOf {key : String} {value : Option Json}
    (h : ∀ v ∈ value, Json.Writable v) :
    ∀ field ∈ Json.fieldOf key value, Json.Writable field.2 := by
  cases value with
  | none => exact fun field hfield => absurd hfield List.not_mem_nil
  | some v => exact List.forall_mem_singleton.2 (h v rfl)

theorem writable_of_mem_fields (h : event.Sound) :
    ∀ field ∈ event.fields, Json.Writable field.2 := by
  obtain ⟨x, htime, hfinite⟩ := h.time
  have htimeField : Json.Writable (.number event.time) := by
    rw [htime]
    exact .number hfinite
  have hremotePort : ∀ v ∈ event.remotePort.map Json.int, Json.Writable v :=
    Option.forall_mem_map.2 fun port hport => writable_int (h.remotePort port hport)
  have hlocalPort : ∀ v ∈ event.localPort.map Json.int, Json.Writable v :=
    Option.forall_mem_map.2 fun port hport => writable_int (h.localPort port hport)
  have hreason : ∀ v ∈ event.reason.map Json.ofLoose, Json.Writable v :=
    Option.forall_mem_map.2 fun reason hmem => writable_ofLoose (h.reason reason hmem)
  have hexitCode : ∀ v ∈ event.exitCode.map fun code => Json.shown (code.map Json.int),
      Json.Writable v := by
    refine Option.forall_mem_map.2 fun code hcode => ?_
    cases code with
    | none => exact .null
    | some n => exact writable_int (h.exitCode _ hcode n rfl)
  simp only [fields, List.forall_mem_append, List.forall_mem_cons]
  exact ⟨⟨⟨⟨⟨htimeField, .string _, writable_ofLoose h.deployment, writable_ofLoose h.machine,
    fun field hfield => absurd hfield List.not_mem_nil⟩, writable_of_mem_fieldOf hremotePort⟩,
    writable_of_mem_fieldOf hlocalPort⟩, writable_of_mem_fieldOf hreason⟩,
    writable_of_mem_fieldOf hexitCode⟩

/-- What a `Sound` event is shown as can be read again. -/
theorem writable_of_perm (hsound : event.Sound) (h : others.Perm event.fields) :
    Json.Writable (.object others) :=
  .object (fun field hfield => writable_of_mem_fields hsound field (h.mem_iff.1 hfield))
    (nodup_of_perm h) (inOrder_of_perm h)

end Perm

end Event

end Outpost

import Outpost.Proofs.EventLog.Trimming

/-!
# How many entries a query finds

A limit may be any number, and its whole units count: with a limit of two and a half, two entries
are found. A limit that is not positive leaves nothing to be found. But one between zero and one,
which has no whole unit either, takes everything.

So a query finds no more entries than its limit says, and a greater limit only adds older entries,
with the exception of these fractions of an entry (`found_within_limit`).

## Contents

* `IsFraction`, `within`: fractions of an entry, and what a limit leaves of entries.
* `length_within_le_iff`, `prefix_within_iff`: when a limit is kept, and when a greater one leaves
  more.
* `Filter.upTo`, `carry_query_upTo`: what a query with a limit finds in a file.
* `found_within_limit`.
* `closedAt`, `twoLines`: a file of two entries.
-/

namespace Outpost

namespace EventLog

/-! ## Limits -/

/-- A limit is positive, but less than one entry. -/
def IsFraction (limit : Dyadic) : Prop := 0 < limit ∧ limit < 1

instance (limit : Dyadic) : Decidable (IsFraction limit) :=
  inferInstanceAs (Decidable (0 < limit ∧ limit < 1))

/-- What a `limit` leaves of `items`: as many of them as it has whole units, and a fraction all. -/
def within {α : Type} (limit : Dyadic) (items : List α) : List α :=
  if IsFraction limit then items else items.take ⌊limit.toRat⌋₊

section Within

variable {α : Type} {limit low high : Dyadic}

theorem isFraction_iff : IsFraction limit ↔ 0 < limit.toRat ∧ limit.toRat < 1 := by
  have hone : (1 : Dyadic).toRat = 1 := Dyadic.toRat_natCast 1
  rw [IsFraction, ← Dyadic.toRat_lt_toRat_iff, ← Dyadic.toRat_lt_toRat_iff, Dyadic.toRat_zero, hone]

/-- The whole units of a limit, of which a negative one has none. -/
theorem floor_le_max (limit : Rat) : (⌊limit⌋₊ : Rat) ≤ max 0 limit := by
  rcases le_total 0 limit with hlimit | hlimit
  · exact (Nat.floor_le hlimit).trans (le_max_right 0 limit)
  · rw [Nat.floor_of_nonpos hlimit, Nat.cast_zero]
    exact le_max_left 0 limit

theorem within_of_not_pos (h : ¬ 0 < limit) (items : List α) : within limit items = [] := by
  have hunits : ⌊limit.toRat⌋₊ = 0 := by
    rw [← Dyadic.toRat_lt_toRat_iff, Dyadic.toRat_zero, not_lt] at h
    exact Nat.floor_of_nonpos h
  rw [within, if_neg fun hfraction => h hfraction.1, hunits, List.take_zero]

theorem within_eq_take (h : ¬ IsFraction limit) (items : List α) :
    within limit items = items.take (Number.truncateDyadic limit).toNat := by
  rw [within, if_neg h, Number.toNat_truncateDyadic]

/-- The `newest` of some items, the last one first. -/
theorem reverse_newest (h : 0 < limit) (items : List α) :
    (newest (.finite limit) items).reverse = within limit items.reverse := by
  have hfraction : ⌊limit.toRat⌋₊ = 0 ↔ IsFraction limit := by
    rw [← Dyadic.toRat_lt_toRat_iff, Dyadic.toRat_zero] at h
    rw [Nat.floor_eq_zero, isFraction_iff, and_iff_right h]
  simp only [newest_finite, within, hfraction]
  split
  · rfl
  · rw [List.take_reverse]

theorem prefix_within (limit : Dyadic) (items : List α) : within limit items <+: items := by
  rw [within]
  split
  · exact List.prefix_rfl
  · exact List.take_prefix _ _

/-- A limit is kept unless it `IsFraction` and there are items at all. -/
theorem length_within_le_iff (items : List α) :
    ((within limit items).length : Rat) ≤ max 0 limit.toRat ↔
      (IsFraction limit → items = []) := by
  by_cases hfraction : IsFraction limit
  · -- all items are taken, and already one is too many
    rw [within, if_pos hfraction, imp_iff_right hfraction]
    obtain ⟨hpos, hone⟩ := isFraction_iff.1 hfraction
    rw [max_eq_right hpos.le]
    constructor
    · intro hlength
      have hfew : (items.length : Rat) < (1 : Nat) := by
        rw [Nat.cast_one]
        exact hlength.trans_lt hone
      exact List.eq_nil_of_length_eq_zero (Nat.lt_one_iff.1 (Nat.cast_lt.1 hfew))
    · rintro rfl
      exact hpos.le
  · rw [within, if_neg hfraction]
    refine iff_of_true ?_ fun h => absurd h hfraction
    exact (Nat.cast_le.2 (List.length_take_le _ _)).trans (floor_le_max limit.toRat)

/-- The greater limit `high` leaves the same items and perhaps more, unless the smaller one is a
fraction and the greater one is none and less than what there is. -/
theorem prefix_within_iff (h : low ≤ high) (items : List α) :
    within low items <+: within high items ↔
      (IsFraction low → 1 ≤ high → (items.length : Rat) ≤ high.toRat) := by
  by_cases hhigh : IsFraction high
  · -- the greater limit takes everything
    rw [within, within, if_pos hhigh]
    exact iff_of_true (prefix_within low items) fun _ hone => absurd hhigh.2 (Dyadic.not_le.2 hone)
  by_cases hlow : IsFraction low
  · -- the smaller limit takes everything, so the greater one has to be great enough for that
    have hpos : 0 < high.toRat :=
      (isFraction_iff.1 hlow).1.trans_le (Dyadic.toRat_le_toRat_iff.2 h)
    have hone : 1 ≤ high := by
      refine Dyadic.not_le.1 fun hbelow => hhigh ⟨?_, hbelow⟩
      rwa [← Dyadic.toRat_lt_toRat_iff, Dyadic.toRat_zero]
    rw [imp_iff_right hlow, imp_iff_right hone, within, if_pos hlow, within, if_neg hhigh,
      List.prefix_take_iff, and_iff_right List.prefix_rfl, Nat.le_floor_iff hpos.le]
  · rw [within, if_neg hlow, within, if_neg hhigh]
    refine iff_of_true ?_ fun hfraction => absurd hfraction hlow
    exact List.take_prefix_take_left (Nat.floor_mono (Dyadic.toRat_le_toRat_iff.2 h))

end Within

/-! ## Queries with a limit -/

/-- A `Filter` with a limit in place of its own. -/
def Filter.upTo (filter : Filter) (limit : Dyadic) : Filter :=
  { filter with limit := some (.finite limit) }

section Query

variable {log : EventLog} {mishaps : Mishaps}

theorem accepts_upTo (filter : Filter) (limit : Dyadic) :
    (filter.upTo limit).accepts = filter.accepts := rfl

/-- What a query with room for something finds among lines by `select`. -/
theorem select_upTo {limit : Dyadic} (h : 0 < limit) (filter : Filter) (lines : List (List Char)) :
    select (filter.upTo limit) (.finite limit) lines
      = within limit (matching filter lines).reverse := by
  rw [select, reverse_newest h, accepts_upTo, filter_accepts, matching]

/-- A `query` with a limit finds what the limit leaves of the entries that match its filter. One
without room for anything finds nothing, and does not look. -/
theorem carry_query_upTo (filter : Filter) (limit : Dyadic) (file : File) :
    carry log mishaps (query log (filter.upTo limit)).outcome file
      = (if 0 < limit then
          (file.lines mishaps).map fun lines => within limit (matching filter lines).reverse
        else .ok [], file) := by
  by_cases hroom : 0 < limit
  · have heffective : Number.lt (.ofInt 0) (filter.upTo limit).effectiveLimit = true :=
      decide_eq_true hroom
    have hselect : select (filter.upTo limit) (filter.upTo limit).effectiveLimit
        = fun lines => within limit (matching filter lines).reverse :=
      funext (select_upTo hroom filter)
    rw [carry_query_of_room heffective, hselect, if_pos hroom]
  · have hguard : Number.le (filter.upTo limit).effectiveLimit (.ofInt 0) = true := by
      rw [Number.le, Bool.not_eq_true']
      exact decide_eq_false hroom
    rw [query, if_neg hroom]
    simp only [hguard, if_true]
    rfl

end Query

/-- **A query finds no more than its limit says, unless that is a fraction of an entry.** On a log
of any content, a `query` finds the newest of the events that match its filter: as many as its limit
has whole units, and all of them if it is a fraction. So the limit is kept exactly if it is no
fraction or nothing matches. And a greater limit takes nothing away, but where it replaces a
fraction, is none itself, and is less than what matches. Where the log cannot be read, a query with
room for something fails as reading did. -/
theorem found_within_limit (log : EventLog) (mishaps : Mishaps) (file : File) (filter : Filter) :
    let ask (limit : Dyadic) := carry log mishaps (query log (filter.upTo limit)).outcome file
    (∀ fault, file.lines mishaps = .error fault →
      ∀ limit, ask limit = (if 0 < limit then .error fault else .ok [], file)) ∧
    ∀ lines, file.lines mishaps = .ok lines →
      let all := (matching filter lines).reverse
      (∀ limit, ask limit = (.ok (within limit all), file)) ∧
      (∀ limit, ((within limit all).length : Rat) ≤ max 0 limit.toRat ↔
        (IsFraction limit → all = [])) ∧
      ∀ low high, low ≤ high →
        (within low all <+: within high all ↔
          (IsFraction low → 1 ≤ high → (all.length : Rat) ≤ high.toRat)) := by
  intro ask
  have hask (limit : Dyadic) : ask limit = _ := carry_query_upTo filter limit file
  refine ⟨fun fault hfault limit => ?_, fun lines hlines => ?_⟩
  · rw [hask, hfault]
    rfl
  · intro all
    refine ⟨fun limit => ?_, fun limit => length_within_le_iff all,
      fun low high hraise => prefix_within_iff hraise all⟩
    rw [hask, hlines]
    split
    · rfl
    · rename_i hnone
      rw [within_of_not_pos hnone]

/-! ## Two entries -/

/-- The `Recording` that a deployment was closed, at some time. -/
def closedAt (time : Nat) : Recording where
  event :=
    { time := .ofNat time
      kind := .closed
      deployment := .ofString "a"
      machine := .ofString "m"
      remotePort := none
      localPort := none
      reason := none
      exitCode := none }
  fields := [("deploymentId", .string "a"), ("machine", .string "m"), ("event", .string "closed")]
  now := .ofNat time

theorem faithful_closedAt {time : Nat} (h : time < 2 ^ 53) : (closedAt time).Faithful := by
  refine ⟨⟨⟨_, rfl, Number.isBinary64_ofInt h⟩, Text.Loose.sound_ofString _,
    Text.Loose.sound_ofString _, nofun, nofun, nofun, nofun⟩, .inr (.cons _ ?_)⟩
  exact @List.perm_append_comm _ [_, _] [_]

/-- A `File` of two lines, each of an event. -/
def twoLines : File := some (Text.encodeChars (endedLines [(closedAt 1).line, (closedAt 2).line]))

theorem lines_twoLines : twoLines.lines {} = .ok [(closedAt 1).line, (closedAt 2).line] := by
  have htext : twoLines.text = endedLines [(closedAt 1).line, (closedAt 2).line] := by
    rw [File.text, twoLines, Option.getD_some, Text.decodeBytes_encodeChars]
  rw [File.lines, htext, filledLines_endedLines]
  intro line hline
  simp only [List.mem_cons, List.not_mem_nil, or_false] at hline
  rcases hline with rfl | rfl
  · exact isLine_entryLine _ _
  · exact isLine_entryLine _ _

theorem matching_twoLines :
    (matching {} [(closedAt 1).line, (closedAt 2).line]).reverse
      = [(closedAt 2).event, (closedAt 1).event] := by
  have hfirst := Recording.parse_line (faithful_closedAt (show 1 < 2 ^ 53 by decide))
  have hsecond := Recording.parse_line (faithful_closedAt (show 2 < 2 ^ 53 by decide))
  simp [matching, hfirst, hsecond, ← accepts_iff, Filter.accepts]

/-- A number of halves. -/
def halves (n : Int) : Dyadic := Dyadic.ofIntWithPrec n 1

/-- With a limit of one and a half, one entry is found; with two and a half, the older one too. -/
theorem one_of_two_found :
    let ask (limit : Dyadic) :=
      carry ⟨"log"⟩ {} (query ⟨"log"⟩ (Filter.upTo {} limit)).outcome twoLines
    let newer := (closedAt 2).event
    let older := (closedAt 1).event
    twoLines.lines {} = .ok [(closedAt 1).line, (closedAt 2).line] ∧ halves 3 ≤ halves 5 ∧
    ask (halves 3) = (.ok [newer], twoLines) ∧ ask (halves 5) = (.ok [newer, older], twoLines) ∧
    ([newer].length : Rat) ≤ max 0 (halves 3).toRat ∧ [newer] <+: [newer, older] := by
  intro ask newer older
  have hlines := lines_twoLines
  have hraise : halves 3 ≤ halves 5 := by decide
  have hwhole : ¬ IsFraction (halves 3) := by decide
  obtain ⟨hask, hkeeps, hextends⟩ := (found_within_limit ⟨"log"⟩ {} twoLines {}).2 _ hlines
  rw [matching_twoLines] at hask hkeeps hextends
  have hone : within (halves 3) [newer, older] = [newer] := within_eq_take hwhole _
  have htwo : within (halves 5) [newer, older] = [newer, older] := within_eq_take (by decide) _
  have hkept := (hkeeps (halves 3)).2 fun hfraction => absurd hfraction hwhole
  have honward := (hextends _ _ hraise).2 fun hfraction => absurd hfraction hwhole
  rw [hone] at hkept
  rw [hone, htwo] at honward
  exact ⟨hlines, hraise, (hask _).trans (by rw [hone]), (hask _).trans (by rw [htwo]), hkept,
    honward⟩

/-- With a limit of a half, both entries are found, and with a limit of one, the newer one alone. -/
theorem two_found_within_half :
    let ask (limit : Dyadic) :=
      carry ⟨"log"⟩ {} (query ⟨"log"⟩ (Filter.upTo {} limit)).outcome twoLines
    let newer := (closedAt 2).event
    let older := (closedAt 1).event
    ask (halves 1) = (.ok [newer, older], twoLines) ∧
    ¬ ([newer, older].length : Rat) ≤ max 0 (halves 1).toRat ∧
    halves 1 ≤ halves 2 ∧ ask (halves 2) = (.ok [newer], twoLines) ∧ older ∉ [newer] := by
  intro ask newer older
  have hask (limit : Dyadic) (hroom : 0 < limit) :
      ask limit = (.ok (within limit [newer, older]), twoLines) := by
    refine (carry_query_upTo {} limit twoLines).trans ?_
    rw [if_pos hroom, lines_twoLines, Except.map, matching_twoLines]
  have hhalf : within (halves 1) [newer, older] = [newer, older] := if_pos (by decide)
  have hone : within (halves 2) [newer, older] = [newer] := within_eq_take (by decide) _
  refine ⟨(hask _ (by decide)).trans (by rw [hhalf]), ?_, by decide,
    (hask _ (by decide)).trans (by rw [hone]), ?_⟩
  · decide +kernel
  · rw [List.mem_singleton]
    intro hsame
    exact absurd (congrArg Event.time hsame) (by decide)

end EventLog

end Outpost

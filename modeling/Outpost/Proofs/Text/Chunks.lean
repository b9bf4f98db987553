import Outpost.Proofs.Text.Utf8

/-!
# Decoding in chunks

Bytes arrive in chunks, and a chunk may end inside the sequence of a character. Whoever decodes
chunk by chunk then sees broken sequences where there was one that is whole; wherever a chunk ends
between two sequences, nothing is lost.

Two pieces decode to more characters than the whole if a sequence is begun at the end of the first
and goes on in the second, and to the same characters if none is (`decodeBytes_append_cases`). So
the number of characters tells whether any boundary of any chunks is inside a sequence
(`flatMap_decodeBytes_eq_iff`).

## Contents

* `Cuts`, `Uncut`: boundaries inside a sequence, and chunks without any.
* `decodeBytes_append_cases`: two pieces. `length_decodeBytes_append_le`.
* `flatMap_decodeBytes_eq_iff`: any number of chunks.
-/

namespace Outpost

namespace Text

/-- Whether a sequence is begun at the end of the `first` piece and goes on in the `second`. -/
def Cuts (first second : Bytes) : Prop :=
  ∃ held b, held <:+ first ∧ second.head? = some b ∧ Continued held b

/-- Chunks none of whose boundaries `Cuts` a sequence. -/
def Uncut (chunks : List Bytes) : Prop :=
  ∀ before after, chunks = before ++ after → ¬ Cuts before.flatten after.flatten

/-! ## Sequences that are broken off -/

section Broken

variable {held : Bytes} {a b : UInt8}

/-- A sequence of `held` bytes begins with one that continues none. -/
theorem Continued.starts (h : Continued held b) (more : Bytes) : Starts (held ++ more) := by
  have hstarts {a : UInt8} {rest : Bytes} (ha : 0xc2 ≤ a.toNat) : Starts (a :: rest) := by
    intro x hx
    obtain rfl : a = x := Option.some.inj hx
    rw [Bool.eq_false_iff, Ne, continues_iff]
    omega
  cases h with
  | two ha | three ha | threeLast ha | four ha | fourThird ha | fourLast ha =>
    simp only [Bool.and_eq_true, decide_eq_true_eq, UInt8.le_iff_toNat_le, UInt8.reduceToNat] at ha
    exact hstarts (by omega)

/-- A first byte of two is no character of its own. -/
theorem leads_two (ha : (0xc2 ≤ a && a ≤ 0xdf) = true) : ¬ a < 0x80 := by
  simp only [Bool.and_eq_true, decide_eq_true_eq, UInt8.le_iff_toNat_le, UInt8.lt_iff_toNat_lt,
    UInt8.reduceToNat] at ha ⊢
  omega

/-- Nor is a first byte of three, which is none of two either. -/
theorem leads_three (ha : (0xe0 ≤ a && a ≤ 0xef) = true) :
    ¬ a < 0x80 ∧ ¬ (0xc2 ≤ a && a ≤ 0xdf) = true := by
  simp only [Bool.and_eq_true, decide_eq_true_eq, UInt8.le_iff_toNat_le, UInt8.lt_iff_toNat_lt,
    UInt8.reduceToNat] at ha ⊢
  omega

/-- Nor is a first byte of four, which is none of fewer. -/
theorem leads_four (ha : (0xf0 ≤ a && a ≤ 0xf4) = true) :
    ¬ a < 0x80 ∧ ¬ (0xc2 ≤ a && a ≤ 0xdf) = true ∧ ¬ (0xe0 ≤ a && a ≤ 0xef) = true := by
  simp only [Bool.and_eq_true, decide_eq_true_eq, UInt8.le_iff_toNat_le, UInt8.lt_iff_toNat_lt,
    UInt8.reduceToNat] at ha ⊢
  omega

/-- A sequence that is broken off becomes one `replacement`, and so it does with a byte more. -/
theorem Continued.decodeBytes_eq (h : Continued held b) :
    decodeBytes held = [replacement] ∧ ∃ c, decodeBytes (held ++ [b]) = [c] := by
  cases h with
  | two ha hb =>
    have hone := leads_two ha
    simp [decodeBytes, *]
  | three ha hb =>
    obtain ⟨hone, htwo⟩ := leads_three ha
    simp [decodeBytes, *]
  | threeLast ha hb hc =>
    obtain ⟨hone, htwo⟩ := leads_three ha
    simp [decodeBytes, *]
  | four ha hb =>
    obtain ⟨hone, htwo, hthree⟩ := leads_four ha
    simp [decodeBytes, *]
  | fourThird ha hb hc =>
    obtain ⟨hone, htwo, hthree⟩ := leads_four ha
    simp [decodeBytes, *]
  | fourLast ha hb hc hd =>
    obtain ⟨hone, htwo, hthree⟩ := leads_four ha
    simp [decodeBytes, *]

/-- A byte that goes on with a sequence becomes a `replacement` where none was begun. -/
theorem decodeBytes_of_continues (hb : continues b = true) (more : Bytes) :
    decodeBytes (b :: more) = replacement :: decodeBytes more := by
  rw [continues_iff] at hb
  have hlead (low : UInt8) (hlow : 0xc0 ≤ low.toNat) (high : UInt8) :
      ¬ (low ≤ b && b ≤ high) = true := by
    simp only [Bool.and_eq_true, decide_eq_true_eq, UInt8.le_iff_toNat_le]
    omega
  have hone : ¬ b < 0x80 := by
    simp only [UInt8.lt_iff_toNat_lt, UInt8.reduceToNat]
    omega
  have htwo := hlead 0xc2 (by decide) 0xdf
  have hthree := hlead 0xe0 (by decide) 0xef
  have hfour := hlead 0xf0 (by decide) 0xf4
  refine (decodeBytes.eq_def _).trans ?_
  simp only [hone, htwo, hthree, hfour, ↓reduceIte, Bool.false_eq_true]

end Broken

/-! ## Two pieces -/

/-- A piece that ends inside a sequence and one that goes on with it decode to more characters than
both together; any other two pieces decode to the same. -/
theorem decodeBytes_append_cases (first second : Bytes) :
    (Cuts first second ∧ (decodeBytes (first ++ second)).length
      < (decodeBytes first).length + (decodeBytes second).length) ∨
    (¬ Cuts first second ∧
      decodeBytes (first ++ second) = decodeBytes first ++ decodeBytes second) := by
  induction second generalizing first with
  | nil =>
    refine .inr ⟨?_, ?_⟩
    · rintro ⟨held, b, -, hb, -⟩
      exact absurd hb nofun
    · rw [List.append_nil, decodeBytes, List.append_nil]
  | cons b more ih =>
    by_cases hcut : Cuts first (b :: more)
    · refine .inl ⟨hcut, ?_⟩
      obtain ⟨held, x, ⟨before, rfl⟩, hx, hheld⟩ := hcut
      obtain rfl : b = x := Option.some.inj hx
      obtain ⟨hbroken, c, hlonger⟩ := hheld.decodeBytes_eq
      -- the byte moves over to the first piece, where it does not add a character
      have hmoved : before ++ held ++ b :: more = before ++ (held ++ [b] ++ more) := by simp
      have hle : (decodeBytes (held ++ [b] ++ more)).length ≤ 1 + (decodeBytes more).length := by
        rcases ih (held ++ [b]) with ⟨-, hlt⟩ | ⟨-, heq⟩
        · rw [hlonger] at hlt
          exact Nat.le_of_lt hlt
        · refine Nat.le_of_eq ?_
          rw [heq, hlonger, List.length_append, List.length_singleton]
      have hstarts : Starts (held ++ [b] ++ more) := by
        rw [List.append_assoc]
        exact hheld.starts _
      have hfirst : Starts held := by
        have := hheld.starts []
        rwa [List.append_nil] at this
      calc (decodeBytes (before ++ held ++ b :: more)).length
          = (decodeBytes before).length + (decodeBytes (held ++ [b] ++ more)).length := by
            rw [hmoved, decodeBytes_append_of_starts before hstarts, List.length_append]
        _ < (decodeBytes before).length + 1 + ((decodeBytes more).length + 1) := by omega
        _ = (decodeBytes (before ++ held)).length + (decodeBytes (b :: more)).length := by
            rw [decodeBytes_append_of_starts before hfirst, hbroken, List.length_append,
              decodeBytes_of_continues hheld.continues_eq]
            rfl
    · refine .inr ⟨hcut, decodeBytes_append_of_not_continued first fun held hsuffix hheld => ?_⟩
      exact hcut ⟨held, b, hsuffix, rfl, hheld⟩

/-- Put together, two pieces never decode by `decodeBytes` to more characters. -/
theorem length_decodeBytes_append_le (first second : Bytes) :
    (decodeBytes (first ++ second)).length
      ≤ (decodeBytes first).length + (decodeBytes second).length := by
  rcases decodeBytes_append_cases first second with ⟨-, hlt⟩ | ⟨-, heq⟩
  · exact Nat.le_of_lt hlt
  · exact Nat.le_of_eq (by rw [heq, List.length_append])

/-! ## Chunks -/

/-- Put together, any chunks never decode by `decodeBytes` to more characters. -/
theorem length_decodeBytes_flatten_le (chunks : List Bytes) :
    (decodeBytes chunks.flatten).length ≤ (chunks.flatMap decodeBytes).length := by
  induction chunks with
  | nil => exact Nat.le_refl 0
  | cons chunk chunks ih =>
    have hle := length_decodeBytes_append_le chunk chunks.flatten
    rw [List.flatten_cons, List.flatMap_cons, List.length_append]
    omega

/-- Without their first chunk, `Uncut` chunks are uncut still. -/
theorem Uncut.of_cons {chunk : Bytes} {chunks : List Bytes} (h : Uncut (chunk :: chunks)) :
    Uncut chunks := by
  rintro before after rfl ⟨held, b, hsuffix, hb, hheld⟩
  refine h (chunk :: before) after rfl ⟨held, b, ?_, hb, hheld⟩
  rw [List.flatten_cons]
  exact hsuffix.trans (List.suffix_append _ _)

/-- **Chunk by chunk, bytes decode by `decodeBytes` to what all of them decode to just if no chunk
ends inside a sequence that goes on in the next.** -/
theorem flatMap_decodeBytes_eq_iff (chunks : List Bytes) :
    chunks.flatMap decodeBytes = decodeBytes chunks.flatten ↔ Uncut chunks := by
  constructor
  · rintro h before after rfl hcut
    -- a cut makes for more characters, and the other boundaries do not make up for it
    have hbefore := length_decodeBytes_flatten_le before
    have hafter := length_decodeBytes_flatten_le after
    have hlength := congrArg List.length h
    rw [List.flatMap_append, List.flatten_append, List.length_append] at hlength
    rcases decodeBytes_append_cases before.flatten after.flatten with ⟨-, hlt⟩ | ⟨hnone, -⟩
    · omega
    · exact hnone hcut
  · intro h
    induction chunks with
    | nil => rfl
    | cons chunk chunks ih =>
      have hfirst : ¬ Cuts chunk chunks.flatten := by
        simpa using h [chunk] chunks rfl
      rcases decodeBytes_append_cases chunk chunks.flatten with ⟨hcut, -⟩ | ⟨-, heq⟩
      · exact absurd hcut hfirst
      · rw [List.flatMap_cons, List.flatten_cons, heq, ih h.of_cons]

end Text

end Outpost

import Outpost.Json.Parser
import Outpost.Proofs.Number.Shortest

/-!
# Numbers that read back

A number is read as what was written, whatever may come behind it: the digits of its text are those
of its decimal (`magnitude_layout`), and its decimal reads as the number.

## Contents

* `EndsNumeral`: what may come behind a number.
* `span_digits`, `fractionPart_point`, `exponentPart_signed`, `magnitude_of_parts`: the parts of a
  number.
* `magnitude_layout`, `magnitude_magnitudeText`, `numeral_chars`.
-/

namespace Outpost

namespace Json

/-- What cannot go on with a number: neither a digit nor a point nor an exponent comes first. -/
def EndsNumeral (rest : List Char) : Prop :=
  ∀ c ∈ rest.head?, c.isDigit = false ∧ c ≠ '.' ∧ c ≠ 'e' ∧ c ≠ 'E'

/-! ## Digits -/

theorem digitsValue_toDigits (n : Nat) : Text.digitsValue (Nat.toDigits 10 n) = n := by
  rw [Text.digitsValue, ← Nat.ofDigitChars_eq_foldl, Nat.ofDigitChars_ten_toDigits]

theorem isDigit_of_mem_toDigits {n : Nat} : ∀ c ∈ Nat.toDigits 10 n, c.isDigit = true :=
  fun _ hc => Nat.isDigit_of_mem_toDigits (by decide) (by decide) hc

theorem isDigit_of_mem_zeros (k : Nat) : ∀ c ∈ List.replicate k '0', c.isDigit = true := by
  intro c hc
  rw [List.eq_of_mem_replicate hc]
  rfl

/-- Zeros at the end multiply `Text.digitsValue` by powers of ten. -/
theorem digitsValue_append_zeros (digits : List Char) (k : Nat) :
    Text.digitsValue (digits ++ List.replicate k '0') = Text.digitsValue digits * 10 ^ k := by
  rw [Text.digitsValue, Text.digitsValue, ← Nat.ofDigitChars_eq_foldl, ← Nat.ofDigitChars_eq_foldl,
    Nat.ofDigitChars_append, Nat.ofDigitChars_replicate_zero, Nat.mul_comm]

/-- Zeros at the beginning count for nothing in `Text.digitsValue`. -/
theorem digitsValue_zeros_append (digits : List Char) (k : Nat) :
    Text.digitsValue (List.replicate k '0' ++ digits) = Text.digitsValue digits := by
  rw [Text.digitsValue, Text.digitsValue, ← Nat.ofDigitChars_eq_foldl, ← Nat.ofDigitChars_eq_foldl,
    Nat.ofDigitChars_append, Nat.ofDigitChars_replicate_zero, Nat.mul_zero]

/-- The first digit of a positive number is not zero. -/
theorem exists_toDigits_eq_cons {n : Nat} (hn : 0 < n) :
    ∃ first more, Nat.toDigits 10 n = first :: more ∧ first ≠ '0' := by
  induction n using Nat.strongRecOn with
  | ind n ih =>
    rw [Nat.toDigits_eq_if (by decide)]
    split
    · rename_i hsmall
      refine ⟨n.digitChar, [], rfl, ?_⟩
      have htable : ∀ d < 10, 0 < d → Nat.digitChar d ≠ '0' := by decide
      exact htable n hsmall hn
    · obtain ⟨first, more, hdigits, hfirst⟩ := ih (n / 10) (by omega) (by omega)
      exact ⟨first, more ++ [(n % 10).digitChar], by rw [hdigits, List.cons_append], hfirst⟩

/-- A run of digits ends where no digit comes: there `span` cuts. -/
theorem span_digits {digits rest : List Char} (hdigits : ∀ c ∈ digits, c.isDigit = true)
    (hrest : ∀ c ∈ rest.head?, c.isDigit = false) :
    (digits ++ rest).span Char.isDigit = (digits, rest) := by
  have hstop : rest.takeWhile Char.isDigit = [] ∧ rest.dropWhile Char.isDigit = rest := by
    cases rest with
    | nil => exact ⟨rfl, rfl⟩
    | cons c rest =>
      have hc : c.isDigit = false := hrest c rfl
      simp [hc]
  rw [List.span_eq_takeWhile_dropWhile, List.takeWhile_append_of_pos hdigits,
    List.dropWhile_append_of_pos hdigits, hstop.1, hstop.2, List.append_nil]

/-! ## The parts of a number -/

section Parts

variable {rest digits : List Char}

theorem fractionPart_of_ends (h : EndsNumeral rest) : fractionPart rest = some ([], rest) := by
  cases rest with
  | nil => rfl
  | cons c rest =>
    obtain ⟨-, hpoint, -⟩ := h c rfl
    rw [fractionPart]
    intro more hmore
    exact hpoint (List.cons.inj hmore).1

theorem fractionPart_point (hdigits : ∀ c ∈ digits, c.isDigit = true) (hsome : digits ≠ [])
    (hrest : ∀ c ∈ rest.head?, c.isDigit = false) :
    fractionPart ('.' :: (digits ++ rest)) = some (digits, rest) := by
  rw [fractionPart, span_digits hdigits hrest]
  split
  · rename_i heq
    exact absurd (Prod.mk.inj heq).1 hsome
  · rfl

theorem exponentPart_of_ends (h : EndsNumeral rest) : exponentPart rest = some (0, rest) := by
  cases rest with
  | nil => rfl
  | cons c rest =>
    obtain ⟨-, -, hlower, hupper⟩ := h c rfl
    rw [exponentPart]
    · intro more hmore
      exact hlower (List.cons.inj hmore).1
    · intro more hmore
      exact hupper (List.cons.inj hmore).1

/-- A signed exponent is read by `exponentPart` with its sign. -/
theorem exponentPart_signed (exponent : Int) (h : EndsNumeral rest) :
    exponentPart ('e' :: (if exponent < 0 then '-' else '+') ::
      (Nat.toDigits 10 exponent.natAbs ++ rest)) = some (exponent, rest) := by
  have hspan := span_digits (isDigit_of_mem_toDigits (n := exponent.natAbs)) fun c hc => (h c hc).1
  have hvalue := digitsValue_toDigits exponent.natAbs
  have hsome := Nat.toDigits_ne_nil (n := exponent.natAbs) (b := 10)
  generalize Nat.toDigits 10 exponent.natAbs = digits at hspan hvalue hsome ⊢
  by_cases hnegative : exponent < 0
  · rw [if_pos hnegative]
    have hsigned : -(exponent.natAbs : Int) = exponent := by omega
    simp only [exponentPart, hspan, hvalue, if_true, hsigned]
  · rw [if_neg hnegative]
    have hsigned : (exponent.natAbs : Int) = exponent := by omega
    simp only [exponentPart, hspan, hvalue, hsigned, Bool.false_eq_true, if_false]

/-- A number is read by `magnitude` part by part. -/
theorem magnitude_of_parts (negative : Bool) {whole fraction tail after : List Char}
    {exponent : Int} (hwhole : ∀ c ∈ whole, c.isDigit = true) (hsome : whole ≠ [])
    (hzero : whole.length = 1 ∨ whole.head? ≠ some '0')
    (htail : ∀ c ∈ tail.head?, c.isDigit = false)
    (hfraction : fractionPart tail = some (fraction, after))
    (hexponent : exponentPart after = some (exponent, rest)) :
    magnitude negative (whole ++ tail)
      = some (.number (.ofDecimal negative (Text.digitsValue (whole ++ fraction))
          (exponent - fraction.length)), rest) := by
  have hleading : ¬ (decide (whole = [])
      || decide (whole.length ≠ 1) && decide (whole.head? = some '0')) = true := by
    simp only [Bool.or_eq_true, Bool.and_eq_true, decide_eq_true_eq]
    rintro (hnil | ⟨hlength, hhead⟩)
    · exact hsome hnil
    · exact hzero.elim hlength fun hne => hne hhead
  rw [magnitude, span_digits hwhole htail]
  simp only [hfraction]
  rw [if_neg hleading]
  simp only [Option.bind_eq_bind, Option.bind_some, hexponent]
  rfl

end Parts

/-! ## Numbers as they are laid out -/

section Layout

variable (negative : Bool) {digits rest : List Char}

/-- Digits with zeros behind them are read by `magnitude`. -/
theorem magnitude_append_zeros (hdigits : ∀ c ∈ digits, c.isDigit = true) (hsome : digits ≠ [])
    (hfirst : digits.head? ≠ some '0') (k : Nat) (hrest : EndsNumeral rest) :
    magnitude negative (digits ++ List.replicate k '0' ++ rest)
      = some (.number (.ofDecimal negative (Text.digitsValue digits) k), rest) := by
  have hwhole : ∀ c ∈ digits ++ List.replicate k '0', c.isDigit = true :=
    List.forall_mem_append.2 ⟨hdigits, isDigit_of_mem_zeros k⟩
  have hne : digits ++ List.replicate k '0' ≠ [] := List.append_ne_nil_of_left_ne_nil hsome _
  have hhead : (digits ++ List.replicate k '0').head? ≠ some '0' := by
    rwa [List.head?_append_of_ne_nil _ hsome]
  rw [magnitude_of_parts negative hwhole hne (.inr hhead) (fun c hc => (hrest c hc).1)
    (fractionPart_of_ends hrest) (exponentPart_of_ends hrest), List.append_nil,
    digitsValue_append_zeros, Number.ofDecimal_mul_pow_ten]
  simp

/-- Digits with a point among them. -/
theorem magnitude_take_point_drop (hdigits : ∀ c ∈ digits, c.isDigit = true)
    (hfirst : digits.head? ≠ some '0') {k : Nat} (hk : k + 1 < digits.length)
    (hrest : EndsNumeral rest) :
    magnitude negative (digits.take (k + 1) ++ '.' :: digits.drop (k + 1) ++ rest)
      = some (.number (.ofDecimal negative (Text.digitsValue digits)
          ((k + 1 : Nat) - digits.length : Int)), rest) := by
  have hwhole : ∀ c ∈ digits.take (k + 1), c.isDigit = true :=
    fun c hc => hdigits c (List.mem_of_mem_take hc)
  have hfraction : ∀ c ∈ digits.drop (k + 1), c.isDigit = true :=
    fun c hc => hdigits c (List.mem_of_mem_drop hc)
  have hne : digits.take (k + 1) ≠ [] := by
    rw [Ne, List.take_eq_nil_iff]
    rintro (hzero | rfl)
    · omega
    · exact absurd hk (Nat.not_lt_zero _)
  have hhead : (digits.take (k + 1)).head? ≠ some '0' := by
    rwa [List.head?_take, if_neg (Nat.succ_ne_zero k)]
  have hdropped : digits.drop (k + 1) ≠ [] := by
    rw [Ne, List.drop_eq_nil_iff]
    omega
  rw [List.append_assoc, List.cons_append, magnitude_of_parts negative hwhole hne (.inr hhead)
    (by simp) (fractionPart_point hfraction hdropped fun c hc => (hrest c hc).1)
    (exponentPart_of_ends hrest), List.take_append_drop]
  have hexponent : 0 - ((digits.drop (k + 1)).length : Int) = (k + 1 : Nat) - digits.length := by
    rw [List.length_drop]
    omega
  rw [hexponent]

/-- Digits behind a point and zeros. -/
theorem magnitude_point_zeros (hdigits : ∀ c ∈ digits, c.isDigit = true) (hsome : digits ≠ [])
    (k : Nat) (hrest : EndsNumeral rest) :
    magnitude negative ('0' :: '.' :: (List.replicate k '0' ++ digits) ++ rest)
      = some (.number (.ofDecimal negative (Text.digitsValue digits)
          (-(k : Int) - digits.length)), rest) := by
  have hfraction : ∀ c ∈ List.replicate k '0' ++ digits, c.isDigit = true :=
    List.forall_mem_append.2 ⟨isDigit_of_mem_zeros k, hdigits⟩
  have hne : List.replicate k '0' ++ digits ≠ [] := List.append_ne_nil_of_right_ne_nil _ hsome
  have happend : '0' :: '.' :: (List.replicate k '0' ++ digits) ++ rest
      = ['0'] ++ '.' :: ((List.replicate k '0' ++ digits) ++ rest) := rfl
  have hwhole : ∀ c ∈ ['0'], c.isDigit = true := isDigit_of_mem_zeros 1
  rw [happend, magnitude_of_parts negative hwhole (List.cons_ne_nil _ _) (.inl rfl) (by simp)
    (fractionPart_point hfraction hne fun c hc => (hrest c hc).1) (exponentPart_of_ends hrest)]
  have hzero : ['0'] ++ (List.replicate k '0' ++ digits)
      = List.replicate (k + 1) '0' ++ digits := rfl
  have hexponent : 0 - ((List.replicate k '0' ++ digits).length : Int)
      = -(k : Int) - digits.length := by
    rw [List.length_append, List.length_replicate]
    omega
  rw [hzero, digitsValue_zeros_append, hexponent]

/-- Digits with a point behind the first one, if there are others, and with an exponent. -/
theorem magnitude_scientific {first : Char} {more : List Char}
    (hdigits : ∀ c ∈ first :: more, c.isDigit = true) (exponent : Int) (hrest : EndsNumeral rest) :
    let tail := 'e' :: (if exponent < 0 then '-' else '+') :: Nat.toDigits 10 exponent.natAbs
    let body := match more with
      | [] => first :: tail
      | _ => first :: '.' :: (more ++ tail)
    magnitude negative (body ++ rest)
      = some (.number (.ofDecimal negative (Text.digitsValue (first :: more))
          (exponent - more.length)), rest) := by
  intro tail body
  obtain ⟨hfirst, hmore⟩ := List.forall_mem_cons.1 hdigits
  have hwhole : ∀ c ∈ [first], c.isDigit = true := List.forall_mem_singleton.2 hfirst
  have hexponent : exponentPart (tail ++ rest) = some (exponent, rest) :=
    exponentPart_signed exponent hrest
  have htail (c : Char) (hc : c ∈ (tail ++ rest).head?) : c.isDigit = false := by
    obtain rfl := Option.some.inj hc
    rfl
  cases more with
  | nil =>
    exact magnitude_of_parts negative hwhole (List.cons_ne_nil _ _) (.inl rfl) htail rfl hexponent
  | cons second more =>
    have hbody : body ++ rest = [first] ++ '.' :: ((second :: more) ++ (tail ++ rest)) := by
      simp [body]
    rw [hbody]
    exact magnitude_of_parts negative hwhole (List.cons_ne_nil _ _) (.inl rfl) (by simp)
      (fractionPart_point hmore (List.cons_ne_nil _ _) htail) hexponent

/-- Digits are read as what `Number.layout` laid out, wherever the point was put. -/
theorem magnitude_layout {n : Nat} (hn : 0 < n) (exponent : Int) (hrest : EndsNumeral rest) :
    magnitude negative (Number.layout (Nat.toDigits 10 n)
        ((Nat.toDigits 10 n).length + exponent) ++ rest)
      = some (.number (.ofDecimal negative n exponent), rest) := by
  have hvalue := digitsValue_toDigits n
  have hdigits := isDigit_of_mem_toDigits (n := n)
  obtain ⟨first, more, hcons, hfirst⟩ := exists_toDigits_eq_cons hn
  generalize Nat.toDigits 10 n = digits at hvalue hdigits hcons ⊢
  have hsome : digits ≠ [] := by
    rw [hcons]
    exact List.cons_ne_nil first more
  have hhead : digits.head? ≠ some '0' := by
    rw [hcons]
    exact fun heq => hfirst (Option.some.inj heq)
  rw [Number.layout]
  extract_lets place tail
  simp only [Bool.and_eq_true, decide_eq_true_eq]
  split
  · -- zeros stand behind the digits
    obtain ⟨k, rfl⟩ := Int.eq_ofNat_of_zero_le (show 0 ≤ exponent by omega)
    have hcount : ((digits.length : Int) + k - digits.length).toNat = k := by omega
    rw [hcount, magnitude_append_zeros negative hdigits hsome hhead k hrest, hvalue]
  split
  · -- the point stands among the digits
    obtain ⟨k, hk⟩ :=
      Int.eq_ofNat_of_zero_le (show 0 ≤ (digits.length : Int) + exponent - 1 by omega)
    have hplace : ((digits.length : Int) + exponent).toNat = k + 1 := by omega
    have hexponent : ((k + 1 : Nat) : Int) - digits.length = exponent := by omega
    rw [hplace, magnitude_take_point_drop negative hdigits hhead (by omega) hrest, hvalue,
      hexponent]
  split
  · -- the digits stand behind zeros and the point
    obtain ⟨k, hk⟩ :=
      Int.eq_ofNat_of_zero_le (show 0 ≤ -((digits.length : Int) + exponent) by omega)
    have hexponent : -(k : Int) - digits.length = exponent := by omega
    rw [hk, Int.toNat_natCast, magnitude_point_zeros negative hdigits hsome k hrest, hvalue,
      hexponent]
  · -- the point stands behind the first digit, and an exponent behind the last one
    subst hcons
    have hexponent : place - (more.length : Int) = exponent := by
      simp only [place, List.length_cons]
      omega
    have hscientific := magnitude_scientific negative hdigits place hrest
    rw [hvalue, hexponent] at hscientific
    cases more with
    | nil => exact hscientific
    | cons second more => exact hscientific

end Layout

/-- Digits that `Number.layout` lays out begin with a digit. -/
theorem exists_layout_eq_cons {digits : List Char} (hdigits : ∀ c ∈ digits, c.isDigit = true)
    (hsome : digits ≠ []) (point : Int) :
    ∃ first more, Number.layout digits point = first :: more ∧ first.isDigit = true := by
  obtain ⟨first, more, rfl⟩ := List.exists_cons_of_ne_nil hsome
  have hfirst := hdigits first List.mem_cons_self
  rw [Number.layout]
  extract_lets place tail
  split
  · exact ⟨first, _, rfl, hfirst⟩
  split
  · rename_i hplace
    simp only [Bool.and_eq_true, decide_eq_true_eq] at hplace
    obtain ⟨k, hk⟩ := Int.eq_ofNat_of_zero_le (show 0 ≤ point - 1 by omega)
    have hpoint : point.toNat = k + 1 := by omega
    rw [hpoint, List.take_succ_cons]
    exact ⟨first, _, rfl, hfirst⟩
  split
  · exact ⟨'0', _, rfl, rfl⟩
  · cases more with
    | nil => exact ⟨first, _, rfl, hfirst⟩
    | cons second more => exact ⟨first, _, rfl, hfirst⟩

theorem exists_magnitudeText_eq_cons (x : Dyadic) :
    ∃ first more, Number.magnitudeText x = first :: more ∧ first.isDigit = true :=
  exists_layout_eq_cons isDigit_of_mem_toDigits Nat.toDigits_ne_nil _

/-- A finite number begins in `Number.chars` with a digit or a sign. -/
theorem exists_chars_eq_cons (x : Dyadic) :
    ∃ first more, Number.chars (.finite x) = first :: more ∧
      (first.isDigit = true ∨ first = '-') := by
  rw [Number.chars]
  split
  · exact ⟨'0', [], rfl, .inl rfl⟩
  split
  · exact ⟨'-', _, rfl, .inr rfl⟩
  · obtain ⟨first, more, hcons, hfirst⟩ := exists_magnitudeText_eq_cons x
    exact ⟨first, more, hcons, .inl hfirst⟩

/-- Without a sign a `numeral` is its `magnitude`. -/
theorem numeral_of_isDigit {first : Char} (hfirst : first.isDigit = true) (more : List Char) :
    numeral (first :: more) = magnitude false (first :: more) := by
  rw [numeral]
  intro rest hrest
  obtain rfl := (List.cons.inj hrest).1
  exact absurd hfirst (by decide)

/-- The text of a positive value is read by `magnitude`. -/
theorem magnitude_magnitudeText (negative : Bool) {x : Dyadic} (hx : 0 < x.toRat)
    (h : Number.IsBinary64 x) {rest : List Char} (hrest : EndsNumeral rest) :
    magnitude negative (Number.magnitudeText x ++ rest)
      = some (.number (.finite (if negative then -x else x)), rest) := by
  have hread : Number.ofDecimal negative (Number.shortest x).digits (Number.shortest x).exponent
      = .finite (if negative then -x else x) := by
    have hshortest := Number.ofDecimal_shortest hx h
    cases negative with
    | false => exact hshortest
    | true =>
      rw [Number.ofDecimal_true, hshortest]
      rfl
  rw [Number.magnitudeText, magnitude_layout negative (Number.shortest_digits_pos hx h) _ hrest,
    hread]

/-- **A value of binary64 is read by `numeral` as what `Number.chars` wrote.** -/
theorem numeral_chars {x : Dyadic} (h : Number.IsBinary64 x) {rest : List Char}
    (hrest : EndsNumeral rest) :
    numeral (Number.chars (.finite x) ++ rest) = some (.number (.finite x), rest) := by
  rw [Number.chars]
  split
  · rename_i hzero
    have hx : x = 0 := Dyadic.toRat_eq_zero_iff.1 (Rat.num_eq_zero.1 hzero)
    have hdigit : ∀ c ∈ ['0'], c.isDigit = true := List.forall_mem_singleton.2 rfl
    rw [List.cons_append, numeral_of_isDigit rfl]
    refine (magnitude_of_parts false hdigit (List.cons_ne_nil _ _) (.inl rfl)
      (fun c hc => (hrest c hc).1) (fractionPart_of_ends hrest)
      (exponentPart_of_ends hrest)).trans ?_
    rw [hx]
    rfl
  split
  · rename_i hnegative
    have hx : 0 < (-x).toRat := by
      rw [Dyadic.toRat_neg, ← Rat.num_pos, Rat.num_neg_eq_neg_num]
      omega
    have hneg : - -x = x := by
      rw [← Dyadic.toRat_inj, Dyadic.toRat_neg, Dyadic.toRat_neg, neg_neg]
    refine (magnitude_magnitudeText true hx h.neg hrest).trans ?_
    rw [if_pos rfl, hneg]
  · rename_i hzero hnegative
    have hx : 0 < x.toRat := by
      rw [← Rat.num_pos]
      omega
    obtain ⟨first, more, hcons, hfirst⟩ := exists_magnitudeText_eq_cons x
    have hmagnitude := magnitude_magnitudeText false hx h hrest
    rw [hcons] at hmagnitude ⊢
    rw [List.cons_append, numeral_of_isDigit hfirst]
    exact hmagnitude

end Json

end Outpost

import Outpost.Text

/-!
# Encoding and decoding

Decoding undoes encoding, and more: text that is encoded behind any bytes at all is decoded as it
was, since no character begins with a byte that could continue a sequence (`decodeBytes_append`). So
a file that is no text can still be added to, and what was there is read as before.

## Contents

* `continues_iff`, `fitsThree_iff`, `fitsFour_iff`: the bytes of a sequence as numbers.
* `Continued`: where a sequence goes on. `decodeBytes_append_of_not_continued`: where none does.
* `decodeBytes_append_of_starts`, `decodeBytes_encode_append`, `starts_encodeChars`.
* `decodeBytes_encodeChars`, `decodeBytes_append`.
-/

namespace Outpost

namespace Text

/-! ## Bytes that begin a character -/

/-- Bytes that, by `continues`, do not go on with a sequence of the bytes in front of them. -/
def Starts (bytes : Bytes) : Prop := ∀ b ∈ bytes.head?, continues b = false

theorem continues_iff {b : UInt8} : continues b = true ↔ 0x80 ≤ b.toNat ∧ b.toNat ≤ 0xbf := by
  simp [continues, UInt8.le_iff_toNat_le]

theorem fitsThree_iff {a b : UInt8} : fitsThree a b = true ↔
    (a.toNat = 0xe0 → 0xa0 ≤ b.toNat) ∧ (a.toNat = 0xed → b.toNat ≤ 0x9f) ∧
      0x80 ≤ b.toNat ∧ b.toNat ≤ 0xbf := by
  rw [fitsThree]
  split
  · simp_all [UInt8.le_iff_toNat_le]
    omega
  · split
    · simp_all [UInt8.le_iff_toNat_le]
      omega
    · simp_all [continues_iff, ← UInt8.toNat_inj]

theorem fitsFour_iff {a b : UInt8} : fitsFour a b = true ↔
    (a.toNat = 0xf0 → 0x90 ≤ b.toNat) ∧ (a.toNat = 0xf4 → b.toNat ≤ 0x8f) ∧
      0x80 ≤ b.toNat ∧ b.toNat ≤ 0xbf := by
  rw [fitsFour]
  split
  · simp_all [UInt8.le_iff_toNat_le]
    omega
  · split
    · simp_all [UInt8.le_iff_toNat_le]
      omega
    · simp_all [continues_iff, ← UInt8.toNat_inj]

/-! ## Where a sequence goes on -/

/-- `Continued held b`: the bytes of `held` begin a sequence that does not end with them, and `b`
goes on with it. -/
inductive Continued : Bytes → UInt8 → Prop
  | two {a b : UInt8} : (0xc2 ≤ a && a ≤ 0xdf) = true → continues b = true → Continued [a] b
  | three {a b : UInt8} : (0xe0 ≤ a && a ≤ 0xef) = true → fitsThree a b = true → Continued [a] b
  | threeLast {a b c : UInt8} : (0xe0 ≤ a && a ≤ 0xef) = true → fitsThree a b = true →
      continues c = true → Continued [a, b] c
  | four {a b : UInt8} : (0xf0 ≤ a && a ≤ 0xf4) = true → fitsFour a b = true → Continued [a] b
  | fourThird {a b c : UInt8} : (0xf0 ≤ a && a ≤ 0xf4) = true → fitsFour a b = true →
      continues c = true → Continued [a, b] c
  | fourLast {a b c d : UInt8} : (0xf0 ≤ a && a ≤ 0xf4) = true → fitsFour a b = true →
      continues c = true → continues d = true → Continued [a, b, c] d

/-- What `continues` a sequence begins none. -/
theorem Continued.continues_eq {held : Bytes} {b : UInt8} (h : Continued held b) :
    continues b = true := by
  cases h with
  | two _ hb | threeLast _ _ hb | fourThird _ _ hb | fourLast _ _ _ hb => exact hb
  | three _ hb =>
    rw [fitsThree_iff] at hb
    exact continues_iff.2 hb.2.2
  | four _ hb =>
    rw [fitsFour_iff] at hb
    exact continues_iff.2 hb.2.2

/-- Where no sequence goes on, `decodeBytes` decodes bytes in two pieces as in one. -/
theorem decodeBytes_append_of_not_continued (bytes : Bytes) {b : UInt8} {more : Bytes}
    (h : ∀ held, held <:+ bytes → ¬ Continued held b) :
    decodeBytes (bytes ++ b :: more) = decodeBytes bytes ++ decodeBytes (b :: more) := by
  -- bytes that end inside a sequence break off there, as `b` does not go on with it
  fun_induction decodeBytes bytes
  case case1 => rfl
  case case3 _ _ ha =>
    have hb : ¬ continues b = true := fun hb => h _ List.suffix_rfl (.two ha hb)
    refine (decodeBytes.eq_def _).trans ?_
    simp only [List.cons_append, List.nil_append, *, ↓reduceIte, Bool.false_eq_true]
  case case6 _ _ _ ha =>
    have hb : ¬ fitsThree _ b = true := fun hb => h _ List.suffix_rfl (.three ha hb)
    refine (decodeBytes.eq_def _).trans ?_
    simp only [List.cons_append, List.nil_append, *, ↓reduceIte, Bool.false_eq_true]
  case case7 _ _ _ ha _ hfits =>
    have hb : ¬ continues b = true := fun hb => h _ List.suffix_rfl (.threeLast ha hfits hb)
    refine (decodeBytes.eq_def _).trans ?_
    simp only [List.cons_append, List.nil_append, *, ↓reduceIte, Bool.false_eq_true]
  case case11 _ _ _ _ ha =>
    have hb : ¬ fitsFour _ b = true := fun hb => h _ List.suffix_rfl (.four ha hb)
    refine (decodeBytes.eq_def _).trans ?_
    simp only [List.cons_append, List.nil_append, *, ↓reduceIte, Bool.false_eq_true]
  case case12 _ _ _ _ ha _ hfits =>
    have hb : ¬ continues b = true := fun hb => h _ List.suffix_rfl (.fourThird ha hfits hb)
    refine (decodeBytes.eq_def _).trans ?_
    simp only [List.cons_append, List.nil_append, *, ↓reduceIte, Bool.false_eq_true]
  case case13 _ _ _ _ ha _ hfits _ hthird =>
    have hb : ¬ continues b = true :=
      fun hb => h _ List.suffix_rfl (.fourLast ha hfits hthird hb)
    refine (decodeBytes.eq_def _).trans ?_
    simp only [List.cons_append, List.nil_append, *, ↓reduceIte, Bool.false_eq_true]
  all_goals
    rename_i ih
    specialize ih fun held hheld => h held (hheld.trans (by simp [List.suffix_cons_iff]))
    simp only [List.cons_append] at ih ⊢
    refine (decodeBytes.eq_def _).trans ?_
    simp only [*, ↓reduceIte, Bool.false_eq_true]

/-- Bytes are decoded alike by `decodeBytes` whatever character comes behind them. -/
theorem decodeBytes_append_of_starts (bytes : Bytes) {tail : Bytes} (h : Starts tail) :
    decodeBytes (bytes ++ tail) = decodeBytes bytes ++ decodeBytes tail := by
  cases tail with
  | nil => simp [decodeBytes]
  | cons b more =>
    refine decodeBytes_append_of_not_continued bytes fun held _ hheld => ?_
    exact Bool.eq_false_iff.1 (h b rfl) hheld.continues_eq

/-! ## Characters -/

/-- A character encoded by `String.utf8EncodeChar` begins with a byte that continues nothing. -/
theorem starts_utf8EncodeChar (c : Char) (rest : Bytes) :
    Starts (String.utf8EncodeChar c ++ rest) := by
  intro b hb
  rw [Bool.eq_false_iff, Ne, continues_iff]
  have hvalid : c.val.toNat.isValidChar := c.valid
  simp only [String.utf8EncodeChar] at hb
  split at hb
  · obtain rfl : UInt8.ofNat c.val.toNat = b := by simpa using hb
    simp only [UInt8.toNat_ofNat']
    omega
  · split at hb
    · obtain rfl : UInt8.ofNat (c.val.toNat / 64 % 32 + 192) = b := by simpa using hb
      simp only [UInt8.toNat_ofNat']
      omega
    · split at hb
      · obtain rfl : UInt8.ofNat (c.val.toNat / 4096 % 16 + 224) = b := by simpa using hb
        simp only [UInt8.toNat_ofNat']
        omega
      · obtain rfl : UInt8.ofNat (c.val.toNat / 262144 % 8 + 240) = b := by simpa using hb
        simp only [UInt8.toNat_ofNat']
        omega

section Sequences

variable {a b c d : UInt8} (rest : Bytes)

theorem decodeBytes_one (ha : a.toNat < 0x80) :
    decodeBytes (a :: rest) = Char.ofNat a.toNat :: decodeBytes rest := by
  have hone : a < 0x80 := UInt8.lt_iff_toNat_lt.2 ha
  refine (decodeBytes.eq_def _).trans ?_
  simp only [hone, ↓reduceIte]

theorem decodeBytes_two (hlow : 0xc2 ≤ a.toNat) (hhigh : a.toNat ≤ 0xdf) (hb : continues b = true) :
    decodeBytes (a :: b :: rest)
      = Char.ofNat ((a.toNat - 0xc0) * 0x40 + payload b) :: decodeBytes rest := by
  have hone : ¬ a < 0x80 := by
    simp only [UInt8.lt_iff_toNat_lt, UInt8.reduceToNat]
    omega
  have htwo : (decide (0xc2 ≤ a) && decide (a ≤ 0xdf)) = true := by
    simp only [UInt8.le_iff_toNat_le, UInt8.reduceToNat, Bool.and_eq_true, decide_eq_true_eq]
    omega
  refine (decodeBytes.eq_def _).trans ?_
  simp only [hone, htwo, hb, ↓reduceIte]

theorem decodeBytes_three (hlow : 0xe0 ≤ a.toNat) (hhigh : a.toNat ≤ 0xef)
    (hb : fitsThree a b = true) (hc : continues c = true) :
    decodeBytes (a :: b :: c :: rest)
      = Char.ofNat ((a.toNat - 0xe0) * 0x1000 + payload b * 0x40 + payload c)
        :: decodeBytes rest := by
  have hone : ¬ a < 0x80 := by
    simp only [UInt8.lt_iff_toNat_lt, UInt8.reduceToNat]
    omega
  have htwo : ¬ (decide (0xc2 ≤ a) && decide (a ≤ 0xdf)) = true := by
    simp only [UInt8.le_iff_toNat_le, UInt8.reduceToNat, Bool.and_eq_true, decide_eq_true_eq]
    omega
  have hthree : (decide (0xe0 ≤ a) && decide (a ≤ 0xef)) = true := by
    simp only [UInt8.le_iff_toNat_le, UInt8.reduceToNat, Bool.and_eq_true, decide_eq_true_eq]
    omega
  refine (decodeBytes.eq_def _).trans ?_
  simp only [hone, htwo, hthree, hb, hc, ↓reduceIte, Bool.false_eq_true]

theorem decodeBytes_four (hlow : 0xf0 ≤ a.toNat) (hhigh : a.toNat ≤ 0xf4)
    (hb : fitsFour a b = true) (hc : continues c = true) (hd : continues d = true) :
    decodeBytes (a :: b :: c :: d :: rest)
      = Char.ofNat ((a.toNat - 0xf0) * 0x40000 + payload b * 0x1000 + payload c * 0x40 + payload d)
        :: decodeBytes rest := by
  have hone : ¬ a < 0x80 := by
    simp only [UInt8.lt_iff_toNat_lt, UInt8.reduceToNat]
    omega
  have htwo : ¬ (decide (0xc2 ≤ a) && decide (a ≤ 0xdf)) = true := by
    simp only [UInt8.le_iff_toNat_le, UInt8.reduceToNat, Bool.and_eq_true, decide_eq_true_eq]
    omega
  have hthree : ¬ (decide (0xe0 ≤ a) && decide (a ≤ 0xef)) = true := by
    simp only [UInt8.le_iff_toNat_le, UInt8.reduceToNat, Bool.and_eq_true, decide_eq_true_eq]
    omega
  have hfour : (decide (0xf0 ≤ a) && decide (a ≤ 0xf4)) = true := by
    simp only [UInt8.le_iff_toNat_le, UInt8.reduceToNat, Bool.and_eq_true, decide_eq_true_eq]
    omega
  refine (decodeBytes.eq_def _).trans ?_
  simp only [hone, htwo, hthree, hfour, hb, hc, hd, ↓reduceIte, Bool.false_eq_true]

end Sequences

/-- A character is decoded by `decodeBytes` as it was encoded, whatever comes behind it. -/
theorem decodeBytes_encode_append (c : Char) (rest : Bytes) :
    decodeBytes (String.utf8EncodeChar c ++ rest) = c :: decodeBytes rest := by
  have hc (n : Nat) (h : n = c.val.toNat) : Char.ofNat n = c := by
    rw [h]
    exact Char.ofNat_toNat c
  have hvalid : c.val.toNat.isValidChar := c.valid
  simp only [String.utf8EncodeChar]
  generalize c.val.toNat = v at hc hvalid
  have hbyte (n : Nat) (h : n < 256) : (UInt8.ofNat n).toNat = n := by
    rw [UInt8.toNat_ofNat']
    omega
  have hpayload (n : Nat) (h : n < 256) : payload (UInt8.ofNat n) = n - 0x80 :=
    congrArg (· - 0x80) (hbyte n h)
  have hcontinues (n : Nat) (h : 128 ≤ n ∧ n < 192) : continues (UInt8.ofNat n) = true := by
    rw [continues_iff, hbyte _ (by omega)]
    omega
  split
  · rw [List.singleton_append, decodeBytes_one, hbyte _ (by omega), hc _ rfl]
    rw [hbyte _ (by omega)]
    omega
  split
  · rw [List.cons_append, List.singleton_append,
      decodeBytes_two _ _ _ (hcontinues _ (by omega)), hbyte _ (by omega), hpayload _ (by omega),
      hc _ (by omega)]
    · rw [hbyte _ (by omega)]
      omega
    · rw [hbyte _ (by omega)]
      omega
  split
  · rw [List.cons_append, List.cons_append, List.singleton_append,
      decodeBytes_three _ _ _ _ (hcontinues _ (by omega)), hbyte _ (by omega),
      hpayload _ (by omega), hpayload _ (by omega), hc _ (by omega)]
    · rw [hbyte _ (by omega)]
      omega
    · rw [hbyte _ (by omega)]
      omega
    · rw [fitsThree_iff, hbyte _ (by omega), hbyte _ (by omega)]
      omega
  · rw [List.cons_append, List.cons_append, List.cons_append, List.singleton_append,
      decodeBytes_four _ _ _ _ (hcontinues _ (by omega)) (hcontinues _ (by omega)),
      hbyte _ (by omega), hpayload _ (by omega), hpayload _ (by omega), hpayload _ (by omega),
      hc _ (by omega)]
    · rw [hbyte _ (by omega)]
      omega
    · rw [hbyte _ (by omega)]
      omega
    · rw [fitsFour_iff, hbyte _ (by omega), hbyte _ (by omega)]
      omega

/-! ## Texts -/

theorem starts_encodeChars (s : List Char) : Starts (encodeChars s) := by
  cases s with
  | nil => simp [Starts, encodeChars]
  | cons c s => exact starts_utf8EncodeChar c (encodeChars s)

theorem decodeBytes_encodeChars (s : List Char) : decodeBytes (encodeChars s) = s := by
  induction s with
  | nil => rfl
  | cons c s ih =>
    have hfirst : encodeChars (c :: s) = String.utf8EncodeChar c ++ encodeChars s := rfl
    rw [hfirst, decodeBytes_encode_append, ih]

/-- Text that is encoded by `encodeChars` behind any bytes is decoded behind them. -/
theorem decodeBytes_append (bytes : Bytes) (s : List Char) :
    decodeBytes (bytes ++ encodeChars s) = decodeBytes bytes ++ s := by
  rw [decodeBytes_append_of_starts bytes (starts_encodeChars s), decodeBytes_encodeChars]

end Text

end Outpost

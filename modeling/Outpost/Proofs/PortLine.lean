import Outpost.Session.Start
import Outpost.Proofs.Event
import Outpost.Proofs.Text.Blank

/-!
# What a port line may look like

A line reports a port if it is white space, decimal digits and white space, and the digits spell a
number that a port can have (`Reports`). The reader accepts just these lines, though it reads the
digits as a binary64 number and looks only at that: no number that is too great for a port is
rounded to one that is not, and none that is small enough is rounded at all.

## Contents

* `PortLine.Reports`: the lines that report a port.
* `PortLine.port_of_value`, `PortLine.parseChars?_eq_some_iff`.
* `PortLine.ports_read_exactly`.
-/

namespace Outpost

namespace PortLine

/-! ## Lines that report a port -/

/-- A line reports a port: it is white space, decimal digits, of which there are any number but
none, and white space. -/
inductive Reports : List Char → Nat → Prop
  | intro {before digits after : List Char} {port : Nat}
      (hbefore : ∀ c ∈ before, c ∈ Text.whiteSpace) (hsome : digits ≠ [])
      (hdigits : ∀ c ∈ digits, '0' ≤ c ∧ c ≤ '9') (hafter : ∀ c ∈ after, c ∈ Text.whiteSpace)
      (hvalue : Nat.ofDigitChars 10 digits 0 = port) (hport : port ≤ 65535) :
      Reports (before ++ digits ++ after) port

theorem isDigit_iff (c : Char) : c.isDigit = true ↔ '0' ≤ c ∧ c ≤ '9' := by
  simp [Char.isDigit, Char.le_def]

/-- What digits are read as by `Number.ofDecimal` is the number that they spell, if a port can have
it, and otherwise nothing. -/
theorem port_of_value (value : Nat) :
    (let port := Number.ofDecimal false value 0
      if Number.le port (.ofNat greatest) then port.toNat? else none)
      = if value ≤ 65535 then some value else none := by
  have hgreatest : greatest < 2 ^ 53 := by decide
  dsimp only
  by_cases hvalue : value ≤ 65535
  · rw [if_pos ((Number.le_ofDecimal_iff hgreatest).2 hvalue), if_pos hvalue,
      Number.ofDecimal_of_lt (by omega), Number.toNat?, Number.ofNat, Number.toInt?_ofInt]
  · rw [if_neg (mt (Number.le_ofDecimal_iff hgreatest).1 hvalue), if_neg hvalue]

theorem parseChars?_eq (line : List Char) :
    parseChars? line =
      if (Text.trimChars line ≠ [] && (Text.trimChars line).all Char.isDigit) = true then
        if Text.digitsValue (Text.trimChars line) ≤ 65535 then
          some (Text.digitsValue (Text.trimChars line))
        else none
      else none := by
  rw [parseChars?, port_of_value]

theorem parseChars?_eq_some_iff (line : List Char) (port : Nat) :
    parseChars? line = some port ↔ Reports line port := by
  rw [parseChars?_eq]
  constructor
  · intro h
    obtain ⟨before, after, hline, hbefore, hafter⟩ := Text.exists_trimChars line
    generalize Text.trimChars line = digits at h hline
    split at h
    · rename_i hdigits
      split at h
      · rename_i hport
        obtain ⟨hsome, hall⟩ : digits ≠ [] ∧ ∀ c ∈ digits, c.isDigit = true := by
          simpa using hdigits
        subst hline
        refine .intro ((Text.allBlank_iff _).1 hbefore) hsome
          (fun c hc => (isDigit_iff c).1 (hall c hc)) ((Text.allBlank_iff _).1 hafter) ?_ ?_
        · rw [Nat.ofDigitChars_eq_foldl]
          exact Option.some.inj h
        · rw [← Option.some.inj h]
          exact hport
      · exact absurd h nofun
    · exact absurd h nofun
  · rintro ⟨hbefore, hsome, hdigits, hafter, hvalue, hport⟩
    rename_i before digits after
    have hall : ∀ c ∈ digits, c.isDigit = true := fun c hc => (isDigit_iff c).2 (hdigits c hc)
    have hfilled : ∀ c ∈ digits, Text.isBlank c = false := fun c hc =>
      Bool.eq_false_iff.2 fun hblank =>
        Bool.false_ne_true ((Text.isDigit_of_isBlank hblank).symm.trans (hall c hc))
    rw [Text.trimChars_append ((Text.allBlank_iff _).2 hbefore) hfilled hsome
      ((Text.allBlank_iff _).2 hafter)]
    rw [Nat.ofDigitChars_eq_foldl] at hvalue
    have hread : Text.digitsValue digits = port := hvalue
    rw [hread, if_pos hport, if_pos]
    simpa [hsome] using hall

/-- **A line is read by `parse?` as a port just if it `Reports` one.** There is no port in any other
line, nor in a line that is missing. On the way the digits become a binary64 number, and that is no
greater than `greatest` just if the number that they spell is, and then it is that number. So a port
that was written is read, with any white space around it. -/
theorem ports_read_exactly :
    (∀ (line : Option String) (port : Nat),
      parse? line = some port ↔ ∃ text ∈ line, Reports text.toList port) ∧
    (∀ line : Option String,
      parse? line = none ↔ ∀ text ∈ line, ∀ port, ¬ Reports text.toList port) ∧
    (∀ digits : List Char,
      let read := Number.ofDecimal false (Text.digitsValue digits) 0
      let value := Nat.ofDigitChars 10 digits 0
      (Number.le read (.ofNat greatest) = true ↔ value ≤ 65535) ∧
        (value ≤ 65535 → read = .ofNat value)) ∧
    ∀ (port : Nat) (before after : String), port ≤ 65535 →
      (∀ c ∈ before.toList, c ∈ Text.whiteSpace) → (∀ c ∈ after.toList, c ∈ Text.whiteSpace) →
      parse? (some (before ++ toString port ++ after)) = some port := by
  have hread (line : Option String) (port : Nat) :
      parse? line = some port ↔ ∃ text ∈ line, Reports text.toList port := by
    cases line with
    | none => simp [parse?]
    | some text => simp [parse?, parseChars?_eq_some_iff]
  refine ⟨hread, fun line => ?_, fun digits => ?_, fun port before after hport hbefore hafter => ?_⟩
  · rw [Option.eq_none_iff_forall_ne_some]
    simp only [Ne, hread, not_exists, not_and]
    exact forall_comm.trans (forall_congr' fun text => forall_comm)
  · rw [Nat.ofDigitChars_eq_foldl]
    exact ⟨Number.le_ofDecimal_iff (by decide), fun hvalue =>
      Number.ofDecimal_of_lt (Nat.lt_of_le_of_lt hvalue (by decide))⟩
  · refine (hread _ port).2 ⟨_, rfl, ?_⟩
    have htext : (before ++ toString port ++ after).toList
        = before.toList ++ Nat.toDigits 10 port ++ after.toList := by
      simp [Nat.repr]
    rw [htext]
    exact .intro hbefore Nat.toDigits_ne_nil
      (fun c hc => (isDigit_iff c).1 (Json.isDigit_of_mem_toDigits c hc)) hafter
      Nat.ofDigitChars_ten_toDigits hport

/-- What `parse?` finds of a port between blanks of several kinds. -/
theorem port_read_between_blanks :
    parse? (some ("\ufeff\t" ++ toString 443 ++ "\u2028\r")) = some 443 :=
  ports_read_exactly.2.2.2 443 "\ufeff\t" "\u2028\r" (by decide) (by simp [Text.whiteSpace])
    (by simp [Text.whiteSpace])

end PortLine

end Outpost

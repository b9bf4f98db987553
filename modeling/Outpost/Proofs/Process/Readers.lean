import Outpost.Proofs.Process.Conservation

/-!
# First come, first served

Readers ask for lines while output arrives in chunks, and neither knows of the other. The `m`-th
reader is nevertheless told the `m`-th line of everything that is written, however the writing was
cut into chunks and however early or late the reader came. A reader for whom there is no line goes
on waiting until the output ends, and is then told that there is none.

The invariant is `Served`: the lines that were taken so far are the first ones, each was taken by
the reader in the same place, and if there are more readers than that, nothing that is unread
completes a line. Going through waiting readers once re-establishes it (`served_serveReaders`), and
what was served before stays in front (`Served.resume`).

Serving readers from the front is what happens if everything that arrives wakes all of them, each
looks for itself, and those who find nothing queue up again (`step_eq_rouse`).

## Contents

* `lines`, `tail`, `joined`: bytes as lines and what comes behind the last of them.
* `Orderly`, `run`: what may arrive, and what comes of it.
* `Served`: who was told what.
* `look`, `wake`, `rouse`: readers that look for themselves.
* `readers_told_in_order`.
-/

namespace Outpost

namespace Stimulus

/-- What a `Stimulus` writes to standard output. -/
def written : Stimulus → Bytes
  | .output chunk => chunk
  | _ => []

/-- The reader who comes with a `readLine`. -/
def reader? : Stimulus → Option Nat
  | .readLine ticket => some ticket
  | _ => none

/-- Whether standard output ends with a `Stimulus`. -/
def endsOutput : Stimulus → Bool
  | .ended | .closed => true
  | _ => false

/-- Whether this is about collecting output, or about keeping none. -/
def collects : Stimulus → Bool
  | .collect _ | .giveUp _ | .discard => true
  | _ => false

end Stimulus

namespace Buffer

/-! ## Lines -/

/-- The lines of some bytes, cut by `splitOn`, each without its line feed. -/
def lines (bytes : Bytes) : List Bytes := (bytes.splitOn lineFeed).dropLast

/-- What comes behind the last `lineFeed`. -/
def tail (bytes : Bytes) : Bytes := (bytes.splitOn lineFeed).getLastD []

/-- Lines with their `lineFeed`s, one behind the other. -/
def joined (lines : List Bytes) : Bytes := lines.flatMap fun line => line ++ [lineFeed]

section Lines

variable {bytes line : Bytes} {taken : List Bytes}

theorem splitOn_of_not_mem (h : lineFeed ∉ bytes) : bytes.splitOn lineFeed = [bytes] := by
  rw [List.splitOn_eq_splitOnP]
  exact List.splitOnP_eq_singleton fun byte hbyte => beq_false_of_ne (ne_of_mem_of_not_mem hbyte h)

theorem splitOn_line (h : lineFeed ∉ line) (rest : Bytes) :
    (line ++ lineFeed :: rest).splitOn lineFeed = line :: rest.splitOn lineFeed := by
  rw [List.splitOn_eq_splitOnP, List.splitOn_eq_splitOnP]
  have hline : ∀ byte ∈ line, (byte == lineFeed) = false := fun byte hbyte =>
    beq_false_of_ne (ne_of_mem_of_not_mem hbyte h)
  exact List.splitOnP_append_cons_of_forall_mem hline lineFeed (beq_self_eq_true _) rest

theorem splitOn_ne_nil (bytes : Bytes) : bytes.splitOn lineFeed ≠ [] := by
  rw [List.splitOn_eq_splitOnP]
  exact List.splitOnP_ne_nil _ _

theorem lines_of_not_mem (h : lineFeed ∉ bytes) : lines bytes = [] := by
  rw [lines, splitOn_of_not_mem h]
  rfl

theorem lines_line_append (h : lineFeed ∉ line) (rest : Bytes) :
    lines (line ++ lineFeed :: rest) = line :: lines rest := by
  rw [lines, splitOn_line h, lines, List.dropLast_cons_of_ne_nil (splitOn_ne_nil rest)]

theorem tail_line_append (h : lineFeed ∉ line) (rest : Bytes) :
    tail (line ++ lineFeed :: rest) = tail rest := by
  obtain ⟨first, others, hrest⟩ := List.exists_cons_of_ne_nil (splitOn_ne_nil rest)
  rw [tail, splitOn_line h, tail, hrest]
  rfl

theorem joined_cons (line : Bytes) (taken : List Bytes) (rest : Bytes) :
    joined (line :: taken) ++ rest = line ++ lineFeed :: (joined taken ++ rest) := by
  rw [joined, List.flatMap_cons, List.append_assoc, List.append_assoc, joined]
  rfl

/-- Whole lines `joined` in front of some bytes are the first `lines` of all of it. -/
theorem lines_joined_append (h : ∀ line ∈ taken, lineFeed ∉ line) (rest : Bytes) :
    lines (joined taken ++ rest) = taken ++ lines rest ∧
      tail (joined taken ++ rest) = tail rest := by
  induction taken with
  | nil => exact ⟨rfl, rfl⟩
  | cons line taken ih =>
    obtain ⟨hline, htaken⟩ := List.forall_mem_cons.1 h
    obtain ⟨hlines, htail⟩ := ih htaken
    rw [joined_cons, lines_line_append hline, tail_line_append hline, hlines, htail]
    exact ⟨rfl, rfl⟩

theorem lineFeed_not_mem_takeWhile (bytes : Bytes) : lineFeed ∉ bytes.takeWhile (· ≠ lineFeed) := by
  intro hmem
  have hne := List.all_eq_true.1 (List.all_takeWhile (l := bytes)) lineFeed hmem
  exact absurd rfl (of_decide_eq_true hne)

/-- Bytes are their `lines` and what comes behind them, the `tail`. -/
theorem joined_lines_append_tail (bytes : Bytes) : joined (lines bytes) ++ tail bytes = bytes := by
  generalize hlength : bytes.length = length
  -- a line feed splits a shorter rest off, so the induction is on the length
  induction length using Nat.strongRecOn generalizing bytes with
  | ind length ih =>
    by_cases hfeed : lineFeed ∈ bytes
    · have hline := lineFeed_not_mem_takeWhile bytes
      have hsplit := eq_line_append hfeed
      generalize bytes.takeWhile (· ≠ lineFeed) = line at hline hsplit
      generalize bytes.drop (line.length + 1) = rest at hsplit
      have hshorter : rest.length < length := by
        rw [← hlength, hsplit, List.length_append, List.length_cons]
        omega
      rw [hsplit, lines_line_append hline, tail_line_append hline, joined_cons,
        ih rest.length hshorter rest rfl]
    · rw [lines_of_not_mem hfeed, tail, splitOn_of_not_mem hfeed]
      rfl

end Lines

/-! ## What arrives -/

/-- What may arrive at a buffer whose output has `ended` or not: nothing is written any more once
it has, and nobody collects. -/
def Orderly : Bool → List Stimulus → Prop
  | _, [] => True
  | ended, stimulus :: rest =>
    stimulus.collects = false ∧ (ended = true → stimulus.written = []) ∧
      Orderly (ended || stimulus.endsOutput) rest

/-- What comes of stimuli one after another, each of which is a `step`: it is followed by answers to
everybody whose wait is over. -/
def run (b : Buffer) : List Stimulus → Buffer × List (Nat × Answer)
  | [] => (b, [])
  | stimulus :: rest =>
    let (mid, first) := b.step stimulus
    let (last, later) := mid.run rest
    (last, first ++ later)

/-- A reader that is told a `line`. -/
def told (ticket : Nat) (line : Bytes) : Nat × Answer :=
  (ticket, .line (some (Text.decodeUtf8 line)))

/-- A reader that is told that there is no line. -/
def missed (ticket : Nat) : Nat × Answer := (ticket, .line none)

/-- Who was told what. Of everything `written`, the lines `taken` were taken, each by the reader in
the same place among all `tickets`. The readers behind them have been told that there is no line
if the output has ended, and wait if it has not; if there are any, then there is none indeed. -/
structure Served (written : Bytes) (tickets : List Nat) (answers : List (Nat × Answer))
    (taken : List Bytes) (b : Buffer) : Prop where
  whole : ∀ line ∈ taken, lineFeed ∉ line
  output : written = joined taken ++ b.unread
  within : taken.length ≤ tickets.length
  answers : answers = List.zipWith told tickets taken
    ++ if b.ended then (tickets.drop taken.length).map missed else []
  readers : b.readers = if b.ended then [] else tickets.drop taken.length
  blocked : taken.length < tickets.length → lineFeed ∉ b.unread

/-! ## Serving readers -/

section Serve

variable {b next : Buffer} {written line : Bytes} {tickets : List Nat}
  {answers later : List (Nat × Answer)} {taken more : List Bytes}

theorem not_mem_of_takeLine? (h : b.takeLine? = none) : lineFeed ∉ b.unread := by
  intro hfeed
  rw [takeLine?, if_pos hfeed] at h
  cases h

/-- Taking a line by `takeLine?` only moves output from what is `unread` to what is `consumed`. -/
theorem eq_of_takeLine? (h : b.takeLine? = some (line, next)) :
    line = b.unread.takeWhile (· ≠ lineFeed) ∧ next = { b with
      unread := b.unread.drop (line.length + 1)
      consumed := b.consumed ++ line ++ [lineFeed] } := by
  rw [takeLine?] at h
  by_cases hfeed : lineFeed ∈ b.unread
  · rw [if_pos hfeed] at h
    obtain ⟨rfl, rfl⟩ := Prod.mk.inj (Option.some.inj h)
    exact ⟨rfl, rfl⟩
  · rw [if_neg hfeed] at h
    cases h

/-- What `takeLine?` takes from a buffer is a whole line; nothing but the output changes. -/
theorem line_of_takeLine? (h : b.takeLine? = some (line, next)) :
    lineFeed ∉ line ∧ b.unread = line ++ lineFeed :: next.unread ∧ next.ended = b.ended := by
  have hunread := (unread_of_takeLine? h).1
  rw [List.append_assoc] at hunread
  obtain ⟨rfl, rfl⟩ := eq_of_takeLine? h
  exact ⟨lineFeed_not_mem_takeWhile _, hunread, rfl⟩

/-- The reader in front takes the first line that `takeLine?` finds. -/
theorem serveReaders_of_line (h : b.takeLine? = some (line, next)) (ticket : Nat)
    (tickets : List Nat) :
    serveReaders (ticket :: tickets) b
      = ((serveReaders tickets next).1, told ticket line :: (serveReaders tickets next).2) := by
  rw [serveReaders, h]
  rfl

/-- Without a line, before the output has `ended`, all readers wait. -/
theorem serveReaders_of_blocked (hdry : b.takeLine? = none) (hended : b.ended = false)
    (tickets : List Nat) : serveReaders tickets b = ({ b with readers := tickets }, []) := by
  cases tickets with
  | nil => rfl
  | cons ticket tickets =>
    rw [serveReaders, hdry]
    dsimp only
    rw [if_neg (ne_true_of_eq_false hended)]

/-- Nobody waits for anything else because of a line that is taken. -/
theorem collectors_of_takeLine? (h : b.takeLine? = some (line, next)) :
    next.collectors = b.collectors := by
  obtain ⟨-, rfl⟩ := eq_of_takeLine? h
  rfl

/-- Readers who are told that there is no line leave the buffer as it is, but for its `readers`. -/
theorem serveReaders_of_dry (hdry : b.takeLine? = none) (hended : b.ended = true)
    (tickets : List Nat) :
    serveReaders tickets b = ({ b with readers := [] }, tickets.map missed) := by
  induction tickets with
  | nil => rfl
  | cons ticket tickets ih =>
    rw [serveReaders, hdry]
    simp only [hended, if_true, ih]
    rfl

/-- Going through waiting readers by `serveReaders` serves them. -/
theorem served_serveReaders (tickets : List Nat) (b : Buffer) :
    ∃ taken, Served b.unread tickets (serveReaders tickets b).2 taken (serveReaders tickets b).1 ∧
      (serveReaders tickets b).1.ended = b.ended := by
  -- each line is taken by the first of those who are left, so the induction is on the readers
  induction tickets generalizing b with
  | nil =>
    refine ⟨[], ⟨nofun, rfl, Nat.le_refl 0, ?_, ?_, nofun⟩, rfl⟩
    · simp [serveReaders]
    · simp [serveReaders]
  | cons ticket tickets ih =>
    cases htake : b.takeLine? with
    | some found =>
      obtain ⟨line, next⟩ := found
      obtain ⟨hline, hunread, hended⟩ := line_of_takeLine? htake
      obtain ⟨taken, hserved, hkept⟩ := ih next
      rw [serveReaders_of_line htake]
      refine ⟨line :: taken, ⟨?_, ?_, ?_, ?_, ?_, ?_⟩, hkept.trans hended⟩
      · exact List.forall_mem_cons.2 ⟨hline, hserved.whole⟩
      · rw [joined_cons, ← hserved.output]
        exact hunread
      · exact Nat.succ_le_succ hserved.within
      · rw [hserved.answers]
        rfl
      · exact hserved.readers
      · exact fun hmore => hserved.blocked (Nat.lt_of_succ_lt_succ hmore)
    | none =>
      have hfeed := not_mem_of_takeLine? htake
      by_cases hended : b.ended = true
      · rw [serveReaders_of_dry htake hended]
        refine ⟨[], ⟨nofun, rfl, Nat.zero_le _, ?_, ?_, fun _ => hfeed⟩, rfl⟩
        · simp [hended]
        · simp [hended]
      · rw [serveReaders_of_blocked htake (eq_false_of_ne_true hended)]
        refine ⟨[], ⟨nofun, rfl, Nat.zero_le _, ?_, ?_, fun _ => hfeed⟩, rfl⟩
        · simp [hended]
        · simp [hended]

/-- Lines that are `taken` later are told to the readers who were left. -/
theorem zipWith_told_append (tickets : List Nat) (taken more : List Bytes) :
    List.zipWith told tickets (taken ++ more)
      = List.zipWith told tickets taken ++ List.zipWith told (tickets.drop taken.length) more := by
  induction taken generalizing tickets with
  | nil => rw [List.zipWith_nil_right]; rfl
  | cons line taken ih =>
    cases tickets with
    | nil => rfl
    | cons ticket tickets => exact congrArg (told ticket line :: ·) (ih tickets)

/-- Readers who come later take none of the lines that were `taken`. -/
theorem zipWith_told_of_le (h : taken.length ≤ tickets.length) (more : List Nat) :
    List.zipWith told (tickets ++ more) taken = List.zipWith told tickets taken := by
  induction taken generalizing tickets with
  | nil => rw [List.zipWith_nil_right, List.zipWith_nil_right]
  | cons line taken ih =>
    cases tickets with
    | nil => exact absurd h (Nat.not_succ_le_zero _)
    | cons ticket tickets => exact congrArg (told ticket line :: ·) (ih (Nat.le_of_succ_le_succ h))

/-- Readers that were `Served` before stay in front of those that are served later. -/
theorem Served.resume (hwhole : ∀ line ∈ taken, lineFeed ∉ line)
    (hwithin : taken.length ≤ tickets.length)
    {unread : Bytes} (hlater : Served unread (tickets.drop taken.length) later more b) :
    Served (joined taken ++ unread) tickets (List.zipWith told tickets taken ++ later)
      (taken ++ more) b where
  whole := by
    intro line hline
    rcases List.mem_append.1 hline with hline | hline
    · exact hwhole line hline
    · exact hlater.whole line hline
  output := by
    rw [hlater.output, joined, joined, joined, List.flatMap_append, List.append_assoc]
  within := by
    have hmore := hlater.within
    rw [List.length_drop] at hmore
    rw [List.length_append]
    omega
  answers := by
    rw [hlater.answers, zipWith_told_append, List.append_assoc, List.length_append, List.drop_drop]
  readers := by
    rw [hlater.readers, List.length_append, List.drop_drop]
  blocked := by
    intro hmore
    refine hlater.blocked ?_
    rw [List.length_append] at hmore
    rw [List.length_drop]
    omega

/-- What all readers are told when they are `Served`, from everything that was written. -/
theorem Served.told_in_order (h : Served written tickets answers taken b) :
    answers = List.zipWith told tickets (lines written)
        ++ (if b.ended then (tickets.drop (lines written).length).map missed else []) ∧
      b.unread = joined ((lines written).drop tickets.length) ++ tail written ∧
      b.readers = if b.ended then [] else tickets.drop (lines written).length := by
  obtain ⟨hlines, htail⟩ := lines_joined_append h.whole b.unread
  rw [← h.output] at hlines htail
  by_cases hmore : taken.length < tickets.length
  · -- not every reader took a line, so every line was taken
    have hall : lines written = taken := by
      rw [hlines, lines_of_not_mem (h.blocked hmore), List.append_nil]
    have hrest : (lines written).drop tickets.length = [] := by
      rw [hall]
      exact List.drop_eq_nil_of_le (Nat.le_of_lt hmore)
    have hunread : tail b.unread = b.unread := by
      rw [tail, splitOn_of_not_mem (h.blocked hmore)]
      rfl
    rw [hrest, htail, hunread, hall]
    exact ⟨h.answers, rfl, h.readers⟩
  · have hlength : taken.length = tickets.length := by
      have hwithin := h.within
      omega
    have hleft : tickets.drop taken.length = [] :=
      List.drop_eq_nil_of_le (Nat.le_of_eq hlength.symm)
    have hleft' : tickets.drop (lines written).length = [] := by
      refine List.drop_eq_nil_of_le ?_
      rw [hlines, List.length_append]
      omega
    have hzip : List.zipWith told tickets (lines written) = List.zipWith told tickets taken := by
      rw [hlines, zipWith_told_append, hleft, List.zipWith_nil_left, List.append_nil]
    have hrest : (lines written).drop tickets.length = lines b.unread := by
      rw [hlines, ← hlength, List.drop_left]
    rw [hzip, hleft', hrest, htail, joined_lines_append_tail]
    have hanswers := h.answers
    have hreaders := h.readers
    rw [hleft] at hanswers hreaders
    exact ⟨hanswers, rfl, hreaders⟩

end Serve

/-! ## One stimulus after another -/

section Run

variable {b : Buffer} {stimulus : Stimulus} {stimuli : List Stimulus} {written : Bytes}
  {tickets : List Nat} {answers : List (Nat × Answer)} {taken : List Bytes}

/-- A buffer that only `readers` wait for. -/
structure ReadOnly (b : Buffer) : Prop where
  kept : b.discarding = false
  uncollected : b.collectors = []

theorem readOnly_serveReaders (h : ReadOnly b) (tickets : List Nat) :
    ReadOnly (serveReaders tickets b).1 := by
  induction tickets generalizing b with
  | nil => exact ⟨h.kept, h.uncollected⟩
  | cons ticket tickets ih =>
    cases htake : b.takeLine? with
    | some found =>
      obtain ⟨line, next⟩ := found
      have hnext : ReadOnly next := by
        refine ⟨(unread_of_takeLine? htake).2.2.2.trans h.kept, ?_⟩
        exact (collectors_of_takeLine? htake).trans h.uncollected
      rw [serveReaders_of_line htake]
      exact ih hnext
    | none =>
      by_cases hended : b.ended = true
      · rw [serveReaders_of_dry htake hended]
        exact ⟨h.kept, h.uncollected⟩
      · rw [serveReaders_of_blocked htake (eq_false_of_ne_true hended)]
        exact ⟨h.kept, h.uncollected⟩

/-- As long as nobody collects, `serve` serves the readers only. -/
theorem serve_of_readOnly (h : ReadOnly b) : b.serve = serveReaders b.readers b := by
  have huncollected := (readOnly_serveReaders h b.readers).uncollected
  rw [serve]
  generalize serveReaders b.readers b = served at huncollected ⊢
  obtain ⟨last, answers⟩ := served
  dsimp only at huncollected ⊢
  by_cases hclosed : last.closed = true
  · rw [if_pos hclosed, huncollected, serveCollectors, List.append_nil, ← huncollected]
  · rw [if_neg hclosed]

/-- What a stimulus changes at once by `apply`, if it is not about collecting. -/
theorem apply_of_not_collects (hkept : b.discarding = false) (h : stimulus.collects = false) :
    (b.apply stimulus).unread = b.unread ++ stimulus.written ∧
      (b.apply stimulus).readers = b.readers ++ stimulus.reader?.toList ∧
      (b.apply stimulus).ended = (b.ended || stimulus.endsOutput) ∧
      (b.apply stimulus).discarding = b.discarding ∧
      (b.apply stimulus).collectors = b.collectors := by
  have hneg : ¬ b.discarding = true := ne_true_of_eq_false hkept
  cases stimulus with
  | output chunk =>
    rw [apply, if_neg hneg]
    exact ⟨rfl, (List.append_nil _).symm, (Bool.or_false _).symm, rfl, rfl⟩
  | errors chunk =>
    rw [apply, if_neg hneg]
    exact ⟨(List.append_nil _).symm, (List.append_nil _).symm, (Bool.or_false _).symm, rfl, rfl⟩
  | ended | closed =>
    exact ⟨(List.append_nil _).symm, (List.append_nil _).symm, (Bool.or_true _).symm, rfl, rfl⟩
  | exited code =>
    exact ⟨(List.append_nil _).symm, (List.append_nil _).symm, (Bool.or_false _).symm, rfl, rfl⟩
  | readLine ticket => exact ⟨(List.append_nil _).symm, rfl, (Bool.or_false _).symm, rfl, rfl⟩
  | collect | giveUp | discard => cases h

theorem ReadOnly.apply (hb : ReadOnly b) (h : stimulus.collects = false) :
    ReadOnly (b.apply stimulus) := by
  obtain ⟨-, -, -, hkept, huncollected⟩ := apply_of_not_collects hb.kept h
  exact ⟨hkept.trans hb.kept, huncollected.trans hb.uncollected⟩

/-- Whatever arrives by a `step`, the readers are `Served` in their order. -/
theorem Served.step (h : Served written tickets answers taken b) (hb : ReadOnly b)
    (hstimulus : stimulus.collects = false) (hsilent : b.ended = true → stimulus.written = []) :
    ∃ taken', Served (written ++ stimulus.written) (tickets ++ stimulus.reader?.toList)
        (answers ++ (b.step stimulus).2) taken' (b.step stimulus).1 ∧
      (b.step stimulus).1.ended = (b.ended || stimulus.endsOutput) ∧
      ReadOnly (b.step stimulus).1 := by
  obtain ⟨hunread, hreaders, hended, -⟩ := apply_of_not_collects hb.kept hstimulus
  have happly := hb.apply hstimulus
  rw [Buffer.step, serve_of_readOnly happly]
  have hreadOnly := readOnly_serveReaders happly (b.apply stimulus).readers
  by_cases hmissed : b.ended = true ∧ taken.length < tickets.length
  · -- somebody has missed already, so whoever comes now does too
    obtain ⟨hover, hmore⟩ := hmissed
    have hover' : (b.apply stimulus).ended = true := by rw [hended, hover, Bool.true_or]
    have hunread' : (b.apply stimulus).unread = b.unread := by
      rw [hunread, hsilent hover, List.append_nil]
    have hdry : (b.apply stimulus).takeLine? = none := by
      rw [takeLine?, if_neg]
      rw [hunread']
      exact h.blocked hmore
    have hreaders' : (b.apply stimulus).readers = stimulus.reader?.toList := by
      rw [hreaders, h.readers, if_pos hover, List.nil_append]
    rw [serveReaders_of_dry hdry hover', hreaders']
    refine ⟨taken, ⟨h.whole, ?_, ?_, ?_, ?_, ?_⟩, hended, ⟨happly.kept, happly.uncollected⟩⟩
    · rw [hsilent hover, List.append_nil, h.output]
      exact congrArg _ hunread'.symm
    · rw [List.length_append]
      exact Nat.le_add_right_of_le h.within
    · rw [h.answers, if_pos hover, if_pos hover', List.drop_append_of_le_length h.within,
        List.map_append, List.append_assoc, zipWith_told_of_le h.within]
    · rw [if_pos hover']
    · intro _
      dsimp only
      rw [hunread']
      exact h.blocked hmore
  · obtain ⟨more, hlater, hkept⟩ :=
      served_serveReaders (b.apply stimulus).readers (b.apply stimulus)
    have hwithin : taken.length ≤ (tickets ++ stimulus.reader?.toList).length := by
      rw [List.length_append]
      exact Nat.le_add_right_of_le h.within
    have hwaiting : b.readers = tickets.drop taken.length ∧
        answers = List.zipWith told tickets taken := by
      rw [h.readers, h.answers]
      by_cases hover : b.ended = true
      · have hnone : tickets.drop taken.length = [] :=
          List.drop_eq_nil_of_le (Nat.le_of_not_lt fun hmore => hmissed ⟨hover, hmore⟩)
        rw [if_pos hover, if_pos hover, hnone]
        exact ⟨rfl, List.append_nil _⟩
      · rw [if_neg hover, if_neg hover]
        exact ⟨rfl, List.append_nil _⟩
    have hdrop : (b.apply stimulus).readers
        = (tickets ++ stimulus.reader?.toList).drop taken.length := by
      rw [hreaders, hwaiting.1, List.drop_append_of_le_length h.within]
    rw [hunread, hdrop] at hlater
    have hresume := Served.resume h.whole hwithin hlater
    rw [← List.append_assoc, ← h.output, zipWith_told_of_le h.within, ← hwaiting.2, ← hdrop]
      at hresume
    exact ⟨taken ++ more, hresume, hkept.trans hended, hreadOnly⟩

/-- So they are `Served` after any number of stimuli. -/
theorem Served.run (h : Served written tickets answers taken b) (hb : ReadOnly b)
    (hstimuli : Orderly b.ended stimuli) :
    ∃ taken', Served (written ++ stimuli.flatMap Stimulus.written)
        (tickets ++ stimuli.filterMap Stimulus.reader?) (answers ++ (b.run stimuli).2) taken'
        (b.run stimuli).1 ∧
      (b.run stimuli).1.ended = (b.ended || stimuli.any Stimulus.endsOutput) ∧
      ReadOnly (b.run stimuli).1 := by
  induction stimuli generalizing b written tickets answers taken with
  | nil =>
    refine ⟨taken, ?_, (Bool.or_false _).symm, hb⟩
    simp only [List.flatMap_nil, List.filterMap_nil, List.append_nil, Buffer.run]
    exact h
  | cons stimulus stimuli ih =>
    obtain ⟨hstimulus, hsilent, hrest⟩ := hstimuli
    obtain ⟨mid, hmid, hended, hreadOnly⟩ := h.step hb hstimulus hsilent
    rw [← hended] at hrest
    obtain ⟨taken', hserved, hended', hreadOnly'⟩ := ih hmid hreadOnly hrest
    have hreaders : (stimulus :: stimuli).filterMap Stimulus.reader?
        = stimulus.reader?.toList ++ stimuli.filterMap Stimulus.reader? := by
      rw [List.filterMap_cons]
      cases stimulus.reader? <;> rfl
    refine ⟨taken', ?_, ?_, hreadOnly'⟩
    · rw [List.flatMap_cons, ← List.append_assoc, hreaders, ← List.append_assoc]
      rw [List.append_assoc answers] at hserved
      exact hserved
    · rw [List.any_cons, ← Bool.or_assoc, ← hended]
      exact hended'

end Run

/-! ## Readers that look for themselves -/

/-- A reader looks for a line by `takeLine?`. If there is none and the output has not ended, it
queues up. -/
def look (ticket : Nat) (b : Buffer) : Buffer × List (Nat × Answer) :=
  match b.takeLine? with
  | some (line, next) => (next, [told ticket line])
  | none =>
    if b.ended then (b, [missed ticket])
    else ({ b with readers := b.readers ++ [ticket] }, [])

/-- Readers `look` one after the other. -/
def lookAll : List Nat → Buffer → Buffer × List (Nat × Answer)
  | [], b => (b, [])
  | ticket :: waiting, b =>
    let (mid, first) := b.look ticket
    let (last, later) := lookAll waiting mid
    (last, first ++ later)

/-- Nobody waits any more: everybody who did looks again, by `lookAll`. -/
def wake (b : Buffer) : Buffer × List (Nat × Answer) := lookAll b.readers { b with readers := [] }

/-- What a stimulus leads to if readers look for themselves: one who comes looks at once, and output
and its end `wake` those who wait. -/
def rouse (b : Buffer) : Stimulus → Buffer × List (Nat × Answer)
  | .readLine ticket => b.look ticket
  | .output chunk => (b.apply (.output chunk)).wake
  | .ended => (b.apply .ended).wake
  | .closed => (b.apply .closed).wake
  | stimulus => (b.apply stimulus, [])

section Rouse

variable {b : Buffer} {stimulus : Stimulus}

/-- Readers who find nothing queue up in their order. -/
theorem lookAll_of_blocked (hdry : b.takeLine? = none) (hended : b.ended = false)
    (tickets : List Nat) :
    lookAll tickets b = ({ b with readers := b.readers ++ tickets }, []) := by
  induction tickets generalizing b with
  | nil =>
    rw [lookAll, List.append_nil]
  | cons ticket tickets ih =>
    have hfound : takeLine? { b with readers := b.readers ++ [ticket] } = none := by
      rw [takeLine?_readers, hdry, Option.map_none]
    have hlook : b.look ticket = ({ b with readers := b.readers ++ [ticket] }, []) := by
      rw [look, hdry]
      exact if_neg (ne_true_of_eq_false hended)
    rw [lookAll, hlook]
    dsimp only
    rw [ih hfound hended, List.append_assoc]
    rfl

/-- Serving readers in their order is letting each of them `look`. -/
theorem serveReaders_eq_lookAll (tickets : List Nat) (b : Buffer) :
    serveReaders tickets b = lookAll tickets { b with readers := [] } := by
  induction tickets generalizing b with
  | nil => rfl
  | cons ticket tickets ih =>
    have hfound := takeLine?_readers b []
    cases htake : b.takeLine? with
    | some found =>
      obtain ⟨line, next⟩ := found
      rw [htake, Option.map_some] at hfound
      rw [serveReaders_of_line htake, ih next, lookAll, look, hfound]
      rfl
    | none =>
      rw [htake, Option.map_none] at hfound
      by_cases hended : b.ended = true
      · rw [serveReaders_of_dry htake hended, lookAll, look, hfound]
        dsimp only
        rw [if_pos hended, ← ih, serveReaders_of_dry htake hended]
        rfl
      · have hneg := eq_false_of_ne_true hended
        rw [serveReaders_of_blocked htake hneg, lookAll_of_blocked hfound hneg]
        rfl

theorem serveReaders_eq_wake (b : Buffer) : serveReaders b.readers b = b.wake :=
  serveReaders_eq_lookAll b.readers b

/-- Where everybody who waits has nothing to go on with, a `step` leads to the same whether the
readers are served from the front or look for themselves by `rouse`. -/
theorem step_eq_rouse (hb : ReadOnly b) (hstimulus : stimulus.collects = false)
    (hblocked : b.readers ≠ [] → lineFeed ∉ b.unread ∧ b.ended = false) :
    b.step stimulus = b.rouse stimulus := by
  have hserve := serve_of_readOnly (hb.apply hstimulus)
  -- a buffer with the same output is as blocked as this one
  have hquiet : ∀ next : Buffer, next.unread = b.unread → next.ended = b.ended →
      next.readers = b.readers → serveReaders next.readers next = (next, []) := by
    intro next hunread hended hreaders
    by_cases hwaits : b.readers = []
    · rw [hreaders, hwaits, serveReaders, ← hwaits, ← hreaders]
    · obtain ⟨hfeed, hopen⟩ := hblocked hwaits
      have hdry : next.takeLine? = none := by
        rw [takeLine?, hunread, if_neg hfeed]
      rw [serveReaders_of_blocked hdry (hended.trans hopen)]
  rw [step, hserve]
  cases stimulus with
  | output chunk => rw [serveReaders_eq_wake]; rfl
  | ended => rw [serveReaders_eq_wake]; rfl
  | closed => rw [serveReaders_eq_wake]; rfl
  | errors chunk =>
    refine hquiet _ ?_ ?_ ?_ <;> rw [apply, if_neg (ne_true_of_eq_false hb.kept)]
  | exited code => exact hquiet _ rfl rfl rfl
  | readLine ticket =>
    rw [serveReaders_eq_lookAll]
    by_cases hwaits : b.readers = []
    · have hreaders : (b.apply (.readLine ticket)).readers = [ticket] :=
        congrArg (· ++ [ticket]) hwaits
      have hsame : { b.apply (.readLine ticket) with readers := [] } = b := by
        rw [← hwaits]
        rfl
      rw [hreaders, hsame, lookAll]
      exact Prod.ext rfl (List.append_nil _)
    · obtain ⟨hfeed, hopen⟩ := hblocked hwaits
      have hdry : b.takeLine? = none := by rw [takeLine?, if_neg hfeed]
      have hfound : takeLine? { b.apply (.readLine ticket) with readers := [] } = none := by
        rw [takeLine?]
        exact if_neg hfeed
      rw [lookAll_of_blocked hfound hopen, rouse, look, hdry]
      dsimp only
      rw [if_neg (ne_true_of_eq_false hopen)]
      rfl
  | collect | giveUp | discard => cases hstimulus

end Rouse

/-- **First come, first served.** However the output is cut into chunks, and whenever readers come:
the `m`-th of them is told the `m`-th line of all that is written, once it is there; a reader
without a line is told so if the output has ended, and waits if it has not. What no reader took
stays unread, whole lines and what comes behind them. Nobody waits while there is a line or after
the end, and whatever arrives next leads to what the readers make of it if they look for
themselves. -/
theorem readers_told_in_order {ended : Bool} {stimuli : List Stimulus} {written : Bytes}
    {tickets : List Nat} {answers : List (Nat × Answer)} {b : Buffer}
    (hstimuli : Orderly ended stimuli)
    (hwritten : stimuli.flatMap Stimulus.written = written)
    (htickets : stimuli.filterMap Stimulus.reader? = tickets)
    (hrun : run { ended := ended } stimuli = (b, answers)) :
    b.ended = (ended || stimuli.any Stimulus.endsOutput) ∧
      answers = List.zipWith told tickets (lines written)
        ++ (if b.ended then (tickets.drop (lines written).length).map missed else []) ∧
      b.unread = joined ((lines written).drop tickets.length) ++ tail written ∧
      b.readers = (if b.ended then [] else tickets.drop (lines written).length) ∧
      (b.readers ≠ [] → lineFeed ∉ b.unread ∧ b.ended = false) ∧
      ∀ stimulus, stimulus.collects = false → b.step stimulus = b.rouse stimulus := by
  have hfirst : Served [] [] [] [] { ended := ended } := by
    refine ⟨nofun, rfl, Nat.le_refl 0, ?_, ?_, nofun⟩
    · cases ended <;> rfl
    · cases ended <;> rfl
  obtain ⟨taken, hserved, hended, hreadOnly⟩ := hfirst.run ⟨rfl, rfl⟩ hstimuli
  rw [hwritten, htickets, hrun, List.nil_append, List.nil_append, List.nil_append] at hserved
  rw [hrun] at hended hreadOnly
  have hblocked : b.readers ≠ [] → lineFeed ∉ b.unread ∧ b.ended = false := by
    intro hwaits
    have hreaders := hserved.readers
    by_cases hover : b.ended = true
    · rw [if_pos hover] at hreaders
      exact absurd hreaders hwaits
    · rw [if_neg hover] at hreaders
      have hmore : taken.length < tickets.length := by
        refine Nat.lt_of_not_le fun hle => hwaits ?_
        rw [hreaders, List.drop_eq_nil_of_le hle]
      exact ⟨hserved.blocked hmore, eq_false_of_ne_true hover⟩
  obtain ⟨hanswers, hunread, hreaders⟩ := hserved.told_in_order
  refine ⟨hended, hanswers, hunread, hreaders, hblocked, ?_⟩
  exact fun stimulus hstimulus => step_eq_rouse hreadOnly hstimulus hblocked

/-- Two readers that come before the output, a chunk that ends inside a character, one that ends the
line and begins another, and a reader who is left without a line. -/
theorem readers_told_across_chunks :
    run { ended := false }
        [.readLine 0, .readLine 1, .output [0xc3], .output [0xa9, 0x0a, 0x62], .readLine 2, .ended]
        = ({ unread := [0x62], consumed := [0xc3, 0xa9, 0x0a], ended := true },
          [(0, .line (some (Text.decodeUtf8 [0xc3, 0xa9]))), (1, .line none), (2, .line none)]) ∧
      lines [0xc3, 0xa9, 0x0a, 0x62] = [[0xc3, 0xa9]] ∧ tail [0xc3, 0xa9, 0x0a, 0x62] = [0x62] := by
  have hrun : run { ended := false }
      [.readLine 0, .readLine 1, .output [0xc3], .output [0xa9, 0x0a, 0x62], .readLine 2, .ended]
      = ({ unread := [0x62], consumed := [0xc3, 0xa9, 0x0a], ended := true },
        [(0, .line (some (Text.decodeUtf8 [0xc3, 0xa9]))), (1, .line none), (2, .line none)]) := rfl
  have htold := readers_told_in_order (by simp [Orderly, Stimulus.collects, Stimulus.written,
    Stimulus.endsOutput]) rfl rfl hrun
  exact ⟨hrun, rfl, htold.2.2.1.symm⟩

end Buffer

end Outpost

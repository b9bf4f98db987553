import Outpost.Proofs.Process.Turns

/-!
# Waits that expire

A collector whose limit runs out is told so if the process is not closed by then, and otherwise gets
the output like any other. One that has expired leaves no trace: everybody else is told what they
would have been told without it, at the same place, and the buffer is the same ever after
(`expired_wait_leaves_no_trace`).

A wait for a process that is not closed is nothing but a ticket among the collectors. So giving it
up commutes with every turn of the others (`take_giveUp`), and the two runs meet as soon as it has
been given up.

## Contents

* `Buffer.Turn.Concerns`: the turns that begin and end a wait, apart from its success.
* `Buffer.take_giveUp`, `Buffer.live_giveUp`: giving up before or after the turns of others.
* `Buffer.closed_live`, `Buffer.waits_of_live`: how long a collector waits.
* `Buffer.expired_wait_leaves_no_trace`.
-/

namespace Outpost

namespace Buffer

/-- A collector comes with a `Turn`, or leaves with it without having succeeded. -/
def Turn.Concerns (ticket : Nat) : Turn → Prop
  | .arrives (.collect other) | .arrives (.giveUp other) | .expires other _ => other = ticket
  | _ => False

/-- The process is closed with a `Turn`. -/
def Turn.closes : Turn → Bool
  | .arrives .closed => true
  | _ => false

section Expiry

variable {pid : Option Json} {argv : List Json} {b : Buffer} {ticket : Nat} {turn : Turn}
  {turns : List Turn}

/-! ## Until the process is closed -/

theorem closed_take (b : Buffer) (turn : Turn) :
    (b.take pid argv turn).1.closed = (b.closed || turn.closes) := by
  cases turn with
  | arrives stimulus =>
    cases stimulus with
    | output | errors =>
      rw [take, apply]
      split <;> exact (Bool.or_false _).symm
    | closed => exact (Bool.or_true _).symm
    | _ => exact (Bool.or_false _).symm
  | reads ticket => exact (take_reads_aside b ticket).2.1.trans (Bool.or_false _).symm
  | collects ticket =>
    rw [take]
    split <;> exact (Bool.or_false _).symm
  | expires ticket limit =>
    rw [take]
    split <;> exact (Bool.or_false _).symm

/-- A process is `closed` once it has been, and not before. -/
theorem closed_live (b : Buffer) (turns : List Turn) :
    (b.live pid argv turns).1.closed = (b.closed || turns.any Turn.closes) := by
  induction turns generalizing b with
  | nil => exact (Bool.or_false _).symm
  | cons turn turns ih =>
    rw [live_cons]
    dsimp only
    rw [ih, closed_take, List.any_cons, Bool.or_assoc]

/-! ## Giving up -/

/-- A line is found by `takeLine?` in a buffer whoever collects. -/
theorem takeLine?_collectors (b : Buffer) (collectors : List Nat) :
    takeLine? { b with collectors := collectors }
      = b.takeLine?.map fun found => (found.1, { found.2 with collectors := collectors }) := by
  rw [takeLine?, takeLine?]
  by_cases h : lineFeed ∈ b.unread
  · rw [if_pos h, if_pos h]
    rfl
  · rw [if_neg h, if_neg h]
    rfl

/-- Others who collect are still there when one has given up by `giveUp`. -/
theorem mem_giveUp {other : Nat} (hother : other ≠ ticket) :
    other ∈ (b.apply (.giveUp ticket)).collectors ↔ other ∈ b.collectors := by
  have hkept : decide (other ≠ ticket) = true := decide_eq_true hother
  exact List.mem_filter.trans (and_iff_left hkept)

/-- What arrives is the same to everybody else, whether one gives up by `giveUp` before or
afterwards. -/
theorem apply_giveUp {stimulus : Stimulus} (h : ¬ (Turn.arrives stimulus).Concerns ticket) :
    (b.apply (.giveUp ticket)).apply stimulus = (b.apply stimulus).apply (.giveUp ticket) := by
  cases stimulus with
  | output chunk =>
    by_cases hdiscarding : b.discarding = true
    · have hsame : b.apply (.output chunk) = b := if_pos hdiscarding
      rw [hsame]
      exact if_pos hdiscarding
    · have hwritten : b.apply (.output chunk) = { b with unread := b.unread ++ chunk } :=
        if_neg hdiscarding
      rw [hwritten]
      exact if_neg hdiscarding
  | errors chunk =>
    by_cases hdiscarding : b.discarding = true
    · have hsame : b.apply (.errors chunk) = b := if_pos hdiscarding
      rw [hsame]
      exact if_pos hdiscarding
    · have hwritten : b.apply (.errors chunk) = { b with errors := b.errors ++ chunk } :=
        if_neg hdiscarding
      rw [hwritten]
      exact if_neg hdiscarding
  | collect other =>
    have hkept : [other].filter (· ≠ ticket) = [other] :=
      List.filter_cons_of_pos (decide_eq_true h)
    have hcollectors : b.collectors.filter (· ≠ ticket) ++ [other]
        = (b.collectors ++ [other]).filter (· ≠ ticket) := by
      rw [List.filter_append, hkept]
    exact congrArg (fun collectors => { b with collectors }) hcollectors
  | giveUp other =>
    have hcollectors : (b.collectors.filter (· ≠ ticket)).filter (· ≠ other)
        = (b.collectors.filter (· ≠ other)).filter (· ≠ ticket) := by
      simp only [List.filter_filter, Bool.and_comm]
    exact congrArg (fun collectors => { b with collectors }) hcollectors
  | _ => rfl

/-- A `giveUp` before or after a turn of somebody else comes to the same, until the process is
closed. -/
theorem take_giveUp (hturn : ¬ turn.Concerns ticket) (hopen : b.closed = false) :
    (b.apply (.giveUp ticket)).take pid argv turn
      = ((b.take pid argv turn).1.apply (.giveUp ticket), (b.take pid argv turn).2) := by
  cases turn with
  | arrives stimulus => exact Prod.ext (apply_giveUp hturn) rfl
  | reads other =>
    have hfound : (b.apply (.giveUp ticket)).takeLine? = b.takeLine?.map fun found =>
        (found.1, { found.2 with collectors := b.collectors.filter (· ≠ ticket) }) :=
      takeLine?_collectors b (b.collectors.filter (· ≠ ticket))
    have hended' : (b.apply (.giveUp ticket)).ended = b.ended := rfl
    by_cases hmem : other ∈ b.readers
    · have hmem' : other ∈ (b.apply (.giveUp ticket)).readers := hmem
      cases htake : b.takeLine? with
      | some found =>
        obtain ⟨line, next⟩ := found
        rw [htake] at hfound
        rw [take_reads_of_line hmem htake, take_reads_of_line hmem' hfound]
        obtain ⟨-, rfl⟩ := eq_of_takeLine? htake
        rfl
      | none =>
        rw [htake] at hfound
        cases hended : b.ended with
        | true =>
          rw [take_reads_of_dry hmem htake hended,
            take_reads_of_dry hmem' hfound (hended'.trans hended)]
          rfl
        | false =>
          rw [take_reads_of_blocked htake hended,
            take_reads_of_blocked hfound (hended'.trans hended)]
    · have hmem' : other ∉ (b.apply (.giveUp ticket)).readers := hmem
      rw [take_reads_of_absent hmem, take_reads_of_absent hmem']
  | collects other =>
    have hopen' : (b.apply (.giveUp ticket)).closed = false := hopen
    rw [take_collects_of_open hopen, take_collects_of_open hopen']
  | expires other limit =>
    have hother : (other ∈ (b.apply (.giveUp ticket)).collectors ∧
        (b.apply (.giveUp ticket)).closed = false) ↔ other ∈ b.collectors ∧ b.closed = false :=
      and_congr_left fun _ => mem_giveUp hturn
    rw [take, take]
    by_cases hexpires : other ∈ b.collectors ∧ b.closed = false
    · have hleave : ¬ (Turn.arrives (.giveUp other)).Concerns ticket := hturn
      rw [if_pos hexpires, if_pos (hother.2 hexpires)]
      exact Prod.ext (apply_giveUp hleave) rfl
    · rw [if_neg hexpires, if_neg fun h => hexpires (hother.1 h)]

/-- So it does with any number of turns of others, by `live`. -/
theorem live_giveUp (hturns : ∀ turn ∈ turns, ¬ turn.Concerns ticket)
    (hopen : (b.live pid argv turns).1.closed = false) :
    (b.apply (.giveUp ticket)).live pid argv turns
      = ((b.live pid argv turns).1.apply (.giveUp ticket), (b.live pid argv turns).2) := by
  induction turns generalizing b with
  | nil => rfl
  | cons turn turns ih =>
    obtain ⟨hturn, hrest⟩ := List.forall_mem_cons.1 hturns
    have hbefore : b.closed = false := by
      rw [closed_live] at hopen
      exact (Bool.or_eq_false_iff.1 hopen).1
    rw [live_cons] at hopen
    have hlater := ih hrest hopen
    rw [live_cons, take_giveUp hturn hbefore, live_cons]
    dsimp only
    rw [hlater]

/-! ## How long a collector waits -/

/-- Others who collect come and go: a stimulus that is not of the `ticket` changes nothing for
it. -/
theorem mem_collectors_apply {stimulus : Stimulus}
    (h : ¬ (Turn.arrives stimulus).Concerns ticket) :
    ticket ∈ (b.apply stimulus).collectors ↔ ticket ∈ b.collectors := by
  cases stimulus with
  | output | errors =>
    rw [apply]
    split <;> exact Iff.rfl
  | collect other =>
    have hother : ticket ∉ [other] := fun hmem => h (List.mem_singleton.1 hmem).symm
    exact List.mem_append.trans (or_iff_left hother)
  | giveUp other => exact mem_giveUp (Ne.symm h)
  | _ => exact Iff.rfl

/-- A collector goes on waiting until it gets the output of a process that is closed. -/
theorem waits_of_take (hturn : ¬ turn.Concerns ticket) (hmem : ticket ∈ b.collectors) :
    ticket ∈ (b.take pid argv turn).1.collectors ∨
      b.closed = true ∧ ∃ found, (ticket, .ok (.output found)) ∈ (b.take pid argv turn).2 := by
  cases turn with
  | arrives stimulus => exact .inl ((mem_collectors_apply hturn).2 hmem)
  | reads other =>
    rw [(take_reads_aside b other).2.2.1]
    exact .inl hmem
  | collects other =>
    by_cases hready : other ∈ b.collectors ∧ b.closed = true
    · rw [take_collects_of_closed hready.1 hready.2]
      by_cases hown : ticket = other
      · subst hown
        exact .inr ⟨hready.2, _, List.mem_cons_self⟩
      · exact .inl ((List.mem_erase_of_ne hown).2 hmem)
    · rw [take, if_neg hready]
      exact .inl hmem
  | expires other limit =>
    rw [take]
    split
    · exact .inl ((mem_giveUp (Ne.symm hturn)).2 hmem)
    · exact .inl hmem

theorem waits_of_live (hturns : ∀ turn ∈ turns, ¬ turn.Concerns ticket)
    (hmem : ticket ∈ b.collectors) :
    ticket ∈ (b.live pid argv turns).1.collectors ∨
      (b.live pid argv turns).1.closed = true ∧
        ∃ found, (ticket, .ok (.output found)) ∈ (b.live pid argv turns).2 := by
  induction turns generalizing b with
  | nil => exact .inl hmem
  | cons turn turns ih =>
    obtain ⟨hturn, hrest⟩ := List.forall_mem_cons.1 hturns
    rw [live_cons]
    rcases waits_of_take hturn hmem with hwaits | ⟨hclosed, found, htold⟩
    · rcases ih hrest hwaits with hlast | ⟨hclosed, found, htold⟩
      · exact .inl hlast
      · exact .inr ⟨hclosed, found, List.mem_append_right _ htold⟩
    · refine .inr ⟨?_, found, List.mem_append_left _ htold⟩
      rw [closed_live, closed_take, hclosed]
      rfl

/-- Nobody collects who has not come to: a turn that is not of the `ticket` does not bring it. -/
theorem absent_of_take (hturn : ¬ turn.Concerns ticket) (hmem : ticket ∉ b.collectors) :
    ticket ∉ (b.take pid argv turn).1.collectors := by
  cases turn with
  | arrives stimulus => exact fun h => hmem ((mem_collectors_apply hturn).1 h)
  | reads other =>
    rw [(take_reads_aside b other).2.2.1]
    exact hmem
  | collects other =>
    rw [take]
    split
    · exact fun h => hmem (List.mem_of_mem_erase h)
    · exact hmem
  | expires other limit =>
    rw [take]
    split
    · exact fun h => hmem (List.mem_filter.1 h).1
    · exact hmem

theorem absent_of_live (hturns : ∀ turn ∈ turns, ¬ turn.Concerns ticket)
    (hmem : ticket ∉ b.collectors) : ticket ∉ (b.live pid argv turns).1.collectors := by
  induction turns generalizing b with
  | nil => exact hmem
  | cons turn turns ih =>
    obtain ⟨hturn, hrest⟩ := List.forall_mem_cons.1 hturns
    exact ih hrest (absent_of_take hturn hmem)

/-- A `fault` is told only when a limit runs out. -/
theorem unfailed_of_take {fault : Fault} (hturn : ¬ turn.Concerns ticket) :
    (ticket, .error fault) ∉ (b.take pid argv turn).2 := by
  have hanswered (answers : List (Nat × Answer)) : (ticket, .error fault) ∉ answered answers := by
    intro hmem
    obtain ⟨answer, -, htold⟩ := List.mem_map.1 hmem
    exact absurd (congrArg Prod.snd htold) nofun
  cases turn with
  | arrives => exact List.not_mem_nil
  | reads other =>
    rw [take]
    split
    · split
      · exact hanswered _
      · split
        · exact hanswered _
        · exact List.not_mem_nil
    · exact List.not_mem_nil
  | collects other =>
    rw [take]
    split
    · exact hanswered _
    · exact List.not_mem_nil
  | expires other limit =>
    rw [take]
    split
    · exact fun hmem => hturn (congrArg Prod.fst (List.mem_singleton.1 hmem)).symm
    · exact List.not_mem_nil

theorem unfailed_of_live {fault : Fault} (hturns : ∀ turn ∈ turns, ¬ turn.Concerns ticket) :
    (ticket, .error fault) ∉ (b.live pid argv turns).2 := by
  induction turns generalizing b with
  | nil => exact List.not_mem_nil
  | cons turn turns ih =>
    obtain ⟨hturn, hrest⟩ := List.forall_mem_cons.1 hturns
    rw [live_cons]
    exact (not_congr List.mem_append).2 (not_or.2 ⟨unfailed_of_take hturn, ih hrest⟩)

/-- Each of those who collect gets something from `serveCollectors`, the first of them
everything. -/
theorem told_of_serveCollectors {tickets : List Nat} (hmem : ticket ∈ tickets) :
    ∃ found, (ticket, .output found) ∈ (serveCollectors tickets b).2 := by
  induction tickets generalizing b with
  | nil => exact absurd hmem List.not_mem_nil
  | cons first tickets ih =>
    rcases List.mem_cons.1 hmem with rfl | hrest
    · exact ⟨_, List.mem_cons_self⟩
    · obtain ⟨found, htold⟩ := ih hrest
      exact ⟨found, List.mem_cons_of_mem _ htold⟩

/-- Whoever waits for a process that is closed is told so when everybody has a turn, by `serve`. -/
theorem told_of_serve (hclosed : b.closed = true) (hmem : ticket ∈ b.collectors) :
    ∃ found, (ticket, .ok (.output found)) ∈ answered b.serve.2 := by
  obtain ⟨hcollectors, hsame⟩ := serveReaders_aside b.readers b
  rw [← hcollectors] at hmem
  obtain ⟨found, htold⟩ := told_of_serveCollectors hmem
  refine ⟨found, List.mem_map.2 ⟨(ticket, .output found), ?_, rfl⟩⟩
  rw [serve]
  dsimp only
  rw [if_pos (hsame.trans hclosed)]
  exact List.mem_append_right _ htold

/-! ## One wait -/

/-- Somebody who comes to `collect` and gives up again was never there. -/
theorem giveUp_collect (hmem : ticket ∉ b.collectors) :
    (b.apply (.collect ticket)).apply (.giveUp ticket) = b := by
  have hnone : [ticket].filter (· ≠ ticket) = [] :=
    List.filter_cons_of_neg (not_not_intro rfl ∘ of_decide_eq_true)
  have hrest : b.collectors.filter (· ≠ ticket) = b.collectors := by
    refine List.filter_eq_self.2 fun other hother => decide_eq_true ?_
    exact fun heq => hmem (heq ▸ hother)
  have hcollectors : (b.collectors ++ [ticket]).filter (· ≠ ticket) = b.collectors := by
    rw [List.filter_append, hrest, hnone, List.append_nil]
  exact congrArg (fun collectors => { b with collectors }) hcollectors

/-- A collector that came waits as long as the process is not closed, and the others do not know of
it. -/
theorem waits_unnoticed (hturns : ∀ turn ∈ turns, ¬ turn.Concerns ticket)
    (hmem : ticket ∉ b.collectors)
    (hopen : ((b.apply (.collect ticket)).live pid argv turns).1.closed = false) :
    ticket ∈ ((b.apply (.collect ticket)).live pid argv turns).1.collectors ∧
      b.live pid argv turns
        = (((b.apply (.collect ticket)).live pid argv turns).1.apply (.giveUp ticket),
          ((b.apply (.collect ticket)).live pid argv turns).2) := by
  have hpresent : ticket ∈ (b.apply (.collect ticket)).collectors :=
    List.mem_append_right _ List.mem_cons_self
  constructor
  · rcases waits_of_live hturns hpresent with hwaits | ⟨hclosed, -⟩
    · exact hwaits
    · exact absurd (hopen.symm.trans hclosed) nofun
  · rw [← live_giveUp hturns hopen, giveUp_collect hmem]

/-- What a wait comes to that begins in a buffer, if its `limit` runs out at some time. -/
theorem outcome_of_wait {limit : Timeout} {between after : List Turn} {waited last : Buffer}
    {told later : List Told} (hfresh : ticket ∉ b.collectors)
    (hbetween : ∀ turn ∈ between, ¬ turn.Concerns ticket)
    (hafter : ∀ turn ∈ after, ¬ turn.Concerns ticket)
    (hwaited : (b.apply (.collect ticket)).live pid argv between = (waited, told))
    (hlast : waited.live pid argv (.expires ticket limit :: after) = (last, later)) :
    (∀ fault, (ticket, .error fault) ∈ told ++ later ↔
      waited.closed = false ∧ fault = overdue pid argv limit) ∧
    (waited.closed = true → ∃ found,
      (ticket, .ok (.output found)) ∈ told ++ answered waited.serve.2) ∧
    (waited.closed = false → ∃ rest, later = (ticket, .error (overdue pid argv limit)) :: rest ∧
      b.live pid argv between = (waited.apply (.giveUp ticket), told) ∧
      (waited.apply (.giveUp ticket)).live pid argv after = (last, rest)) := by
  have htold (fault : Fault) : (ticket, .error fault) ∉ told := by
    have hnone : (ticket, .error fault) ∉ ((b.apply (.collect ticket)).live pid argv between).2 :=
      unfailed_of_live hbetween
    rwa [hwaited] at hnone
  have hpresent : ticket ∈ (b.apply (.collect ticket)).collectors :=
    List.mem_append_right _ List.mem_cons_self
  rw [live_cons] at hlast
  cases hclosed : waited.closed with
  | true =>
    have hexpires : waited.take pid argv (.expires ticket limit) = (waited, []) :=
      if_neg fun h => ne_true_of_eq_false h.2 hclosed
    rw [hexpires] at hlast
    obtain ⟨-, rfl⟩ := Prod.mk.inj hlast
    refine ⟨fun fault => iff_of_false ?_ nofun, fun _ => ?_, nofun⟩
    · exact fun hmem => (List.mem_append.1 hmem).elim (htold fault) (unfailed_of_live hafter)
    · have hwaits : ticket ∈ ((b.apply (.collect ticket)).live pid argv between).1.collectors ∨ _ :=
        waits_of_live hbetween hpresent
      rw [hwaited] at hwaits
      rcases hwaits with hwaits | ⟨-, found, hfound⟩
      · obtain ⟨found, hfound⟩ := told_of_serve hclosed hwaits
        exact ⟨found, List.mem_append_right _ hfound⟩
      · exact ⟨found, List.mem_append_left _ hfound⟩
  | false =>
    have hopen : ((b.apply (.collect ticket)).live pid argv between).1.closed = false := by
      rw [hwaited]
      exact hclosed
    obtain ⟨hwaits, hwithout⟩ := waits_unnoticed hbetween hfresh hopen
    rw [hwaited] at hwaits hwithout
    have hexpires : waited.take pid argv (.expires ticket limit)
        = (waited.apply (.giveUp ticket), [(ticket, .error (overdue pid argv limit))]) :=
      if_pos ⟨hwaits, hclosed⟩
    rw [hexpires] at hlast
    obtain ⟨rfl, rfl⟩ := Prod.mk.inj hlast
    refine ⟨fun fault => ⟨fun hmem => ?_, ?_⟩, nofun, fun _ => ⟨_, rfl, hwithout, rfl⟩⟩
    · rcases List.mem_append.1 hmem with hmem | hmem
      · exact absurd hmem (htold fault)
      · rcases List.mem_cons.1 hmem with heq | hmem
        · exact ⟨rfl, Except.error.inj (Prod.mk.inj heq).2⟩
        · exact absurd hmem (unfailed_of_live hafter)
    · rintro ⟨-, rfl⟩
      exact List.mem_append_right _ List.mem_cons_self

end Expiry

/-- **A wait that expired leaves no trace.** A collector waits for a process under a `ticket` of its
own, with a `limit`, while anything else happens. When the limit runs out, it is told so if the
process is not closed by then, and never otherwise; a process that is closed by then gives it the
output, at the latest when everybody has a turn.

If it is told that its limit ran out, then everything else went, and goes on for good, as it would
have without it: the buffer was the same but for its ticket, so the next who collects gets every
byte that is unread, and everybody else is told the same things in the same order. -/
theorem expired_wait_leaves_no_trace {pid : Option Json} {argv : List Json} {ended : Bool}
    {ticket : Nat} {limit : Timeout} {before between after : List Turn} {waited last : Buffer}
    {told later : List Told}
    (hothers : ∀ turn ∈ before ++ between ++ after, ¬ turn.Concerns ticket)
    (hwaited : live pid argv { ended := ended } (before ++ .arrives (.collect ticket) :: between)
      = (waited, told))
    (hlast : waited.live pid argv (.expires ticket limit :: after) = (last, later)) :
    waited.closed = (before ++ between).any Turn.closes ∧
    (∀ fault, (ticket, .error fault) ∈ told ++ later ↔
      waited.closed = false ∧ fault = overdue pid argv limit) ∧
    (waited.closed = true → ∃ found,
      (ticket, .ok (.output found)) ∈ told ++ answered waited.serve.2) ∧
    (waited.closed = false → ∃ rest, later = (ticket, .error (overdue pid argv limit)) :: rest ∧
      live pid argv { ended := ended } (before ++ between)
        = (waited.apply (.giveUp ticket), told) ∧
      live pid argv { ended := ended } (before ++ between ++ after) = (last, told ++ rest)) := by
  obtain ⟨hprior, hafter⟩ := List.forall_mem_append.1 hothers
  obtain ⟨hbefore, hbetween⟩ := List.forall_mem_append.1 hprior
  have hclosed : waited.closed = (before ++ between).any Turn.closes := by
    have hlater : (live pid argv { ended := ended }
        (before ++ .arrives (.collect ticket) :: between)).1.closed = _ := closed_live _ _
    rw [hwaited] at hlater
    rw [hlater, List.any_append, List.any_append, List.any_cons]
    rfl
  -- the wait begins in the buffer that the turns before it have left
  generalize hreached : live pid argv { ended := ended } before = reached
  obtain ⟨b, early⟩ := reached
  have hfresh : ticket ∉ b.collectors := by
    have habsent : ticket ∉ (live pid argv { ended := ended } before).1.collectors :=
      absent_of_live hbefore List.not_mem_nil
    rwa [hreached] at habsent
  have hearly (fault : Fault) : (ticket, .error fault) ∉ early := by
    have hnone : (ticket, .error fault) ∉ (live pid argv { ended := ended } before).2 :=
      unfailed_of_live hbefore
    rwa [hreached] at hnone
  rw [live_append, hreached, live_arrives] at hwaited
  generalize hwait : (b.apply (.collect ticket)).live pid argv between = outcome at hwaited
  obtain ⟨waited', middle⟩ := outcome
  obtain ⟨rfl, rfl⟩ := Prod.mk.inj hwaited
  obtain ⟨hfails, hsucceeds, hunnoticed⟩ := outcome_of_wait hfresh hbetween hafter hwait hlast
  refine ⟨hclosed, fun fault => ?_, fun hover => ?_, fun hopen => ?_⟩
  · rw [← hfails fault, List.append_assoc, List.mem_append]
    exact or_iff_right (hearly fault)
  · obtain ⟨found, hfound⟩ := hsucceeds hover
    refine ⟨found, ?_⟩
    rw [List.append_assoc]
    exact List.mem_append_right _ hfound
  · obtain ⟨rest, hrest, hwithout, hafterwards⟩ := hunnoticed hopen
    have huntil : live pid argv { ended := ended } (before ++ between)
        = (waited'.apply (.giveUp ticket), early ++ middle) := by
      rw [live_append, hreached, hwithout]
    refine ⟨rest, hrest, huntil, ?_⟩
    rw [live_append, huntil, hafterwards]

/-- A reader takes a line while a collector waits whose limit runs out, more is written, and the
next who collects gets all that is left, as if nobody had waited before. -/
theorem all_collected_after_expiry :
    ∃ (before between after : List Turn) (waited last : Buffer),
      live none [.string "cat"] {} (before ++ .arrives (.collect 1) :: between)
        = (waited, [(2, .ok (.line (some (Text.decodeUtf8 [0x61]))))]) ∧
      waited.live none [.string "cat"] (.expires 1 (.ofNat 20) :: after)
        = (last, [(1, .error (overdue none [.string "cat"] (.ofNat 20))),
          (3, .ok (.output ⟨[0x62, 0x63], []⟩))]) ∧
      live none [.string "cat"] {} (before ++ between ++ after)
        = (last, [(2, .ok (.line (some (Text.decodeUtf8 [0x61])))),
          (3, .ok (.output ⟨[0x62, 0x63], []⟩))]) := by
  let before : List Turn := [.arrives (.output [0x61, 0x0a, 0x62])]
  let between : List Turn := [.arrives (.readLine 2), .reads 2, .collects 1]
  let after : List Turn :=
    [.arrives (.output [0x63]), .arrives .closed, .arrives (.collect 3), .collects 3]
  have hothers : ∀ turn ∈ before ++ between ++ after, ¬ turn.Concerns 1 := by
    simp [before, between, after, Turn.Concerns]
  let waited : Buffer := { unread := [0x62], consumed := [0x61, 0x0a], collectors := [1] }
  let last : Buffer := { consumed := [0x61, 0x0a], ended := true, closed := true }
  have hwaited : live none [.string "cat"] {} (before ++ .arrives (.collect 1) :: between)
      = (waited, [(2, .ok (.line (some (Text.decodeUtf8 [0x61]))))]) := rfl
  have hlast : waited.live none [.string "cat"] (.expires 1 (.ofNat 20) :: after)
      = (last, [(1, .error (overdue none [.string "cat"] (.ofNat 20))),
        (3, .ok (.output ⟨[0x62, 0x63], []⟩))]) := rfl
  obtain ⟨-, -, -, hunnoticed⟩ := expired_wait_leaves_no_trace hothers hwaited hlast
  obtain ⟨rest, hlater, -, hwithout⟩ := hunnoticed rfl
  obtain ⟨-, rfl⟩ := List.cons.inj hlater
  exact ⟨before, between, after, waited, last, hwaited, hlast, hwithout⟩

end Buffer

end Outpost

import Outpost.Proofs.Process.Turns

/-!
# Output that is discarded

Discarding the output is for good: from then on a buffer holds none, and nobody who waits at it is
told any. Everything else goes as it would have gone with the output kept: the exit code, whether
the process is closed, and which of those who wait for that give up (`discard_is_permanent`).

The two runs are compared turn by turn. The relation between their buffers is `Hushed`; the readers
do not occur in it, for one that waits where the output is kept has been told already where it is
not.

## Contents

* `Buffer.Told.IsEmpty`: what is told without output.
* `Buffer.Hushed`, and its preservation.
* `Buffer.discard_is_permanent`.
-/

namespace Outpost

namespace Buffer

/-- No output is told: a reader is told that there is no line, and a collector that there is
nothing. -/
def Told.IsEmpty : Told → Prop
  | (_, .ok (.line text)) => text = none
  | (_, .ok (.output found)) => found = .nothing
  | (_, .error _) => True

/-- A buffer that has no output and keeps none, and otherwise is as the `kept` one, with the same
collectors at it. -/
structure Hushed (kept hushed : Buffer) : Prop where
  discarding : hushed.discarding = true
  unread : hushed.unread = []
  consumed : hushed.consumed = []
  errors : hushed.errors = []
  ended : hushed.ended = true
  exitCode : hushed.exitCode = kept.exitCode
  closed : hushed.closed = kept.closed
  collectors : hushed.collectors = kept.collectors

section Hushed

variable {pid : Option Json} {argv : List Json} {kept hushed : Buffer}

/-- A buffer that discards its output by `discard`, and the same one as it was. -/
theorem hushed_discard (b : Buffer) : Hushed b (b.apply .discard) :=
  ⟨rfl, rfl, rfl, rfl, rfl, rfl, rfl, rfl⟩

/-- There are no lines in it: `takeLine?` finds none. -/
theorem Hushed.takeLine? (h : Hushed kept hushed) : hushed.takeLine? = none := by
  rw [Buffer.takeLine?, h.unread]
  exact if_neg List.not_mem_nil

/-- Whatever arrives by `apply` finds the output discarded. -/
theorem Hushed.apply (h : Hushed kept hushed) (stimulus : Stimulus) :
    Hushed (kept.apply stimulus) (hushed.apply stimulus) := by
  have hwritten (chunk : Bytes) :
      hushed.apply (.output chunk) = hushed ∧ hushed.apply (.errors chunk) = hushed :=
    ⟨if_pos h.discarding, if_pos h.discarding⟩
  cases stimulus with
  | output chunk =>
    rw [(hwritten chunk).1, Buffer.apply]
    split
    · exact h
    · exact { h with }
  | errors chunk =>
    rw [(hwritten chunk).2, Buffer.apply]
    split
    · exact h
    · exact { h with }
  | ended => exact { h with ended := rfl }
  | exited code => exact { h with exitCode := rfl }
  | closed => exact { h with ended := rfl, closed := rfl }
  | readLine ticket => exact { h with }
  | collect ticket => exact { h with collectors := congrArg (· ++ [ticket]) h.collectors }
  | giveUp ticket => exact { h with collectors := congrArg (List.filter _) h.collectors }
  | discard =>
    exact { h with discarding := rfl, unread := rfl, consumed := rfl, errors := rfl, ended := rfl }

/-- A `Turn` of both buffers leaves the one hushed. -/
theorem Hushed.take (h : Hushed kept hushed) (turn : Turn) :
    Hushed (kept.take pid argv turn).1 (hushed.take pid argv turn).1 ∧
      (hushed.take pid argv turn).2.filterMap Told.ending?
        = (kept.take pid argv turn).2.filterMap Told.ending? ∧
      ∀ told ∈ (hushed.take pid argv turn).2, told.IsEmpty := by
  have hnobody : ∀ told ∈ ([] : List Told), told.IsEmpty := fun _ hmem =>
    absurd hmem List.not_mem_nil
  cases turn with
  | arrives stimulus => exact ⟨h.apply stimulus, rfl, hnobody⟩
  | reads ticket =>
    have haside : Hushed (kept.take pid argv (.reads ticket)).1 hushed := by
      obtain ⟨hexitCode, hclosed, hcollectors, -⟩ := take_reads_aside kept ticket
      exact { h with
        exitCode := h.exitCode.trans hexitCode.symm
        closed := h.closed.trans hclosed.symm
        collectors := h.collectors.trans hcollectors.symm }
    rw [(take_reads_aside kept ticket).2.2.2]
    by_cases hmem : ticket ∈ hushed.readers
    · rw [take_reads_of_dry hmem h.takeLine? h.ended]
      exact ⟨{ haside with }, rfl, List.forall_mem_singleton.2 rfl⟩
    · rw [take_reads_of_absent hmem]
      exact ⟨haside, rfl, hnobody⟩
  | collects ticket =>
    rw [Buffer.take, Buffer.take, h.collectors, h.closed]
    split
    · have hnothing : hushed.collect.1 = .nothing := by
        rw [collect, h.unread, h.errors]
        rfl
      exact ⟨{ h with unread := rfl, errors := rfl, collectors := rfl }, rfl,
        List.forall_mem_singleton.2 hnothing⟩
    · exact ⟨h, rfl, hnobody⟩
  | expires ticket limit =>
    rw [Buffer.take, Buffer.take, h.collectors, h.closed]
    split
    · exact ⟨h.apply (.giveUp ticket), rfl, List.forall_mem_singleton.2 trivial⟩
    · exact ⟨h, rfl, hnobody⟩

/-- All turns of both buffers leave the one `Hushed`. -/
theorem Hushed.live (h : Hushed kept hushed) (turns : List Turn) :
    Hushed (kept.live pid argv turns).1 (hushed.live pid argv turns).1 ∧
      (hushed.live pid argv turns).2.filterMap Told.ending?
        = (kept.live pid argv turns).2.filterMap Told.ending? ∧
      ∀ told ∈ (hushed.live pid argv turns).2, told.IsEmpty := by
  induction turns generalizing kept hushed with
  | nil => exact ⟨h, rfl, fun _ hmem => absurd hmem List.not_mem_nil⟩
  | cons turn turns ih =>
    obtain ⟨hmid, hfirst, hempty⟩ := h.take turn
    obtain ⟨hlast, hlater, hnone⟩ := ih hmid
    rw [live_cons, live_cons, List.filterMap_append, List.filterMap_append, hfirst, hlater]
    refine ⟨hlast, rfl, fun told hmem => ?_⟩
    exact (List.mem_append.1 hmem).elim (hempty told) (hnone told)

/-- Collectors leave the `readers` waiting. -/
theorem serveCollectors_readers (tickets : List Nat) (b : Buffer) :
    (serveCollectors tickets b).1.readers = b.readers := by
  induction tickets generalizing b with
  | nil => rfl
  | cons ticket tickets ih => exact ih b.collect.2

/-- No reader waits any longer once everybody has had a turn by `serve`, and nobody is told any
output. -/
theorem Hushed.serve (h : Hushed kept hushed) :
    hushed.serve.1.readers = [] ∧ ∀ told ∈ answered hushed.serve.2, told.IsEmpty := by
  constructor
  · rw [Buffer.serve, serveReaders_of_dry h.takeLine? h.ended]
    dsimp only
    split
    · rw [serveCollectors_readers]
    · rfl
  · have heverybody : hushed.live none [] hushed.everybody
        = (hushed.serve.1, answered hushed.serve.2) := live_everybody hushed
    have hempty : ∀ told ∈ (hushed.live none [] hushed.everybody).2, told.IsEmpty :=
      (h.live hushed.everybody).2.2
    rwa [heverybody] at hempty

end Hushed

/-- **Discarding is for good, and changes nothing else.** However the calls of a process go, before
its output is discarded and afterwards: from then on nobody is told any output, be it somebody who
was waiting or somebody who comes later, and none is kept, be it `unread` or `consumed`. Every
reader who was waiting or comes later is told that there is no line or has yet to look, and once
everybody has looked by `serve` none waits.

Had the output been kept, the exit code would be the same, the process would be closed or not as it
is, and those who wait for that would have been told so, or have given up, in the same order. -/
theorem discard_is_permanent (pid : Option Json) (argv : List Json) (b : Buffer)
    (before after : List Turn) :
    ∃ kept hushed told toldKept toldHushed,
      b.live pid argv (before ++ after) = (kept, told ++ toldKept) ∧
      b.live pid argv (before ++ .arrives .discard :: after) = (hushed, told ++ toldHushed) ∧
      Hushed kept hushed ∧
      toldHushed.filterMap Told.ending? = toldKept.filterMap Told.ending? ∧
      (∀ answer ∈ toldHushed, answer.IsEmpty) ∧
      ((b.live pid argv before).1.readers ++ after.filterMap Turn.reader?).Perm
        (toldHushed.filterMap Told.reader? ++ hushed.readers) ∧
      hushed.serve.1.readers = [] ∧ ∀ answer ∈ answered hushed.serve.2, answer.IsEmpty := by
  generalize hbefore : b.live pid argv before = reached
  obtain ⟨mid, told⟩ := reached
  let muted : Buffer := mid.apply .discard
  have hreaders : (mid.readers ++ after.filterMap Turn.reader?).Perm
      ((muted.live pid argv after).2.filterMap Told.reader? ++
        (muted.live pid argv after).1.readers) := readers_of_live muted after
  obtain ⟨hlast, hendings, hempty⟩ := (hushed_discard mid).live after
  refine ⟨_, _, told, _, _, ?_, ?_, hlast, hendings, hempty, hreaders, hlast.serve⟩
  · rw [live_append, hbefore]
  · rw [live_append, hbefore, live_arrives]

end Buffer

end Outpost

import Mathlib.Data.List.Basic
import Outpost.Path
import Outpost.Proofs.Text.Lines

/-!
# Joining paths

A path in normal form is written from the segments that are kept of it. Those are settled: added
one after another again, each of them is kept. So a path may be brought into normal form before
anything is joined to it, and joining one segment after another is joining all of them at once
(`Path.join_join`).

## Contents

* `Path.keep`, `Path.Settled`: segments that are kept.
* `Path.written`, `Path.normalizeChars_eq_written`: a path from its segments.
* `Path.join_join`.
-/

namespace Outpost

namespace Path

/-! ## Segments -/

/-- What is kept once more `segments` have been added by `addSegment`, the last one first. -/
def keep (absolute : Bool) (kept segments : List (List Char)) : List (List Char) :=
  segments.foldl (addSegment absolute) kept

/-- Segments, the last one first, each of which was kept when it was added. -/
def Settled (absolute : Bool) : List (List Char) → Prop
  | [] => True
  | segment :: rest =>
    addSegment absolute rest segment = segment :: rest ∧ '/' ∉ segment ∧ Settled absolute rest

section Segments

variable {absolute : Bool} {kept segments : List (List Char)} {segment : List Char}

theorem keep_append (absolute : Bool) (kept segments more : List (List Char)) :
    keep absolute kept (segments ++ more) = keep absolute (keep absolute kept segments) more :=
  List.foldl_append

theorem addSegment_nil : addSegment absolute kept [] = kept := by
  simp [addSegment]

/-- One more segment is kept by `addSegment`, or goes, or takes another one away. -/
theorem addSegment_cases (absolute : Bool) (kept : List (List Char)) (segment : List Char) :
    addSegment absolute kept segment = segment :: kept ∨
      addSegment absolute kept segment <:+ kept := by
  rw [addSegment.eq_def]
  split
  · exact .inr List.suffix_rfl
  · split
    · cases kept with
      | nil =>
        cases absolute with
        | true => exact .inr List.suffix_rfl
        | false => exact .inl rfl
      | cons last rest =>
        by_cases hlast : last = ['.', '.']
        · exact .inl (if_pos hlast)
        · refine .inr ?_
          dsimp only
          rw [if_neg hlast]
          exact List.suffix_cons last rest
    · exact .inl rfl

theorem Settled.of_suffix {front : List (List Char)} (h : Settled absolute (front ++ kept)) :
    Settled absolute kept := by
  induction front with
  | nil => exact h
  | cons segment front ih => exact ih h.2.2

/-- Whatever is added by `addSegment`, what is kept is settled. -/
theorem Settled.addSegment (h : Settled absolute kept) (hsegment : '/' ∉ segment) :
    Settled absolute (addSegment absolute kept segment) := by
  rcases addSegment_cases absolute kept segment with hkept | ⟨front, hrest⟩
  · rw [hkept]
    exact ⟨hkept, hsegment, h⟩
  · rw [← hrest] at h
    exact h.of_suffix

theorem Settled.keep (h : Settled absolute kept) (hsegments : ∀ segment ∈ segments, '/' ∉ segment) :
    Settled absolute (keep absolute kept segments) := by
  induction segments generalizing kept with
  | nil => exact h
  | cons segment segments ih =>
    obtain ⟨hsegment, hrest⟩ := List.forall_mem_cons.1 hsegments
    exact ih (h.addSegment hsegment) hrest

/-- `Settled` segments are kept when they are added again. -/
theorem Settled.keep_reverse (h : Settled absolute kept) :
    Path.keep absolute [] kept.reverse = kept := by
  induction kept with
  | nil => rfl
  | cons segment kept ih =>
    rw [List.reverse_cons, keep_append, ih h.2.2]
    exact h.1

/-- None of the `Settled` segments is empty. -/
theorem Settled.ne_nil (h : Settled absolute kept) (hmem : segment ∈ kept) :
    segment ≠ [] ∧ '/' ∉ segment := by
  induction kept with
  | nil => exact absurd hmem List.not_mem_nil
  | cons first kept ih =>
    obtain ⟨hfirst, hslash, hkept⟩ := h
    rcases List.mem_cons.1 hmem with rfl | hrest
    · refine ⟨?_, hslash⟩
      rintro rfl
      exact List.cons_ne_self _ _ (hfirst.symm.trans addSegment_nil)
    · exact ih hkept hrest

end Segments

/-! ## Paths from their segments -/

/-- What is kept of a path by `normalizeChars`. -/
def keptOf (path : List Char) : List (List Char) :=
  keep (path.head? = some '/') [] (Text.split '/' path)

/-- The path that is written for some segments, the last one first. -/
def written (absolute closed : Bool) (kept : List (List Char)) : List Char :=
  if kept = [] then if absolute then ['/'] else if closed then ['.', '/'] else ['.']
  else (if absolute then ['/'] else []) ++ ['/'].intercalate kept.reverse
    ++ (if closed then ['/'] else [])

section Written

variable {absolute closed : Bool} {kept segments : List (List Char)} {path name : List Char}

theorem settled_keptOf (path : List Char) : Settled (path.head? = some '/') (keptOf path) :=
  Settled.keep trivial fun _ hmem => Text.not_mem_of_mem_split hmem

/-- Segments joined by `intercalate` that are not empty are not, and neither begin nor end with a
slash. -/
theorem intercalate_bare (hne : segments ≠ [])
    (hsegments : ∀ segment ∈ segments, segment ≠ [] ∧ '/' ∉ segment) :
    ['/'].intercalate segments ≠ [] ∧ (['/'].intercalate segments).head? ≠ some '/' ∧
      (['/'].intercalate segments).getLast? ≠ some '/' := by
  induction segments with
  | nil => exact absurd rfl hne
  | cons segment segments ih =>
    obtain ⟨⟨hfilled, hslash⟩, hrest⟩ := List.forall_mem_cons.1 hsegments
    have hhead : segment.head? ≠ some '/' := fun h => hslash (List.mem_of_head? h)
    cases segments with
    | nil =>
      rw [List.intercalate_singleton]
      exact ⟨hfilled, hhead, fun h => hslash (List.mem_of_getLast? h)⟩
    | cons next segments =>
      obtain ⟨hmore, -, hlast⟩ := ih (List.cons_ne_nil _ _) hrest
      rw [List.intercalate_cons_cons, List.append_assoc]
      refine ⟨List.append_ne_nil_of_left_ne_nil hfilled _, ?_, ?_⟩
      · rwa [List.head?_append_of_ne_nil _ hfilled]
      · rwa [List.singleton_append, List.getLast?_append_of_ne_nil _ (List.cons_ne_nil _ _),
          List.getLast?_cons_of_ne_nil hmore]

/-- Joined segments are `split` again. -/
theorem split_intercalate (hne : segments ≠ []) (hsegments : ∀ segment ∈ segments, '/' ∉ segment) :
    Text.split '/' (['/'].intercalate segments) = segments := by
  induction segments with
  | nil => exact absurd rfl hne
  | cons segment segments ih =>
    obtain ⟨hsegment, hrest⟩ := List.forall_mem_cons.1 hsegments
    cases segments with
    | nil => rw [List.intercalate_singleton, Text.split_of_not_mem hsegment]
    | cons next segments =>
      rw [List.intercalate_cons_cons, List.append_assoc, List.singleton_append,
        Text.split_append_mark, Text.split_of_not_mem hsegment, ih (List.cons_ne_nil _ _) hrest]
      rfl

/-- `Settled` segments, from the front, can be joined and split again. -/
theorem Settled.bare (h : Settled absolute kept) :
    ∀ segment ∈ kept.reverse, segment ≠ [] ∧ '/' ∉ segment :=
  fun _ hmem => h.ne_nil (List.mem_reverse.1 hmem)

/-- The normal form of a path is `written` from what is kept of it. -/
theorem normalizeChars_eq_written (path : List Char) :
    normalizeChars path
      = written (path.head? = some '/') (path.getLast? = some '/') (keptOf path) := by
  by_cases hpath : path = []
  · subst hpath
    rfl
  · have hfold : (Text.split '/' path).foldl (addSegment (path.head? = some '/')) []
        = keptOf path := rfl
    rw [normalizeChars, hfold, if_neg hpath, written]
    simp only [decide_eq_true_eq]
    by_cases hkept : keptOf path = []
    · rw [hkept]
      rfl
    · have hbody := (intercalate_bare (mt List.reverse_eq_nil_iff.1 hkept)
        (settled_keptOf path).bare).1
      rw [if_neg hkept, if_neg hbody]

theorem written_ne_nil (closed : Bool) (h : Settled absolute kept) :
    written absolute closed kept ≠ [] := by
  rw [written]
  by_cases hkept : kept = []
  · rw [if_pos hkept]
    cases absolute <;> cases closed <;> exact List.cons_ne_nil _ _
  · obtain ⟨hbody, -, -⟩ := intercalate_bare (mt List.reverse_eq_nil_iff.1 hkept) h.bare
    rw [if_neg hkept]
    exact List.append_ne_nil_of_left_ne_nil (List.append_ne_nil_of_right_ne_nil _ hbody) _

/-- The path that is `written` begins with a slash just if it is to be `absolute`. -/
theorem head?_written (closed : Bool) (h : Settled absolute kept) :
    (written absolute closed kept).head? = some '/' ↔ absolute = true := by
  rw [written]
  by_cases hkept : kept = []
  · rw [if_pos hkept]
    cases absolute <;> cases closed <;> decide
  · obtain ⟨hbody, hhead, -⟩ := intercalate_bare (mt List.reverse_eq_nil_iff.1 hkept) h.bare
    rw [if_neg hkept]
    cases absolute with
    | true => exact iff_of_true rfl rfl
    | false =>
      refine iff_of_false ?_ nofun
      rw [if_neg Bool.false_ne_true, List.nil_append, List.head?_append_of_ne_nil _ hbody]
      exact hhead

/-- It ends with one just if it is to be `closed`, or is nothing else. -/
theorem getLast?_written (closed : Bool) (h : Settled absolute kept) :
    (written absolute closed kept).getLast? = some '/' ↔
      closed = true ∨ kept = [] ∧ absolute = true := by
  rw [written]
  by_cases hkept : kept = []
  · rw [if_pos hkept]
    cases absolute <;> cases closed <;> simp [hkept]
  · obtain ⟨hbody, -, hlast⟩ := intercalate_bare (mt List.reverse_eq_nil_iff.1 hkept) h.bare
    rw [if_neg hkept, or_iff_left fun hroot => hkept hroot.1]
    cases closed with
    | true => exact iff_of_true List.getLast?_concat rfl
    | false =>
      refine iff_of_false ?_ nofun
      rw [if_neg Bool.false_ne_true, List.append_nil, List.getLast?_append_of_ne_nil _ hbody]
      exact hlast

/-- The segments of what is `written` are those that it was written from, beside empty ones. -/
theorem split_written (closed : Bool) (h : Settled absolute kept) (hkept : kept ≠ []) :
    Text.split '/' (written absolute closed kept)
      = (if absolute then [[]] else []) ++ kept.reverse ++ (if closed then [[]] else []) := by
  have hbody : Text.split '/' (['/'].intercalate kept.reverse) = kept.reverse :=
    split_intercalate (mt List.reverse_eq_nil_iff.1 hkept)
      fun segment hmem => (h.bare segment hmem).2
  have hended : Text.split '/' (['/'].intercalate kept.reverse ++ (if closed then ['/'] else []))
      = kept.reverse ++ (if closed then [[]] else []) := by
    cases closed with
    | true => exact (Text.split_append_mark _ []).trans (congrArg (· ++ [[]]) hbody)
    | false => simpa using hbody
  rw [written, if_neg hkept, List.append_assoc, List.append_assoc]
  cases absolute with
  | true => exact (Text.split_mark _).trans (congrArg ([] :: ·) hended)
  | false => exact hended

/-- What was `written` is kept. -/
theorem keptOf_written (closed : Bool) (h : Settled absolute kept) :
    keptOf (written absolute closed kept) = kept := by
  have habsolute : decide ((written absolute closed kept).head? = some '/') = absolute := by
    rw [Bool.eq_iff_iff, decide_eq_true_iff, head?_written closed h]
  by_cases hkept : kept = []
  · subst hkept
    cases absolute <;> cases closed <;> rfl
  · have hempty (wanted : Bool) (kept : List (List Char)) :
        keep absolute kept (if wanted then [[]] else []) = kept := by
      cases wanted with
      | true =>
        show addSegment absolute kept [] = kept
        exact addSegment_nil
      | false => rfl
    rw [keptOf, habsolute, split_written closed h hkept, keep_append, keep_append, hempty,
      hempty, h.keep_reverse]

/-! ## Joining -/

theorem normalizeChars_ne_nil (path : List Char) : normalizeChars path ≠ [] := by
  rw [normalizeChars_eq_written]
  exact written_ne_nil _ (settled_keptOf path)

/-- A path in normal form stays as it is under `normalizeChars`. -/
theorem normalizeChars_normalizeChars (path : List Char) :
    normalizeChars (normalizeChars path) = normalizeChars path := by
  have hsettled := settled_keptOf path
  rw [normalizeChars_eq_written path, normalizeChars_eq_written (written _ _ _),
    keptOf_written _ hsettled]
  generalize decide (path.getLast? = some '/') = closed
  by_cases hroot : keptOf path = [] ∧ decide (path.head? = some '/') = true
  · rw [hroot.1] at hsettled ⊢
    rw [hroot.2] at hsettled ⊢
    cases closed <;> rfl
  · have hhead : decide ((written (path.head? = some '/') closed (keptOf path)).head? = some '/')
        = decide (path.head? = some '/') := by
      rw [Bool.eq_iff_iff, decide_eq_true_iff, head?_written closed hsettled]
    have hlast : decide ((written (path.head? = some '/') closed (keptOf path)).getLast? = some '/')
        = closed := by
      rw [Bool.eq_iff_iff, decide_eq_true_iff, getLast?_written closed hsettled,
        or_iff_left hroot]
    rw [hhead, hlast]

/-- One more segment behind a path. -/
theorem normalizeChars_append (hpath : path ≠ []) (hname : '/' ∉ name) (hfilled : name ≠ []) :
    normalizeChars (path ++ '/' :: name)
      = written (path.head? = some '/') (name.getLast? = some '/')
        (addSegment (path.head? = some '/') (keptOf path) name) := by
  have hhead : (path ++ '/' :: name).head? = path.head? := List.head?_append_of_ne_nil _ hpath
  have hlast : (path ++ '/' :: name).getLast? = name.getLast? := by
    rw [List.getLast?_append_of_ne_nil _ (List.cons_ne_nil _ _),
      List.getLast?_cons_of_ne_nil hfilled]
  have hkept : keptOf (path ++ '/' :: name)
      = addSegment (path.head? = some '/') (keptOf path) name := by
    rw [keptOf, hhead, Text.split_append_mark, Text.split_of_not_mem hname, keep_append]
    rfl
  rw [normalizeChars_eq_written, hhead, hlast, hkept]

/-- A path may be brought into normal form by `normalizeChars` before a segment is added. -/
theorem normalizeChars_normalizeChars_append (hpath : path ≠ []) (hname : '/' ∉ name)
    (hfilled : name ≠ []) :
    normalizeChars (normalizeChars path ++ '/' :: name) = normalizeChars (path ++ '/' :: name) := by
  have hsettled := settled_keptOf path
  have hnormal := normalizeChars_eq_written path
  have hhead : decide ((normalizeChars path).head? = some '/')
      = decide (path.head? = some '/') := by
    rw [hnormal, Bool.eq_iff_iff, decide_eq_true_iff, head?_written _ hsettled]
  have hkept : keptOf (normalizeChars path) = keptOf path := by
    rw [hnormal, keptOf_written _ hsettled]
  rw [normalizeChars_append (normalizeChars_ne_nil path) hname hfilled, hhead, hkept,
    normalizeChars_append hpath hname hfilled]

/-- A segment behind the path `"."` of nothing is the segment alone. -/
theorem normalizeChars_dot_append (hname : '/' ∉ name) (hfilled : name ≠ []) :
    normalizeChars ('.' :: '/' :: name) = normalizeChars name := by
  have hhead : decide (name.head? = some '/') = false :=
    decide_eq_false fun h => hname (List.mem_of_head? h)
  have hkept : keptOf name = addSegment false [] name := by
    rw [keptOf, hhead, Text.split_of_not_mem hname]
    rfl
  have hdot := normalizeChars_append (List.cons_ne_nil '.' []) hname hfilled
  rw [normalizeChars_eq_written name, hhead, hkept]
  exact hdot

end Written

/-- Joined parts, none of which is empty, with one more behind them. -/
theorem intercalate_concat {parts : List (List Char)} (hne : parts ≠ [])
    (hparts : ∀ part ∈ parts, part ≠ []) (name : List Char) :
    ['/'].intercalate parts ≠ [] ∧
      ['/'].intercalate (parts ++ [name]) = ['/'].intercalate parts ++ '/' :: name := by
  induction parts with
  | nil => exact absurd rfl hne
  | cons part parts ih =>
    obtain ⟨hpart, hrest⟩ := List.forall_mem_cons.1 hparts
    cases parts with
    | nil => exact ⟨by rwa [List.intercalate_singleton], by simp [List.intercalate_cons_cons]⟩
    | cons next parts =>
      have hmore := (ih (List.cons_ne_nil _ _) hrest).2
      rw [List.intercalate_cons_cons]
      refine ⟨List.append_ne_nil_of_left_ne_nil (List.append_ne_nil_of_left_ne_nil hpart _) _, ?_⟩
      rw [List.cons_append, List.cons_append, List.intercalate_cons_cons, ← List.cons_append, hmore,
        List.append_assoc, List.append_assoc, List.append_assoc]

/-- What is brought into normal form by `normalizeChars` when paths are joined. -/
theorem toList_join (parts : List String) :
    (join parts).toList
      = normalizeChars (['/'].intercalate ((parts.filter (· ≠ "")).map String.toList)) := by
  rw [join, normalize, String.toList_ofList, String.toList_intercalate]
  rfl

/-- **One segment after another, or all at once: `join` makes the same path.** -/
theorem join_join (parts : List String) {name : String} (hname : '/' ∉ name.toList) :
    join [join parts, name] = join (parts ++ [name]) := by
  have hjoin : join parts ≠ "" := fun h =>
    normalizeChars_ne_nil _ ((toList_join parts).symm.trans (congrArg String.toList h))
  refine String.toList_injective ?_
  by_cases hempty : name = ""
  · have hfirst : [join parts, name].filter (· ≠ "") = [join parts] := by simp [hempty, hjoin]
    have hall : (parts ++ [name]).filter (· ≠ "") = parts.filter (· ≠ "") := by simp [hempty]
    rw [toList_join, hfirst, List.map_singleton, List.intercalate_singleton, toList_join,
      normalizeChars_normalizeChars, toList_join, hall]
  · have hfirst : [join parts, name].filter (· ≠ "") = [join parts, name] := by simp [hempty, hjoin]
    have hall : (parts ++ [name]).filter (· ≠ "") = parts.filter (· ≠ "") ++ [name] := by
      simp [hempty]
    have hfilled : name.toList ≠ [] := mt String.toList_eq_nil_iff.1 hempty
    have hparts : ∀ part ∈ (parts.filter (· ≠ "")).map String.toList, part ≠ [] := by
      intro part hmem
      obtain ⟨text, htext, rfl⟩ := List.mem_map.1 hmem
      exact mt String.toList_eq_nil_iff.1 (of_decide_eq_true (List.mem_filter.1 htext).2)
    have hbehind : ['/'].intercalate [(join parts).toList, name.toList]
        = (join parts).toList ++ '/' :: name.toList := by simp [List.intercalate_cons_cons]
    rw [toList_join, hfirst, List.map_cons, List.map_singleton, hbehind, toList_join, toList_join,
      hall, List.map_append, List.map_singleton]
    generalize (parts.filter (· ≠ "")).map String.toList = texts at hparts ⊢
    by_cases htexts : texts = []
    · -- nothing is joined to but the path of nothing, which is written as a segment of its own
      subst htexts
      rw [List.nil_append, List.intercalate_singleton]
      exact normalizeChars_dot_append hname hfilled
    · obtain ⟨hpath, hconcat⟩ := intercalate_concat htexts hparts name.toList
      rw [hconcat, normalizeChars_normalizeChars_append hpath hname hfilled]

end Path

end Outpost

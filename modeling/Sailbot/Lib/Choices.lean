import Mathlib.Data.List.Induction
import Mathlib.Data.List.Perm.Basic
import Mathlib.Data.List.Sections

/-!
# Choices that grow from left to right

A choice takes one element of each list. Choices are made list by list, and one that does not fit
is dropped as soon as it does not.

* `extendChoices` — every choice so far, with every element of the next list, if it fits.
* `choices`       — the choices for a list of lists, from the empty one.
* `choices_perm`  — these are the sections all of whose beginnings fit, each as often.
-/

namespace Sailbot.Lib

variable {α : Type*}

/-- The choices `cs` with an element of `l` behind them that fit. -/
def extendChoices (fit : List α → Bool) (cs : List (List α)) (l : List α) : List (List α) :=
  l.flatMap fun a => (cs.filter fun c => fit (c ++ [a])).map (· ++ [a])

/-- The choices of one element of each list of `ls`, every beginning of which fits. -/
def choices (fit : List α → Bool) (ls : List (List α)) : List (List α) :=
  ls.foldl (extendChoices fit) [[]]

/-- Every beginning of a choice fits. -/
def fitsAlong (fit : List α → Bool) (c : List α) : Bool :=
  (List.range c.length).all fun n => fit (c.take (n + 1))

variable {fit : List α → Bool}

theorem choices_concat (ls : List (List α)) (l : List α) :
    choices fit (ls ++ [l]) = extendChoices fit (choices fit ls) l :=
  List.foldl_concat ..

theorem fitsAlong_concat (c : List α) (a : α) :
    fitsAlong fit (c ++ [a]) = (fitsAlong fit c && fit (c ++ [a])) := by
  rw [fitsAlong, List.length_append, List.length_singleton, List.range_succ, List.all_append,
    List.all_cons, List.all_nil, Bool.and_true]
  congr 1
  · rw [fitsAlong, Bool.eq_iff_iff, List.all_eq_true, List.all_eq_true]
    refine forall₂_congr ?_
    intro n hn
    rw [List.take_append_of_le_length (List.mem_range.mp hn)]
  · have hLength : (c ++ [a]).length = c.length + 1 := List.length_append
    rw [List.take_of_length_le (Nat.le_of_eq hLength)]

/-- The sections of one more list, by its elements. -/
theorem sections_concat_perm (ls : List (List α)) (l : List α) :
    (ls ++ [l]).sections.Perm (l.flatMap fun a => ls.sections.map (· ++ [a])) := by
  induction ls with
  | nil =>
    show List.Perm ([[]].flatMap fun s => l.map fun a => a :: s) (l.flatMap fun a => [[a]])
    rw [List.flatMap_singleton, List.map_eq_flatMap]
  | cons m ls ih =>
    have hStep : (m :: ls ++ [l]).sections.Perm
        ((l.flatMap fun a => ls.sections.map (· ++ [a])).flatMap fun s => m.map fun b => b :: s) :=
      List.Perm.flatMap_right _ ih
    refine hStep.trans (List.Perm.of_eq ?_)
    rw [List.flatMap_assoc]
    refine List.flatMap_congr ?_
    intro a _
    rw [List.sections, List.map_flatMap, List.flatMap_map]
    refine List.flatMap_congr ?_
    intro s _
    rw [List.map_map]
    rfl

/-- **Choices.** Dropping what does not fit on the way leaves the sections whose beginnings all
fit. -/
theorem choices_perm (ls : List (List α)) :
    (choices fit ls).Perm (ls.sections.filter (fitsAlong fit)) := by
  induction ls using List.reverseRecOn with
  | nil => exact List.Perm.refl _
  | append_singleton ls l ih =>
    have hSections := (sections_concat_perm ls l).filter (fitsAlong fit)
    rw [choices_concat]
    refine List.Perm.trans ?_ hSections.symm
    rw [List.filter_flatMap, extendChoices]
    refine List.Perm.flatMap_left l ?_
    intro a _
    rw [List.filter_map]
    refine List.Perm.map _ ?_
    have hFit : fitsAlong fit ∘ (· ++ [a]) = fun c => fit (c ++ [a]) && fitsAlong fit c := by
      funext c
      rw [Function.comp_apply, fitsAlong_concat, Bool.and_comm]
    rw [hFit, ← List.filter_filter]
    exact ih.filter _

end Sailbot.Lib

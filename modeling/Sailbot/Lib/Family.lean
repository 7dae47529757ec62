import Mathlib.Algebra.BigOperators.Group.Finset.Basic
import Mathlib.Data.Fintype.Basic

/-!
# Families of processes

A system of processes is a function from their names to what each of them is doing, and a
step of one of them changes the function at one place.

* `sum_update_add` — what a count over all processes loses and gains by such a step.
* `forall_update`  — what holds of all the others, and of what the one became, holds of all.
-/

namespace Sailbot.Lib

variable {ι α : Type*} [DecidableEq ι] {g : ι → α} {i : ι} {p : α}

theorem sum_update_add [Fintype ι] {M : Type*} [AddCommMonoid M] (f : α → M) (g : ι → α) (i : ι)
    (p : α) :
    ∑ j, f (Function.update g i p j) + f (g i) = ∑ j, f (g j) + f p := by
  have hNew := Finset.add_sum_erase Finset.univ (fun j => f (Function.update g i p j))
    (Finset.mem_univ i)
  have hOld := Finset.add_sum_erase Finset.univ (fun j => f (g j)) (Finset.mem_univ i)
  have hRest : ∑ j ∈ Finset.univ.erase i, f (Function.update g i p j) =
      ∑ j ∈ Finset.univ.erase i, f (g j) := by
    refine Finset.sum_congr rfl ?_
    intro j hj
    rw [Function.update_of_ne (Finset.ne_of_mem_erase hj)]
  rw [← hNew, ← hOld, hRest, Function.update_self]
  ac_rfl

theorem forall_update {P : α → Prop} (hOthers : ∀ j ≠ i, P (g j)) (hSelf : P p) :
    ∀ j, P (Function.update g i p j) := by
  intro j
  by_cases hji : j = i
  · rw [hji, Function.update_self]
    exact hSelf
  · rw [Function.update_of_ne hji]
    exact hOthers j hji

end Sailbot.Lib

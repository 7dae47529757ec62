import Mathlib.Data.List.Sort
import Mathlib.Data.Multiset.Filter

/-!
# Priority queues

A priority queue that gives back its smallest element first. It is kept as a sorted list;
what matters of it is the multiset of its elements, and every operation has one lemma that
says what it does to this multiset.

* `top_eq_some_iff`        — the top is a smallest element.
* `toMultiset_push`, `toMultiset_pop` — one element more, one element less.
* `toMultiset_popBelow`    — elements below a bound are taken off the top, the others stay.
-/

namespace Sailbot.Lib

structure PriorityQueue (τ : Type*) [LE τ] where
  elems  : List τ
  sorted : elems.Pairwise (· ≤ ·)
  deriving DecidableEq

namespace PriorityQueue

variable {τ : Type*} [LinearOrder τ]

def empty : PriorityQueue τ := ⟨[], .nil⟩

def push (q : PriorityQueue τ) (t : τ) : PriorityQueue τ :=
  ⟨q.elems.orderedInsert (· ≤ ·) t, q.sorted.orderedInsert t _⟩

def top (q : PriorityQueue τ) : Option τ := q.elems.head?

def pop (q : PriorityQueue τ) : PriorityQueue τ := ⟨q.elems.tail, q.sorted.tail⟩

/-- Pops as long as the top is below `t`. -/
def popBelow (q : PriorityQueue τ) (t : τ) : PriorityQueue τ :=
  ⟨q.elems.dropWhile (· < t), q.sorted.sublist (List.dropWhile_sublist _)⟩

/-- The elements, however often each of them is there. -/
def toMultiset (q : PriorityQueue τ) : Multiset τ := ↑q.elems

variable {q : PriorityQueue τ} {t u : τ}

@[simp] theorem toMultiset_empty : (empty : PriorityQueue τ).toMultiset = 0 := rfl

@[simp] theorem toMultiset_push (q : PriorityQueue τ) (t : τ) :
    (q.push t).toMultiset = t ::ₘ q.toMultiset :=
  Multiset.coe_eq_coe.mpr (List.perm_orderedInsert _ t q.elems)

/-- Only an empty heap has no top. -/
theorem top_eq_none_iff : q.top = none ↔ q.toMultiset = 0 := by
  rw [top, List.head?_eq_none_iff, toMultiset, Multiset.coe_eq_zero]

/-- The top is the least element. -/
theorem top_eq_some_iff :
    q.top = some t ↔ t ∈ q.toMultiset ∧ ∀ u ∈ q.toMultiset, t ≤ u := by
  obtain ⟨elems, hSorted⟩ := q
  show elems.head? = some t ↔ t ∈ elems ∧ ∀ u ∈ elems, t ≤ u
  cases elems with
  | nil => simp
  | cons a rest =>
    obtain ⟨hLe, -⟩ := List.pairwise_cons.mp hSorted
    rw [List.head?_cons, Option.some.injEq]
    constructor
    · rintro rfl
      exact ⟨List.mem_cons_self, List.forall_mem_cons.mpr ⟨le_rfl, hLe⟩⟩
    · rintro ⟨hMem, hMin⟩
      rcases List.mem_cons.mp hMem with rfl | hMem
      · rfl
      · exact le_antisymm (hLe t hMem) (hMin a List.mem_cons_self)

/-- Without its top. -/
theorem toMultiset_pop (hTop : q.top = some t) : t ::ₘ q.pop.toMultiset = q.toMultiset := by
  obtain ⟨elems, hSorted⟩ := q
  obtain ⟨rest, rfl⟩ := List.head?_eq_some_iff.mp hTop
  rfl

/-- Without what is less than a bound. -/
theorem toMultiset_popBelow (q : PriorityQueue τ) (t : τ) :
    (q.popBelow t).toMultiset = q.toMultiset.filter (t ≤ ·) := by
  obtain ⟨elems, hSorted⟩ := q
  show (↑(elems.dropWhile (· < t)) : Multiset τ) = Multiset.filter (t ≤ ·) ↑elems
  rw [Multiset.filter_coe, Multiset.coe_eq_coe]
  induction elems with
  | nil => exact .refl _
  | cons a rest ih =>
    obtain ⟨hLe, hRest⟩ := List.pairwise_cons.mp hSorted
    by_cases ha : a < t
    · rw [List.dropWhile_cons_of_pos (by simpa using ha),
        List.filter_cons_of_neg (by simpa using ha)]
      exact ih hRest
    · -- from here on everything is at least `t`
      have hAll : ∀ u ∈ a :: rest, decide (t ≤ u) = true := by
        intro u hu
        rw [decide_eq_true_eq]
        rcases List.mem_cons.mp hu with rfl | hu
        · exact not_lt.mp ha
        · exact (not_lt.mp ha).trans (hLe u hu)
      rw [List.dropWhile_cons_of_neg (by simpa using ha), List.filter_eq_self.mpr hAll]

end PriorityQueue

end Sailbot.Lib

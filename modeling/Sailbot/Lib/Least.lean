import Sailbot.Lib.Plane

/-!
# Searches for the least cost

A loop over trials that keeps the one of least cost: the cost starts at infinity, and a trial is
kept if it is less than the one before. Costs need not be comparable, as floating-point numbers
that are none are not.

* `Arith.keepLeast` — one round.
* `Arith.BelowInf`  — what is less than a number below infinity is below infinity.
* `Arith.IsLeast`   — a trial that no other one is better than, the first one of its cost.
* `Arith.least_none_iff`, `Arith.least_isLeast` — what the loop finds.
-/

namespace Sailbot.Lib.Arith

variable {α R : Type} [Arith R]

/-- Keeps the better one of the best trial so far and the next one. -/
def keepLeast (cost : α → R) (best : Option α) (a : α) : Option α :=
  if ltMin (cost a) (best.map cost) then some a else best

/-- What is less than a number below infinity is below infinity. -/
class BelowInf (R : Type) [Arith R] : Prop where
  below : ∀ a b : R, lt a b = true → ltInf b = true → ltInf a = true

instance belowInf_real : BelowInf ℝ where
  below _ _ _ _ := rfl

instance belowInf_double {F : Formats} {m : Libm} : BelowInf (Double F m) where
  below a b hLess hBelow := StrictOrder.trans (R := Double F m) a b inf hLess hBelow

/-- `a` is the first one of its cost in `l`, and no other one is better. -/
structure IsLeast (cost : α → R) (l : List α) (a : α) : Prop where
  below : ltInf (cost a) = true
  least : ∀ b ∈ l, lt (cost b) (cost a) = false
  first : ∃ before after, l = before ++ a :: after ∧ ∀ b ∈ before, cost b ≠ cost a

theorem IsLeast.mem {cost : α → R} {l : List α} {a : α} (h : IsLeast cost l a) : a ∈ l := by
  obtain ⟨before, after, rfl, -⟩ := h.first
  exact List.mem_append_right _ List.mem_cons_self

variable {cost : α → R} {l : List α} {a b : α}

/-- A trial that is not better changes nothing. -/
theorem IsLeast.keep (h : IsLeast cost l b) (hNot : lt (cost a) (cost b) = false) :
    IsLeast cost (l ++ [a]) b := by
  obtain ⟨before, after, hSplit, hFirst⟩ := h.first
  refine ⟨h.below, ?_, before, after ++ [a], by rw [hSplit]; simp, hFirst⟩
  intro x hx
  rcases List.mem_append.mp hx with hx | hx
  · exact h.least x hx
  · rw [List.mem_singleton.mp hx]
    exact hNot

variable [StrictOrder R] [BelowInf R]

/-- A better trial is the least one of all so far. -/
theorem IsLeast.better (h : IsLeast cost l b) (hLess : lt (cost a) (cost b) = true) :
    IsLeast cost (l ++ [a]) a := by
  have hLeast : ∀ x ∈ l, lt (cost x) (cost a) = false := by
    intro x hx
    refine Bool.eq_false_iff.mpr ?_
    intro hBefore
    exact absurd (StrictOrder.trans _ _ _ hBefore hLess) (Bool.eq_false_iff.mp (h.least x hx))
  refine ⟨BelowInf.below _ _ hLess h.below, ?_, l, [], rfl, ?_⟩
  · intro x hx
    rcases List.mem_append.mp hx with hx | hx
    · exact hLeast x hx
    · rw [List.mem_singleton.mp hx]
      exact StrictOrder.irrefl _
  · intro x hx hSame
    exact absurd (hSame ▸ hLess) (Bool.eq_false_iff.mp (h.least x hx))

omit [BelowInf R] in
/-- The first trial below infinity. -/
theorem isLeast_first (hNone : ∀ x ∈ l, ltInf (cost x) = false) (hBelow : ltInf (cost a) = true)
    (hAll : ∀ x ∈ l, lt (cost x) (cost a) = false) : IsLeast cost (l ++ [a]) a := by
  refine ⟨hBelow, ?_, l, [], rfl, ?_⟩
  · intro x hx
    rcases List.mem_append.mp hx with hx | hx
    · exact hAll x hx
    · rw [List.mem_singleton.mp hx]
      exact StrictOrder.irrefl _
  · intro x hx hSame
    have hFalse := hNone x hx
    rw [hSame, hBelow] at hFalse
    cases hFalse

/-- What the loop has found after the trials `l`. -/
def LeastOf (cost : α → R) (l : List α) : Option α → Prop
  | none => ∀ x ∈ l, ltInf (cost x) = false
  | some b => IsLeast cost l b

/-- One round. -/
theorem leastOf_keepLeast {best : Option α} (h : LeastOf cost l best) (a : α) :
    LeastOf cost (l ++ [a]) (keepLeast cost best a) := by
  cases best with
  | none =>
    rw [keepLeast]
    split
    case isTrue hBelow =>
      refine isLeast_first h hBelow ?_
      intro x hx
      refine Bool.eq_false_iff.mpr ?_
      intro hLess
      exact absurd (BelowInf.below _ _ hLess hBelow) (Bool.eq_false_iff.mp (h x hx))
    case isFalse hNot =>
      intro x hx
      rcases List.mem_append.mp hx with hx | hx
      · exact h x hx
      · rw [List.mem_singleton.mp hx]
        exact Bool.eq_false_iff.mpr hNot
  | some b =>
    rw [keepLeast]
    split
    case isTrue hLess => exact IsLeast.better h hLess
    case isFalse hNot => exact IsLeast.keep h (Bool.eq_false_iff.mpr hNot)

/-- All rounds. -/
theorem leastOf_foldl (cost : α → R) (l : List α) :
    LeastOf cost l (l.foldl (keepLeast cost) none) := by
  have hRounds : ∀ (rest seen : List α) (best : Option α), LeastOf cost seen best →
      LeastOf cost (seen ++ rest) (rest.foldl (keepLeast cost) best) := by
    intro rest
    induction rest with
    | nil =>
      intro seen best h
      rwa [List.append_nil]
    | cons a rest ih =>
      intro seen best h
      have hNext := ih (seen ++ [a]) _ (leastOf_keepLeast h a)
      rwa [List.append_assoc] at hNext
  exact hRounds l [] none (fun _ hx => nomatch hx)

/-- Nothing is found if and only if no trial is below infinity. -/
theorem least_none_iff :
    l.foldl (keepLeast cost) none = none ↔ ∀ a ∈ l, ltInf (cost a) = false := by
  have h := leastOf_foldl cost l
  constructor
  · intro hNone
    rwa [hNone] at h
  · intro hAll
    cases hBest : l.foldl (keepLeast cost) none with
    | none => rfl
    | some b =>
      rw [hBest] at h
      have hBelow := IsLeast.below h
      rw [hAll b (IsLeast.mem h)] at hBelow
      cases hBelow

/-- What is found is the least. -/
theorem least_isLeast (h : l.foldl (keepLeast cost) none = some b) : IsLeast cost l b := by
  have hOf := leastOf_foldl cost l
  rwa [h] at hOf

end Sailbot.Lib.Arith

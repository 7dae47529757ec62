import Sailbot.Lib.ClosedPath
import Sailbot.Math.Distance

/-!
# What `ValidatePoints` accepts

`Polygon::ValidatePoints` (`math/polygon.cc`) looks at each vertex and the two edges that end
there: it accepts a list without a right turn. That the list is a convex polygon it can only
know if the turns add up to one round; a star that goes round twice has no right turn either.

* `validatePoints_iff`        — what the check says: no corner turns to the right.
* `validatePoints_convex_iff` — for which lists the check implies that all vertices are to the
  left of all edges.
* `validatePoints_close`      — an accepted list may be closed.
* `AllLeft.convexCcw`         — such a list is a polygon that `DistToPoint` is for.
-/

namespace Sailbot.Math.Polygon

open Lib Lib.ClosedPath

/-- The vertices, over and over. -/
noncomputable def corner (pts : List (Vec ℝ)) (i : ℕ) : Vec ℝ :=
  pts.getD (i % pts.length) .zero

/-- Every vertex is on or to the left of the line along every edge. -/
def AllLeft (pts : List (Vec ℝ)) : Prop :=
  ∀ i j, 0 ≤ (leg (corner pts) i).cross (corner pts j - corner pts i)

def RightTurn (pts : List (Vec ℝ)) : Prop :=
  ∃ i, (leg (corner pts) i).cross (leg (corner pts) (i + 1)) < 0

/-- The exterior angles add up to one full turn. -/
def TurnsOnce (pts : List (Vec ℝ)) : Prop :=
  turned (corner pts) 0 pts.length = 2 * Real.pi

/-- The list goes round more often, and wherever it has turned past the direction of one of its
edges it is on the line along that edge. -/
def RoundsAgree (pts : List (Vec ℝ)) : Prop :=
  (∃ k : ℕ, 2 ≤ k ∧ turned (corner pts) 0 pts.length = 2 * Real.pi * k) ∧
    ∀ i, TurnsUpOnLine (corner pts) i

variable {pts : List (Vec ℝ)}

/-- The corners come again after one round. -/
theorem corner_add_length (i : ℕ) : corner pts (i + pts.length) = corner pts i := by
  rw [corner, corner, Nat.add_mod_right]

/-- What holds at the corners of the list holds along the way. -/
theorem forall_corner {P : Vec ℝ → Vec ℝ → Vec ℝ → Prop} (hn : 0 < pts.length)
    (h : ∀ i < pts.length, P (corner pts i) (corner pts (i + 1)) (corner pts (i + 2))) (i : ℕ) :
    P (corner pts i) (corner pts (i + 1)) (corner pts (i + 2)) := by
  have hMod : ∀ k, corner pts (i % pts.length + k) = corner pts (i + k) := fun k => by
    rw [corner, corner, Nat.mod_add_mod]
  have hSame := h _ (Nat.mod_lt i hn)
  rwa [hMod 1, hMod 2, ← Nat.add_zero (i % pts.length), hMod 0] at hSame

/-- The turn at a corner, by its neighbours. -/
theorem leg_cross_leg (c : ℕ → Vec ℝ) (i : ℕ) :
    (leg c i).cross (leg c (i + 1)) = (c (i + 1) - c i).cross (c (i + 2) - c i) := by
  simp only [Vec.cross, leg, Vec.sub_x, Vec.sub_y]
  ring

/-- What the check computes at the corner `i`. -/
theorem distToLine_corner (i : ℕ) :
    distToLine (corner pts i) (corner pts (i + 1)) (corner pts (i + 2)) < 0 ↔
      (leg (corner pts) i).cross (leg (corner pts) (i + 1)) < 0 := by
  rw [distToLine_neg_iff, leg_cross_leg]

/-- The validation looks for right turns. -/
theorem validatePoints_iff (h2 : 2 ≤ pts.length) :
    validatePoints pts = true ↔ ¬ RightTurn pts := by
  have hEach : ∀ i < pts.length,
      distToLine (pts.getD i .zero) (pts.getD ((i + 1) % pts.length) .zero)
        (pts.getD ((i + 2) % pts.length) .zero) =
      distToLine (corner pts i) (corner pts (i + 1)) (corner pts (i + 2)) := by
    intro i hi
    rw [corner, corner, corner, Nat.mod_eq_of_lt hi]
  have hNot : ∀ x : ℝ, (!Arith.lt x (Arith.lit 0)) = true ↔ ¬ x < 0 := fun x => by
    rw [Bool.not_eq_true', ← Bool.not_eq_true, Arith.lt_real, Arith.lit_real, Rat.cast_zero]
  rw [validatePoints, if_neg (by omega), List.all_eq_true]
  constructor
  · rintro hAll ⟨i, hRight⟩
    refine forall_corner (P := fun a b c => ¬ distToLine a b c < 0) (by omega) ?_ i
      ((distToLine_corner i).mpr hRight)
    intro i hi
    rw [← hNot, ← hEach i hi]
    exact hAll i (List.mem_range.mpr hi)
  · intro hNone i hi
    rw [hEach i (List.mem_range.mp hi), hNot, distToLine_corner]
    exact fun hRight => hNone ⟨i, hRight⟩

/-- The corners of the first round are the points. -/
theorem corner_of_lt {i : ℕ} (h : i < pts.length) : corner pts i = pts.getD i .zero := by
  rw [corner, Nat.mod_eq_of_lt h]

/-- The vertices of a list with its first vertex at the end once more. -/
theorem corner_close {p : Vec ℝ} {i : ℕ} (h : i ≤ (p :: pts).length) :
    corner (p :: pts ++ [p]) i = corner (p :: pts) i := by
  have hLen : (p :: pts ++ [p]).length = (p :: pts).length + 1 := List.length_append
  rw [corner_of_lt (by omega)]
  rcases h.lt_or_eq with hLt | rfl
  · rw [corner_of_lt hLt, List.getD_eq_getElem?_getD, List.getElem?_append_left hLt,
      ← List.getD_eq_getElem?_getD]
  · rw [List.getD_eq_getElem?_getD, List.getElem?_append_right le_rfl, Nat.sub_self, corner,
      Nat.mod_self]
    rfl

/-- A list that is accepted stays so when its first vertex is put at its end once more. -/
theorem validatePoints_close {p : Vec ℝ} (hTwo : 2 ≤ (p :: pts).length)
    (h : validatePoints (p :: pts) = true) : validatePoints (p :: pts ++ [p]) = true := by
  have hLen : (p :: pts ++ [p]).length = (p :: pts).length + 1 := List.length_append
  rw [validatePoints_iff hTwo] at h
  rw [validatePoints_iff (by omega)]
  rintro ⟨i, hRight⟩
  rw [leg_cross_leg] at hRight
  refine forall_corner (P := fun a b c => ¬ (b - a).cross (c - a) < 0) (by omega) ?_ i hRight
  clear hRight
  intro i hi hRight
  have hAround : corner (p :: pts ++ [p]) ((p :: pts).length + 1) = corner (p :: pts) 0 := by
    rw [← hLen, ← Nat.zero_add (p :: pts ++ [p]).length, corner_add_length, corner_close (by omega)]
  have hFirst : corner (p :: pts) (p :: pts).length = corner (p :: pts) 0 := by
    rw [← Nat.zero_add (p :: pts).length, corner_add_length]
  rcases Nat.lt_or_ge (i + 1) (p :: pts).length with hInner | hOuter
  · rw [corner_close (by omega), corner_close (by omega), corner_close (by omega),
      ← leg_cross_leg] at hRight
    exact h ⟨i, hRight⟩
  · rcases hOuter.eq_or_lt with hLast | hPast
    · -- the edge to the vertex that was put there is followed by one of length zero
      rw [show i + 2 = (p :: pts).length + 1 by omega, hAround, ← hLast, corner_close le_rfl,
        hFirst]
        at hRight
      simp [Vec.cross, mul_comm] at hRight
    · rw [show i = (p :: pts).length by omega, hAround, corner_close le_rfl, hFirst] at hRight
      simp [Vec.cross] at hRight

/-- With the vertices to the left, a list is what `DistToPoint` is for. -/
theorem AllLeft.convexCcw (hAll : AllLeft pts) (h2 : 2 ≤ pts.length)
    (hSize : pts.length < 2 ^ 64) (hNe : ∀ i, corner pts i ≠ corner pts (i + 1)) :
    ConvexCcw ⟨pts⟩ := by
  have hPt : ∀ i < pts.length, pt ⟨pts⟩ i = corner pts i := fun i hi => by
    rw [pt, corner, Nat.mod_eq_of_lt hi]
  have hNext : ∀ i, pt ⟨pts⟩ ((i + 1) % pts.length) = corner pts (i + 1) := fun _ => rfl
  refine ⟨h2, hSize, ?_, ?_⟩
  · intro i hi
    rw [hPt i hi, hNext]
    exact hNe i
  · intro i hi j hj
    rw [hPt i hi, hPt j hj, hNext]
    exact hAll i j

/-- A list that the check accepts goes round to the left, once or more often. -/
theorem left_or_rounds (h3 : 3 ≤ pts.length) (hNe : ∀ i, corner pts i ≠ corner pts (i + 1))
    (hNone : ¬ RightTurn pts) :
    (∀ i, 0 ≤ exteriorAngle (corner pts) i) ∧
      (TurnsOnce pts ∨ ∃ k : ℕ, 2 ≤ k ∧ turned (corner pts) 0 pts.length = 2 * Real.pi * k) := by
  have hLeft : ∀ i, 0 ≤ exteriorAngle (corner pts) i := fun i =>
    (exteriorAngle_nonneg_iff hNe i).mpr (not_lt.mp fun hRight => hNone ⟨i, hRight⟩)
  obtain ⟨k, hk, hTurns⟩ := exists_full_turns hNe corner_add_length hLeft (by omega)
  refine ⟨hLeft, ?_⟩
  rcases hk.eq_or_lt with rfl | hMore
  · exact Or.inl (by rw [TurnsOnce, hTurns, Nat.cast_one, mul_one])
  · exact Or.inr ⟨k, hMore, hTurns⟩

/-- **What the validation says.** A list that is accepted is convex, if and only if it has a right
turn and is not accepted, turns around once, or goes round more often on the same lines. -/
theorem validatePoints_convex_iff (h3 : 3 ≤ pts.length)
    (hNe : ∀ i, corner pts i ≠ corner pts (i + 1)) :
    (validatePoints pts = true → AllLeft pts) ↔
      RightTurn pts ∨ TurnsOnce pts ∨ RoundsAgree pts := by
  have hn : 0 < pts.length := by omega
  rw [validatePoints_iff (by omega)]
  constructor
  · intro hConvex
    by_cases hRight : RightTurn pts
    · exact Or.inl hRight
    right
    obtain ⟨-, hOnce | hMore⟩ := left_or_rounds h3 hNe hRight
    · exact Or.inl hOnce
    · exact Or.inr ⟨hMore, turnsUp_of_left hNe (hConvex hRight)⟩
  · intro hCases hNone i j
    obtain ⟨hLeft, -⟩ := left_or_rounds h3 hNe hNone
    obtain ⟨m, hm, hSame⟩ := exists_behind hn corner_add_length i j
    rw [← hSame]
    rcases hCases with hRight | hOnce | ⟨-, hUp⟩
    · exact absurd hRight hNone
    · exact left_of_once hNe corner_add_length hLeft
        ((turned_period corner_add_length i).trans hOnce) hm.le
    · exact left_of_turnsUp hn corner_add_length (hUp i) m

/-- The triangle is to the left of all its edges. -/
theorem triangle_allLeft : AllLeft triangle.pts := by
  intro i j
  have hi : i % 3 = 0 ∧ (i + 1) % 3 = 1 ∨ i % 3 = 1 ∧ (i + 1) % 3 = 2 ∨
      i % 3 = 2 ∧ (i + 1) % 3 = 0 := by
    omega
  have hj : j % 3 = 0 ∨ j % 3 = 1 ∨ j % 3 = 2 := by omega
  rcases hi with ⟨hi, hNext⟩ | ⟨hi, hNext⟩ | ⟨hi, hNext⟩ <;>
    rcases hj with hj | hj | hj <;>
    simp [leg, corner, triangle, Vec.cross, hi, hNext, hj]

/-- A triangle, which turns around once. -/
theorem validatePoints_convex_iff_triangle :
    AllLeft triangle.pts ∧
      (RightTurn triangle.pts ∨ TurnsOnce triangle.pts ∨ RoundsAgree triangle.pts) := by
  refine ⟨triangle_allLeft, (validatePoints_convex_iff (by decide)
    (forall_corner (P := fun a b _ => a ≠ b) (by decide) fun i hi => ?_)).mp
      fun _ => triangle_allLeft⟩
  simp only [triangle, List.length_cons, List.length_nil] at hi
  interval_cases i <;> simp [corner, triangle]

/-- A star with five points, which goes round twice. -/
noncomputable def pentagram : List (Vec ℝ) := [⟨0, 3⟩, ⟨-2, -3⟩, ⟨3, 1⟩, ⟨-3, 1⟩, ⟨2, -3⟩]

/-- The pentagram turns around twice, always to the left. -/
theorem pentagram_accepted :
    3 ≤ pentagram.length ∧ (∀ i, corner pentagram i ≠ corner pentagram (i + 1)) ∧
      validatePoints pentagram = true ∧ ¬ AllLeft pentagram := by
  have hn : 0 < pentagram.length := by decide
  refine ⟨by decide, forall_corner (P := fun a b _ => a ≠ b) hn ?_, ?_, ?_⟩
  · intro i hi
    simp only [pentagram, List.length_cons, List.length_nil] at hi
    interval_cases i <;> simp [corner, pentagram] <;> norm_num
  · rw [validatePoints_iff (by decide)]
    rintro ⟨i, hRight⟩
    rw [leg_cross_leg] at hRight
    refine forall_corner (P := fun a b c => ¬ (b - a).cross (c - a) < 0) hn ?_ i hRight
    intro i hi
    simp only [pentagram, List.length_cons, List.length_nil] at hi
    interval_cases i <;> simp [corner, pentagram, Vec.cross] <;> norm_num
  · -- the fourth point is to the right of the first edge
    intro hAll
    have := hAll 0 3
    simp [leg, corner, pentagram, Vec.cross] at this
    norm_num at this

end Sailbot.Math.Polygon

import Mathlib.Analysis.Normed.Group.AddCircle
import Mathlib.MeasureTheory.Integral.IntervalIntegral.Periodic

/-!
# Arcs of a circle

The points between two points of a circle, on the shorter way, and how long the part of this way
is that lies in a set.

* `arc`              — the shorter way between two points. It is the whole circle if they are
  opposite to each other.
* `mem_arc_iff`      — the way in terms of the distance from its start.
* `volume_arc_inter` — lengths on it.
-/

namespace Sailbot.Lib

open MeasureTheory

variable {T : ℝ}

/-- The points on the shorter way from `a` to `b`. -/
def arc (a b : AddCircle T) : Set (AddCircle T) := {x | dist a x + dist x b = dist a b}

/-- The arc between two points is the same from both sides. -/
theorem arc_comm (a b : AddCircle T) : arc a b = arc b a := by
  ext x
  show _ = _ ↔ _ = _
  rw [dist_comm a x, dist_comm x b, dist_comm a b, add_comm]

/-- An arc has its ends. -/
theorem isClosed_arc (a b : AddCircle T) : IsClosed (arc a b) :=
  isClosed_eq (by fun_prop) (by fun_prop)

variable [hT : Fact (0 < T)]

/-- Less than a whole turn away, there is no turn between. -/
theorem turns_eq_zero {x r : ℝ} {k : ℤ} (hx : |x| < T - r) (hk : |x - k * T| ≤ r) : k = 0 := by
  by_contra hNe
  have hOne : (1 : ℝ) ≤ |(k : ℝ)| := by exact_mod_cast Int.one_le_abs hNe
  have hTurn : T ≤ |k * T| := by
    rw [abs_mul, abs_of_pos hT.out]
    exact le_mul_of_one_le_left hT.out.le hOne
  have hWay : |k * T| ≤ |x| + |x - k * T| := by
    calc |k * T| = |x - (x - k * T)| := by congr 1; ring
      _ ≤ |x| + |x - k * T| := abs_sub _ _
  linarith

/-- Up to half of the circle, the length of a way is the distance of its ends. -/
theorem norm_coe {x : ℝ} (hx : |x| ≤ T / 2) : ‖(x : AddCircle T)‖ = |x| := by
  rw [AddCircle.norm_coe_eq_abs_iff T hT.out.ne', abs_of_pos hT.out]
  exact hx

/-- Within a radius, unless the way is nearly once around the circle. -/
theorem norm_coe_le_iff {x r : ℝ} (hr : r ≤ T / 2) (hx : |x| < T - r) :
    ‖(x : AddCircle T)‖ ≤ r ↔ |x| ≤ r := by
  constructor
  · intro hNorm
    rw [AddCircle.norm_eq] at hNorm
    have hZero := turns_eq_zero hx hNorm
    rwa [hZero, Int.cast_zero, zero_mul, sub_zero] at hNorm
  · intro hLe
    rw [norm_coe (hLe.trans hr)]
    exact hLe

/-- The way of at most half a round is its own distance. -/
theorem dist_coe_add {x y : ℝ} (hy : |y| ≤ T / 2) :
    dist (x : AddCircle T) (x + y : ℝ) = |y| := by
  rw [dist_comm, dist_eq_norm, ← AddCircle.coe_sub, add_sub_cancel_left, norm_coe hy]

variable {s d t : ℝ}

/-- By the distance from the start: the sign is the side to which one goes. -/
theorem mem_arc_iff (hd : |d| < T / 2) (ht : |t| ≤ T / 2) :
    ((s + t : ℝ) : AddCircle T) ∈ arc (s : AddCircle T) (s + d : ℝ) ↔ t ∈ Set.uIcc 0 d := by
  show dist _ _ + dist _ _ = dist _ _ ↔ _
  rw [dist_coe_add ht, dist_coe_add hd.le, dist_eq_norm, ← AddCircle.coe_sub,
    add_sub_add_left_eq_sub]
  constructor
  · intro hSum
    rw [AddCircle.norm_eq] at hSum
    -- a way around the circle would be too long
    have hZero : round (T⁻¹ * (t - d)) = 0 :=
      turns_eq_zero (T := T) (x := t - d) (r := |d| - |t|) (by linarith [abs_sub t d])
        (by linarith)
    rw [hZero, Int.cast_zero, zero_mul, sub_zero] at hSum
    rw [Set.mem_uIcc]
    grind
  · intro hMem
    have hLe : |t - d| ≤ |d| := by
      rw [Set.mem_uIcc] at hMem
      grind
    rw [norm_coe (by linarith)]
    rw [Set.mem_uIcc] at hMem
    grind

/-- The length of the part of a way that lies in a set. -/
theorem volume_arc_inter (hd : |d| < T / 2) {u : Set (AddCircle T)} (hu : MeasurableSet u) :
    volume (arc (s : AddCircle T) (s + d : ℝ) ∩ u) =
      volume {t ∈ Set.uIcc 0 d | ((s + t : ℝ) : AddCircle T) ∈ u} := by
  rw [AddCircle.add_projection_respects_measure T (s - T / 2)
      ((isClosed_arc _ _).measurableSet.inter hu), ← measure_preimage_add volume s]
  congr 1
  ext t
  constructor
  · rintro ⟨⟨hArc, hu⟩, hLow, hHigh⟩
    exact ⟨(mem_arc_iff hd (abs_le.mpr ⟨by linarith, by linarith⟩)).mp hArc, hu⟩
  · rintro ⟨hMem, hu⟩
    have hLe : |t| ≤ |d| := by
      rw [Set.mem_uIcc] at hMem
      grind
    obtain ⟨hLow, hHigh⟩ := abs_lt.mp (lt_of_le_of_lt hLe hd)
    refine ⟨⟨(mem_arc_iff hd (hLe.trans hd.le)).mpr hMem, hu⟩, ?_, ?_⟩
    · show s - T / 2 < s + t
      linarith
    · show s + t ≤ s - T / 2 + T
      linarith

/-- The way itself. -/
theorem volume_arc (hd : |d| < T / 2) :
    volume (arc (s : AddCircle T) (s + d : ℝ)) = ENNReal.ofReal |d| := by
  rw [← Set.inter_univ (arc _ _), volume_arc_inter hd MeasurableSet.univ]
  simp [Real.volume_interval]

/-- By the distance from the start to one of the sides. -/
theorem volume_arc_inter_side {side l : ℝ} (hSide : side = 1 ∨ side = -1) (hl : 0 ≤ l)
    (hLt : l < T / 2) {u : Set (AddCircle T)} (hu : MeasurableSet u) :
    volume (arc (s : AddCircle T) (s + side * l : ℝ) ∩ u) =
      volume {t ∈ Set.Icc 0 l | ((s + side * t : ℝ) : AddCircle T) ∈ u} := by
  have hAbs : ∀ t : ℝ, |side * t| = |t| := by
    intro t
    rcases hSide with rfl | rfl
    · rw [one_mul]
    · rw [neg_one_mul, abs_neg]
  have hInv : ENNReal.ofReal |side⁻¹| = 1 := by
    rcases hSide with rfl | rfl <;> norm_num
  have hNe : side ≠ 0 := by
    rcases hSide with rfl | rfl <;> norm_num
  have hMirror : {t ∈ Set.Icc 0 l | ((s + side * t : ℝ) : AddCircle T) ∈ u} =
      Set.preimage (side * ·)
        {t ∈ Set.uIcc 0 (side * l) | ((s + t : ℝ) : AddCircle T) ∈ u} := by
    ext t
    have hMem : side * t ∈ Set.uIcc 0 (side * l) ↔ t ∈ Set.Icc 0 l := by
      rw [Set.mem_uIcc, Set.mem_Icc]
      rcases hSide with rfl | rfl <;> grind
    simp only [Set.mem_preimage, Set.mem_ofPred_eq, hMem]
  rw [hMirror, Real.volume_preimage_mul_left hNe, hInv, one_mul]
  exact volume_arc_inter (by rwa [hAbs, abs_of_nonneg hl]) hu

end Sailbot.Lib

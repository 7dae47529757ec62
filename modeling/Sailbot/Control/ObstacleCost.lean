import Mathlib.Algebra.Order.BigOperators.Group.List
import Sailbot.Lib.Loop
import Sailbot.Math.Distance
import Sailbot.Control.LineCost

/-!
# The cost of an obstacle

`ObstacleCost` (`control/line_plan.cc`) in exact arithmetic. The cost of a leg is an integral
along it, of a function that is zero ten meters away from an obstacle, and the integral is
approximated by the values at ten points, in the middle of ten equal parts of the leg. A leg
has a positive cost if one of these points is within ten meters of an obstacle. That is so for
every leg of less than 200 m that touches an obstacle; a longer one may go through an obstacle
between two of the points.

* `cost_pos_iff`                — the cost by what `DistToPoint` returns at the ten points.
* `cost_pos_of_contract`        — the same by the distances to the obstacles.
* `long_leg_free`               — a long leg that goes through an obstacle and costs nothing.
-/

namespace Sailbot.Control.LineCost

open Lib Math
open Lib.Arith (lit)

/-- The middle of the part `i` of a leg. -/
def evalpt {R : Type} [Arith R] (start stop : Vec R) (i : Nat) : Vec R :=
  let alpha : R := (lit i + lit (1 / 2)) / lit 10
  start + alpha * (stop - start)

/-- What one obstacle costs at one point. -/
def pointCost {R : Type} [Arith R] (dx : R) (obstacle : Math.Polygon R) (pt : Vec R) : R :=
  let diff := Arith.max (lit 0) (lit 10 - obstacle.distToPoint pt) / lit 10
  kObstacleCost * diff * diff * dx

-- ---------------------------------------------------------------------------
-- The sum
-- ---------------------------------------------------------------------------

/-- A sum of terms that are not negative is positive if one of them is. -/
theorem sum_pos_iff {α : Type*} {f : α → ℝ} {l : List α} (h : ∀ a ∈ l, 0 ≤ f a) :
    0 < (l.map f).sum ↔ ∃ a ∈ l, 0 < f a := by
  induction l with
  | nil => simp
  | cons a l ih =>
    obtain ⟨ha, hl⟩ := List.forall_mem_cons.mp h
    have hRest : 0 ≤ (l.map f).sum := List.sum_nonneg (by simpa using hl)
    rw [List.map_cons, List.sum_cons, List.exists_mem_cons_iff, ← ih hl]
    constructor
    · intro hPos
      by_contra hNone
      obtain ⟨hFirst, hOthers⟩ := not_or.mp hNone
      linarith
    · rintro (hFirst | hOthers)
      · linarith
      · linarith

variable {start stop : Vec ℝ} {obstacles : List (Math.Polygon ℝ)}

/-- The cost of a leg, at the middles of its ten parts. -/
theorem obstacleCostAt_eq (start stop : Vec ℝ) (obstacles : List (Math.Polygon ℝ)) :
    obstacleCostAt start stop obstacles = ((List.range 10).map fun i =>
      (obstacles.map fun o =>
        pointCost ((start - stop).norm / lit 10) o (evalpt start stop i)).sum).sum := by
  have hInner (cost : ℝ) (i : Nat) :
      obstacles.foldl (fun cost o =>
        cost + pointCost ((start - stop).norm / lit 10) o (evalpt start stop i)) cost =
      cost + (obstacles.map fun o =>
        pointCost ((start - stop).norm / lit 10) o (evalpt start stop i)).sum :=
    foldl_eq_sum _ _ _
  show (List.range 10).foldl (fun cost i => obstacles.foldl (fun cost o =>
    cost + pointCost ((start - stop).norm / lit 10) o (evalpt start stop i)) cost) (lit 0) = _
  simp only [hInner]
  rw [foldl_eq_sum, Arith.lit_real, Rat.cast_zero, zero_add]

/-- The cost grows from zero at ten meters by the square. -/
theorem pointCost_eq (dx : ℝ) (o : Math.Polygon ℝ) (pt : Vec ℝ) :
    pointCost dx o pt = 100 * (Max.max 0 (10 - o.distToPoint pt) / 10) ^ 2 * dx := by
  have hCost : (kObstacleCost : ℝ) = 100 := Rat.cast_ofNat 100
  have hTen : (lit 10 : ℝ) = 10 := Rat.cast_ofNat 10
  have hZero : (lit 0 : ℝ) = 0 := Rat.cast_zero
  rw [pointCost, Arith.max_real, hCost, hTen, hZero]
  show 100 * (_ / 10) * (_ / 10) * dx = _
  ring

/-- No obstacle pays for a point. -/
theorem pointCost_nonneg {dx : ℝ} (hdx : 0 ≤ dx) (o : Math.Polygon ℝ) (pt : Vec ℝ) :
    0 ≤ pointCost dx o pt := by
  rw [pointCost_eq]
  positivity

/-- A point costs something, if and only if an obstacle is nearer than ten meters. -/
theorem pointCost_pos_iff {dx : ℝ} (hdx : 0 < dx) (o : Math.Polygon ℝ) (pt : Vec ℝ) :
    0 < pointCost dx o pt ↔ o.distToPoint pt < 10 := by
  rw [pointCost_eq]
  constructor
  · intro hPos
    by_contra hFar
    rw [max_eq_left (by linarith)] at hPos
    simp at hPos
  · intro hNear
    rw [max_eq_right (by linarith)]
    have : 0 < 10 - o.distToPoint pt := by linarith
    positivity

/-- The cost is positive when one of the ten points is less than ten meters from an obstacle,
as the code measures it. -/
theorem cost_pos_iff (hNe : start ≠ stop) :
    0 < obstacleCostAt start stop obstacles ↔
      ∃ i < 10, ∃ o ∈ obstacles, o.distToPoint (evalpt start stop i) < 10 := by
  have hdx : 0 < (start - stop).norm / lit 10 := by
    have hTen : (lit 10 : ℝ) = 10 := Rat.cast_ofNat 10
    rw [hTen]
    exact div_pos (Vec.norm_pos hNe.symm) (by norm_num)
  have hNonneg (i : Nat) : ∀ o ∈ obstacles,
      0 ≤ pointCost ((start - stop).norm / lit 10) o (evalpt start stop i) :=
    fun o _ => pointCost_nonneg hdx.le o _
  rw [obstacleCostAt_eq, sum_pos_iff]
  · simp only [sum_pos_iff (hNonneg _), pointCost_pos_iff hdx, List.mem_range]
  · intro i _
    exact List.sum_nonneg (by simpa using hNonneg i)

-- ---------------------------------------------------------------------------
-- Distances
-- ---------------------------------------------------------------------------

/-- The middle of a part, on the straight way. -/
theorem evalpt_eq (start stop : Vec ℝ) (i : Nat) :
    evalpt start stop i = start + ((i + 1 / 2 : ℝ) / 10) * (stop - start) := by
  have hAlpha : ((lit i + lit (1 / 2)) / lit 10 : ℝ) = (i + 1 / 2 : ℝ) / 10 := by
    rw [Arith.lit_real, Arith.lit_real, Arith.lit_real]
    push_cast
    rfl
  rw [← hAlpha]
  rfl

/-- Where `DistToPoint` keeps its contract, it is less than ten meters when the distance is. -/
theorem distToPoint_lt_iff {o : Math.Polygon ℝ} {pt : Vec ℝ} (h : o.Contract pt) :
    o.distToPoint pt < 10 ↔ Metric.infDist pt.toComplex o.region < 10 := by
  by_cases hIn : pt.toComplex ∈ interior o.region
  · have hNeg := h.1 hIn
    rw [Metric.infDist_zero_of_mem (interior_subset hIn)]
    exact ⟨fun _ => by norm_num, fun _ => by linarith⟩
  · rw [h.2 hIn]

/-- A point of a leg is within a twentieth of its length from one of the ten points. -/
theorem exists_evalpt_near {z : ℂ} (hz : z ∈ segment ℝ start.toComplex stop.toComplex) :
    ∃ i < 10, dist (evalpt start stop i).toComplex z ≤ (stop - start).norm / 20 := by
  obtain ⟨t, ht0, ht1, hEq⟩ := Vec.mem_segment_iff.mp hz
  obtain ⟨i, hi, hLow, hHigh⟩ : ∃ i : Nat, i < 10 ∧ (i : ℝ) ≤ 10 * t ∧ 10 * t ≤ i + 1 := by
    rcases ht1.lt_or_eq with hLt | rfl
    · refine ⟨⌊10 * t⌋₊, (Nat.floor_lt (by linarith)).mpr (by push_cast; linarith),
        Nat.floor_le (by linarith), (Nat.lt_floor_add_one _).le⟩
    · exact ⟨9, by norm_num, by norm_num, by norm_num⟩
  refine ⟨i, hi, ?_⟩
  have hClose : ((i + 1 / 2 : ℝ) / 10 - t) ^ 2 ≤ (1 / 20) ^ 2 :=
    sq_le_sq' (by linarith) (by linarith)
  have hLength := (stop - start).norm_sq
  have hNonneg := (stop - start).norm_nonneg
  rw [Vec.dist_toComplex, hEq, evalpt_eq, Vec.norm_le_iff (by positivity)]
  simp only [Vec.sub_x, Vec.sub_y, Vec.add_x, Vec.add_y, Vec.smul_x, Vec.smul_y] at hLength ⊢
  calc _ = ((i + 1 / 2 : ℝ) / 10 - t) ^ 2 * (stop - start).norm ^ 2 := by
        rw [hLength]
        ring
    _ ≤ (1 / 20) ^ 2 * (stop - start).norm ^ 2 :=
        mul_le_mul_of_nonneg_right hClose (sq_nonneg _)
    _ = ((stop - start).norm / 20) ^ 2 := by ring

/-- **The cost of obstacles.** A leg of less than 200 m that touches an obstacle has a positive
cost, and where `DistToPoint` keeps its contract at the ten points of a leg, whatever its length,
the cost is positive exactly when one of them is in an obstacle or less than ten meters from
it. -/
theorem cost_pos_of_contract (start stop : Vec ℝ) (obstacles : List (Math.Polygon ℝ))
    (hNe : start ≠ stop) :
    (∀ o ∈ obstacles, (∀ i < 10, o.Contract (evalpt start stop i)) →
      (stop - start).norm < 200 → ∀ z ∈ o.region,
        z ∈ segment ℝ start.toComplex stop.toComplex →
          0 < (obstacleCost start stop obstacles).1) ∧
    ((∀ o ∈ obstacles, ∀ i < 10, o.Contract (evalpt start stop i)) →
      (0 < (obstacleCost start stop obstacles).1 ↔ ∃ i < 10, ∃ o ∈ obstacles,
        Metric.infDist (evalpt start stop i).toComplex o.region < 10)) := by
  have hIff : 0 < (obstacleCost start stop obstacles).1 ↔
      ∃ i < 10, ∃ o ∈ obstacles, o.distToPoint (evalpt start stop i) < 10 := cost_pos_iff hNe
  constructor
  · intro o ho hContract hShort z hz hOn
    obtain ⟨i, hi, hNear⟩ := exists_evalpt_near hOn
    refine hIff.mpr ⟨i, hi, o, ho, (distToPoint_lt_iff (hContract i hi)).mpr ?_⟩
    have hLe : Metric.infDist (evalpt start stop i).toComplex o.region ≤ _ :=
      Metric.infDist_le_dist_of_mem hz
    linarith
  · intro hContract
    rw [hIff]
    constructor
    · rintro ⟨i, hi, o, ho, hNear⟩
      exact ⟨i, hi, o, ho, (distToPoint_lt_iff (hContract o ho i hi)).mp hNear⟩
    · rintro ⟨i, hi, o, ho, hNear⟩
      exact ⟨i, hi, o, ho, (distToPoint_lt_iff (hContract o ho i hi)).mpr hNear⟩

-- ---------------------------------------------------------------------------
-- A wall
-- ---------------------------------------------------------------------------

/-- A wall of two meters across the axis of `x`. -/
def wall : Math.Polygon ℝ := ⟨[⟨0, -1⟩, ⟨0, 1⟩]⟩

/-- The wall is a convex polygon. -/
theorem wall_convexCcw : wall.ConvexCcw where
  two := le_rfl
  size := by decide
  distinct := by
    intro i hi
    have hi : i < 2 := hi
    interval_cases i <;> simp [wall, Polygon.pt] <;> norm_num
  left := by
    intro i hi j hj
    have hi : i < 2 := hi
    have hj : j < 2 := hj
    interval_cases i <;> interval_cases j <;> simp [wall, Polygon.pt, Vec.cross]

/-- All of the wall is on the axis of `y`. -/
theorem wall_re {z : ℂ} (hz : z ∈ wall.region) : z.re = 0 := by
  have h0 := wall_convexCcw.region_left (i := 0) (by decide) hz
  have h1 := wall_convexCcw.region_left (i := 1) (by decide) hz
  simp [wall, Polygon.pt, Vec.cross] at h0 h1
  linarith

/-- The lower end of the wall is taken as its nearest point, from anywhere on the axis. -/
theorem wall_firstNearest (x : ℝ) : wall.FirstNearest ⟨x, 0⟩ 0 := by
  refine ⟨by decide, ?_, nofun⟩
  intro j hj
  have hj : j < 2 := hj
  rw [Vec.norm_le_norm_iff]
  interval_cases j <;> simp [wall, Polygon.pt, Vec.squaredNorm_eq]

/-- The two edges that the code looks at are the wall in both directions. -/
theorem wall_left_iff (x : ℝ) :
    (Polygon.StrictlyLeft (wall.before 0) (wall.pt 0) ⟨x, 0⟩ ↔ 0 < x) ∧
      (Polygon.StrictlyLeft (wall.pt 0) (wall.behind 0) ⟨x, 0⟩ ↔ x < 0) := by
  have hFirst : wall.pt 0 = ⟨0, -1⟩ := rfl
  have hBefore : wall.before 0 = ⟨0, 1⟩ := rfl
  have hBehind : wall.behind 0 = ⟨0, 1⟩ := rfl
  rw [hFirst, hBefore, hBehind]
  simp only [Polygon.StrictlyLeft, Vec.cross, Vec.sub_x, Vec.sub_y]
  constructor
  · constructor <;> intro h <;> linarith
  · constructor <;> intro h <;> linarith

/-- The middle of the wall. -/
theorem zero_mem_wall : (0 : ℂ) ∈ segment ℝ (wall.pt 0).toComplex (wall.behind 0).toComplex ∧
    (0 : ℂ) ∈ segment ℝ (wall.before 0).toComplex (wall.pt 0).toComplex := by
  have hFirst : wall.pt 0 = ⟨0, -1⟩ := rfl
  have hBefore : wall.before 0 = ⟨0, 1⟩ := rfl
  have hBehind : wall.behind 0 = ⟨0, 1⟩ := rfl
  have hMem : (0 : ℂ) ∈ segment ℝ (⟨0, -1⟩ : Vec ℝ).toComplex (⟨0, 1⟩ : Vec ℝ).toComplex :=
    Vec.mem_segment_iff.mpr ⟨1 / 2, by norm_num, by norm_num,
      Vec.ext (by simp) (by simp; norm_num)⟩
  rw [hFirst, hBefore, hBehind]
  exact ⟨hMem, by rwa [segment_symm]⟩

/-- The wall goes through the origin. -/
theorem zero_mem_wall_region : (0 : ℂ) ∈ wall.region :=
  Polygon.segment_subset_region (p := wall) (i := 0) (j := 1) (by decide) (by decide)
    zero_mem_wall.1

/-- The distance of a point on the axis from the wall. -/
theorem wall_infDist (x : ℝ) : Metric.infDist (⟨x, 0⟩ : Vec ℝ).toComplex wall.region = |x| := by
  refine le_antisymm ?_ ?_
  · refine (Metric.infDist_le_dist_of_mem zero_mem_wall_region).trans ?_
    rw [Vec.dist_toComplex, Vec.norm_le_iff (abs_nonneg x)]
    simp
  · rw [Metric.le_infDist ⟨_, zero_mem_wall_region⟩]
    intro z hz
    have hRe := Complex.abs_re_le_norm ((⟨x, 0⟩ : Vec ℝ).toComplex - z)
    rwa [Complex.sub_re, wall_re hz, sub_zero, ← dist_eq_norm] at hRe

/-- On the axis of `x`, the code measures the distance to the wall. -/
theorem wall_contract (x : ℝ) : wall.Contract ⟨x, 0⟩ := by
  have hm := wall_firstNearest x
  obtain ⟨hBefore, hBehind⟩ := wall_left_iff x
  have hEdge : wall.NearestOnEdge ⟨x, 0⟩ 0 := by
    refine ⟨0, zero_mem_wall_region, ?_, ?_⟩
    · rw [wall_infDist, Vec.dist_toComplex, Vec.norm_eq]
      simp [Real.sqrt_sq_eq_abs]
    · by_cases hx : 0 < x
      · exact .inr ⟨zero_mem_wall.1, fun hLeft => absurd (hBehind.mp hLeft) hx.not_gt⟩
      · exact .inl ⟨zero_mem_wall.2, fun hLeft => hx (hBefore.mp hLeft)⟩
  refine ⟨fun hIn => ?_, fun _ => Polygon.eq_of_nearestOnEdge wall_convexCcw hm hEdge⟩
  -- The wall has no inside.
  have hZero := wall_re (interior_subset hIn)
  have hLeft := hBehind.mp (wall_convexCcw.left_behind hm hIn)
  exact absurd hZero hLeft.ne

/-- A leg of 100 m through the wall. -/
theorem cost_pos_of_contract_wall : 0 < (obstacleCost ⟨-50, 0⟩ ⟨50, 0⟩ [wall]).1 := by
  have hNe : (⟨-50, 0⟩ : Vec ℝ) ≠ ⟨50, 0⟩ := by
    simp
    norm_num
  refine (cost_pos_of_contract ⟨-50, 0⟩ ⟨50, 0⟩ [wall] hNe).1 wall (List.mem_singleton.mpr rfl)
    ?_ ?_ 0 zero_mem_wall_region ?_
  · intro i _
    have hPt : evalpt ⟨-50, 0⟩ ⟨50, 0⟩ i = (⟨10 * i - 45, 0⟩ : Vec ℝ) := by
      rw [evalpt_eq]
      refine Vec.ext ?_ ?_ <;> simp
      ring
    rw [hPt]
    exact wall_contract _
  · rw [Vec.norm_lt_iff (by norm_num)]
    norm_num
  · exact Vec.mem_segment_iff.mpr ⟨1 / 2, by norm_num, by norm_num,
      Vec.ext (by simp; norm_num) (by simp)⟩

/-- A leg of 2000 m straight through the wall is free. -/
theorem long_leg_free :
    wall.ConvexCcw ∧ (0 : ℂ) ∈ wall.region ∧
      (0 : ℂ) ∈ segment ℝ (⟨-1000, 0⟩ : Vec ℝ).toComplex (⟨1000, 0⟩ : Vec ℝ).toComplex ∧
      ¬ 0 < (obstacleCost ⟨-1000, 0⟩ ⟨1000, 0⟩ [wall]).1 := by
  have hNe : (⟨-1000, 0⟩ : Vec ℝ) ≠ ⟨1000, 0⟩ := by
    simp
    norm_num
  refine ⟨wall_convexCcw, zero_mem_wall_region, ?_, ?_⟩
  · refine Vec.mem_segment_iff.mpr ⟨1 / 2, by norm_num, by norm_num, ?_⟩
    exact Vec.ext (by simp; norm_num) (by simp)
  · show ¬ 0 < obstacleCostAt _ _ _
    rw [cost_pos_iff hNe]
    rintro ⟨i, hi, o, ho, hNear⟩
    obtain rfl := List.mem_singleton.mp ho
    -- The ten points are 200 m apart, and the wall is in the middle between two of them.
    have hPt : evalpt ⟨-1000, 0⟩ ⟨1000, 0⟩ i = (⟨200 * i - 900, 0⟩ : Vec ℝ) := by
      rw [evalpt_eq]
      refine Vec.ext ?_ ?_ <;> simp
      ring
    rw [hPt, distToPoint_lt_iff (wall_contract _), wall_infDist] at hNear
    rw [abs_lt] at hNear
    interval_cases i <;> norm_num at hNear

end Sailbot.Control.LineCost

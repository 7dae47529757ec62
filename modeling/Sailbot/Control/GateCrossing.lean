import Sailbot.Math.Line
import Sailbot.Control.LinePlanIndex
import Sailbot.Control.LinePlanFrame

/-!
# Crossing a gate

`UpdateWaypointInc` (`control/line_plan.cc`) in exact arithmetic. A gate stands for the ray from
its start through its end; the boat has passed it when the way between two positions meets the
ray. The code asks whether both positions project to the ray and are not on the same side of its
line, and it also counts a position within eight meters of the start. That is enough where two
positions are less than eight meters apart: a boat that meets the ray while one of its positions
does not project to it is that close to the start.

* `makeGate_norm`          — every gate is as wide as it should be.
* `near_of_crosses`        — the corner that a boat may cut.
* `crossing_detected`      — crossings are noticed, and nothing else is, at every call that a run
  makes.
-/

namespace Sailbot.Control.LinePlan

open Lib Math LinePath
open Lib.Arith (lit litf)

-- ---------------------------------------------------------------------------
-- The way of the boat and the ray
-- ---------------------------------------------------------------------------

/-- The straight way from `p0` to `p1` meets the open ray from the start of a gate through its
end. -/
def Crosses (gate : Gate ℝ) (p0 p1 : Vec ℝ) : Prop :=
  ∃ k t : ℝ, 0 ≤ k ∧ k ≤ 1 ∧ 0 < t ∧ p0 + k * (p1 - p0) = gate.1 + t * (gate.2 - gate.1)

variable {gate : Gate ℝ} {p0 p1 : Vec ℝ}

/-- Along and across the gate, a crossing is at zero on one side and positive on the other. -/
theorem crosses_iff (h : gate.1 ≠ gate.2) :
    Crosses gate p0 p1 ↔ ∃ k : ℝ, 0 ≤ k ∧ k ≤ 1 ∧
      0 < (1 - k) * (gate.2 - gate.1).dot (p0 - gate.1) +
        k * (gate.2 - gate.1).dot (p1 - gate.1) ∧
      (1 - k) * (gate.2 - gate.1).cross (p0 - gate.1) +
        k * (gate.2 - gate.1).cross (p1 - gate.1) = 0 := by
  have hPos := Vec.squaredNorm_pos h
  simp only [Vec.dot_eq, Vec.cross, Vec.sub_x, Vec.sub_y]
  set ux := gate.2.x - gate.1.x
  set uy := gate.2.y - gate.1.y
  constructor
  · rintro ⟨k, t, hk0, hk1, ht, hEq⟩
    have hx : p0.x + k * (p1.x - p0.x) = gate.1.x + t * ux := congrArg Vec.x hEq
    have hy : p0.y + k * (p1.y - p0.y) = gate.1.y + t * uy := congrArg Vec.y hEq
    refine ⟨k, hk0, hk1, ?_, ?_⟩
    · have : (1 - k) * (ux * (p0.x - gate.1.x) + uy * (p0.y - gate.1.y)) +
          k * (ux * (p1.x - gate.1.x) + uy * (p1.y - gate.1.y)) = t * (ux ^ 2 + uy ^ 2) := by
        linear_combination ux * hx + uy * hy
      rw [this]
      positivity
    · linear_combination ux * hy - uy * hx
  · rintro ⟨k, hk0, hk1, hDot, hCross⟩
    refine ⟨k, _, hk0, hk1, div_pos hDot hPos, Vec.ext ?_ ?_⟩
    · show p0.x + k * (p1.x - p0.x) = gate.1.x + _ / _ * ux
      field_simp
      linear_combination -uy * hCross
    · show p0.y + k * (p1.y - p0.y) = gate.1.y + _ / _ * uy
      field_simp
      linear_combination ux * hCross

/-- Two numbers whose mean with positive weights is zero have different signs. -/
theorem mul_nonpos_of_mean {k c0 c1 : ℝ} (hk0 : 0 ≤ k) (hk1 : k ≤ 1)
    (hMean : (1 - k) * c0 + k * c1 = 0) (hEnd : 0 < k ∨ k < 1) : c0 * c1 ≤ 0 := by
  by_contra hPos
  have hPos : 0 < c0 * c1 := not_le.mp hPos
  rcases hEnd with hk | hk
  · have h : k * (c0 * c1) = -((1 - k) * c0 ^ 2) := by linear_combination c0 * hMean
    linarith [mul_pos hk hPos, mul_nonneg (sub_nonneg.mpr hk1) (sq_nonneg c0)]
  · have h : (1 - k) * (c0 * c1) = -(k * c1 ^ 2) := by linear_combination c1 * hMean
    linarith [mul_pos (sub_pos.mpr hk) hPos, mul_nonneg hk0 (sq_nonneg c1)]

/-- Of two numbers with a positive mean, one of which is not positive, the other one is, and so
has a weight. -/
theorem mul_nonpos_of_behind {k d0 d1 : ℝ} (hk0 : 0 ≤ k) (hk1 : k ≤ 1)
    (hMean : 0 < (1 - k) * d0 + k * d1) (hBehind : d0 ≤ 0 ∨ d1 ≤ 0) :
    d0 * d1 ≤ 0 ∧ (0 < k ∨ k < 1) := by
  rcases hBehind with hNeg | hNeg
  · have hAhead : 0 < k * d1 := by
      linarith [mul_nonpos_of_nonneg_of_nonpos (sub_nonneg.mpr hk1) hNeg]
    have hk : 0 < k := lt_of_le_of_ne hk0 fun hZero => by simp [← hZero] at hAhead
    have hd1 : 0 < d1 := (mul_pos_iff_of_pos_left hk).mp hAhead
    exact ⟨mul_nonpos_of_nonpos_of_nonneg hNeg hd1.le, .inl hk⟩
  · have hAhead : 0 < (1 - k) * d0 := by
      linarith [mul_nonpos_of_nonneg_of_nonpos hk0 hNeg]
    have hk : 0 < 1 - k := lt_of_le_of_ne (by linarith) fun hZero => by
      simp [← hZero] at hAhead
    have hd0 : 0 < d0 := (mul_pos_iff_of_pos_left hk).mp hAhead
    exact ⟨mul_nonpos_of_nonneg_of_nonpos hd0.le hNeg, .inr (by linarith)⟩

/-- The corner that a boat may cut: when one end of the way does not project to the ray, its
other end is not further from the start of the gate than the way is long. -/
theorem near_of_crosses (h : gate.1 ≠ gate.2) (hCrosses : Crosses gate p0 p1)
    (hBehind : (gate.2 - gate.1).dot (p0 - gate.1) ≤ 0 ∨
      (gate.2 - gate.1).dot (p1 - gate.1) ≤ 0) {r : ℝ} (hr : 0 < r) (hWay : (p1 - p0).norm < r) :
    (gate.1 - p1).norm < r := by
  obtain ⟨k, hk0, hk1, hDot, hCross⟩ := (crosses_iff h).mp hCrosses
  have hPos := Vec.squaredNorm_pos h
  have hWaySq := (Vec.norm_lt_iff hr).mp hWay
  rw [Vec.norm_lt_iff hr]
  have hLagrange := Vec.lagrange (gate.2 - gate.1) (p1 - gate.1)
  have hLagrangeWay := Vec.lagrange (gate.2 - gate.1) (p1 - p0)
  have hDotWay : (gate.2 - gate.1).dot (p1 - p0) =
      (gate.2 - gate.1).dot (p1 - gate.1) - (gate.2 - gate.1).dot (p0 - gate.1) := by
    simp only [Vec.dot_eq, Vec.sub_x, Vec.sub_y]
    ring
  have hCrossWay : (gate.2 - gate.1).cross (p1 - p0) =
      (gate.2 - gate.1).cross (p1 - gate.1) - (gate.2 - gate.1).cross (p0 - gate.1) := by
    simp only [Vec.cross, Vec.sub_x, Vec.sub_y]
    ring
  rw [hDotWay, hCrossWay] at hLagrangeWay
  generalize (gate.2 - gate.1).dot (p0 - gate.1) = d0 at *
  generalize (gate.2 - gate.1).dot (p1 - gate.1) = d1 at *
  generalize (gate.2 - gate.1).cross (p0 - gate.1) = c0 at *
  generalize (gate.2 - gate.1).cross (p1 - gate.1) = c1 at *
  simp only [Vec.sub_x, Vec.sub_y] at *
  have hEnds := mul_nonpos_of_behind hk0 hk1 hDot hBehind
  have hSides : c0 * c1 ≤ 0 := mul_nonpos_of_mean hk0 hk1 hCross hEnds.2
  have hLe : d1 ^ 2 + c1 ^ 2 ≤ (d1 - d0) ^ 2 + (c1 - c0) ^ 2 := by
    have hEq : (d1 - d0) ^ 2 + (c1 - c0) ^ 2 =
        d1 ^ 2 + c1 ^ 2 + d0 ^ 2 + c0 ^ 2 - 2 * (d0 * d1) - 2 * (c0 * c1) := by ring
    linarith [hEnds.1, sq_nonneg d0, sq_nonneg c0]
  have hLt : ((gate.2.x - gate.1.x) ^ 2 + (gate.2.y - gate.1.y) ^ 2) *
      ((p1.x - gate.1.x) ^ 2 + (p1.y - gate.1.y) ^ 2) <
      ((gate.2.x - gate.1.x) ^ 2 + (gate.2.y - gate.1.y) ^ 2) * r ^ 2 := by
    calc _ = d1 ^ 2 + c1 ^ 2 := hLagrange
      _ ≤ (d1 - d0) ^ 2 + (c1 - c0) ^ 2 := hLe
      _ = _ := hLagrangeWay.symm
      _ < _ := mul_lt_mul_of_pos_left hWaySq hPos
  have := lt_of_mul_lt_mul_left hLt hPos.le
  linarith [sub_sq_comm p1.x gate.1.x, sub_sq_comm p1.y gate.1.y]

/-- Both ends project to the ray, on different sides of it or on it. -/
theorem crosses_of_sides (h : gate.1 ≠ gate.2)
    (h0 : 0 < (gate.2 - gate.1).dot (p0 - gate.1)) (h1 : 0 < (gate.2 - gate.1).dot (p1 - gate.1))
    (hSides : (gate.2 - gate.1).cross (p0 - gate.1) * (gate.2 - gate.1).cross (p1 - gate.1) ≤ 0) :
    Crosses gate p0 p1 := by
  rw [crosses_iff h]
  generalize (gate.2 - gate.1).cross (p0 - gate.1) = c0 at *
  generalize (gate.2 - gate.1).cross (p1 - gate.1) = c1 at *
  by_cases hSame : c0 = c1
  · subst hSame
    have hZero : c0 = 0 := by nlinarith [sq_nonneg c0]
    exact ⟨0, le_rfl, zero_le_one, by linarith, by rw [hZero]; ring⟩
  · have hNe : c0 - c1 ≠ 0 := sub_ne_zero.mpr hSame
    have hk : 0 ≤ c0 / (c0 - c1) ∧ c0 / (c0 - c1) ≤ 1 := by
      rcases mul_nonpos_iff.mp hSides with ⟨hPos, hNeg⟩ | ⟨hNeg, hPos⟩
      · have hLt : 0 < c0 - c1 := lt_of_le_of_ne (by linarith) hNe.symm
        exact ⟨div_nonneg hPos hLt.le, (div_le_one hLt).mpr (by linarith)⟩
      · have hLt : c0 - c1 < 0 := lt_of_le_of_ne (by linarith) hNe
        exact ⟨div_nonneg_of_nonpos hNeg hLt.le, (div_le_one_of_neg hLt).mpr (by linarith)⟩
    obtain ⟨hk0, hk1⟩ := hk
    refine ⟨c0 / (c0 - c1), hk0, hk1, ?_, ?_⟩
    · rcases hk0.eq_or_lt with hZero | hPos
      · rw [← hZero]
        linarith
      · have := mul_pos hPos h1
        have := mul_nonneg (sub_nonneg.mpr hk1) h0.le
        linarith
    · field_simp
      ring

/-- Two points are on different sides of a line, if and only if their cross products say so. -/
theorem distToLine_mul_nonpos_iff (h : gate.1 ≠ gate.2) :
    distToLine gate.1 gate.2 p0 * distToLine gate.1 gate.2 p1 ≤ 0 ↔
      (gate.2 - gate.1).cross (p0 - gate.1) * (gate.2 - gate.1).cross (p1 - gate.1) ≤ 0 := by
  have hNorm := Vec.norm_pos h
  rw [distToLine_eq h, distToLine_eq h, div_mul_div_comm, div_nonpos_iff]
  have hSq : 0 < (gate.2 - gate.1).norm * (gate.2 - gate.1).norm := mul_pos hNorm hNorm
  constructor
  · rintro (⟨-, hNeg⟩ | ⟨hSides, -⟩)
    · exact absurd hSq hNeg.not_gt
    · exact hSides
  · exact fun hSides => .inr ⟨hSides, hSq.le⟩

-- ---------------------------------------------------------------------------
-- The width of a gate
-- ---------------------------------------------------------------------------

/-- The width of a gate is 20 m. -/
theorem kGateWidth_eq : (kGateWidth : ℝ) = 20 := Rat.cast_ofNat 20

/-- A vector of length one, turned and stretched. -/
theorem norm_of_unit {a b : Vec ℝ} (hUnit : a.x ^ 2 + a.y ^ 2 = 1)
    (hb : b.x ^ 2 + b.y ^ 2 = (a.x ^ 2 + a.y ^ 2) * 20 ^ 2) : b.norm = 20 := by
  rw [Vec.norm_eq, hb, hUnit, one_mul]
  exact Real.sqrt_sq (by norm_num)

/-- A vector by its length has length one. -/
theorem unit_of_div {a : Vec ℝ} (h : ¬ a.norm < 1 / 10 ^ 6) :
    (a / a.norm).x ^ 2 + (a / a.norm).y ^ 2 = 1 := by
  have hPos : 0 < a.norm := lt_of_lt_of_le (by norm_num) (not_lt.mp h)
  have hSq := a.norm_sq
  rw [Vec.div_x, Vec.div_y]
  field_simp
  linarith

/-- The two ways to put a gate at a waypoint. -/
theorem norm_placed {a : Vec ℝ} (hUnit : a.x ^ 2 + a.y ^ 2 = 1) (gatept : Vec ℝ) :
    (gatept + a * (20 : ℝ) - a * (20 : ℝ) / (2 : ℝ) -
      (gatept - a * (20 : ℝ) / (2 : ℝ))).norm = 20 ∧
    (gatept + a * (20 : ℝ) - gatept).norm = 20 := by
  constructor <;> refine norm_of_unit hUnit ?_ <;>
    simp only [Vec.sub_x, Vec.sub_y, Vec.add_x, Vec.add_y, Vec.mul_x, Vec.mul_y] <;> ring

/-- Every gate is as wide as it should be. -/
theorem makeGate_norm (gatept prevpt nextpt : Vec ℝ) :
    ((makeGateFromWaypoints gatept prevpt nextpt).2 -
      (makeGateFromWaypoints gatept prevpt nextpt).1).norm = 20 := by
  have hMin : (lit (1 / 10 ^ 6) : ℝ) = 1 / 10 ^ 6 := by
    rw [Arith.lit_real]
    norm_num
  have hTwo : (lit 2 : ℝ) = 2 := Rat.cast_ofNat 2
  have hTurned {a : Vec ℝ} (h : a.x ^ 2 + a.y ^ 2 = 1) :
      (⟨-a.y, a.x⟩ : Vec ℝ).x ^ 2 + (⟨-a.y, a.x⟩ : Vec ℝ).y ^ 2 = 1 := by
    rw [← h]
    ring
  unfold makeGateFromWaypoints
  dsimp only
  rw [kGateWidth_eq, hMin, hTwo]
  simp only [Bool.and_eq_true, Arith.lt_real]
  split_ifs with hSame hPrev hPlace hNext hPlace hNorm hPlace hPlace
  · refine norm_of_unit (a := ⟨1, 0⟩) (by norm_num) ?_
    simp only [Vec.sub_x, Vec.sub_y, Vec.add_x, Vec.add_y, Arith.lit_real, Rat.cast_zero]
    ring
  · have hUnit := unit_of_div fun hLt => hSame ⟨hPrev, hLt⟩
    exact (norm_placed (hTurned hUnit) gatept).1
  · exact absurd rfl hPlace
  · exact (norm_placed (hTurned (unit_of_div hPrev)) gatept).1
  · exact absurd rfl hPlace
  · exact (norm_placed (hTurned (unit_of_div hPrev)) gatept).1
  · exact absurd rfl hPlace
  · exact hPlace.elim
  · exact (norm_placed (unit_of_div hNorm) gatept).2

-- ---------------------------------------------------------------------------
-- The gates of a run
-- ---------------------------------------------------------------------------

section Runs

variable {R : Type} [Arith R] {v : Bool} {s t : LinePlan R} {a : LinePlanMsg R}

/-- The flags of a course of two or more waypoints: none of them is a gate in the sense of
`are_gates_`. -/
def NoFlags (s : LinePlan R) : Prop :=
  2 ≤ s.waypointsLonLat.length → s.areGates = List.replicate s.waypointsLonLat.length false

/-- The flags of a new course. -/
theorem withCourse_noFlags (s : LinePlan R) : NoFlags s.withCourse := by
  intro hTwo
  rw [withCourse_waypointsLonLat] at hTwo ⊢
  rw [withCourse, if_neg (by omega), if_neg (by omega)]

/-- A moved reference keeps the flags. -/
theorem moveRef_noFlags (h : NoFlags s) (hMove : s.moveRef = some t) : NoFlags t := by
  rcases moveRef_cases hMove with rfl | rfl
  · exact h
  · exact withCourse_noFlags _

/-- Every step keeps them. -/
theorem step_noFlags (h : NoFlags s) (hstep : step v s a = some t) : NoFlags t := by
  rcases step_cases hstep with ⟨msg, rfl, ⟨-, rfl⟩ | ⟨hSome, u, hu, rfl⟩⟩ |
    ⟨pos, yaw, u, rfl, hMove, hInc⟩ | ⟨polygons, lonlat, rfl, rfl⟩ |
    ⟨-, -, _, _, _, _, _, rfl⟩
  · exact h
  · exact withCourse_noFlags u
  · have hTake : NoFlags (s.takeBoatState pos yaw) := h
    have hMoved := moveRef_noFlags hTake hMove
    obtain ⟨next, cnt, msg, queue, rfl, -⟩ := updateWaypointInc_eq hInc
    exact hMoved
  · exact h
  · exact h

/-- The gates fit the waypoints in every state of a run. -/
structure Planned (s : LinePlan R) : Prop where
  sized : Sized s
  fit   : WaypointsFit s
  flags : NoFlags s

/-- The gates fit in every state that a run reaches. -/
theorem run_planned {as : List (LinePlanMsg R)} {s₀ : LinePlan R}
    (hrun : run (step v) (init s₀) as = some s) : Planned s where
  sized := inv_of_run_forall (fun _ _ _ h hstep => step_sized h hstep) (init_sized s₀) hrun
  fit := (run_phase (init_phase s₀) hrun).waypoints
  flags := inv_of_run_forall (fun _ _ _ h hstep => step_noFlags h hstep)
    (fun hTwo => absurd hTwo (by simp [init])) hrun

/-- A position of the boat leaves the gates. -/
theorem takeBoatState_planned (h : Planned s) (pos : Vec R) (yaw : R) :
    Planned (s.takeBoatState pos yaw) where
  sized := ⟨h.sized.length, h.sized.next, h.sized.areGates⟩
  fit := h.fit
  flags := h.flags

/-- A moved reference leaves gates that fit. -/
theorem moveRef_planned (h : Planned s) (hMove : s.moveRef = some t) : Planned t where
  sized := moveRef_sized h.sized hMove
  fit := by
    rcases moveRef_cases hMove with rfl | rfl
    · exact h.fit
    · exact (withCourse_cases _).2
  flags := moveRef_noFlags h.flags hMove

/-- What is found at an index is in the list, and the index is inside it. -/
theorem mem_of_atInt {α : Type*} {l : List α} {i : Int} {x : α} (h : atInt l i = some x) :
    x ∈ l ∧ 0 ≤ i ∧ i < l.length := by
  unfold atInt at h
  split at h
  case isFalse => cases h
  case isTrue h0 =>
    obtain ⟨hLt, -⟩ := List.getElem?_eq_some_iff.mp h
    exact ⟨List.mem_of_getElem? h, h0, by omega⟩

end Runs

-- ---------------------------------------------------------------------------
-- The next waypoint
-- ---------------------------------------------------------------------------

variable {v : Bool} {s t u : LinePlan ℝ}

/-- A gate of a course is a point or has the full width, and a point is what a single waypoint
has. -/
theorem course_gate {repeats : Bool} {pts : List (Vec ℝ)} (hMem : gate ∈ course repeats pts)
    (hPoint : gate.1 ≠ gate.2) : 2 ≤ pts.length ∧ (gate.2 - gate.1).norm = 20 := by
  unfold course at hMem
  split at hMem
  case isTrue =>
    rw [List.mem_singleton.mp hMem] at hPoint
    exact absurd rfl hPoint
  case isFalse hOne =>
    obtain ⟨i, hi, rfl⟩ := List.mem_map.mp hMem
    have := List.mem_range.mp hi
    refine ⟨by omega, ?_⟩
    unfold gateAt at hPoint ⊢
    dsimp only at hPoint ⊢
    split_ifs at hPoint ⊢
    · exact makeGate_norm _ _ _
    · exact absurd rfl hPoint
    · exact makeGate_norm _ _ _
    · exact absurd rfl hPoint
    · exact makeGate_norm _ _ _

/-- A gate with different ends is 20 m wide, and there are at least two waypoints. -/
theorem Planned.width (h : Planned s) (hGate : atInt s.waypoints s.nextWaypoint = some gate)
    (hPoint : gate.1 ≠ gate.2) :
    2 ≤ s.waypoints.length ∧ atInt s.areGates s.nextWaypoint = some false ∧
      (gate.2 - gate.1).norm = 20 := by
  obtain ⟨hMem, h0, hLt⟩ := mem_of_atInt hGate
  have hLength := h.sized.length
  rw [h.fit.resolve_left fun hNone => by omega] at hMem
  obtain ⟨hTwo, hWidth⟩ := course_gate hMem hPoint
  rw [List.length_map] at hTwo
  refine ⟨by omega, ?_, hWidth⟩
  rw [h.flags hTwo, atInt, if_pos h0, List.getElem?_replicate, if_pos (by omega)]

/-- What the code tests for a gate that is not a point. -/
theorem passedLine_iff (hWidth : (gate.2 - gate.1).norm = 20) :
    s.passedLine gate false = true ↔
      0 < (gate.2 - gate.1).dot (s.prevBoatPos - gate.1) ∧
        0 < (gate.2 - gate.1).dot (s.boatPos - gate.1) := by
  have hWide : ¬ Arith.lt (gate.1 - gate.2).norm (lit (1 / 10 ^ 6)) = true := by
    have hSymm : (gate.1 - gate.2).norm = (gate.2 - gate.1).norm := by
      rw [Vec.norm_eq, Vec.norm_eq]
      simp only [Vec.sub_x, Vec.sub_y]
      rw [sub_sq_comm, sub_sq_comm gate.1.y]
    rw [Arith.lt_real, hSymm, hWidth, Arith.lit_real]
    norm_num
  rw [passedLine, if_neg Bool.false_ne_true, if_neg hWide, Bool.and_eq_true, projectsToRay_iff,
    projectsToRay_iff]

/-- The boat is near a waypoint, if it is less than eight meters from the start of its gate. -/
theorem nearWay_iff : s.nearWay gate = true ↔ (gate.1 - s.boatPos).norm < 8 := by
  rw [nearWay, Arith.lt_real, Arith.lit_real, Rat.cast_ofNat]

/-- When the next waypoint is the one behind the gate. -/
theorem advance_next_iff (hPoint : gate.1 ≠ gate.2) (hWidth : (gate.2 - gate.1).norm = 20)
    (hTwo : 2 ≤ s.waypoints.length) (h0 : 0 ≤ s.nextWaypoint)
    (hLt : s.nextWaypoint < s.waypoints.length) :
    (s.advance gate false).nextWaypoint = (s.nextWaypoint + 1) % s.waypoints.length ↔
      (gate.1 - s.boatPos).norm < 8 ∨
      (0 < (gate.2 - gate.1).dot (s.prevBoatPos - gate.1) ∧
        0 < (gate.2 - gate.1).dot (s.boatPos - gate.1)) ∧
      (gate.2 - gate.1).cross (s.prevBoatPos - gate.1) *
        (gate.2 - gate.1).cross (s.boatPos - gate.1) ≤ 0 := by
  have hNe : s.nextWaypoint ≠ (s.nextWaypoint + 1) % s.waypoints.length := by
    by_cases hLast : s.nextWaypoint + 1 = s.waypoints.length
    · rw [hLast, Int.emod_self]
      omega
    · rw [Int.emod_eq_of_lt (by omega) (by omega)]
      omega
  rw [← passedLine_iff hWidth, ← nearWay_iff, ← distToLine_mul_nonpos_iff hPoint, advance]
  simp only [Bool.or_eq_true, Arith.le_real, Arith.lit_real, Rat.cast_zero]
  split_ifs with hPassed hSides
  · exact ⟨fun _ => by tauto, fun _ => rfl⟩
  · exact ⟨fun hEq => absurd hEq hNe, fun hOr => by tauto⟩
  · exact ⟨fun hEq => absurd hEq hNe, fun hOr => by tauto⟩

/-- **Gate crossings.** Whenever a run comes to `UpdateWaypointInc` with a gate that is not a
point ahead, and wherever the boat was and is, less than eight meters apart: if the way between
the two positions meets the ray of the gate, the next waypoint is the one behind it; and if it
is, the boat is within eight meters of the start of the gate or its way meets the ray. -/
theorem crossing_detected (v : Bool) (s₀ : LinePlan ℝ) (as : List (LinePlanMsg ℝ))
    (hrun : run (step v) (init s₀) as = some s) (pos : Vec ℝ) (yaw : ℝ)
    (hMove : (s.takeBoatState pos yaw).moveRef = some u) (hFinal : u.onFinalLeg = false)
    (hGate : atInt u.waypoints u.nextWaypoint = some gate) (hPoint : gate.1 ≠ gate.2)
    (p0 p1 : Vec ℝ) (hWay : (p1 - p0).norm < 8) :
    ∃ t, ({ u with prevBoatPos := p0, boatPos := p1 }).updateWaypointInc = some t ∧
      (Crosses gate p0 p1 →
        t.nextWaypoint = (u.nextWaypoint + 1) % u.waypoints.length) ∧
      (t.nextWaypoint = (u.nextWaypoint + 1) % u.waypoints.length →
        (gate.1 - p1).norm < 8 ∨ Crosses gate p0 p1) := by
  have hPlanned := moveRef_planned (takeBoatState_planned (run_planned hrun) pos yaw) hMove
  obtain ⟨hTwo, hFlag, hWidth⟩ := hPlanned.width hGate hPoint
  obtain ⟨-, h0, hLt⟩ := mem_of_atInt hGate
  set w : LinePlan ℝ := { u with prevBoatPos := p0, boatPos := p1 } with hw
  have hInc : w.updateWaypointInc = some ((w.advance gate false).sendState {
      nearWaypoint := some (w.nearWay gate)
      done := some false
      lastWaypoint := some ((w.advance gate false).nextWaypoint - 1) }) := by
    have hFinalW : ¬ w.onFinalLeg = true := Bool.eq_false_iff.mp hFinal
    have hGateW : atInt w.waypoints w.nextWaypoint = some gate := hGate
    have hFlagW : atInt w.areGates w.nextWaypoint = some false := hFlag
    rw [updateWaypointInc, if_neg (atInt_length hGateW), if_neg hFinalW, hGateW, hFlagW]
    rfl
  have hNext := advance_next_iff (s := w) hPoint hWidth hTwo h0 hLt
  refine ⟨_, hInc, fun hCrosses => hNext.mpr ?_, ?_⟩
  · by_cases hBehind : (gate.2 - gate.1).dot (p0 - gate.1) ≤ 0 ∨
        (gate.2 - gate.1).dot (p1 - gate.1) ≤ 0
    · exact .inl (near_of_crosses hPoint hCrosses hBehind (by norm_num) hWay)
    · obtain ⟨hAhead0, hAhead1⟩ := not_or.mp hBehind
      obtain ⟨k, hk0, hk1, -, hCross⟩ := (crosses_iff hPoint).mp hCrosses
      refine .inr ⟨⟨not_le.mp hAhead0, not_le.mp hAhead1⟩,
        mul_nonpos_of_mean hk0 hk1 hCross ?_⟩
      rcases hk0.eq_or_lt with rfl | hPos
      · exact .inr zero_lt_one
      · exact .inl hPos
  · intro hAdvanced
    rcases hNext.mp hAdvanced with hNear | ⟨⟨hAhead0, hAhead1⟩, hSides⟩
    · exact .inl hNear
    · exact .inr (crosses_of_sides hPoint hAhead0 hAhead1 hSides)

/-- Two waypoints at the origin of longitudes and latitudes, which is the reference. -/
structure AtOrigin (s : LinePlan ℝ) : Prop where
  lonLat  : s.waypointsLonLat = [.zero, .zero]
  repeats : s.repeatWaypoints = true
  ref     : s.lonLatRef = .zero
  next    : s.nextWaypoint = 1

/-- A new course leaves the waypoints and the reference at the origin. -/
theorem withCourse_atOrigin (h : AtOrigin s) : AtOrigin s.withCourse := by
  have hLength : s.waypointsLonLat.length = 2 := by rw [h.lonLat]; rfl
  rw [withCourse, if_neg (by omega), if_neg (by omega), if_neg (by omega)]
  exact ⟨h.lonLat, h.repeats, h.ref, h.next⟩

/-- The gates are the same for every scale. -/
theorem Planned.origin_gate (h : Planned s) (hOrigin : AtOrigin s) :
    atInt s.waypoints s.nextWaypoint = some (⟨-10, 0⟩, ⟨10, 0⟩) := by
  have hFrame : s.lonLatToFrame .zero = .zero := by
    rw [lonLatToFrame, hOrigin.ref, Vec.cwiseProduct]
    exact Vec.ext (by simp) (by simp)
  have hZero : ((.zero : Vec ℝ) - .zero).norm = 0 := by simp [Vec.norm_eq]
  have hGate : makeGateFromWaypoints (R := ℝ) .zero .zero .zero = (⟨-10, 0⟩, ⟨10, 0⟩) := by
    rw [makeGateFromWaypoints]
    dsimp only
    rw [hZero, if_pos (by simp), kGateWidth_eq]
    refine Prod.ext (Vec.ext ?_ ?_) (Vec.ext ?_ ?_) <;> simp <;> norm_num
  rw [h.fit.resolve_left (by rw [hOrigin.lonLat]; decide), hOrigin.lonLat, hOrigin.next,
    hOrigin.repeats]
  simp only [List.map_cons, List.map_nil, hFrame]
  rw [← hGate]
  rfl

/-- A run that ends with the waypoints and the reference at the origin. -/
theorem run_origin : ∃ s, run (step false) (init (zeroed : LinePlan ℝ))
    [.waypoints { points := [.zero, .zero], repeats := true }] = some s ∧ AtOrigin s := by
  let taken : LinePlan ℝ :=
    (init zeroed).takeWaypoints { points := [.zero, .zero], repeats := true }
  have hTaken : taken.waypointsLonLat = [.zero, .zero] ∧ taken.nextWaypoint = 1 :=
    ⟨rfl, rfl⟩
  have hScale : Arith.eq taken.lonLatScale.x (lit 0) = true := decide_eq_true rfl
  have hRef : taken.ensureRef = some (taken.inFrame .zero).withCourse := by
    rw [ensureRef, if_pos hScale, hTaken.1]
    exact resetRef_eq taken .zero
  have hOrigin : AtOrigin (taken.inFrame .zero) := ⟨hTaken.1, rfl, rfl, hTaken.2⟩
  refine ⟨_, ?_, withCourse_atOrigin (withCourse_atOrigin hOrigin)⟩
  show (taken.ensureRef.bind fun s => s.updateWaypoints).bind some = _
  rw [hRef, Option.bind_some, updateWaypoints_eq, Option.bind_some]

/-- A boat crosses the gate between two waypoints at the origin. -/
theorem crossing_detected_origin :
    ∃ s u t, run (step false) (init (zeroed : LinePlan ℝ))
        [.waypoints { points := [.zero, .zero], repeats := true }] = some s ∧
      (s.takeBoatState .zero 0).moveRef = some u ∧
      ({ u with prevBoatPos := ⟨0, 1⟩, boatPos := ⟨0, -1⟩ }).updateWaypointInc = some t ∧
      t.nextWaypoint = (u.nextWaypoint + 1) % u.waypoints.length := by
  obtain ⟨s, hrun, hOrigin⟩ := run_origin
  obtain ⟨u, hMove⟩ := moveRef_total (s.takeBoatState .zero 0)
  have hOriginU : AtOrigin u := by
    rcases moveRef_cases hMove with rfl | rfl
    · exact ⟨hOrigin.lonLat, hOrigin.repeats, hOrigin.ref, hOrigin.next⟩
    · exact withCourse_atOrigin ⟨hOrigin.lonLat, hOrigin.repeats, rfl, hOrigin.next⟩
  have hPlanned := moveRef_planned (takeBoatState_planned (run_planned hrun) .zero 0) hMove
  have hFinal : u.onFinalLeg = false := by rw [onFinalLeg, hOriginU.repeats]; rfl
  obtain ⟨t, hInc, hAdvance, -⟩ := crossing_detected false zeroed _ hrun .zero 0 hMove hFinal
    (hPlanned.origin_gate hOriginU) (by simp; norm_num) ⟨0, 1⟩ ⟨0, -1⟩ (by
      rw [Vec.norm_lt_iff (by norm_num)]
      norm_num)
  refine ⟨s, u, t, hrun, hMove, hInc, hAdvance ⟨1 / 2, 1 / 2, ?_⟩⟩
  refine ⟨by norm_num, by norm_num, by norm_num, Vec.ext ?_ ?_⟩ <;> norm_num

end Sailbot.Control.LinePlan

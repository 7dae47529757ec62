import Mathlib.Analysis.Real.Pi.Bounds
import Sailbot.Control.Angle
import Sailbot.Control.LinePath

/-!
# Tacks

What `GenerateHypotheses` (`control/line_plan.cc`) adds when the next point is close to the wind,
in exact arithmetic: two ways to get there with straight legs, which head 1 rad to the left and
to the right of the wind in turn.

* `zigzag`              — the points of such a path, by one coordinate of its two kinds of legs.
* `Sailable`            — what is expected of such a path.
* `leftLeg`, `rightLeg` — the legs that the planner chooses.
* `tacks_sailable`      — the paths, with the end point behind them.
-/

namespace Sailbot.Control.LinePath

open Lib Real
open Lib.Arith (lit)

-- ---------------------------------------------------------------------------
-- Zigzags
-- ---------------------------------------------------------------------------

/-- A coordinate of the point `i` behind `start`, when the steps are half of `a`, and then `b`
and `a` in turn. -/
noncomputable def zigzag (start a b : ℝ) (i : ℕ) : ℝ :=
  start + (1 / 2 + (i / 2 : ℕ)) * a + ((i + 1) / 2 : ℕ) * b

variable {start a b : ℝ}

/-- The first line goes half its way. -/
theorem zigzag_zero : zigzag start a b 0 = start + a / 2 := by
  simp [zigzag]
  ring

/-- Then both lines take turns. -/
theorem zigzag_succ (i : ℕ) :
    zigzag start a b (i + 1) = zigzag start a b i + if i % 2 = 0 then b else a := by
  unfold zigzag
  split
  case isTrue h =>
    rw [show (i + 1) / 2 = i / 2 by omega, show (i + 1 + 1) / 2 = i / 2 + 1 by omega]
    push_cast
    ring
  case isFalse h =>
    rw [show (i + 1) / 2 = i / 2 + 1 by omega, show (i + 1 + 1) / 2 = i / 2 + 1 by omega]
    push_cast
    ring

/-- When the steps cover `n` halves of `a + b`, half a step is left behind the last point. -/
theorem zigzag_last (start a b : ℝ) (i : ℕ) :
    start + ((i + 1 : ℕ) / 2 : ℝ) * (a + b) =
      zigzag start a b i + (if i % 2 = 0 then b else a) / 2 := by
  induction i with
  | zero =>
    rw [zigzag_zero, if_pos rfl]
    push_cast
    ring
  | succ i ih =>
    rw [zigzag_succ]
    push_cast at ih ⊢
    rcases Nat.mod_two_eq_zero_or_one i with h | h
    · rw [if_pos h] at ih ⊢
      rw [if_neg (by omega)]
      linarith
    · rw [if_neg (by omega)] at ih ⊢
      rw [if_pos (by omega)]
      linarith

-- ---------------------------------------------------------------------------
-- Paths
-- ---------------------------------------------------------------------------

noncomputable def corner (startpt a b : Vec ℝ) (i : ℕ) : Vec ℝ :=
  ⟨zigzag startpt.x a.x b.x i, zigzag startpt.y a.y b.y i⟩

/-- A path of `npts` tacks: with the end point behind it, its legs head 1 rad to one side of
`upwind` and to the other one in turn, and the first to `side`. Across the way to the end point,
the first and the last leg cover half of `width`, and the others all of it. -/
structure Sailable (startpt endpt : Vec ℝ) (upwind side width : ℝ) (npts : ℕ)
    (path : List (Vec ℝ)) : Prop where
  length : path.length = npts + 1
  head   : path.head? = some startpt
  legs   : ∀ k ≤ npts, ∃ p q, (path ++ [endpt])[k]? = some p ∧ (path ++ [endpt])[k + 1]? = some q ∧
    (∃ r : ℝ, 0 < r ∧ q - p = r * Vec.unit (upwind + side * (-1) ^ k)) ∧
    |(endpt - startpt).cross (q - p)| / (endpt - startpt).norm =
      if k = 0 ∨ k = npts then width / 2 else width

variable {startpt endpt a b : Vec ℝ} {npts : ℕ}

/-- The line between two corners. -/
theorem corner_succ_sub (i : ℕ) :
    corner startpt a b (i + 1) - corner startpt a b i = if i % 2 = 0 then b else a := by
  apply Vec.ext
  · rw [Vec.sub_x, corner, corner]
    dsimp only
    rw [zigzag_succ]
    split <;> simp
  · rw [Vec.sub_y, corner, corner]
    dsimp only
    rw [zigzag_succ]
    split <;> simp

/-- The last leg of a zigzag that ends at `endpt`. -/
theorem end_sub_corner {i : ℕ} (hx : endpt.x = startpt.x + ((i + 1 : ℕ) / 2 : ℝ) * (a.x + b.x))
    (hy : endpt.y = startpt.y + ((i + 1 : ℕ) / 2 : ℝ) * (a.y + b.y)) :
    endpt - corner startpt a b i = (1 / 2 : ℝ) * (if i % 2 = 0 then b else a) := by
  rw [zigzag_last startpt.x a.x b.x i] at hx
  rw [zigzag_last startpt.y a.y b.y i] at hy
  apply Vec.ext
  · rw [Vec.sub_x, hx, corner]
    split <;> simp <;> ring
  · rw [Vec.sub_y, hy, corner]
    split <;> simp <;> ring

/-- The legs of a zigzag that ends at `endpt`. -/
theorem corner_legs (hPts : 1 ≤ npts) (hx : endpt.x = startpt.x + (npts / 2 : ℝ) * (a.x + b.x))
    (hy : endpt.y = startpt.y + (npts / 2 : ℝ) * (a.y + b.y)) {k : ℕ} (hk : k ≤ npts) :
    ∃ p q,
      (startpt :: (List.range npts).map (corner startpt a b) ++ [endpt])[k]? = some p ∧
      (startpt :: (List.range npts).map (corner startpt a b) ++ [endpt])[k + 1]? = some q ∧
      q - p = (if k = 0 ∨ k = npts then (1 / 2 : ℝ) else 1) * (if k % 2 = 0 then a else b) := by
  have hCorner : ∀ i < npts,
      (startpt :: (List.range npts).map (corner startpt a b) ++ [endpt])[i + 1]? =
        some (corner startpt a b i) := by
    intro i hi
    rw [List.cons_append, List.getElem?_cons_succ, List.getElem?_append_left (by simpa using hi)]
    simp [hi]
  have hEnd : (startpt :: (List.range npts).map (corner startpt a b) ++ [endpt])[npts + 1]? =
      some endpt := by
    rw [List.cons_append, List.getElem?_cons_succ, List.getElem?_append_right (by simp)]
    simp
  cases k with
  | zero =>
    refine ⟨startpt, corner startpt a b 0, rfl, hCorner 0 hPts, ?_⟩
    rw [if_pos (Or.inl rfl), if_pos rfl]
    apply Vec.ext <;> simp [corner, zigzag_zero] <;> ring
  | succ i =>
    have hTurn : (if (i + 1) % 2 = 0 then a else b) = if i % 2 = 0 then b else a := by
      rcases Nat.mod_two_eq_zero_or_one i with h | h
      · rw [if_neg (by omega), if_pos h]
      · rw [if_pos (by omega), if_neg (by omega)]
    rw [hTurn]
    by_cases hLast : i + 1 = npts
    · refine ⟨corner startpt a b i, endpt, hCorner i (by omega), hLast ▸ hEnd, ?_⟩
      subst hLast
      rw [if_pos (Or.inr rfl), end_sub_corner hx hy]
    · refine ⟨corner startpt a b i, corner startpt a b (i + 1), hCorner i (by omega),
        hCorner (i + 1) (by omega), ?_⟩
      rw [if_neg (by omega), corner_succ_sub]
      apply Vec.ext <;> simp

/-- A zigzag of legs in the two directions is a path of tacks. -/
theorem sailable_corners {upwind side width ra rb : ℝ} (hPts : 1 ≤ npts)
    (hx : endpt.x = startpt.x + (npts / 2 : ℝ) * (a.x + b.x))
    (hy : endpt.y = startpt.y + (npts / 2 : ℝ) * (a.y + b.y))
    (ha : a = ra * Vec.unit (upwind + side)) (hb : b = rb * Vec.unit (upwind - side))
    (hra : 0 < ra) (hrb : 0 < rb)
    (hWidthA : |(endpt - startpt).cross a| / (endpt - startpt).norm = width)
    (hWidthB : |(endpt - startpt).cross b| / (endpt - startpt).norm = width) :
    Sailable startpt endpt upwind side width npts
      (startpt :: (List.range npts).map (corner startpt a b)) where
  length := by simp
  head := rfl
  legs := by
    intro k hk
    obtain ⟨p, q, hp, hq, hLeg⟩ := corner_legs hPts hx hy hk
    -- the share of a whole leg
    obtain ⟨w, hw⟩ : ∃ w : ℝ, w = if k = 0 ∨ k = npts then 1 / 2 else 1 := ⟨_, rfl⟩
    have hPos : 0 < w := by rw [hw]; split <;> norm_num
    have hShare : (if k = 0 ∨ k = npts then width / 2 else width) = w * width := by
      rw [hw]
      split <;> ring
    have hCross : ∀ c : Vec ℝ, |(endpt - startpt).cross (w * c)| =
        w * |(endpt - startpt).cross c| := by
      intro c
      rw [← abs_of_pos hPos, ← abs_mul, abs_of_pos hPos]
      congr 1
      simp only [Vec.cross, Vec.smul_x, Vec.smul_y]
      ring
    refine ⟨p, q, hp, hq, ?_⟩
    rw [hLeg, ← hw, hShare, hCross, mul_div_assoc]
    rcases Nat.even_or_odd k with hEven | hOdd
    · rw [if_pos (Nat.even_iff.mp hEven), hEven.neg_one_pow, mul_one, hWidthA, ha]
      refine ⟨⟨w * ra, mul_pos hPos hra, ?_⟩, rfl⟩
      apply Vec.ext <;> simp [mul_assoc]
    · rw [if_neg (by have := Nat.odd_iff.mp hOdd; omega), hOdd.neg_one_pow, mul_neg_one, hWidthB,
        hb, sub_eq_add_neg]
      refine ⟨⟨w * rb, mul_pos hPos hrb, ?_⟩, rfl⟩
      apply Vec.ext <;> simp [mul_assoc]

-- ---------------------------------------------------------------------------
-- The tacks of the planner
-- ---------------------------------------------------------------------------

/-- `relwind` of `GenerateHypotheses`. -/
def relwind {R : Type} [Arith R] (startpt endpt : Vec R) (winddir : R) : R :=
  Util.normAngle (Arith.mPi - winddir + Util.atan2 (endpt - startpt))

/-- `latdist`, in the unit of the points: across the way to `endpt`, what any tack covers. -/
noncomputable def tackWidth (startpt endpt : Vec ℝ) (winddir : ℝ) (npts : ℕ) : ℝ :=
  let theta := 1 - relwind startpt endpt winddir
  2 / npts * sin (2 - theta) / sin 2 * sin theta * (endpt - startpt).norm

/-- A whole leg that heads to the left of the wind. -/
noncomputable def leftLeg (startpt endpt : Vec ℝ) (winddir : ℝ) (npts : ℕ) : Vec ℝ :=
  (2 / npts * sin (1 + relwind startpt endpt winddir) / sin 2 * (endpt - startpt).norm : ℝ) *
    Vec.unit (winddir + π + 1)

noncomputable def rightLeg (startpt endpt : Vec ℝ) (winddir : ℝ) (npts : ℕ) : Vec ℝ :=
  (2 / npts * sin (1 - relwind startpt endpt winddir) / sin 2 * (endpt - startpt).norm : ℝ) *
    Vec.unit (winddir + π - 1)

/-- The straight way heads `relwind` to the left of the wind. -/
theorem diff_eq (startpt endpt : Vec ℝ) (winddir : ℝ) :
    endpt - startpt =
      (endpt - startpt).norm * Vec.unit (winddir + π + relwind startpt endpt winddir) := by
  have hDir : winddir + π + relwind startpt endpt winddir ≡
      Complex.arg (endpt - startpt).toComplex [PMOD 2 * π] := by
    have hNorm : relwind startpt endpt winddir ≡
        π - winddir + Complex.arg (endpt - startpt).toComplex [PMOD 2 * π] :=
      Util.normAngle_modEq _
    refine (hNorm.add_left (winddir + π)).trans ?_
    rw [AddCommGroup.modEq_iff_eq_add_zsmul]
    exact ⟨-1, by rw [neg_one_zsmul]; ring⟩
  rw [Vec.unit_congr hDir, Vec.norm_mul_unit]

/-- Half of a number, rounded down. -/
theorem floor_half (i : ℕ) : (Arith.floor (lit i / lit 2) : ℝ) = (i / 2 : ℕ) := by
  show ((⌊((i : ℚ) : ℝ) / ((2 : ℚ) : ℝ)⌋ : ℤ) : ℝ) = _
  have hFloor : ⌊((i : ℚ) : ℝ) / ((2 : ℚ) : ℝ)⌋ = ((i / 2 : ℕ) : ℤ) := by
    rw [Int.floor_eq_iff]
    have hLow : 2 * (i / 2) ≤ i := by omega
    have hHigh : i < 2 * (i / 2) + 2 := by omega
    have hLow' : (2 : ℝ) * (i / 2 : ℕ) ≤ i := by exact_mod_cast hLow
    have hHigh' : (i : ℝ) < 2 * (i / 2 : ℕ) + 2 := by exact_mod_cast hHigh
    rw [Rat.cast_natCast, Int.cast_natCast, show ((2 : ℚ) : ℝ) = 2 by norm_num]
    constructor <;> linarith
  rw [hFloor, Int.cast_natCast]

/-- A leg of the planner, by its coordinates along and across the straight way. -/
theorem leftLeg_eq (startpt endpt : Vec ℝ) (winddir : ℝ) (npts : ℕ) :
    let diff := endpt - startpt
    let theta := 1 - relwind startpt endpt winddir
    let legdist := 2 / npts * sin (2 - theta) / sin 2
    leftLeg startpt endpt winddir npts =
      ⟨diff.x * (legdist * cos theta) - diff.y * (legdist * sin theta),
        diff.y * (legdist * cos theta) + diff.x * (legdist * sin theta)⟩ := by
  intro diff theta legdist
  have hDiff := diff_eq startpt endpt winddir
  have hx : diff.x = diff.norm * cos (winddir + π + relwind startpt endpt winddir) :=
    congrArg Vec.x hDiff
  have hy : diff.y = diff.norm * sin (winddir + π + relwind startpt endpt winddir) :=
    congrArg Vec.y hDiff
  have hTurn : winddir + π + 1 = winddir + π + relwind startpt endpt winddir + theta := by
    show _ = _ + (1 - _)
    ring
  have hLegdist : legdist = 2 / npts * sin (1 + relwind startpt endpt winddir) / sin 2 := by
    show 2 / npts * sin (2 - (1 - _)) / sin 2 = _
    congr 3
    ring
  rw [leftLeg, hTurn, ← hLegdist, hx, hy]
  apply Vec.ext
  · show legdist * diff.norm * cos (_ + theta) = _
    rw [cos_add]
    ring
  · show legdist * diff.norm * sin (_ + theta) = _
    rw [sin_add]
    ring

/-- Two radians are less than half a turn. -/
theorem sin_two_pos : 0 < sin 2 := sin_pos_of_pos_of_lt_pi (by norm_num) (by linarith [pi_gt_three])

/-- The leg that starts to the right is a zigzag. -/
theorem rightLeg_eq (startpt endpt : Vec ℝ) (winddir : ℝ) (npts : ℕ) :
    let diff := endpt - startpt
    let theta := 1 - relwind startpt endpt winddir
    let l : ℝ := 2 / npts
    let legdist := l * sin (2 - theta) / sin 2
    rightLeg startpt endpt winddir npts =
      ⟨diff.x * (l - legdist * cos theta) + diff.y * (legdist * sin theta),
        diff.y * (l - legdist * cos theta) - diff.x * (legdist * sin theta)⟩ := by
  intro diff theta l legdist
  have hDiff := diff_eq startpt endpt winddir
  have hx : diff.x = diff.norm * cos (winddir + π + relwind startpt endpt winddir) :=
    congrArg Vec.x hDiff
  have hy : diff.y = diff.norm * sin (winddir + π + relwind startpt endpt winddir) :=
    congrArg Vec.y hDiff
  -- the law of sines, in the triangle of a left leg, a right leg and the straight way
  have hSines : l - legdist * cos theta = l * sin theta / sin 2 * cos (2 - theta) := by
    have hSum : sin 2 = sin (2 - theta) * cos theta + cos (2 - theta) * sin theta := by
      rw [← sin_add, sub_add_cancel]
    have hPos := sin_two_pos
    show l - l * sin (2 - theta) / sin 2 * cos theta = _
    field_simp
    rw [hSum]
    ring
  have hTurn : winddir + π - 1 = winddir + π + relwind startpt endpt winddir - (2 - theta) := by
    show _ = _ - (2 - (1 - _))
    ring
  rw [rightLeg, hTurn, hSines, hx, hy]
  apply Vec.ext
  · show l * sin theta / sin 2 * diff.norm * cos (_ - (2 - theta)) = _
    rw [cos_sub (winddir + π + relwind startpt endpt winddir)]
    show _ = _ + _ * (l * sin (2 - theta) / sin 2 * sin theta)
    ring
  · show l * sin theta / sin 2 * diff.norm * sin (_ - (2 - theta)) = _
    rw [sin_sub (winddir + π + relwind startpt endpt winddir)]
    show _ = _ - _ * (l * sin (2 - theta) / sin 2 * sin theta)
    ring

/-- The point `i` of a candidate, by the distances `lona` and `lonb` that its two kinds of legs
cover along the straight way, and the distance `lat` across. -/
theorem tack_point (startpt diff : Vec ℝ) (lona lonb lat : ℝ) (i : ℕ) :
    startpt + diff * (lona * (lit (1 / 2) + Arith.floor (lit i / lit 2)) +
        lonb * Arith.floor ((lit i + lit 1) / lit 2)) +
      (⟨-diff.y, diff.x⟩ : Vec ℝ) * (lat * lit (if i % 2 = 0 then 1 else -1) / lit 2) =
    corner startpt ⟨diff.x * lona - diff.y * lat, diff.y * lona + diff.x * lat⟩
      ⟨diff.x * lonb + diff.y * lat, diff.y * lonb - diff.x * lat⟩ i := by
  have hNext : (lit i : ℝ) + lit 1 = lit (i + 1 : ℕ) := by simp
  have hHalf : (lit (1 / 2) : ℝ) = 1 / 2 := by simp
  have hTwo : (lit 2 : ℝ) = 2 := by simp
  -- the multiplicities differ by the sign of the side
  have hSide : (lit (if i % 2 = 0 then 1 else -1) : ℝ) / 2 =
      1 / 2 + (i / 2 : ℕ) - ((i + 1) / 2 : ℕ) := by
    rcases Nat.mod_two_eq_zero_or_one i with h | h
    · rw [if_pos h, show (i + 1) / 2 = i / 2 by omega]
      simp
    · rw [if_neg (by omega), show (i + 1) / 2 = i / 2 + 1 by omega, Arith.lit_real]
      push_cast
      ring
  rw [hNext, floor_half, floor_half, hHalf, hTwo, mul_div_assoc, hSide]
  apply Vec.ext
  · show _ = _ + _ * _ + _ * _
    simp only [Vec.add_x, Vec.mul_x]
    ring
  · show _ = _ + _ * _ + _ * _
    simp only [Vec.add_y, Vec.mul_y]
    ring

/-- The same with the sides exchanged. -/
theorem tack_point_neg (startpt diff : Vec ℝ) (lona lonb lat : ℝ) (i : ℕ) :
    startpt + diff * (lona * (lit (1 / 2) + Arith.floor (lit i / lit 2)) +
        lonb * Arith.floor ((lit i + lit 1) / lit 2)) +
      (⟨-diff.y, diff.x⟩ : Vec ℝ) * -(lat * lit (if i % 2 = 0 then 1 else -1) / lit 2) =
    corner startpt ⟨diff.x * lona + diff.y * lat, diff.y * lona - diff.x * lat⟩
      ⟨diff.x * lonb - diff.y * lat, diff.y * lonb + diff.x * lat⟩ i := by
  have h := tack_point startpt diff lona lonb (-lat) i
  rw [neg_mul, neg_div] at h
  rw [h]
  simp only [mul_neg, sub_neg_eq_add, ← sub_eq_add_neg]

/-- The candidates close to the wind. -/
theorem generateHypotheses_upwind {winddir : ℝ} (hPts : 1 ≤ npts)
    (hUpwind : |relwind startpt endpt winddir| < 1) :
    ∃ straight, generateHypotheses startpt endpt winddir npts =
      [straight,
        startpt :: (List.range npts).map (corner startpt (leftLeg startpt endpt winddir npts)
          (rightLeg startpt endpt winddir npts)),
        startpt :: (List.range npts).map (corner startpt (rightLeg startpt endpt winddir npts)
          (leftLeg startpt endpt winddir npts))] := by
  have hAbs : Arith.lt (Arith.abs (relwind startpt endpt winddir)) (lit 1 : ℝ) = true := by
    rw [Arith.abs_real]
    simpa using hUpwind
  refine ⟨startpt :: (List.range npts).map fun (i : Nat) =>
      startpt + ((lit i + lit (1 / 2)) / lit npts : ℝ) * (endpt - startpt), ?_⟩
  rw [generateHypotheses, if_neg (by omega)]
  refine (if_pos hAbs).trans ?_
  have hOne : (lit 1 : ℝ) = 1 := by simp
  have hTwo : (lit 2 : ℝ) = 2 := by simp
  have hPts' : (lit npts : ℝ) = npts := by simp
  have hLeft := leftLeg_eq startpt endpt winddir npts
  have hRight := rightLeg_eq startpt endpt winddir npts
  refine congrArg₂ (fun tack1 tack2 => [_, tack1, tack2]) ?_ ?_
  · refine congrArg _ (List.map_congr_left ?_)
    intro i _
    refine (tack_point _ _ _ _ _ i).trans ?_
    rw [hOne, hTwo, hPts', one_mul]
    exact congrArg₂ (corner startpt · · i) hLeft.symm hRight.symm
  · refine congrArg _ (List.map_congr_left ?_)
    intro i _
    refine (tack_point_neg _ _ _ _ _ i).trans ?_
    rw [hOne, hTwo, hPts', one_mul]
    exact congrArg₂ (corner startpt · · i) hRight.symm hLeft.symm

/-- The two kinds of legs make up the way to the end point. -/
theorem legs_sum (startpt endpt : Vec ℝ) (winddir : ℝ) (hPts : 1 ≤ npts) :
    endpt.x = startpt.x + (npts / 2 : ℝ) *
        ((leftLeg startpt endpt winddir npts).x + (rightLeg startpt endpt winddir npts).x) ∧
      endpt.y = startpt.y + (npts / 2 : ℝ) *
        ((leftLeg startpt endpt winddir npts).y + (rightLeg startpt endpt winddir npts).y) := by
  have hPos : (npts : ℝ) ≠ 0 := by exact_mod_cast (by omega : npts ≠ 0)
  rw [leftLeg_eq, rightLeg_eq]
  constructor
  · simp only [Vec.sub_x, Vec.sub_y]
    field_simp
    ring
  · simp only [Vec.sub_x, Vec.sub_y]
    field_simp
    ring

section Upwind

variable {winddir : ℝ} (hUpwind : |relwind startpt endpt winddir| < 1)
include hUpwind

/-- On both sides of the straight way there is room for a leg. -/
theorem sin_sides_pos :
    0 < sin (1 + relwind startpt endpt winddir) ∧ 0 < sin (1 - relwind startpt endpt winddir) := by
  obtain ⟨hLow, hHigh⟩ := abs_lt.mp hUpwind
  constructor <;> apply sin_pos_of_pos_of_lt_pi <;> linarith [pi_gt_three]

/-- The leg that starts to the left leaves the straight way by its width. -/
theorem leftLeg_width (hNe : startpt ≠ endpt) :
    |(endpt - startpt).cross (leftLeg startpt endpt winddir npts)| / (endpt - startpt).norm =
      tackWidth startpt endpt winddir npts := by
  obtain ⟨hLeft, hRight⟩ := sin_sides_pos hUpwind
  have hNorm := Vec.norm_pos hNe
  have hSin := sin_two_pos
  rw [show 1 + relwind startpt endpt winddir = 2 - (1 - relwind startpt endpt winddir) by ring]
    at hLeft
  have hCross : (endpt - startpt).cross (leftLeg startpt endpt winddir npts) =
      tackWidth startpt endpt winddir npts * (endpt - startpt).norm := by
    rw [tackWidth, mul_assoc _ (endpt - startpt).norm, ← sq, Vec.norm_sq, leftLeg_eq, Vec.cross]
    ring
  rw [hCross, abs_of_nonneg, mul_div_assoc, div_self hNorm.ne', mul_one]
  unfold tackWidth
  positivity

/-- And so does the one that starts to the right. -/
theorem rightLeg_width (hNe : startpt ≠ endpt) :
    |(endpt - startpt).cross (rightLeg startpt endpt winddir npts)| / (endpt - startpt).norm =
      tackWidth startpt endpt winddir npts := by
  -- a left leg and a right leg together do not leave the straight way
  have hOpposite : (endpt - startpt).cross (rightLeg startpt endpt winddir npts) =
      -(endpt - startpt).cross (leftLeg startpt endpt winddir npts) := by
    rw [leftLeg_eq, rightLeg_eq, Vec.cross, Vec.cross]
    ring
  rw [hOpposite, abs_neg, leftLeg_width hUpwind hNe]

end Upwind

/--
**The tacks close to the wind.** Both of the candidates have a point for every tack behind the
first; with the end point, their legs head 1 rad to the left and 1 rad to the right of the wind
in turn, and one of them starts to the left, the other one to the right.
-/
theorem tacks_sailable (startpt endpt : Vec ℝ) (winddir : ℝ) (npts : ℕ) (hNe : startpt ≠ endpt)
    (hUpwind : |relwind startpt endpt winddir| < 1) (hPts : 1 ≤ npts) :
    ∃ straight tack1 tack2,
      generateHypotheses startpt endpt winddir npts = [straight, tack1, tack2] ∧
      Sailable startpt endpt (winddir + π) 1 (tackWidth startpt endpt winddir npts) npts tack1 ∧
      Sailable startpt endpt (winddir + π) (-1) (tackWidth startpt endpt winddir npts) npts
        tack2 := by
  obtain ⟨straight, hPaths⟩ := generateHypotheses_upwind hPts hUpwind
  obtain ⟨hLeft, hRight⟩ := sin_sides_pos hUpwind
  obtain ⟨hx, hy⟩ := legs_sum startpt endpt winddir hPts
  have hNorm := Vec.norm_pos hNe
  have hSin := sin_two_pos
  have hPos : (0 : ℝ) < npts := by exact_mod_cast hPts
  refine ⟨straight, _, _, hPaths, ?_, ?_⟩
  · exact sailable_corners hPts hx hy rfl rfl (by positivity) (by positivity)
      (leftLeg_width hUpwind hNe) (rightLeg_width hUpwind hNe)
  · refine sailable_corners hPts (by rw [hx]; ring) (by rw [hy]; ring)
      (by rw [← sub_eq_add_neg]; rfl) (by rw [sub_neg_eq_add]; rfl) ?_ ?_
      (rightLeg_width hUpwind hNe) (leftLeg_width hUpwind hNe)
    · positivity
    · positivity

/-- Straight into the wind, in three tacks. -/
theorem tacks_sailable_upwind :
    ∃ straight tack1 tack2, generateHypotheses ⟨0, 0⟩ ⟨1, 0⟩ π 3 = [straight, tack1, tack2] ∧
      Sailable ⟨0, 0⟩ ⟨1, 0⟩ (π + π) 1 (tackWidth ⟨0, 0⟩ ⟨1, 0⟩ π 3) 3 tack1 ∧
      Sailable ⟨0, 0⟩ ⟨1, 0⟩ (π + π) (-1) (tackWidth ⟨0, 0⟩ ⟨1, 0⟩ π 3) 3 tack2 := by
  have hUpwind : relwind ⟨0, 0⟩ ⟨1, 0⟩ π = 0 := by
    have hEast : (⟨1 - 0, 0 - 0⟩ : ℂ) = 1 := Complex.ext (by simp) (by simp)
    have hAngle : Arith.mPi - π + Util.atan2 ((⟨1, 0⟩ : Vec ℝ) - ⟨0, 0⟩) = 0 := by
      show π - π + Complex.arg ⟨1 - 0, 0 - 0⟩ = 0
      rw [hEast, Complex.arg_one, sub_self, add_zero]
    rw [relwind, hAngle]
    exact Util.normAngle_eq AddCommGroup.modEq_rfl (by simpa using pi_pos)
  exact tacks_sailable ⟨0, 0⟩ ⟨1, 0⟩ π 3 (by simp) (by rw [hUpwind]; simp) (by decide)

end Sailbot.Control.LinePath

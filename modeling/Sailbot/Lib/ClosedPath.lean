import Mathlib.Algebra.BigOperators.Intervals
import Mathlib.Analysis.SpecialFunctions.Complex.Circle
import Sailbot.Lib.Plane

/-!
# Closed paths in the plane

A closed path with straight legs, as a sequence of corners that repeats after `n` of them. At
each corner the path turns by an angle; to the left when the angle is positive. The direction
of a leg is that of any other one, turned by the sum of the angles between them. If all turns
are to the left, seen from one leg the path goes up as long as it has turned by less than half
a turn, and down until it has turned once: so a path that turns once never gets to the right of
one of its legs.

* `exists_direction`  — the direction of a leg by the turns up to it.
* `exists_full_turns` — the turns of a closed path add up to full turns, at least one.
* `left_of_once`      — a path that turns once to the left is to the left of its legs.
* `left_of_turnsUp`   — so is a path that turns more often, if it stops going down on the line
  of the leg from which it is seen, and `turnsUp_of_left` only then.
-/

namespace Sailbot.Lib.ClosedPath

open Finset

variable {c : ℕ → Vec ℝ} {n : ℕ}

noncomputable def leg (c : ℕ → Vec ℝ) (i : ℕ) : Vec ℝ := c (i + 1) - c i

/-- The angle by which the path turns at the end of the leg `i`. -/
noncomputable def exteriorAngle (c : ℕ → Vec ℝ) (i : ℕ) : ℝ :=
  Complex.arg ((leg c (i + 1)).toComplex / (leg c i).toComplex)

/-- The turns at the next `m` corners. -/
noncomputable def turned (c : ℕ → Vec ℝ) (i m : ℕ) : ℝ :=
  ∑ l ∈ range m, exteriorAngle c (i + l)

/-- One more corner. -/
theorem turned_succ (i m : ℕ) :
    turned c i (m + 1) = turned c i m + exteriorAngle c (i + m) := sum_range_succ _ _

/-- A leg between different points has a direction. -/
theorem leg_ne_zero (hNe : ∀ i, c i ≠ c (i + 1)) (i : ℕ) : (leg c i).toComplex ≠ 0 := by
  intro hZero
  have hx : c (i + 1) = c i := by
    refine Vec.ext ?_ ?_
    · have := congrArg Complex.re hZero
      simp [leg] at this
      linarith
    · have := congrArg Complex.im hZero
      simp [leg] at this
      linarith
  exact hNe i hx.symm

/-- A turn is to the left, if and only if the cross product of the legs is not negative. -/
theorem exteriorAngle_nonneg_iff (hNe : ∀ i, c i ≠ c (i + 1)) (i : ℕ) :
    0 ≤ exteriorAngle c i ↔ 0 ≤ (leg c i).cross (leg c (i + 1)) := by
  have hPos : 0 < Complex.normSq (leg c i).toComplex :=
    Complex.normSq_pos.mpr (leg_ne_zero hNe i)
  have hIm : ((leg c (i + 1)).toComplex / (leg c i).toComplex).im =
      (leg c i).cross (leg c (i + 1)) / Complex.normSq (leg c i).toComplex := by
    rw [Complex.div_im, ← sub_div, Vec.cross]
    simp only [Vec.toComplex_re, Vec.toComplex_im]
    congr 1
    ring
  rw [exteriorAngle, Complex.arg_nonneg_iff, hIm, le_div_iff₀ hPos, zero_mul]

/-- By induction along the path: each corner turns the direction by its angle. -/
theorem exists_direction (hNe : ∀ i, c i ≠ c (i + 1)) (i m : ℕ) :
    ∃ r : ℝ, 0 < r ∧ (leg c (i + m)).toComplex =
      r * Complex.exp (turned c i m * Complex.I) * (leg c i).toComplex := by
  induction m with
  | zero => exact ⟨1, one_pos, by simp [turned]⟩
  | succ m ih =>
    obtain ⟨r, hr, hEq⟩ := ih
    set z := (leg c (i + m + 1)).toComplex / (leg c (i + m)).toComplex with hz
    have hzNe : z ≠ 0 := div_ne_zero (leg_ne_zero hNe _) (leg_ne_zero hNe _)
    refine ⟨‖z‖ * r, mul_pos (norm_pos_iff.mpr hzNe) hr, ?_⟩
    have hPolar : z = ‖z‖ * Complex.exp (exteriorAngle c (i + m) * Complex.I) :=
      (Complex.norm_mul_exp_arg_mul_I z).symm
    calc (leg c (i + (m + 1))).toComplex = z * (leg c (i + m)).toComplex :=
          (div_mul_cancel₀ _ (leg_ne_zero hNe _)).symm
      _ = ‖z‖ * Complex.exp (exteriorAngle c (i + m) * Complex.I) *
          (r * Complex.exp (turned c i m * Complex.I) * (leg c i).toComplex) := by
          rw [← hEq, ← hPolar]
      _ = _ := by
          rw [turned_succ]
          push_cast
          rw [add_mul, Complex.exp_add]
          ring

/-- Seen from a leg, another one goes up by the sine of the angle between them. -/
theorem exists_cross (hNe : ∀ i, c i ≠ c (i + 1)) (i m : ℕ) :
    ∃ k : ℝ, 0 < k ∧ (leg c i).cross (leg c (i + m)) = k * Real.sin (turned c i m) := by
  obtain ⟨r, hr, hEq⟩ := exists_direction hNe i m
  set a := leg c i
  have hPos : 0 < a.x ^ 2 + a.y ^ 2 := by
    have := Vec.squaredNorm_pos (hNe i)
    exact this
  refine ⟨r * (a.x ^ 2 + a.y ^ 2), mul_pos hr hPos, ?_⟩
  have hRe := congrArg Complex.re hEq
  have hIm := congrArg Complex.im hEq
  simp only [Vec.toComplex_re, Vec.toComplex_im, Complex.mul_re, Complex.mul_im,
    Complex.ofReal_re, Complex.ofReal_im, Complex.exp_ofReal_mul_I_re,
    Complex.exp_ofReal_mul_I_im] at hRe hIm
  rw [Vec.cross, hRe, hIm]
  ring

/-- How the height above a leg changes along the next one. -/
theorem cross_sub_succ (i j : ℕ) :
    (leg c i).cross (c (j + 1) - c i) =
      (leg c i).cross (c j - c i) + (leg c i).cross (leg c j) := by
  simp only [Vec.cross, leg, Vec.sub_x, Vec.sub_y]
  ring

/-- Where a path ends, seen from a leg, by the legs up to there. -/
theorem leg_cross_sub (i m : ℕ) :
    (leg c i).cross (c (i + m) - c i) = ∑ l ∈ range m, (leg c i).cross (leg c (i + l)) := by
  induction m with
  | zero => simp [Vec.cross]
  | succ m ih =>
    rw [sum_range_succ, ← ih]
    exact cross_sub_succ i (i + m)

/-- The way along a leg is the sum over the legs walked. -/
theorem leg_dot_sub (i m : ℕ) :
    (leg c i).dot (c (i + m) - c i) = ∑ l ∈ range m, (leg c i).dot (leg c (i + l)) := by
  induction m with
  | zero => simp [Vec.dot_eq]
  | succ m ih =>
    rw [sum_range_succ, ← ih]
    simp only [Vec.dot_eq, leg, Vec.sub_x, Vec.sub_y, ← add_assoc]
    ring

-- ---------------------------------------------------------------------------
-- Closed paths with left turns
-- ---------------------------------------------------------------------------

section Closed

variable (hNe : ∀ i, c i ≠ c (i + 1)) (hClosed : ∀ i, c (i + n) = c i)
  (hLeft : ∀ i, 0 ≤ exteriorAngle c i)

include hLeft in
/-- While all turns are to the left, the turn grows. -/
theorem turned_mono (i : ℕ) : Monotone (turned c i) := by
  refine monotone_nat_of_le_succ ?_
  intro m
  rw [turned_succ]
  exact le_add_of_nonneg_right (hLeft _)

include hClosed in
/-- The legs come again after one round. -/
theorem leg_add_period (i : ℕ) : leg c (i + n) = leg c i := by
  rw [leg, leg, show i + n + 1 = i + 1 + n by omega, hClosed, hClosed]

include hClosed in
/-- So do the turns. -/
theorem exteriorAngle_add_period (i : ℕ) : exteriorAngle c (i + n) = exteriorAngle c i := by
  rw [exteriorAngle, exteriorAngle, show i + n + 1 = i + 1 + n by omega,
    leg_add_period hClosed, leg_add_period hClosed]

include hClosed in
/-- The turns of a whole round are the same from every corner. -/
theorem turned_period (i : ℕ) : turned c i n = turned c 0 n := by
  induction i with
  | zero => rfl
  | succ i ih =>
    have hFirst : turned c i (n + 1) = turned c (i + 1) n + exteriorAngle c i := by
      rw [turned, sum_range_succ']
      refine congrArg₂ _ (sum_congr rfl fun l _ => ?_) rfl
      rw [show i + (l + 1) = i + 1 + l by omega]
    have hLast := turned_succ (c := c) i n
    rw [exteriorAngle_add_period hClosed] at hLast
    linarith

include hNe hClosed hLeft in
/-- The directions of a closed path cannot all be the same, so it turns, and by full turns. -/
theorem exists_full_turns (hn : 0 < n) :
    ∃ k : ℕ, 1 ≤ k ∧ turned c 0 n = 2 * Real.pi * k := by
  obtain ⟨r, hr, hEq⟩ := exists_direction hNe 0 n
  have hOne : (r : ℂ) * Complex.exp (turned c 0 n * Complex.I) = 1 := by
    rw [leg_add_period hClosed] at hEq
    exact mul_right_cancel₀ (leg_ne_zero hNe 0) (by rw [one_mul]; exact hEq.symm)
  have hNorm : r = 1 := by
    have := congrArg norm hOne
    rwa [norm_mul, Complex.norm_exp_ofReal_mul_I, mul_one, Complex.norm_real, norm_one,
      Real.norm_of_nonneg hr.le] at this
  rw [hNorm, Complex.ofReal_one, one_mul, Complex.exp_eq_one_iff] at hOne
  obtain ⟨k, hk⟩ := hOne
  have hTurns : turned c 0 n = 2 * Real.pi * k := by
    have := congrArg Complex.im hk
    simpa [mul_comm, mul_left_comm] using this
  have hNonneg : 0 ≤ turned c 0 n := sum_nonneg fun l _ => hLeft _
  have hNotZero : turned c 0 n ≠ 0 := by
    intro hZero
    -- without a turn all legs point the same way, and the path does not come back
    have hAhead : ∀ l ∈ range n, 0 < (leg c 0).dot (leg c (0 + l)) := by
      intro l hl
      have hNone : turned c 0 l = 0 :=
        le_antisymm (hZero ▸ turned_mono hLeft 0 (mem_range.mp hl).le)
          (sum_nonneg fun _ _ => hLeft _)
      obtain ⟨q, hq, hSame⟩ := exists_direction hNe 0 l
      rw [hNone] at hSame
      have hx := congrArg Complex.re hSame
      have hy := congrArg Complex.im hSame
      simp at hx hy
      have hPos : 0 < (leg c 0).x ^ 2 + (leg c 0).y ^ 2 := Vec.squaredNorm_pos (hNe 0)
      rw [Vec.dot_eq, zero_add, hx, hy]
      nlinarith
    have hSum := sum_pos hAhead ⟨0, mem_range.mpr hn⟩
    rw [← leg_dot_sub, hClosed, Vec.dot_eq] at hSum
    simp at hSum
  have hPos : (0 : ℝ) < k := by
    have : 0 < 2 * Real.pi * k := hTurns ▸ lt_of_le_of_ne hNonneg hNotZero.symm
    exact pos_of_mul_pos_right this Real.two_pi_pos.le
  lift k to ℕ using (Int.cast_pos.mp hPos).le
  exact ⟨k, Int.natCast_pos.mp (Int.cast_pos.mp hPos), by exact_mod_cast hTurns⟩

include hNe hClosed hLeft in
/-- Before half a turn the path goes up from the leg, behind it down, back to the leg. -/
theorem left_of_once {i m : ℕ} (hOnce : turned c i n = 2 * Real.pi) (hm : m ≤ n) :
    0 ≤ (leg c i).cross (c (i + m) - c i) := by
  rw [leg_cross_sub]
  rcases le_total (turned c i m) Real.pi with hHalf | hHalf
  · refine sum_nonneg ?_
    intro l hl
    obtain ⟨k, hk, hEq⟩ := exists_cross hNe i l
    rw [hEq]
    refine mul_nonneg hk.le (Real.sin_nonneg_of_nonneg_of_le_pi ?_ ?_)
    · exact sum_nonneg fun _ _ => hLeft _
    · exact (turned_mono hLeft i (mem_range.mp hl).le).trans hHalf
  · have hBack : ∑ l ∈ Ico m n, (leg c i).cross (leg c (i + l)) ≤ 0 := by
      refine sum_nonpos ?_
      intro l hl
      obtain ⟨hml, hln⟩ := mem_Ico.mp hl
      obtain ⟨k, hk, hEq⟩ := exists_cross hNe i l
      have hFrom := hHalf.trans (turned_mono hLeft i hml)
      have hTo := turned_mono hLeft i hln.le
      have hSin : Real.sin (turned c i l) ≤ 0 := by
        rw [← Real.sin_sub_two_pi]
        exact Real.sin_nonpos_of_nonpos_of_neg_pi_le (by linarith) (by linarith)
      rw [hEq]
      exact mul_nonpos_of_nonneg_of_nonpos hk.le hSin
    have hRound : ∑ l ∈ range n, (leg c i).cross (leg c (i + l)) = 0 := by
      rw [← leg_cross_sub, hClosed]
      simp [Vec.cross]
    linarith [sum_range_add_sum_Ico (fun l => (leg c i).cross (leg c (i + l))) hm]


end Closed

-- ---------------------------------------------------------------------------
-- Closed paths that turn more than once
-- ---------------------------------------------------------------------------

/-- Seen from the leg `i`, the path stops going down only on the line of that leg. -/
def TurnsUpOnLine (c : ℕ → Vec ℝ) (i : ℕ) : Prop :=
  ∀ j, (leg c i).cross (leg c j) < 0 → 0 ≤ (leg c i).cross (leg c (j + 1)) →
    (leg c i).cross (c (j + 1) - c i) = 0

/-- A sequence that repeats has a first place where it is least. -/
theorem exists_first_least (f : ℕ → ℝ) (hn : 0 < n) (hPeriod : ∀ i, f (i + n) = f i) :
    ∃ m, (∀ j, f m ≤ f j) ∧ ∀ l < m, f m < f l := by
  have hLeast : ∃ m, ∀ j, f m ≤ f j := by
    obtain ⟨m, -, hMin⟩ := exists_min_image (range n) f ⟨0, mem_range.mpr hn⟩
    refine ⟨m, ?_⟩
    intro j
    rw [← Function.Periodic.map_mod_nat hPeriod j]
    exact hMin _ (mem_range.mpr (Nat.mod_lt _ hn))
  classical
  refine ⟨Nat.find hLeast, Nat.find_spec hLeast, ?_⟩
  intro l hl
  have hNot := Nat.find_min hLeast hl
  push Not at hNot
  obtain ⟨j, hj⟩ := hNot
  exact (Nat.find_spec hLeast j).trans_lt hj

/-- Every corner comes within the next round. -/
theorem exists_behind (hn : 0 < n) (hClosed : ∀ i, c (i + n) = c i) (i j : ℕ) :
    ∃ m < n, c (i + m) = c j := by
  have hFrom : Function.Periodic (fun m => c (i + m)) n := fun m => by
    show c (i + (m + n)) = c (i + m)
    rw [← add_assoc, hClosed]
  refine ⟨(j + (n - 1) * i) % n, Nat.mod_lt _ hn, ?_⟩
  calc c (i + (j + (n - 1) * i) % n) = c (i + (j + (n - 1) * i)) := hFrom.map_mod_nat _
    _ = c (j + i * n) := by
      congr 1
      obtain ⟨n, rfl⟩ := Nat.exists_eq_succ_of_ne_zero hn.ne'
      show i + (j + n * i) = j + i * (n + 1)
      ring
    _ = c j := Function.Periodic.nat_mul hClosed i j

/-- The lowest corner is one where the path stops going down. -/
theorem left_of_turnsUp (hn : 0 < n) (hClosed : ∀ i, c (i + n) = c i) {i : ℕ}
    (hUp : TurnsUpOnLine c i) (m : ℕ) : 0 ≤ (leg c i).cross (c (i + m) - c i) := by
  set f : ℕ → ℝ := fun l => (leg c i).cross (c (i + l) - c i) with hf
  have hSucc : ∀ l, f (l + 1) = f l + (leg c i).cross (leg c (i + l)) :=
    fun l => cross_sub_succ i (i + l)
  have hPeriod : ∀ l, f (l + n) = f l := fun l => by
    show (leg c i).cross (c (i + (l + n)) - c i) = _
    rw [← add_assoc, hClosed]
  obtain ⟨least, hLeast, hFirst⟩ := exists_first_least f hn hPeriod
  have hZero : f least = 0 := by
    cases least with
    | zero => simp [hf, Vec.cross]
    | succ l =>
      have hDown := hFirst l l.lt_succ_self
      have hUpward := hLeast (l + 1 + 1)
      refine hUp (i + l) ?_ ?_
      · linarith [hSucc l]
      · exact le_of_add_le_add_left (a := f (l + 1)) (by
          rw [add_zero]
          exact hUpward.trans_eq (hSucc (l + 1)))
  exact hZero ▸ hLeast m

/-- A point `v` to the left of the legs `a` and `b` that meet in the origin and not to the left
of `u`, which the path goes down along `a` and up along `b`: it is on the line along `u`. -/
theorem cross_eq_zero_of_between {a b u v : Vec ℝ} (hb : 0 < b.x ^ 2 + b.y ^ 2)
    (hDown : u.cross a < 0) (hUp : 0 ≤ u.cross b) (hTurn : 0 ≤ a.cross b)
    (hav : 0 ≤ a.cross v) (hbv : 0 ≤ b.cross v) (hbw : 0 ≤ b.cross (u + v))
    (huv : u.cross v ≤ 0) : u.cross v = 0 := by
  have hPlucker : a.cross b * u.cross v = -(u.cross a) * b.cross v + a.cross v * u.cross b := by
    simp only [Vec.cross]
    ring
  have hFirst : 0 ≤ -(u.cross a) * b.cross v := mul_nonneg (by linarith) hbv
  have hSecond : 0 ≤ a.cross v * u.cross b := mul_nonneg hav hUp
  have hProduct : a.cross b * u.cross v ≤ 0 := mul_nonpos_of_nonneg_of_nonpos hTurn huv
  have hNone : a.cross b * u.cross v = 0 := by linarith
  rcases mul_eq_zero.mp hNone with hFlat | hDone
  · -- the path turns back along `a`: then the end of `u` is to the right of `b`
    exfalso
    have hbvZero : b.cross v = 0 := by
      have : -(u.cross a) * b.cross v = 0 := by linarith
      exact (mul_eq_zero.mp this).resolve_left (by linarith)
    have hbu : b.cross (u + v) = -(u.cross b) := by
      rw [← add_zero (-(u.cross b)), ← hbvZero]
      simp only [Vec.cross, Vec.add_x, Vec.add_y]
      ring
    have hubZero : u.cross b = 0 := by linarith
    have hAlong : (b.x ^ 2 + b.y ^ 2) * u.cross a =
        b.dot a * u.cross b - a.cross b * b.dot u := by
      simp only [Vec.cross, Vec.dot_eq]
      ring
    rw [hubZero, hFlat] at hAlong
    have : (b.x ^ 2 + b.y ^ 2) * u.cross a < 0 := mul_neg_of_pos_of_neg hb hDown
    linarith
  · exact hDone

/-- A path that is to the left of all its legs turns up on the line of each. -/
theorem turnsUp_of_left (hNe : ∀ i, c i ≠ c (i + 1))
    (hLeft : ∀ i j, 0 ≤ (leg c i).cross (c j - c i)) (i : ℕ) : TurnsUpOnLine c i := by
  intro j hDown hUp
  have hLine : (leg c i).cross (c (j + 1) - c i) = -(leg c i).cross (c i - c (j + 1)) := by
    simp only [Vec.cross, Vec.sub_x, Vec.sub_y]
    ring
  rw [hLine, neg_eq_zero]
  refine cross_eq_zero_of_between (a := leg c j) (b := leg c (j + 1))
    (Vec.squaredNorm_pos (hNe (j + 1))) hDown hUp ?_ ?_ (hLeft (j + 1) i) ?_ ?_
  · have := hLeft j (j + 1 + 1)
    simp only [Vec.cross, leg, Vec.sub_x, Vec.sub_y] at this ⊢
    linarith
  · have := hLeft j i
    simp only [Vec.cross, leg, Vec.sub_x, Vec.sub_y] at this ⊢
    linarith
  · have := hLeft (j + 1) (i + 1)
    simp only [Vec.cross, leg, Vec.sub_x, Vec.sub_y, Vec.add_x, Vec.add_y] at this ⊢
    linarith
  · have := hLeft i (j + 1)
    linarith

end Sailbot.Lib.ClosedPath

import Mathlib.Tactic.NormNum
import Sailbot.Lib.Arith

/-!
# Numbers that are numbers

Floating-point numbers that are neither an infinity nor NaN. As the exponent has no bounds, the
operations stay among them; only a quotient by zero leaves them.

* `Double.IsNum`       — a number.
* `Double.isNum_add`, … — the operations.
* `Double.isNum_min`, `isNum_max`, `isNum_abs` — what is one of its arguments.
-/

namespace Sailbot.Lib.Double

open Arith (lit litf)

variable {F : Formats} {m : Libm} {a b : Double F m}

def IsNum (a : Double F m) : Prop := ∃ q, a = num q

/-- A number is a number. -/
theorem isNum_num (q : ℚ) : IsNum (num q : Double F m) := ⟨q, rfl⟩

/-- A literal is a number. -/
theorem isNum_lit (q : ℚ) : IsNum (lit q : Double F m) := ⟨_, rfl⟩

/-- A literal of single precision is a number. -/
theorem isNum_litf (q : ℚ) : IsNum (litf q : Double F m) := ⟨_, rfl⟩

/-- The sum of two numbers is a number. -/
theorem isNum_add (ha : IsNum a) (hb : IsNum b) : IsNum (a + b) := by
  obtain ⟨x, rfl⟩ := ha
  obtain ⟨y, rfl⟩ := hb
  exact ⟨_, rfl⟩

/-- The negative of a number is a number. -/
theorem isNum_neg (ha : IsNum a) : IsNum (-a) := by
  obtain ⟨x, rfl⟩ := ha
  exact ⟨_, rfl⟩

/-- The difference of two numbers is a number. -/
theorem isNum_sub (ha : IsNum a) (hb : IsNum b) : IsNum (a - b) := by
  obtain ⟨x, rfl⟩ := ha
  obtain ⟨y, rfl⟩ := hb
  exact ⟨_, rfl⟩

/-- The product of two numbers is a number. -/
theorem isNum_mul (ha : IsNum a) (hb : IsNum b) : IsNum (a * b) := by
  obtain ⟨x, rfl⟩ := ha
  obtain ⟨y, rfl⟩ := hb
  exact ⟨_, rfl⟩

/-- A conversion to an integer gives a number, whatever it is of. -/
theorem isNum_trunc (a : Double F m) : IsNum (Arith.trunc a) := ⟨_, rfl⟩

/-- What is a number in both branches is a number. -/
theorem isNum_ite {p : Prop} [Decidable p] (ha : IsNum a) (hb : IsNum b) :
    IsNum (if p then a else b) := by
  split
  · exact ha
  · exact hb

/-- `std::min` of two numbers is a number. -/
theorem isNum_min (ha : IsNum a) (hb : IsNum b) : IsNum (Arith.min a b) := isNum_ite hb ha

/-- `std::max` of two numbers is a number. -/
theorem isNum_max (ha : IsNum a) (hb : IsNum b) : IsNum (Arith.max a b) := isNum_ite hb ha

/-- The conversion to another format, and back. -/
def conv (r : Rounding) (a : Double F m) : Double F m := Fp.conv r a

/-- A conversion between the formats rounds a number. -/
theorem conv_num (r : Rounding) (x : ℚ) : conv r (num x : Double F m) = num (r.round x) := rfl

-- ---------------------------------------------------------------------------
-- Comparisons
-- ---------------------------------------------------------------------------

variable {x y : ℚ}

@[simp] theorem lt_num : Arith.lt (num x : Double F m) (num y) = true ↔ x < y := decide_eq_true_iff

@[simp] theorem eq_num : Arith.eq (num x : Double F m) (num y) = true ↔ x = y := by
  show (!decide (y < x) && !decide (x < y)) = true ↔ _
  rw [Bool.and_eq_true, Bool.not_eq_true', Bool.not_eq_true', decide_eq_false_iff_not,
    decide_eq_false_iff_not, not_lt, not_lt]
  exact le_antisymm_iff.symm

/-- Zero is not rounded. -/
theorem lit_zero : (lit 0 : Double F m) = num 0 := by
  have hExact := F.double.exact_int 0 (by decide)
  show num (F.double.round 0) = num 0
  rw [Int.cast_zero] at hExact
  rw [hExact]

/-- A small integer is not rounded. -/
theorem lit_int {n : Int} (hn : |n| ≤ 2 ^ 24) : (lit (n : ℚ) : Double F m) = num n := by
  show num (F.double.round n) = num n
  rw [F.double.exact_int n hn]

/-- The absolute value is not rounded. -/
theorem abs_num (x : ℚ) : Arith.abs (num x : Double F m) = num |x| := by
  rw [Arith.abs, lit_zero]
  simp only [lt_num]
  split
  case isTrue h =>
    rw [abs_of_neg h]
    rfl
  case isFalse h => rw [abs_of_nonneg (not_lt.mp h)]

/-- The smaller of two numbers is not rounded. -/
theorem min_num : Arith.min (num x : Double F m) (num y) = num (min x y) := by
  rw [Arith.min]
  simp only [lt_num]
  split
  case isTrue h => rw [min_eq_right h.le]
  case isFalse h => rw [min_eq_left (not_lt.mp h)]

/-- The larger of two numbers is not rounded. -/
theorem max_num : Arith.max (num x : Double F m) (num y) = num (max x y) := by
  rw [Arith.max]
  simp only [lt_num]
  split
  case isTrue h => rw [max_eq_right h.le]
  case isFalse h => rw [max_eq_left (not_lt.mp h)]

end Sailbot.Lib.Double

namespace Sailbot.Lib.Rounding

/-- Every rounding leaves zero alone. -/
theorem round_zero (r : Rounding) : r.round 0 = 0 := by
  have hZero := r.exact_int 0 (by decide)
  rwa [Int.cast_zero] at hZero

/-- The distance from zero stays between two integers when a number is rounded. -/
theorem abs_between (r : Rounding) {x : ℚ} {a b : Int} (ha : 0 ≤ a ∧ a ≤ 2 ^ 24)
    (hb : 0 ≤ b ∧ b ≤ 2 ^ 24) (h : (a : ℚ) ≤ |x| ∧ |x| ≤ b) :
    (a : ℚ) ≤ |r.round x| ∧ |r.round x| ≤ b := by
  have hNonneg : (0 : ℚ) ≤ a := by exact_mod_cast ha.1
  have hA : |a| ≤ 2 ^ 24 := by rw [abs_of_nonneg ha.1]; exact ha.2
  have hB : |b| ≤ 2 ^ 24 := by rw [abs_of_nonneg hb.1]; exact hb.2
  rcases le_or_gt 0 x with hPos | hNeg
  · rw [abs_of_nonneg hPos] at h
    have hRound := r.between hA hB h
    rwa [abs_of_nonneg (hNonneg.trans hRound.1)]
  · rw [abs_of_neg hNeg] at h
    obtain ⟨hLow, hHigh⟩ := r.between (x := x) (a := -b) (b := -a) (by rwa [abs_neg])
      (by rwa [abs_neg]) ⟨by push_cast; linarith, by push_cast; linarith⟩
    push_cast at hLow hHigh
    rw [abs_of_nonpos (by linarith)]
    exact ⟨by linarith, by linarith⟩

end Sailbot.Lib.Rounding

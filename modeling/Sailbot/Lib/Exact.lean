import Sailbot.Lib.Plane

/-!
# Exact arithmetic with an undefined number

The real numbers and one more, which stands for whatever has no value: a quotient by zero, the root
of a negative number, and what is computed from it. It compares with no number, like NaN.

A program over these numbers computes what it computes over the real numbers, as long as it does
not divide by zero.

* `Exact`       — the numbers, with their operations.
* `Exact.toInt` — the conversion to a 32-bit `int`; `none` where it is not defined.
* `Exact.real_add`, … — the operations on real numbers.
-/

namespace Sailbot.Lib

open Arith (lit litf)

def Exact : Type := Option ℝ

namespace Exact

def real (x : ℝ) : Exact := some x

/-- The number without a value. -/
def undefined : Exact := none

def map (f : ℝ → ℝ) (a : Exact) : Exact := Option.map f a

def map₂ (f : ℝ → ℝ → ℝ) (a b : Exact) : Exact := Option.bind a fun x => Option.map (f x) b

def compare (f : ℝ → ℝ → Bool) : Exact → Exact → Bool
  | some x, some y => f x y
  | _, _ => false

noncomputable instance : Arith Exact where
  add := map₂ (· + ·)
  sub := map₂ (· - ·)
  mul := map₂ (· * ·)
  div a b := Option.bind a fun x => Option.bind b fun y => if y = 0 then none else some (x / y)
  neg := map (- ·)
  lit q := real (lit q)
  litf q := real (litf q)
  mPi := real Arith.mPi
  lt := compare Arith.lt
  le := compare Arith.le
  eq := compare Arith.eq
  isNaN := Option.isNone
  inf := undefined
  ltInf := Option.isSome
  trunc := map Arith.trunc
  floor := map Arith.floor
  sqrt a := Option.bind a fun x => if x < 0 then none else some (Arith.sqrt x)
  exp := map Arith.exp
  sin := map Arith.sin
  cos := map Arith.cos
  atan2 := map₂ Arith.atan2
  atan2f := map₂ Arith.atan2f
  pow := map₂ Arith.pow

/-- The integer part, towards zero. -/
noncomputable def integerPart (x : ℝ) : Int := if 0 ≤ x then ⌊x⌋ else ⌈x⌉

/-- A number is converted to an `int` by truncation. -/
noncomputable def toInt : Exact → Option Int
  | some x =>
    if -2 ^ 31 ≤ integerPart x ∧ integerPart x < 2 ^ 31 then some (integerPart x) else none
  | none => none

/-- A number of the range of `int` is converted. -/
theorem toInt_isSome {x : ℝ} (h : |x| < 2 ^ 31) : (toInt (real x)).isSome = true := by
  obtain ⟨hLow, hHigh⟩ := abs_lt.mp h
  have hRange : -2 ^ 31 ≤ integerPart x ∧ integerPart x < 2 ^ 31 := by
    unfold integerPart
    split
    case isTrue hPos =>
      have hFloor : 0 ≤ ⌊x⌋ := Int.floor_nonneg.mpr hPos
      exact ⟨by omega, Int.floor_lt.mpr (by push_cast; linarith)⟩
    case isFalse hNeg =>
      have hCeil : ⌈x⌉ ≤ 0 := Int.ceil_le.mpr (by simpa using (not_le.mp hNeg).le)
      exact ⟨(Int.lt_ceil.mpr (by push_cast; linarith)).le, by omega⟩
  rw [real, toInt, if_pos hRange]
  rfl

-- ---------------------------------------------------------------------------
-- Real numbers
-- ---------------------------------------------------------------------------

variable {x y : ℝ}

@[simp] theorem real_ne_undefined : real x ≠ undefined := Option.some_ne_none x

@[simp] theorem real_add : real x + real y = real (x + y) := rfl
@[simp] theorem real_sub : real x - real y = real (x - y) := rfl
@[simp] theorem real_mul : real x * real y = real (x * y) := rfl
@[simp] theorem real_neg : -real x = real (-x) := rfl
@[simp] theorem real_lit (q : ℚ) : (lit q : Exact) = real (lit q) := rfl
@[simp] theorem real_litf (q : ℚ) : (litf q : Exact) = real (litf q) := rfl
@[simp] theorem real_mPi : (Arith.mPi : Exact) = real Arith.mPi := rfl
@[simp] theorem real_lt : Arith.lt (real x) (real y) = Arith.lt x y := rfl
@[simp] theorem real_trunc : Arith.trunc (real x) = real (Arith.trunc x) := rfl

/-- A division by anything but zero. -/
theorem real_div (hy : y ≠ 0) : real x / real y = real (x / y) := if_neg hy

/-- A division by zero is undefined. -/
theorem real_div_zero : real x / real 0 = undefined := if_pos rfl

/-- The root of what is not negative. -/
theorem real_sqrt (hx : 0 ≤ x) : Arith.sqrt (real x) = real (Arith.sqrt x) :=
  if_neg (not_lt.mpr hx)

/-- A comparison of defined numbers decides a defined one. -/
theorem real_ite (a b : ℝ) :
    (if Arith.lt (real x) (real y) then real a else real b) =
      real (if Arith.lt x y then a else b) := by
  rw [real_lt]
  exact (apply_ite real _ a b).symm

@[simp] theorem real_min : Arith.min (real x) (real y) = real (Arith.min x y) := by
  rw [Arith.min, Arith.min, real_lt]
  split <;> rfl

@[simp] theorem real_max : Arith.max (real x) (real y) = real (Arith.max x y) := by
  rw [Arith.max, Arith.max, real_lt]
  split <;> rfl

@[simp] theorem real_abs : Arith.abs (real x) = real (Arith.abs x) := by
  rw [Arith.abs, Arith.abs, real_lit, real_lt]
  split <;> rfl

end Exact

end Sailbot.Lib

import Mathlib.Data.Rat.Floor
import Mathlib.Order.Monotone.Basic
import Mathlib.Tactic.Linarith

/-!
# Floating-point numbers

Numbers of a binary format with the two infinities and NaN. A finite number is the
rational it stands for; a zero has no sign. Every operation rounds its exact result
to the format it is carried out in.

A `Rounding` is any rounding of the kind: monotone, and exact on the integers that
the single precision format has. What is said about it holds for both formats and
for every rounding mode, and for arithmetic without rounding (`Rounding.exact`).
The exponent has no bounds, so that a finite number never rounds to an infinity.

* `Fp.add` … `Fp.div`, `Fp.lt`, `Fp.le`, `Fp.min`, `Fp.max` — the operations of the
  source language, comparisons being false for NaN.
* `Fp.toInt` — the conversion to a 32-bit `int`; `none` where it is not defined.
* `Rounding.between`, `truncate_between` — a number between two integers stays
  between them when it is rounded and when it is truncated.
* `Fp.toInt_isSome` — which numbers are converted.
* `Fp.clip_eq_num` — what clipping leaves is finite and in range, unless it is given NaN.
-/

namespace Sailbot.Lib

/-- A rounding to a floating-point format. -/
structure Rounding where
  round : ℚ → ℚ
  mono  : Monotone round
  exact_int : ∀ n : Int, |n| ≤ 2 ^ 24 → round n = n

/-- Arithmetic without rounding. -/
def Rounding.exact : Rounding := ⟨id, monotone_id, fun _ _ => rfl⟩

/-- The two formats of a program. -/
structure Formats where
  float  : Rounding
  double : Rounding

def Formats.exact : Formats := ⟨.exact, .exact⟩

/-- Rounding stays between small integers. -/
theorem Rounding.between (r : Rounding) {x : ℚ} {a b : Int} (ha : |a| ≤ 2 ^ 24)
    (hb : |b| ≤ 2 ^ 24) (h : (a : ℚ) ≤ x ∧ x ≤ b) : (a : ℚ) ≤ r.round x ∧ r.round x ≤ b := by
  have hLow := r.mono h.1
  have hHigh := r.mono h.2
  rw [r.exact_int a ha] at hLow
  rw [r.exact_int b hb] at hHigh
  exact ⟨hLow, hHigh⟩

-- ---------------------------------------------------------------------------
-- Truncation
-- ---------------------------------------------------------------------------

/-- The integer part, towards zero. -/
def truncate (x : ℚ) : Int := if 0 ≤ x then ⌊x⌋ else ⌈x⌉

/-- Cutting off the fraction changes a number by less than one. -/
theorem truncate_near (x : ℚ) : x - 1 < truncate x ∧ truncate x < x + 1 := by
  unfold truncate
  split
  · exact ⟨by linarith [Int.lt_floor_add_one x], by linarith [Int.floor_le x]⟩
  · exact ⟨by linarith [Int.le_ceil x], Int.ceil_lt_add_one x⟩

/-- Truncation does not take a number over a bound on the other side of zero. -/
theorem truncate_lt {x : ℚ} {n : Int} (hn : 0 < n) : truncate x < n ↔ x < n := by
  have hn' : (0 : ℚ) < n := Int.cast_pos.mpr hn
  unfold truncate
  split
  · exact Int.floor_lt
  · next hNeg =>
    have hCeil : ⌈x⌉ ≤ 0 := Int.ceil_le.mpr (by simpa using (not_le.mp hNeg).le)
    exact ⟨fun _ => by linarith, fun _ => by omega⟩

/-- What is above a negative integer, is so after cutting off the fraction. -/
theorem neg_lt_truncate {x : ℚ} {n : Int} (hn : 0 < n) : -n < truncate x ↔ -(n : ℚ) < x := by
  have hn' : (0 : ℚ) < n := Int.cast_pos.mpr hn
  unfold truncate
  split
  · next hPos =>
    have hFloor : 0 ≤ ⌊x⌋ := Int.floor_nonneg.mpr hPos
    exact ⟨fun _ => by linarith, fun _ => by omega⟩
  · rw [Int.lt_ceil, Int.cast_neg]

/-- A number above `-1` and below `n + 1` has its integer part in `0 .. n`. -/
theorem truncate_between {x : ℚ} {n : Int} (hn : 0 ≤ n) (h : -1 < x ∧ x < n + 1) :
    0 ≤ truncate x ∧ truncate x ≤ n := by
  unfold truncate
  split
  · next hPos =>
    refine ⟨Int.floor_nonneg.mpr hPos, Int.lt_add_one_iff.mp ?_⟩
    rw [Int.floor_lt]
    push_cast
    exact h.2
  · next hNeg =>
    have hCeil : ⌈x⌉ ≤ 0 := by
      rw [Int.ceil_le, Int.cast_zero]
      exact (not_le.mp hNeg).le
    have hLow : -1 < ⌈x⌉ := by
      rw [Int.lt_ceil]
      push_cast
      exact h.1
    omega

-- ---------------------------------------------------------------------------
-- Numbers of a format
-- ---------------------------------------------------------------------------

inductive Fp
  | nan
  | inf (negative : Bool)
  | num (x : ℚ)
  deriving DecidableEq

namespace Fp

def ofInt (r : Rounding) (n : Int) : Fp := num (r.round n)

/-- The conversion from another format. -/
def conv (r : Rounding) : Fp → Fp
  | num x => num (r.round x)
  | x => x

def neg : Fp → Fp
  | nan => nan
  | inf n => inf (!n)
  | num x => num (-x)

def add (r : Rounding) : Fp → Fp → Fp
  | nan, _ | _, nan => nan
  | inf m, inf n => if m = n then inf m else nan
  | inf m, num _ => inf m
  | num _, inf n => inf n
  | num x, num y => num (r.round (x + y))

def sub (r : Rounding) (x y : Fp) : Fp := add r x (neg y)

/-- An infinity times a number: its sign, and NaN for a zero. -/
def infMul (negative : Bool) (x : ℚ) : Fp :=
  if x = 0 then nan else inf (negative != decide (x < 0))

def mul (r : Rounding) : Fp → Fp → Fp
  | nan, _ | _, nan => nan
  | inf m, inf n => inf (m != n)
  | inf m, num x => infMul m x
  | num x, inf n => infMul n x
  | num x, num y => num (r.round (x * y))

def div (r : Rounding) : Fp → Fp → Fp
  | nan, _ | _, nan => nan
  | inf _, inf _ => nan
  | inf m, num y => inf (m != decide (y < 0))
  | num _, inf _ => num 0
  | num x, num y =>
    if y = 0 then (if x = 0 then nan else inf (decide (x < 0))) else num (r.round (x / y))

/-- `x < y`. -/
def lt : Fp → Fp → Bool
  | nan, _ | _, nan => false
  | inf m, inf n => m && !n
  | inf m, num _ => m
  | num _, inf n => !n
  | num x, num y => decide (x < y)

/-- `x <= y`. -/
def le : Fp → Fp → Bool
  | nan, _ | _, nan => false
  | x, y => !lt y x

/-- `std::min`. -/
def min (x y : Fp) : Fp := if lt y x then y else x

/-- `std::max`. -/
def max (x y : Fp) : Fp := if lt x y then y else x

/-- A number is converted to an `int` by truncation. For NaN, an infinity and a number
out of range this is undefined behaviour. -/
def toInt : Fp → Option Int
  | num x => if -2 ^ 31 ≤ truncate x ∧ truncate x < 2 ^ 31 then some (truncate x) else none
  | _ => none

/-- The number lies strictly between `a` and `b`. -/
def Between (a b : ℚ) : Fp → Prop
  | num x => a < x ∧ x < b
  | _ => False

instance (a b : ℚ) : ∀ x : Fp, Decidable (x.Between a b)
  | num x => inferInstanceAs (Decidable (a < x ∧ x < b))
  | nan | inf _ => .isFalse id

/-- Nothing is less than itself, NaN included. -/
theorem lt_irrefl : ∀ x : Fp, lt x x = false
  | nan => rfl
  | inf true | inf false => rfl
  | num _ => decide_eq_false fun h => h.ne rfl

/-- NaN is not comparable with any number. -/
theorem lt_trans {x y z : Fp} (hxy : lt x y = true) (hyz : lt y z = true) : lt x z = true := by
  match x, y, z with
  | num x, num y, num z =>
    exact decide_eq_true ((of_decide_eq_true hxy).trans (of_decide_eq_true hyz))
  | inf true, _, inf false | inf true, _, num _ => rfl
  | num _, _, inf false => rfl
  | inf true, inf m, inf true => cases m <;> cases hyz
  | num _, inf m, inf true => cases m <;> cases hyz
  | num _, inf true, num _ => cases hxy

/-- What can be converted is a number, cut off. -/
theorem toInt_eq_some {x : Fp} {n : Int} (h : toInt x = some n) :
    ∃ q, x = num q ∧ n = truncate q := by
  cases x with
  | nan => cases h
  | inf m => cases h
  | num q =>
    rw [toInt] at h
    split at h
    · exact ⟨q, rfl, (Option.some.inj h).symm⟩
    · cases h

/-- A number that truncates into the range of an `int` is converted. -/
theorem toInt_isSome {x : Fp} (h : x.Between (-2 ^ 31 - 1) (2 ^ 31)) : x.toInt.isSome := by
  cases x with
  | nan | inf => exact h.elim
  | num q =>
    have hLow : -(2 ^ 31 + 1) < truncate q :=
      (neg_lt_truncate (by decide)).mpr (by push_cast; linarith [h.1])
    have hHigh : truncate q < 2 ^ 31 := (truncate_lt (by decide)).mpr (by push_cast; exact h.2)
    rw [toInt, if_pos ⟨by omega, hHigh⟩]
    rfl

/-- A wider range has the number too. -/
theorem Between.mono {a b c d : ℚ} {x : Fp} (h : x.Between a b) (ha : c ≤ a) (hb : b ≤ d) :
    x.Between c d := by
  cases x with
  | nan | inf => exact h
  | num q => exact ⟨ha.trans_lt h.1, h.2.trans_le hb⟩

/-- Clipping leaves a number of the range, unless it is given NaN. -/
theorem clip_eq_num {lo hi : ℚ} (h : lo ≤ hi) {x : Fp} (hx : x ≠ nan) :
    ∃ q, max (min x (num hi)) (num lo) = num q ∧ lo ≤ q ∧ q ≤ hi := by
  cases x with
  | nan => exact absurd rfl hx
  | inf m =>
    cases m with
    | true => exact ⟨lo, rfl, le_rfl, h⟩
    | false =>
      have hNot : ¬ hi < lo := not_lt.mpr h
      exact ⟨hi, by simp [min, max, lt, hNot], h, le_rfl⟩
  | num q =>
    by_cases hHigh : hi < q
    · have hNot : ¬ hi < lo := not_lt.mpr h
      exact ⟨hi, by simp [min, max, lt, hHigh, hNot], h, le_rfl⟩
    · by_cases hLow : q < lo
      · exact ⟨lo, by simp [min, max, lt, hHigh, hLow], le_rfl, h⟩
      · exact ⟨q, by simp [min, max, lt, hHigh, hLow], not_lt.mp hLow, not_lt.mp hHigh⟩

end Fp

end Sailbot.Lib

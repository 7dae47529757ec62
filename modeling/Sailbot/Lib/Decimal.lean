import Mathlib.Algebra.Group.Int.Defs
import Mathlib.Algebra.Group.Nat.Defs
import Mathlib.Data.Nat.Init
import Mathlib.Tactic.Push

/-!
# Decimal numerals of a width

The conversion `%0wd` of `printf`: the decimal numeral of an integer, with zeros between the sign
and the digits up to a width. A number that does not fit is printed all the same.

* `length_printInt_le_iff` — the numbers that are printed with a number of characters.
* `numeral_printInt`       — a number from zero on that fits is printed in digits only, which read
  back as the number.
-/

namespace Sailbot.Lib

/-- `%0wd`. -/
def printInt (w : Nat) (x : Int) : List Char :=
  let digits := Nat.toDigits 10 x.natAbs
  if x < 0 then '-' :: (List.replicate (w - 1 - digits.length) '0' ++ digits)
  else List.replicate (w - digits.length) '0' ++ digits

/-- The text consists of `w` digits and reads back as `x`. -/
structure Numeral (w : Nat) (x : Int) (text : List Char) : Prop where
  length : text.length = w
  digits : ∀ c ∈ text, c.isDigit = true
  value  : (Nat.ofDigitChars 10 text 0 : Int) = x

theorem le_length_printInt (w : Nat) (x : Int) : w ≤ (printInt w x).length := by
  rw [printInt]
  split
  · rw [List.length_cons, List.length_append, List.length_replicate]
    omega
  · rw [List.length_append, List.length_replicate]
    omega

theorem length_printInt_le_iff {w k : Nat} (hw : 0 < w) (x : Int) :
    (printInt w x).length ≤ k ↔ w ≤ k ∧ -10 ^ (k - 1) < x ∧ x < 10 ^ k := by
  by_cases hWidth : w ≤ k
  case neg =>
    have := le_length_printInt w x
    exact ⟨fun h => by omega, fun h => absurd h.1 hWidth⟩
  have hPow : (0 : Int) < 10 ^ k := Int.pow_pos (by decide)
  by_cases hNeg : x < 0
  · -- one of the characters is the sign
    have hText : (printInt w x).length ≤ k ↔ (Nat.toDigits 10 x.natAbs).length ≤ k - 1 := by
      rw [printInt, if_pos hNeg, List.length_cons, List.length_append, List.length_replicate]
      omega
    rw [hText]
    rcases Nat.eq_zero_or_pos (k - 1) with hZero | hPos
    · have := Nat.length_toDigits_pos (b := 10) (n := x.natAbs)
      rw [hZero, Int.pow_zero]
      exact ⟨fun h => by omega, fun h => by omega⟩
    · rw [Nat.length_toDigits_le_iff (by decide) hPos]
      have hCast : ((10 ^ (k - 1) : Nat) : Int) = 10 ^ (k - 1) := by push_cast; rfl
      omega
  · have hText : (printInt w x).length ≤ k ↔ (Nat.toDigits 10 x.natAbs).length ≤ k := by
      rw [printInt, if_neg hNeg, List.length_append, List.length_replicate]
      omega
    have hPow' : (0 : Int) < 10 ^ (k - 1) := Int.pow_pos (by decide)
    rw [hText, Nat.length_toDigits_le_iff (by decide) (by omega)]
    have hCast : ((10 ^ k : Nat) : Int) = 10 ^ k := by push_cast; rfl
    omega

/-- A number that fits. -/
theorem numeral_printInt {w : Nat} (hw : 0 < w) {x : Int} (hNeg : 0 ≤ x) (hFits : x < 10 ^ w) :
    Numeral w x (printInt w x) := by
  have hPow : (0 : Int) < 10 ^ (w - 1) := Int.pow_pos (by decide)
  have hLength := (length_printInt_le_iff (k := w) hw x).mpr ⟨Nat.le_refl w, by omega, hFits⟩
  have hText : printInt w x =
      List.replicate (w - (Nat.toDigits 10 x.natAbs).length) '0' ++ Nat.toDigits 10 x.natAbs :=
    if_neg (by omega)
  refine ⟨Nat.le_antisymm hLength (le_length_printInt w x), ?_, ?_⟩
  · intro c hc
    rw [hText, List.mem_append, List.mem_replicate] at hc
    rcases hc with ⟨-, rfl⟩ | hDigit
    · rfl
    · exact Nat.isDigit_of_mem_toDigits (by decide) (by decide) hDigit
  · rw [hText, Nat.ofDigitChars_append, Nat.ofDigitChars_replicate_zero, Nat.mul_zero,
      Nat.ofDigitChars_ten_toDigits]
    omega

end Sailbot.Lib

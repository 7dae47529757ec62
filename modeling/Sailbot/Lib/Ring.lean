import Mathlib.Data.Nat.ModEq

/-!
# Slots of a ring that grows downwards

Items numbered `1, 2, 3, …` are written into `n` slots, each one slot below the
one before it and wrapping from `0` to `n - 1`. Item `m` therefore sits in the
slot congruent to `-m` modulo `n`. Everything about such a ring follows from
one characterisation, `ringSlot_eq_iff`: a slot below `n` holds item `m` exactly
when `n` divides their sum.
-/

namespace Sailbot.Lib

/-- The slot of item `m` in a downward ring with `n` slots. -/
def ringSlot (n m : Nat) : Nat := (n - m % n) % n

theorem ringSlot_lt {n : Nat} (hn : 0 < n) (m : Nat) : ringSlot n m < n :=
  Nat.mod_lt _ hn

theorem dvd_ringSlot_add {n : Nat} (hn : 0 < n) (m : Nat) : n ∣ ringSlot n m + m := by
  have hle : m % n ≤ n := (Nat.mod_lt m hn).le
  have hmod : (ringSlot n m + m) % n = ((n - m % n) + m % n) % n := by
    rw [ringSlot, Nat.mod_add_mod, Nat.add_mod_mod]
  rw [Nat.sub_add_cancel hle, Nat.mod_self] at hmod
  exact Nat.dvd_of_mod_eq_zero hmod

/-- Two slots below `n` that complete the same number to a multiple of `n` are
the same slot. -/
theorem slot_unique {n x y m : Nat} (hx : x < n) (hy : y < n)
    (hxm : n ∣ x + m) (hym : n ∣ y + m) : x = y := by
  have h : x ≡ y [MOD n] := by
    have hxy : x + m ≡ y + m [MOD n] :=
      ((Nat.modEq_zero_iff_dvd.mpr hxm).trans (Nat.modEq_zero_iff_dvd.mpr hym).symm)
    exact hxy.add_right_cancel' m
  exact h.eq_of_lt_of_lt hx hy

theorem ringSlot_eq_iff {n x m : Nat} (hx : x < n) : ringSlot n m = x ↔ n ∣ x + m := by
  constructor
  · rintro rfl
    exact dvd_ringSlot_add (by omega) m
  · intro h
    exact slot_unique (ringSlot_lt (by omega) m) hx (dvd_ringSlot_add (by omega) m) h

/-- Slots agree exactly when the item numbers differ by a multiple of `n`. -/
theorem ringSlot_eq_ringSlot_iff {n a b : Nat} (hn : 0 < n) (hab : a ≤ b) :
    ringSlot n a = ringSlot n b ↔ n ∣ b - a := by
  rw [eq_comm, ringSlot_eq_iff (ringSlot_lt hn a)]
  have h : ringSlot n a + b = (ringSlot n a + a) + (b - a) := by omega
  rw [h, Nat.dvd_add_right (dvd_ringSlot_add hn a)]

/-- One item further is one slot down, wrapping at the bottom. -/
theorem ringSlot_succ {n : Nat} (hn : 0 < n) (m : Nat) :
    ringSlot n (m + 1) = if ringSlot n m ≠ 0 then ringSlot n m - 1 else n - 1 := by
  have hlt := ringSlot_lt hn m
  have hdvd := dvd_ringSlot_add hn m
  split
  · rename_i hne
    rw [ringSlot_eq_iff (by omega)]
    have h : ringSlot n m - 1 + (m + 1) = ringSlot n m + m := by omega
    rwa [h]
  · rename_i heq
    rw [ringSlot_eq_iff (by omega)]
    have h : n - 1 + (m + 1) = n + (ringSlot n m + m) := by omega
    rw [h]
    exact (Nat.dvd_add_right (dvd_refl n)).mpr hdvd

/-- A sum that passes the end of the ring at most once. -/
theorem eq_or_add_eq_of_mod_eq {n a x : Nat} (ha : a < 2 * n) (h : a % n = x) :
    x = a ∨ x + n = a := by
  rcases Nat.lt_or_ge a n with hlt | hge
  · exact .inl (by rw [← h, Nat.mod_eq_of_lt hlt])
  · rw [Nat.mod_eq_sub_mod hge, Nat.mod_eq_of_lt (by omega)] at h
    exact .inr (by omega)

/-- Going `i` slots up from item `m` reaches item `m - i`. -/
theorem ringSlot_add_mod {n : Nat} (hn : 0 < n) {m i : Nat} (hi : i ≤ m) :
    (ringSlot n m + i) % n = ringSlot n (m - i) := by
  symm
  rw [ringSlot_eq_iff (Nat.mod_lt _ hn), Nat.dvd_iff_mod_eq_zero, Nat.mod_add_mod,
    ← Nat.dvd_iff_mod_eq_zero]
  have h : ringSlot n m + i + (m - i) = ringSlot n m + m := by omega
  rw [h]
  exact dvd_ringSlot_add hn m

/-- Two items less than a lap apart that share a slot are the same item. -/
theorem item_unique {n a b : Nat} (hn : 0 < n) (h : ringSlot n a = ringSlot n b)
    (hab : a < b + n) (hba : b < a + n) : a = b := by
  rcases Nat.le_total a b with hle | hle
  · have hd := (ringSlot_eq_ringSlot_iff hn hle).mp h
    have := Nat.eq_zero_of_dvd_of_lt hd (by omega)
    omega
  · have hd := (ringSlot_eq_ringSlot_iff hn hle).mp h.symm
    have := Nat.eq_zero_of_dvd_of_lt hd (by omega)
    omega

end Sailbot.Lib

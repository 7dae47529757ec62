import Mathlib.Algebra.Group.Nat.Defs
import Mathlib.Logic.Function.Basic
import Mathlib.Tactic.Common

/-!
# Byte memory

Memory as C code sees it behind a pointer: a function from offsets to bytes.
Bit `k` of it is bit `k % 8` of byte `k / 8`, the little-endian numbering, so
that a number and the bytes it is copied to have the same bits.

* `bitAt`      — one bit of a memory.
* `leByte`     — the bytes of a 64-bit number as they lie in memory.
* `memcpy`     — a memory after a copy: `memcpy_of_mem` inside the copied range,
  `memcpy_of_lt` in front of it.
* `bitAt_memcpy_leByte` — copying a number in puts its bits there.
* `loadLE`     — the number that a copy out of memory gives.
* `sliceLE`    — the number in any bits of a memory; a copied number is one (`loadLE_eq_sliceLE`),
  and so is any part of a number that lies there (`sliceLE_natByte`).
* `copyLoop`   — a bounds-checked copy loop over cells of any type, with
  `copyLoop_eq_some` as its specification.
-/

namespace Sailbot.Lib

/-- Bit `k` of a memory. -/
def bitAt (data : Nat → BitVec 8) (k : Nat) : Bool := (data (k / 8)).getLsbD (k % 8)

/-- A bit is a bit of its byte. -/
theorem bitAt_congr {data data' : Nat → BitVec 8} {k : Nat} (h : data (k / 8) = data' (k / 8)) :
    bitAt data k = bitAt data' k := by
  rw [bitAt, h, bitAt]

/-- Byte `i` of a 64-bit number in memory order. -/
def leByte (x : BitVec 64) (i : Nat) : BitVec 8 := (x >>> (8 * i)).setWidth 8

/-- The bits of a byte of a number. -/
theorem getLsbD_leByte (x : BitVec 64) {i j : Nat} (hj : j < 8) :
    (leByte x i).getLsbD j = x.getLsbD (8 * i + j) := by
  rw [leByte, BitVec.getLsbD_setWidth, BitVec.getLsbD_ushiftRight, decide_eq_true hj,
    Bool.true_and]

/-- `memcpy(dst + off, src, n)`. -/
def memcpy (dst : Nat → BitVec 8) (off : Nat) (src : Nat → BitVec 8) (n : Nat) :
    Nat → BitVec 8 :=
  fun i => if off ≤ i ∧ i < off + n then src (i - off) else dst i

/-- In front of the copy nothing changes. -/
theorem memcpy_of_lt {dst src : Nat → BitVec 8} {off n i : Nat} (h : i < off) :
    memcpy dst off src n i = dst i := if_neg (by omega)

/-- The bytes of the copy. -/
theorem memcpy_of_mem {dst src : Nat → BitVec 8} {off n i : Nat} (h : i < n) :
    memcpy dst off src n (off + i) = src i := by
  rw [memcpy, if_pos (by omega), Nat.add_sub_cancel_left]

/-- The bits of a number lie where its bytes were copied to. -/
theorem bitAt_memcpy_leByte (dst : Nat → BitVec 8) (off : Nat) (x : BitVec 64) {n k : Nat}
    (hk : k < 8 * n) : bitAt (memcpy dst off (leByte x) n) (8 * off + k) = x.getLsbD k := by
  have hDiv : (8 * off + k) / 8 = off + k / 8 := by omega
  have hMod : (8 * off + k) % 8 = k % 8 := by omega
  rw [bitAt, hDiv, hMod, memcpy_of_mem (by omega), getLsbD_leByte x (Nat.mod_lt _ (by omega)),
    Nat.div_add_mod]

/-- The number in the `n` bytes from offset `off`. -/
def loadLE (data : Nat → BitVec 8) (off : Nat) : Nat → Nat
  | 0 => 0
  | n + 1 => loadLE data off n + (data (off + n)).toNat * 256 ^ n

/-- A number depends on its bytes only. -/
theorem loadLE_congr {data data' : Nat → BitVec 8} {off n : Nat}
    (h : ∀ i < n, data (off + i) = data' (off + i)) : loadLE data off n = loadLE data' off n := by
  induction n with
  | zero => rfl
  | succ n ih =>
    rw [loadLE, loadLE, ih (fun i hi => h i (by omega)), h n (by omega)]

-- ---------------------------------------------------------------------------
-- Bit slices
-- ---------------------------------------------------------------------------

/-- The number in the `n` bits from bit `off` on, the lowest bit first. -/
def sliceLE (data : Nat → BitVec 8) (off : Nat) : Nat → Nat
  | 0 => 0
  | n + 1 => 2 ^ n * (bitAt data (off + n)).toNat + sliceLE data off n

/-- A number of so many bits. -/
theorem sliceLE_lt (data : Nat → BitVec 8) (off n : Nat) : sliceLE data off n < 2 ^ n := by
  induction n with
  | zero => exact Nat.one_pos
  | succ n ih =>
    rw [sliceLE, Nat.pow_succ]
    cases bitAt data (off + n) with
    | false => simp only [Bool.toNat_false]; omega
    | true => simp only [Bool.toNat_true]; omega

/-- The bits of a slice. -/
theorem testBit_sliceLE (data : Nat → BitVec 8) (off n k : Nat) :
    (sliceLE data off n).testBit k = (decide (k < n) && bitAt data (off + k)) := by
  induction n with
  | zero => rw [sliceLE, Nat.zero_testBit, decide_eq_false (Nat.not_lt_zero k), Bool.false_and]
  | succ n ih =>
    rw [sliceLE, Nat.testBit_two_pow_mul_add _ (sliceLE_lt data off n)]
    rcases Nat.lt_trichotomy k n with hLt | rfl | hGt
    · rw [if_pos hLt, ih, decide_eq_true hLt, decide_eq_true (Nat.lt_succ_of_lt hLt)]
    · rw [if_neg (Nat.lt_irrefl k), Nat.sub_self, decide_eq_true (Nat.lt_succ_self k),
        Bool.true_and]
      cases bitAt data (off + k) <;> rfl
    · rw [if_neg (by omega), decide_eq_false (by omega), Bool.false_and]
      have hPow : (bitAt data (off + n)).toNat < 2 ^ (k - n) := by
        have hBit := Bool.toNat_lt (bitAt data (off + n))
        have hTwo := Nat.pow_le_pow_right (show 0 < 2 by omega) (show 1 ≤ k - n by omega)
        omega
      exact Nat.testBit_lt_two_pow hPow

/-- A slice is the number with its bits. -/
theorem sliceLE_eq_of_bits {data : Nat → BitVec 8} {off n x : Nat} (hx : x < 2 ^ n)
    (hBits : ∀ k < n, bitAt data (off + k) = x.testBit k) : sliceLE data off n = x := by
  refine Nat.eq_of_testBit_eq ?_
  intro k
  rw [testBit_sliceLE]
  by_cases hk : k < n
  · rw [decide_eq_true hk, Bool.true_and, hBits k hk]
  · rw [decide_eq_false hk, Bool.false_and]
    exact (Nat.testBit_lt_two_pow
      (Nat.lt_of_lt_of_le hx (Nat.pow_le_pow_right (by omega) (by omega)))).symm

/-- Two slices that lie behind each other are one. -/
theorem sliceLE_add (data : Nat → BitVec 8) (off m n : Nat) :
    sliceLE data off (m + n) = sliceLE data off m + 2 ^ m * sliceLE data (off + m) n := by
  induction n with
  | zero => rw [Nat.add_zero, sliceLE, Nat.mul_zero, Nat.add_zero]
  | succ n ih =>
    rw [← Nat.add_assoc, sliceLE, sliceLE, ih, Nat.mul_add, ← Nat.mul_assoc, ← Nat.pow_add,
      Nat.add_assoc off]
    omega

/-- One byte is the slice of its bits. -/
theorem toNat_eq_sliceLE (data : Nat → BitVec 8) (i : Nat) :
    (data i).toNat = sliceLE data (8 * i) 8 := by
  refine Nat.eq_of_testBit_eq ?_
  intro k
  rw [testBit_sliceLE, BitVec.testBit_toNat]
  by_cases hk : k < 8
  · have hDiv : (8 * i + k) / 8 = i := by omega
    have hMod : (8 * i + k) % 8 = k := by omega
    rw [decide_eq_true hk, Bool.true_and, bitAt, hDiv, hMod]
  · rw [decide_eq_false hk, Bool.false_and, BitVec.getLsbD_of_ge _ _ (by omega)]

/-- A number that is copied out is the slice of its bits. -/
theorem loadLE_eq_sliceLE (data : Nat → BitVec 8) (off n : Nat) :
    loadLE data off n = sliceLE data (8 * off) (8 * n) := by
  induction n with
  | zero => rfl
  | succ n ih =>
    rw [loadLE, ih, toNat_eq_sliceLE, Nat.mul_succ, sliceLE_add, ← Nat.mul_add, Nat.pow_mul,
      Nat.mul_comm (sliceLE data (8 * (off + n)) 8)]

/-- The first bits of a byte. -/
theorem sliceLE_low (data : Nat → BitVec 8) (i : Nat) {n : Nat} (hn : n ≤ 8) :
    sliceLE data (8 * i) n = (data i).toNat % 2 ^ n := by
  have hSplit := sliceLE_add data (8 * i) n (8 - n)
  rw [Nat.add_sub_cancel' hn, ← toNat_eq_sliceLE] at hSplit
  rw [hSplit, Nat.add_mul_mod_self_left, Nat.mod_eq_of_lt (sliceLE_lt data (8 * i) n)]

/-- The bits of a byte from `s` on. -/
theorem sliceLE_high (data : Nat → BitVec 8) (i : Nat) {s : Nat} (hs : s ≤ 8) :
    sliceLE data (8 * i + s) (8 - s) = (data i).toNat / 2 ^ s := by
  have hSplit := sliceLE_add data (8 * i) s (8 - s)
  rw [Nat.add_sub_cancel' hs, ← toNat_eq_sliceLE] at hSplit
  rw [hSplit, Nat.add_mul_div_left _ _ (Nat.two_pow_pos s),
    Nat.div_eq_of_lt (sliceLE_lt data (8 * i) s), Nat.zero_add]

/-- A slice depends on the bytes up to its end. -/
theorem sliceLE_congr {data data' : Nat → BitVec 8} {off n : Nat}
    (h : ∀ i < (off + n + 7) / 8, data i = data' i) : sliceLE data off n = sliceLE data' off n := by
  refine sliceLE_eq_of_bits (sliceLE_lt data' off n) ?_
  intro k hk
  rw [testBit_sliceLE, decide_eq_true hk, Bool.true_and]
  exact bitAt_congr (h _ (by omega))

/-- Byte `i` of a number of any size in memory order. -/
def natByte (x : Nat) (i : Nat) : BitVec 8 := BitVec.ofNat 8 (x / 2 ^ (8 * i))

/-- The bits of a number in memory order. -/
theorem bitAt_natByte (x k : Nat) : bitAt (natByte x) k = x.testBit k := by
  rw [bitAt, natByte, BitVec.getLsbD_ofNat, decide_eq_true (Nat.mod_lt k (by omega)),
    Bool.true_and, Nat.testBit_div_two_pow, Nat.mod_add_div]

/-- A slice of a number is a quotient and a remainder. -/
theorem sliceLE_natByte (x off n : Nat) :
    sliceLE (natByte x) off n = x / 2 ^ off % 2 ^ n := by
  refine sliceLE_eq_of_bits (Nat.mod_lt _ (Nat.two_pow_pos n)) ?_
  intro k hk
  rw [bitAt_natByte, Nat.testBit_mod_two_pow, decide_eq_true hk, Bool.true_and,
    Nat.testBit_div_two_pow, Nat.add_comm]

-- ---------------------------------------------------------------------------
-- A copy loop with its bounds
-- ---------------------------------------------------------------------------

variable {β : Type*}

/-- `for (; i < i + n; ++i) dst[start + i] = src[i]` into a buffer of `size`
cells; `none` when the loop reads a cell that `src` does not have or writes one
that the buffer does not have. -/
def copyLoop (src : Nat → Option β) (start size : Nat) : (n i : Nat) → (Nat → β) →
    Option (Nat → β)
  | 0, _, dst => some dst
  | n + 1, i, dst =>
    match src i with
    | none => none
    | some c =>
      if start + i < size then copyLoop src start size n (i + 1) (Function.update dst (start + i) c)
      else none

/-- **Specification of the copy.** It succeeds exactly when all its reads and
writes are in range, and then the cells from `start + i` on are those of `src`
and every other one is as before. -/
theorem copyLoop_eq_some {src : Nat → Option β} {start size : Nat} (n : Nat) :
    ∀ {i : Nat} {dst dst' : Nat → β}, copyLoop src start size n i dst = some dst' ↔
      (∀ j, i ≤ j → j < i + n → start + j < size ∧ src j = some (dst' (start + j))) ∧
      (∀ k, k < start + i ∨ start + i + n ≤ k → dst' k = dst k) := by
  induction n with
  | zero =>
    intro i dst dst'
    rw [copyLoop, Option.some.injEq]
    constructor
    · rintro rfl
      exact ⟨fun j hj hj' => absurd hj' (by omega), fun k _ => rfl⟩
    · rintro ⟨-, hFrame⟩
      funext k
      exact (hFrame k (by omega)).symm
  | succ n ih =>
    intro i dst dst'
    rw [copyLoop]
    constructor
    · intro h
      cases hSrc : src i with
      | none => rw [hSrc] at h; cases h
      | some c =>
        rw [hSrc] at h
        by_cases hSize : start + i < size
        · simp only [if_pos hSize] at h
          obtain ⟨hCopied, hFrame⟩ := ih.mp h
          have hHere : dst' (start + i) = c := by
            rw [hFrame (start + i) (by omega), Function.update_self]
          refine ⟨?_, ?_⟩
          · intro j hj hj'
            rcases Nat.eq_or_lt_of_le hj with rfl | hlt
            · exact ⟨hSize, by rw [hHere, hSrc]⟩
            · exact hCopied j hlt (by omega)
          · intro k hk
            rw [hFrame k (by omega), Function.update_of_ne (by omega)]
        · simp only [if_neg hSize] at h
          cases h
    · rintro ⟨hCopied, hFrame⟩
      -- the first cell is what the frame of the rest keeps
      obtain ⟨hSize, hSrc⟩ := hCopied i (Nat.le_refl i) (by omega)
      rw [hSrc]
      simp only [if_pos hSize]
      refine ih.mpr ⟨fun j hj hj' => hCopied j (by omega) (by omega), ?_⟩
      intro k hk
      by_cases hEq : k = start + i
      · rw [hEq, Function.update_self]
      · rw [Function.update_of_ne hEq, hFrame k (by omega)]

/-- A copy whose reads and writes are all in range succeeds. -/
theorem copyLoop_isSome {src : Nat → Option β} {start size : Nat} (n : Nat) :
    ∀ {i : Nat} {dst : Nat → β}, (∀ j, i ≤ j → j < i + n → start + j < size ∧ (src j).isSome) →
      (copyLoop src start size n i dst).isSome := by
  induction n with
  | zero => exact fun _ => rfl
  | succ n ih =>
    intro i dst h
    obtain ⟨hSize, hSrc⟩ := h i (Nat.le_refl i) (by omega)
    obtain ⟨c, hc⟩ := Option.isSome_iff_exists.mp hSrc
    rw [copyLoop, hc]
    simp only [if_pos hSize]
    exact ih fun j hj hj' => h j (by omega) (by omega)

end Sailbot.Lib

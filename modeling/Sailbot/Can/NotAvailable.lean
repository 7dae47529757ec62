import Sailbot.Can.RawValue

/-!
# Values that are not available

The largest raw values of a field stand for a value that is not available. `DecodeAndSend` asks
`IsReserved` for them, with the maximum of the field computed in three ways.

For numbers and lookup fields of up to 63 bits this is right. At 64 bits the maximum that the loop
computes is -1. The maximum of a position is right, but the difference from it to a negative
number of 64 bits overflows. Dates and times are not compared with anything.

* `Field.rawInt`, `Field.NotAvailable` — the raw value, and the ones that say "not available".
* `Field.Recognised`    — the field is left out for these and no others, without an overflow.
* `recognised_iff`      — when that is so.
* `date_not_recognised` — a date of all ones is written.
-/

namespace Sailbot.Can

open Lib

-- ---------------------------------------------------------------------------
-- Statement
-- ---------------------------------------------------------------------------

/-- The raw value of a field, by its width and its sign. -/
def Field.rawInt (f : Field) (data : Nat → BitVec 8) (curBit : Nat) : Int :=
  if f.hasSign then (BitVec.ofNat f.size (sliceLE data curBit f.size)).toInt
  else sliceLE data curBit f.size

/-- How many values are reserved below the maximum. -/
def reservedBelow (max : Nat) : Nat := if 15 ≤ max then 2 else if 1 < max then 1 else 0

/-- The raw values that stand for no value. -/
def Field.NotAvailable (f : Field) (v : Int) : Prop := f.maxRaw - reservedBelow f.maxRaw ≤ v

instance (f : Field) (v : Int) : Decidable (f.NotAvailable v) := inferInstanceAs (Decidable (_ ≤ _))

/-- `IsReserved` computes `maxval - val` only when `maxval` is more than one. -/
def NoOverflow (val maxval : BitVec 64) : Prop :=
  1 < maxval.toInt → maxval.toInt - val.toInt < 2 ^ 63

/-- The comparison for a field, if there is one, does not overflow. -/
def Field.NoOverflow (f : Field) (data : Nat → BitVec 8) (curBit : Nat) : Prop :=
  ∀ raw maxVal, rawValue f data curBit = some raw → raw.maxVal = some maxVal →
    Can.NoOverflow raw.val maxVal

variable {D : Type} (A : Arith D)

/-- The field is left out exactly when its value is not available. -/
def Field.Recognised (f : Field) (data : Nat → BitVec 8) (curBit : Nat) : Prop :=
  (fieldValue A f data curBit = none ↔ f.NotAvailable (f.rawInt data curBit)) ∧
    f.NoOverflow data curBit

/-- When that is so. Dates, times and positions of other layouts are always written, and fields of
other kinds never. -/
def Field.Recognises (f : Field) (curBit : Nat) (v : Int) : Prop :=
  match f.kind with
  | .number | .lookup =>
    if f.size ≤ 63 then True
    else if f.hasSign then v ≠ -1 ∧ ¬ f.NotAvailable v
    else ¬ f.NotAvailable v ∨ v = f.maxRaw
  | .position =>
    if curBit % 8 = 0 ∧ f.size = 32 then
      f.hasSign = true ∨ ¬ f.NotAvailable v ∧ (v < 2 ^ 31 - 3 ∨ 2 ^ 31 ≤ v)
    else if curBit % 8 = 0 ∧ f.size = 64 then
      if f.hasSign then 0 ≤ v else v < 2 ^ 63 - 3
    else ¬ f.NotAvailable v
  | .date | .time => ¬ f.NotAvailable v
  | .other => f.NotAvailable v

-- ---------------------------------------------------------------------------
-- The comparison
-- ---------------------------------------------------------------------------

/-- Where it does not overflow, the comparison finds the largest values. -/
theorem isReserved_iff {val maxval : BitVec 64} {v : Int} {m : Nat} (hVal : val.toInt = v)
    (hMax : maxval.toInt = m) (hLe : v ≤ m) (hNoOverflow : NoOverflow val maxval) :
    isReserved val maxval = true ↔ (m : Int) - reservedBelow m ≤ v := by
  rw [NoOverflow, hMax, hVal] at hNoOverflow
  have hMaxLt := BitVec.toInt_lt (x := maxval)
  rw [hMax] at hMaxLt
  have hDiff : 1 < m → (maxval - val).toInt = m - v := by
    intro hOne
    have hLt := hNoOverflow (by omega)
    rw [BitVec.toInt_sub, hMax, hVal]
    exact Int.bmod_eq_of_le (by omega) (by omega)
  have hEq : maxval = val ↔ v = m := by
    rw [← BitVec.toInt_inj, hMax, hVal]
    exact eq_comm
  simp only [isReserved, hMax, Bool.or_eq_true, Bool.and_eq_true, decide_eq_true_eq, beq_iff_eq,
    hEq]
  unfold reservedBelow
  by_cases hOne : 1 < m
  · rw [hDiff hOne]
    split_ifs <;> omega
  · rw [if_neg (by omega), if_neg hOne]
    omega

/-- With the maximum -1, only this value is found. -/
theorem isReserved_allOnes (val : BitVec 64) :
    (isReserved val (BitVec.allOnes 64) = true ↔ val.toInt = -1) ∧
      NoOverflow val (BitVec.allOnes 64) := by
  have hMax : (BitVec.allOnes 64).toInt = -1 := by decide
  constructor
  · have hEq : BitVec.allOnes 64 = val ↔ val.toInt = -1 := by
      rw [← BitVec.toInt_inj, hMax]
      exact eq_comm
    simp only [isReserved, hMax, Bool.or_eq_true, Bool.and_eq_true, decide_eq_true_eq, beq_iff_eq,
      hEq]
    omega
  · rw [NoOverflow, hMax]
    omega

-- ---------------------------------------------------------------------------
-- Raw values as integers
-- ---------------------------------------------------------------------------

variable {f : Field} {data : Nat → BitVec 8} {curBit : Nat}

theorem two_pow_size (hSize : 1 ≤ f.size) : 2 ^ f.size = 2 * 2 ^ (f.size - 1) := by
  rw [← pow_succ', Nat.sub_add_cancel hSize]

/-- A raw value is one of its width and sign. -/
theorem rawInt_bounds :
    (if f.hasSign then -2 ^ (f.size - 1) else 0) ≤ f.rawInt data curBit ∧
      f.rawInt data curBit ≤ f.maxRaw := by
  have hPos : 0 < 2 ^ (f.size - 1) := Nat.two_pow_pos _
  unfold Field.rawInt Field.maxRaw
  cases f.hasSign with
  | true =>
    rw [if_pos rfl, if_pos rfl, if_pos rfl]
    have hLe := BitVec.le_toInt (BitVec.ofNat f.size (sliceLE data curBit f.size))
    have hLt := BitVec.toInt_lt (x := BitVec.ofNat f.size (sliceLE data curBit f.size))
    refine ⟨hLe, ?_⟩
    rw [Nat.cast_sub (by omega), Nat.cast_pow]
    exact Int.le_sub_one_of_lt hLt
  | false =>
    simp only [Bool.false_eq_true, if_false]
    have hLt := sliceLE_lt data curBit f.size
    omega

theorem toInt_asRaw_signed {n : Nat} (hn : n ≤ 64) (x : Nat) :
    (asRaw true n x).toInt = (BitVec.ofNat n x).toInt := by
  rw [asRaw, if_pos rfl, BitVec.toInt_signExtend_of_le hn]

theorem toInt_asRaw_unsigned {x : Nat} (n : Nat) (hx : x < 2 ^ 63) :
    (asRaw false n x).toInt = x := by
  rw [asRaw, if_neg Bool.false_ne_true, toInt_ofNat_of_lt_half hx]

/-- The value of a 32-bit or 64-bit number with a sign, by the one without. -/
theorem toInt_ofNat_eq {n x : Nat} (hn : 1 ≤ n) (hx : x < 2 ^ n) :
    (BitVec.ofNat n x).toInt = if x < 2 ^ (n - 1) then (x : Int) else x - 2 ^ n := by
  have hPow : 2 ^ n = 2 * 2 ^ (n - 1) := by rw [← pow_succ', Nat.sub_add_cancel hn]
  rw [BitVec.toInt_eq_toNat_cond, BitVec.toNat_ofNat, Nat.mod_eq_of_lt hx]
  push_cast
  split_ifs <;> first | rfl | omega

/-- What is read is left out when it is reserved. -/
theorem fieldValue_eq_none_iff {raw : Raw} (hRaw : rawValue f data curBit = some raw) :
    fieldValue A f data curBit = none ↔ raw.maxVal.any (isReserved raw.val) = true := by
  rw [fieldValue_eq_raw, hRaw, valueOf]
  split
  · next h => exact ⟨fun _ => h, fun _ => rfl⟩
  · next h => exact ⟨(absurd · (Option.some_ne_none _)), fun hReserved => absurd hReserved h⟩

/-- A value that is compared, by the comparison. -/
theorem recognised_of_raw {val maxVal : BitVec 64}
    (hRaw : rawValue f data curBit = some ⟨val, some maxVal⟩) :
    f.Recognised A data curBit ↔
      (isReserved val maxVal = true ↔ f.NotAvailable (f.rawInt data curBit)) ∧
        NoOverflow val maxVal := by
  rw [Field.Recognised, fieldValue_eq_none_iff A hRaw, Option.any_some]
  have hIff : f.NoOverflow data curBit ↔ Can.NoOverflow val maxVal := by
    unfold Field.NoOverflow
    constructor
    · intro h
      exact h ⟨val, some maxVal⟩ maxVal hRaw rfl
    · intro h raw max hRead hMax
      obtain rfl := Option.some.inj (hRaw.symm.trans hRead)
      obtain rfl := Option.some.inj hMax
      exact h
  rw [hIff]

/-- A value that is written in any case. -/
theorem recognised_of_written {x : D} (hWritten : fieldValue A f data curBit = some x)
    (hNoMax : ∀ raw, rawValue f data curBit = some raw → raw.maxVal = none) :
    f.Recognised A data curBit ↔ ¬ f.NotAvailable (f.rawInt data curBit) := by
  rw [Field.Recognised, hWritten]
  constructor
  · rintro ⟨hIff, -⟩ hNot
    cases hIff.mpr hNot
  · intro hAvailable
    refine ⟨⟨nofun, fun hNot => absurd hNot hAvailable⟩, ?_⟩
    intro raw max hRead hMax
    rw [hNoMax raw hRead] at hMax
    cases hMax

-- ---------------------------------------------------------------------------
-- The kinds of fields
-- ---------------------------------------------------------------------------

/-- The maximum of a field that is as wide as the type is -1. -/
theorem maxval_full (hSize : f.size = 64) :
    (extractNumberField f data curBit).2 = BitVec.allOnes 64 := by
  obtain ⟨e, hGathered, hMagnitude, hEq⟩ := @extractNumberField_snd data f curBit
  have hMaxval := hGathered.maxval_eq
  rw [hMagnitude, hSize] at hMaxval
  rw [hEq, hMaxval]
  split <;> decide

/-- Numbers and lookup fields of less than 64 bits. -/
theorem extracted_recognised (hSize : 1 ≤ f.size ∧ f.size ≤ 63)
    (hRaw : rawValue f data curBit = some ⟨(extractNumberField f data curBit).1,
      some (extractNumberField f data curBit).2⟩) : f.Recognised A data curBit := by
  obtain ⟨hLower, hUpper⟩ := @rawInt_bounds f data curBit
  have hPow := two_pow_size hSize.1
  have hLe : 2 ^ f.size ≤ 2 ^ 63 := Nat.pow_le_pow_right (by omega) hSize.2
  have hPos : 0 < 2 ^ (f.size - 1) := Nat.two_pow_pos _
  have hMaxLt : f.maxRaw < 2 ^ 63 := by
    unfold Field.maxRaw
    split <;> omega
  have hVal : (extractNumberField f data curBit).1.toInt = f.rawInt data curBit := by
    rw [extractNumberField_slice ⟨hSize.1, by omega⟩, Field.rawInt]
    have hSlice := sliceLE_lt data curBit f.size
    cases f.hasSign with
    | true => exact toInt_asRaw_signed (by omega) _
    | false => exact toInt_asRaw_unsigned _ (by omega)
  have hMax : (extractNumberField f data curBit).2.toInt = f.maxRaw := by
    rw [maxval_eq hSize, toInt_ofNat_of_lt_half hMaxLt]
  have hNoOverflow : NoOverflow (extractNumberField f data curBit).1
      (extractNumberField f data curBit).2 := by
    intro _
    rw [hMax, hVal]
    unfold Field.maxRaw
    cases hSign : f.hasSign with
    | true =>
      rw [hSign, if_pos rfl] at hLower
      rw [if_pos rfl]
      have hCast : ((2 ^ (f.size - 1) : Nat) : Int) = 2 ^ (f.size - 1) := by push_cast; rfl
      omega
    | false =>
      rw [hSign] at hLower
      simp only [Bool.false_eq_true, if_false] at hLower ⊢
      omega
  rw [recognised_of_raw A hRaw]
  exact ⟨isReserved_iff hVal hMax hUpper hNoOverflow, hNoOverflow⟩

/-- Numbers and lookup fields of 64 bits. -/
theorem extracted_full_recognised (hSize : f.size = 64)
    (hRaw : rawValue f data curBit = some ⟨(extractNumberField f data curBit).1,
      some (extractNumberField f data curBit).2⟩) :
    f.Recognised A data curBit ↔
      if f.hasSign then f.rawInt data curBit ≠ -1 ∧ ¬ f.NotAvailable (f.rawInt data curBit)
      else ¬ f.NotAvailable (f.rawInt data curBit) ∨ f.rawInt data curBit = f.maxRaw := by
  obtain ⟨hReserved, hNoOverflow⟩ := isReserved_allOnes (extractNumberField f data curBit).1
  have hSlice := sliceLE_lt data curBit 64
  rw [recognised_of_raw A hRaw, maxval_full hSize, hReserved, and_iff_left hNoOverflow,
    extractNumberField_slice (by omega), Field.NotAvailable]
  unfold Field.rawInt Field.maxRaw
  cases f.hasSign with
  | true =>
    simp only [if_true]
    rw [hSize, toInt_asRaw_signed (le_refl 64)]
    have hBelow : reservedBelow (2 ^ (64 - 1) - 1) = 2 := by decide
    have hLt := BitVec.toInt_lt (x := BitVec.ofNat 64 (sliceLE data curBit 64))
    rw [hBelow]
    omega
  | false =>
    simp only [Bool.false_eq_true, if_false]
    rw [hSize]
    have hBelow : reservedBelow (2 ^ 64 - 1) = 2 := by decide
    rw [hBelow, asRaw, if_neg Bool.false_ne_true, toInt_ofNat_eq (by omega) hSlice]
    split <;> omega

/-- Positions of 32 bits. -/
theorem position_recognised (hSize : f.size = 32)
    (hRaw : rawValue f data curBit = some ⟨asRaw true 32 (sliceLE data curBit 32),
      some (BitVec.ofNat 64 (2 ^ 31 - 1))⟩) :
    f.Recognised A data curBit ↔ f.hasSign = true ∨
      ¬ f.NotAvailable (f.rawInt data curBit) ∧
        (f.rawInt data curBit < 2 ^ 31 - 3 ∨ 2 ^ 31 ≤ f.rawInt data curBit) := by
  have hSlice := sliceLE_lt data curBit 32
  have hVal := toInt_asRaw_signed (show 32 ≤ 64 by omega) (sliceLE data curBit 32)
  have hLt := BitVec.toInt_lt (x := BitVec.ofNat 32 (sliceLE data curBit 32))
  have hLe := BitVec.le_toInt (BitVec.ofNat 32 (sliceLE data curBit 32))
  have hMax : (BitVec.ofNat 64 (2 ^ 31 - 1)).toInt = ((2 ^ 31 - 1 : Nat) : Int) := by decide
  have hNoOverflow : NoOverflow (asRaw true 32 (sliceLE data curBit 32))
      (BitVec.ofNat 64 (2 ^ 31 - 1)) := by
    intro _
    rw [hMax, hVal]
    omega
  have hReserved := isReserved_iff hVal hMax (by omega) hNoOverflow
  have hBelow : reservedBelow (2 ^ 31 - 1) = 2 := by decide
  rw [recognised_of_raw A hRaw, and_iff_left hNoOverflow, hReserved, hBelow, Field.NotAvailable]
  unfold Field.rawInt Field.maxRaw
  rw [hSize]
  cases f.hasSign with
  | true =>
    simp only [if_true, true_or, iff_true]
    rw [show (2 : Nat) ^ (32 - 1) - 1 = 2 ^ 31 - 1 from rfl, hBelow]
  | false =>
    simp only [Bool.false_eq_true, if_false, false_or]
    have hBelow' : reservedBelow (2 ^ 32 - 1) = 2 := by decide
    rw [hBelow', toInt_ofNat_eq (by omega) hSlice]
    split <;> omega

/-- Positions of 64 bits. -/
theorem position_full_recognised (hSize : f.size = 64)
    (hRaw : rawValue f data curBit = some ⟨asRaw true 64 (sliceLE data curBit 64),
      some (BitVec.ofNat 64 (2 ^ 63 - 1))⟩) :
    f.Recognised A data curBit ↔
      if f.hasSign then 0 ≤ f.rawInt data curBit else f.rawInt data curBit < 2 ^ 63 - 3 := by
  have hSlice := sliceLE_lt data curBit 64
  have hVal := toInt_asRaw_signed (le_refl 64) (sliceLE data curBit 64)
  have hLt := BitVec.toInt_lt (x := BitVec.ofNat 64 (sliceLE data curBit 64))
  have hMax : (BitVec.ofNat 64 (2 ^ 63 - 1)).toInt = ((2 ^ 63 - 1 : Nat) : Int) := by decide
  have hOverflow : NoOverflow (asRaw true 64 (sliceLE data curBit 64))
      (BitVec.ofNat 64 (2 ^ 63 - 1)) ↔
        0 ≤ (BitVec.ofNat 64 (sliceLE data curBit 64)).toInt := by
    rw [NoOverflow, hMax, hVal]
    omega
  have hReserved := fun h => isReserved_iff hVal hMax (by omega) (hOverflow.mpr h)
  have hBelow : reservedBelow (2 ^ 63 - 1) = 2 := by decide
  rw [recognised_of_raw A hRaw, hOverflow, and_comm, and_congr_right_iff.mpr fun h => by
    rw [hReserved h, hBelow], Field.NotAvailable]
  unfold Field.rawInt Field.maxRaw
  rw [hSize]
  cases f.hasSign with
  | true =>
    simp only [if_true]
    rw [show (2 : Nat) ^ (64 - 1) - 1 = 2 ^ 63 - 1 from rfl, hBelow]
    exact and_iff_left Iff.rfl
  | false =>
    simp only [Bool.false_eq_true, if_false]
    have hBelow' : reservedBelow (2 ^ 64 - 1) = 2 := by decide
    rw [hBelow', toInt_ofNat_eq (by omega) hSlice]
    split <;> omega

-- ---------------------------------------------------------------------------
-- All fields
-- ---------------------------------------------------------------------------

/-- **Values that are not available.** For every field of up to 64 bits and every payload: the
field is left out exactly when its raw value is one of the largest, and the comparison does not
overflow, if and only if the field recognises the value. -/
theorem recognised_iff (f : Field) (data : Nat → BitVec 8) (curBit : Nat)
    (hSize : 1 ≤ f.size ∧ f.size ≤ 64) :
    f.Recognised A data curBit ↔ f.Recognises curBit (f.rawInt data curBit) := by
  unfold Field.Recognises
  cases hKind : f.kind with
  | number | lookup =>
    have hRaw : rawValue f data curBit = some ⟨(extractNumberField f data curBit).1,
        some (extractNumberField f data curBit).2⟩ := by
      simp only [rawValue, hKind]
    dsimp only
    split
    · next h63 => exact iff_of_true (extracted_recognised A ⟨hSize.1, h63⟩ hRaw) trivial
    · exact extracted_full_recognised A (by omega) hRaw
  | position =>
    dsimp only
    split
    · next h => exact position_recognised A h.2 (rawValue_position32 hKind h.1 h.2)
    next h32 =>
    split
    · next h => exact position_full_recognised A h.2 (rawValue_position64 hKind h.1 h.2)
    next h64 =>
    have hNone := @rawValue_position_none data f curBit hKind h32 h64
    refine recognised_of_written A (x := A.ofInt 0) ?_ ?_
    · rw [fieldValue_eq_raw, hNone, valueOf, if_pos hKind]
    · intro raw hRaw
      rw [hNone] at hRaw
      cases hRaw
  | date | time =>
    refine recognised_of_written A (x := _) (by rw [fieldValue_kind, hKind]) ?_
    intro raw hRaw
    rw [rawValue, hKind, Option.some.injEq] at hRaw
    rw [← hRaw]
  | other =>
    have hNone : fieldValue A f data curBit = none := by rw [fieldValue_kind, hKind]
    have hNoOverflow : f.NoOverflow data curBit := by
      intro raw max hRaw _
      rw [rawValue, hKind] at hRaw
      cases hRaw
    rw [Field.Recognised, hNone, and_iff_left hNoOverflow]
    exact ⟨fun h => h.mp rfl, fun h => iff_of_true rfl h⟩

/-- A lookup field of two bits with the value 2, which is reserved. -/
theorem recognised_iff_two_bits :
    fieldValue Arith.exact ⟨"Reference", 2, resLookup, false⟩ (fun _ => 0xFE) 0 = none ∧
      (⟨"Reference", 2, resLookup, false⟩ : Field).Recognised Arith.exact (fun _ => 0xFE) 0 := by
  have hRecognised := (recognised_iff Arith.exact ⟨"Reference", 2, resLookup, false⟩
    (fun _ => 0xFE) 0 (by decide)).mpr (by
      have hKind : (⟨"Reference", 2, resLookup, false⟩ : Field).kind = .lookup := by decide
      unfold Field.Recognises
      rw [hKind]
      exact trivial)
  exact ⟨hRecognised.1.mpr (by decide), hRecognised⟩

/-- A date with all bits set stands for no date, and is written. -/
theorem date_not_recognised :
    ¬ ∀ (f : Field) (data : Nat → BitVec 8) (curBit : Nat), 1 ≤ f.size ∧ f.size ≤ 64 →
      f.Recognised Arith.exact data curBit := by
  intro hAll
  obtain ⟨hIff, -⟩ := hAll ⟨"Date", 16, resDate, false⟩ (fun _ => 0xFF) 0 (by decide)
  have hNone := hIff.mpr (by decide)
  rw [fieldValue_kind, show (⟨"Date", 16, resDate, false⟩ : Field).kind = .date by decide] at hNone
  cases hNone

end Sailbot.Can

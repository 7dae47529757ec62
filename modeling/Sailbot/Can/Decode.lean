import Sailbot.Lib.Bytes
import Sailbot.Can.PgnList
import Sailbot.Can.Proto

/-!
# Decoding a payload

`CanNode::DecodeAndSend` and `CanNode::ExtractNumberField` (`can/can.cc`): one
walk over the field list with a running bit position. An `int64_t` is a
`BitVec 64`; the sums and shifts of the source are those of its bit pattern.

* `extractLoop`, `extractNumberField` — the byte-wise loop that gathers a field
  of any width and alignment, and the sign extension behind it.
* `fieldValue`  — what a field of the table yields: `none` where the source
  leaves the field of the message as it is.
* `decode`      — the walk itself, over the message that is already there.

Main results:

* `extractLoop_spec` — the loop gathers the bits of the field and all ones for
  the maximum.
* `fieldValue_congr`, `decode_congr` — only the bytes of the payload matter.
* `decode_eq_overlay` — decoding into a message is laying the fields that the
  payload writes over it.
-/

namespace Sailbot.Can

open Lib

-- ---------------------------------------------------------------------------
-- The walk over the field list
-- ---------------------------------------------------------------------------

/-- `maxval - val` is the difference of the bit patterns; the source leaves it
undefined when it overflows. -/
def isReserved (val maxval : BitVec 64) : Bool :=
  (maxval.toInt ≥ 15 && (maxval - val).toInt ≤ 2) ||
    (maxval.toInt > 1 && (maxval - val).toInt ≤ 1) || maxval == val

/-- The variables of the loop in `ExtractNumberField` that are read after it. -/
structure Extracted where
  magnitude : Nat
  retval    : BitVec 64
  maxval    : BitVec 64

/-- The bits `startBit .. 7 - endGap` of a byte. -/
def byteMask (endGap startBit : Nat) : BitVec 8 :=
  ((0xFF#32 >>> endGap) &&& (0xFF#32 <<< startBit)).setWidth 8

/-- The loop of `ExtractNumberField`. Every round takes at least one bit, so
that `fuel = bitsLeft` rounds are enough. -/
def extractLoop (data : Nat → BitVec 8) :
    (fuel bitsLeft pos startBit : Nat) → Extracted → Extracted
  | 0, _, _, _, e => e
  | fuel + 1, bitsLeft, pos, startBit, e =>
    if bitsLeft = 0 then e
    else
      let byteBits := min (8 - startBit) bitsLeft
      let endGap := 8 - byteBits - startBit
      let mask := byteMask endGap startBit
      let curVal := ((mask &&& data pos).setWidth 64 >>> startBit) <<< e.magnitude
      extractLoop data fuel (bitsLeft - byteBits) (pos + 1) 0
        { magnitude := e.magnitude + byteBits
          retval := e.retval + curVal
          maxval := (e.maxval <<< byteBits) + (mask.setWidth 64 >>> startBit) }

/-- The raw value of a field and its maximum. -/
def extractNumberField (f : Field) (data : Nat → BitVec 8) (startBit : Nat) :
    BitVec 64 × BitVec 64 :=
  let e := extractLoop data f.size f.size (startBit / 8) (startBit % 8) ⟨0, 0, 0⟩
  if f.hasSign then
    let maxval := e.maxval.sshiftRight 1
    if e.retval.sshiftRight (e.magnitude - 1) ≠ 0 then (e.retval ||| ~~~maxval, maxval)
    else (e.retval, maxval)
  else (e.retval, e.maxval)

variable {D : Type} (A : Arith D)

/-- The branch for latitudes and longitudes. Neither an unaligned position nor
another width is refused: both give zero. -/
def latLonValue (f : Field) (data : Nat → BitVec 8) (curBit : Nat) : Option D :=
  if curBit % 8 ≠ 0 then some (A.ofInt 0)
  else if f.size = 32 then
    let shortVal := BitVec.ofNat 32 (loadLE data (curBit / 8) 4)
    if isReserved (shortVal.signExtend 64) (BitVec.ofNat 64 (2 ^ 31 - 1)) then none
    else some (A.mul (A.ofInt shortVal.toInt) resLatLong)
  else if f.size = 64 then
    let intVal := BitVec.ofNat 64 (loadLE data (curBit / 8) 8)
    if isReserved intVal (BitVec.ofNat 64 (2 ^ 63 - 1)) then none
    else some (A.mul (A.ofInt intVal.toInt) resLatLong64)
  else some (A.ofInt 0)

/-- The number that one round of the loop in `DecodeAndSend` puts into the
message, if it puts one there. -/
def fieldValue (f : Field) (data : Nat → BitVec 8) (curBit : Nat) : Option D :=
  if f.resolution > 0 then
    let (val, maxVal) := extractNumberField f data curBit
    if isReserved val maxVal then none
    else some (A.mul (A.ofInt val.toInt) f.resolution)
  else if f.resolution < 0 then
    if f.resolution = resLatitude ∨ f.resolution = resLongitude then latLonValue A f data curBit
    else if f.resolution = resDate then some (A.ofInt (loadLE data (curBit / 8) 2))
    else if f.resolution = resTime then some (A.ofInt (loadLE data (curBit / 8) 4))
    else if f.resolution = resLookup then
      let (val, maxVal) := extractNumberField f data curBit
      if isReserved val maxVal then none else some (A.ofInt val.toInt)
    else none
  else none

/-- The loop of `DecodeAndSend` from field `i` on; the number of a field in the
message is its position in the list plus one. -/
def decodeFields (desc : Descriptor) (data : Nat → BitVec 8) :
    List Field → (i curBit : Nat) → PgnMsg D → PgnMsg D
  | [], _, _, msg => msg
  | f :: fs, i, curBit, msg =>
    decodeFields desc data fs (i + 1) (curBit + f.size)
      (match fieldValue A f data curBit with
      | none => msg
      | some val => setProtoNumberField A desc msg (i + 1) val)

def decode (desc : Descriptor) (p : Pgn) (data : Nat → BitVec 8) (msg : PgnMsg D) : PgnMsg D :=
  decodeFields A desc data p.fieldList 0 0 msg

-- ---------------------------------------------------------------------------
-- The bits that the loop gathers
-- ---------------------------------------------------------------------------

/-- The bits of the mask for a part of a byte. -/
theorem getLsbD_byteMask {byteBits startBit : Nat} (h : startBit + byteBits ≤ 8) (j : Nat) :
    (byteMask (8 - byteBits - startBit) startBit).getLsbD j =
      decide (startBit ≤ j ∧ j < startBit + byteBits) := by
  have hOnes : ∀ k, (0xFF#32).getLsbD k = decide (k < 8) := by
    intro k
    rw [show (0xFF#32) = (BitVec.allOnes 8).setWidth 32 from rfl, BitVec.getLsbD_setWidth,
      BitVec.getLsbD_allOnes]
    grind
  rw [byteMask, BitVec.getLsbD_setWidth, BitVec.getLsbD_and, BitVec.getLsbD_ushiftRight,
    BitVec.getLsbD_shiftLeft, hOnes, hOnes]
  grind

/-- What one round of the loop adds to the value: the bits of the field in one
byte, moved to their place. -/
theorem getLsbD_curVal {byteBits startBit magnitude : Nat} (h : startBit + byteBits ≤ 8)
    (b : BitVec 8) {k : Nat} (hk : k < 64) :
    (((byteMask (8 - byteBits - startBit) startBit &&& b).setWidth 64 >>> startBit)
        <<< magnitude).getLsbD k =
      (decide (magnitude ≤ k ∧ k < magnitude + byteBits) &&
        b.getLsbD (startBit + (k - magnitude))) := by
  rw [BitVec.getLsbD_shiftLeft, BitVec.getLsbD_ushiftRight, BitVec.getLsbD_setWidth,
    BitVec.getLsbD_and, getLsbD_byteMask h]
  grind

/-- Numbers without a common bit are added by joining their bits. -/
theorem getLsbD_add_of_disjoint {x y : BitVec 64}
    (h : ∀ k < 64, x.getLsbD k = true → y.getLsbD k = false) (k : Nat) :
    (x + y).getLsbD k = (x.getLsbD k || y.getLsbD k) := by
  have hAnd : x &&& y = 0 := by
    apply BitVec.eq_of_getLsbD_eq
    intro i hi
    rw [BitVec.getLsbD_and, show (0 : BitVec 64) = 0#64 from rfl, BitVec.getLsbD_zero]
    cases hx : x.getLsbD i with
    | false => rfl
    | true => rw [h i hi hx]; rfl
  rw [BitVec.add_eq_or_of_and_eq_zero x y hAnd, BitVec.getLsbD_or]

/-- The loop variables after `magnitude` bits of the field that starts at bit
`start`. -/
structure Gathered (data : Nat → BitVec 8) (start : Nat) (e : Extracted) : Prop where
  retval : ∀ k < 64, e.retval.getLsbD k = (decide (k < e.magnitude) && bitAt data (start + k))
  maxval : ∀ k < 64, e.maxval.getLsbD k = decide (k < e.magnitude)

/-- **One round** of the loop at bit `8 * pos + startBit`. -/
theorem Gathered.round {data : Nat → BitVec 8} {start : Nat} {e : Extracted}
    (he : Gathered data start e) {pos startBit : Nat} (byteBits : Nat)
    (hPos : 8 * pos + startBit = start + e.magnitude) (hBits : startBit + byteBits ≤ 8) :
    Gathered data start
      { magnitude := e.magnitude + byteBits
        retval := e.retval +
          (((byteMask (8 - byteBits - startBit) startBit &&& data pos).setWidth 64 >>> startBit)
            <<< e.magnitude)
        maxval := (e.maxval <<< byteBits) +
          ((byteMask (8 - byteBits - startBit) startBit).setWidth 64 >>> startBit) } := by
  constructor
  · intro k hk
    rw [getLsbD_add_of_disjoint, he.retval k hk, getLsbD_curVal hBits _ hk]
    · by_cases hNew : e.magnitude ≤ k ∧ k < e.magnitude + byteBits
      · -- the byte holds bit `start + k` of the memory
        have hDiv : (start + k) / 8 = pos := by omega
        have hMod : (start + k) % 8 = startBit + (k - e.magnitude) := by omega
        have hOld : ¬ k < e.magnitude := by omega
        simp [bitAt, hDiv, hMod, hNew, hOld]
      · have hOld : k < e.magnitude + byteBits ↔ k < e.magnitude := by omega
        rw [decide_eq_false hNew, Bool.false_and, Bool.or_false]
        simp only [hOld]
    · intro i hi hSet
      rw [he.retval i hi, Bool.and_eq_true, decide_eq_true_iff] at hSet
      rw [getLsbD_curVal hBits _ hi, Bool.and_eq_false_iff, decide_eq_false_iff_not]
      exact .inl (by omega)
  · intro k hk
    have hMask : ∀ i, ((byteMask (8 - byteBits - startBit) startBit).setWidth 64
        >>> startBit).getLsbD i = decide (i < byteBits) := by
      intro i
      rw [BitVec.getLsbD_ushiftRight, BitVec.getLsbD_setWidth, getLsbD_byteMask hBits]
      grind
    rw [getLsbD_add_of_disjoint, hMask, BitVec.getLsbD_shiftLeft]
    · by_cases hLow : k < byteBits
      · simp [hLow, show k < e.magnitude + byteBits by omega]
      · rw [he.maxval _ (by omega)]
        grind
    · intro i hi hSet
      rw [BitVec.getLsbD_shiftLeft] at hSet
      rw [hMask, decide_eq_false_iff_not]
      grind

/-- **The loop.** Started after `magnitude` bits of the field, it gathers the
`bitsLeft` remaining ones. -/
theorem extractLoop_spec {data : Nat → BitVec 8} {start : Nat} (fuel : Nat) :
    ∀ {bitsLeft pos startBit : Nat} {e : Extracted}, bitsLeft ≤ fuel →
      (bitsLeft ≠ 0 → startBit < 8 ∧ 8 * pos + startBit = start + e.magnitude) →
      Gathered data start e →
      Gathered data start (extractLoop data fuel bitsLeft pos startBit e) ∧
      (extractLoop data fuel bitsLeft pos startBit e).magnitude = e.magnitude + bitsLeft := by
  induction fuel with
  | zero =>
    intro bitsLeft pos startBit e hFuel _ he
    rw [extractLoop]
    exact ⟨he, by omega⟩
  | succ fuel ih =>
    intro bitsLeft pos startBit e hFuel hPos he
    rw [extractLoop]
    by_cases hDone : bitsLeft = 0
    · rw [if_pos hDone]
      exact ⟨he, by omega⟩
    · rw [if_neg hDone]
      obtain ⟨hStart, hPos⟩ := hPos hDone
      have hRound := he.round (min (8 - startBit) bitsLeft) hPos (by omega)
      -- bits are left only when the round went up to the end of its byte
      have hNext : bitsLeft - min (8 - startBit) bitsLeft ≠ 0 → 0 < 8 ∧
          8 * (pos + 1) + 0 = start + (e.magnitude + min (8 - startBit) bitsLeft) := by
        omega
      obtain ⟨hGathered, hMagnitude⟩ := ih (by omega) hNext hRound
      exact ⟨hGathered, hMagnitude.trans (by simp only; omega)⟩

/-- The raw bits of a field and its maximum before the sign is looked at. -/
theorem extractLoop_start (data : Nat → BitVec 8) (size start : Nat) :
    Gathered data start (extractLoop data size size (start / 8) (start % 8) ⟨0, 0, 0⟩) ∧
    (extractLoop data size size (start / 8) (start % 8) ⟨0, 0, 0⟩).magnitude = size := by
  have hZero : Gathered data start ⟨0, 0, 0⟩ := by
    constructor <;> intro k _ <;> simp
  obtain ⟨hGathered, hMagnitude⟩ := extractLoop_spec size (le_refl size)
    (fun _ => ⟨Nat.mod_lt _ (by omega), Nat.div_add_mod start 8⟩) hZero
  exact ⟨hGathered, hMagnitude.trans (Nat.zero_add size)⟩

/-- The maximum is the number with all `magnitude` bits set. -/
theorem Gathered.maxval_eq {data : Nat → BitVec 8} {start : Nat} {e : Extracted}
    (he : Gathered data start e) : e.maxval = BitVec.ofNat 64 (2 ^ e.magnitude - 1) := by
  apply BitVec.eq_of_getLsbD_eq
  intro k hk
  rw [he.maxval k hk, BitVec.getLsbD_ofNat, Nat.testBit_two_pow_sub_one, decide_eq_true hk,
    Bool.true_and]

-- ---------------------------------------------------------------------------
-- Only the bytes of the payload matter
-- ---------------------------------------------------------------------------

/-- Two runs of the loop over the same bits end alike. -/
theorem extractLoop_congr {data data' : Nat → BitVec 8} {size start : Nat}
    (h : ∀ k < size, bitAt data (start + k) = bitAt data' (start + k)) :
    extractLoop data size size (start / 8) (start % 8) ⟨0, 0, 0⟩ =
      extractLoop data' size size (start / 8) (start % 8) ⟨0, 0, 0⟩ := by
  obtain ⟨hGathered, hMagnitude⟩ := extractLoop_start data size start
  obtain ⟨hGathered', hMagnitude'⟩ := extractLoop_start data' size start
  revert hGathered hMagnitude hGathered' hMagnitude'
  generalize extractLoop data size size (start / 8) (start % 8) ⟨0, 0, 0⟩ = e
  generalize extractLoop data' size size (start / 8) (start % 8) ⟨0, 0, 0⟩ = e'
  intro hGathered hMagnitude hGathered' hMagnitude'
  obtain ⟨magnitude, retval, maxval⟩ := e
  obtain ⟨magnitude', retval', maxval'⟩ := e'
  simp only at hMagnitude hMagnitude'
  subst hMagnitude hMagnitude'
  rw [Extracted.mk.injEq]
  refine ⟨rfl, BitVec.eq_of_getLsbD_eq ?_, BitVec.eq_of_getLsbD_eq ?_⟩
  · intro k hk
    rw [hGathered.retval k hk, hGathered'.retval k hk]
    by_cases hIn : k < magnitude'
    · rw [h k hIn]
    · simp [hIn]
  · intro k hk
    rw [hGathered.maxval k hk, hGathered'.maxval k hk]

/-- A number depends on the bits of its field only. -/
theorem extractNumberField_congr {data data' : Nat → BitVec 8} {f : Field} {start : Nat}
    (h : ∀ k < f.size, bitAt data (start + k) = bitAt data' (start + k)) :
    extractNumberField f data start = extractNumberField f data' start := by
  rw [extractNumberField, extractNumberField, extractLoop_congr h]

/-- Dates and times have the width with which they are copied out. -/
def Field.Standard (f : Field) : Prop :=
  (f.resolution = resDate → f.size = 16) ∧ (f.resolution = resTime → f.size = 32)

instance (f : Field) : Decidable f.Standard := inferInstanceAs (Decidable (_ ∧ _))

/-- All fields of the table are standard. -/
theorem standard_of_mem_pgnList : ∀ p ∈ pgnList, ∀ f ∈ p.fieldList, f.Standard := by
  decide +kernel

/-- A latitude or longitude depends on its bytes only. -/
theorem latLonValue_congr {data data' : Nat → BitVec 8} {f : Field} {curBit : Nat}
    (h : ∀ n, 8 * n ≤ f.size → loadLE data (curBit / 8) n = loadLE data' (curBit / 8) n) :
    latLonValue A f data curBit = latLonValue A f data' curBit := by
  unfold latLonValue
  by_cases h32 : f.size = 32
  · rw [h 4 (by omega)]
    simp only [h32, if_true]
  · by_cases h64 : f.size = 64
    · rw [h 8 (by omega)]
      simp only [h32, if_false]
    · simp only [h32, h64, if_false]

/-- So does the value of every standard field. -/
theorem fieldValue_congr {data data' : Nat → BitVec 8} {f : Field} {curBit : Nat}
    (hf : f.Standard)
    (h : ∀ i, curBit / 8 ≤ i → 8 * i < curBit + f.size → data i = data' i) :
    fieldValue A f data curBit = fieldValue A f data' curBit := by
  have hExtract : extractNumberField f data curBit = extractNumberField f data' curBit :=
    extractNumberField_congr fun k hk => bitAt_congr (h _ (by omega) (by omega))
  have hLoad : ∀ n, 8 * n ≤ f.size →
      loadLE data (curBit / 8) n = loadLE data' (curBit / 8) n :=
    fun n hn => loadLE_congr fun i hi => h _ (by omega) (by omega)
  unfold fieldValue
  rw [hExtract, latLonValue_congr A hLoad]
  by_cases hDate : f.resolution = resDate
  · have hSize := hf.1 hDate
    rw [hLoad 2 (by omega)]
    simp only [hDate, if_true]
  · by_cases hTime : f.resolution = resTime
    · have hSize := hf.2 hTime
      rw [hLoad 4 (by omega)]
      simp only [hDate, if_false]
    · simp only [hDate, hTime, if_false]

/-- A message depends on the bytes of its fields only. -/
theorem decodeFields_congr {desc : Descriptor} {data data' : Nat → BitVec 8} (fs : List Field) :
    ∀ {i curBit : Nat} {msg : PgnMsg D}, (∀ f ∈ fs, f.Standard) →
      (∀ j, 8 * j < curBit + (fs.map Field.size).sum → data j = data' j) →
      decodeFields A desc data fs i curBit msg = decodeFields A desc data' fs i curBit msg := by
  induction fs with
  | nil => exact fun _ _ => rfl
  | cons f fs ih =>
    intro i curBit msg hStd h
    rw [List.map_cons, List.sum_cons] at h
    rw [decodeFields, decodeFields,
      fieldValue_congr A (hStd f (List.mem_cons_self ..)) fun j _ hj => h j (by omega)]
    exact ih (fun g hg => hStd g (List.mem_cons_of_mem _ hg)) fun j hj => h j (by omega)

/-- Decoding reads nothing but the bytes of the payload. -/
theorem decode_congr {p : Pgn} (hp : p ∈ pgnList) (desc : Descriptor)
    {data data' : Nat → BitVec 8} (h : ∀ i < p.payloadBytes, data i = data' i)
    (msg : PgnMsg D) : decode A desc p data msg = decode A desc p data' msg := by
  refine decodeFields_congr A p.fieldList (standard_of_mem_pgnList p hp) fun j hj => h j ?_
  rw [Pgn.payloadBytes, Pgn.bits]
  omega

-- ---------------------------------------------------------------------------
-- Decoding over an earlier message
-- ---------------------------------------------------------------------------

/-- The message `new` laid over `msg`: fields that `new` does not set show
through. -/
def PgnMsg.overlay (msg new : PgnMsg D) : PgnMsg D where
  fields := fun k => (new.fields k).or (msg.fields k)
  unknown := msg.unknown ++ new.unknown

/-- Over an empty message everything is as it comes. -/
theorem PgnMsg.empty_overlay (msg : PgnMsg D) : PgnMsg.overlay {} msg = msg := by
  simp [overlay]

variable {desc : Descriptor} {data : Nat → BitVec 8}

/-- Decoding leaves the fields in front. -/
theorem decodeFields_of_le (fs : List Field) : ∀ {i curBit k : Nat} {msg : PgnMsg D}, k ≤ i →
    (decodeFields A desc data fs i curBit msg).fields k = msg.fields k := by
  induction fs with
  | nil => exact fun _ => rfl
  | cons f fs ih =>
    intro i curBit k msg hk
    rw [decodeFields, ih (by omega)]
    cases fieldValue A f data curBit with
    | none => rfl
    | some x =>
      simp only
      rw [(setProtoNumberField_eq A desc msg (i + 1) x).1, if_neg (by omega)]

/-- The value of field `j` ends up in field number `j + 1` of the message. -/
theorem decodeFields_fields (fs : List Field) : ∀ {i curBit j : Nat} {msg : PgnMsg D},
    (decodeFields A desc data fs i curBit msg).fields (i + j + 1) =
      (fs[j]?.bind fun f => (fieldValue A f data (curBit + bitsBefore fs j)).bind
        (writtenValue A desc (i + j + 1))).or (msg.fields (i + j + 1)) := by
  induction fs with
  | nil => exact rfl
  | cons f fs ih =>
    intro i curBit j msg
    rw [decodeFields]
    cases j with
    | zero =>
      rw [Nat.add_zero, decodeFields_of_le A fs (Nat.le_refl _), List.getElem?_cons_zero,
        Option.bind_some, bitsBefore_zero, Nat.add_zero]
      cases fieldValue A f data curBit with
      | none => rfl
      | some x =>
        simp only [Option.bind_some]
        rw [(setProtoNumberField_eq A desc msg (i + 1) x).1, if_pos rfl]
    | succ j =>
      have hNext := @ih (i + 1) (curBit + f.size) j
      rw [show i + 1 + j + 1 = i + (j + 1) + 1 by omega, Nat.add_assoc curBit] at hNext
      rw [List.getElem?_cons_succ, bitsBefore_succ, hNext]
      -- the fields before leave this one alone
      cases fieldValue A f data curBit with
      | none => rfl
      | some x =>
        simp only
        rw [(setProtoNumberField_eq A desc msg (i + 1) x).1, if_neg (by omega)]

/-- The enum numbers that are not defined, in the order of the fields. -/
def undefinedFrom (desc : Descriptor) (data : Nat → BitVec 8) :
    List Field → (i curBit : Nat) → List (Nat × Int)
  | [], _, _ => []
  | f :: fs, i, curBit =>
    ((fieldValue A f data curBit).elim [] (undefinedEnum A desc (i + 1))) ++
      undefinedFrom desc data fs (i + 1) (curBit + f.size)

/-- What decoding counts as unknown. -/
theorem decodeFields_unknown (fs : List Field) : ∀ {i curBit : Nat} {msg : PgnMsg D},
    (decodeFields A desc data fs i curBit msg).unknown =
      msg.unknown ++ undefinedFrom A desc data fs i curBit := by
  induction fs with
  | nil => exact (List.append_nil _).symm
  | cons f fs ih =>
    intro i curBit msg
    rw [decodeFields, ih, undefinedFrom, ← List.append_assoc]
    cases fieldValue A f data curBit with
    | none => rw [Option.elim_none, List.append_nil]
    | some x => rw [Option.elim_some, ← (setProtoNumberField_eq A desc msg (i + 1) x).2]

/-- The fields that a payload writes: field `i` of the table is written when its
raw value is not reserved and the message has a field that takes it. -/
def writtenFields (desc : Descriptor) (p : Pgn) (data : Nat → BitVec 8) :
    Nat → Option (Value D)
  | 0 => none
  | i + 1 => p.fieldList[i]?.bind fun f =>
      (fieldValue A f data (bitsBefore p.fieldList i)).bind (writtenValue A desc (i + 1))

/-- **What decoding does to a message.** It lays the fields that the payload
writes over those that are there. -/
theorem decode_eq_overlay (desc : Descriptor) (p : Pgn) (data : Nat → BitVec 8)
    (msg : PgnMsg D) :
    decode A desc p data msg =
      msg.overlay ⟨writtenFields A desc p data, undefinedFrom A desc data p.fieldList 0 0⟩ := by
  ext : 1
  · funext num
    cases num with
    | zero => exact decodeFields_of_le A p.fieldList (Nat.le_refl 0)
    | succ i =>
      have hFields := @decodeFields_fields _ A desc data p.fieldList 0 0 i msg
      simp only [Nat.zero_add] at hFields
      exact hFields
  · exact decodeFields_unknown A p.fieldList

end Sailbot.Can

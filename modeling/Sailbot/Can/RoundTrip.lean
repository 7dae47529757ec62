import Sailbot.Can.Buffer
import Sailbot.Can.Construct
import Sailbot.Can.NotAvailable

/-!
# From a message to a frame and back

The encoder `ConstructMessage` and the decoder `DecodeAndSend` over exact
arithmetic, for the entries of the table whose fields are all numbers of whole
bytes and fit into one frame.

* `extractNumberField_eq` — the decoder reads back a number that the encoder has
  written.
* `fieldValue_eq`, `written_number` — and puts it into the field it came from.
* `encode_decode_iff` — the round trip is the identity exactly for messages
  without a negative number: the encoder converts to an unsigned type.
-/

namespace Sailbot.Can

open Lib

-- ---------------------------------------------------------------------------
-- Numbers in message fields
-- ---------------------------------------------------------------------------

/-- The number that a field value stands for. -/
def Value.number : Value ℚ → ℚ
  | .real x => x
  | .int n => n

/-- The types of fields that hold any number, or at least zero. -/
def FieldType.isNumeric : FieldType → Bool
  | .double | .float | .int32 | .int64 | .uint32 | .uint64 => true
  | .enum values => values.contains 0
  | .bool | .other => false

/-- The numbers that a field of the type can stand for. -/
def FieldType.Represents : FieldType → ℚ → Prop
  | .double, _ | .float, _ => True
  | .enum values, x => ∃ n ∈ values, x = (n : ℚ)
  | .int32, x | .int64, x | .uint32, x | .uint64, x => ∃ n : Int, x = n
  | .bool, _ | .other, _ => False

/-- An integer is not changed by the conversion. -/
theorem trunc_intCast (n : Int) : Arith.exact.trunc (n : ℚ) = n := by
  show ((n : ℚ).num).tdiv ((n : ℚ).den) = n
  rw [Rat.num_intCast, Rat.den_intCast, Nat.cast_one, Int.tdiv_one]

/-- What a well-typed message has in a numeric field can be put there again. -/
theorem represents_of_get {desc : Descriptor} {msg : PgnMsg ℚ} (hTyped : msg.WellTyped desc)
    {num : Nat} {t : FieldType} (ht : desc.findFieldByNumber num = some t)
    (hNumeric : t.isNumeric = true) :
    t.Represents (getProtoNumberFieldById Arith.exact desc msg num) := by
  have hZero : t.Represents (Arith.exact.ofInt 0) := by
    cases t with
    | double | float => trivial
    | int32 | int64 | uint32 | uint64 => exact ⟨0, rfl⟩
    | enum values => exact ⟨0, by simpa [FieldType.isNumeric] using hNumeric, rfl⟩
    | bool | other => cases hNumeric
  have hGet : getProtoNumberFieldById Arith.exact desc msg num =
      match msg.fields num with
      | none => Arith.exact.ofInt 0
      | some v => v.number := by
    rw [getProtoNumberFieldById, ht]
    cases hField : msg.fields num with
    | none => cases t <;> rfl
    | some v =>
      cases t <;> cases v <;> first | rfl | cases hNumeric
  rw [hGet]
  cases hField : msg.fields num with
  | none => exact hZero
  | some v =>
    obtain ⟨t', ht', hHolds⟩ := hTyped num v hField
    rw [ht, Option.some.injEq] at ht'
    subst ht'
    cases v with
    | real x =>
      cases t with
      | double | float => trivial
      | int32 | int64 | uint32 | uint64 | enum | bool | other => exact hHolds.elim
    | int n =>
      cases t with
      | int32 | int64 | uint32 | uint64 => exact ⟨n, rfl⟩
      | enum values => exact ⟨n, hHolds, rfl⟩
      | double | float => exact hHolds.elim
      | bool | other => cases hNumeric

/-- A number that the type can stand for is what is written. -/
theorem written_number {t : FieldType} {x : ℚ} (hx : t.Represents x) :
    ∃ v, t.written Arith.exact x = some v ∧ v.number = x := by
  cases t with
  | double | float => exact ⟨_, rfl, rfl⟩
  | int32 | int64 | uint32 | uint64 =>
    obtain ⟨n, rfl⟩ := hx
    exact ⟨_, rfl, congrArg (Int.cast : Int → ℚ) (trunc_intCast n)⟩
  | enum values =>
    obtain ⟨n, hn, rfl⟩ := hx
    simp only [FieldType.written, trunc_intCast, if_pos hn]
    exact ⟨_, rfl, rfl⟩
  | bool | other => exact hx.elim

-- ---------------------------------------------------------------------------
-- The decoder on single fields
-- ---------------------------------------------------------------------------

/-- The smallest raw value of a field. -/
def Field.minRaw (f : Field) : Int := if f.hasSign then -2 ^ (f.size - 1) else 0

/-- The raw values that stand for something else than a number. -/
def Field.Reserved (f : Field) (raw : Int) : Prop :=
  f.maxRaw ≥ 15 ∧ f.maxRaw - raw ≤ 2 ∨ f.maxRaw > 1 ∧ f.maxRaw - raw ≤ 1 ∨ f.maxRaw = raw

/-- The raw values of the width and the sign of the field that are numbers. -/
def Field.RawOk (f : Field) (raw : Int) : Prop :=
  f.minRaw ≤ raw ∧ raw ≤ f.maxRaw ∧ ¬ f.Reserved raw

/-- The largest raw value fits in 32 bits. -/
theorem Field.maxRaw_lt {f : Field} (hWidth : 8 ≤ f.size ∧ f.size ≤ 32) : f.maxRaw < 2 ^ 32 := by
  have hPow := Nat.pow_le_pow_right (show 0 < 2 by omega) hWidth.2
  have hPow' := Nat.pow_le_pow_right (show 0 < 2 by omega) (show f.size - 1 ≤ 32 by omega)
  have hPos := Nat.two_pow_pos f.size
  have hPos' := Nat.two_pow_pos (f.size - 1)
  unfold Field.maxRaw
  split <;> omega

/-- **Reading a number back.** When the bits of a field are those of `n`, a number
the field can hold, the decoder gets `n` and the largest raw value. -/
theorem extractNumberField_eq {f : Field} (hWidth : 8 ≤ f.size ∧ f.size ≤ 32)
    {data : Nat → BitVec 8} {start n : Nat} (hn : n ≤ f.maxRaw)
    (hBits : ∀ k < f.size, bitAt data (start + k) = (BitVec.ofNat 64 n).getLsbD k) :
    extractNumberField f data start = (BitVec.ofNat 64 n, BitVec.ofNat 64 f.maxRaw) := by
  have hPow : 2 ^ f.size = 2 * 2 ^ (f.size - 1) := two_pow_size (by omega)
  have hHalf : 0 < 2 ^ (f.size - 1) := Nat.two_pow_pos _
  have hFits : n < 2 ^ f.size := by
    unfold Field.maxRaw at hn
    split at hn <;> omega
  have hSlice : sliceLE data start f.size = n := sliceLE_eq_of_bits hFits fun k hk => by
    rw [hBits k hk, BitVec.getLsbD_ofNat, decide_eq_true (by omega), Bool.true_and]
  refine Prod.ext ?_ (maxval_eq ⟨by omega, by omega⟩ start)
  rw [extractNumberField_slice ⟨by omega, by omega⟩, hSlice]
  cases hSign : f.hasSign with
  | false => rw [asRaw, if_neg Bool.false_ne_true]
  | true =>
    rw [Field.maxRaw, if_pos hSign] at hn
    apply BitVec.eq_of_toInt_eq
    have hPow63 : 2 ^ f.size ≤ 2 ^ 63 := Nat.pow_le_pow_right (by omega) (by omega)
    rw [toInt_asRaw_signed (by omega), toInt_ofNat_eq (by omega) hFits, if_pos (by omega),
      toInt_ofNat_of_lt_half (by omega)]

/-- The number that the decoder takes from a field with the bits of `n`. -/
theorem fieldValue_eq {f : Field} (hWidth : 8 ≤ f.size ∧ f.size ≤ 32) (hRes : f.resolution > 0)
    {data : Nat → BitVec 8} {start n : Nat} (hRaw : f.RawOk n)
    (hBits : ∀ k < f.size, bitAt data (start + k) = (BitVec.ofNat 64 n).getLsbD k) :
    fieldValue Arith.exact f data start = some ((n : ℚ) * f.resolution) := by
  obtain ⟨-, hMax, hNumber⟩ := hRaw
  have hn : n ≤ f.maxRaw := by exact_mod_cast hMax
  have hMax32 := f.maxRaw_lt hWidth
  have hInt : (BitVec.ofNat 64 n).toInt = n := toInt_ofNat_of_lt_half (by omega)
  have hNotReserved : ¬ isReserved (BitVec.ofNat 64 n) (BitVec.ofNat 64 f.maxRaw) = true := by
    rw [isReserved_iff hInt (toInt_ofNat_of_lt_half (by omega)) hMax]
    · unfold Field.Reserved at hNumber
      unfold reservedBelow
      split_ifs <;> omega
    · rw [NoOverflow, hInt, toInt_ofNat_of_lt_half (by omega)]
      omega
  rw [fieldValue, if_pos hRes, extractNumberField_eq hWidth hn hBits]
  simp only [hNotReserved, hInt]
  rfl

-- ---------------------------------------------------------------------------
-- The entries of the table that the encoder handles
-- ---------------------------------------------------------------------------

/-- All fields are numbers of whole bytes, and together they fit into a frame. -/
def Pgn.Simple (p : Pgn) : Prop :=
  (∀ f ∈ p.fieldList, f.size % 8 = 0 ∧ f.resolution > 0) ∧ p.bits ≤ 64

instance (p : Pgn) : Decidable p.Simple := inferInstanceAs (Decidable (_ ∧ _))

/-- The fields of the simple PGNs are one to four bytes wide, and fit in a frame. -/
theorem simple_size : ∀ p ∈ pgnList, p.Simple →
    p.size ≤ 8 ∧ ∀ f ∈ p.fieldList, 8 ≤ f.size ∧ f.size ≤ 32 := by
  decide +kernel

/-- No PGN of the table is addressed to one node. -/
theorem pgn_broadcast : ∀ p ∈ pgnList, p.pgn < 2 ^ 17 ∧ 240 ≤ p.pgn / 256 % 256 := by
  decide

/-- `CANMaster` has a numeric field for every field of these entries. -/
theorem simple_isNumeric : ∀ p ∈ pgnList, p.Simple → ∀ i < p.fieldList.length,
    ((canMaster.lookup p.pgn).bind fun desc => desc.findFieldByNumber (i + 1)).any
      FieldType.isNumeric = true := by
  decide +kernel

/-- Every field of a simple PGN has a number in the message's type. -/
theorem simple_findFieldByNumber {p : Pgn} (hp : p ∈ pgnList) (hSimple : p.Simple)
    {m : CANMessage ℚ} (hm : m.pgn = p) {i : Nat} (hi : i < p.fieldList.length) :
    ∃ t, m.desc.findFieldByNumber (i + 1) = some t ∧ t.isNumeric = true := by
  have hAny := simple_isNumeric p hp hSimple i hi
  have hDesc := m.desc_eq
  rw [hm] at hDesc
  rw [hDesc, Option.bind_some] at hAny
  cases hField : m.desc.findFieldByNumber (i + 1) with
  | none => rw [hField] at hAny; cases hAny
  | some t => rw [hField] at hAny; exact ⟨t, rfl, hAny⟩

/-- A multiple of the resolution is sent as its factor. -/
theorem wireNumber_eq {desc : Descriptor} {msg : PgnMsg ℚ} {f : Field} (hRes : f.resolution > 0)
    {j : Nat} {raw : Int}
    (h : getProtoNumberFieldById Arith.exact desc msg (j + 1) = raw * f.resolution) :
    wireNumber Arith.exact desc msg f j = raw := by
  rw [wireNumber, h]
  exact mul_div_cancel_right₀ _ (ne_of_gt hRes)

/-- A number in range is converted to itself. -/
theorem toUInt64_natCast (undef : ℚ → BitVec 64) {n : Nat} (hn : n < 2 ^ 64) :
    toUInt64 Arith.exact undef ((n : Int) : ℚ) = BitVec.ofNat 64 n := by
  have hRange : InUInt64 Arith.exact ((n : Int) : ℚ) := by
    unfold InUInt64
    rw [trunc_intCast]
    omega
  rw [toUInt64, if_pos hRange, trunc_intCast, BitVec.ofInt_natCast]

/-- The CAN id that the encoder builds is one of the PGN. -/
theorem constructID_pgn {p : Pgn} (hp : p ∈ pgnList) (id : CANID) :
    getPGN (retrieveID (constructID
      { setPGN id.new p.pgn with priority := 5, source := 0x15 })) = p.pgn := by
  obtain ⟨hBits, hBroadcast⟩ := pgn_broadcast p hp
  rw [retrieveID_constructID]
  exact getPGN_setPGN id.new hBits hBroadcast

/-- **A frame of a short PGN** of eight bytes is decoded at once, with its bytes in
the buffer. -/
theorem iterate_short {D : Type} (A : Arith D) {p : Pgn} (hp : p ∈ pgnList) (hShort : p.size ≤ 8)
    {f : CanFrame} (hf : f.pgn = p.pgn) (hDlc : f.canDlc = 8) {s : CanNode D}
    (hKnown : (s.msgs p.pgn).isSome) :
    ∃ m', m'.pgn = p ∧ (∀ i < 8, f.data[i]? = some (m'.payload i)) ∧
      iterate A s f = some (s.decoded A m') := by
  have hNotLong : p.isLong = false := decide_eq_false (by omega)
  obtain ⟨m, hMsg⟩ := Option.isSome_iff_exists.mp hKnown
  have hmp := s.msgs_eq hp hMsg
  have hFits : FitsBuffer m.pgn f := .inl (hmp ▸ hNotLong)
  obtain ⟨m', hMerge⟩ := Option.isSome_iff_exists.mp (merge_isSome_iff.mpr hFits)
  obtain ⟨hPgn, -, -, -, hCells, -⟩ := CANMessage.merge_eq_some hMerge
  rw [hmp, hNotLong, header_short] at hCells
  refine ⟨m', hPgn.trans hmp, ?_, ?_⟩
  · intro i hi
    obtain ⟨-, b, hb, hCell⟩ := hCells i (by simp only; omega)
    simp only [Nat.zero_add] at hb hCell
    rw [hb, CANMessage.payload, hCell]
  · have hEnd : atEnd m'.pgn f = true := by
      rw [hPgn, hmp, atEnd, hNotLong]
      rfl
    simp only [iterate, hf, hMsg, hMerge, hEnd, if_true]

-- ---------------------------------------------------------------------------
-- The round trip
-- ---------------------------------------------------------------------------

/-- The encoder succeeds with all its conversions in range, and any node that
listens to the PGN gets the raw values `raw` back from the frame, in the buffer
and in the message it publishes. -/
def RoundTrips (r : Built ℚ) (p : Pgn) (raw : Nat → Int) : Prop :=
  r.ok = true ∧ (∀ x ∈ r.converted, InUInt64 Arith.exact x) ∧
  ∃ hDlc : r.canDlc ≤ 8, (r.frame hDlc).pgn = p.pgn ∧
    ∀ s : CanNode ℚ, (s.msgs p.pgn).isSome → ∃ s' c,
      iterate Arith.exact s (r.frame hDlc) = some s' ∧ s'.calls = s.calls ++ [c] ∧
      c.msg.pgn = p ∧ ∀ i f, p.fieldList[i]? = some f →
        (extractNumberField f c.msg.payload (bitsBefore p.fieldList i)).1.toInt = raw i ∧
        ∃ v, (c.published.getMessage p.pgn).fields (i + 1) = some v ∧
          v.number = raw i * f.resolution

/-- The encoder on a simple entry: it succeeds, converts the raw values, and puts
the bits of each converted one at the place of its field. -/
theorem constructMessage_spec (undef : ℚ → BitVec 64) {info : CANMessage ℚ}
    (hSimple : info.pgn.Simple) (msg : CANMaster ℚ) {raw : Nat → Int}
    (hMsg : ∀ i f, info.pgn.fieldList[i]? = some f →
      getProtoNumberFieldById Arith.exact info.desc (msg.getMessage info.pgn.pgn) (i + 1) =
        raw i * f.resolution)
    (data : Nat → BitVec 8) (id : CANID) :
    let r := constructMessage Arith.exact undef msg info data id
    r.ok = true ∧ r.canDlc = 8 ∧
    r.canId = constructID { setPGN id.new info.pgn.pgn with priority := 5, source := 0x15 } ∧
    (∀ x, x ∈ r.converted ↔ ∃ i f, info.pgn.fieldList[i]? = some f ∧ x = (raw i : ℚ)) ∧
    ∀ i f, info.pgn.fieldList[i]? = some f → ∀ k < f.size,
      bitAt r.data (bitsBefore info.pgn.fieldList i + k) =
        (toUInt64 Arith.exact undef (raw i : ℚ)).getLsbD k := by
  intro r
  obtain ⟨hFields, hTotal⟩ := hSimple
  rw [Pgn.bits] at hTotal
  obtain ⟨b, hWalk, hDlc, -, hConverted, hBits⟩ := @constructFields_spec _ Arith.exact
    undef info.desc (msg.getMessage info.pgn.pgn) info.pgn.fieldList 0 ⟨0, data, [], []⟩ hFields
    (by simpa using hTotal)
  simp only [Nat.mul_zero, Nat.zero_add, List.nil_append] at hDlc hConverted hBits
  have hBuilt : r = { b.pad with
      ok := true
      canId := constructID
        { setPGN id.new info.pgn.pgn with priority := 5, source := 0x15 } } := by
    simp only [r, constructMessage, hWalk]
  have hWire : ∀ i f, info.pgn.fieldList[i]? = some f →
      wireNumber Arith.exact info.desc (msg.getMessage info.pgn.pgn) f i = raw i :=
    fun i f hf => wireNumber_eq (hFields f (List.mem_of_getElem? hf)).2 (hMsg i f hf)
  refine ⟨by rw [hBuilt], ?_, by rw [hBuilt], ?_, ?_⟩
  · rw [hBuilt]
    show max b.canDlc 8 = 8
    omega
  · intro x
    rw [hBuilt]
    show x ∈ b.converted ↔ _
    rw [hConverted, List.mem_mapIdx]
    constructor
    · rintro ⟨i, hi, rfl⟩
      exact ⟨i, _, List.getElem?_eq_getElem hi, hWire i _ (List.getElem?_eq_getElem hi)⟩
    · rintro ⟨i, f, hf, rfl⟩
      obtain ⟨hi, rfl⟩ := List.getElem?_eq_some_iff.mp hf
      exact ⟨i, hi, hWire i _ hf⟩
  · intro i f hf k hk
    -- the padding starts behind the last field
    have hRoom := bitsBefore_add_size_le hf
    have hPad : r.data ((bitsBefore info.pgn.fieldList i + k) / 8) =
        b.data ((bitsBefore info.pgn.fieldList i + k) / 8) := by
      rw [hBuilt]
      exact b.pad_data_of_lt (by omega)
    rw [bitAt_congr hPad, hBits i f hf k hk, hWire i f hf]

/-- The decoder on a simple entry: a message whose buffer holds the bits of the raw
value `n` at the place of a field has `n` there and publishes it in that field. -/
theorem decodeAndSend_field {m : CANMessage ℚ} (hSimple : m.pgn.Simple) {i n : Nat} {f : Field}
    (hf : m.pgn.fieldList[i]? = some f) (hRaw : f.RawOk n) {t : FieldType}
    (ht : m.desc.findFieldByNumber (i + 1) = some t)
    (hRep : t.Represents ((n : ℚ) * f.resolution))
    (hSlice : ∀ k < f.size, bitAt m.payload (bitsBefore m.pgn.fieldList i + k) =
      (BitVec.ofNat 64 n).getLsbD k) :
    (extractNumberField f m.payload (bitsBefore m.pgn.fieldList i)).1.toInt = n ∧
    ∃ v, ((decodeAndSend Arith.exact m).getMessage m.pgn.pgn).fields (i + 1) = some v ∧
      v.number = n * f.resolution := by
  have hWidth := (simple_size m.pgn m.pgn_mem hSimple).2 f (List.mem_of_getElem? hf)
  have hRes := (hSimple.1 f (List.mem_of_getElem? hf)).2
  have hLe : n ≤ f.maxRaw := by exact_mod_cast hRaw.2.1
  constructor
  · rw [extractNumberField_eq hWidth hLe hSlice]
    have hLt := f.maxRaw_lt hWidth
    exact toInt_ofNat_of_lt_half (by omega)
  · have hValue := fieldValue_eq hWidth hRes hRaw hSlice
    obtain ⟨v, hv, hNumber⟩ := written_number hRep
    have hWritten : writtenFields Arith.exact m.desc m.pgn m.payload (i + 1) = some v := by
      rw [writtenFields, hf, Option.bind_some, hValue, Option.bind_some, writtenValue, ht,
        Option.bind_some, hv]
    refine ⟨v, ?_, hNumber⟩
    rw [decodeAndSend_getMessage, decode_eq_overlay]
    simp only [PgnMsg.overlay, hWritten, Option.some_or]

/--
**Encoding and decoding, exactly.** For an entry of the table with simple fields
and a message whose fields are non-reserved raw values times their resolutions:
`ConstructMessage` returns `true` with every conversion in range and the frame
decodes to the same PGN and raw values if and only if no raw value is negative.
-/
theorem encode_decode_iff (undef : ℚ → BitVec 64) {p : Pgn} (hSimple : p.Simple)
    {info : CANMessage ℚ} (hInfo : info.pgn = p) {msg : CANMaster ℚ}
    (hTyped : (msg.getMessage p.pgn).WellTyped info.desc) {raw : Nat → Int}
    (hRaw : ∀ (i : Nat) (f : Field), p.fieldList[i]? = some f → f.RawOk (raw i))
    (hMsg : ∀ i f, p.fieldList[i]? = some f →
      getProtoNumberFieldById Arith.exact info.desc (msg.getMessage p.pgn) (i + 1) =
        raw i * f.resolution)
    (data : Nat → BitVec 8) (id : CANID) :
    RoundTrips (constructMessage Arith.exact undef msg info data id) p raw ↔
      ∀ i f, p.fieldList[i]? = some f → 0 ≤ raw i := by
  subst hInfo
  have hp := info.pgn_mem
  obtain ⟨hOk, hDlc, hId, hConverted, hBits⟩ :=
    constructMessage_spec undef hSimple msg hMsg data id
  set r := constructMessage Arith.exact undef msg info data id with hr
  obtain ⟨hShort, hWidths⟩ := simple_size info.pgn hp hSimple
  constructor
  · rintro ⟨-, hRange, -⟩ i f hf
    have hIn := hRange (raw i) ((hConverted _).mpr ⟨i, f, hf, rfl⟩)
    rw [InUInt64, trunc_intCast] at hIn
    exact hIn.1
  · intro hPos
    -- every raw value is a number of the width of its field
    have hNat : ∀ (i : Nat) (f : Field), info.pgn.fieldList[i]? = some f →
        ∃ n : Nat, raw i = n ∧ n < 2 ^ 32 ∧ f.RawOk n := by
      intro i f hf
      obtain ⟨n, hn⟩ := Int.eq_ofNat_of_zero_le (hPos i f hf)
      have hOkRaw := hRaw i f hf
      rw [hn] at hOkRaw
      have hLe : n ≤ f.maxRaw := by exact_mod_cast hOkRaw.2.1
      exact ⟨n, hn, hLe.trans_lt (f.maxRaw_lt (hWidths f (List.mem_of_getElem? hf))), hOkRaw⟩
    have hPgn : (r.frame hDlc.le).pgn = info.pgn.pgn := by
      show getPGN (retrieveID r.canId) = _
      rw [hId]
      exact constructID_pgn hp id
    refine ⟨hOk, ?_, hDlc.le, hPgn, ?_⟩
    · intro x hx
      obtain ⟨i, f, hf, rfl⟩ := (hConverted x).mp hx
      obtain ⟨n, hn, hLt, -⟩ := hNat i f hf
      rw [InUInt64, trunc_intCast, hn]
      omega
    · intro s hKnown
      obtain ⟨m, hm, hBytes, hStep⟩ := iterate_short Arith.exact hp hShort hPgn hDlc hKnown
      refine ⟨_, _, hStep, CanNode.decoded_calls .., hm, ?_⟩
      intro i f hf
      obtain ⟨n, hn, hLt, hOkRaw⟩ := hNat i f hf
      obtain ⟨t, ht, hNumeric⟩ :=
        simple_findFieldByNumber hp hSimple hm (List.getElem?_eq_some_iff.mp hf).1
      have hRep := represents_of_get hTyped (CANMessage.desc_congr hm ▸ ht) hNumeric
      rw [hMsg i f hf, hn, Int.cast_natCast] at hRep
      -- the buffer of the node holds the bits of the raw value
      have hSlice : ∀ k < f.size, bitAt m.payload (bitsBefore info.pgn.fieldList i + k) =
          (BitVec.ofNat 64 n).getLsbD k := by
        intro k hk
        have hRoom := bitsBefore_add_size_le hf
        have hTotal := hSimple.2
        rw [Pgn.bits] at hTotal
        have hByte : (bitsBefore info.pgn.fieldList i + k) / 8 < 8 := by omega
        have hSame := hBytes _ hByte
        rw [Built.frame, Vector.getElem?_ofFn, dif_pos hByte, Option.some.injEq] at hSame
        rw [bitAt_congr hSame.symm, hBits i f hf k hk, hn, toUInt64_natCast undef (by omega)]
      rw [← hm] at hSimple hf hSlice
      obtain ⟨hRead, v, hv, hNumber⟩ := decodeAndSend_field hSimple hf hOkRaw ht hRep hSlice
      rw [hm] at hRead hv
      exact ⟨hRead.trans hn.symm, v, hv, by rw [hNumber, hn, Int.cast_natCast]⟩

-- ---------------------------------------------------------------------------
-- The state of the ballast
-- ---------------------------------------------------------------------------

/-- The message on the ballast with the raw values of heel and ballast arm. -/
def ballastSub (heel arm : Int) : PgnMsg ℚ where
  fields := fun num =>
    if num = 1 then some (.real (heel * resRadians))
    else if num = 2 then some (.real (arm * resRadians)) else none

def ballastMsg (heel arm : Int) : CANMaster ℚ where
  sub := fun pgn => if pgn = 0xFF05 then some (ballastSub heel arm) else none

def ballastRaw (heel arm : Int) : Nat → Int := fun i => if i = 0 then heel else arm

/-- It is a message as the encoder expects it, for raw values of 16 bits. -/
theorem ballastMsg_ok (heel arm : Int) (hHeel : -32768 ≤ heel ∧ heel < 32765)
    (hArm : -32768 ≤ arm ∧ arm < 32765) :
    ∃ info : CANMessage ℚ, info.pgn.pgn = 0xFF05 ∧ info.pgn.fieldList.length = 2 ∧
      info.pgn.Simple ∧ ((ballastMsg heel arm).getMessage info.pgn.pgn).WellTyped info.desc ∧
      (∀ (i : Nat) (f : Field), info.pgn.fieldList[i]? = some f →
        f.RawOk (ballastRaw heel arm i)) ∧
      ∀ (i : Nat) (f : Field), info.pgn.fieldList[i]? = some f →
        getProtoNumberFieldById Arith.exact info.desc
          ((ballastMsg heel arm).getMessage info.pgn.pgn) (i + 1) =
          ballastRaw heel arm i * f.resolution := by
  obtain ⟨p, hp, hPgn, hList⟩ : ∃ p ∈ pgnList, p.pgn = 0xFF05 ∧ p.fieldList =
      [⟨"Heel", 16, resRadians, true⟩, ⟨"Ballast Arm", 16, resRadians, true⟩] :=
    ⟨_, List.getElem_mem (l := pgnList) (n := 8) (by decide), rfl, rfl⟩
  -- the entry itself is left abstract: the goals below are about its two fields only
  have hSimple : p.Simple := by
    rw [Pgn.Simple, Pgn.bits, hList]
    decide +kernel
  let info : CANMessage ℚ :=
    { pgn := p, base := 0, data := fun _ => ⟨0, none⟩, store := {}, frames := [],
      desc := ballastState, pgn_mem := hp, desc_eq := by rw [hPgn]; rfl }
  have hSub : (ballastMsg heel arm).getMessage info.pgn.pgn = ballastSub heel arm := by
    show (ballastMsg heel arm).getMessage p.pgn = _
    rw [hPgn]
    rfl
  refine ⟨info, hPgn, by simp only [info, hList]; rfl, hSimple, ?_, ?_, ?_⟩
  · rw [hSub]
    intro num v hv
    simp only [ballastSub] at hv
    split at hv
    · next hNum =>
      rw [Option.some.injEq] at hv
      exact ⟨.float, by rw [hNum]; rfl, by rw [← hv]; trivial⟩
    · split at hv
      · next hNum =>
        rw [Option.some.injEq] at hv
        exact ⟨.float, by rw [hNum]; rfl, by rw [← hv]; trivial⟩
      · cases hv
  · intro i f hf
    change p.fieldList[i]? = some f at hf
    rw [hList] at hf
    have hSigned : ∀ (name : String) (raw : Int), -32768 ≤ raw ∧ raw < 32765 →
        (⟨name, 16, resRadians, true⟩ : Field).RawOk raw := by
      intro name raw hRaw
      simp only [Field.RawOk, Field.minRaw, Field.maxRaw, Field.Reserved, if_true]
      omega
    rcases i with - | - | i
    · exact Option.some.inj hf ▸ hSigned _ heel hHeel
    · exact Option.some.inj hf ▸ hSigned _ arm hArm
    · cases hf
  · intro i f hf
    change p.fieldList[i]? = some f at hf
    rw [hList] at hf
    rw [hSub]
    rcases i with - | - | i
    · rw [← Option.some.inj hf]
      rfl
    · rw [← Option.some.inj hf]
      rfl
    · cases hf

/-- A heel of 10 mrad and a ballast arm at 20 mrad. -/
theorem encode_decode_iff_ballast :
    ∃ info : CANMessage ℚ, info.pgn.pgn = 0xFF05 ∧
      RoundTrips (constructMessage Arith.exact (fun _ => 0) (ballastMsg 100 200) info (fun _ => 0)
        (retrieveID 0)) info.pgn (ballastRaw 100 200) := by
  obtain ⟨info, hPgn, -, hSimple, hTyped, hRaw, hMsg⟩ :=
    ballastMsg_ok 100 200 (by decide) (by decide)
  refine ⟨info, hPgn, (encode_decode_iff _ hSimple rfl hTyped hRaw hMsg _ _).mpr ?_⟩
  intro i f _
  unfold ballastRaw
  split <;> decide

/-- A heel of -0.2 mrad, raw value -2: a message the encoder is meant for, with a
conversion to `uint64_t` that is out of range whatever it gives. -/
theorem negative_heel_out_of_range :
    ∃ info : CANMessage ℚ, info.pgn.pgn = 0xFF05 ∧ info.pgn.Simple ∧
      (∀ (i : Nat) (f : Field), info.pgn.fieldList[i]? = some f → f.RawOk (ballastRaw (-2) 0 i)) ∧
      ∀ (undef : ℚ → BitVec 64) (data : Nat → BitVec 8) (id : CANID),
        ((-2 : Int) : ℚ) ∈
          (constructMessage Arith.exact undef (ballastMsg (-2) 0) info data id).converted ∧
        ¬ RoundTrips (constructMessage Arith.exact undef (ballastMsg (-2) 0) info data id) info.pgn
          (ballastRaw (-2) 0) := by
  obtain ⟨info, hPgn, hLength, hSimple, -, hRaw, hMsg⟩ :=
    ballastMsg_ok (-2) 0 (by decide) (by decide)
  refine ⟨info, hPgn, hSimple, hRaw, ?_⟩
  intro undef data id
  obtain ⟨-, -, -, hConverted, -⟩ := constructMessage_spec undef hSimple _ hMsg data id
  have hMem := (hConverted ((-2 : Int) : ℚ)).mpr
    ⟨0, _, List.getElem?_eq_getElem (by omega), rfl⟩
  refine ⟨hMem, ?_⟩
  intro hTrip
  have hIn := hTrip.2.1 _ hMem
  rw [InUInt64, trunc_intCast] at hIn
  exact absurd hIn.1 (by decide)

end Sailbot.Can

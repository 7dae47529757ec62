import Mathlib.Data.Nat.Digits.Lemmas
import Sailbot.Can.RawValue
import Sailbot.Lib.Loop
import Sailbot.Lib.Transition

/-!
# Reading the radio receiver

`ReadSBUS::Iterate` (`sensor/read-sbus.cc`). The receiver sends frames of 25 bytes: a start byte,
22 bytes with sixteen channels of 11 bits, the flags, and a zero. `Iterate` waits for a start byte
and takes the 24 bytes behind it for the rest of a frame. The start byte may also be a byte of a
frame, and the last byte is not looked at.

Every `read` is one step. The bits of a channel are put together from two or three bytes.

* `channelBits_eq`   — they are the 11 bits at the position of the channel.
* `channels_decoded` — what `Iterate` publishes, and that packed channels come out again.
* `FrameStream.no_phantom` — what is published of a stream of frames that is joined in the middle.
-/

namespace Sailbot.Sensor

open Lib

structure Sbus where
  channel   : List Nat := List.replicate 16 0
  ch17      : Bool := false
  ch18      : Bool := false
  frameLost : Bool := false
  failsafe  : Bool := false
  deriving DecidableEq, Repr

structure ReadSbus where
  startByte : BitVec 8 := 0
  msg       : Sbus := {}
  queue     : List Sbus := []
  deriving DecidableEq, Repr

/-- The bits of the channel that starts at `curBit`. -/
def channelBits (data : Nat → BitVec 8) (curBit : Nat) : Nat :=
  let curByte := curBit / 8
  let startBit := curBit % 8
  let endBit := (curBit + 11) % 8
  let bits := ((data curByte).toNat >>> startBit) &&& 0xFF
  let curByte := curByte + 1
  let (bits, curByte) :=
    if endBit < 3 then (bits + (data curByte).toNat <<< (8 - startBit), curByte + 1)
    else (bits, curByte)
  if endBit ≠ 0 then bits + (((data curByte).toNat <<< (8 - endBit)) &&& 0xFF) <<< 3 else bits

/-- The message for the 24 bytes behind a start byte. -/
def decode (data : Nat → BitVec 8) : Sbus where
  channel := (List.range 16).map fun i => channelBits data (11 * i)
  ch17 := 0x80 &&& data 22 != 0
  ch18 := 0x40 &&& data 22 != 0
  frameLost := 0x20 &&& data 22 != 0
  failsafe := 0x10 &&& data 22 != 0

namespace ReadSbus

/-- The number of bytes that the next `read` asks for. -/
def asks (s : ReadSbus) : Nat := if s.startByte = 0x0F then 24 else 1

/-- One `read`, by the bytes that it returns. When `Iterate` returns, the next one begins without
a start byte. -/
def onRead (s : ReadSbus) (bytes : List (BitVec 8)) (shutdown : Bool) : ReadSbus :=
  if s.startByte ≠ 0x0F then
    { s with startByte := if shutdown then 0 else bytes.headD s.startByte }
  else if bytes.length < 24 then { s with startByte := 0 }
  else
    let msg := decode fun k => bytes.getD k 0
    { startByte := 0, msg := msg, queue := s.queue ++ [msg] }

end ReadSbus

-- ---------------------------------------------------------------------------
-- Channels
-- ---------------------------------------------------------------------------

/-- Shifting a byte to the left end of eight bits leaves its first `n` bits. -/
theorem shiftLeft_and_byte (x : Nat) {n : Nat} (hn : n ≤ 8) :
    ((x <<< (8 - n)) &&& 0xFF) <<< 3 = 2 ^ (11 - n) * (x % 2 ^ n) := by
  have hByte : (2 : Nat) ^ 8 = 2 ^ (8 - n) * 2 ^ n := by
    rw [← Nat.pow_add, Nat.sub_add_cancel hn]
  have hTop : (2 : Nat) ^ (11 - n) = 2 ^ (8 - n) * 2 ^ 3 := by
    rw [← Nat.pow_add]
    congr 1
    omega
  rw [show (0xFF : Nat) = 2 ^ 8 - 1 from rfl, Nat.and_two_pow_sub_one_eq_mod, Nat.shiftLeft_eq,
    Nat.shiftLeft_eq, hByte, Nat.mul_comm x, Nat.mul_mod_mul_left, hTop, Nat.mul_assoc,
    Nat.mul_assoc, Nat.mul_comm (2 ^ 3)]

/-- The eight ways in which a channel lies over bytes come to the same. -/
theorem channelBits_eq (data : Nat → BitVec 8) (curBit : Nat) :
    channelBits data curBit = sliceLE data curBit 11 := by
  obtain ⟨q, s, hs, rfl⟩ : ∃ q s, s < 8 ∧ curBit = 8 * q + s :=
    ⟨curBit / 8, curBit % 8, Nat.mod_lt _ (by omega), (Nat.div_add_mod curBit 8).symm⟩
  have hByte : (8 * q + s) / 8 = q := by omega
  have hStart : (8 * q + s) % 8 = s := by omega
  have hFirst : ((data q).toNat >>> s) &&& 0xFF = sliceLE data (8 * q + s) (8 - s) := by
    have hLt := sliceLE_lt data (8 * q + s) (8 - s)
    have hPow := Nat.pow_le_pow_right (show 0 < 2 by omega) (show 8 - s ≤ 8 by omega)
    rw [sliceLE_high data q hs.le] at hLt ⊢
    rw [show (0xFF : Nat) = 2 ^ 8 - 1 from rfl, Nat.and_two_pow_sub_one_eq_mod,
      Nat.shiftRight_eq_div_pow, Nat.mod_eq_of_lt (by omega)]
  unfold channelBits
  simp only [hByte, hStart, hFirst]
  by_cases hTwo : s ≤ 4
  · -- two bytes, and all of the first one for `s = 0`
    have hEnd : (8 * q + s + 11) % 8 = s + 3 := by omega
    have hSplit := sliceLE_add data (8 * q + s) (8 - s) (s + 3)
    rw [show 8 - s + (s + 3) = 11 by omega, show 8 * q + s + (8 - s) = 8 * (q + 1) by omega,
      sliceLE_low data (q + 1) (by omega)] at hSplit
    have hMany : ¬ s + 3 < 3 := by omega
    have hSome : s + 3 ≠ 0 := by omega
    rw [hEnd, if_neg hMany, if_pos hSome, shiftLeft_and_byte _ (by omega), hSplit,
      show 11 - (s + 3) = 8 - s by omega]
  · -- three bytes, the last of which does not count for `s = 5`
    have hEnd : (8 * q + s + 11) % 8 = s - 5 := by omega
    have hSplit := sliceLE_add data (8 * q + s) (8 - s) (8 + (s - 5))
    rw [show 8 - s + (8 + (s - 5)) = 11 by omega,
      show 8 * q + s + (8 - s) = 8 * (q + 1) by omega, sliceLE_add,
      ← toNat_eq_sliceLE, show 8 * (q + 1) + 8 = 8 * (q + 2) by omega,
      sliceLE_low data (q + 2) (by omega)] at hSplit
    have hFew : s - 5 < 3 := by omega
    rw [hEnd, if_pos hFew, hSplit, Nat.shiftLeft_eq, Nat.mul_add, ← Nat.mul_assoc,
      ← Nat.pow_add, show 8 - s + 8 = 11 - (s - 5) by omega, Nat.mul_comm (data (q + 1)).toNat]
    by_cases hLast : s - 5 = 0
    · rw [if_neg (not_not.mpr hLast), hLast, Nat.pow_zero, Nat.mod_one, Nat.mul_zero]
      rfl
    · rw [if_pos hLast, shiftLeft_and_byte _ (by omega), Nat.add_assoc]

/-- The decoded channels, by the 22 bytes of the payload. -/
theorem decode_channel (data : Nat → BitVec 8) :
    (decode data).channel = (List.range 16).map fun i => sliceLE data (11 * i) 11 := by
  simp only [decode, channelBits_eq]

/-- The channels depend on the first 22 bytes only. -/
theorem decode_channel_congr {data data' : Nat → BitVec 8} (h : ∀ k < 22, data k = data' k) :
    (decode data).channel = (decode data').channel := by
  rw [decode_channel, decode_channel]
  refine List.map_congr_left fun i hi => sliceLE_congr fun k hk => h k ?_
  have := List.mem_range.mp hi
  omega

/-- The message depends on the first 23 bytes only. -/
theorem decode_congr {data data' : Nat → BitVec 8} (h : ∀ k < 23, data k = data' k) :
    decode data = decode data' := by
  have hChannel := decode_channel_congr fun k hk => h k (by omega : k < 23)
  have hFlags := h 22 (by omega)
  simp only [decode] at hChannel ⊢
  rw [hChannel, hFlags]

-- ---------------------------------------------------------------------------
-- Packing
-- ---------------------------------------------------------------------------

/-- The payload with the channels `values`, 11 bits for each. -/
def pack (values : List Nat) : Nat → BitVec 8 := natByte (Nat.ofDigits (2 ^ 11) values)

/-- A digit of a number in a base. -/
theorem ofDigits_div_mod {b : Nat} (hb : 0 < b) {values : List Nat} (hLt : ∀ v ∈ values, v < b) :
    ∀ {i v : Nat}, values[i]? = some v → Nat.ofDigits b values / b ^ i % b = v := by
  induction values with
  | nil => exact fun h => nomatch h
  | cons w values ih =>
    intro i v hv
    have hw := hLt w List.mem_cons_self
    cases i with
    | zero =>
      obtain rfl := Option.some.inj hv
      rw [Nat.pow_zero, Nat.div_one, Nat.ofDigits_cons, Nat.add_mul_mod_self_left,
        Nat.mod_eq_of_lt hw]
    | succ i =>
      rw [Nat.ofDigits_cons, Nat.pow_succ', ← Nat.div_div_eq_div_mul, Nat.add_mul_div_left _ _ hb,
        Nat.div_eq_of_lt hw, Nat.zero_add]
      exact ih (fun u hu => hLt u (List.mem_cons_of_mem _ hu)) hv

/-- Packed channels come out again. -/
theorem decode_pack {values : List Nat} (hLength : values.length = 16)
    (hLt : ∀ v ∈ values, v < 2 ^ 11) : (decode (pack values)).channel = values := by
  rw [decode_channel]
  refine (eq_map_range hLength fun i hi => ?_).symm
  obtain ⟨v, -, hv⟩ := getElem?_total (hLength.symm ▸ hi : i < values.length)
  rw [hv, pack, sliceLE_natByte, Nat.pow_mul, ofDigits_div_mod (by omega) hLt hv]

/-- **Channels.** Let `Iterate` have read a start byte, and 24 bytes behind it. It publishes sixteen
channels, and each of them is the number that `ExtractNumberField` finds in 11 unsigned bits at its
place. When these bytes begin with a packed payload, the channels are the packed ones. -/
theorem channels_decoded (s : ReadSbus) (bytes : List (BitVec 8)) (shutdown : Bool)
    (hStart : s.startByte = 0x0F) (hLength : bytes.length = 24) :
    ∃ msg, (s.onRead bytes shutdown).queue = s.queue ++ [msg] ∧ msg.channel.length = 16 ∧
      (∀ i < 16, ∃ c, msg.channel[i]? = some c ∧
        c = sliceLE (fun k => bytes.getD k 0) (11 * i) 11 ∧
        ∀ f : Can.Field, f.size = 11 → f.hasSign = false →
          BitVec.ofNat 64 c = (Can.extractNumberField f (fun k => bytes.getD k 0) (11 * i)).1) ∧
      ∀ values : List Nat, values.length = 16 → (∀ v ∈ values, v < 2048) →
        (∀ k < 22, bytes[k]? = some (pack values k)) → msg.channel = values := by
  refine ⟨decode fun k => bytes.getD k 0, ?_, ?_, ?_, ?_⟩
  · rw [ReadSbus.onRead, if_neg (not_not.mpr hStart), if_neg (by omega)]
  · rw [decode_channel, List.length_map, List.length_range]
  · intro i hi
    refine ⟨_, ?_, rfl, ?_⟩
    · rw [decode_channel, List.getElem?_map, List.getElem?_range hi]
      rfl
    · intro f hSize hSign
      rw [Can.extractNumberField_slice (by omega), hSize, hSign, Can.asRaw]
      exact (if_neg Bool.false_ne_true).symm
  · intro values hValues hLt hBytes
    rw [← decode_pack hValues hLt]
    refine decode_channel_congr ?_
    intro k hk
    rw [List.getD_eq_getElem?_getD, hBytes k hk, Option.getD_some]

/-- A start byte and the packed numbers 0, 128, …, 1920. -/
theorem channels_decoded_ramp :
    ∃ msg, (ReadSbus.onRead { startByte := 0x0F }
        ((List.range 24).map (pack ((List.range 16).map (128 * ·)))) false).queue = [msg] ∧
      msg.channel = (List.range 16).map (128 * ·) := by
  obtain ⟨msg, hQueue, -, -, hPacked⟩ :=
    channels_decoded { startByte := 0x0F }
      ((List.range 24).map (pack ((List.range 16).map (128 * ·)))) false rfl (by simp)
  refine ⟨msg, hQueue, hPacked _ (by simp) (by simp; omega) ?_⟩
  intro k hk
  rw [List.getElem?_map, List.getElem?_range (by omega)]
  rfl

-- ---------------------------------------------------------------------------
-- Frames
-- ---------------------------------------------------------------------------

structure Frame where
  payload : Fin 22 → BitVec 8
  flags   : BitVec 8

/-- The 25 bytes of a frame. -/
def Frame.byte (f : Frame) (k : Nat) : BitVec 8 :=
  if k = 0 then 0x0F
  else if h : k - 1 < 22 then f.payload ⟨k - 1, h⟩
  else if k = 23 then f.flags
  else 0x00

/-- What the receiver has to say with a frame. -/
def Frame.msg (f : Frame) : Sbus := decode fun k => f.byte (k + 1)

/-- Frames one behind the other, without end or up to the `count`th. -/
structure FrameStream where
  frame : Nat → Frame
  count : Option Nat := none

namespace FrameStream

def byte (σ : FrameStream) (p : Nat) : BitVec 8 := (σ.frame (p / 25)).byte (p % 25)

/-- The stream does not end before the byte `p`. -/
def Reaches (σ : FrameStream) (p : Nat) : Prop := ∀ c ∈ σ.count, p ≤ 25 * c

instance (σ : FrameStream) (p : Nat) : Decidable (σ.Reaches p) :=
  inferInstanceAs (Decidable (∀ c ∈ σ.count, p ≤ 25 * c))

/-- The reader in the stream; `shutdown` is what `IsShutdown` has said last. -/
structure Reader where
  pos      : Nat
  node     : ReadSbus := {}
  shutdown : Bool := false
  deriving DecidableEq

/-- The reader joins the stream. -/
def join (offset : Nat) : Reader := { pos := offset }

/-- One `read`, which returns all the bytes it asks for. -/
def step (σ : FrameStream) (x : Reader) (shutdown : Bool) : Option Reader :=
  let n := x.node.asks
  if x.shutdown = false ∧ σ.Reaches (x.pos + n) then
    some {
      pos := x.pos + n
      node := x.node.onRead ((List.range n).map fun k => σ.byte (x.pos + k)) shutdown
      shutdown := shutdown }
  else none

/-- Whatever the reader publishes has the channels of a frame of the stream. -/
def NoPhantom (σ : FrameStream) (offset : Nat) : Prop :=
  ∀ flags x, run σ.step (join offset) flags = some x → ∀ msg ∈ x.node.queue,
    ∃ i, σ.Reaches (25 * (i + 1)) ∧ msg.channel = (σ.frame i).msg.channel

/-- From `offset` on, `p` is the first place with the value of a start byte. -/
def FirstStart (σ : FrameStream) (offset p : Nat) : Prop :=
  offset ≤ p ∧ σ.byte p = 0x0F ∧ ∀ q, offset ≤ q → q < p → σ.byte q ≠ 0x0F

/-- The first start byte that the reader meets is that of a frame, or the stream ends before 24
more bytes. -/
def Synced (σ : FrameStream) (offset : Nat) : Prop :=
  ∀ p, σ.FirstStart offset p → σ.Reaches (p + 25) → 25 ∣ p

variable {σ : FrameStream} {offset : Nat} {x y : Reader} {shutdown : Bool}

/-- Bytes in front of one that is sent are sent. -/
theorem reaches_mono {p q : Nat} (hLe : p ≤ q) (h : σ.Reaches q) : σ.Reaches p :=
  fun c hc => hLe.trans (h c hc)

/-- When the node joins it has no start byte. -/
theorem no_start : (join offset).node.startByte ≠ 0x0F := by
  change (0 : BitVec 8) ≠ 0x0F
  decide

/-- Every frame begins with the start byte. -/
theorem byte_frame (σ : FrameStream) (i : Nat) : σ.byte (25 * i) = 0x0F := by
  rw [byte, Nat.mul_mod_right]
  rfl

/-- What lies behind the start byte of a frame. -/
theorem decode_frame (σ : FrameStream) (i : Nat) :
    decode (fun k => ((List.range 24).map fun k => σ.byte (25 * i + 1 + k)).getD k 0) =
      (σ.frame i).msg := by
  refine decode_congr ?_
  intro k hk
  have hRange : k < 24 := by omega
  rw [List.getD_eq_getElem?_getD, List.getElem?_map, List.getElem?_range hRange, Option.map_some,
    Option.getD_some, byte, show (25 * i + 1 + k) / 25 = i by omega,
    show (25 * i + 1 + k) % 25 = k + 1 by omega]

/-- What a `read` can do. -/
theorem step_cases (h : σ.step x shutdown = some y) :
    x.shutdown = false ∧ y.shutdown = shutdown ∧
      ((x.node.startByte ≠ 0x0F ∧ y.pos = x.pos + 1 ∧ y.node.queue = x.node.queue ∧
          y.node.startByte = if shutdown then 0 else σ.byte x.pos) ∨
        (x.node.startByte = 0x0F ∧ σ.Reaches (x.pos + 24) ∧ y.pos = x.pos + 24 ∧
          y.node.startByte = 0 ∧ y.node.queue = x.node.queue ++
            [decode fun k => ((List.range 24).map fun k => σ.byte (x.pos + k)).getD k 0])) := by
  rw [step] at h
  split at h
  case isFalse => cases h
  case isTrue hOn =>
    obtain rfl := Option.some.inj h
    refine ⟨hOn.1, rfl, ?_⟩
    by_cases hStart : x.node.startByte = 0x0F
    · have hAsks : x.node.asks = 24 := if_pos hStart
      refine .inr ⟨hStart, hAsks ▸ hOn.2, by rw [hAsks], ?_⟩
      rw [hAsks, ReadSbus.onRead, if_neg (not_not.mpr hStart),
        if_neg (by rw [List.length_map, List.length_range]; omega)]
      exact ⟨rfl, rfl⟩
    · have hAsks : x.node.asks = 1 := if_neg hStart
      refine .inl ⟨hStart, by rw [hAsks], ?_⟩
      rw [hAsks, ReadSbus.onRead, if_pos hStart]
      exact ⟨rfl, rfl⟩

/-- Until it has met a start byte, the reader is anywhere; then it is at the frames. -/
structure Aligned (σ : FrameStream) (offset : Nat) (x : Reader) : Prop where
  search  : x.shutdown = false → x.node.startByte ≠ 0x0F →
    (offset ≤ x.pos ∧ ∀ q, offset ≤ q → q < x.pos → σ.byte q ≠ 0x0F) ∨ 25 ∣ x.pos
  locked  : x.node.startByte = 0x0F → σ.Reaches (x.pos + 24) → ∃ i, x.pos = 25 * i + 1
  genuine : ∀ msg ∈ x.node.queue, ∃ i, σ.Reaches (25 * (i + 1)) ∧ msg = (σ.frame i).msg

/-- Every step leaves the node at the same place in the frames. -/
theorem Aligned.step (hSync : σ.Synced offset) (hInv : Aligned σ offset x)
    (h : σ.step x shutdown = some y) : Aligned σ offset y := by
  obtain ⟨hOn, hFlag, ⟨hSearch, hPos, hQueue, hByte⟩ | ⟨hLock, hReach, hPos, hZero, hQueue⟩⟩ :=
    step_cases h
  · refine ⟨?_, ?_, hQueue ▸ hInv.genuine⟩
    · intro hRuns hNot
      obtain rfl : shutdown = false := hFlag ▸ hRuns
      rw [hByte, if_neg Bool.false_ne_true] at hNot
      rcases hInv.search hOn hSearch with ⟨hLe, hBefore⟩ | ⟨i, hFrame⟩
      · refine .inl ⟨by omega, ?_⟩
        intro q hLow hq
        rcases Nat.lt_or_ge q x.pos with hLt | hGe
        · exact hBefore q hLow hLt
        · exact (show q = x.pos by omega) ▸ hNot
      · -- the byte was the start byte of a frame
        exact absurd (hFrame ▸ byte_frame σ i) hNot
    · intro hLock hReach
      cases shutdown with
      | true =>
        rw [hByte, if_pos rfl] at hLock
        exact absurd hLock (by decide)
      | false =>
        rw [hByte, if_neg Bool.false_ne_true] at hLock
        rcases hInv.search hOn hSearch with ⟨hLe, hBefore⟩ | ⟨i, hFrame⟩
        · have hReach' : σ.Reaches (x.pos + 25) := reaches_mono (by omega) hReach
          obtain ⟨i, hFrame⟩ := hSync x.pos ⟨hLe, hLock, hBefore⟩ hReach'
          exact ⟨i, by omega⟩
        · exact ⟨i, by omega⟩
  · obtain ⟨i, hAt⟩ := hInv.locked hLock hReach
    refine ⟨fun _ _ => .inr ⟨i + 1, by omega⟩, ?_, ?_⟩
    · intro hLock
      exact absurd (hZero ▸ hLock) (by decide)
    · intro msg hMsg
      rw [hQueue, List.mem_append, List.mem_singleton] at hMsg
      rcases hMsg with hOld | rfl
      · exact hInv.genuine msg hOld
      · refine ⟨i, reaches_mono (by omega) hReach, ?_⟩
        rw [hAt, decode_frame]

/-- Up to the first start byte, the reader takes one byte after the other. -/
theorem run_to_start {n : Nat} (hReach : σ.Reaches (offset + n))
    (hBefore : ∀ q, offset ≤ q → q < offset + n → σ.byte q ≠ 0x0F) :
    ∃ x, run σ.step (join offset) (List.replicate n false) = some x ∧
      x.pos = offset + n ∧ x.shutdown = false ∧ x.node.startByte ≠ 0x0F ∧ x.node.queue = [] := by
  induction n with
  | zero => exact ⟨_, rfl, rfl, rfl, no_start, rfl⟩
  | succ n ih =>
    obtain ⟨x, hRun, hPos, hOn, hSearch, hQueue⟩ :=
      ih (reaches_mono (by omega) hReach) fun q hLow hq => hBefore q hLow (by omega)
    have hEnabled : x.shutdown = false ∧ σ.Reaches (x.pos + x.node.asks) := by
      rw [ReadSbus.asks, if_neg hSearch, hPos]
      exact ⟨hOn, hReach⟩
    obtain ⟨y, hStep⟩ : ∃ y, σ.step x false = some y := ⟨_, if_pos hEnabled⟩
    obtain ⟨-, hFlag, ⟨-, hPos', hQueue', hByte⟩ | ⟨hLock, -⟩⟩ := step_cases hStep
    · refine ⟨y, ?_, by omega, hFlag, ?_, hQueue'.trans hQueue⟩
      · rw [List.replicate_succ', run_append_eq_some]
        exact ⟨x, hRun, run_cons_eq_some.mpr ⟨y, hStep, rfl⟩⟩
      · rw [hByte, if_neg Bool.false_ne_true, hPos]
        exact hBefore _ (by omega) (by omega)
    · exact absurd hLock hSearch

/-- The first start byte is taken for one, whatever it is. -/
theorem publish_first {p : Nat} (h : σ.FirstStart offset p) (hReach : σ.Reaches (p + 25)) :
    ∃ flags x, run σ.step (join offset) flags = some x ∧ x.node.queue =
      [decode fun k => ((List.range 24).map fun k => σ.byte (p + 1 + k)).getD k 0] := by
  obtain ⟨hLe, hByte, hBefore⟩ := h
  obtain ⟨n, rfl⟩ := Nat.exists_eq_add_of_le hLe
  obtain ⟨x, hRun, hPos, hOn, hSearch, hQueue⟩ :=
    run_to_start (reaches_mono (by omega) hReach) hBefore
  have hEnabled : x.shutdown = false ∧ σ.Reaches (x.pos + x.node.asks) := by
    rw [ReadSbus.asks, if_neg hSearch, hPos]
    exact ⟨hOn, reaches_mono (by omega) hReach⟩
  obtain ⟨y, hStep⟩ : ∃ y, σ.step x false = some y := ⟨_, if_pos hEnabled⟩
  obtain ⟨-, hFlag, ⟨-, hPos', hQueue', hStart⟩ | ⟨hLock, -⟩⟩ := step_cases hStep
  · rw [if_neg Bool.false_ne_true, hPos, hByte] at hStart
    have hEnabled' : y.shutdown = false ∧ σ.Reaches (y.pos + y.node.asks) := by
      rw [ReadSbus.asks, if_pos hStart, hPos', hPos]
      exact ⟨hFlag, reaches_mono (by omega) hReach⟩
    obtain ⟨z, hStep'⟩ : ∃ z, σ.step y false = some z := ⟨_, if_pos hEnabled'⟩
    obtain ⟨-, -, ⟨hSearch', -⟩ | ⟨-, -, -, -, hPublished⟩⟩ := step_cases hStep'
    · exact absurd hStart hSearch'
    · refine ⟨List.replicate n false ++ [false, false], z, ?_, ?_⟩
      · rw [run_append_eq_some]
        exact ⟨x, hRun, run_cons_eq_some.mpr ⟨y, hStep, run_cons_eq_some.mpr ⟨z, hStep', rfl⟩⟩⟩
      · rw [hPublished, hQueue', hQueue, hPos', hPos, List.nil_append]
  · exact absurd hLock hSearch

/-- **No phantom commands.** Let the reader join the stream where the first start byte is that of a
frame. In every run, whatever it publishes is what a frame of the stream says. Elsewhere the 24
bytes behind the first start byte are published, so that it takes a coincidence. -/
theorem no_phantom (σ : FrameStream) (offset : Nat) :
    (σ.Synced offset → ∀ flags x, run σ.step (join offset) flags = some x →
      ∀ msg ∈ x.node.queue, ∃ i, σ.Reaches (25 * (i + 1)) ∧ msg = (σ.frame i).msg) ∧
    (σ.Synced offset → σ.NoPhantom offset) ∧
    (σ.NoPhantom offset → ∀ p, σ.FirstStart offset p → σ.Reaches (p + 25) →
      ∃ i, σ.Reaches (25 * (i + 1)) ∧ (decode fun k => ((List.range 24).map fun k =>
        σ.byte (p + 1 + k)).getD k 0).channel = (σ.frame i).msg.channel) := by
  have hGenuine : σ.Synced offset → ∀ flags x, run σ.step (join offset) flags = some x →
      ∀ msg ∈ x.node.queue, ∃ i, σ.Reaches (25 * (i + 1)) ∧ msg = (σ.frame i).msg := by
    intro hSync flags x hRun
    have hJoin : Aligned σ offset (join offset) :=
      ⟨fun _ _ => .inl ⟨le_rfl, fun q hLow hq => absurd hq (Nat.not_lt.mpr hLow)⟩,
        fun h => absurd h no_start, fun _ h => nomatch h⟩
    exact (inv_of_run_forall (fun _ _ _ hInv h => hInv.step hSync h) hJoin hRun).genuine
  refine ⟨hGenuine, ?_, ?_⟩
  · intro hSync flags x hRun msg hMsg
    obtain ⟨i, hReach, rfl⟩ := hGenuine hSync flags x hRun msg hMsg
    exact ⟨i, hReach, rfl⟩
  · intro hNone p hFirst hReach
    obtain ⟨flags, x, hRun, hQueue⟩ := publish_first hFirst hReach
    exact hNone flags x hRun _ (hQueue ▸ List.mem_singleton_self _)

/-- The same frame for ever, with the value of the start byte in its first channel. -/
def shifted : FrameStream where
  frame _ := { payload := fun k => if k = 0 then 0x0F else 0, flags := 0 }

/-- The reader misses the start byte and takes the next one. It publishes zeros, and the first
channel of the frame is 15. -/
theorem no_phantom_fails : ¬ ∀ (σ : FrameStream) (offset : Nat), σ.NoPhantom offset := by
  intro hNone
  have hFirst : shifted.FirstStart 1 1 := ⟨le_rfl, by decide, fun q hLow hq => by omega⟩
  obtain ⟨flags, x, hRun, hQueue⟩ := publish_first hFirst fun c hc => nomatch hc
  obtain ⟨i, -, hChannel⟩ := hNone shifted 1 flags x hRun _ (hQueue ▸ List.mem_singleton_self _)
  change _ = (shifted.frame 0).msg.channel at hChannel
  exact absurd hChannel (by decide)

/-- The stream is joined at a frame. -/
theorem no_phantom_shifted : shifted.NoPhantom 25 := by
  refine (no_phantom shifted 25).2.1 ?_
  intro p hFirst _
  rcases Nat.eq_or_lt_of_le hFirst.1 with rfl | hLt
  · exact ⟨1, rfl⟩
  · exact absurd (byte_frame shifted 1) (hFirst.2.2 25 le_rfl hLt)

end FrameStream

end Sailbot.Sensor

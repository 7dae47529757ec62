import Sailbot.Can.Buffer

/-!
# Fast packets

A long PGN arrives as a fast packet: the payload cut into six bytes for the first
frame and up to seven for each other one, with the number of the frame and a
sequence id in the first byte. The end-of-message test compares eight times the
number of bytes so far with the size of the message in bytes.

* `fastPackets` — the frames of a payload, from the format of the bus.
* `fastPacket_atEnd` — which of them pass the test.
* `fast_packet_decoded_early` — a fast packet that arrives complete and in order
  is decoded before its last frame.
-/

namespace Sailbot.Can

open Lib

variable {D : Type} (A : Arith D)

-- ---------------------------------------------------------------------------
-- A fast packet that arrives in order
-- ---------------------------------------------------------------------------

/-- The header of frame `i`: the index and sequence byte and, in front of the
first frame's payload, the length. -/
def packetHeader (i : Nat) : Nat := if i = 0 then 2 else 1

/-- The position in the payload at which frame `i` starts. -/
def packetStart (i : Nat) : Nat := 7 * i - 1

/-- The number of payload bytes in frame `i`. -/
def packetChunk (size i : Nat) : Nat := min (8 - packetHeader i) (size - packetStart i)

/-- Frame `i` of the fast packet for `payload`, with anything in the bytes that
are not used. -/
def fastPacket (canId : BitVec 32) (seq : BitVec 3) (payload : List (BitVec 8)) (fill : BitVec 8)
    (i : Nat) : CanFrame where
  canId := canId
  canDlc := packetHeader i + packetChunk payload.length i
  data := Vector.ofFn fun k =>
    if k.val = 0 then seq ++ BitVec.ofNat 5 i
    else if k.val < packetHeader i then BitVec.ofNat 8 payload.length
    else if k.val < packetHeader i + packetChunk payload.length i then
      payload.getD (packetStart i + (k.val - packetHeader i)) 0
    else fill
  dlc_le := by
    unfold packetChunk packetHeader
    split <;> omega

/-- All frames of the fast packet: six bytes in the first one and up to seven in
each other. -/
def fastPackets (canId : BitVec 32) (seq : BitVec 3) (payload : List (BitVec 8))
    (fill : BitVec 8) : List CanFrame :=
  (List.range (payload.length / 7 + 1)).map (fastPacket canId seq payload fill)

/-- The frames `fs` make the node call `DecodeAndSend` once, on the last of them,
with the payload in the buffer of `p`. -/
def PublishedOnce (s : CanNode D) (p : Pgn) (payload : List (BitVec 8)) (fs : List CanFrame) :
    Prop :=
  ∃ t s' c, run (iterate A) s fs.dropLast = some t ∧ t.calls = s.calls ∧
    run (iterate A) s fs = some s' ∧ s'.calls = s.calls ++ [c] ∧ c.msg.pgn = p ∧
    ∀ i < p.size, some (c.msg.payload i) = payload[i]?

theorem fastPacket_index (canId : BitVec 32) (seq : BitVec 3) (payload : List (BitVec 8))
    (fill : BitVec 8) {i : Nat} (hi : i < 32) :
    (fastPacket canId seq payload fill i).index = i := by
  have hLow : ∀ x : BitVec 5, ((seq ++ x : BitVec 8) &&& 0x1F) = x.setWidth 8 := by
    revert seq
    decide
  rw [CanFrame.index]
  simp only [fastPacket, Vector.getElem_ofFn, if_true]
  rw [hLow, BitVec.toNat_setWidth, BitVec.toNat_ofNat]
  omega

/-- A frame that is not the last one is full; from frame `(size + 7) / 56` on it
passes the end-of-message test. -/
theorem fastPacket_atEnd {p : Pgn} (hLong : 8 < p.size) (canId : BitVec 32) (seq : BitVec 3)
    {payload : List (BitVec 8)} (hPayload : payload.length = p.size) (fill : BitVec 8) {i : Nat}
    (hi : i < 32) (hNotLast : i < p.size / 7) (hTest : p.size ≤ 8 * (7 * i + 6)) :
    atEnd p (fastPacket canId seq payload fill i) = true := by
  have hIsLong : p.isLong = true := decide_eq_true hLong
  have hIndex := fastPacket_index canId seq payload fill hi
  have hHeader : (fastPacket canId seq payload fill i).headerBytes = packetHeader i := by
    rw [CanFrame.headerBytes, hIndex, packetHeader]
  have hDlc : (fastPacket canId seq payload fill i).canDlc =
      packetHeader i + packetChunk p.size i := by rw [← hPayload]; rfl
  have hFull : packetChunk p.size i = 8 - packetHeader i := by
    unfold packetChunk packetStart
    omega
  rw [atEnd, hIsLong, header_long_dataStart, header_long_dlc (by omega), hIndex, hHeader, hDlc,
    hFull]
  unfold packetHeader
  simp only [Bool.not_true, Bool.false_or, decide_eq_true_eq, ge_iff_le]
  split <;> omega

/--
**A fast packet is not published once and whole.** Whatever the buffer holds
before, when the frames of a message of a long PGN arrive complete and in order,
the node does not call `DecodeAndSend` exactly once on the last of them: frame
`(size + 7) / 56` already passes the end-of-message test.
-/
theorem fast_packet_decoded_early {p : Pgn} (hp : p ∈ pgnList) (hLong : 8 < p.size)
    (s : CanNode D) {canId : BitVec 32} (hId : getPGN (retrieveID canId) = p.pgn)
    (seq : BitVec 3) {payload : List (BitVec 8)} (hPayload : payload.length = p.size)
    (fill : BitVec 8) :
    ¬ PublishedOnce A s p payload (fastPackets canId seq payload fill) := by
  rintro ⟨t, s', c, hrun, hSame, hAll, hCalls, -⟩
  have hPgn : ∀ f ∈ fastPackets canId seq payload fill, f.pgn = p.pgn := by
    intro f hf
    obtain ⟨i, -, rfl⟩ := List.mem_map.mp hf
    exact hId
  cases hMsg : s.msgs p.pgn with
  | none =>
    -- the node does not listen to this PGN at all
    rw [run_unknown A hMsg hPgn, Option.some.injEq] at hAll
    rw [← hAll] at hCalls
    exact absurd (congrArg List.length hCalls) (by simp)
  | some m =>
    have hSize : p.size < 256 := by
      have hTable : ∀ q ∈ pgnList, q.size < 256 := by decide
      exact hTable p hp
    set j := (p.size + 7) / 56 with hj
    have hEarly : j < p.size / 7 := by omega
    have hMem : fastPacket canId seq payload fill j ∈
        (fastPackets canId seq payload fill).dropLast := by
      rw [fastPackets, hPayload, List.range_succ, List.map_append, List.map_singleton,
        List.dropLast_concat]
      exact List.mem_map_of_mem (List.mem_range.mpr hEarly)
    obtain ⟨pre, post, hSplit⟩ := List.append_of_mem hMem
    rw [hSplit] at hrun
    obtain ⟨u, hpre, hrest⟩ := run_append_eq_some.mp hrun
    obtain ⟨v, hstep, hpost⟩ := run_cons_eq_some.mp hrest
    -- the early frame adds a call, and calls are never taken back
    have hKnown : (u.msgs p.pgn).isSome := by
      rw [msgs_isSome_run A hpre, hMsg]
      rfl
    have hTest := fastPacket_atEnd hLong canId seq hPayload fill (i := j) (by omega) hEarly
      (by omega)
    have hBefore := (calls_mono A hpre).length_le
    have hAfter := (calls_mono A hpost).length_le
    rw [hSame] at hAfter
    obtain ⟨-, m', -, -, -, rfl⟩ := iterate_atEnd A hp hKnown
      (hPgn _ (List.dropLast_subset _ hMem)) hTest hstep
    rw [CanNode.decoded_calls, List.length_append, List.length_singleton] at hAfter
    omega

/-- The GNSS position is the last entry of the table. -/
theorem gnss_mem : ∃ p ∈ pgnList, p.pgn = 129029 ∧ p.size = 51 :=
  ⟨_, List.getLast_mem (l := pgnList) (by decide), rfl, rfl⟩

/-- The eight frames of a GNSS position with all bytes zero. -/
theorem fast_packet_decoded_early_gnss :
    ∃ p ∈ pgnList, 8 < p.size ∧ ¬ PublishedOnce Arith.exact (CanNode.init ℚ) p
      (List.replicate 51 0) (fastPackets 0x95F80515 3 (List.replicate 51 0) 0xFF) := by
  obtain ⟨p, hp, hPgn, hSize⟩ := gnss_mem
  refine ⟨p, hp, by omega, fast_packet_decoded_early Arith.exact hp (by omega) (CanNode.init ℚ)
    ?_ 3 ?_ 0xFF⟩
  · rw [hPgn]
    decide
  · rw [hSize]
    decide

/-- These frames make seven calls: the first one already after the second frame,
with only thirteen bytes received. -/
theorem fast_packet_decoded_seven_times :
    (run (iterate Arith.exact) (CanNode.init ℚ)
      (fastPackets 0x95F80515 3 (List.replicate 51 1) 0xFF)).map (fun s =>
        s.calls.map fun c => (c.msg.frames.length, (c.msg.payload 50))) =
      some [(2, 0), (3, 0), (4, 0), (5, 0), (6, 0), (7, 0), (8, 1)] ∧
    ∀ p, ¬ PublishedOnce Arith.exact (CanNode.init ℚ) p (List.replicate 51 1)
      (fastPackets 0x95F80515 3 (List.replicate 51 1) 0xFF) := by
  have hCalls : (run (iterate Arith.exact) (CanNode.init ℚ)
      (fastPackets 0x95F80515 3 (List.replicate 51 1) 0xFF)).map (fun s =>
        s.calls.map fun c => (c.msg.frames.length, (c.msg.payload 50))) =
      some [(2, 0), (3, 0), (4, 0), (5, 0), (6, 0), (7, 0), (8, 1)] := by decide +kernel
  refine ⟨hCalls, ?_⟩
  rintro p ⟨t, s', c, -, -, hAll, hOnce, -⟩
  rw [hAll, Option.map_some, Option.some.injEq, hOnce] at hCalls
  exact absurd (congrArg List.length hCalls) (by simp [CanNode.init])

end Sailbot.Can

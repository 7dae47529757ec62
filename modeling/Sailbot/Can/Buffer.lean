import Sailbot.Can.Node

/-!
# Frames and the reassembly buffer

The position of a frame in the buffer comes from the five index bits of its first
byte alone, and the number of bytes to copy from `can_dlc`, which is decremented
once or twice without a test.

* `header_long_dlc`, `header_long_wraps` — the remaining length of a frame with
  and without a complete header.
* `merge_isSome_iff`, `iterate_isSome_iff` — exactly which frames are merged
  without leaving the buffer.
* `stays_in_buffer_iff` — the same for every run.
* `calls_mono`, `msgs_isSome_run` — what never changes in a run.
* `fitsBuffer_of_run` — the frames of a run that goes through.
-/

namespace Sailbot.Can

open Lib

variable {D : Type} (A : Arith D)

-- ---------------------------------------------------------------------------
-- Frame headers
-- ---------------------------------------------------------------------------

/-- The bytes of a fast packet frame in front of its payload. -/
def CanFrame.headerBytes (f : CanFrame) : Nat := if f.index = 0 then 2 else 1

/-- The position in the message at which the payload of a fast packet frame ends. -/
def CanFrame.payloadEnd (f : CanFrame) : Nat := 7 * f.index - 1 + (f.canDlc - f.headerBytes)

/-- Less one, without wrapping. -/
theorem predSize_of_pos {n : Nat} (h : 0 < n) (hn : n ≤ 8) : predSize n = n - 1 := by
  rw [predSize]
  omega

/-- The header of a PGN of one frame. -/
theorem header_short {f : CanFrame} : header false f = ⟨0, f.canDlc, 0⟩ := rfl

/-- Where the bytes of a frame belong. -/
theorem header_long_dataStart (f : CanFrame) :
    (header true f).dataStart = 7 * f.index - 1 := by
  simp only [header, if_true]
  split <;> simp only <;> omega

/-- The first frame has a header of two bytes, the others of one. -/
theorem header_long_offset (f : CanFrame) : (header true f).offset = f.headerBytes := by
  simp only [header, if_true, CanFrame.headerBytes]
  split <;> rfl

/-- What a frame has behind its header. -/
theorem header_long_dlc {f : CanFrame} (h : f.headerBytes ≤ f.canDlc) :
    (header true f).dlc = f.canDlc - f.headerBytes := by
  have hDlc := f.dlc_le
  simp only [header, if_true]
  unfold CanFrame.headerBytes at h ⊢
  split
  · next hIndex =>
    rw [if_pos hIndex] at h
    rw [predSize_of_pos (by omega) hDlc, predSize_of_pos (by omega) (by omega)]
    exact Nat.sub_sub f.canDlc 1 1
  · next hIndex =>
    rw [if_neg hIndex] at h
    rw [predSize_of_pos (by omega) hDlc]

/-- A frame without a complete header makes the remaining length wrap around. -/
theorem header_long_wraps {f : CanFrame} (h : f.canDlc < f.headerBytes) :
    2 ^ 64 - 2 ≤ (header true f).dlc := by
  simp only [header, if_true]
  unfold CanFrame.headerBytes at h
  split
  · next hIndex =>
    rw [if_pos hIndex] at h
    simp only [predSize]
    omega
  · next hIndex =>
    rw [if_neg hIndex] at h
    simp only [predSize]
    omega

/-- The remaining length is right exactly for a frame with its whole header. -/
theorem header_offset_add_dlc (isLong : Bool) (f : CanFrame) :
    (header isLong f).offset + (header isLong f).dlc = f.canDlc ↔
      (isLong = true → f.headerBytes ≤ f.canDlc) := by
  have hDlc := f.dlc_le
  cases isLong with
  | false => simp [header_short]
  | true =>
    rw [header_long_offset]
    by_cases hHeader : f.headerBytes ≤ f.canDlc
    · rw [header_long_dlc hHeader]
      exact ⟨fun _ _ => hHeader, fun _ => by omega⟩
    · have hWrap := header_long_wraps (Nat.lt_of_not_le hHeader)
      exact ⟨fun h => absurd h (by omega), fun h => absurd (h rfl) hHeader⟩

-- ---------------------------------------------------------------------------
-- Inside the buffer
-- ---------------------------------------------------------------------------

/-- The remaining length is what `can_dlc` leaves behind the header, so that no
decrement has underflowed, and every index written is one of the buffer. -/
def WritesSafely (p : Pgn) (f : CanFrame) : Prop :=
  (header p.isLong f).offset + (header p.isLong f).dlc = f.canDlc ∧
  ∀ i < (header p.isLong f).dlc, (header p.isLong f).dataStart + i < p.bufferSize

/-- The frame has its whole header, and its payload, if any, ends inside the
buffer. -/
def FitsBuffer (p : Pgn) (f : CanFrame) : Prop :=
  p.isLong = false ∨
    f.headerBytes ≤ f.canDlc ∧ (f.canDlc = f.headerBytes ∨ f.payloadEnd ≤ p.bufferSize)

/-- The loop stays in the buffers, if and only if the frame fits. -/
theorem writesSafely_iff_fitsBuffer (p : Pgn) (f : CanFrame) :
    WritesSafely p f ↔ FitsBuffer p f := by
  have hDlc := f.dlc_le
  rw [WritesSafely, FitsBuffer, header_offset_add_dlc, CanFrame.payloadEnd]
  cases hLong : p.isLong with
  | false =>
    rw [header_short, Pgn.bufferSize]
    simp only [Bool.false_eq_true, false_implies, true_and, true_or, iff_true]
    intro i hi
    omega
  | true =>
    simp only [true_implies, Bool.true_eq_false, false_or, header_long_dataStart]
    refine and_congr_right ?_
    intro hHeader
    rw [header_long_dlc hHeader]
    constructor
    · intro h
      by_cases hEmpty : f.canDlc = f.headerBytes
      · exact .inl hEmpty
      · have hLast := h (f.canDlc - f.headerBytes - 1) (by omega)
        exact .inr (by omega)
    · intro h i hi
      omega

/-- A message takes a frame without leaving its buffer exactly when the frame
fits. -/
theorem merge_isSome_iff {m : CANMessage D} {f : CanFrame} :
    (m.merge f).isSome ↔ FitsBuffer m.pgn f := by
  have hDlc := f.dlc_le
  rw [← writesSafely_iff_fitsBuffer, Option.isSome_iff_exists]
  constructor
  · rintro ⟨m', h⟩
    obtain ⟨-, -, -, -, hCells, -⟩ := CANMessage.merge_eq_some h
    refine ⟨(header_offset_add_dlc ..).mpr fun hLong => ?_, fun i hi => (hCells i hi).1⟩
    -- with a wrapped length the copy would read behind the end of the frame
    by_contra hHeader
    rw [hLong] at hCells
    have hWrap := header_long_wraps (Nat.lt_of_not_le hHeader)
    obtain ⟨-, b, hb, -⟩ := hCells 8 (by omega)
    rw [Vector.getElem?_eq_none (by omega)] at hb
    cases hb
  · rintro ⟨hLength, hWrites⟩
    exact CANMessage.merge_isSome hWrites (hLength.trans_le hDlc)

/-- The frame is merged safely in this state of the node. -/
def CanNode.Safe (s : CanNode D) (f : CanFrame) : Prop :=
  ∀ m, s.msgs f.pgn = some m → WritesSafely m.pgn f

/-- The frame fits into the buffer of its PGN, if it has one. -/
def CanNode.Fits (s : CanNode D) (f : CanFrame) : Prop :=
  ∀ m, s.msgs f.pgn = some m → FitsBuffer m.pgn f

/-- So for every frame of a node. -/
theorem CanNode.safe_iff_fits (s : CanNode D) (f : CanFrame) : s.Safe f ↔ s.Fits f :=
  forall_congr' fun m => imp_congr_right fun _ => writesSafely_iff_fitsBuffer m.pgn f

/-- A frame has a result, if and only if it fits. -/
theorem iterate_isSome_iff {s : CanNode D} {f : CanFrame} :
    (iterate A s f).isSome ↔ s.Fits f := by
  unfold iterate CanNode.Fits
  cases hMsg : s.msgs f.pgn with
  | none => simp
  | some m =>
    simp only [Option.some.injEq, forall_eq']
    rw [← merge_isSome_iff]
    cases m.merge f with
    | none => simp
    | some m' =>
      simp only [Option.isSome_some, iff_true]
      split <;> rfl

/--
**Received frames stay in the buffer, exactly.** In every run of the node, no
step underflows the remaining length or writes outside `data_` if and only if
every frame of a long PGN that arrives has its whole header and ends inside the
buffer; and these are the runs that the code gets through without undefined
behaviour.
-/
theorem stays_in_buffer_iff (fs : List CanFrame) :
    (Along (iterate A) CanNode.Safe (CanNode.init D) fs ↔
      Along (iterate A) CanNode.Fits (CanNode.init D) fs) ∧
    (Along (iterate A) CanNode.Fits (CanNode.init D) fs ↔
      (run (iterate A) (CanNode.init D) fs).isSome) := by
  constructor
  · exact along_congr CanNode.safe_iff_fits
  · rw [run_isSome_iff]
    exact along_congr fun s f => (iterate_isSome_iff A).symm

/-- Two frames of the GNSS position on a fresh node: one with index 31, whose
payload starts at byte 216 of a buffer of 56, and one without any byte, whose
remaining length underflows. -/
theorem frame_leaves_buffer :
    let late : CanFrame := ⟨0x95F80515, 8, #v[0x1F, 1, 2, 3, 4, 5, 6, 7], by decide⟩
    let empty : CanFrame := ⟨0x95F80515, 0, #v[0x01, 0, 0, 0, 0, 0, 0, 0], by decide⟩
    ¬ Along (iterate Arith.exact) CanNode.Safe (CanNode.init ℚ) [late] ∧
    ¬ Along (iterate Arith.exact) CanNode.Safe (CanNode.init ℚ) [empty] := by
  intro late empty
  have hLate : (iterate Arith.exact (CanNode.init ℚ) late).isSome = false := by decide +kernel
  have hEmpty : (iterate Arith.exact (CanNode.init ℚ) empty).isSome = false := by decide +kernel
  constructor
  · rintro ⟨hSafe, -⟩
    rw [CanNode.safe_iff_fits, ← iterate_isSome_iff Arith.exact, hLate] at hSafe
    cases hSafe
  · rintro ⟨hSafe, -⟩
    rw [CanNode.safe_iff_fits, ← iterate_isSome_iff Arith.exact, hEmpty] at hSafe
    cases hSafe

-- ---------------------------------------------------------------------------
-- What a run does to the messages and calls
-- ---------------------------------------------------------------------------

/-- A step adds at most one call. -/
theorem calls_step {s s' : CanNode D} {f : CanFrame} (h : iterate A s f = some s') :
    s.calls <+: s'.calls := by
  obtain ⟨-, rfl⟩ | ⟨m, m', -, -, ⟨-, rfl⟩ | ⟨-, rfl⟩⟩ := iterate_cases A h
  · exact List.prefix_refl _
  · exact List.prefix_refl _
  · rw [CanNode.decoded_calls]
    exact List.prefix_append ..

/-- Calls that were made stay. -/
theorem calls_mono {s s' : CanNode D} {fs : List CanFrame}
    (h : run (iterate A) s fs = some s') : s.calls <+: s'.calls :=
  rel_of_run (R := fun s s' => s.calls <+: s'.calls) (fun _ => List.prefix_refl _)
    (fun _ _ _ => List.IsPrefix.trans) (fun _ _ _ => calls_step A) h

/-- The set of PGNs that the node listens to does not change. -/
theorem msgs_isSome_run {s s' : CanNode D} {fs : List CanFrame}
    (h : run (iterate A) s fs = some s') (k : Nat) :
    (s'.msgs k).isSome = (s.msgs k).isSome := by
  refine rel_of_run (R := fun s s' : CanNode D => (s'.msgs k).isSome = (s.msgs k).isSome)
    (fun _ => rfl) (fun _ _ _ h1 h2 => h2.trans h1) (fun s f s' hstep => ?_) h
  have hSet : ∀ m m' : CANMessage D, s.msgs f.pgn = some m → m'.pgn = m.pgn →
      ((s.setMsg m').msgs k).isSome = (s.msgs k).isSome := by
    intro m m' hMsg hPgn
    by_cases hk : k = m'.pgn.pgn
    · rw [hk, CanNode.setMsg_self, hPgn, s.msgs_pgn _ _ hMsg, hMsg]
      rfl
    · rw [s.setMsg_of_ne hk]
  obtain ⟨-, rfl⟩ | ⟨m, m', hMsg, hMerge, hCase⟩ := iterate_cases A hstep
  · rfl
  · have hPgn := (CANMessage.merge_eq_some hMerge).1
    obtain ⟨-, rfl⟩ | ⟨-, rfl⟩ := hCase
    · exact hSet m m' hMsg hPgn
    · exact hSet m { m' with store := decodeAndSend A m' } hMsg hPgn

/-- The message that a node has for an entry of the table is one for that entry. -/
theorem CanNode.msgs_eq (s : CanNode D) {p : Pgn} (hp : p ∈ pgnList) {m : CANMessage D}
    (h : s.msgs p.pgn = some m) : m.pgn = p :=
  pgn_injective m.pgn_mem hp (s.msgs_pgn _ _ h)

/-- A frame that passes the end-of-message test is merged and its message decoded. -/
theorem iterate_atEnd {p : Pgn} (hp : p ∈ pgnList) {s s' : CanNode D}
    (hKnown : (s.msgs p.pgn).isSome) {f : CanFrame} (hf : f.pgn = p.pgn)
    (hTest : atEnd p f = true) (h : iterate A s f = some s') :
    ∃ m m', s.msgs p.pgn = some m ∧ m.pgn = p ∧ m.merge f = some m' ∧ s' = s.decoded A m' := by
  obtain ⟨hNone, -⟩ | ⟨m, m', hMsg, hMerge, hCase⟩ := iterate_cases A h
  · rw [← hf, hNone] at hKnown
    cases hKnown
  · rw [hf] at hMsg
    have hmp := s.msgs_eq hp hMsg
    obtain ⟨hNotEnd, -⟩ | ⟨-, hDecoded⟩ := hCase
    · rw [hmp, hTest] at hNotEnd
      cases hNotEnd
    · exact ⟨m, m', hMsg, hmp, hMerge, hDecoded⟩

/-- In a run that goes through, every frame of a PGN that the node listens to
fits into its buffer. -/
theorem fitsBuffer_of_run {p : Pgn} (hp : p ∈ pgnList) {s s' : CanNode D}
    (hKnown : (s.msgs p.pgn).isSome) {fs : List CanFrame}
    (hrun : run (iterate A) s fs = some s') {f : CanFrame} (hf : f ∈ fs)
    (hPgn : f.pgn = p.pgn) : FitsBuffer p f := by
  obtain ⟨pre, post, rfl⟩ := List.append_of_mem hf
  obtain ⟨t, hpre, hrest⟩ := run_append_eq_some.mp hrun
  obtain ⟨t', hstep, -⟩ := run_cons_eq_some.mp hrest
  rw [← msgs_isSome_run A hpre] at hKnown
  obtain ⟨m, hMsg⟩ := Option.isSome_iff_exists.mp hKnown
  have hFits : t.Fits f := (iterate_isSome_iff A).mp (by rw [hstep]; rfl)
  rw [← t.msgs_eq hp hMsg]
  exact hFits m (hPgn ▸ hMsg)

/-- Frames of a PGN that the node does not listen to change nothing. -/
theorem run_unknown {s : CanNode D} {k : Nat} (hNone : s.msgs k = none) {fs : List CanFrame}
    (hPgn : ∀ f ∈ fs, f.pgn = k) : run (iterate A) s fs = some s := by
  induction fs with
  | nil => rfl
  | cons f fs ih =>
    have hStep : iterate A s f = some s := by
      rw [iterate, hPgn f (List.mem_cons_self ..), hNone]
    rw [run_cons, hStep, Option.bind_some]
    exact ih fun g hg => hPgn g (List.mem_cons_of_mem _ hg)

end Sailbot.Can

import Sailbot.Can.FastPacket

/-!
# Where the bytes of a message come from

One buffer for each PGN takes the bytes of all its frames. A frame with another
sequence id than the last frame 0 is logged and merged all the same, and a frame
0 clears nothing.

* `originOk_of_run` — the history variable that says which frame has written a
  byte is right in every run.
* `OneSequence`     — all bytes of a message come from frames of one sequence id.
* `one_sequence_iff` — a run hands over nothing but such messages exactly when no
  frame gets as far as the end-of-message test, so that it hands over nothing.
-/

namespace Sailbot.Can

open Lib

variable {D : Type} (A : Arith D)

-- ---------------------------------------------------------------------------
-- Bytes of one sequence id
-- ---------------------------------------------------------------------------

/-- The cells of a message are what their history variable says: a cell with
origin `j` holds the byte that frame `j` has for this position. -/
def OriginOk (m : CANMessage D) : Prop :=
  ∀ i j, (m.data i).origin = some j → ∃ f, m.frames[j]? = some f ∧
    ∃ k < (header m.pgn.isLong f).dlc, i = (header m.pgn.isLong f).dataStart + k ∧
      f.data[(header m.pgn.isLong f).offset + k]? = some (m.data i).byte

/-- A frame that is merged belongs to the sequence that it names. -/
theorem originOk_merge {m m' : CANMessage D} {f : CanFrame} (hm : OriginOk m)
    (h : m.merge f = some m') : OriginOk m' := by
  obtain ⟨hPgn, -, -, hFrames, hCells, hRest⟩ := CANMessage.merge_eq_some h
  intro i j hOrigin
  rw [hPgn, hFrames]
  set H := header m.pgn.isLong f with hH
  by_cases hIn : H.dataStart ≤ i ∧ i < H.dataStart + H.dlc
  · -- the cell is one that the frame has just written
    obtain ⟨-, b, hb, hCell⟩ := hCells (i - H.dataStart) (by omega)
    rw [show H.dataStart + (i - H.dataStart) = i by omega] at hCell
    rw [hCell] at hOrigin ⊢
    obtain rfl : m.frames.length = j := by simpa using hOrigin
    refine ⟨f, List.getElem?_concat_length .., i - H.dataStart, ?_, ?_, hb⟩
    · rw [← hH]
      omega
    · rw [← hH]
      omega
  · rw [hRest i (by omega)] at hOrigin ⊢
    obtain ⟨g, hg, hSource⟩ := hm i j hOrigin
    refine ⟨g, ?_, hSource⟩
    rw [List.getElem?_append_left (List.getElem?_eq_some_iff.mp hg).1]
    exact hg

/-- **The history variables are right** in every call of every run. -/
theorem originOk_of_run {fs : List CanFrame} {s : CanNode D}
    (hrun : run (iterate A) (CanNode.init D) fs = some s) : ∀ c ∈ s.calls, OriginOk c.msg := by
  have hInv : (∀ c ∈ s.calls, OriginOk c.msg) ∧ ∀ k m, s.msgs k = some m → OriginOk m := by
    refine inv_of_run_forall (I := fun s : CanNode D => (∀ c ∈ s.calls, OriginOk c.msg) ∧
      ∀ k m, s.msgs k = some m → OriginOk m) ?_ ⟨?_, ?_⟩ hrun
    · rintro s f s' ⟨hCalls, hMsgs⟩ hstep
      obtain ⟨-, rfl⟩ | ⟨m, m', hMsg, hMerge, hCase⟩ := iterate_cases A hstep
      · exact ⟨hCalls, hMsgs⟩
      · have hm' := originOk_merge (hMsgs _ _ hMsg) hMerge
        -- the store plays no part in the origins
        have hSet : ∀ m₁ : CANMessage D, OriginOk m₁ → ∀ k m₂,
            (s.setMsg m₁).msgs k = some m₂ → OriginOk m₂ := by
          intro m₁ h₁ k m₂ h₂
          by_cases hk : k = m₁.pgn.pgn
          · rw [hk, CanNode.setMsg_self, Option.some.injEq] at h₂
            exact h₂ ▸ h₁
          · rw [s.setMsg_of_ne hk] at h₂
            exact hMsgs k m₂ h₂
        obtain ⟨-, rfl⟩ | ⟨-, rfl⟩ := hCase
        · exact ⟨hCalls, hSet m' hm'⟩
        · refine ⟨fun c hc => ?_, hSet { m' with store := decodeAndSend A m' } hm'⟩
          rcases List.mem_append.mp hc with hc | hc
          · exact hCalls c hc
          · rw [List.mem_singleton.mp hc]
            exact hm'
    · exact fun c hc => absurd hc List.not_mem_nil
    · intro k m hm i j hOrigin
      rw [(CanNode.init_msgs hm).2.2] at hOrigin
      cases hOrigin
  exact hInv.1

/-- Every byte of the message that was handed over comes from a frame with the
same sequence id as a frame 0, the latest one of that id, and has arrived since
that frame. -/
def OneSequence (c : Call D) : Prop :=
  ∃ z f₀, c.msg.frames[z]? = some f₀ ∧ f₀.index = 0 ∧
    (∀ j f, z < j → c.msg.frames[j]? = some f → f.index = 0 → f.base ≠ f₀.base) ∧
    ∀ i < c.msg.pgn.size, ∃ j f, (c.msg.data i).origin = some j ∧ z ≤ j ∧
      c.msg.frames[j]? = some f ∧ f.base = f₀.base

/-- As long as no frame of `p` passes the end-of-message test: nothing was handed
over, and only the first eighth of the message can have been received. -/
structure Incomplete (p : Pgn) (s : CanNode D) : Prop where
  calls  : ∀ c ∈ s.calls, c.msg.pgn ≠ p
  origin : ∀ m, s.msgs p.pgn = some m → ∀ i, (m.data i).origin ≠ none → 8 * (i + 1) < p.size

/-- At the start no message is complete. -/
theorem incomplete_init (p : Pgn) : Incomplete p (CanNode.init D) := by
  refine ⟨fun c hc => absurd hc List.not_mem_nil, ?_⟩
  intro m hm i hi
  rw [(CanNode.init_msgs hm).2.2] at hi
  exact absurd rfl hi

/-- What the end-of-message test says about a frame of a long PGN. -/
theorem atEnd_eq_false {p : Pgn} (hLong : 8 < p.size) {f : CanFrame} :
    atEnd p f = false ↔ 8 * ((header true f).dataStart + (header true f).dlc) < p.size := by
  have hIsLong : p.isLong = true := decide_eq_true hLong
  rw [atEnd, hIsLong]
  simp

/-- The same in terms of what is in the frame, for one with its whole header. -/
theorem atEnd_eq_false_iff_payloadEnd {p : Pgn} (hLong : 8 < p.size) {f : CanFrame}
    (hFits : FitsBuffer p f) : atEnd p f = false ↔ 8 * f.payloadEnd < p.size := by
  have hIsLong : p.isLong = true := decide_eq_true hLong
  rcases hFits with hShort | ⟨hHeader, -⟩
  · rw [hIsLong] at hShort
    cases hShort
  · rw [atEnd_eq_false hLong, header_long_dataStart, header_long_dlc hHeader,
      CanFrame.payloadEnd]

/-- A frame that does not end its PGN leaves it incomplete. -/
theorem incomplete_step {p : Pgn} (hp : p ∈ pgnList) (hLong : 8 < p.size) {s s' : CanNode D}
    {f : CanFrame} (hs : Incomplete p s) (hTest : f.pgn = p.pgn → atEnd p f = false)
    (h : iterate A s f = some s') : Incomplete p s' := by
  have hIsLong : p.isLong = true := decide_eq_true hLong
  obtain ⟨-, rfl⟩ | ⟨m, m', hMsg, hMerge, hCase⟩ := iterate_cases A h
  · exact hs
  · obtain ⟨hPgn, -, -, -, -, hRest⟩ := CANMessage.merge_eq_some hMerge
    have hKey := s.msgs_pgn _ _ hMsg
    by_cases hf : f.pgn = p.pgn
    · rw [hf] at hMsg
      have hmp := s.msgs_eq hp hMsg
      rw [hmp] at hPgn hCase hRest
      obtain ⟨-, rfl⟩ | ⟨hEnd, -⟩ := hCase
      · refine ⟨hs.calls, ?_⟩
        intro m₁ hm₁ i hi
        rw [← hPgn, CanNode.setMsg_self, Option.some.injEq] at hm₁
        subst hm₁
        rw [hIsLong] at hRest
        have hBefore := (atEnd_eq_false hLong).mp (hTest hf)
        by_cases hOld : i < (header true f).dataStart ∨
            (header true f).dataStart + (header true f).dlc ≤ i
        · rw [hRest i hOld] at hi
          exact hs.origin m hMsg i hi
        · omega
      · rw [hTest hf] at hEnd
        cases hEnd
    · -- a frame of another PGN
      have hOther : p.pgn ≠ m'.pgn.pgn := by
        rw [hPgn, hKey]
        exact Ne.symm hf
      obtain ⟨-, rfl⟩ | ⟨-, rfl⟩ := hCase
      · refine ⟨hs.calls, fun m₁ hm₁ => hs.origin m₁ ?_⟩
        rw [s.setMsg_of_ne hOther] at hm₁
        exact hm₁
      · refine ⟨?_, fun m₁ hm₁ => hs.origin m₁ ?_⟩
        · intro c hc
          rcases List.mem_append.mp hc with hc | hc
          · exact hs.calls c hc
          · rw [List.mem_singleton.mp hc]
            exact fun hEq => hOther (by rw [← hEq])
        · rw [s.decoded_of_ne A hOther] at hm₁
          exact hm₁

/-- The first frame that passes the test hands over a message most of which was
never received. -/
theorem not_oneSequence_of_incomplete {p : Pgn} (hp : p ∈ pgnList) (hLong : 8 < p.size)
    {s s' : CanNode D} {f : CanFrame} (hs : Incomplete p s) (hKnown : (s.msgs p.pgn).isSome)
    (hf : f.pgn = p.pgn) (hTest : atEnd p f = true) (h : iterate A s f = some s') :
    ∃ c ∈ s'.calls, c.msg.pgn = p ∧ ¬ OneSequence c := by
  have hIsLong : p.isLong = true := decide_eq_true hLong
  obtain ⟨m, m', hMsg, hmp, hMerge, rfl⟩ := iterate_atEnd A hp hKnown hf hTest h
  obtain ⟨hPgn, -, -, -, -, hRest⟩ := CANMessage.merge_eq_some hMerge
  have hFits : FitsBuffer m.pgn f := merge_isSome_iff.mp (by rw [hMerge]; rfl)
  rw [hmp] at hPgn hRest hFits
  refine ⟨⟨m', decodeAndSend A m'⟩, List.mem_append_right _ (List.mem_singleton_self _), hPgn, ?_⟩
  -- at most seven neighbouring bytes are new, so one of two bytes seven apart is not
  have hDlc : (header true f).dlc ≤ 7 := by
    rcases hFits with hShort | ⟨hHeader, -⟩
    · rw [hIsLong] at hShort
      cases hShort
    · have hMax := f.dlc_le
      rw [header_long_dlc hHeader]
      unfold CanFrame.headerBytes
      split <;> omega
  rw [hIsLong] at hRest
  have hGap : ∃ i < p.size, 8 * (i + 1) ≥ p.size ∧ (i < (header true f).dataStart ∨
      (header true f).dataStart + (header true f).dlc ≤ i) := by
    by_cases hIn : p.size - 1 < (header true f).dataStart ∨
        (header true f).dataStart + (header true f).dlc ≤ p.size - 1
    · exact ⟨p.size - 1, by omega, by omega, hIn⟩
    · exact ⟨p.size - 8, by omega, by omega, by omega⟩
  obtain ⟨i, hi, hFar, hOut⟩ := hGap
  rintro ⟨z, f₀, -, -, -, hAll⟩
  obtain ⟨j, -, hOrigin, -⟩ := hAll i (by rw [hPgn]; exact hi)
  simp only at hOrigin
  rw [hRest i hOut] at hOrigin
  have hNear := hs.origin m hMsg i (by rw [hOrigin]; exact Option.some_ne_none j)
  omega

/--
**No mixed messages, exactly.** A run hands over nothing but messages of a long
PGN that consist of bytes of one sequence id if and only if every frame of this
PGN ends within the first eighth of the message. A later frame passes the
end-of-message test, and the first message that is handed over always contains
bytes that no frame has delivered.
-/
theorem one_sequence_iff {p : Pgn} (hp : p ∈ pgnList) (hLong : 8 < p.size)
    (hKnown : ((CanNode.init D).msgs p.pgn).isSome) {fs : List CanFrame} {s : CanNode D}
    (hrun : run (iterate A) (CanNode.init D) fs = some s) :
    (∀ c ∈ s.calls, c.msg.pgn = p → OneSequence c) ↔
      ∀ f ∈ fs, f.pgn = p.pgn → 8 * f.payloadEnd < p.size := by
  have hTests : (∀ f ∈ fs, f.pgn = p.pgn → 8 * f.payloadEnd < p.size) ↔
      ∀ f ∈ fs, f.pgn = p.pgn → atEnd p f = false :=
    forall₂_congr fun f hf => imp_congr_right fun hPgn =>
      (atEnd_eq_false_iff_payloadEnd hLong (fitsBuffer_of_run A hp hKnown hrun hf hPgn)).symm
  rw [hTests]
  constructor
  · intro hOne
    have hAlong : Along (iterate A) (fun _ f => f.pgn = p.pgn → atEnd p f = false)
        (CanNode.init D) fs := by
      by_contra hNot
      obtain ⟨pre, f, post, t, rfl, hpre, hQuiet, hFirst⟩ := exists_step_of_not_along hNot
      obtain ⟨t₁, hpre₁, hrest⟩ := run_append_eq_some.mp hrun
      rw [hpre, Option.some.injEq] at hpre₁
      subst hpre₁
      obtain ⟨t', hstep, hpost⟩ := run_cons_eq_some.mp hrest
      rw [Classical.not_imp, Bool.not_eq_false] at hFirst
      have hInc : Incomplete p t := inv_of_run
        (fun _ _ _ hI hP hI' => incomplete_step A hp hLong hI hP hI') (incomplete_init p) hQuiet
        hpre
      obtain ⟨c, hc, hcp, hMixed⟩ := not_oneSequence_of_incomplete A hp hLong hInc
        (by rw [msgs_isSome_run A hpre]; exact hKnown) hFirst.1 hFirst.2 hstep
      exact hMixed (hOne c ((calls_mono A hpost).subset hc) hcp)
    exact forall_of_along hAlong hrun
  · intro hTest
    have hInc : Incomplete p s := inv_of_run
      (fun _ _ _ hI hP hI' => incomplete_step A hp hLong hI hP hI') (incomplete_init p)
      (along_of_forall (fun f hf _ => hTest f hf) _) hrun
    exact fun c hc hcp => absurd hcp (hInc.calls c hc)

/-- The first frame of a GNSS position, which does not pass the test. -/
theorem one_sequence_iff_first :
    ∃ p ∈ pgnList, ∃ s, run (iterate Arith.exact) (CanNode.init ℚ)
        [fastPacket 0x95F80515 3 (List.replicate 51 0) 0xFF 0] = some s ∧
      ((∀ c ∈ s.calls, c.msg.pgn = p → OneSequence c) ↔
        ∀ f ∈ [fastPacket 0x95F80515 3 (List.replicate 51 0) 0xFF 0],
          f.pgn = p.pgn → 8 * f.payloadEnd < p.size) := by
  obtain ⟨p, hp, hPgn, hSize⟩ := gnss_mem
  obtain ⟨s, hs⟩ := Option.isSome_iff_exists.mp
    (show (run (iterate Arith.exact) (CanNode.init ℚ)
      [fastPacket 0x95F80515 3 (List.replicate 51 0) 0xFF 0]).isSome = true by decide +kernel)
  have hKnown : ((CanNode.init ℚ).msgs p.pgn).isSome := by
    rw [hPgn]
    decide +kernel
  exact ⟨p, hp, s, hs, one_sequence_iff Arith.exact hp (by omega) hKnown hs⟩

/-- The sequence id of the frame that a byte comes from. -/
def Call.originBase (c : Call D) (i : Nat) : Option (BitVec 8) :=
  ((c.msg.data i).origin.bind fun j => c.msg.frames[j]?).map CanFrame.base

/-- All bytes of a message of one sequence begin at the same frame. -/
theorem OneSequence.originBase_eq {c : Call D} (h : OneSequence c) {i k : Nat}
    (hi : i < c.msg.pgn.size) (hk : k < c.msg.pgn.size) : c.originBase i = c.originBase k := by
  obtain ⟨z, f₀, -, -, -, hAll⟩ := h
  obtain ⟨j, f, hOrigin, -, hFrame, hBase⟩ := hAll i hi
  obtain ⟨j', f', hOrigin', -, hFrame', hBase'⟩ := hAll k hk
  rw [Call.originBase, Call.originBase, hOrigin, hOrigin', Option.bind_some, Option.bind_some,
    hFrame, hFrame', Option.map_some, Option.map_some, hBase, hBase']

/-- A complete message with sequence id 0 and the first two frames of one with
sequence id 1: the last message handed over has its first thirteen bytes from
the second one and the others from the first one. -/
theorem two_sequences_mixed :
    ∃ s, run (iterate Arith.exact) (CanNode.init ℚ)
        (fastPackets 0x95F80515 0 (List.replicate 51 7) 0xFF ++
          (fastPackets 0x95F80515 1 (List.replicate 51 9) 0xFF).take 2) = some s ∧
      ∃ c ∈ s.calls, c.msg.pgn.pgn = 129029 ∧ c.originBase 12 = some 0x20 ∧
        c.originBase 13 = some 0 ∧ ¬ OneSequence c := by
  have hLast : (run (iterate Arith.exact) (CanNode.init ℚ)
      (fastPackets 0x95F80515 0 (List.replicate 51 7) 0xFF ++
        (fastPackets 0x95F80515 1 (List.replicate 51 9) 0xFF).take 2)).bind (fun s =>
        s.calls.getLast?.map fun c =>
          (c.msg.pgn.pgn, c.msg.pgn.size, c.originBase 12, c.originBase 13)) =
      some (129029, 51, some 0x20, some 0) := by decide +kernel
  obtain ⟨s, hs, hCall⟩ := Option.bind_eq_some_iff.mp hLast
  obtain ⟨c, hc, hValues⟩ := Option.map_eq_some_iff.mp hCall
  simp only [Prod.mk.injEq] at hValues
  obtain ⟨hPgn, hSize, hTwelve, hThirteen⟩ := hValues
  refine ⟨s, hs, c, List.mem_of_getLast? hc, hPgn, hTwelve, hThirteen, ?_⟩
  intro hOne
  have hEq := hOne.originBase_eq (i := 12) (k := 13) (by omega) (by omega)
  rw [hTwelve, hThirteen, Option.some.injEq] at hEq
  exact absurd hEq (by decide)

end Sailbot.Can

import Sailbot.Ipc.System

/-!
# The ring behind the queue

The link between the control block and the messages sent so far. After `S`
locked inserts into a ring of `n` slots the newest message is in the slot
`ringSlot n S`, and message number `m` is in `ringSlot n m` as long as it is
among the `min S n` newest (`RingOk`). A reader that has returned message
number `L` keeps exactly `ringSlot n L` as its cursor (`ReaderOk`).

* `doSend_ok`         — what the locked section of `do_send` does to the block.
* `nextMsg_live`      — the clamp of `do_receive` always lands in the live region.
* `nextMsg_ringSlot`  — from the slot of message `L` it moves to that of `L + 1`.
* `inv_of_reachable`  — both invariants hold in every state of every run.
* `ring_representation` — the representation of the ring, and what a successful
  receive reads, over every interleaving.
-/

namespace Sailbot.Ipc

open Lib

-- ---------------------------------------------------------------------------
-- The control block alone
-- ---------------------------------------------------------------------------

namespace MqHdr

/-- A queue that is not empty has a message. -/
theorem isEmpty_eq_false {h : MqHdr} : h.isEmpty = false ↔ 0 < h.curNumMsg := by
  rw [isEmpty, beq_eq_false_iff_ne]
  omega

/-- There is nothing new, where the queue is empty or the cursor is at its head. -/
theorem nothingNew_iff {h : MqHdr} {curMsg : Nat} :
    h.nothingNew curMsg = true ↔ h.curNumMsg = 0 ∨ curMsg = h.curFirstMsg := by
  simp [nothingNew, isEmpty]

/-- What the locked section of `do_send` does: the ring grows by one slot at
the front, or drops its oldest message when it was full. -/
theorem doSend_ok {h h' : MqHdr} {m : Msg} (hok : h.doSend m = .ok h') :
    m.data.length ≤ h.maxMsgSize ∧ h'.maxNumMsg = h.maxNumMsg ∧ h'.maxMsgSize = h.maxMsgSize ∧
    h'.curFirstMsg = (if h.curFirstMsg ≠ 0 then h.curFirstMsg else h.maxNumMsg) - 1 ∧
    h'.curNumMsg = (if h.curNumMsg = h.maxNumMsg then h.curNumMsg - 1 else h.curNumMsg) + 1 ∧
    h'.index = Function.update h.index h'.curFirstMsg m := by
  unfold doSend at hok
  split at hok
  · cases hok
  · next hLen =>
    injection hok with hok
    subst hok
    refine ⟨Nat.le_of_not_lt hLen, ?_⟩
    by_cases hFull : h.curNumMsg = h.maxNumMsg
    · simp [isFull, freeTopMsg, hFull]
    · simp [isFull, hFull]

/-- The slot of the oldest message, up to one wrap around the end. -/
theorem endIndex_spec {h : MqHdr} (hFirst : h.curFirstMsg < h.maxNumMsg)
    (hPos : 0 < h.curNumMsg) (hNum : h.curNumMsg ≤ h.maxNumMsg) :
    h.endIndex < h.maxNumMsg ∧
    (h.endIndex + 1 = h.curFirstMsg + h.curNumMsg ∨
      h.endIndex + 1 + h.maxNumMsg = h.curFirstMsg + h.curNumMsg) := by
  unfold endIndex endPos
  dsimp only
  split_ifs <;> omega

/-- The next slot is inside the ring. -/
theorem stepDown_lt {h : MqHdr} (hMax : 0 < h.maxNumMsg) {curMsg : Nat}
    (hCur : curMsg ≤ h.maxNumMsg) : h.stepDown curMsg < h.maxNumMsg := by
  unfold stepDown
  split_ifs <;> omega

/-- **The clamp lands in the live region.** The slot read is `i` places above
the front for some `i` below the number of messages. -/
theorem clamp_live {h : MqHdr} (hFirst : h.curFirstMsg < h.maxNumMsg)
    (hPos : 0 < h.curNumMsg) (hNum : h.curNumMsg ≤ h.maxNumMsg)
    {c : Nat} (hc : c < h.maxNumMsg) :
    h.clamp c < h.maxNumMsg ∧ ∃ i < h.curNumMsg,
      h.clamp c = h.curFirstMsg + i ∨ h.clamp c + h.maxNumMsg = h.curFirstMsg + i := by
  obtain ⟨hEnd, hEndEq⟩ := endIndex_spec hFirst hPos hNum
  -- `endIndex` is the last live slot, so a clamped cursor is at distance `curNumMsg - 1`
  have hLast : ∃ i < h.curNumMsg, h.endIndex = h.curFirstMsg + i ∨
      h.endIndex + h.maxNumMsg = h.curFirstMsg + i :=
    ⟨h.curNumMsg - 1, by omega, by omega⟩
  unfold clamp
  split_ifs with hge hOut hOut
  · exact ⟨hEnd, hLast⟩
  · exact ⟨hc, c - h.curFirstMsg, by omega, .inl (by omega)⟩
  · exact ⟨hEnd, hLast⟩
  · refine ⟨hc, ?_⟩
    by_cases hUp : h.curFirstMsg ≤ c
    · exact ⟨c - h.curFirstMsg, by omega, .inl (by omega)⟩
    · exact ⟨c + h.maxNumMsg - h.curFirstMsg, by omega, .inr (by omega)⟩

/-- A cursor in the live region is not clamped. -/
theorem clamp_eq_self {h : MqHdr} (hFirst : h.curFirstMsg < h.maxNumMsg)
    (hPos : 0 < h.curNumMsg) (hNum : h.curNumMsg ≤ h.maxNumMsg) {c i : Nat}
    (hi : i < h.curNumMsg) (hc : c < h.maxNumMsg)
    (hLive : c = h.curFirstMsg + i ∨ c + h.maxNumMsg = h.curFirstMsg + i) :
    h.clamp c = c := by
  obtain ⟨hEnd, hEndEq⟩ := endIndex_spec hFirst hPos hNum
  unfold clamp
  split_ifs <;> omega

end MqHdr

variable {W R : Type}

-- ---------------------------------------------------------------------------
-- The ring and the log
-- ---------------------------------------------------------------------------

/-- The control block represents the last `maxNumMsg` entries of the log. -/
structure RingOk (s : State W R) : Prop where
  pos   : 0 < s.hdr.maxNumMsg
  num   : s.hdr.curNumMsg = min s.sent s.hdr.maxNumMsg
  first : s.hdr.curFirstMsg = ringSlot s.hdr.maxNumMsg s.sent
  nums  : ∀ k m, s.log[k]? = some m → m.num = k + 1
  slots : ∀ k, k < s.sent → s.sent ≤ k + s.hdr.maxNumMsg →
    s.log[k]? = some (s.hdr.index (ringSlot s.hdr.maxNumMsg (k + 1)))

namespace RingOk

variable {s : State W R} (hs : RingOk s)
include hs

/-- The head is inside the ring. -/
theorem first_lt : s.hdr.curFirstMsg < s.hdr.maxNumMsg :=
  hs.first ▸ ringSlot_lt hs.pos _

/-- There are no more messages than slots. -/
theorem num_le : s.hdr.curNumMsg ≤ s.hdr.maxNumMsg := by
  rw [hs.num]
  exact Nat.min_le_right _ _

/-- A queue that is not empty has a message. -/
theorem isEmpty_eq_false : s.hdr.isEmpty = false ↔ 0 < s.sent := by
  rw [MqHdr.isEmpty_eq_false, hs.num]
  have := hs.pos
  omega

/-- A receive finds something new only after a message was sent. -/
theorem sent_pos_of_new {curMsg : Nat} (hNew : s.hdr.nothingNew curMsg = false) :
    0 < s.sent := by
  rw [← hs.isEmpty_eq_false]
  simp [MqHdr.nothingNew] at hNew
  exact hNew.1

/-- The slot `i` places above the front holds the `i`-th newest message. -/
theorem newest {i : Nat} (hi : i < s.hdr.curNumMsg) :
    s.log[s.sent - 1 - i]? =
      some (s.hdr.index ((s.hdr.curFirstMsg + i) % s.hdr.maxNumMsg)) := by
  have hNum := hs.num
  have hSlot := hs.slots (s.sent - 1 - i) (by omega) (by omega)
  rw [hSlot, hs.first, ringSlot_add_mod hs.pos (by omega)]
  congr 3
  omega

/-- What a read finds, whatever the cursor was: a slot of the ring that holds
one of the messages still retained. -/
theorem read {curMsg : Nat} (hSent : 0 < s.sent) (hCur : curMsg ≤ s.hdr.maxNumMsg) :
    ∃ k, k < s.sent ∧ s.sent ≤ k + s.hdr.maxNumMsg ∧
      s.hdr.nextMsg curMsg = ringSlot s.hdr.maxNumMsg (k + 1) ∧
      s.log[k]? = some (s.hdr.index (s.hdr.nextMsg curMsg)) := by
  have hNum := hs.num
  have hPos := hs.pos
  have hFirst := hs.first_lt
  obtain ⟨hLt, i, hi, hLive⟩ := MqHdr.clamp_live hFirst (by omega) hs.num_le
    (MqHdr.stepDown_lt hPos hCur)
  have hMod : (s.hdr.curFirstMsg + i) % s.hdr.maxNumMsg = s.hdr.nextMsg curMsg := by
    rw [MqHdr.nextMsg]
    rcases hLive with hLive | hLive
    · rw [← hLive, Nat.mod_eq_of_lt hLt]
    · rw [← hLive, Nat.add_mod_right, Nat.mod_eq_of_lt hLt]
  have hSlot : s.hdr.nextMsg curMsg = ringSlot s.hdr.maxNumMsg (s.sent - 1 - i + 1) := by
    rw [← hMod, hs.first, ringSlot_add_mod hPos (by omega)]
    congr 1
    omega
  refine ⟨s.sent - 1 - i, by omega, by omega, hSlot, ?_⟩
  rw [hs.newest hi, hMod]

/-- From the slot of message `L` the cursor moves to the slot of message
`L + 1`, also when the reader has been lapped and that slot now holds a later
message. -/
theorem nextMsg_ringSlot {L : Nat} (hL : L < s.sent) :
    s.hdr.nextMsg (ringSlot s.hdr.maxNumMsg L) = ringSlot s.hdr.maxNumMsg (L + 1) := by
  have hNum := hs.num
  have hPos := hs.pos
  have hFirst := hs.first_lt
  have hDown : s.hdr.stepDown (ringSlot s.hdr.maxNumMsg L) =
      ringSlot s.hdr.maxNumMsg (L + 1) := (ringSlot_succ hPos L).symm
  have hLt := ringSlot_lt hPos (L + 1)
  rw [MqHdr.nextMsg, hDown]
  by_cases hLap : s.sent ≤ L + s.hdr.maxNumMsg
  · -- message `L + 1` is retained, `sent - (L + 1)` places above the front
    have hMod : (s.hdr.curFirstMsg + (s.sent - (L + 1))) % s.hdr.maxNumMsg =
        ringSlot s.hdr.maxNumMsg (L + 1) := by
      rw [hs.first, ringSlot_add_mod hPos (by omega)]
      congr 1
      omega
    exact MqHdr.clamp_eq_self hFirst (by omega) hs.num_le (i := s.sent - (L + 1)) (by omega)
      hLt (eq_or_add_eq_of_mod_eq (by omega) hMod)
  · -- the ring is full, so every slot is live
    by_cases hUp : s.hdr.curFirstMsg ≤ ringSlot s.hdr.maxNumMsg (L + 1)
    · exact MqHdr.clamp_eq_self hFirst (by omega) hs.num_le
        (i := ringSlot s.hdr.maxNumMsg (L + 1) - s.hdr.curFirstMsg) (by omega) hLt
        (.inl (by omega))
    · exact MqHdr.clamp_eq_self hFirst (by omega) hs.num_le
        (i := ringSlot s.hdr.maxNumMsg (L + 1) + s.hdr.maxNumMsg - s.hdr.curFirstMsg)
        (by omega) hLt (.inr (by omega))

/-- The test of `do_receive` for a cursor on the slot of message `L`: it cannot
tell "nothing new" from a whole number of laps. -/
theorem nothingNew_ringSlot {L : Nat} (hL : L ≤ s.sent) :
    s.hdr.nothingNew (ringSlot s.hdr.maxNumMsg L) = true ↔
      s.hdr.maxNumMsg ∣ s.sent - L := by
  have hNum := hs.num
  have hPos := hs.pos
  rw [MqHdr.nothingNew_iff, hs.first, ringSlot_eq_ringSlot_iff hPos hL]
  constructor
  · rintro (hZero | hDvd)
    · have hSent : s.sent - L = 0 := by omega
      rw [hSent]
      exact dvd_zero _
    · exact hDvd
  · exact .inr

/-- A reader with something new is not behind by whole turns of the ring. -/
theorem not_dvd_of_new {L : Nat} (hL : L ≤ s.sent)
    (hNew : s.hdr.nothingNew (ringSlot s.hdr.maxNumMsg L) = false) :
    ¬ s.hdr.maxNumMsg ∣ s.sent - L := by
  rw [← hs.nothingNew_ringSlot hL, hNew]
  exact Bool.false_ne_true

/-- A locked insert keeps the representation. -/
theorem inserted {w : W} {buffer : List UInt8} {hdr : MqHdr}
    (hok : s.hdr.doSend (s.nextMsg buffer) = .ok hdr) :
    RingOk (s.inserted w (s.nextMsg buffer) hdr) := by
  obtain ⟨-, hMax, -, hFirst, hCount, hIndex⟩ := MqHdr.doSend_ok hok
  have hNum := hs.num
  have hPos := hs.pos
  set s' := s.inserted w (s.nextMsg buffer) hdr with hs'
  have hSent : s'.sent = s.sent + 1 := by simp [hs', State.inserted, State.sent]
  have hFirst' : s'.hdr.curFirstMsg = ringSlot s.hdr.maxNumMsg (s.sent + 1) := by
    show hdr.curFirstMsg = _
    rw [ringSlot_succ hPos, hFirst, hs.first]
    split_ifs <;> rfl
  have hMax' : s'.hdr.maxNumMsg = s.hdr.maxNumMsg := hMax
  have hLog : s'.log = s.log ++ [s.nextMsg buffer] := rfl
  refine ⟨hMax' ▸ hPos, ?_, ?_, ?_, ?_⟩
  · show hdr.curNumMsg = _
    rw [hCount, hSent, hMax']
    split_ifs <;> omega
  · rw [hFirst', hSent, hMax']
  · intro k m hk
    rw [hLog] at hk
    rcases Nat.lt_or_ge k s.log.length with hlt | hge
    · rw [List.getElem?_append_left hlt] at hk
      exact hs.nums k m hk
    · rw [List.getElem?_append_right hge, List.getElem?_singleton] at hk
      split_ifs at hk with h0
      injection hk with hk
      rw [← hk]
      show s.sent + 1 = k + 1
      unfold State.sent
      omega
  · intro k hk hRetained
    rw [hMax'] at hRetained ⊢
    rw [hSent] at hk hRetained
    show s'.log[k]? = some (hdr.index _)
    rw [hIndex, hLog]
    have hFirstEq : hdr.curFirstMsg = ringSlot s.hdr.maxNumMsg (s.sent + 1) := hFirst'
    rcases Nat.lt_or_ge k s.sent with hlt | hge
    · -- an older message: its slot is not the one that was overwritten
      have hNe : ringSlot s.hdr.maxNumMsg (k + 1) ≠ hdr.curFirstMsg := by
        rw [hFirstEq]
        intro hEq
        have := item_unique hPos hEq (by omega) (by omega)
        omega
      rw [List.getElem?_append_left hlt, Function.update_of_ne hNe]
      exact hs.slots k hlt (by omega)
    · have hk' : k = s.sent := by omega
      subst hk'
      rw [hFirstEq, Function.update_self]
      exact List.getElem?_concat_length

end RingOk

-- ---------------------------------------------------------------------------
-- Readers
-- ---------------------------------------------------------------------------

namespace Reader

@[simp] theorem delivered_after_returnFalse (d : Reader) (block : Block) :
    (d.after block .returnFalse).delivered = d.delivered := by
  simp [after, delivered]

@[simp] theorem delivered_after_pick (d : Reader) (block : Block) (h : MqHdr) (curMsg : Nat) :
    (d.after block (h.pick curMsg)).delivered =
      d.delivered ++ [(h.index (h.nextMsg curMsg)).num] := by
  simp [after, delivered, MqHdr.pick]

@[simp] theorem curMsg_after_pick (d : Reader) (block : Block) (h : MqHdr) (curMsg : Nat) :
    (d.after block (h.pick curMsg)).curMsg = h.nextMsg curMsg := rfl

@[simp] theorem results_after_pick (d : Reader) (block : Block) (h : MqHdr) (curMsg : Nat) :
    (d.after block (h.pick curMsg)).results =
      d.results ++ [some (h.index (h.nextMsg curMsg))] := rfl

end Reader

/-- A reader's cursor is a slot, or one past the last, and once a message was
returned to it, it is the slot of the message returned last. -/
structure ReaderOk (s : State W R) (d : Reader) : Prop where
  cur  : d.curMsg ≤ s.hdr.maxNumMsg
  last : ∀ L, d.last = some L →
    0 < L ∧ L ≤ s.sent ∧ d.curMsg = ringSlot s.hdr.maxNumMsg L

namespace ReaderOk

variable {s : State W R} {d : Reader}

/-- A reader invariant survives further inserts. -/
theorem mono {s' : State W R} (hd : ReaderOk s d) (hMax : s'.hdr.maxNumMsg = s.hdr.maxNumMsg)
    (hSent : s.sent ≤ s'.sent) : ReaderOk s' d := by
  refine ⟨hMax ▸ hd.cur, ?_⟩
  intro L hL
  obtain ⟨hPos, hLe, hCur⟩ := hd.last L hL
  exact ⟨hPos, hLe.trans hSent, hMax ▸ hCur⟩

/-- A read puts the cursor on the slot of the message it returns. -/
theorem after_pick (hs : RingOk s) (hSent : 0 < s.sent) {curMsg : Nat}
    (hCur : curMsg ≤ s.hdr.maxNumMsg) (block : Block) :
    ReaderOk s (d.after block (s.hdr.pick curMsg)) := by
  obtain ⟨k, hk, hRet, hSlot, hMsg⟩ := hs.read hSent hCur
  have hNum := hs.nums k _ hMsg
  refine ⟨?_, ?_⟩
  · rw [Reader.curMsg_after_pick, hSlot]
    exact (ringSlot_lt hs.pos _).le
  · intro L hL
    rw [Reader.last, Reader.delivered_after_pick, List.getLast?_concat, hNum,
      Option.some.injEq] at hL
    subst hL
    exact ⟨by omega, by omega, by rw [Reader.curMsg_after_pick, hSlot]⟩

end ReaderOk

-- ---------------------------------------------------------------------------
-- Every state of every run
-- ---------------------------------------------------------------------------

/-- The invariant of the system. -/
structure Inv (s : State W R) : Prop where
  ring   : RingOk s
  reader : ∀ r, ReaderOk s (s.reader r)

/-- The ring before its first message. -/
theorem inv_init {maxNumMsg maxMsgSize : Nat} {mem : Nat → List UInt8} (hn : 1 ≤ maxNumMsg) :
    Inv (State.init W R maxNumMsg maxMsgSize mem) := by
  refine ⟨⟨hn, ?_, ?_, ?_, ?_⟩, fun r => ⟨Nat.zero_le _, ?_⟩⟩
  · simp [State.init, MqHdr.new, State.sent]
  · simp [State.init, MqHdr.new, State.sent, ringSlot]
  · intro k m hk
    simp [State.init] at hk
  · intro k hk
    simp [State.init, State.sent] at hk
  · intro L hL
    simp [State.init, Reader.last, Reader.delivered] at hL

/-- A step of a reader leaves its cursor well placed. -/
theorem ReaderStep.ok {s : State W R} {r : R} {a : Action W R} {d : Reader}
    (h : ReaderStep s r a d) (hs : Inv s) : ReaderOk s d := by
  have hOld := hs.reader r
  cases h with
  | returnFalse hFree hSize hIdle hNew =>
    refine ⟨hOld.cur, fun L hL => hOld.last L ?_⟩
    rwa [Reader.last, Reader.delivered_after_returnFalse] at hL
  | enterWait hFree hSize hIdle hBlock hNew => exact ⟨hOld.cur, hOld.last⟩
  | read hFree hSize hIdle hNew =>
    exact ReaderOk.after_pick hs.ring (hs.ring.sent_pos_of_new hNew) hOld.cur _
  | spurious hWait => exact ⟨hOld.cur, hOld.last⟩
  | timeout hFree hWait =>
    refine ⟨hOld.cur, fun L hL => hOld.last L ?_⟩
    rwa [Reader.last, Reader.delivered_after_returnFalse] at hL
  | waitAgain hFree hWoken hEmpty =>
    -- nothing was ever sent, so nothing was returned to this reader either
    have hSent : ¬ 0 < s.sent := by
      rw [← hs.ring.isEmpty_eq_false, hEmpty]
      exact Bool.true_eq_false.mp
    refine ⟨hs.ring.first_lt, ?_⟩
    intro L hL
    obtain ⟨hPos, hLe, -⟩ := hOld.last L hL
    omega
  | wakeRead hFree hWoken hEmpty =>
    exact ReaderOk.after_pick hs.ring (hs.ring.isEmpty_eq_false.mp hEmpty) hs.ring.first_lt _

variable [DecidableEq W] [DecidableEq R]

/-- Every step keeps the representation. -/
theorem inv_step {s s' : State W R} {a : Action W R} (hs : Inv s)
    (h : step s a = some s') : Inv s' := by
  obtain ⟨rfl, -⟩ | ⟨w, buffer, hdr, rfl, -, hok, rfl⟩ | ⟨w, rfl, -, rfl⟩ | ⟨r, d, hStep, rfl⟩ :=
    step_cases h
  · exact hs
  · refine ⟨hs.ring.inserted hok, fun r => (hs.reader r).mono (MqHdr.doSend_ok hok).2.1 ?_⟩
    simp [State.inserted, State.sent]
  · exact ⟨⟨hs.ring.pos, hs.ring.num, hs.ring.first, hs.ring.nums, hs.ring.slots⟩,
      fun r => ⟨(hs.reader r).cur, (hs.reader r).last⟩⟩
  · have hRing : RingOk (s.setReader r d) :=
      ⟨hs.ring.pos, hs.ring.num, hs.ring.first, hs.ring.nums, hs.ring.slots⟩
    refine ⟨hRing, ?_⟩
    intro q
    by_cases hq : q = r
    · subst hq
      rw [State.setReader_self]
      exact (hStep.ok hs).mono rfl le_rfl
    · rw [State.setReader_of_ne s d hq]
      exact (hs.reader q).mono rfl le_rfl

/-- So does every run. -/
theorem inv_of_run_step {s s' : State W R} {as : List (Action W R)} (hs : Inv s)
    (h : run step s as = some s') : Inv s' :=
  inv_of_run_forall (fun _ _ _ hInv hstep => inv_step hInv hstep) hs h

/-- **Reachable states.** The invariant holds after every interleaving. -/
theorem inv_of_reachable {maxNumMsg maxMsgSize : Nat} {mem : Nat → List UInt8}
    (hn : 1 ≤ maxNumMsg) {as : List (Action W R)} {s : State W R}
    (h : run step (State.init W R maxNumMsg maxMsgSize mem) as = some s) : Inv s :=
  inv_of_run_step (inv_init hn) h

/-- The capacity and the message size never change. -/
theorem limits_of_run {s s' : State W R} {as : List (Action W R)}
    (h : run step s as = some s') :
    s'.hdr.maxNumMsg = s.hdr.maxNumMsg ∧ s'.hdr.maxMsgSize = s.hdr.maxMsgSize := by
  refine rel_of_run (R := fun t t' : State W R =>
      t'.hdr.maxNumMsg = t.hdr.maxNumMsg ∧ t'.hdr.maxMsgSize = t.hdr.maxMsgSize)
    (fun _ => ⟨rfl, rfl⟩) (fun _ _ _ h1 h2 => ⟨h2.1.trans h1.1, h2.2.trans h1.2⟩)
    (fun s a s' hstep => ?_) h
  obtain ⟨rfl, -⟩ | ⟨w, buffer, hdr, rfl, -, hok, rfl⟩ | ⟨w, rfl, -, rfl⟩ | ⟨r, d, -, rfl⟩ :=
    step_cases hstep
  · exact ⟨rfl, rfl⟩
  · exact ⟨(MqHdr.doSend_ok hok).2.1, (MqHdr.doSend_ok hok).2.2.1⟩
  · exact ⟨rfl, rfl⟩
  · exact ⟨rfl, rfl⟩

/-- A step that lengthens the results of a reader by a message is a read of
that reader: by a receive that found something new, or after a wake-up. -/
theorem read_of_results {s s' : State W R} {a : Action W R} {r : R} {m : Msg}
    (h : step s a = some s')
    (hRes : (s'.reader r).results = (s.reader r).results ++ [some m]) :
    ∃ curMsg, ((∃ block bufferSize, a = .receive r block bufferSize ∧
          curMsg = (s.reader r).curMsg ∧ s.hdr.nothingNew curMsg = false) ∨
        (a = .relock r ∧ curMsg = s.hdr.curFirstMsg + 1 ∧ s.hdr.isEmpty = false)) ∧
      (s'.reader r).curMsg = s.hdr.nextMsg curMsg ∧
      m = s.hdr.index (s.hdr.nextMsg curMsg) := by
  rcases reader_cases h r with ⟨hSame, -⟩ | hStep
  · rw [hSame] at hRes
    simp at hRes
  · generalize s'.reader r = d at hRes hStep ⊢
    cases hStep with
    | returnFalse hFree hSize hIdle hNew => simp [Reader.after] at hRes
    | enterWait hFree hSize hIdle hBlock hNew => simp at hRes
    | @read block bufferSize hFree hSize hIdle hNew =>
      rw [Reader.results_after_pick, List.append_cancel_left_eq, List.cons.injEq,
        Option.some.injEq] at hRes
      exact ⟨_, .inl ⟨block, bufferSize, rfl, rfl, hNew⟩, rfl, hRes.1.symm⟩
    | spurious hWait => simp at hRes
    | timeout hFree hWait => simp [Reader.after] at hRes
    | waitAgain hFree hWoken hEmpty => simp at hRes
    | wakeRead hFree hWoken hEmpty =>
      rw [Reader.results_after_pick, List.append_cancel_left_eq, List.cons.injEq,
        Option.some.injEq] at hRes
      exact ⟨_, .inr ⟨rfl, rfl, hEmpty⟩, rfl, hRes.1.symm⟩

/--
**Representation of the ring.** In every state that any interleaving reaches,
with `S` messages sent into a ring of `n` slots:

1. `m_cur_num_msg` is `min S n` and `m_cur_first_msg` is a slot;
2. the slot `i` places above the front holds the `i`-th newest message;
3. every successful receive reads a slot of the ring, and what it returns is
   one of the `min S n` newest messages.
-/
theorem ring_representation {n maxMsgSize : Nat} {mem : Nat → List UInt8} (hn : 1 ≤ n)
    {as : List (Action W R)} {s : State W R}
    (hrun : run step (State.init W R n maxMsgSize mem) as = some s) :
    (s.hdr.curNumMsg = min s.sent n ∧ s.hdr.curFirstMsg < n) ∧
    (∀ i < s.hdr.curNumMsg,
      s.log[s.sent - 1 - i]? = some (s.hdr.index ((s.hdr.curFirstMsg + i) % n))) ∧
    (∀ a s' r m, step s a = some s' →
      (s'.reader r).results = (s.reader r).results ++ [some m] →
      (s'.reader r).curMsg < n ∧ s.hdr.index (s'.reader r).curMsg = m ∧
      ∃ i < min s.sent n, s.log[s.sent - 1 - i]? = some m) := by
  have hInv := inv_of_reachable hn hrun
  have hMax : s.hdr.maxNumMsg = n := (limits_of_run hrun).1
  have hRing := hInv.ring
  refine ⟨⟨hMax ▸ hRing.num, hMax ▸ hRing.first_lt⟩, fun i hi => hMax ▸ hRing.newest hi, ?_⟩
  intro a s' r m hstep hRes
  obtain ⟨curMsg, hSource, hCur, hMsg⟩ := read_of_results hstep hRes
  -- both ways into the read leave a cursor of at most `n` and a queue that is not empty
  have hEntry : 0 < s.sent ∧ curMsg ≤ s.hdr.maxNumMsg := by
    rcases hSource with ⟨_, _, -, rfl, hNew⟩ | ⟨-, rfl, hEmpty⟩
    · exact ⟨hRing.sent_pos_of_new hNew, (hInv.reader r).cur⟩
    · exact ⟨hRing.isEmpty_eq_false.mp hEmpty, hRing.first_lt⟩
  obtain ⟨k, hk, hRetained, hSlot, hLog⟩ := hRing.read hEntry.1 hEntry.2
  refine ⟨?_, by rw [hCur, hMsg], s.sent - 1 - k, by omega, ?_⟩
  · rw [hCur, hSlot, ← hMax]
    exact ringSlot_lt hRing.pos _
  · rw [hMsg, ← hLog]
    congr 1
    omega

/-- Three sends into a ring of two slots, then the first receive of a reader. -/
theorem ring_representation_lapped :
    ∃ s, run step (State.init Unit Unit 2 4 fun _ => [])
        [.insert () [1], .notify (), .insert () [2], .notify (), .insert () [3], .notify (),
          .receive () .timed 4] = some s ∧
      (s.hdr.curNumMsg = min s.sent 2 ∧ s.hdr.curFirstMsg < 2) ∧
      ∀ i < s.hdr.curNumMsg,
        s.log[s.sent - 1 - i]? = some (s.hdr.index ((s.hdr.curFirstMsg + i) % 2)) := by
  obtain ⟨s, hs⟩ := Option.isSome_iff_exists.mp
    (show (run step (State.init Unit Unit 2 4 fun _ => [])
        [.insert () [1], .notify (), .insert () [2], .notify (), .insert () [3], .notify (),
          .receive () .timed 4]).isSome = true by decide)
  obtain ⟨hNum, hSlots, -⟩ := ring_representation (by decide) hs
  exact ⟨s, hs, hNum, hSlots⟩

end Sailbot.Ipc

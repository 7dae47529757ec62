import Sailbot.Ipc.Delivery

/-!
# First in, first out for a reader that keeps up

What the queue is for: an append-only log and, for every reader, the number of
entries it has been given. `Log` is that design, with no ring, no capacity and
no slots. A reader that never waits and is never a full lap behind cannot tell
the ring from the log:

* `Quiet`  — in a run without waits every cursor is the slot of the message
  returned last, with `0` for a fresh reader object.
* `quiet_step`, `refines_step` — one step of the queue is one step of the log.
* `keepsUp_refines_log` — the refinement over whole runs, with any number of
  other readers, which may well be lapped.
-/

namespace Sailbot.Ipc

open Lib

-- ---------------------------------------------------------------------------
-- The abstract log
-- ---------------------------------------------------------------------------

/-- An append-only log with one read position for each reader. -/
structure Log (R : Type) where
  entries : List Msg
  pos     : R → Nat

namespace Log

variable {W R : Type} [DecidableEq R]

def send (l : Log R) (buffer : List UInt8) : Log R :=
  { l with entries := l.entries ++ [⟨l.entries.length + 1, buffer⟩] }

/-- The next entry for reader `r`, if there is one. -/
def next (l : Log R) (r : R) : Option Msg := l.entries[l.pos r]?

def receive (l : Log R) (r : R) : Log R :=
  { l with pos := Function.update l.pos r (l.pos r + (l.next r).toList.length) }

/-- The effect of an action; a message or a buffer of the wrong size is refused. -/
def step (maxMsgSize : Nat) (l : Log R) : Action W R → Log R
  | .insert _ buffer => if maxMsgSize < buffer.length then l else l.send buffer
  | .receive r _ bufferSize => if bufferSize < maxMsgSize then l else l.receive r
  | _ => l

/-- What an action returns to reader `r`. -/
def output (maxMsgSize : Nat) (r : R) (l : Log R) : Action W R → List (Option Msg)
  | .receive q _ bufferSize =>
    if bufferSize < maxMsgSize then [] else if q = r then [l.next r] else []
  | _ => []

@[simp] theorem output_insert (maxMsgSize : Nat) (r : R) (l : Log R) (w : W)
    (buffer : List UInt8) : l.output maxMsgSize r (.insert w buffer : Action W R) = [] := rfl

/-- The reader moves on by what it gets. -/
theorem receive_pos_self (l : Log R) (r : R) :
    (l.receive r).pos r = l.pos r + (l.next r).toList.length := Function.update_self ..

/-- The other readers stay where they are. -/
theorem receive_pos_of_ne (l : Log R) {q r : R} (h : r ≠ q) : (l.receive q).pos r = l.pos r :=
  Function.update_of_ne h ..

/-- What a list of actions returns to reader `r`, in order. -/
def results (maxMsgSize : Nat) (r : R) : Log R → List (Action W R) → List (Option Msg)
  | _, [] => []
  | l, a :: as => l.output maxMsgSize r a ++ results maxMsgSize r (l.step maxMsgSize a) as

/-- The entries are numbered from one in their order. -/
def Numbered (l : Log R) : Prop := ∀ k m, l.entries[k]? = some m → m.num = k + 1

omit [DecidableEq R] in
/-- A new entry gets the next number. -/
theorem Numbered.send {l : Log R} (h : l.Numbered) (buffer : List UInt8) :
    (l.send buffer).Numbered := by
  intro k m hk
  rw [Log.send] at hk
  rcases Nat.lt_or_ge k l.entries.length with hlt | hge
  · rw [List.getElem?_append_left hlt] at hk
    exact h k m hk
  · rw [List.getElem?_append_right hge, List.getElem?_singleton] at hk
    split_ifs at hk
    injection hk with hk
    rw [← hk]
    show l.entries.length + 1 = k + 1
    omega

/-- A log gives a reader consecutive numbers, whatever is sent in between. -/
theorem results_consecutive (maxMsgSize : Nat) (r : R) (as : List (Action W R)) :
    ∀ l : Log R, l.Numbered → ∃ j, (l.results maxMsgSize r as).filterMap (Option.map Msg.num) =
      List.range' (l.pos r + 1) j := by
  induction as with
  | nil => exact fun l _ => ⟨0, rfl⟩
  | cons a as ih =>
    intro l hl
    cases a with
    | insert w buffer =>
      rw [results, output_insert, List.nil_append, step]
      split
      · exact ih l hl
      · exact ih _ (hl.send buffer)
    | receive q block bufferSize =>
      rw [results, output, step]
      split
      · exact ih l hl
      · by_cases hq : q = r
        · subst hq
          obtain ⟨j, hj⟩ := ih (l.receive q) hl
          rw [if_pos rfl]
          cases hNext : l.next q with
          | none =>
            refine ⟨j, ?_⟩
            simpa [receive, hNext] using hj
          | some m =>
            have hNum := hl _ _ hNext
            refine ⟨j + 1, ?_⟩
            rw [List.range'_succ, ← hNum]
            simpa [receive, hNext, hNum] using hj
        · rw [if_neg hq, List.nil_append]
          obtain ⟨j, hj⟩ := ih (l.receive q) hl
          exact ⟨j, l.receive_pos_of_ne (Ne.symm hq) ▸ hj⟩
    | notify | spurious | timeout | relock => exact ih l hl

end Log

-- ---------------------------------------------------------------------------
-- Runs in which nobody waits
-- ---------------------------------------------------------------------------

/-- The number of the message returned last, `0` before the first one. -/
def Reader.lastNum (d : Reader) : Nat := d.last.getD 0

/-- The number of the message returned last. -/
theorem Reader.lastNum_eq {d : Reader} {L : Nat} (h : d.last = some L) : d.lastNum = L := by
  rw [lastNum, h, Option.getD_some]

variable {W R : Type}

/-- The log that a state stands for. -/
def State.toLog (s : State W R) : Log R := ⟨s.log, fun r => (s.reader r).lastNum⟩

/-- The action is a receive that goes into the wait branch. -/
def EntersWait (s : State W R) (a : Action W R) : Prop :=
  ∃ r block bufferSize curMsg, a = .receive r block bufferSize ∧
    s.hdr.doReceive block bufferSize (s.reader r).curMsg = .ok (.wait curMsg)

/-- A send does not wait. -/
theorem not_entersWait_insert (s : State W R) (w : W) (buffer : List UInt8) :
    ¬ EntersWait s (.insert w buffer) := by
  rintro ⟨r, block, bufferSize, curMsg, hAct, -⟩
  cases hAct

/-- A notification does not wait. -/
theorem not_entersWait_notify (s : State W R) (w : W) : ¬ EntersWait s (.notify w) := by
  rintro ⟨r, block, bufferSize, curMsg, hAct, -⟩
  cases hAct

/-- A receive that does not block does not wait. -/
theorem not_entersWait_nonBlocking (s : State W R) (r : R) (bufferSize : Nat) :
    ¬ EntersWait s (.receive r .nonBlocking bufferSize) := by
  rintro ⟨q, block, size, curMsg, hAct, hOk⟩
  cases hAct
  unfold MqHdr.doReceive MqHdr.pick at hOk
  split at hOk
  · cases hOk
  · split at hOk <;> cases hOk

/-- When reader `r` receives, fewer than `n` messages have been sent since the
last one that was returned to it. -/
def KeepsUp (n : Nat) (r : R) (s : State W R) (a : Action W R) : Prop :=
  ∀ block bufferSize, a = .receive r block bufferSize → s.sent < (s.reader r).lastNum + n

instance decidableKeepsUp [DecidableEq R] (n : Nat) (r : R) (s : State W R) :
    ∀ a : Action W R, Decidable (KeepsUp n r s a)
  | .receive q block bufferSize =>
    decidable_of_iff (q = r → s.sent < (s.reader r).lastNum + n) (by
      simp only [KeepsUp, Action.receive.injEq]
      constructor
      · rintro h _ _ ⟨rfl, -, -⟩
        exact h rfl
      · rintro h rfl
        exact h _ _ ⟨rfl, rfl, rfl⟩)
  | .insert .. | .notify _ | .spurious _ | .timeout _ | .relock _ =>
    .isTrue (by simp [KeepsUp])

/-- A reader that is not waiting and whose cursor is the slot of the message
returned to it last. -/
structure QuietReader (s : State W R) (d : Reader) : Prop where
  idle : d.pc = .idle
  le   : d.lastNum ≤ s.sent
  cur  : d.curMsg = ringSlot s.hdr.maxNumMsg d.lastNum

structure Quiet (s : State W R) : Prop where
  inv    : Inv s
  reader : ∀ r, QuietReader s (s.reader r)

/-- At the start nobody waits. -/
theorem quiet_init {n maxMsgSize : Nat} {mem : Nat → List UInt8} (hn : 1 ≤ n) :
    Quiet (State.init W R n maxMsgSize mem) := by
  refine ⟨inv_init hn, fun r => ⟨rfl, Nat.zero_le _, ?_⟩⟩
  simp [State.init, Reader.lastNum, Reader.last, Reader.delivered, ringSlot]

/-- A quiet reader stays one while messages are sent. -/
theorem QuietReader.mono {s s' : State W R} {d : Reader} (hd : QuietReader s d)
    (hMax : s'.hdr.maxNumMsg = s.hdr.maxNumMsg) (hSent : s.sent ≤ s'.sent) :
    QuietReader s' d :=
  ⟨hd.idle, hd.le.trans hSent, hMax ▸ hd.cur⟩

/-- What a quiet reader's receive does to it, when it does not wait. With `L`
the last number returned it returns `false` if `S - L` is a whole number of
laps, else entry `S - (S - L) % n` of the log, the one that the ring has at the
reader's next slot. -/
inductive QuietReceive (s : State W R) (d d' : Reader) : Prop
  | returnFalse (hLaps : s.hdr.maxNumMsg ∣ s.sent - d.lastNum)
      (hResults : d'.results = d.results ++ [none]) (hLast : d'.last = d.last)
  | returnTrue (m : Msg) (hLaps : ¬ s.hdr.maxNumMsg ∣ s.sent - d.lastNum)
      (hLog : s.log[s.sent - (s.sent - d.lastNum) % s.hdr.maxNumMsg]? = some m)
      (hNum : m.num = s.sent - (s.sent - d.lastNum) % s.hdr.maxNumMsg + 1)
      (hResults : d'.results = d.results ++ [some m])
      (hLast : d'.last = some m.num)

/-- Without a wait, what a step does to a quiet reader is a receive of its own. -/
theorem quiet_readerStep {s : State W R} (hs : Inv s) {q : R} {a : Action W R} {d : Reader}
    (hq : QuietReader s (s.reader q)) (hStep : ReaderStep s q a d) (hWait : ¬ EntersWait s a) :
    (∃ block bufferSize, a = .receive q block bufferSize ∧ s.hdr.maxMsgSize ≤ bufferSize) ∧
    QuietReader s d ∧ QuietReceive s (s.reader q) d := by
  have hNewIff := hs.ring.nothingNew_ringSlot hq.le
  rw [← hq.cur] at hNewIff
  cases hStep with
  | returnFalse hFree hSize hIdle hNew =>
    have hLast : ((s.reader q).after .nonBlocking .returnFalse).last = (s.reader q).last := by
      rw [Reader.last, Reader.delivered_after_returnFalse, Reader.last]
    have hLastNum : ((s.reader q).after .nonBlocking .returnFalse).lastNum =
        (s.reader q).lastNum := by
      rw [Reader.lastNum, hLast, Reader.lastNum]
    exact ⟨⟨_, _, rfl, hSize⟩, ⟨rfl, hLastNum ▸ hq.le, hLastNum ▸ hq.cur⟩,
      .returnFalse (hNewIff.mp hNew) rfl hLast⟩
  | @enterWait block bufferSize hFree hSize hIdle hBlock hNew =>
    refine absurd ⟨q, block, bufferSize, (s.reader q).curMsg, rfl, ?_⟩ hWait
    unfold MqHdr.doReceive
    rw [if_neg (Nat.not_lt.mpr hSize), if_pos hNew]
    cases block with
    | nonBlocking => exact absurd rfl hBlock
    | blocking => rfl
    | timed => rfl
  | @read block bufferSize hFree hSize hIdle hNew =>
    have hLag := hs.ring.not_dvd_of_new hq.le (hq.cur ▸ hNew)
    obtain ⟨m, hLog, hNum, hIndex, hSlot⟩ := hs.ring.read_num hq.le hLag
    rw [← hq.cur] at hIndex hSlot
    have hLast : ((s.reader q).after block (s.hdr.pick (s.reader q).curMsg)).last =
        some m.num := by
      rw [Reader.last, Reader.delivered_after_pick, hIndex, List.getLast?_concat]
    have hPos : 0 < (s.sent - (s.reader q).lastNum) % s.hdr.maxNumMsg :=
      Nat.pos_of_ne_zero fun h => hLag (Nat.dvd_of_mod_eq_zero h)
    have hMod := Nat.mod_le (s.sent - (s.reader q).lastNum) s.hdr.maxNumMsg
    refine ⟨⟨_, _, rfl, hSize⟩, ⟨rfl, ?_, ?_⟩, .returnTrue m hLag hLog hNum ?_ hLast⟩
    · rw [Reader.lastNum_eq hLast, hNum]
      omega
    · rw [Reader.lastNum_eq hLast, Reader.curMsg_after_pick, hSlot]
    · rw [Reader.results_after_pick, hIndex]
  | spurious h => rw [hq.idle] at h; cases h
  | timeout _ h => rw [hq.idle] at h; cases h
  | waitAgain _ h _ => rw [hq.idle] at h; cases h
  | wakeRead _ h _ => rw [hq.idle] at h; cases h

variable [DecidableEq W] [DecidableEq R]

/-- Without a wait, every step leaves all readers quiet. -/
theorem quiet_step {s s' : State W R} {a : Action W R} (hs : Quiet s) (hWait : ¬ EntersWait s a)
    (h : step s a = some s') : Quiet s' := by
  refine ⟨inv_step hs.inv h, ?_⟩
  intro r
  obtain ⟨rfl, -⟩ | ⟨w, buffer, hdr, rfl, -, hok, rfl⟩ | ⟨w, rfl, -, rfl⟩ | ⟨q, d, hStep, rfl⟩ :=
    step_cases h
  · exact hs.reader r
  · refine (hs.reader r).mono (MqHdr.doSend_ok hok).2.1 ?_
    simp [State.inserted, State.sent]
  · have hr := hs.reader r
    exact ⟨congrArg State.wake hr.idle, hr.le, hr.cur⟩
  · by_cases hq : r = q
    · subst hq
      rw [State.setReader_self]
      exact (quiet_readerStep hs.inv (hs.reader r) hStep hWait).2.1.mono rfl le_rfl
    · rw [State.setReader_of_ne s d hq]
      exact (hs.reader r).mono rfl le_rfl

-- ---------------------------------------------------------------------------
-- The refinement
-- ---------------------------------------------------------------------------

/-- The log `l` describes state `s` as far as reader `r` is concerned. -/
structure Refines (r : R) (s : State W R) (l : Log R) : Prop where
  entries : l.entries = s.log
  pos     : l.pos r = (s.reader r).lastNum

omit [DecidableEq W] [DecidableEq R] in
/-- For a reader less than a lap behind, what the ring returns is the next
entry of the log. -/
theorem QuietReceive.log_next {s : State W R} {r : R} {l : Log R} {d : Reader}
    (hRec : QuietReceive s (s.reader r) d) (hRef : Refines r s l)
    (hLe : (s.reader r).lastNum ≤ s.sent)
    (hUp : s.sent < (s.reader r).lastNum + s.hdr.maxNumMsg) :
    d.results = (s.reader r).results ++ [l.next r] ∧
    d.lastNum = (s.reader r).lastNum + (l.next r).toList.length := by
  have hNext : l.next r = s.log[(s.reader r).lastNum]? := by
    rw [Log.next, hRef.entries, hRef.pos]
  rw [hNext]
  cases hRec with
  | returnFalse hLaps hResults hLast =>
    have hZero := Nat.eq_zero_of_dvd_of_lt hLaps (by omega)
    have hNone : s.log[(s.reader r).lastNum]? = none := by
      rw [List.getElem?_eq_none_iff]
      show s.sent ≤ _
      omega
    rw [hNone, hResults, Reader.lastNum, hLast]
    exact ⟨rfl, rfl⟩
  | returnTrue m hLaps hLog hNum hResults hLast =>
    rw [Nat.mod_eq_of_lt (by omega)] at hLog hNum
    have hEq : s.sent - (s.sent - (s.reader r).lastNum) = (s.reader r).lastNum := by omega
    rw [hEq] at hLog hNum
    rw [hLog, hResults, Reader.lastNum_eq hLast, hNum]
    exact ⟨rfl, rfl⟩

/-- **One step.** A step in which nobody goes to wait and reader `r` is less
than a lap behind is the same step of the log, with the same result for `r`. -/
theorem refines_step {s s' : State W R} {a : Action W R} {r : R} {l : Log R} (hs : Quiet s)
    (hWait : ¬ EntersWait s a) (hUp : KeepsUp s.hdr.maxNumMsg r s a) (hRef : Refines r s l)
    (h : step s a = some s') :
    Refines r s' (l.step s.hdr.maxMsgSize a) ∧
    (s'.reader r).results = (s.reader r).results ++ l.output s.hdr.maxMsgSize r a := by
  obtain ⟨rfl, hThrows⟩ | ⟨w, buffer, hdr, rfl, -, hok, rfl⟩ | ⟨w, rfl, -, rfl⟩ |
    ⟨q, d, hStep, rfl⟩ := step_cases h
  · cases a with
    | insert w buffer =>
      simp only [Action.Throws] at hThrows
      rw [Log.step, if_pos hThrows, Log.output_insert, List.append_nil]
      exact ⟨hRef, rfl⟩
    | receive q block bufferSize =>
      simp only [Action.Throws] at hThrows
      rw [Log.step, if_pos hThrows, Log.output, if_pos hThrows, List.append_nil]
      exact ⟨hRef, rfl⟩
    | notify | spurious | timeout | relock => exact hThrows.elim
  · have hLen : ¬ s.hdr.maxMsgSize < buffer.length :=
      Nat.not_lt.mpr (MqHdr.doSend_ok hok).1
    rw [Log.step, if_neg hLen, Log.output_insert, List.append_nil]
    refine ⟨⟨?_, hRef.pos⟩, rfl⟩
    simp only [Log.send, hRef.entries, State.inserted, State.nextMsg, State.sent]
  · exact ⟨⟨hRef.entries, hRef.pos⟩, (List.append_nil _).symm⟩
  · obtain ⟨⟨block, bufferSize, rfl, hSize⟩, -, hRec⟩ :=
      quiet_readerStep hs.inv (hs.reader q) hStep hWait
    rw [Log.step, if_neg (Nat.not_lt.mpr hSize), Log.output, if_neg (Nat.not_lt.mpr hSize)]
    by_cases hq : q = r
    · subst hq
      obtain ⟨hResults, hLast⟩ :=
        hRec.log_next hRef (hs.reader q).le (hUp block bufferSize rfl)
      rw [if_pos rfl, State.setReader_self]
      refine ⟨⟨hRef.entries, ?_⟩, hResults⟩
      rw [State.setReader_self, hLast, l.receive_pos_self, hRef.pos]
    · -- a receive of another reader
      have hne : r ≠ q := Ne.symm hq
      rw [if_neg hq, List.append_nil, State.setReader_of_ne s d hne]
      refine ⟨⟨hRef.entries, ?_⟩, rfl⟩
      rw [State.setReader_of_ne s d hne, l.receive_pos_of_ne hne, hRef.pos]

/-- **Whole runs.** The results of a reader that keeps up are those of the log. -/
theorem refines_run {r : R} {n maxMsgSize : Nat} {as : List (Action W R)} :
    ∀ {s s' : State W R} {l : Log R}, Quiet s → Refines r s l →
      s.hdr.maxNumMsg = n → s.hdr.maxMsgSize = maxMsgSize →
      Along step (fun t a => ¬ EntersWait t a) s as → Along step (KeepsUp n r) s as →
      run step s as = some s' →
      Quiet s' ∧ (s'.reader r).results = (s.reader r).results ++ l.results maxMsgSize r as := by
  induction as with
  | nil =>
    intro s s' l hs _ _ _ _ _ hrun
    rw [run_nil, Option.some.injEq] at hrun
    subst hrun
    exact ⟨hs, (List.append_nil _).symm⟩
  | cons a as ih =>
    intro s s' l hs hRef hMax hSize hWait hUp hrun
    obtain ⟨t, hstep, hrun⟩ := run_cons_eq_some.mp hrun
    have hUpA : KeepsUp s.hdr.maxNumMsg r s a := hMax ▸ hUp.1
    obtain ⟨hRef', hOut⟩ := refines_step hs hWait.1 hUpA hRef hstep
    have hLimits := limits_of_run ((run_singleton step s a).trans hstep)
    rw [hSize] at hRef' hOut
    obtain ⟨hQuiet, hRest⟩ := ih (quiet_step hs hWait.1 hstep) hRef'
      (hLimits.1.trans hMax) (hLimits.2.trans hSize) (hWait.2 t hstep) (hUp.2 t hstep) hrun
    exact ⟨hQuiet, by rw [hRest, hOut, Log.results, List.append_assoc]⟩

/-- What happens before the mutex is free: the writer that holds it notifies. -/
def State.release (s : State W R) : List (Action W R) := s.mutex.toList.map .notify

/-- **The answer of one non-blocking receive** of a reader less than a lap behind. -/
theorem nonBlocking_iff {s : State W R} {r : R} {bufferSize : Nat} (hs : Quiet s)
    (hFree : s.mutex = none) (hSize : s.hdr.maxMsgSize ≤ bufferSize)
    (hBehind : s.sent < (s.reader r).lastNum + s.hdr.maxNumMsg) :
    ∃ s', step s (.receive r .nonBlocking bufferSize) = some s' ∧
      ((s'.reader r).results = (s.reader r).results ++ [none] ↔
        s.sent = (s.reader r).lastNum) := by
  have hr := hs.reader r
  obtain ⟨s', hstep⟩ : ∃ s', step s (.receive r .nonBlocking bufferSize) = some s' := by
    simp only [step, hr.idle, hFree, ↓reduceIte]
    split <;> exact ⟨_, rfl⟩
  refine ⟨s', hstep, ?_⟩
  obtain ⟨-, hOut⟩ := refines_step (l := s.toLog) hs (not_entersWait_nonBlocking s r bufferSize)
    (fun _ _ _ => hBehind) ⟨rfl, rfl⟩ hstep
  rw [Log.output, if_neg (Nat.not_lt.mpr hSize), if_pos rfl] at hOut
  -- the log has no entry at the reader's position exactly when it has read them all
  have hNone : s.toLog.next r = none ↔ s.sent ≤ (s.reader r).lastNum :=
    List.getElem?_eq_none_iff
  have hLe := hr.le
  rw [hOut, List.append_cancel_left_eq, List.cons.injEq, hNone]
  simp only [and_true]
  omega

/--
**First in, first out.** After any run without waits, continue with any sends
and receives that do not wait. As long as fewer than `n` messages have been sent
since the last one returned to reader `r` whenever it receives:

1. its results are exactly those of the log, starting behind the last message
   `L` returned to it;
2. the messages among them are `L + 1, L + 2, …` without a gap;
3. a non-blocking receive returns `false` if and only if no message newer than
   the last one returned has been sent; a writer that holds the mutex gives it
   back first.
-/
theorem keepsUp_refines_log {n maxMsgSize : Nat} {mem : Nat → List UInt8} (hn : 1 ≤ n)
    {pre : List (Action W R)} {s : State W R}
    (hpre : run step (State.init W R n maxMsgSize mem) pre = some s)
    (hQuiet : Along step (fun t a => ¬ EntersWait t a) (State.init W R n maxMsgSize mem) pre)
    {as : List (Action W R)} {s' : State W R} (hrun : run step s as = some s')
    (hQuiet' : Along step (fun t a => ¬ EntersWait t a) s as)
    {r : R} (hUp : Along step (KeepsUp n r) s as) :
    (s'.reader r).results = (s.reader r).results ++ s.toLog.results maxMsgSize r as ∧
    (∃ j, (s'.reader r).delivered =
      (s.reader r).delivered ++ List.range' ((s.reader r).lastNum + 1) j) ∧
    (∀ bufferSize, maxMsgSize ≤ bufferSize → s'.sent < (s'.reader r).lastNum + n →
      ∃ s'', run step s' (s'.release ++ [.receive r .nonBlocking bufferSize]) = some s'' ∧
        ((s''.reader r).results = (s'.reader r).results ++ [none] ↔
          s'.sent = (s'.reader r).lastNum)) := by
  have hStart : Quiet s := inv_of_run (fun _ _ _ hInv hP hstep => quiet_step hInv hP hstep)
    (quiet_init hn) hQuiet hpre
  obtain ⟨hMax, hMaxSize⟩ : s.hdr.maxNumMsg = n ∧ s.hdr.maxMsgSize = maxMsgSize :=
    limits_of_run hpre
  obtain ⟨hEnd, hResults⟩ :=
    refines_run (l := s.toLog) hStart ⟨rfl, rfl⟩ hMax hMaxSize hQuiet' hUp hrun
  refine ⟨hResults, ?_, ?_⟩
  · obtain ⟨j, hj⟩ := Log.results_consecutive maxMsgSize r as s.toLog hStart.inv.ring.nums
    refine ⟨j, ?_⟩
    rw [Reader.delivered, hResults, List.filterMap_append, hj]
    rfl
  · intro bufferSize hSize hBehind
    obtain ⟨hMax', hMaxSize'⟩ := limits_of_run hrun
    rw [hMax] at hMax'
    rw [hMaxSize] at hMaxSize'
    rcases hMutex : s'.mutex with _ | w
    · obtain ⟨s'', hstep, hIff⟩ := nonBlocking_iff hEnd hMutex (hMaxSize' ▸ hSize) (hMax' ▸ hBehind)
      refine ⟨s'', ?_, hIff⟩
      rw [State.release, hMutex]
      exact (run_singleton step _ _).trans hstep
    · -- the writer notifies, and nobody waits
      have hNotify : step s' (.notify w) = some s'.notified := by
        rw [step, if_pos hMutex]
      have hFreed := quiet_step hEnd (not_entersWait_notify s' w) hNotify
      obtain ⟨s'', hstep, hIff⟩ :=
        nonBlocking_iff (r := r) hFreed rfl (hMaxSize' ▸ hSize) (hMax' ▸ hBehind)
      refine ⟨s'', ?_, hIff⟩
      rw [State.release, hMutex]
      exact run_cons_eq_some.mpr ⟨_, hNotify, (run_singleton step _ _).trans hstep⟩

/-- In a ring of two slots a reader that has been given message 1 finds nothing new, is
then given messages 2, 3 and 4, each after its send, and finds nothing new again. -/
theorem keepsUp_refines_log_two :
    ∃ s s' s'', run step (State.init Unit Unit 2 4 fun _ => [])
        [.insert () [7], .notify (), .receive () .nonBlocking 4] = some s ∧
      run step s [.receive () .nonBlocking 4, .insert () [8], .notify (),
        .receive () .nonBlocking 4, .insert () [9], .notify (), .receive () .nonBlocking 4,
        .insert () [6], .notify (), .receive () .nonBlocking 4] = some s' ∧
      run step s' (s'.release ++ [.receive () .nonBlocking 4]) = some s'' ∧
      (s'.reader ()).results =
        [some ⟨1, [7]⟩, none, some ⟨2, [8]⟩, some ⟨3, [9]⟩, some ⟨4, [6]⟩] ∧
      (s''.reader ()).results = (s'.reader ()).results ++ [none] := by
  have hWait (s : State Unit Unit) : ¬ EntersWait s (.receive () .nonBlocking 4) :=
    not_entersWait_nonBlocking s () 4
  obtain ⟨hResults, -, hNext⟩ := @keepsUp_refines_log Unit Unit _ _ 2 4 (fun _ => []) (by decide)
    [.insert () [7], .notify (), .receive () .nonBlocking 4] _ rfl
    (along_of_forall (by simp [not_entersWait_insert, not_entersWait_notify, hWait]) _)
    [.receive () .nonBlocking 4, .insert () [8], .notify (), .receive () .nonBlocking 4,
      .insert () [9], .notify (), .receive () .nonBlocking 4, .insert () [6], .notify (),
      .receive () .nonBlocking 4] _ rfl
    (along_of_forall (by simp [not_entersWait_insert, not_entersWait_notify, hWait]) _)
    () (by decide)
  obtain ⟨s'', hrun, hIff⟩ := hNext 4 le_rfl (by decide)
  exact ⟨_, _, s'', rfl, rfl, hrun, hResults.trans (by decide), hIff.mpr (by decide)⟩

end Sailbot.Ipc

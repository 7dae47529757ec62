import Mathlib.Data.List.Chain
import Sailbot.Ipc.Representation

/-!
# What is delivered to a reader

The two ways in which a message is returned, in terms of message numbers. A
receive that finds something new goes on from the reader's own slot: with `S`
messages sent and `L` the last one returned, it returns the retained message
whose number is `L + 1` modulo the ring (`read_num`), which is `L + 1` itself
as long as the reader has not been lapped. A wake-up forgets the reader's
position and returns the newest message (`wake_num`).

Three consequences, over every interleaving:

* `delivered_increasing_iff` — a reader sees strictly increasing numbers
  exactly as long as no wake-up finds it at the newest message already. A
  notification never does, since its writer has held the mutex from the insert
  on; a spurious wake-up does when nothing was inserted since the wait began.
* `woken_reader_complete_iff` — of the messages sent while a reader waits, it
  receives all exactly when there was only one.
* `lapped_reader_skips` — a reader that is a lap or more behind never resumes
  at the oldest retained message.
-/

namespace Sailbot.Ipc

open Lib

variable {W R : Type}

-- ---------------------------------------------------------------------------
-- Numbers of the messages read
-- ---------------------------------------------------------------------------

namespace RingOk

variable {s : State W R} (hs : RingOk s)
include hs

/-- **A receive that finds something new.** The number read from the slot of
message `L` is the retained one congruent to `L + 1`. -/
theorem read_num {L : Nat} (hL : L ≤ s.sent)
    (hNew : ¬ s.hdr.maxNumMsg ∣ s.sent - L) :
    ∃ m, s.log[s.sent - (s.sent - L) % s.hdr.maxNumMsg]? = some m ∧
      m.num = s.sent - (s.sent - L) % s.hdr.maxNumMsg + 1 ∧
      s.hdr.index (s.hdr.nextMsg (ringSlot s.hdr.maxNumMsg L)) = m ∧
      s.hdr.nextMsg (ringSlot s.hdr.maxNumMsg L) = ringSlot s.hdr.maxNumMsg m.num := by
  have hPos := hs.pos
  set lag := (s.sent - L) % s.hdr.maxNumMsg with hlag
  have hLagPos : 0 < lag := Nat.pos_of_ne_zero fun h => hNew (Nat.dvd_of_mod_eq_zero h)
  have hLagLt : lag < s.hdr.maxNumMsg := Nat.mod_lt _ hPos
  have hLagLe : lag ≤ s.sent - L := Nat.mod_le _ _
  obtain ⟨k, hk, hRetained, hSlot, hLog⟩ :=
    hs.read (by omega) (ringSlot_lt hPos L).le
  have hNext := hs.nextMsg_ringSlot (L := L) (by omega)
  -- the slot of `L + 1` holds the retained number that is congruent to `L + 1`
  have hSame : ringSlot s.hdr.maxNumMsg (L + 1) =
      ringSlot s.hdr.maxNumMsg (s.sent - lag + 1) := by
    rw [ringSlot_eq_ringSlot_iff hPos (by omega)]
    have h : s.sent - lag + 1 - (L + 1) = s.sent - L - lag := by omega
    rw [h]
    exact Nat.dvd_sub_mod _
  have hEq : k + 1 = s.sent - lag + 1 :=
    item_unique hPos (by rw [← hSlot, hNext, hSame]) (by omega) (by omega)
  have hkEq : k = s.sent - lag := by omega
  have hNum := hs.nums k _ hLog
  exact ⟨_, hkEq ▸ hLog, by rw [hNum, hEq], rfl, by rw [hNum, hSlot]⟩

/-- **A wake-up.** The cursor is recomputed from the ring head, so the newest
message is read. -/
theorem wake_num (hSent : 0 < s.sent) :
    (s.hdr.index (s.hdr.nextMsg (s.hdr.curFirstMsg + 1))).num = s.sent := by
  have hNum := hs.num
  have hPos := hs.pos
  have hFirst := hs.first_lt
  have hNext : s.hdr.nextMsg (s.hdr.curFirstMsg + 1) = s.hdr.curFirstMsg := by
    have hDown : s.hdr.stepDown (s.hdr.curFirstMsg + 1) = s.hdr.curFirstMsg := by
      simp [MqHdr.stepDown]
    rw [MqHdr.nextMsg, hDown]
    exact MqHdr.clamp_eq_self hFirst (by omega) hs.num_le (i := 0) (by omega) hFirst (.inl rfl)
  have hLog := hs.slots (s.sent - 1) (by omega) (by omega)
  have hOne : s.sent - 1 + 1 = s.sent := by omega
  rw [hOne, ← hs.first] at hLog
  rw [hNext, hs.nums _ _ hLog, hOne]

end RingOk

variable [DecidableEq W] [DecidableEq R]

-- ---------------------------------------------------------------------------
-- Deliveries only grow
-- ---------------------------------------------------------------------------

/-- A step leaves the results of a reader alone or appends one. -/
theorem results_step {s s' : State W R} {a : Action W R} (h : step s a = some s') (r : R) :
    (s'.reader r).results = (s.reader r).results ∨
    ∃ x, (s'.reader r).results = (s.reader r).results ++ [x] := by
  rcases reader_cases h r with ⟨hSame, -⟩ | hStep
  · exact .inl hSame
  · generalize s'.reader r = d at hStep
    cases hStep with
    | returnFalse => exact .inr ⟨_, rfl⟩
    | enterWait => exact .inl rfl
    | read => exact .inr ⟨_, rfl⟩
    | spurious => exact .inl rfl
    | timeout => exact .inr ⟨_, rfl⟩
    | waitAgain => exact .inl rfl
    | wakeRead => exact .inr ⟨_, rfl⟩

/-- What was returned stays returned. -/
theorem results_mono {s s' : State W R} {as : List (Action W R)}
    (h : run step s as = some s') (r : R) :
    (s.reader r).results <+: (s'.reader r).results := by
  refine rel_of_run (R := fun t t' : State W R => (t.reader r).results <+: (t'.reader r).results)
    (fun _ => List.prefix_rfl) (fun _ _ _ h1 h2 => h1.trans h2) (fun t a t' hstep => ?_) h
  rcases results_step hstep r with hEq | ⟨x, hEq⟩
  · exact hEq ▸ List.prefix_rfl
  · exact hEq ▸ List.prefix_append _ _

/-- What was delivered stays delivered. -/
theorem delivered_mono {s s' : State W R} {as : List (Action W R)}
    (h : run step s as = some s') (r : R) :
    (s.reader r).delivered <+: (s'.reader r).delivered :=
  (results_mono h r).filterMap _

/-- A reader's deliveries change by one read only. -/
theorem delivered_step {s s' : State W R} {a : Action W R} (h : step s a = some s') (r : R) :
    (s'.reader r).delivered = (s.reader r).delivered ∨
    ∃ m, (s'.reader r).results = (s.reader r).results ++ [some m] ∧
      (s'.reader r).delivered = (s.reader r).delivered ++ [m.num] := by
  rcases results_step h r with hEq | ⟨x, hEq⟩
  · exact .inl (by rw [Reader.delivered, hEq, Reader.delivered])
  · cases x with
    | none => exact .inl (by simp [Reader.delivered, hEq])
    | some m => exact .inr ⟨m, hEq, by simp [Reader.delivered, hEq]⟩

/-- The number of a message just read, against the last one before it. A
receive moves forward; a wake-up goes to the newest message. -/
theorem read_after_last {s s' : State W R} {a : Action W R} {r : R} {m : Msg} (hs : Inv s)
    (h : step s a = some s')
    (hRes : (s'.reader r).results = (s.reader r).results ++ [some m]) :
    (a = .relock r ∧ m.num = s.sent) ∨
    (∃ block bufferSize, a = .receive r block bufferSize) ∧
      ∀ L, (s.reader r).last = some L → L < m.num := by
  obtain ⟨curMsg, hSource, -, hMsg⟩ := read_of_results h hRes
  rcases hSource with ⟨block, bufferSize, rfl, rfl, hNew⟩ | ⟨rfl, rfl, hEmpty⟩
  · refine .inr ⟨⟨block, bufferSize, rfl⟩, ?_⟩
    intro L hL
    obtain ⟨hPos, hLe, hCur⟩ := (hs.reader r).last L hL
    rw [hCur] at hNew hMsg
    obtain ⟨m', -, hNum, hIndex, -⟩ := hs.ring.read_num hLe (hs.ring.not_dvd_of_new hLe hNew)
    have hMod := Nat.mod_le (s.sent - L) s.hdr.maxNumMsg
    rw [hMsg, hIndex, hNum]
    omega
  · refine .inl ⟨rfl, ?_⟩
    rw [hMsg]
    exact hs.ring.wake_num (hs.ring.isEmpty_eq_false.mp hEmpty)

-- ---------------------------------------------------------------------------
-- At most once and in order
-- ---------------------------------------------------------------------------

/-- A reader re-acquires the mutex after a wake-up although the newest message
is the one that was returned to it last. -/
def StaleWake (s : State W R) (a : Action W R) : Prop :=
  ∃ r, a = .relock r ∧ (s.reader r).last = some s.sent

/-- A step that is no stale wake-up keeps every reader's deliveries increasing. -/
theorem delivered_increasing_step {s s' : State W R} {a : Action W R} (hs : Inv s)
    (hFresh : ¬ StaleWake s a) (h : step s a = some s')
    (hInc : ∀ r, (s.reader r).delivered.IsChain (· < ·)) :
    ∀ r, (s'.reader r).delivered.IsChain (· < ·) := by
  intro r
  rcases delivered_step h r with hEq | ⟨m, hRes, hEq⟩
  · rw [hEq]
    exact hInc r
  · rw [hEq, List.isChain_append]
    refine ⟨hInc r, List.isChain_singleton _, ?_⟩
    intro L hL x hx
    have hx' : x = m.num := by simpa using hx.symm
    subst hx'
    rcases read_after_last hs h hRes with ⟨rfl, hNum⟩ | ⟨-, hLt⟩
    · obtain ⟨-, hLe, -⟩ := (hs.reader r).last L hL
      have hNe : L ≠ s.sent := fun hEq => hFresh ⟨r, rfl, hEq ▸ hL⟩
      omega
    · exact hLt L hL

/-- A reader that takes the mutex again was woken. -/
theorem woken_of_relock {s s' : State W R} {r : R} (h : step s (.relock r) = some s') :
    ∃ block, (s.reader r).pc = .woken block := by
  simp only [step] at h
  split at h
  · next hPc => exact ⟨_, hPc⟩
  · cases h

/-- A woken reader on a queue that is not empty returns the newest message. -/
theorem returned_of_relock {s s' : State W R} {r : R} (hs : Inv s) (hSent : 0 < s.sent)
    (h : step s (.relock r) = some s') :
    (s'.reader r).returned = (s.reader r).returned ++ [some s.sent] ∧
    (s'.reader r).delivered = (s.reader r).delivered ++ [s.sent] := by
  obtain ⟨-, hThrows⟩ | ⟨_, _, _, hAct, -⟩ | ⟨_, hAct, -⟩ | ⟨q, d, hStep, rfl⟩ := step_cases h
  · exact hThrows.elim
  · cases hAct
  · cases hAct
  · cases hStep with
    | waitAgain hFree hWoken hEmpty =>
      rw [hs.ring.isEmpty_eq_false.mpr hSent] at hEmpty
      cases hEmpty
    | wakeRead hFree hWoken hEmpty =>
      have hNum := hs.ring.wake_num hSent
      rw [State.setReader_self, Reader.delivered_after_pick, hNum]
      exact ⟨by rw [Reader.returned, Reader.results_after_pick]; simp [Reader.returned, hNum], rfl⟩

/-- Every reader's numbers are increasing exactly when no step was a stale wake-up. -/
theorem increasing_iff_no_stale {n maxMsgSize : Nat} {mem : Nat → List UInt8} (hn : 1 ≤ n)
    {as : List (Action W R)} {s : State W R}
    (hrun : run step (State.init W R n maxMsgSize mem) as = some s) :
    (∀ r, (s.reader r).delivered.Pairwise (· < ·)) ↔
      Along step (fun t a => ¬ StaleWake t a) (State.init W R n maxMsgSize mem) as := by
  simp only [← List.isChain_iff_pairwise]
  constructor
  · intro hInc
    by_contra hNot
    obtain ⟨pre, a, post, t, rfl, hpre, -, hStale⟩ := exists_step_of_not_along hNot
    rw [not_not] at hStale
    obtain ⟨r, rfl, hLast⟩ := hStale
    obtain ⟨t₁, hpre₁, hrest⟩ := run_append_eq_some.mp hrun
    rw [hpre, Option.some.injEq] at hpre₁
    subst hpre₁
    obtain ⟨t', hstep, hpost⟩ := run_cons_eq_some.mp hrest
    -- the repeated number stays in the history of the reader
    have hInv := inv_of_reachable hn hpre
    have hTwice := (returned_of_relock hInv ((hInv.reader r).last _ hLast).1 hstep).2
    have hChain := List.IsChain.prefix (hInc r) (delivered_mono hpost r)
    rw [hTwice, List.isChain_append] at hChain
    exact absurd (hChain.2.2 t.sent hLast t.sent rfl) (lt_irrefl _)
  · intro hFresh
    have hGood : Inv s ∧ ∀ r, (s.reader r).delivered.IsChain (· < ·) := by
      refine inv_of_run (I := fun t => Inv t ∧ ∀ r, (t.reader r).delivered.IsChain (· < ·))
        (fun t a t' hInv hP hstep => ?_) ⟨inv_init hn, fun r => ?_⟩ hFresh hrun
      · exact ⟨inv_step hInv.1 hstep, delivered_increasing_step hInv.1 hP hstep hInv.2⟩
      · exact List.isChain_nil
    exact hGood.2

-- ---------------------------------------------------------------------------
-- Where stale wake-ups come from
-- ---------------------------------------------------------------------------

/-- While a writer holds the mutex, nobody has been given the message that it has
inserted: a reader would need the mutex. -/
def NewestUnread (s : State W R) : Prop :=
  s.mutex ≠ none → ∀ r, (s.reader r).last ≠ some s.sent

omit [DecidableEq W] [DecidableEq R] in
/-- A message that is inserted is newer than all that were there to be returned. -/
theorem last_ne_of_inserted {s : State W R} (hs : Inv s) (w : W) (m : Msg) (hdr : MqHdr) (r : R) :
    ((s.inserted w m hdr).reader r).last ≠ some (s.inserted w m hdr).sent := by
  intro hLast
  obtain ⟨-, hLe, -⟩ := (hs.reader r).last _ hLast
  have hSent : (s.inserted w m hdr).sent = s.sent + 1 := by simp [State.inserted, State.sent]
  omega

/-- Every step keeps the message unread while its writer holds the mutex. -/
theorem newestUnread_step {s s' : State W R} {a : Action W R} (hs : Inv s)
    (hUnread : NewestUnread s) (h : step s a = some s') : NewestUnread s' := by
  intro hHeld r
  obtain ⟨rfl, -⟩ | ⟨w, buffer, hdr, rfl, -, -, rfl⟩ | ⟨w, rfl, -, rfl⟩ | ⟨q, d, hStep, rfl⟩ :=
    step_cases h
  · exact hUnread hHeld r
  · exact last_ne_of_inserted hs w _ hdr r
  · exact absurd rfl hHeld
  · cases hStep with
    | @spurious block hWait =>
      by_cases hq : r = q
      · subst hq
        rw [State.setReader_self]
        exact hUnread hHeld r
      · rw [State.setReader_of_ne s _ hq]
        exact hUnread hHeld r
    | returnFalse hFree | enterWait hFree | read hFree | timeout hFree | waitAgain hFree
    | wakeRead hFree => exact absurd hFree hHeld

/-- So it is in every state that a run reaches. -/
theorem newestUnread_of_reachable {n maxMsgSize : Nat} {mem : Nat → List UInt8} (hn : 1 ≤ n)
    {as : List (Action W R)} {s : State W R}
    (hrun : run step (State.init W R n maxMsgSize mem) as = some s) : NewestUnread s := by
  have hBoth : Inv s ∧ NewestUnread s := by
    refine inv_of_run_forall (I := fun t => Inv t ∧ NewestUnread t) ?_ ?_ hrun
    · exact fun t a t' hInv hstep => ⟨inv_step hInv.1 hstep, newestUnread_step hInv.1 hInv.2 hstep⟩
    · exact ⟨inv_init hn, fun hHeld => absurd rfl hHeld⟩
  exact hBoth.2

/-- In the run `pre` to `t`, the wait of reader `r` ended without a notification;
since then nothing was inserted, and nothing returned to `r`. -/
def SpuriouslyWoken (s₀ : State W R) (pre : List (Action W R)) (r : R) (t : State W R) : Prop :=
  ∃ pre₁ pre₂ u, pre = pre₁ ++ .spurious r :: pre₂ ∧ run step s₀ pre₁ = some u ∧
    u.log = t.log ∧ (u.reader r).results = (t.reader r).results

/-- A step that leaves the log and the reader's results keeps what the run has shown. -/
theorem SpuriouslyWoken.concat {s₀ u t : State W R} {pre : List (Action W R)} {r : R}
    (h : SpuriouslyWoken s₀ pre r u) (a : Action W R) (hLog : u.log = t.log)
    (hResults : (u.reader r).results = (t.reader r).results) :
    SpuriouslyWoken s₀ (pre ++ [a]) r t := by
  obtain ⟨pre₁, pre₂, v, rfl, hv, hvLog, hvResults⟩ := h
  exact ⟨pre₁, pre₂ ++ [a], v, by simp, hv, hvLog.trans hLog, hvResults.trans hResults⟩

/-- A woken reader that has been given the newest message already was woken by no
notification. By induction on the run, from its end: a `notify` wakes nobody who has
the newest message, and no other step of another process wakes anybody. -/
theorem spuriouslyWoken_of_woken {n maxMsgSize : Nat} {mem : Nat → List UInt8} (hn : 1 ≤ n)
    {r : R} {block : Block} {pre : List (Action W R)} :
    ∀ {t : State W R}, run step (State.init W R n maxMsgSize mem) pre = some t →
      (t.reader r).pc = .woken block → (t.reader r).last = some t.sent →
      SpuriouslyWoken (State.init W R n maxMsgSize mem) pre r t := by
  induction pre using List.reverseRecOn with
  | nil =>
    intro t hrun hPc _
    obtain rfl := Option.some.inj hrun
    cases hPc
  | append_singleton pre a ih =>
    intro t hrun hPc hLast
    obtain ⟨u, hu, hstep⟩ := run_concat_eq_some.mp hrun
    obtain ⟨rfl, -⟩ | ⟨w, buffer, hdr, rfl, -, -, rfl⟩ | ⟨w, rfl, hHeld, rfl⟩ |
      ⟨q, d, hStep, rfl⟩ := step_cases hstep
    · exact (ih hu hPc hLast).concat a rfl rfl
    · exact absurd hLast (last_ne_of_inserted (inv_of_reachable hn hu) w _ hdr r)
    · have hHeldNe : u.mutex ≠ none := by simp [hHeld]
      exact absurd hLast (newestUnread_of_reachable hn hu hHeldNe r)
    · by_cases hq : r = q
      · subst hq
        rw [State.setReader_self] at hPc
        cases hStep with
        | @spurious block hWait =>
          exact ⟨pre, [], u, rfl, hu, rfl, by rw [State.setReader_self]⟩
        | returnFalse | enterWait | read | timeout | waitAgain | wakeRead => cases hPc
      · have hSame := State.setReader_of_ne u d hq
        rw [hSame] at hPc hLast
        exact (ih hu hPc hLast).concat a rfl (by rw [hSame])

/--
**In-order, at-most-once delivery, exactly.** After any interleaving, every
reader has been given strictly increasing message numbers if and only if no
step of it was a stale wake-up: a reader re-acquiring the mutex while the newest
message is the one it returned last. And every such wake-up is a spurious one, with
no message inserted before the reader has the mutex again.
-/
theorem delivered_increasing_iff {n maxMsgSize : Nat} {mem : Nat → List UInt8} (hn : 1 ≤ n)
    {as : List (Action W R)} {s : State W R}
    (hrun : run step (State.init W R n maxMsgSize mem) as = some s) :
    ((∀ r, (s.reader r).delivered.Pairwise (· < ·)) ↔
      Along step (fun t a => ¬ StaleWake t a) (State.init W R n maxMsgSize mem) as) ∧
    ∀ pre r post t, as = pre ++ .relock r :: post →
      run step (State.init W R n maxMsgSize mem) pre = some t → StaleWake t (.relock r) →
      SpuriouslyWoken (State.init W R n maxMsgSize mem) pre r t := by
  refine ⟨increasing_iff_no_stale hn hrun, ?_⟩
  rintro pre r post t rfl ht ⟨q, hAct, hLast⟩
  obtain rfl : r = q := by
    injection hAct
  rw [run_append, ht, Option.bind_some] at hrun
  obtain ⟨t', hstep, -⟩ := run_cons_eq_some.mp hrun
  obtain ⟨block, hPc⟩ := woken_of_relock hstep
  exact spuriouslyWoken_of_woken hn ht hPc hLast

/-- A reader that waits on the empty queue and is woken by the first message, then waits
again and is woken by nothing and by the second one. -/
theorem delivered_increasing_iff_woken :
    ∃ s, run step (State.init Unit Unit 2 4 fun _ => [])
        [.receive () .timed 4, .insert () [7], .notify (), .relock (), .receive () .timed 4,
          .spurious (), .insert () [8], .notify (), .relock ()] = some s ∧
      (s.reader ()).delivered = [1, 2] ∧
      ((∀ r, (s.reader r).delivered.Pairwise (· < ·)) ↔
        Along step (fun t a => ¬ StaleWake t a) (State.init Unit Unit 2 4 fun _ => [])
          [.receive () .timed 4, .insert () [7], .notify (), .relock (), .receive () .timed 4,
            .spurious (), .insert () [8], .notify (), .relock ()]) := by
  obtain ⟨s, hs, hDelivered⟩ := Option.map_eq_some_iff.mp
    (show (run step (State.init Unit Unit 2 4 fun _ => [])
        [.receive () .timed 4, .insert () [7], .notify (), .relock (), .receive () .timed 4,
          .spurious (), .insert () [8], .notify (), .relock ()]).map
        (fun s => (s.reader ()).delivered) = some [1, 2] by decide)
  exact ⟨s, hs, hDelivered, (delivered_increasing_iff (by decide) hs).1⟩

/-- A reader that has picked up message 1 waits for the next one; its wait ends without a
notification, and message 1 is returned again. -/
theorem spurious_wake_repeats :
    ∃ s, run step (State.init Unit Unit 2 4 fun _ => [])
        [.insert () [7], .notify (), .receive () .timed 4, .receive () .timed 4, .spurious (),
          .relock ()] = some s ∧
      (s.reader ()).delivered = [1, 1] ∧ ¬ (s.reader ()).delivered.Pairwise (· < ·) := by
  have hTwice : (run step (State.init Unit Unit 2 4 fun _ => [])
      [.insert () [7], .notify (), .receive () .timed 4, .receive () .timed 4, .spurious (),
        .relock ()]).map (fun s => (s.reader ()).delivered) = some [1, 1] := by decide
  obtain ⟨s, hs, hDelivered⟩ := Option.map_eq_some_iff.mp hTwice
  exact ⟨s, hs, hDelivered, by rw [hDelivered]; decide⟩

-- ---------------------------------------------------------------------------
-- Messages sent while a reader waits
-- ---------------------------------------------------------------------------

/-- The locked sections of reader `r` itself. -/
def Action.OwnedBy (r : R) : Action W R → Prop
  | .receive q _ _ => q = r
  | .timeout q => q = r
  | .relock q => q = r
  | _ => False

/-- Only a reader's own locked sections add to its results. -/
theorem results_of_not_owned {r : R} {as : List (Action W R)} (hOwn : ∀ a ∈ as, ¬ a.OwnedBy r)
    {s s' : State W R} (h : run step s as = some s') :
    (s'.reader r).results = (s.reader r).results := by
  refine inv_of_run (I := fun t : State W R => (t.reader r).results = (s.reader r).results)
    (P := fun _ a => ¬ a.OwnedBy r) (fun t a t' hEq hNot hstep => ?_) rfl
    (along_of_forall (fun a ha _ => hOwn a ha) s) h
  rw [← hEq]
  rcases reader_cases hstep r with ⟨hSame, -⟩ | hStep
  · exact hSame
  · generalize t'.reader r = d at hStep
    cases hStep with
    | spurious => rfl
    | returnFalse | enterWait | read | timeout | waitAgain | wakeRead => exact (hNot rfl).elim

/-- A step that makes a reader wait returns nothing to it. -/
theorem results_of_wait {s s' : State W R} {r : R} {block : Block} {bufferSize : Nat}
    (h : step s (.receive r block bufferSize) = some s')
    (hPc : (s'.reader r).pc = .waiting block) :
    (s'.reader r).results = (s.reader r).results ∧ s'.log = s.log := by
  obtain ⟨rfl, -⟩ | ⟨_, _, _, hAct, -⟩ | ⟨_, hAct, -⟩ | ⟨q, d, hStep, rfl⟩ := step_cases h
  · exact ⟨rfl, rfl⟩
  · cases hAct
  · cases hAct
  · cases hStep with
    | returnFalse => rw [State.setReader_self] at hPc; cases hPc
    | enterWait => rw [State.setReader_self]; exact ⟨rfl, rfl⟩
    | read => rw [State.setReader_self] at hPc; cases hPc

/--
**Wake-up after a burst, exactly.** A reader that has read every message enters
the wait of a blocking or timed receive; `k` messages are inserted before it
re-acquires the mutex, which it can when no writer has it. Then this receive and
`k - 1` more return exactly these `k` messages in order if and only if `k = 1`:
for a longer burst the wake-up returns the newest message and the others are lost
to this reader.
-/
theorem woken_reader_complete_iff {n maxMsgSize : Nat} {mem : Nat → List UInt8} (hn : 1 ≤ n)
    {pre : List (Action W R)} {s₀ : State W R}
    (hpre : run step (State.init W R n maxMsgSize mem) pre = some s₀)
    {r : R} (hRead : (s₀.reader r).last = some s₀.sent)
    {block : Block} {bufferSize : Nat} {s₁ : State W R}
    (hWait : step s₀ (.receive r block bufferSize) = some s₁)
    (hPc : (s₁.reader r).pc = .waiting block)
    {mid : List (Action W R)} {s₂ : State W R} (hmid : run step s₁ mid = some s₂)
    (hOwn : ∀ a ∈ mid, ¬ a.OwnedBy r) (hWoken : (s₂.reader r).pc = .woken block)
    (hFree : s₂.mutex = none) {k : Nat} (hk : s₂.sent = s₀.sent + k)
    (further : List Block) (hFurther : further.length = k - 1) :
    (∃ s', run step s₂ (.relock r :: further.map fun b => .receive r b bufferSize) = some s' ∧
      (s'.reader r).returned =
        (s₀.reader r).returned ++ (List.range' (s₀.sent + 1) k).map some) ↔ k = 1 := by
  have hInv₀ := inv_of_reachable hn hpre
  have hInv₂ := inv_of_run_step (inv_step hInv₀ hWait) hmid
  have hSent : 0 < s₂.sent := by
    have := ((hInv₀.reader r).last _ hRead).1
    omega
  -- nothing was returned to the reader between the two states
  have hSame : (s₂.reader r).returned = (s₀.reader r).returned := by
    rw [Reader.returned, results_of_not_owned hOwn hmid, (results_of_wait hWait hPc).1,
      Reader.returned]
  obtain ⟨s₃, hstep⟩ : ∃ s₃, step s₂ (.relock r) = some s₃ := by
    simp only [step, hWoken, hFree, ↓reduceIte]
    exact ⟨_, rfl⟩
  have hRet := (returned_of_relock hInv₂ hSent hstep).1
  rw [hSame, hk] at hRet
  constructor
  · rintro ⟨s', hrun, hAll⟩
    obtain ⟨t, ht, hrest⟩ := run_cons_eq_some.mp hrun
    rw [hstep, Option.some.injEq] at ht
    subst ht
    -- the first number returned is both `s₀.sent + k` and `s₀.sent + 1`
    obtain ⟨tail, hTail⟩ := (results_mono hrest r).map (Option.map Msg.num)
    have hEq : (s₀.reader r).returned ++ (some (s₀.sent + k) :: tail) =
        (s₀.reader r).returned ++ (List.range' (s₀.sent + 1) k).map some := by
      rw [← hAll, List.append_cons, ← hRet]
      exact hTail
    rw [List.append_cancel_left_eq] at hEq
    cases k with
    | zero => cases hEq
    | succ k =>
      rw [List.range'_succ, List.map_cons, List.cons.injEq, Option.some.injEq] at hEq
      omega
  · rintro rfl
    have hNil : further = [] := List.length_eq_zero_iff.mp hFurther
    subst hNil
    exact ⟨s₃, run_cons_eq_some.mpr ⟨s₃, hstep, rfl⟩, hRet⟩

/-- A reader that has read message 1, waits, and is woken for message 2 alone. -/
theorem woken_reader_complete_iff_one :
    ∃ s₀ s₂ : State Unit Unit,
      run step (State.init Unit Unit 3 4 fun _ => [])
        [.insert () [1], .notify (), .receive () .timed 4] = some s₀ ∧
      run step s₀ [.receive () .timed 4, .insert () [2], .notify ()] = some s₂ ∧
      ((∃ s', run step s₂ [.relock ()] = some s' ∧ (s'.reader ()).returned =
          (s₀.reader ()).returned ++ (List.range' (s₀.sent + 1) 1).map some) ↔ 1 = 1) := by
  obtain ⟨s₀, hpre, hs₀⟩ := Option.map_eq_some_iff.mp
    (show (run step (State.init Unit Unit 3 4 fun _ => [])
      [.insert () [1], .notify (), .receive () .timed 4]).map
        (fun s => ((s.reader ()).last, s.sent)) = some (some 1, 1) by decide)
  obtain ⟨s₁, hpre₁, hs₁⟩ := Option.map_eq_some_iff.mp
    (show (run step (State.init Unit Unit 3 4 fun _ => [])
      ([.insert () [1], .notify (), .receive () .timed 4] ++ [.receive () .timed 4])).map
        (fun s => (s.reader ()).pc) = some (.waiting .timed) by decide)
  obtain ⟨s₂, hpre₂, hs₂⟩ := Option.map_eq_some_iff.mp
    (show (run step (State.init Unit Unit 3 4 fun _ => [])
      ([.insert () [1], .notify (), .receive () .timed 4] ++
        [.receive () .timed 4, .insert () [2], .notify ()])).map
        (fun s => ((s.reader ()).pc, s.mutex, s.sent)) = some (.woken .timed, none, 2) by decide)
  rw [run_append, hpre, Option.bind_some] at hpre₁ hpre₂
  simp only [Prod.mk.injEq] at hs₀ hs₂
  refine ⟨s₀, s₂, hpre, hpre₂, ?_⟩
  obtain ⟨t, hWait, hmid⟩ := run_cons_eq_some.mp hpre₂
  rw [run_cons, hWait, Option.bind_some, run_nil, Option.some.injEq] at hpre₁
  subst hpre₁
  exact woken_reader_complete_iff (by decide) hpre (by rw [hs₀.1, hs₀.2]) hWait hs₁ hmid
    (by simp [Action.OwnedBy]) hs₂.1 hs₂.2.1 (by rw [hs₂.2.2, hs₀.2]) [] rfl

/-- Messages 2 and 3 are sent while the reader waits: the receive that was
waiting returns message 3, and nothing new is left for the next one. -/
theorem woken_reader_loses_message :
    ∃ s, run step (State.init Unit Unit 3 4 fun _ => [])
        ([.insert () [1], .notify (), .receive () .timed 4] ++
          [.receive () .timed 4, .insert () [2], .notify (), .insert () [3], .notify ()] ++
          [.relock (), .receive () .nonBlocking 4]) = some s ∧
      (s.reader ()).returned = [some 1, some 3, none] ∧
      (s.reader ()).returned ≠ [some 1] ++ (List.range' 2 2).map some := by
  obtain ⟨s, hs, hReturned⟩ := Option.map_eq_some_iff.mp
    (show (run step (State.init Unit Unit 3 4 fun _ => [])
      ([.insert () [1], .notify (), .receive () .timed 4] ++
        [.receive () .timed 4, .insert () [2], .notify (), .insert () [3], .notify ()] ++
        [.relock (), .receive () .nonBlocking 4])).map
        (fun s => (s.reader ()).returned) = some [some 1, some 3, none] by decide)
  exact ⟨s, hs, hReturned, by rw [hReturned]; decide⟩

-- ---------------------------------------------------------------------------
-- A lap or more behind
-- ---------------------------------------------------------------------------

/-- What one receive with a large enough buffer does for an idle reader. -/
theorem receive_cases {s s' : State W R} {r : R} {block : Block} {bufferSize : Nat}
    (hSize : s.hdr.maxMsgSize ≤ bufferSize)
    (h : step s (.receive r block bufferSize) = some s') :
    (s.hdr.nothingNew (s.reader r).curMsg = true ∧
      ((s'.reader r).returned = (s.reader r).returned ++ [none] ∨
        (s'.reader r).returned = (s.reader r).returned ∧ (s'.reader r).pc ≠ .idle)) ∨
    (s.hdr.nothingNew (s.reader r).curMsg = false ∧
      (s'.reader r).returned = (s.reader r).returned ++
        [some (s.hdr.index (s.hdr.nextMsg (s.reader r).curMsg)).num]) := by
  obtain ⟨-, hThrows⟩ | ⟨_, _, _, hAct, -⟩ | ⟨_, hAct, -⟩ | ⟨q, d, hStep, rfl⟩ := step_cases h
  · exact absurd hSize (Nat.not_le_of_lt hThrows)
  · cases hAct
  · cases hAct
  · cases hStep with
    | returnFalse hFree hSize hIdle hNew =>
      rw [State.setReader_self]
      exact .inl ⟨hNew, .inl (by simp [Reader.returned, Reader.after])⟩
    | enterWait hFree hSize hIdle hBlock hNew =>
      rw [State.setReader_self]
      exact .inl ⟨hNew, .inr ⟨rfl, by simp⟩⟩
    | read hFree hSize hIdle hNew =>
      rw [State.setReader_self]
      exact .inr ⟨hNew, by simp [Reader.returned, Reader.after, MqHdr.pick]⟩

/--
**A lapped reader does not resume at the oldest message.** When at least `n`
messages have been sent since the last one returned to a reader, its next `n`
receives never return the `n` retained messages in order and then find nothing
new: after a whole number of laps the first one already finds nothing new, and
otherwise it skips every retained message older than its own slot.
-/
theorem lapped_reader_skips {n maxMsgSize : Nat} {mem : Nat → List UInt8} (hn : 1 ≤ n)
    {as : List (Action W R)} {s : State W R}
    (hrun : run step (State.init W R n maxMsgSize mem) as = some s)
    {r : R} {L : Nat} (hLast : (s.reader r).last = some L) (hLap : L + n ≤ s.sent)
    {bufferSize : Nat} (hSize : maxMsgSize ≤ bufferSize)
    (blocks : List Block) (hBlocks : blocks.length = n) :
    ¬ ∃ s', run step s (blocks.map fun b => .receive r b bufferSize) = some s' ∧
      (s'.reader r).returned =
        (s.reader r).returned ++ (List.range' (s.sent - n + 1) n).map some ∧
      s'.hdr.nothingNew (s'.reader r).curMsg = true := by
  rintro ⟨s', hrest, hAll, -⟩
  have hInv := inv_of_reachable hn hrun
  obtain ⟨hMax, hMaxSize⟩ : s.hdr.maxNumMsg = n ∧ s.hdr.maxMsgSize = maxMsgSize :=
    limits_of_run hrun
  obtain ⟨-, hLe, hCur⟩ := (hInv.reader r).last L hLast
  obtain ⟨b, rest, rfl⟩ := List.exists_cons_of_length_pos (l := blocks) (by omega)
  obtain ⟨t, hstep, hrest⟩ := run_cons_eq_some.mp hrest
  obtain ⟨tail, hTail⟩ := (results_mono hrest r).map (Option.map Msg.num)
  change (t.reader r).returned ++ tail = (s'.reader r).returned at hTail
  obtain ⟨k, rfl⟩ : ∃ k, n = k + 1 := ⟨n - 1, by omega⟩
  rw [hAll, List.range'_succ, List.map_cons] at hTail
  rcases receive_cases (hMaxSize ▸ hSize) hstep with ⟨hNew, hRet | ⟨hRet, hPc⟩⟩ | ⟨hNew, hRet⟩
  · -- reported as nothing new
    rw [hRet, List.append_assoc, List.append_cancel_left_eq] at hTail
    cases hTail
  · -- waits: no further receive can start, and this one has returned nothing
    cases rest with
    | nil =>
      rw [List.map_nil, run_nil, Option.some.injEq] at hrest
      rw [← hrest, hRet] at hAll
      have hLen := congrArg List.length hAll
      simp at hLen
    | cons b' rest =>
      obtain ⟨u, hu, -⟩ := run_cons_eq_some.mp hrest
      simp only [step] at hu
      cases hu
  · rw [hCur] at hNew hRet
    have hLag := hInv.ring.not_dvd_of_new hLe hNew
    obtain ⟨m, -, hNum, hIndex, -⟩ := hInv.ring.read_num hLe hLag
    rw [hIndex, hNum] at hRet
    rw [hRet, List.append_assoc, List.append_cancel_left_eq, List.singleton_append,
      List.cons.injEq, Option.some.injEq] at hTail
    -- the lag is never a whole lap, so the number is not that of the oldest message
    have hLt := Nat.mod_lt (s.sent - L) hInv.ring.pos
    omega

/-- In a ring of three slots a reader is given message 1, then four more are
sent: it skips the oldest retained message, number 3. -/
theorem lapped_reader_skips_one :
    ∃ s, run step (State.init Unit Unit 3 4 fun _ => [])
        [.insert () [1], .notify (), .receive () .timed 4, .insert () [2], .notify (),
          .insert () [3], .notify (), .insert () [4], .notify (), .insert () [5],
          .notify ()] = some s ∧
      ¬ ∃ s', run step s ([.timed, .timed, .timed].map fun b => .receive () b 4) = some s' ∧
        (s'.reader ()).returned =
          (s.reader ()).returned ++ (List.range' (s.sent - 3 + 1) 3).map some ∧
        s'.hdr.nothingNew (s'.reader ()).curMsg = true := by
  obtain ⟨s, hrun, hs⟩ := Option.map_eq_some_iff.mp
    (show (run step (State.init Unit Unit 3 4 fun _ => [])
      [.insert () [1], .notify (), .receive () .timed 4, .insert () [2], .notify (),
        .insert () [3], .notify (), .insert () [4], .notify (), .insert () [5], .notify ()]).map
        (fun s => ((s.reader ()).last, s.sent)) = some (some 1, 5) by decide)
  rw [Prod.mk.injEq] at hs
  exact ⟨s, hrun, lapped_reader_skips (by decide) hrun hs.1 (by omega) le_rfl
    [.timed, .timed, .timed] rfl⟩

/-- That reader is given message 5 where the oldest retained one is number 3;
exactly one lap behind, with messages 2, 3 and 4 retained, it is even told that
there is nothing new. -/
theorem lapped_reader_misses_oldest :
    (∃ s, run step (State.init Unit Unit 3 4 fun _ => [])
        [.insert () [1], .notify (), .receive () .timed 4, .insert () [2], .notify (),
          .insert () [3], .notify (), .insert () [4], .notify (), .insert () [5], .notify (),
          .receive () .nonBlocking 4] = some s ∧ s.sent = 5 ∧
      (s.reader ()).returned = [some 1, some 5] ∧
      (s.reader ()).returned ≠ [some 1] ++ [some (5 - 3 + 1)]) ∧
    ∃ s, run step (State.init Unit Unit 3 4 fun _ => [])
        [.insert () [1], .notify (), .receive () .timed 4, .insert () [2], .notify (),
          .insert () [3], .notify (), .insert () [4], .notify (),
          .receive () .nonBlocking 4] = some s ∧ s.sent = 4 ∧
      (s.reader ()).returned = [some 1, none] := by
  obtain ⟨s, hs, hSent⟩ := Option.map_eq_some_iff.mp
    (show (run step (State.init Unit Unit 3 4 fun _ => [])
      [.insert () [1], .notify (), .receive () .timed 4, .insert () [2], .notify (),
        .insert () [3], .notify (), .insert () [4], .notify (), .insert () [5], .notify (),
        .receive () .nonBlocking 4]).map (fun s => (s.sent, (s.reader ()).returned)) =
      some (5, [some 1, some 5]) by decide)
  obtain ⟨t, ht, htSent⟩ := Option.map_eq_some_iff.mp
    (show (run step (State.init Unit Unit 3 4 fun _ => [])
      [.insert () [1], .notify (), .receive () .timed 4, .insert () [2], .notify (),
        .insert () [3], .notify (), .insert () [4], .notify (),
        .receive () .nonBlocking 4]).map (fun s => (s.sent, (s.reader ()).returned)) =
      some (4, [some 1, none]) by decide)
  rw [Prod.mk.injEq] at hSent htSent
  exact ⟨⟨s, hs, hSent.1, hSent.2, by rw [hSent.2]; decide⟩, t, ht, htSent⟩

end Sailbot.Ipc

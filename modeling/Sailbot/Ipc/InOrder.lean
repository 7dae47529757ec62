import Sailbot.Lib.Channel
import Sailbot.Ipc.Delivery

/-!
# The queue as a channel

Writers and readers of the ring cannot tell it from a channel (`Lib.Channel`), however they are
interleaved, whoever waits, and however far a reader is behind: readers miss messages and may be
given the newest one twice, but every message that is returned is one that was sent, whole, and
nobody goes back.

* `State.toChannel`      — the log, and for every reader the positions of what it was given.
* `refines_channel_step` — a step of the ring is at most one step of the channel.
* `ring_refines_channel` — the refinement over whole runs.
-/

namespace Sailbot.Ipc

open Lib

variable {W R : Type}

/-- The messages that were returned to a reader. -/
def Reader.messages (d : Reader) : List Msg := d.results.filterMap id

/-- The log, and the positions of the messages that were returned. -/
def State.toChannel (s : State W R) : Channel Msg R where
  sent := s.log
  got := fun r => (s.reader r).delivered.map (· - 1)

/-- A step that returns no message keeps all places. -/
theorem toChannel_eq {s s' : State W R} (hLog : s'.log = s.log)
    (hSame : ∀ r, (s'.reader r).delivered = (s.reader r).delivered) :
    s'.toChannel = s.toChannel := by
  have hGot : s'.toChannel.got = s.toChannel.got :=
    funext fun r => congrArg (List.map (· - 1)) (hSame r)
  exact congrArg₂ Channel.mk hLog hGot

variable [DecidableEq W] [DecidableEq R] {s s' : State W R} {a : Action W R}

/-- The position of the message that a step returns. -/
theorem returned_position (hs : Inv s) (h : step s a = some s') {r : R} {m : Msg}
    (hRes : (s'.reader r).results = (s.reader r).results ++ [some m]) :
    s.log[m.num - 1]? = some m ∧ s.toChannel.Ready r (m.num - 1) := by
  obtain ⟨curMsg, hSource, -, hMsg⟩ := read_of_results h hRes
  have hEntry : 0 < s.sent ∧ curMsg ≤ s.hdr.maxNumMsg := by
    rcases hSource with ⟨_, _, -, rfl, hNew⟩ | ⟨-, rfl, hEmpty⟩
    · exact ⟨hs.ring.sent_pos_of_new hNew, (hs.reader r).cur⟩
    · exact ⟨hs.ring.isEmpty_eq_false.mp hEmpty, hs.ring.first_lt⟩
  obtain ⟨k, hk, -, -, hLog⟩ := hs.ring.read hEntry.1 hEntry.2
  rw [← hMsg] at hLog
  have hNum := hs.ring.nums k m hLog
  have hPos : m.num - 1 = k := by omega
  rw [hPos]
  refine ⟨hLog, hk, ?_⟩
  intro j hj
  obtain ⟨L, hL, rfl⟩ := Option.map_eq_some_iff.mp (List.getLast?_map ▸ hj)
  have hAfter := (hs.reader r).last L hL
  rcases read_after_last hs h hRes with ⟨-, hNewest⟩ | ⟨-, hBehind⟩
  · right
    show k + 1 = s.sent
    omega
  · have hLt := hBehind L hL
    omega

omit [DecidableEq W] in
/-- A reader that a message is returned to is given an entry. -/
theorem toChannel_give {r : R} {m : Msg} (hLog : s'.log = s.log)
    (hSelf : (s'.reader r).results = (s.reader r).results ++ [some m])
    (hOthers : ∀ q, q ≠ r → (s'.reader q).results = (s.reader q).results) :
    s'.toChannel = s.toChannel.give r (m.num - 1) := by
  have hGot : s'.toChannel.got = (s.toChannel.give r (m.num - 1)).got := by
    funext q
    show (s'.reader q).delivered.map _ = _
    by_cases hq : q = r
    · subst hq
      rw [Channel.give_got_self, Reader.delivered, hSelf, List.filterMap_append, List.map_append]
      rfl
    · rw [Channel.give_got_of_ne hq, Reader.delivered, hOthers q hq]
      rfl
  exact congrArg₂ Channel.mk hLog hGot

/-- What was returned is what the channel gave. -/
def Intact (s : State W R) : Prop := ∀ r, s.toChannel.received r = (s.reader r).messages

/-- **One step.** -/
theorem refines_channel_step (hs : Inv s) (hOrdered : s.toChannel.Ordered) (hIntact : Intact s)
    (h : step s a = some s') :
    Intact s' ∧ ∃ bs, run Channel.step s.toChannel bs = some s'.toChannel := by
  obtain ⟨rfl, -⟩ | ⟨w, buffer, hdr, -, -, -, rfl⟩ | ⟨w, -, -, rfl⟩ | ⟨r, d, -, rfl⟩ :=
    step_cases h
  · exact ⟨hIntact, [], rfl⟩
  · refine ⟨?_, [.send (s.nextMsg buffer)], rfl⟩
    intro r
    exact (hOrdered.received_send _ r).trans (hIntact r)
  · exact ⟨hIntact, [], rfl⟩
  · have hOthers : ∀ q, q ≠ r →
        ((s.setReader r d).reader q).results = (s.reader q).results := by
      intro q hq
      rw [State.setReader_of_ne s d hq]
    by_cases hMsg : ∃ m, ((s.setReader r d).reader r).results =
        (s.reader r).results ++ [some m]
    · -- a message is returned: the channel gives it
      obtain ⟨m, hSelf⟩ := hMsg
      obtain ⟨hLog, hReady⟩ := returned_position hs h hSelf
      have hGive : (s.setReader r d).toChannel = s.toChannel.give r (m.num - 1) :=
        toChannel_give rfl hSelf hOthers
      constructor
      · intro q
        rw [hGive]
        by_cases hq : q = r
        · subst hq
          rw [Channel.received_give_self hLog, hIntact q, Reader.messages, Reader.messages, hSelf,
            List.filterMap_append]
          rfl
        · rw [Channel.received_give_of_ne hq, hIntact q, Reader.messages, Reader.messages,
            hOthers q hq]
      · refine ⟨[.give r (m.num - 1)], ?_⟩
        rw [run_cons, Channel.step, if_pos hReady, hGive]
        rfl
    · -- nothing is returned: the places stay
      have hGot : ∀ q, ((s.setReader r d).reader q).delivered = (s.reader q).delivered ∧
          ((s.setReader r d).reader q).messages = (s.reader q).messages := by
        intro q
        rcases results_step h q with hSame | ⟨x, hMore⟩
        · simp only [Reader.delivered, Reader.messages, hSame, and_self]
        · cases x with
          | none => simp [Reader.delivered, Reader.messages, hMore]
          | some m =>
            by_cases hq : q = r
            · exact absurd ⟨m, hq ▸ hMore⟩ hMsg
            · rw [hOthers q hq] at hMore
              simp at hMore
      have hEq : (s.setReader r d).toChannel = s.toChannel := toChannel_eq rfl fun q => (hGot q).1
      refine ⟨?_, [], ?_⟩
      · intro q
        rw [hEq, hIntact q, (hGot q).2]
      · rw [hEq]
        rfl

/-- **The ring is a channel.** After any interleaving of writers and readers, with whatever waits,
wake-ups and time-outs, there is a run of the channel in which the same was sent and every reader
was given, in the same order, the messages that the ring has returned to it. -/
theorem ring_refines_channel {n maxMsgSize : Nat} {mem : Nat → List UInt8} (hn : 1 ≤ n)
    {as : List (Action W R)} (hrun : run step (State.init W R n maxMsgSize mem) as = some s) :
    ∃ (bs : List (ChannelAction Msg R)) (c : Channel Msg R),
      run Channel.step .empty bs = some c ∧ c.sent = s.log ∧
      ∀ r, c.received r = (s.reader r).messages := by
  have hAll : Inv s ∧ Intact s ∧ s.toChannel.Ordered ∧
      ∃ bs, run Channel.step .empty bs = some s.toChannel := by
    refine inv_of_run_forall (I := fun t => Inv t ∧ Intact t ∧ t.toChannel.Ordered ∧
      ∃ bs, run Channel.step .empty bs = some t.toChannel) ?_ ?_ hrun
    · rintro t a t' ⟨hInv, hIntact, hOrdered, bs, hbs⟩ hstep
      obtain ⟨hIntact', cs, hcs⟩ := refines_channel_step hInv hOrdered hIntact hstep
      have hrun' : run Channel.step .empty (bs ++ cs) = some t'.toChannel :=
        run_append_eq_some.mpr ⟨_, hbs, hcs⟩
      exact ⟨inv_step hInv hstep, hIntact', Channel.run_ordered hrun', _, hrun'⟩
    · exact ⟨inv_init hn, fun _ => rfl, Channel.ordered_empty, [], rfl⟩
  obtain ⟨-, hIntact, -, bs, hbs⟩ := hAll
  exact ⟨bs, _, hbs, rfl, hIntact⟩

/-- A reader that is lapped in a ring of two slots. -/
theorem ring_refines_channel_lapped :
    ∃ s, run step (State.init Unit Unit 2 4 fun _ => [])
        [.insert () [1], .notify (), .receive () .timed 4, .insert () [2], .notify (),
          .insert () [3], .notify (), .insert () [4], .notify (), .receive () .timed 4] = some s ∧
      ∃ (bs : List (ChannelAction Msg Unit)) (c : Channel Msg Unit),
        run Channel.step .empty bs = some c ∧ c.sent = s.log ∧
        ∀ r, c.received r = (s.reader r).messages := by
  obtain ⟨s, hs⟩ := Option.isSome_iff_exists.mp
    (show (run step (State.init Unit Unit 2 4 fun _ => [])
        [.insert () [1], .notify (), .receive () .timed 4, .insert () [2], .notify (),
          .insert () [3], .notify (), .insert () [4], .notify (),
          .receive () .timed 4]).isSome = true by decide)
  exact ⟨s, hs, ring_refines_channel (by decide) hs⟩

end Sailbot.Ipc

import Mathlib.Data.Fintype.Basic
import Sailbot.Lib.Transition
import Sailbot.Ipc.MessageQueue

/-!
# The queue of the tests

`ipc/test_queue.h` and `ipc/test_queue.cc`: all messages of a name go through one slot with a
version counter. A sender overwrites the slot and then waits until every receiver has the new
version, but the wait gives the lock back, and nothing keeps a second sender from overwriting the
slot in the meantime. A message that a receiver did not take in time is lost for it.

Every locked section is one step; waits that end without a reason are steps too. There is no
shutdown, and no wait of a sender times out. A write behind the end of the buffer, which the first
sender allocates, and an overflow of the counter are the absence of a step.

The history variables are `sent`, all messages in the order of the sends, and for every receiver
how many of them there were when its first receive began and what its receives returned.

* `TestQueue.Delivered`    — a receiver has all messages since then, each once and in order, but
  for one that is in the slot.
* `TestQueue.delivers_iff` — that holds along a run exactly when no send begins before all
  receivers have taken the message before.
* `TestQueue.overwritten`  — two senders, and the first message is lost.
-/

namespace Sailbot.Ipc

open Lib

/-- Where a receiver is in `receive`. -/
inductive TestPc
  | idle
  | waiting (size : Nat)
  deriving DecidableEq, Repr

/-- What one `receive` returned: the message that was in the slot, and the size of the buffer
that it was copied to. -/
structure Receipt where
  size : Nat
  msg  : Msg
  deriving DecidableEq, Repr

/-- The bytes that `receive` wrote. -/
def Receipt.data (c : Receipt) : List UInt8 := c.msg.data.take c.size

structure TestReader where
  lastInc  : Int := 0
  pc       : TestPc := .idle
  start    : Option Nat := none
  returned : List Receipt := []
  deriving DecidableEq

/-- The state of one name; `users` is `-1` for a receiver that has not begun to receive. -/
structure TestQueue (W R : Type) where
  capacity : Nat := 0
  data     : Option Msg := none
  users    : R → Int := fun _ => -1
  inc      : Int := 0
  sender   : W → Bool := fun _ => false
  reader   : R → TestReader := fun _ => {}
  sent     : List Msg := []

inductive TestAction (W R : Type)
  | send (w : W) (maxSize : Nat) (msg : List UInt8)
  | wakeSend (w : W)
  | receive (r : R) (size : Nat)
  | wakeReceive (r : R)

namespace TestQueue

variable {W R : Type}

section Step

variable [DecidableEq W] [DecidableEq R] [Fintype R]

/-- The condition that a sender waits for. -/
def allTaken (s : TestQueue W R) : Bool := decide (∀ r, ¬ (0 ≤ s.users r ∧ s.users r < s.inc))

/-- The slot with a new message. -/
def store (s : TestQueue W R) (maxSize : Nat) (msg : List UInt8) : TestQueue W R :=
  let m : Msg := ⟨s.sent.length + 1, msg.take maxSize⟩
  { s with
    inc := s.inc + 1
    capacity := if s.data.isNone then maxSize else s.capacity
    data := some m
    sent := s.sent ++ [m] }

def setReader (s : TestQueue W R) (r : R) (d : TestReader) : TestQueue W R :=
  { s with reader := Function.update s.reader r d }

/-- The end of `receive`, from the new version of `users[idx_]` on. -/
def take (s : TestQueue W R) (r : R) (size : Nat) : TestQueue W R :=
  let d := s.reader r
  let returned := match s.data with
    | some m => d.returned ++ [⟨size, m⟩]
    | none => d.returned
  { s with users := Function.update s.users r s.inc }.setReader r
    { d with lastInc := s.inc, pc := .idle, returned := returned }

/-- The beginning of `receive`. -/
def enter (s : TestQueue W R) (r : R) : TestQueue W R :=
  let d := s.reader r
  { s with
    users := if d.lastInc = 0 then Function.update s.users r 0 else s.users }.setReader r
    { d with start := some (d.start.getD s.sent.length) }

/-- The condition of the loop in `receive`, at which it waits or goes on. -/
def await (s : TestQueue W R) (r : R) (size : Nat) : TestQueue W R :=
  if s.inc = (s.reader r).lastInc then s.setReader r { s.reader r with pc := .waiting size }
  else s.take r size

/-- One step; `none` when it is not enabled. -/
def step (s : TestQueue W R) : TestAction W R → Option (TestQueue W R)
  | .send w maxSize msg =>
    if s.sender w then none
    else if s.inc = 2147483647 then none
    else
      let t := s.store maxSize msg
      if t.capacity < min msg.length maxSize then none
      else some { t with sender := Function.update t.sender w !t.allTaken }
  | .wakeSend w =>
    if s.sender w then some { s with sender := Function.update s.sender w !s.allTaken } else none
  | .receive r size =>
    match (s.reader r).pc with
    | .idle => some ((s.enter r).await r size)
    | .waiting _ => none
  | .wakeReceive r =>
    match (s.reader r).pc with
    | .idle => none
    | .waiting size => some (s.await r size)

end Step

-- ---------------------------------------------------------------------------
-- Statement
-- ---------------------------------------------------------------------------

/-- The messages sent since the first receive of `r` has begun. -/
def since (s : TestQueue W R) (r : R) : List Msg :=
  match (s.reader r).start with
  | some start => s.sent.drop start
  | none => []

/-- Those of them that the receives of `r` returned, in the order of the returns. -/
def got (s : TestQueue W R) (r : R) : List Msg :=
  match (s.reader r).start with
  | some start => ((s.reader r).returned.map Receipt.msg).filter (start < ·.num)
  | none => []

/-- Every message since the first receive of `r` has begun was returned to it once and in order,
or the last one is still in the slot for it. -/
def Delivered (s : TestQueue W R) (r : R) : Prop :=
  s.got r = s.since r ∨
    s.users r < s.inc ∧ ∃ m, s.data = some m ∧ s.got r ++ [m] = s.since r

/-- A send that begins does so when all receivers have taken the message before. -/
def InTurn [DecidableEq W] [DecidableEq R] [Fintype R] (s : TestQueue W R) (a : TestAction W R) :
    Prop :=
  ∀ w maxSize msg, a = .send w maxSize msg → (step s a).isSome → s.allTaken = true

-- ---------------------------------------------------------------------------
-- The invariant
-- ---------------------------------------------------------------------------

/-- The slot holds the last message, and messages are numbered in the order of the sends. -/
structure Slot (s : TestQueue W R) : Prop where
  inc  : s.inc = s.sent.length
  nums : ∀ i m, s.sent[i]? = some m → m.num = i + 1
  data : s.data = s.sent.getLast?

/-- A receiver whose first receive began after `start` messages has all of them up to the version
that it received last. -/
structure Received (s : TestQueue W R) (r : R) (start : Nat) : Prop where
  users  : s.users r = (s.reader r).lastInc
  nonneg : 0 ≤ (s.reader r).lastInc
  le     : (s.reader r).lastInc ≤ s.inc
  got    : s.got r = (s.sent.take (s.reader r).lastInc.toNat).drop start

/-- It lacks at most one message. -/
structure Current (s : TestQueue W R) (r : R) (start : Nat) : Prop extends Received s r start where
  start_le : start ≤ (s.reader r).lastInc
  behind   : s.inc ≤ (s.reader r).lastInc + 1

structure ReaderInv (s : TestQueue W R) (r : R) : Prop where
  fresh   : (s.reader r).start = none →
    (s.reader r).lastInc = 0 ∧ (s.reader r).pc = .idle ∧ s.users r = -1 ∧
      (s.reader r).returned = []
  current : ∀ start, (s.reader r).start = some start → Current s r start

structure Inv (s : TestQueue W R) : Prop where
  slot   : Slot s
  reader : ∀ r, ReaderInv s r

/-- Before the first message. -/
theorem init_inv : Inv ({} : TestQueue W R) where
  slot := ⟨rfl, nofun, rfl⟩
  reader := fun _ => ⟨fun _ => ⟨rfl, rfl, rfl, rfl⟩, nofun⟩

/-- What a receiver got, counted from where its first receive began. -/
theorem got_eq {s : TestQueue W R} {r : R} {start : Nat} (h : (s.reader r).start = some start) :
    s.got r = ((s.reader r).returned.map Receipt.msg).filter (start < ·.num) := by
  rw [got, h]

/-- What was sent since then. -/
theorem since_eq {s : TestQueue W R} {r : R} {start : Nat} (h : (s.reader r).start = some start) :
    s.since r = s.sent.drop start := by
  rw [since, h]

/-- The last message is the one in the slot. -/
theorem Slot.sent_eq {s : TestQueue W R} (h : Slot s) {n : Nat} (hn : s.sent.length = n + 1) :
    ∃ m, s.data = some m ∧ m.num = n + 1 ∧ s.sent = s.sent.take n ++ [m] := by
  have hLt : n < s.sent.length := by omega
  refine ⟨s.sent[n], ?_, h.nums n _ (List.getElem?_eq_getElem hLt), ?_⟩
  · rw [h.data, List.getLast?_eq_getElem?, hn, Nat.add_sub_cancel, List.getElem?_eq_getElem hLt]
  · rw [← List.take_succ_eq_append_getElem hLt, ← hn, List.take_length]

/-- A receiver that lacks no message, or the one in the slot, has what was sent. -/
theorem Current.delivered {s : TestQueue W R} {r : R} {start : Nat} (hSlot : Slot s)
    (hStart : (s.reader r).start = some start) (h : Current s r start) : Delivered s r := by
  obtain ⟨n, hn⟩ := Int.eq_ofNat_of_zero_le h.nonneg
  have hGot := h.got
  have hInc := hSlot.inc
  have hLe := h.le
  have hBehind := h.behind
  have hStartLe := h.start_le
  rw [hn, Int.toNat_natCast] at hGot
  rw [hn] at hLe hBehind hStartLe
  rw [Delivered, since_eq hStart, hGot]
  rcases Nat.eq_or_lt_of_le (show n ≤ s.sent.length by omega) with hAll | hLt
  · refine Or.inl ?_
    rw [hAll, List.take_length]
  · obtain ⟨m, hData, -, hSent⟩ := hSlot.sent_eq (n := n) (by omega)
    refine Or.inr ⟨by rw [h.users]; omega, m, hData, ?_⟩
    have hLength : start ≤ (s.sent.take n).length := by
      rw [List.length_take]
      omega
    rw [← List.drop_append_of_le_length hLength, ← hSent]

/-- The invariant says what each reader has got. -/
theorem Inv.delivered {s : TestQueue W R} (h : Inv s) (r : R) : Delivered s r := by
  cases hStart : (s.reader r).start with
  | none =>
    refine Or.inl ?_
    rw [got, since, hStart]
  | some start => exact ((h.reader r).current start hStart).delivered h.slot hStart

-- ---------------------------------------------------------------------------
-- Steps
-- ---------------------------------------------------------------------------

/-- What is known of a receiver rests on its own variables and on what was sent. -/
theorem ReaderInv.frame {s t : TestQueue W R} {r : R} (h : ReaderInv s r)
    (hReader : t.reader r = s.reader r) (hUsers : t.users r = s.users r) (hInc : t.inc = s.inc)
    (hSent : t.sent = s.sent) : ReaderInv t r := by
  constructor
  · intro hFresh
    rw [hReader] at hFresh ⊢
    rw [hUsers]
    exact h.fresh hFresh
  · intro start hStart
    rw [hReader] at hStart
    have hCurrent := h.current start hStart
    have hGot : t.got r = s.got r := by rw [got, got, hReader]
    refine ⟨⟨?_, ?_, ?_, ?_⟩, ?_, ?_⟩
    · rw [hUsers, hReader]
      exact hCurrent.users
    · rw [hReader]
      exact hCurrent.nonneg
    · rw [hReader, hInc]
      exact hCurrent.le
    · rw [hGot, hSent, hReader]
      exact hCurrent.got
    · rw [hReader]
      exact hCurrent.start_le
    · rw [hReader, hInc]
      exact hCurrent.behind

section Store

variable {s : TestQueue W R} {r : R}

/-- The slot holds the message that is stored in it. -/
theorem Slot.store (h : Slot s) (maxSize : Nat) (msg : List UInt8) :
    Slot (s.store maxSize msg) := by
  refine ⟨?_, ?_, ?_⟩
  · show s.inc + 1 = (s.sent ++ [_]).length
    rw [h.inc, List.length_append]
    rfl
  · intro i m hm
    change (s.sent ++ [_])[i]? = some m at hm
    rcases Nat.lt_or_ge i s.sent.length with hOld | hNew
    · rw [List.getElem?_append_left hOld] at hm
      exact h.nums i m hm
    · rw [List.getElem?_append_right hNew] at hm
      obtain ⟨hLt, rfl⟩ := List.getElem?_eq_some_iff.mp hm
      rw [List.length_singleton] at hLt
      rw [List.getElem_singleton]
      show s.sent.length + 1 = i + 1
      omega
  · show some _ = (s.sent ++ [_]).getLast?
    rw [List.getLast?_concat]

variable [Fintype R]

/-- All receivers that have begun to receive have the version of the slot. -/
theorem allTaken_eq_true (s : TestQueue W R) :
    s.allTaken = true ↔ ∀ r, 0 ≤ s.users r → s.inc ≤ s.users r := by
  rw [allTaken, decide_eq_true_iff]
  refine forall_congr' ?_
  intro r
  omega

/-- A message that is sent in turn is the only one that a receiver lacks. -/
theorem ReaderInv.store (hSlot : Slot s) (h : ReaderInv s r) (hTaken : s.allTaken = true)
    (maxSize : Nat) (msg : List UInt8) : ReaderInv (s.store maxSize msg) r := by
  constructor
  · exact h.fresh
  · intro start hStart
    have hCurrent := h.current start hStart
    have hInc := hSlot.inc
    have hNonneg := hCurrent.nonneg
    have hLe := hCurrent.le
    have hAll := (allTaken_eq_true s).mp hTaken r (by rw [hCurrent.users]; exact hNonneg)
    rw [hCurrent.users] at hAll
    refine ⟨⟨hCurrent.users, hNonneg, ?_, ?_⟩, hCurrent.start_le, ?_⟩
    · show (s.reader r).lastInc ≤ s.inc + 1
      omega
    · show s.got r = ((s.sent ++ [_]).take (s.reader r).lastInc.toNat).drop start
      rw [List.take_append_of_le_length (by omega)]
      exact hCurrent.got
    · show s.inc + 1 ≤ (s.reader r).lastInc + 1
      omega

/-- A message sent before a receiver has the one before leaves it two messages behind. -/
theorem not_delivered_of_store (h : Inv s) {maxSize : Nat} {msg : List UInt8} {sender : W → Bool}
    (hAll : ∀ r, Delivered { s.store maxSize msg with sender := sender } r) :
    s.allTaken = true := by
  rw [allTaken_eq_true]
  intro r hUsers
  cases hStart : (s.reader r).start with
  | none =>
    obtain ⟨-, -, hNone, -⟩ := (h.reader r).fresh hStart
    omega
  | some start =>
    have hCurrent := (h.reader r).current start hStart
    have hInc := h.slot.inc
    have hLe := hCurrent.le
    have hNonneg := hCurrent.nonneg
    have hStartLe := hCurrent.start_le
    have hGot : (s.got r).length = (s.reader r).lastInc.toNat - start := by
      rw [hCurrent.got, List.length_drop, List.length_take]
      omega
    have hSince : (since { s.store maxSize msg with sender := sender } r).length =
        s.sent.length + 1 - start := by
      rw [since_eq (show (({ s.store maxSize msg with sender := sender }).reader r).start = _ from
        hStart), List.length_drop]
      show (s.sent ++ [_]).length - start = _
      rw [List.length_append, List.length_singleton]
    rw [hCurrent.users]
    rcases hAll r with hEq | ⟨-, m, -, hEq⟩
    · have hLength := congrArg List.length hEq
      rw [hSince] at hLength
      change (s.got r).length = _ at hLength
      omega
    · have hLength := congrArg List.length hEq
      rw [hSince, List.length_append, List.length_singleton] at hLength
      change (s.got r).length + 1 = _ at hLength
      omega

end Store

section Receive

variable [DecidableEq R] {s : TestQueue W R} {r : R}

/-- A receiver waits when it has the version of the slot. -/
theorem ReaderInv.waiting {start : Nat} (hStart : (s.reader r).start = some start)
    (h : Current s r start) (size : Nat) :
    ReaderInv (s.setReader r { s.reader r with pc := .waiting size }) r := by
  have hReader : (s.setReader r { s.reader r with pc := .waiting size }).reader r =
      { s.reader r with pc := .waiting size } := Function.update_self ..
  constructor
  · intro hFresh
    rw [hReader] at hFresh
    rw [hStart] at hFresh
    cases hFresh
  · intro start' hStart'
    rw [hReader] at hStart'
    obtain rfl := Option.some.inj (hStart.symm.trans hStart')
    have hGot : (s.setReader r { s.reader r with pc := .waiting size }).got r = s.got r := by
      rw [got, got, hReader]
    refine ⟨⟨?_, ?_, ?_, ?_⟩, ?_, ?_⟩ <;> rw [hReader]
    · exact h.users
    · exact h.nonneg
    · exact h.le
    · rw [hGot]
      exact h.got
    · exact h.start_le
    · exact h.behind

/-- What a receiver has returned when it takes from the slot. -/
theorem take_returned (s : TestQueue W R) (r : R) (size : Nat) :
    ((s.take r size).reader r).returned = match s.data with
      | some m => (s.reader r).returned ++ [⟨size, m⟩]
      | none => (s.reader r).returned := by
  simp only [take, setReader, Function.update_self]

/-- Everything else of it. -/
theorem take_reader (s : TestQueue W R) (r : R) (size : Nat) : (s.take r size).reader r =
    { s.reader r with
      lastInc := s.inc, pc := .idle, returned := ((s.take r size).reader r).returned } := by
  rw [take_returned]
  exact Function.update_self ..

/-- A receiver that lacks at most the message of the slot, or has just begun, has all messages
when it has taken that one. -/
theorem Received.take_got {start : Nat} (hSlot : Slot s)
    (hStart : (s.reader r).start = some start) (h : Received s r start)
    (hBehind : start ≤ (s.reader r).lastInc ∧ s.inc = (s.reader r).lastInc + 1 ∨
      (start : Int) = s.inc) (size : Nat) : (s.take r size).got r = s.sent.drop start := by
  have hInc := hSlot.inc
  have hNonneg := h.nonneg
  have hLe := h.le
  have hOld := h.got
  rw [got_eq hStart] at hOld
  rw [got_eq (by rw [take_reader]; exact hStart), take_returned]
  rcases Nat.eq_zero_or_pos s.sent.length with hNone | hSome
  · -- nothing was sent
    have hNil := List.length_eq_zero_iff.mp hNone
    have hData := hSlot.data
    rw [hNil, List.getLast?_nil] at hData
    rw [hNil, List.take_nil, List.drop_nil] at hOld
    rw [hData, hNil, List.drop_nil]
    exact hOld
  · obtain ⟨n, hn⟩ : ∃ n, s.sent.length = n + 1 := ⟨s.sent.length - 1, by omega⟩
    obtain ⟨m, hData, hNum, hSent⟩ := hSlot.sent_eq hn
    simp only [hData, List.map_append, List.map_cons, List.map_nil, List.filter_append, hOld]
    rcases hBehind with ⟨hStartLe, hNext⟩ | hBegun
    · have hLast : (s.reader r).lastInc.toNat = n := by omega
      have hFilter : [m].filter (fun m => decide (start < m.num)) = [m] := by
        rw [List.filter_cons_of_pos (by rw [decide_eq_true_iff]; omega), List.filter_nil]
      have hLength : start ≤ (s.sent.take n).length := by
        rw [List.length_take]
        omega
      rw [hFilter, hLast, ← List.drop_append_of_le_length hLength, ← hSent]
    · -- the message was sent before the first receive began
      have hFilter : [m].filter (fun m => decide (start < m.num)) = [] := by
        rw [List.filter_cons_of_neg (by rw [decide_eq_true_iff]; omega), List.filter_nil]
      rw [hFilter, List.append_nil, List.drop_eq_nil_of_le (by rw [List.length_take]; omega),
        List.drop_eq_nil_of_le (by omega)]

/-- A receiver that takes from the slot lacks nothing up to the version that it takes. -/
theorem ReaderInv.take {start : Nat} (hSlot : Slot s) (hStart : (s.reader r).start = some start)
    (h : Received s r start) (hBehind : start ≤ (s.reader r).lastInc ∧
      s.inc = (s.reader r).lastInc + 1 ∨ (start : Int) = s.inc) (size : Nat) :
    ReaderInv (s.take r size) r := by
  have hUsers : (s.take r size).users r = s.inc := Function.update_self ..
  have hInc := hSlot.inc
  have hNonneg := h.nonneg
  have hLe := h.le
  have hGot := h.take_got hSlot hStart hBehind size
  constructor
  · intro hFresh
    rw [take_reader] at hFresh
    rw [hStart] at hFresh
    cases hFresh
  · intro start' hStart'
    rw [take_reader] at hStart'
    obtain rfl := Option.some.inj (hStart.symm.trans hStart')
    refine ⟨⟨?_, ?_, ?_, ?_⟩, ?_, ?_⟩
    · rw [hUsers, take_reader]
    · rw [take_reader]
      show 0 ≤ s.inc
      omega
    · rw [take_reader]
      exact le_refl s.inc
    · rw [hGot, take_reader]
      show _ = (s.sent.take s.inc.toNat).drop start
      rw [hInc, Int.toNat_natCast, List.take_length]
    · rw [take_reader]
      show (start : Int) ≤ s.inc
      omega
    · rw [take_reader]
      show s.inc ≤ s.inc + 1
      omega

/-- What one receiver does leaves the others alone. -/
theorem await_of_ne (s : TestQueue W R) (size : Nat) {q : R} (h : q ≠ r) :
    (s.await r size).reader q = s.reader q ∧ (s.await r size).users q = s.users q := by
  rw [await]
  split
  · exact ⟨Function.update_of_ne h _ _, rfl⟩
  · exact ⟨Function.update_of_ne h _ _, Function.update_of_ne h _ _⟩

/-- Neither waiting nor taking changes the slot. -/
theorem await_slot (s : TestQueue W R) (r : R) (size : Nat) :
    (s.await r size).inc = s.inc ∧ (s.await r size).sent = s.sent ∧
      (s.await r size).data = s.data := by
  rw [await]
  split <;> exact ⟨rfl, rfl, rfl⟩

/-- A receiver at the condition of its loop waits or takes the message of the slot. -/
theorem await_inv {start : Nat} (hSlot : Slot s) (hOthers : ∀ q ≠ r, ReaderInv s q)
    (hStart : (s.reader r).start = some start) (h : Received s r start)
    (hBehind : start ≤ (s.reader r).lastInc ∧ s.inc ≤ (s.reader r).lastInc + 1 ∨
      (start : Int) = s.inc) (size : Nat) : Inv (s.await r size) := by
  obtain ⟨hInc, hSent, hData⟩ := await_slot s r size
  refine ⟨⟨by rw [hInc, hSent]; exact hSlot.inc, by rw [hSent]; exact hSlot.nums,
    by rw [hData, hSent]; exact hSlot.data⟩, fun q => ?_⟩
  by_cases hq : q = r
  · subst hq
    have hLe := h.le
    rw [await]
    split
    · next hSame => exact ReaderInv.waiting hStart ⟨h, by omega, by omega⟩ size
    · next hNew => exact ReaderInv.take hSlot hStart h (by omega) size
  · obtain ⟨hReader, hUsers⟩ := await_of_ne s size hq
    exact (hOthers q hq).frame hReader hUsers hInc hSent

/-- A receiver that enters for the first time starts behind what was sent. -/
theorem enter_reader (s : TestQueue W R) (r : R) : (s.enter r).reader r =
    { s.reader r with start := some ((s.reader r).start.getD s.sent.length) } :=
  Function.update_self ..

/-- It counts as one that has begun to receive. -/
theorem enter_users (s : TestQueue W R) (r : R) :
    (s.enter r).users r = if (s.reader r).lastInc = 0 then 0 else s.users r := by
  show (if (s.reader r).lastInc = 0 then Function.update s.users r 0 else s.users) r = _
  split
  · exact Function.update_self ..
  · rfl

/-- The first receive begins behind all messages so far. -/
theorem enter_first (h : Inv s) (hStart : (s.reader r).start = none) :
    ((s.enter r).reader r).start = some s.sent.length ∧
      Received (s.enter r) r s.sent.length := by
  obtain ⟨hLast, -, -, hReturned⟩ := (h.reader r).fresh hStart
  have hReader := enter_reader s r
  rw [hStart] at hReader
  have hAt : ((s.enter r).reader r).start = some s.sent.length := by rw [hReader]; rfl
  refine ⟨hAt, ⟨?_, ?_, ?_, ?_⟩⟩
  · rw [enter_users, if_pos hLast, hReader]
    exact hLast.symm
  · rw [hReader]
    exact hLast.ge
  · rw [hReader]
    show (s.reader r).lastInc ≤ s.inc
    rw [hLast, h.slot.inc]
    omega
  · rw [got_eq hAt, hReader]
    show ((s.reader r).returned.map Receipt.msg).filter _ =
      (s.sent.take (s.reader r).lastInc.toNat).drop s.sent.length
    rw [hReturned, hLast, Int.toNat_zero, List.take_zero, List.drop_nil, List.map_nil,
      List.filter_nil]

/-- A later one changes nothing. -/
theorem enter_again {start : Nat} (h : Inv s) (hStart : (s.reader r).start = some start) :
    ((s.enter r).reader r).start = some start ∧ Current (s.enter r) r start := by
  have hCurrent := (h.reader r).current start hStart
  have hReader := enter_reader s r
  rw [hStart] at hReader
  have hAt : ((s.enter r).reader r).start = some start := by rw [hReader]; rfl
  have hSame : (s.enter r).users r = s.users r := by
    rw [enter_users]
    split
    · next hZero => rw [hCurrent.users, hZero]
    · rfl
  refine ⟨hAt, ⟨⟨?_, ?_, ?_, ?_⟩, ?_, ?_⟩⟩
  · rw [hSame, hReader]
    exact hCurrent.users
  · rw [hReader]
    exact hCurrent.nonneg
  · rw [hReader]
    exact hCurrent.le
  · rw [got_eq hAt, hReader, ← got_eq hStart]
    exact hCurrent.got
  · rw [hReader]
    exact hCurrent.start_le
  · rw [hReader]
    exact hCurrent.behind

/-- The beginning of a receive counts the messages if it is the first one. -/
theorem enter_received (h : Inv s) : ∃ start,
    ((s.enter r).reader r).start = some start ∧ Received (s.enter r) r start ∧
    (start ≤ ((s.enter r).reader r).lastInc ∧ (s.enter r).inc ≤ ((s.enter r).reader r).lastInc + 1 ∨
      (start : Int) = (s.enter r).inc) := by
  cases hStart : (s.reader r).start with
  | none =>
    obtain ⟨hAt, hReceived⟩ := enter_first h hStart
    exact ⟨s.sent.length, hAt, hReceived, Or.inr h.slot.inc.symm⟩
  | some start =>
    obtain ⟨hAt, hCurrent⟩ := enter_again h hStart
    exact ⟨start, hAt, hCurrent.toReceived, Or.inl ⟨hCurrent.start_le, hCurrent.behind⟩⟩

/-- The whole of a `receive` that does not have to wait keeps the invariant. -/
theorem receive_inv (h : Inv s) (size : Nat) : Inv ((s.enter r).await r size) := by
  obtain ⟨start, hStart, hReceived, hBehind⟩ := enter_received (r := r) h
  have hSlot : Slot (s.enter r) := ⟨h.slot.inc, h.slot.nums, h.slot.data⟩
  refine await_inv hSlot (fun q hq => ?_) hStart hReceived hBehind size
  refine (h.reader q).frame (Function.update_of_ne hq _ _) ?_ rfl rfl
  show (if (s.reader r).lastInc = 0 then Function.update s.users r 0 else s.users) q = _
  split
  · exact Function.update_of_ne hq _ _
  · rfl

/-- A receiver that waits has begun. -/
theorem wakeReceive_inv (h : Inv s) {size : Nat} (hWait : (s.reader r).pc = .waiting size) :
    Inv (s.await r size) := by
  cases hStart : (s.reader r).start with
  | none =>
    obtain ⟨-, hIdle, -, -⟩ := (h.reader r).fresh hStart
    rw [hIdle] at hWait
    cases hWait
  | some start =>
    have hCurrent := (h.reader r).current start hStart
    exact await_inv h.slot (fun q _ => h.reader q) hStart hCurrent.toReceived
      (Or.inl ⟨hCurrent.start_le, hCurrent.behind⟩) size

end Receive

section Steps

variable [DecidableEq W] [DecidableEq R] [Fintype R] {s t : TestQueue W R} {r : R}

/-- **What a step does.** A send stores a message, a sender looks at its condition, or a receiver
comes to the condition of its loop. -/
theorem step_cases {a : TestAction W R} (hstep : step s a = some t) :
    (∃ w maxSize msg sender, a = .send w maxSize msg ∧
      t = { s.store maxSize msg with sender := sender }) ∨
    (∃ w sender, a = .wakeSend w ∧ t = { s with sender := sender }) ∨
    (∃ r size, a = .receive r size ∧ t = (s.enter r).await r size) ∨
    (∃ r size, a = .wakeReceive r ∧ (s.reader r).pc = .waiting size ∧ t = s.await r size) := by
  cases a with
  | send w maxSize msg =>
    simp only [step] at hstep
    split at hstep
    · cases hstep
    split at hstep
    · cases hstep
    split at hstep
    · cases hstep
    · exact Or.inl ⟨w, maxSize, msg, _, rfl, (Option.some.inj hstep).symm⟩
  | wakeSend w =>
    simp only [step] at hstep
    split at hstep
    · exact Or.inr (Or.inl ⟨w, _, rfl, (Option.some.inj hstep).symm⟩)
    · cases hstep
  | receive r size =>
    simp only [step] at hstep
    split at hstep
    · exact Or.inr (Or.inr (Or.inl ⟨r, size, rfl, (Option.some.inj hstep).symm⟩))
    · cases hstep
  | wakeReceive r =>
    simp only [step] at hstep
    split at hstep
    · cases hstep
    · next size hWait =>
      exact Or.inr (Or.inr (Or.inr ⟨r, size, rfl, hWait, (Option.some.inj hstep).symm⟩))

/-- Every step that is in turn keeps the invariant. -/
theorem step_inv {a : TestAction W R} (h : Inv s) (hTurn : InTurn s a)
    (hstep : step s a = some t) : Inv t := by
  rcases step_cases hstep with ⟨w, maxSize, msg, sender, rfl, rfl⟩ | ⟨w, sender, rfl, rfl⟩ |
    ⟨r, size, rfl, rfl⟩ | ⟨r, size, rfl, hWait, rfl⟩
  · have hTaken := hTurn w maxSize msg rfl (by rw [hstep]; rfl)
    have hStored : ∀ r, ReaderInv (s.store maxSize msg) r :=
      fun r => ReaderInv.store h.slot (h.reader r) hTaken maxSize msg
    have hSlot := h.slot.store maxSize msg
    exact ⟨⟨hSlot.inc, hSlot.nums, hSlot.data⟩, fun r => (hStored r).frame rfl rfl rfl rfl⟩
  · exact ⟨⟨h.slot.inc, h.slot.nums, h.slot.data⟩, fun r => (h.reader r).frame rfl rfl rfl rfl⟩
  · exact receive_inv h size
  · exact wakeReceive_inv h hWait

/-- A send after which all messages are still delivered was in turn. -/
theorem inTurn_of_delivered {a : TestAction W R} (h : Inv s)
    (hAll : ∀ t, step s a = some t → ∀ r, Delivered t r) : InTurn s a := by
  rintro w maxSize msg rfl hEnabled
  obtain ⟨t, hstep⟩ := Option.isSome_iff_exists.mp hEnabled
  rcases step_cases hstep with ⟨_, _, _, sender, hSend, rfl⟩ | ⟨_, _, hSend, -⟩ |
    ⟨_, _, hSend, -⟩ | ⟨_, _, hSend, -, -⟩
  · cases hSend
    exact not_delivered_of_store h (hAll _ hstep)
  · cases hSend
  · cases hSend
  · cases hSend

-- ---------------------------------------------------------------------------
-- Runs
-- ---------------------------------------------------------------------------

/-- **Delivery.** In every interleaving of any number of senders and receivers, each receiver has
all messages since its first receive began, once and in order, up to one that is in the slot for
it, if and only if every send begins when all receivers have taken the message before. -/
theorem delivers_iff (as : List (TestAction W R)) :
    Along step (fun s a => ∀ t, step s a = some t → ∀ r, Delivered t r) {} as ↔
      Along step InTurn {} as := by
  constructor
  · exact along_of_inv (fun s a t h hAll hstep => step_inv h (inTurn_of_delivered h hAll) hstep)
      (fun s a h hAll => inTurn_of_delivered h hAll) init_inv
  · exact along_of_inv (fun s a t h hTurn hstep => step_inv h hTurn hstep)
      (fun s a h hTurn t hstep r => (step_inv h hTurn hstep).delivered r) init_inv

/-- A receiver waits, and two senders send one after the other before it has the lock again. -/
theorem overwritten : ¬ ∀ as : List (TestAction Bool Unit),
    Along step (fun s a => ∀ t, step s a = some t → ∀ r, Delivered t r) {} as := by
  intro hAll
  obtain ⟨s, t, hrun, hstep, hGot, hSince⟩ : ∃ s t,
      run step ({} : TestQueue Bool Unit) [.receive () 4, .send false 4 [1]] = some s ∧
      step s (.send true 4 [2]) = some t ∧ t.got () = [] ∧
      t.since () = [⟨1, [1]⟩, ⟨2, [2]⟩] :=
    ⟨_, _, rfl, rfl, rfl, rfl⟩
  have hAlong : Along step _ _ ([.receive () 4, .send false 4 [1]] ++ [.send true 4 [2]]) :=
    hAll _
  have hDelivered := along_at hAlong hrun t hstep ()
  rw [Delivered, hGot, hSince] at hDelivered
  rcases hDelivered with hNone | ⟨-, m, -, hOne⟩
  · cases hNone
  · cases hOne

/-- A receive that returns leaves nothing for its receiver in the slot. -/
theorem receive_catches_up {a : TestAction W R} (h : Inv s)
    (ha : (∃ size, a = .receive r size) ∨ a = .wakeReceive r) (hstep : step s a = some t)
    (hIdle : (t.reader r).pc = .idle) : t.got r = t.since r := by
  have hTurn : InTurn s a := by
    rintro w maxSize msg rfl
    rcases ha with ⟨size, ha⟩ | ha <;> cases ha
  have hInv := step_inv h hTurn hstep
  obtain ⟨u, size, rfl⟩ : ∃ u size, t = TestQueue.await u r size := by
    rcases step_cases hstep with ⟨_, _, _, _, hSend, -⟩ | ⟨_, _, hSend, -⟩ |
      ⟨q, size, hq, rfl⟩ | ⟨q, size, hq, -, rfl⟩
    · exact absurd hSend (by rcases ha with ⟨_, rfl⟩ | rfl <;> nofun)
    · exact absurd hSend (by rcases ha with ⟨_, rfl⟩ | rfl <;> nofun)
    · obtain rfl : r = q := by rcases ha with ⟨_, rfl⟩ | rfl <;> cases hq; rfl
      exact ⟨_, size, rfl⟩
    · obtain rfl : r = q := by rcases ha with ⟨_, rfl⟩ | rfl <;> cases hq; rfl
      exact ⟨_, size, rfl⟩
  have hVersion : ((u.await r size).reader r).lastInc = (u.await r size).inc := by
    rw [(await_slot u r size).1]
    rw [await] at hIdle ⊢
    split at hIdle
    · rw [show ((u.setReader r _).reader r) = _ from Function.update_self ..] at hIdle
      cases hIdle
    · next hNew =>
      rw [if_neg hNew, show ((u.take r size).reader r) = _ from Function.update_self ..]
  cases hStart : ((u.await r size).reader r).start with
  | none => rw [got, since, hStart]
  | some start =>
    have hCurrent := (hInv.reader r).current start hStart
    rw [hCurrent.got, since_eq hStart, hVersion, hInv.slot.inc, Int.toNat_natCast,
      List.take_length]

end Steps

end TestQueue

end Sailbot.Ipc

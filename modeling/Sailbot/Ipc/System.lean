import Sailbot.Lib.Transition
import Sailbot.Ipc.MessageQueue

/-!
# Writers and readers on one shared queue

Any number of writers (`W`) and reader objects (`R`) work on one `MqHdr`. What
`do_receive` does without giving the mutex back is one step, and so is each half
of `do_send`, so that every interleaving of the processes is a list of actions:

* `insert`   — `do_send` locks the mutex and inserts the message.
* `notify`   — `notify_all` wakes every waiting reader, and `do_send` returns.
* `receive`  — `do_receive` up to its return or its wait.
* `spurious` — a wait that ends without a notification.
* `timeout`  — `timed_wait` returning `false`.
* `relock`   — a woken reader re-acquires the mutex inside `wait` and goes on.

The `scoped_lock` of `do_send` is declared at function scope, so the writer holds
the mutex until it returns: behind the block that the source ends with "Lock end",
and through the `notify_all` that is said to be outside the lock. Nobody locks the
mutex between the two halves of a send.

The history variables are `log`, all messages in the order of their locked
inserts, and for each reader the results of its finished receives, `none` for a
`false` return.
-/

namespace Sailbot.Ipc

open Lib

/-- Where a reader object is in `do_receive`. -/
inductive Pc
  | idle
  | waiting (block : Block)
  | woken (block : Block)
  deriving DecidableEq, Repr

structure Reader where
  curMsg  : Nat := 0
  pc      : Pc := .idle
  results : List (Option Msg) := []

/-- The numbers of the messages returned to a reader, in the order of return. -/
def Reader.delivered (d : Reader) : List Nat :=
  d.results.filterMap (Option.map Msg.num)

/-- The results of a reader's receives as message numbers. -/
def Reader.returned (d : Reader) : List (Option Nat) :=
  d.results.map (Option.map Msg.num)

/-- The number of the message returned last. -/
def Reader.last (d : Reader) : Option Nat := d.delivered.getLast?

/-- `mutex` is the writer that holds the mutex between two steps: it has inserted
its message and has still to notify. -/
structure State (W R : Type) where
  hdr    : MqHdr
  log    : List Msg
  mutex  : Option W
  reader : R → Reader

inductive Action (W R : Type)
  | insert (w : W) (buffer : List UInt8)
  | notify (w : W)
  | receive (r : R) (block : Block) (bufferSize : Nat)
  | spurious (r : R)
  | timeout (r : R)
  | relock (r : R)

variable {W R : Type}

namespace State

/-- The queue right after its creation, with no message sent and every reader
object freshly constructed. -/
def init (W R : Type) (maxNumMsg maxMsgSize : Nat) (mem : Nat → List UInt8) : State W R where
  hdr := .new maxNumMsg maxMsgSize mem
  log := []
  mutex := none
  reader := fun _ => {}

/-- The number of messages sent so far. -/
def sent (s : State W R) : Nat := s.log.length

/-- The message that the next locked insert of `buffer` adds. -/
def nextMsg (s : State W R) (buffer : List UInt8) : Msg := ⟨s.sent + 1, buffer⟩

def inserted (s : State W R) (w : W) (m : Msg) (hdr : MqHdr) : State W R :=
  { s with hdr := hdr, log := s.log ++ [m], mutex := some w }

def wake : Pc → Pc
  | .waiting block => .woken block
  | pc => pc

def notified (s : State W R) : State W R :=
  { s with
    mutex := none
    reader := fun r => { s.reader r with pc := wake (s.reader r).pc } }

variable [DecidableEq R]

def setReader (s : State W R) (r : R) (d : Reader) : State W R :=
  { s with reader := Function.update s.reader r d }

@[simp] theorem setReader_self (s : State W R) (r : R) (d : Reader) :
    (s.setReader r d).reader r = d := Function.update_self ..

theorem setReader_of_ne (s : State W R) {q r : R} (d : Reader) (h : q ≠ r) :
    (s.setReader r d).reader q = s.reader q := Function.update_of_ne h ..

end State

/-- A reader after the locked section that ended with the given outcome. -/
def Reader.after (d : Reader) (block : Block) : MqHdr.Outcome → Reader
  | .returnFalse => { d with pc := .idle, results := d.results ++ [none] }
  | .wait curMsg => { d with curMsg := curMsg, pc := .waiting block }
  | .returnTrue curMsg msg =>
    { d with curMsg := curMsg, pc := .idle, results := d.results ++ [some msg] }

variable [DecidableEq W] [DecidableEq R]

/-- One step of the system; `none` when the action is not enabled. The sizes are
checked before the mutex is locked. -/
def step (s : State W R) : Action W R → Option (State W R)
  | .insert w buffer =>
    match s.hdr.doSend (s.nextMsg buffer) with
    | .error _ => if s.mutex = some w then none else some s
    | .ok hdr => if s.mutex = none then some (s.inserted w (s.nextMsg buffer) hdr) else none
  | .notify w => if s.mutex = some w then some s.notified else none
  | .receive r block bufferSize =>
    match (s.reader r).pc with
    | .idle =>
      match s.hdr.doReceive block bufferSize (s.reader r).curMsg with
      | .error _ => some s
      | .ok outcome =>
        if s.mutex = none then some (s.setReader r ((s.reader r).after block outcome)) else none
    | _ => none
  | .spurious r =>
    match (s.reader r).pc with
    | .waiting block => some (s.setReader r { s.reader r with pc := .woken block })
    | _ => none
  | .timeout r =>
    match (s.reader r).pc with
    | .waiting .timed =>
      if s.mutex = none then some (s.setReader r ((s.reader r).after .timed .returnFalse))
      else none
    | _ => none
  | .relock r =>
    match (s.reader r).pc with
    | .woken block =>
      if s.mutex = none then some (s.setReader r ((s.reader r).after block s.hdr.onWake))
      else none
    | _ => none

-- ---------------------------------------------------------------------------
-- What one step can do
-- ---------------------------------------------------------------------------

/-- The size checks ahead of the two locked sections fail. -/
def Action.Throws (maxMsgSize : Nat) : Action W R → Prop
  | .insert _ buffer => maxMsgSize < buffer.length
  | .receive _ _ bufferSize => bufferSize < maxMsgSize
  | _ => False

/-- A step of reader `r` that changes the reader: the only places where a cursor
moves or a receive returns. All but the spurious wake-up need the mutex. -/
inductive ReaderStep (s : State W R) (r : R) : Action W R → Reader → Prop
  | returnFalse {bufferSize : Nat} (hFree : s.mutex = none)
      (hSize : s.hdr.maxMsgSize ≤ bufferSize) (hIdle : (s.reader r).pc = .idle)
      (hNew : s.hdr.nothingNew (s.reader r).curMsg = true) :
      ReaderStep s r (.receive r .nonBlocking bufferSize)
        ((s.reader r).after .nonBlocking .returnFalse)
  | enterWait {block : Block} {bufferSize : Nat} (hFree : s.mutex = none)
      (hSize : s.hdr.maxMsgSize ≤ bufferSize) (hIdle : (s.reader r).pc = .idle)
      (hBlock : block ≠ .nonBlocking)
      (hNew : s.hdr.nothingNew (s.reader r).curMsg = true) :
      ReaderStep s r (.receive r block bufferSize)
        { s.reader r with pc := .waiting block }
  | read {block : Block} {bufferSize : Nat} (hFree : s.mutex = none)
      (hSize : s.hdr.maxMsgSize ≤ bufferSize) (hIdle : (s.reader r).pc = .idle)
      (hNew : s.hdr.nothingNew (s.reader r).curMsg = false) :
      ReaderStep s r (.receive r block bufferSize)
        ((s.reader r).after block (s.hdr.pick (s.reader r).curMsg))
  | spurious {block : Block} (hWait : (s.reader r).pc = .waiting block) :
      ReaderStep s r (.spurious r) { s.reader r with pc := .woken block }
  | timeout (hFree : s.mutex = none) (hWait : (s.reader r).pc = .waiting .timed) :
      ReaderStep s r (.timeout r) ((s.reader r).after .timed .returnFalse)
  | waitAgain {block : Block} (hFree : s.mutex = none)
      (hWoken : (s.reader r).pc = .woken block) (hEmpty : s.hdr.isEmpty = true) :
      ReaderStep s r (.relock r)
        { s.reader r with curMsg := s.hdr.curFirstMsg + 1, pc := .waiting block }
  | wakeRead {block : Block} (hFree : s.mutex = none)
      (hWoken : (s.reader r).pc = .woken block) (hEmpty : s.hdr.isEmpty = false) :
      ReaderStep s r (.relock r)
        ((s.reader r).after block (s.hdr.pick (s.hdr.curFirstMsg + 1)))

/-- **Inversion of `step`.** An enabled action throws and changes nothing,
inserts a message, notifies, or is a step of one reader. -/
theorem step_cases {s s' : State W R} {a : Action W R} (h : step s a = some s') :
    (s' = s ∧ a.Throws s.hdr.maxMsgSize) ∨
    (∃ w buffer hdr, a = .insert w buffer ∧ s.mutex = none ∧
      s.hdr.doSend (s.nextMsg buffer) = .ok hdr ∧
      s' = s.inserted w (s.nextMsg buffer) hdr) ∨
    (∃ w, a = .notify w ∧ s.mutex = some w ∧ s' = s.notified) ∨
    (∃ r d, ReaderStep s r a d ∧ s' = s.setReader r d) := by
  cases a with
  | insert w buffer =>
    simp only [step] at h
    split at h
    · next hError =>
      -- `do_send` throws nothing but the size error
      have hLen : (s.nextMsg buffer).data.length > s.hdr.maxMsgSize := by
        by_contra hLen
        rw [MqHdr.doSend, if_neg hLen] at hError
        cases hError
      rw [Option.ite_none_left_eq_some] at h
      exact .inl ⟨(Option.some.inj h.2).symm, hLen⟩
    · next hdr hok =>
      rw [Option.ite_none_right_eq_some] at h
      exact .inr (.inl ⟨w, buffer, hdr, rfl, h.1, hok, (Option.some.inj h.2).symm⟩)
  | notify w =>
    rw [step, Option.ite_none_right_eq_some] at h
    exact .inr (.inr (.inl ⟨w, rfl, h.1, (Option.some.inj h.2).symm⟩))
  | receive r block bufferSize =>
    simp only [step] at h
    split at h
    · next hIdle =>
      simp only [MqHdr.doReceive] at h
      by_cases hSize : bufferSize < s.hdr.maxMsgSize
      · rw [if_pos hSize] at h
        exact .inl ⟨(Option.some.inj h).symm, hSize⟩
      · rw [if_neg hSize] at h
        rw [Nat.not_lt] at hSize
        refine .inr (.inr (.inr ⟨r, ?_⟩))
        cases hNew : s.hdr.nothingNew (s.reader r).curMsg with
        | true =>
          -- nothing new: `false` at once, or the wait
          rw [hNew] at h
          cases block <;> obtain ⟨hFree, h⟩ := Option.ite_none_right_eq_some.mp h
          case nonBlocking =>
            exact ⟨_, .returnFalse hFree hSize hIdle hNew, (Option.some.inj h).symm⟩
          case blocking | timed =>
            exact ⟨_, .enterWait hFree hSize hIdle (by simp) hNew, (Option.some.inj h).symm⟩
        | false =>
          rw [hNew] at h
          obtain ⟨hFree, h⟩ := Option.ite_none_right_eq_some.mp h
          exact ⟨_, .read hFree hSize hIdle hNew, (Option.some.inj h).symm⟩
    · cases h
  | spurious r =>
    simp only [step] at h
    split at h
    · next hWait =>
      exact .inr (.inr (.inr ⟨r, _, .spurious hWait, (Option.some.inj h).symm⟩))
    · cases h
  | timeout r =>
    simp only [step] at h
    split at h
    · next hWait =>
      obtain ⟨hFree, h⟩ := Option.ite_none_right_eq_some.mp h
      exact .inr (.inr (.inr ⟨r, _, .timeout hFree hWait, (Option.some.inj h).symm⟩))
    · cases h
  | relock r =>
    simp only [step] at h
    split at h
    · next hWoken =>
      obtain ⟨hFree, h⟩ := Option.ite_none_right_eq_some.mp h
      refine .inr (.inr (.inr ⟨r, ?_⟩))
      -- the loop around the wait tests only that the ring is not empty
      rw [MqHdr.onWake] at h
      cases hEmpty : s.hdr.isEmpty with
      | true =>
        rw [hEmpty, if_pos rfl] at h
        exact ⟨_, .waitAgain hFree hWoken hEmpty, (Option.some.inj h).symm⟩
      | false =>
        rw [hEmpty, if_neg Bool.false_ne_true] at h
        exact ⟨_, .wakeRead hFree hWoken hEmpty, (Option.some.inj h).symm⟩
    · cases h

/-- The same from the point of view of one reader: a step that is not one of its
own can only wake it. -/
theorem reader_cases {s s' : State W R} {a : Action W R} (h : step s a = some s') (r : R) :
    ((s'.reader r).results = (s.reader r).results ∧
      (s'.reader r).curMsg = (s.reader r).curMsg) ∨
    ReaderStep s r a (s'.reader r) := by
  obtain ⟨rfl, -⟩ | ⟨w, buffer, hdr, rfl, -, -, rfl⟩ | ⟨w, rfl, -, rfl⟩ | ⟨q, d, hStep, rfl⟩ :=
    step_cases h
  · exact .inl ⟨rfl, rfl⟩
  · exact .inl ⟨rfl, rfl⟩
  · exact .inl ⟨rfl, rfl⟩
  · by_cases hq : r = q
    · subst hq
      rw [State.setReader_self]
      exact .inr hStep
    · rw [State.setReader_of_ne s d hq]
      exact .inl ⟨rfl, rfl⟩

end Sailbot.Ipc

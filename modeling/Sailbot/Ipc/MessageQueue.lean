import Sailbot.Lib.Ring

/-!
# The modified Boost message queue

`ipc/message_queue.hpp`, the shared control block `mq_hdr_t` and the locked
sections of `do_send` and `do_receive`. The ring is a circular index over
`maxNumMsg` preallocated messages that is extended from the front: the newest
message sits at `curFirstMsg` and the oldest one at `endIndex`. Reading removes
nothing; every reader object keeps its own slot index `m_cur_msg` (here an
argument, `curMsg`) and steps it down through the ring.

The arithmetic of `size_type` is that of `Nat`: every sum formed here is at
most `maxNumMsg`, which is itself a `size_type`, and every difference is taken
of a larger number.

A slot holds a `Msg`: the bytes the sender passed in and, as a history variable
that no function of the code reads, the number of the message in the order of
the locked inserts. A slot that was never written has number `0`.
-/

namespace Sailbot.Ipc

/-- The blocking modes of `do_receive`. -/
inductive Block
  | blocking
  | timed
  | nonBlocking
  deriving DecidableEq, Repr

/-- `interprocess_exception(size_error)`: the only exception the two calls throw. -/
inductive Error
  | sizeError
  deriving DecidableEq, Repr

/-- The contents of a message slot. `num` is the history variable. -/
structure Msg where
  num  : Nat
  data : List UInt8
  deriving DecidableEq, Repr

/-- The control block at the start of the shared memory (`mq_hdr_t`). -/
structure MqHdr where
  maxNumMsg   : Nat
  maxMsgSize  : Nat
  curNumMsg   : Nat
  curFirstMsg : Nat
  index       : Nat → Msg

namespace MqHdr

/-- The constructor; `mem` is whatever the preallocated messages contain. -/
def new (maxNumMsg maxMsgSize : Nat) (mem : Nat → List UInt8) : MqHdr where
  maxNumMsg := maxNumMsg
  maxMsgSize := maxMsgSize
  curNumMsg := 0
  curFirstMsg := 0
  index := fun i => ⟨0, mem i⟩

def isFull (h : MqHdr) : Bool := h.curNumMsg == h.maxNumMsg

def isEmpty (h : MqHdr) : Bool := h.curNumMsg == 0

def freeTopMsg (h : MqHdr) : MqHdr := { h with curNumMsg := h.curNumMsg - 1 }

def endPos (h : MqHdr) : Nat :=
  let spaceUntilBufend := h.maxNumMsg - h.curFirstMsg
  if spaceUntilBufend > h.curNumMsg then h.curFirstMsg + h.curNumMsg
  else h.curNumMsg - spaceUntilBufend

def endIndex (h : MqHdr) : Nat :=
  if h.endPos ≠ 0 then h.endPos - 1 else h.maxNumMsg - 1

/-- Extends the ring by one slot at the front; the second component is the slot
whose reference the source returns. -/
def insertAtBegin (h : MqHdr) : MqHdr × Nat :=
  let first := (if h.curFirstMsg ≠ 0 then h.curFirstMsg else h.maxNumMsg) - 1
  ({ h with curFirstMsg := first, curNumMsg := h.curNumMsg + 1 }, first)

def queueFreeMsg (h : MqHdr) : MqHdr × Nat := h.insertAtBegin

/-- `do_send` up to the end of its locked section. When the ring is full the
oldest message is dropped; the sender never blocks. -/
def doSend (h : MqHdr) (m : Msg) : Except Error MqHdr :=
  if m.data.length > h.maxMsgSize then .error .sizeError
  else
    let h := if h.isFull then h.freeTopMsg else h
    let (h, slot) := h.queueFreeMsg
    .ok { h with index := Function.update h.index slot m }

/-- How a locked section of `do_receive` ends: with a return value, or inside
`wait` / `timed_wait`, which give the mutex back. `curMsg` is the value of
`m_cur_msg` at that point. -/
inductive Outcome
  | returnFalse
  | wait (curMsg : Nat)
  | returnTrue (curMsg : Nat) (msg : Msg)

/-- One slot down from `curMsg`, wrapping at the start of the index. -/
def stepDown (h : MqHdr) (curMsg : Nat) : Nat :=
  if curMsg ≠ 0 then curMsg - 1 else h.maxNumMsg - 1

/-- The clamp to the live region `curFirstMsg .. endIndex`, which may wrap
around the end of the index. -/
def clamp (h : MqHdr) (curMsg : Nat) : Nat :=
  if h.endIndex ≥ h.curFirstMsg then
    if curMsg > h.endIndex ∨ curMsg < h.curFirstMsg then h.endIndex else curMsg
  else
    if curMsg > h.endIndex ∧ curMsg < h.curFirstMsg then h.endIndex else curMsg

/-- The new value of `m_cur_msg` when a message is read. -/
def nextMsg (h : MqHdr) (curMsg : Nat) : Nat := h.clamp (h.stepDown curMsg)

/-- The end of `do_receive`: move the cursor and copy the message out. -/
def pick (h : MqHdr) (curMsg : Nat) : Outcome :=
  .returnTrue (h.nextMsg curMsg) (h.index (h.nextMsg curMsg))

/-- The test at the head of `do_receive`. -/
def nothingNew (h : MqHdr) (curMsg : Nat) : Bool :=
  h.isEmpty || curMsg == h.curFirstMsg

/-- `do_receive` from its entry to the end of its first locked section. -/
def doReceive (h : MqHdr) (block : Block) (bufferSize curMsg : Nat) :
    Except Error Outcome :=
  if bufferSize < h.maxMsgSize then .error .sizeError
  else if h.nothingNew curMsg then
    match block with
    | .nonBlocking => .ok .returnFalse
    | .blocking | .timed => .ok (.wait curMsg)
  else .ok (h.pick curMsg)

/-- `do_receive` after `wait` or a successful `timed_wait` has re-acquired the
mutex. The loop condition is `is_empty()` alone: the position of this reader is
overwritten and not compared with the ring again. -/
def onWake (h : MqHdr) : Outcome :=
  if h.isEmpty then .wait (h.curFirstMsg + 1)
  else h.pick (h.curFirstMsg + 1)

end MqHdr

end Sailbot.Ipc

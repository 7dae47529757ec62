import Sailbot.Lib.Transition
import Sailbot.Can.CanId
import Sailbot.Can.Decode

/-!
# The CAN node

`CanNode` (`can/can.h`, `can/can.cc`): one `CANMessage` for every PGN of the
table that `CANMaster` has a message for, and `Iterate`, which merges a frame
into the buffer of its PGN and calls `DecodeAndSend` when it takes the message
to be complete. A run of the node is a list of frames.

Undefined behaviour is the absence of a result: `iterate` is `none` when the copy
of a frame leaves the buffer or reads behind the frame.

Three history variables say where things come from; nothing of the code reads
them. A cell of a buffer knows the frame that wrote it, a message the frames
that were merged into it, and the node the calls of `DecodeAndSend` so far.

* `header`        — the position, length and offset that `Iterate` computes.
* `CANMessage.merge`, `atEnd` — the copy and the end-of-message test.
* `iterate_cases` — all that one `Iterate` can do.
-/

namespace Sailbot.Can

open Lib

-- ---------------------------------------------------------------------------
-- Frames
-- ---------------------------------------------------------------------------

/-- `can_frame`; the kernel hands over no frame with a larger `can_dlc`. -/
structure CanFrame where
  canId  : BitVec 32
  canDlc : Nat
  data   : Vector (BitVec 8) 8
  dlc_le : canDlc ≤ 8

namespace CanFrame

def pgn (f : CanFrame) : Nat := getPGN (retrieveID f.canId)

/-- The number of the frame within its fast packet. -/
def index (f : CanFrame) : Nat := (f.data[0] &&& 0x1F).toNat

/-- The sequence id of the fast packet, in the top three bits. -/
def base (f : CanFrame) : BitVec 8 := f.data[0] &&& 0xE0

end CanFrame

/-- `--n` of a `size_t`. -/
def predSize (n : Nat) : Nat := (n + (2 ^ 64 - 1)) % 2 ^ 64

/-- Where a frame goes: `data_start`, the remaining `dlc`, and how far `data`
has been moved on from the start of the frame. -/
structure Header where
  dataStart : Nat
  dlc       : Nat
  offset    : Nat

def header (isLong : Bool) (f : CanFrame) : Header :=
  if isLong then
    let dataStart := if f.index = 0 then 0 else f.index * 7 - 1
    if f.index = 0 then ⟨dataStart, predSize (predSize f.canDlc), 2⟩
    else ⟨dataStart, predSize f.canDlc, 1⟩
  else ⟨0, f.canDlc, 0⟩

/-- The end-of-message test. The sum does not wrap: a frame with a larger `dlc`
has left the buffer before. -/
def atEnd (p : Pgn) (f : CanFrame) : Bool :=
  !p.isLong || decide (8 * ((header p.isLong f).dataStart + (header p.isLong f).dlc) ≥ p.size)

-- ---------------------------------------------------------------------------
-- Messages
-- ---------------------------------------------------------------------------

/-- A byte of `data_` and the number of the frame that wrote it. -/
structure Cell where
  byte   : BitVec 8
  origin : Option Nat
  deriving DecidableEq

structure CANMessage (D : Type) where
  pgn     : Pgn
  base    : BitVec 8
  data    : Nat → Cell
  store   : CANMaster D
  frames  : List CanFrame
  desc    : Descriptor
  pgn_mem : pgn ∈ pgnList
  desc_eq : canMaster.lookup pgn.pgn = some desc

variable {D : Type}

namespace CANMessage

/-- The message for a table entry, if `CANMaster` has a field for it. -/
def new (D : Type) (p : Pgn) (hp : p ∈ pgnList) : Option (CANMessage D) :=
  match h : canMaster.lookup p.pgn with
  | none => none
  | some desc => some
      { pgn := p, base := 0, data := fun _ => ⟨0, none⟩, store := {}, frames := [],
        desc := desc, pgn_mem := hp, desc_eq := h }

theorem new_eq_some {p : Pgn} {hp : p ∈ pgnList} {m : CANMessage D} (h : new D p hp = some m) :
    m.pgn = p ∧ m.store = {} ∧ m.frames = [] ∧ m.data = fun _ => ⟨0, none⟩ := by
  unfold new at h
  split at h
  · cases h
  · rw [Option.some.injEq] at h
    subst h
    exact ⟨rfl, rfl, rfl, rfl⟩

/-- Messages for the same PGN have the same descriptor. -/
theorem desc_congr {m₁ m₂ : CANMessage D} (h : m₁.pgn = m₂.pgn) : m₁.desc = m₂.desc := by
  have hLookup := m₁.desc_eq
  rw [h, m₂.desc_eq, Option.some.injEq] at hLookup
  exact hLookup.symm

/-- The bytes that `DecodeAndSend` reads. -/
def payload (m : CANMessage D) : Nat → BitVec 8 := fun i => (m.data i).byte

/-- Byte `i` of the frame behind its header, as a cell of this message. -/
def source (m : CANMessage D) (f : CanFrame) (i : Nat) : Option Cell :=
  f.data[(header m.pgn.isLong f).offset + i]?.map fun b => ⟨b, some m.frames.length⟩

/-- The part of `Iterate` between the look-up of the message and the
end-of-message test. A frame with another sequence id is only logged. -/
def merge (m : CANMessage D) (f : CanFrame) : Option (CANMessage D) :=
  let h := header m.pgn.isLong f
  match copyLoop (m.source f) h.dataStart m.pgn.bufferSize h.dlc 0 m.data with
  | none => none
  | some data => some
      { m with
        base := if m.pgn.isLong && f.index == 0 then f.base else m.base
        data := data
        frames := m.frames ++ [f] }

end CANMessage

/-- A call of `DecodeAndSend`: its argument and what it puts on the queue. -/
structure Call (D : Type) where
  msg       : CANMessage D
  published : CANMaster D

/-- `msgs_` and the calls so far. -/
structure CanNode (D : Type) where
  msgs     : Nat → Option (CANMessage D)
  calls    : List (Call D)
  msgs_pgn : ∀ k m, msgs k = some m → m.pgn.pgn = k

namespace CanNode

/-- The constructor: one message for each entry of the table that `CANMaster`
has a field for. -/
def init (D : Type) : CanNode D where
  msgs := fun k =>
    match h : pgnList.find? fun p => p.pgn == k with
    | none => none
    | some p => CANMessage.new D p (List.mem_of_find?_eq_some h)
  calls := []
  msgs_pgn := by
    intro k m h
    split at h
    · cases h
    · next p hFind =>
      have hKey : p.pgn = k := by simpa using List.find?_some hFind
      rw [(CANMessage.new_eq_some h).1, hKey]

/-- The messages of a node that has received nothing. -/
theorem init_msgs {k : Nat} {m : CANMessage D} (h : (init D).msgs k = some m) :
    m.store = {} ∧ m.frames = [] ∧ m.data = fun _ => ⟨0, none⟩ := by
  simp only [init] at h
  split at h
  · cases h
  · exact (CANMessage.new_eq_some h).2

def setMsg (s : CanNode D) (m : CANMessage D) : CanNode D where
  msgs := Function.update s.msgs m.pgn.pgn (some m)
  calls := s.calls
  msgs_pgn := by
    intro k m' h
    by_cases hk : k = m.pgn.pgn
    · rw [hk, Function.update_self, Option.some.injEq] at h
      rw [← h, hk]
    · rw [Function.update_of_ne hk] at h
      exact s.msgs_pgn k m' h

@[simp] theorem setMsg_self (s : CanNode D) (m : CANMessage D) :
    (s.setMsg m).msgs m.pgn.pgn = some m := Function.update_self ..

theorem setMsg_of_ne (s : CanNode D) {m : CANMessage D} {k : Nat} (h : k ≠ m.pgn.pgn) :
    (s.setMsg m).msgs k = s.msgs k := Function.update_of_ne h ..

end CanNode

variable (A : Arith D)

/-- The message that `DecodeAndSend` leaves in `store_msg_` and sends. -/
def decodeAndSend (m : CANMessage D) : CANMaster D :=
  let sub := decode A m.desc m.pgn m.payload (m.store.mutableMessage m.pgn.pgn)
  { m.store.setMessage m.pgn.pgn sub with outgoing := some false }

/-- The node after a call of `DecodeAndSend` on `m`. -/
def CanNode.decoded (s : CanNode D) (m : CANMessage D) : CanNode D :=
  { s.setMsg { m with store := decodeAndSend A m } with
    calls := s.calls ++ [⟨m, decodeAndSend A m⟩] }

@[simp] theorem CanNode.decoded_calls (s : CanNode D) (m : CANMessage D) :
    (s.decoded A m).calls = s.calls ++ [⟨m, decodeAndSend A m⟩] := rfl

@[simp] theorem CanNode.decoded_self (s : CanNode D) (m : CANMessage D) :
    (s.decoded A m).msgs m.pgn.pgn = some { m with store := decodeAndSend A m } :=
  Function.update_self ..

theorem CanNode.decoded_of_ne (s : CanNode D) {m : CANMessage D} {k : Nat}
    (h : k ≠ m.pgn.pgn) : (s.decoded A m).msgs k = s.msgs k := Function.update_of_ne h ..

/-- `Iterate` from the frame it has read on. -/
def iterate (s : CanNode D) (f : CanFrame) : Option (CanNode D) :=
  match s.msgs f.pgn with
  | none => some s
  | some m =>
    match m.merge f with
    | none => none
    | some m => if atEnd m.pgn f then some (s.decoded A m) else some (s.setMsg m)

-- ---------------------------------------------------------------------------
-- What one frame can do
-- ---------------------------------------------------------------------------

/-- The effect of a merge: the cells from `data_start` on come from the frame,
every other one is as before. -/
theorem CANMessage.merge_eq_some {m m' : CANMessage D} {f : CanFrame} (h : m.merge f = some m') :
    m'.pgn = m.pgn ∧ m'.desc = m.desc ∧ m'.store = m.store ∧ m'.frames = m.frames ++ [f] ∧
    (∀ i < (header m.pgn.isLong f).dlc,
      (header m.pgn.isLong f).dataStart + i < m.pgn.bufferSize ∧
      ∃ b, f.data[(header m.pgn.isLong f).offset + i]? = some b ∧
        m'.data ((header m.pgn.isLong f).dataStart + i) = ⟨b, some m.frames.length⟩) ∧
    (∀ k, k < (header m.pgn.isLong f).dataStart ∨
      (header m.pgn.isLong f).dataStart + (header m.pgn.isLong f).dlc ≤ k →
      m'.data k = m.data k) := by
  unfold CANMessage.merge at h
  simp only at h
  split at h
  · cases h
  · next data hCopy =>
    rw [Option.some.injEq] at h
    obtain ⟨hCopied, hFrame⟩ := (copyLoop_eq_some _).mp hCopy
    subst h
    refine ⟨rfl, rfl, rfl, rfl, fun i hi => ?_, fun k hk => hFrame k (by omega)⟩
    obtain ⟨hSize, hSrc⟩ := hCopied i (Nat.zero_le i) (by omega)
    obtain ⟨b, hb, hCell⟩ := Option.map_eq_some_iff.mp hSrc
    exact ⟨hSize, b, hb, hCell.symm⟩

/-- A merge goes through when all its writes stay in the buffer and all its
reads in the frame. -/
theorem CANMessage.merge_isSome {m : CANMessage D} {f : CanFrame}
    (hBuffer : ∀ i < (header m.pgn.isLong f).dlc,
      (header m.pgn.isLong f).dataStart + i < m.pgn.bufferSize)
    (hFrame : (header m.pgn.isLong f).offset + (header m.pgn.isLong f).dlc ≤ 8) :
    ∃ m', m.merge f = some m' := by
  have hSome : (copyLoop (m.source f) (header m.pgn.isLong f).dataStart m.pgn.bufferSize
      (header m.pgn.isLong f).dlc 0 m.data).isSome := by
    refine copyLoop_isSome _ fun j _ hj => ⟨hBuffer j (by omega), ?_⟩
    rw [CANMessage.source, Option.isSome_map, Vector.getElem?_eq_getElem (by omega)]
    rfl
  obtain ⟨data, hData⟩ := Option.isSome_iff_exists.mp hSome
  simp only [CANMessage.merge, hData]
  exact ⟨_, rfl⟩

/-- **Inversion of `iterate`.** A frame of an unknown PGN changes nothing; any
other one is merged into its message, which is decoded if the end-of-message
test says so. -/
theorem iterate_cases {s s' : CanNode D} {f : CanFrame} (h : iterate A s f = some s') :
    (s.msgs f.pgn = none ∧ s' = s) ∨
    ∃ m m', s.msgs f.pgn = some m ∧ m.merge f = some m' ∧
      ((atEnd m.pgn f = false ∧ s' = s.setMsg m') ∨
        (atEnd m.pgn f = true ∧ s' = s.decoded A m')) := by
  unfold iterate at h
  split at h
  · next hNone => exact .inl ⟨hNone, (Option.some.inj h).symm⟩
  · next m hSome =>
    split at h
    · cases h
    · next m' hMerge =>
      refine .inr ⟨m, m', hSome, hMerge, ?_⟩
      rw [(CANMessage.merge_eq_some hMerge).1] at h
      split at h
      · next hEnd => exact .inr ⟨hEnd, (Option.some.inj h).symm⟩
      · next hEnd => exact .inl ⟨by simpa using hEnd, (Option.some.inj h).symm⟩

end Sailbot.Can

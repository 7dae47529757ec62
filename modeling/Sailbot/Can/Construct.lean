import Sailbot.Can.Node

/-!
# Building a frame

`CanNode::ConstructMessage` (`can/can.cc`): the second walk over the field list,
which turns the numbers of a message into the bytes of one frame. Memory behind
`frame->data` is a function of the offset, of which only the offsets below eight
belong to the frame.

The conversion of a `double` to `uint64_t` is undefined for a number that is out
of range after truncation. What it gives then is a parameter, `undef`.

Two history variables are kept: the offsets that were written and the numbers
that were converted.

* `constructFields`, `constructMessage` — the walk and the whole function.
* `constructFields_spec` — for numeric fields of whole bytes that fit into the
  frame, the bits of every field are those of its converted number.
-/

namespace Sailbot.Can

open Lib

-- ---------------------------------------------------------------------------
-- The model
-- ---------------------------------------------------------------------------

/-- The frame while it is being filled. -/
structure Building (D : Type) where
  canDlc    : Nat
  data      : Nat → BitVec 8
  written   : List Nat
  converted : List D

/-- What `ConstructMessage` returns and leaves in the frame. -/
structure Built (D : Type) extends Building D where
  ok    : Bool
  canId : BitVec 32

variable {D : Type} (A : Arith D) (undef : D → BitVec 64)

/-- The number is in the range of `uint64_t` after truncation. -/
def InUInt64 (x : D) : Prop := 0 ≤ A.trunc x ∧ A.trunc x < 2 ^ 64

instance (x : D) : Decidable (InUInt64 A x) := inferInstanceAs (Decidable (_ ∧ _))

/-- `uint64_t n_wire = x`. -/
def toUInt64 (x : D) : BitVec 64 :=
  if InUInt64 A x then BitVec.ofInt 64 (A.trunc x) else undef x

/-- `GetMessage`: the message for a PGN, or an empty one. -/
def CANMaster.getMessage (msg : CANMaster D) (pgn : Nat) : PgnMsg D := (msg.sub pgn).getD {}

/-- One field: the number is converted and as many of its bytes as the field has
are copied to the end of the data; `can_dlc` is a `uint8_t`. -/
def Building.putField (b : Building D) (f : Field) (x : D) : Building D where
  canDlc := (b.canDlc + f.size / 8) % 256
  data := memcpy b.data b.canDlc (leByte (toUInt64 A undef x)) (f.size / 8)
  written := b.written ++ List.range' b.canDlc (f.size / 8)
  converted := b.converted ++ [x]

/-- The loop over the fields from field `i` on, with the value it returns early
or goes on with. -/
def constructFields (desc : Descriptor) (msg : PgnMsg D) :
    List Field → Nat → Building D → Building D × Bool
  | [], _, b => (b, true)
  | f :: fs, i, b =>
    if f.size % 8 ≠ 0 then (b, false)
    else if f.resolution > 0 then
      constructFields desc msg fs (i + 1)
        (b.putField A undef f (A.div (getProtoNumberFieldById A desc msg (i + 1)) f.resolution))
    else
      constructFields desc msg fs (i + 1) { b with canDlc := (b.canDlc + f.size / 8) % 256 }

/-- The padding loop at the end: `0xFF` up to eight bytes. -/
def Building.pad (b : Building D) : Building D :=
  { b with
    canDlc := max b.canDlc 8
    data := memcpy b.data b.canDlc (fun _ => 0xFF) (8 - b.canDlc)
    written := b.written ++ List.range' b.canDlc (8 - b.canDlc) }

theorem Building.pad_data_of_lt (b : Building D) {i : Nat} (h : i < b.canDlc) :
    b.pad.data i = b.data i := by
  show memcpy b.data b.canDlc (fun _ => 0xFF) (8 - b.canDlc) i = b.data i
  exact memcpy_of_lt h

/-- `ConstructMessage` on a frame that holds `data`; `id` is what the uninitialised
`CANID` holds. A message that takes several frames is logged and not refused. -/
def constructMessage (msg : CANMaster D) (info : CANMessage D) (data : Nat → BitVec 8)
    (id : CANID) : Built D :=
  match constructFields A undef info.desc (msg.getMessage info.pgn.pgn) info.pgn.fieldList 0
      ⟨0, data, [], []⟩ with
  | (b, false) => { b with ok := false, canId := constructID id }
  | (b, true) =>
    let canId := { setPGN id.new info.pgn.pgn with priority := 5, source := 0x15 }
    { b.pad with ok := true, canId := constructID canId }

/-- What is published for a PGN is what its payload was decoded into. -/
theorem decodeAndSend_getMessage (m : CANMessage D) :
    (decodeAndSend A m).getMessage m.pgn.pgn =
      decode A m.desc m.pgn m.payload (m.store.mutableMessage m.pgn.pgn) := by
  simp [decodeAndSend, CANMaster.getMessage, CANMaster.setMessage]

/-- The frame as it goes onto the bus. -/
def Built.frame (r : Built D) (h : r.canDlc ≤ 8) : CanFrame where
  canId := r.canId
  canDlc := r.canDlc
  data := Vector.ofFn fun i => r.data i
  dlc_le := h

-- ---------------------------------------------------------------------------
-- What the walk writes
-- ---------------------------------------------------------------------------

/-- The number that the walk converts for field `j`. -/
def wireNumber (desc : Descriptor) (msg : PgnMsg D) (f : Field) (j : Nat) : D :=
  A.div (getProtoNumberFieldById A desc msg (j + 1)) f.resolution

/--
**The walk over numeric fields of whole bytes** that fit into the frame. It
succeeds, converts one number for each field, keeps what lies in front of it, and
puts the bits of every number at the place of its field.
-/
theorem constructFields_spec {desc : Descriptor} {msg : PgnMsg D} (fs : List Field) :
    ∀ {i : Nat} {b : Building D}, (∀ f ∈ fs, f.size % 8 = 0 ∧ f.resolution > 0) →
      8 * b.canDlc + (fs.map Field.size).sum ≤ 64 →
      ∃ b', constructFields A undef desc msg fs i b = (b', true) ∧
        8 * b'.canDlc = 8 * b.canDlc + (fs.map Field.size).sum ∧
        (∀ k < b.canDlc, b'.data k = b.data k) ∧
        b'.converted = b.converted ++ fs.mapIdx (fun j f => wireNumber A desc msg f (i + j)) ∧
        ∀ j f, fs[j]? = some f → ∀ k < f.size,
          bitAt b'.data (8 * b.canDlc + bitsBefore fs j + k) =
            (toUInt64 A undef (wireNumber A desc msg f (i + j))).getLsbD k := by
  induction fs with
  | nil =>
    intro i b _ _
    refine ⟨b, rfl, by simp, fun _ _ => rfl, by simp, ?_⟩
    intro j f hf
    cases hf
  | cons f fs ih =>
    intro i b hNumeric hRoom
    obtain ⟨hSize, hRes⟩ := hNumeric f (List.mem_cons_self ..)
    rw [List.map_cons, List.sum_cons] at hRoom
    set x := wireNumber A desc msg f i with hx
    have hDlc : 8 * (b.putField A undef f x).canDlc = 8 * b.canDlc + f.size := by
      show 8 * ((b.canDlc + f.size / 8) % 256) = _
      omega
    obtain ⟨b', hRun, hDlc', hKept, hConverted, hBits⟩ := ih (i := i + 1)
      (b := b.putField A undef f x) (fun g hg => hNumeric g (List.mem_cons_of_mem _ hg))
      (by omega)
    refine ⟨b', ?_, ?_, ?_, ?_, ?_⟩
    · rw [constructFields, if_neg (by omega), if_pos hRes]
      exact hRun
    · rw [hDlc', hDlc, List.map_cons, List.sum_cons, Nat.add_assoc]
    · intro k hk
      rw [hKept k (by omega)]
      exact memcpy_of_lt hk
    · rw [hConverted, List.mapIdx_cons]
      simp only [Building.putField, List.append_assoc, List.singleton_append, Nat.add_zero]
      congr 3
      funext j g
      rw [Nat.add_assoc, Nat.add_comm 1 j]
    · intro j g hg k hk
      cases j with
      | zero =>
        obtain rfl : f = g := by simpa using hg
        -- the later fields leave these bytes as they are
        have hByte : (8 * b.canDlc + k) / 8 < (b.putField A undef f x).canDlc := by omega
        rw [bitsBefore_zero, Nat.add_zero, Nat.add_zero, bitAt_congr (hKept _ hByte)]
        exact bitAt_memcpy_leByte _ _ _ (by omega)
      | succ j =>
        have hNext := hBits j g (by simpa using hg) k hk
        rw [hDlc] at hNext
        rw [bitsBefore_succ, show i + (j + 1) = i + 1 + j by omega, ← hNext]
        congr 1
        omega

end Sailbot.Can

import Sailbot.Can.Construct

/-!
# Sending a message

`CanNode::SendMessage` (`can/can.cc`) and the bytes that `ConstructMessage` writes
on the way. Where a field goes depends on the fields in front of it alone, not on
the message: `layoutFields` is the walk of `ConstructMessage` without the numbers.

A message longer than a frame is logged and not refused. It is refused only at its
first field that is not made of whole bytes, when the numbers in front of that field
have been written already.

* `constructFields_layout` — the offsets written, the length and the verdict of the
  walk are those of the layout.
* `stays_in_frame_iff` — everything is written inside the frame exactly for the PGNs
  of at most eight bytes.
-/

namespace Sailbot.Can

open Lib

-- ---------------------------------------------------------------------------
-- The model
-- ---------------------------------------------------------------------------

variable {D : Type} (A : Arith D) (undef : D → BitVec 64)

/-- What `SendMessage` hands to `write`. A message that is not outgoing has been
received from the bus and is not sent again; `outgoing` is true by default. -/
def sendMessage (msg : CANMaster D) (info : CANMessage D) (data : Nat → BitVec 8)
    (id : CANID) : Option (Built D) :=
  if msg.outgoing.getD true then
    let r := constructMessage A undef msg info data id
    if r.ok then some r else none
  else none

-- ---------------------------------------------------------------------------
-- Where the fields go
-- ---------------------------------------------------------------------------

/-- What the walk over the fields does to `can_dlc` and which offsets it writes. -/
structure Layout where
  canDlc  : Nat
  written : List Nat
  ok      : Bool
  deriving DecidableEq

/-- The layout of the fields `fs` from offset `dlc` on. -/
def layoutFields : List Field → (dlc : Nat) → Layout
  | [], dlc => ⟨dlc, [], true⟩
  | f :: fs, dlc =>
    if f.size % 8 ≠ 0 then ⟨dlc, [], false⟩
    else
      let rest := layoutFields fs ((dlc + f.size / 8) % 256)
      { rest with
        written := (if f.resolution > 0 then List.range' dlc (f.size / 8) else []) ++
          rest.written }

theorem layoutFields_cons_refused {f : Field} (h : f.size % 8 ≠ 0) (fs : List Field)
    (dlc : Nat) : layoutFields (f :: fs) dlc = ⟨dlc, [], false⟩ := by
  rw [layoutFields, if_pos h]

/-- **The walk and its layout.** -/
theorem constructFields_layout (desc : Descriptor) (msg : PgnMsg D) (fs : List Field) :
    ∀ {i : Nat} {b : Building D},
      (constructFields A undef desc msg fs i b).1.canDlc = (layoutFields fs b.canDlc).canDlc ∧
      (constructFields A undef desc msg fs i b).1.written =
        b.written ++ (layoutFields fs b.canDlc).written ∧
      (constructFields A undef desc msg fs i b).2 = (layoutFields fs b.canDlc).ok := by
  induction fs with
  | nil =>
    intro i b
    exact ⟨rfl, (List.append_nil _).symm, rfl⟩
  | cons f fs ih =>
    intro i b
    rw [constructFields]
    by_cases hSize : f.size % 8 ≠ 0
    · rw [if_pos hSize, layoutFields_cons_refused hSize]
      exact ⟨rfl, (List.append_nil _).symm, rfl⟩
    · rw [if_neg hSize, layoutFields, if_neg hSize]
      by_cases hRes : f.resolution > 0
      · rw [if_pos hRes, if_pos hRes]
        obtain ⟨hDlc, hWritten, hOk⟩ := ih (i := i + 1) (b := b.putField A undef f
          (A.div (getProtoNumberFieldById A desc msg (i + 1)) f.resolution))
        refine ⟨hDlc, hWritten.trans ?_, hOk⟩
        exact List.append_assoc ..
      · rw [if_neg hRes, if_neg hRes]
        exact ih (i := i + 1) (b := { b with canDlc := (b.canDlc + f.size / 8) % 256 })

/-- The padding goes up to the end of the frame. -/
def Layout.pad (l : Layout) : List Nat := if l.ok then List.range' l.canDlc (8 - l.canDlc) else []

/-- `ConstructMessage` in terms of the layout of its PGN. -/
theorem constructMessage_layout (msg : CANMaster D) (info : CANMessage D)
    (data : Nat → BitVec 8) (id : CANID) :
    let r := constructMessage A undef msg info data id
    let l := layoutFields info.pgn.fieldList 0
    r.ok = l.ok ∧ r.written = l.written ++ l.pad ∧
    (l.ok = true → r.canDlc = max l.canDlc 8) := by
  intro r l
  obtain ⟨hDlc, hWritten, hOk⟩ := constructFields_layout A undef info.desc
    (msg.getMessage info.pgn.pgn) info.pgn.fieldList (i := 0) (b := ⟨0, data, [], []⟩)
  simp only [List.nil_append] at hDlc hWritten hOk
  simp only [r, l, constructMessage, Layout.pad]
  rw [← hDlc, ← hWritten, ← hOk]
  split
  · next b h =>
    rw [h]
    simp
  · next b h =>
    rw [h]
    exact ⟨rfl, rfl, fun _ => rfl⟩

-- ---------------------------------------------------------------------------
-- Inside the frame
-- ---------------------------------------------------------------------------

/-- Every byte that `ConstructMessage` writes is one of the eight of the frame. When
it succeeds, `can_dlc` is eight at the end and was not more after any of the fields.
A message longer than the frame is refused. -/
def StaysInFrame (msg : CANMaster D) (info : CANMessage D) (data : Nat → BitVec 8)
    (id : CANID) : Prop :=
  let r := constructMessage A undef msg info data id
  (∀ k ∈ r.written, k < 8) ∧
  (r.ok = true → r.canDlc = 8 ∧ ∀ j, (constructFields A undef info.desc
    (msg.getMessage info.pgn.pgn) (info.pgn.fieldList.take j) 0 ⟨0, data, [], []⟩).1.canDlc ≤ 8) ∧
  (8 < info.pgn.size → r.ok = false)

/-- The same of the layout alone; `j` goes up to the number of fields. -/
def Pgn.LayoutInFrame (p : Pgn) : Prop :=
  let l := layoutFields p.fieldList 0
  (∀ k ∈ l.written ++ l.pad, k < 8) ∧
  (l.ok = true → l.canDlc ≤ 8 ∧
    ∀ j ∈ List.range (p.fieldList.length + 1), (layoutFields (p.fieldList.take j) 0).canDlc ≤ 8) ∧
  (8 < p.size → l.ok = false)

instance (p : Pgn) : Decidable p.LayoutInFrame := inferInstanceAs (Decidable (_ ∧ _))

/-- Of the entries that the node has a message for, only the GNSS position does not
fit into a frame. -/
theorem layoutInFrame_iff : ∀ p ∈ pgnList, (canMaster.lookup p.pgn).isSome →
    (p.LayoutInFrame ↔ p.size ≤ 8) := by
  decide +kernel

/-- Only the layout of the PGN decides whether the frame overflows. -/
theorem staysInFrame_iff_layout (msg : CANMaster D) (info : CANMessage D)
    (data : Nat → BitVec 8) (id : CANID) :
    StaysInFrame A undef msg info data id ↔ info.pgn.LayoutInFrame := by
  obtain ⟨hOk, hWritten, hDlc⟩ := constructMessage_layout A undef msg info data id
  have hTake : ∀ j, (constructFields A undef info.desc (msg.getMessage info.pgn.pgn)
      (info.pgn.fieldList.take j) 0 ⟨0, data, [], []⟩).1.canDlc =
        (layoutFields (info.pgn.fieldList.take j) 0).canDlc :=
    fun j => (constructFields_layout A undef _ _ (info.pgn.fieldList.take j)).1
  simp only [StaysInFrame, Pgn.LayoutInFrame]
  rw [hWritten, hOk]
  refine and_congr_right fun _ => and_congr_left fun _ => ?_
  refine forall_congr' ?_
  intro hSucceeds
  rw [hDlc hSucceeds]
  refine and_congr (by omega) ⟨fun h j _ => hTake j ▸ h j, ?_⟩
  intro h j
  -- behind the last field nothing more is taken
  rw [hTake]
  by_cases hj : j ≤ info.pgn.fieldList.length
  · exact h j (List.mem_range.mpr (by omega))
  · have hAll := h info.pgn.fieldList.length (List.mem_range.mpr (by omega))
    rw [List.take_length] at hAll
    rw [List.take_of_length_le (by omega)]
    exact hAll

/--
**Sending stays inside the frame, exactly.** For every PGN that the node has a
message for, every message and whatever the frame holds: `ConstructMessage` writes
inside the frame, and refuses what does not fit, if and only if the PGN has at most
eight bytes.
-/
theorem stays_in_frame_iff (msg : CANMaster D) (info : CANMessage D) (data : Nat → BitVec 8)
    (id : CANID) : StaysInFrame A undef msg info data id ↔ info.pgn.size ≤ 8 := by
  rw [staysInFrame_iff_layout]
  exact layoutInFrame_iff info.pgn info.pgn_mem (by rw [info.desc_eq]; rfl)

/-- The altitude of the GNSS position is written to the bytes 23 to 30 of a frame that
has eight, before a field of four bits makes the function return `false`. -/
theorem altitude_written_behind_frame :
    ∃ info : CANMessage ℚ, info.pgn.pgn = 129029 ∧
      ∀ (undef : ℚ → BitVec 64) (msg : CANMaster ℚ) (data : Nat → BitVec 8) (id : CANID),
        let r := constructMessage Arith.exact undef msg info data id
        r.ok = false ∧ r.written = 0 :: List.range' 23 8 ∧
        ¬ StaysInFrame Arith.exact undef msg info data id := by
  obtain ⟨p, hp, hPgn, hLayout⟩ : ∃ p ∈ pgnList, p.pgn = 129029 ∧
      layoutFields p.fieldList 0 = ⟨31, 0 :: List.range' 23 8, false⟩ :=
    ⟨_, List.getLast_mem (l := pgnList) (by decide), rfl, by decide +kernel⟩
  let info : CANMessage ℚ :=
    { pgn := p, base := 0, data := fun _ => ⟨0, none⟩, store := {}, frames := [],
      desc := gnssPositionData, pgn_mem := hp, desc_eq := by rw [hPgn]; rfl }
  refine ⟨info, hPgn, ?_⟩
  intro undef msg data id
  obtain ⟨hOk, hWritten, -⟩ := constructMessage_layout Arith.exact undef msg info data id
  rw [show info.pgn.fieldList = p.fieldList from rfl, hLayout] at hOk hWritten
  refine ⟨hOk, hWritten.trans (List.append_nil _), ?_⟩
  intro hStays
  have hLast := hStays.1 23 (by rw [hWritten]; decide)
  exact absurd hLast (by decide)

end Sailbot.Can

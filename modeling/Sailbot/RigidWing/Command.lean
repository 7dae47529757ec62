import Mathlib.Tactic.NormNum
import Sailbot.Control.ActuatorCmd
import Sailbot.Lib.Decimal

/-!
# Commands of the rigid wing

`RigidWing::ConstructMessage` and `RigidWing::ConstructAndSend` (`rigid_wing/rigid_wing.cc`). A
command is printed into a buffer of 16 bytes, and as many bytes as `snprintf` returns are written to
the connection: the length of the whole text, also when the buffer does not hold it.

The angles are converted to `int`, for which NaN, an infinity and a number out of range have no
result.

* `RigidWing.constructMessage_iff` — the text has at most 16 characters if and only if its numbers
  have at most two more characters than the format has places for; and the commands that the wing
  understands are printed in its format.
-/

namespace Sailbot

open Lib

/-- `RigidWingCmd.WingState`. -/
inductive WingState
  | noLift
  | maxLiftStarboard
  | heelLimitStarboard
  | maxLiftPort
  | heelLimitPort
  | maxDragStarboard
  | maxDragPort
  | manual
  deriving DecidableEq, Repr

/-- The number of a state in the message. -/
def WingState.value : WingState → Int
  | noLift => 0
  | maxLiftStarboard => 1
  | heelLimitStarboard => 2
  | maxLiftPort => 3
  | heelLimitPort => 4
  | maxDragStarboard => 5
  | maxDragPort => 6
  | manual => 7

structure RigidWingCmd where
  state    : WingState := .noLift
  heel     : Fp := .num 0
  maxHeel  : Fp := .num 0
  servoPos : BitVec 32 := 0
  deriving DecidableEq

namespace RigidWing

variable (F : Formats)

/-- `ToDeg`, for a number of type `float`. -/
def toDeg (a : Fp) : Fp :=
  .conv F.float (.div F.double (.mul F.double a (.num 180)) (.num Control.mPi))

/-- What `snprintf` leaves in the buffer, and what it returns. -/
def snprintf (bufLen : Nat) (text : List Char) : List Char × Nat :=
  (if bufLen = 0 then [] else text.take (bufLen - 1) ++ [Char.ofNat 0], text.length)

/-- `[%01d %03d %02d %03d]`. -/
def commandText (state heel maxHeel aoa : Int) : List Char :=
  '[' :: printInt 1 state ++ ' ' :: printInt 3 heel ++ ' ' :: printInt 2 maxHeel ++
    ' ' :: printInt 3 aoa ++ [']']

def constructMessage (cmd : RigidWingCmd) (bufLen : Nat) : Option (List Char × Nat) := do
  let heel ← (toDeg F cmd.heel).toInt
  let maxHeel ← (toDeg F cmd.maxHeel).toInt
  let aoa := cmd.servoPos.toInt
  return snprintf bufLen (commandText cmd.state.value heel maxHeel aoa)

/-- `ConstructAndSend`: what is written to the connection, if there is one. Behind the end of the
buffer there is nothing to be read. -/
def constructAndSend (connected : Bool) (cmd : RigidWingCmd) : Option (List Char) := do
  let (buf, n) ← constructMessage F cmd 16
  if connected then (if n ≤ 16 then some (buf.take n) else none) else some []

/-- The length of the message is at most that of the buffer. -/
def FitsBuffer (cmd : RigidWingCmd) : Prop :=
  ∃ buf n, constructMessage F cmd 16 = some (buf, n) ∧ n ≤ 16

/-- With degrees and positions in the ranges of the format, the message is `[s hhh mm ppp]`. -/
def HasFormat (cmd : RigidWingCmd) : Prop :=
  ∀ heel maxHeel, (toDeg F cmd.heel).toInt = some heel →
    (toDeg F cmd.maxHeel).toInt = some maxHeel →
    0 ≤ heel ∧ heel ≤ 999 → 0 ≤ maxHeel ∧ maxHeel ≤ 99 →
    0 ≤ cmd.servoPos.toInt ∧ cmd.servoPos.toInt ≤ 999 →
    ∃ s h m p, constructMessage F cmd 16 =
        some ('[' :: s ++ ' ' :: h ++ ' ' :: m ++ ' ' :: p ++ [']', Char.ofNat 0], 14) ∧
      Numeral 1 cmd.state.value s ∧ Numeral 3 heel h ∧ Numeral 2 maxHeel m ∧
      Numeral 3 cmd.servoPos.toInt p

/-- By how many characters, up to three, a number is too long for `w` places. -/
def excess (w : Nat) (x : Fp) : Nat :=
  if x.Between (-10 ^ (w - 1)) (10 ^ w) then 0
  else if x.Between (-10 ^ w) (10 ^ (w + 1)) then 1
  else if x.Between (-10 ^ (w + 1)) (10 ^ (w + 2)) then 2
  else 3

variable {F} {cmd : RigidWingCmd}

-- ---------------------------------------------------------------------------
-- Lengths
-- ---------------------------------------------------------------------------

/-- The length of a command, by its numbers. -/
theorem length_commandText (state heel maxHeel aoa : Int) :
    (commandText state heel maxHeel aoa).length =
      5 + (printInt 1 state).length + (printInt 3 heel).length + (printInt 2 maxHeel).length +
        (printInt 3 aoa).length := by
  simp only [commandText, List.cons_append, List.length_cons, List.length_append,
    List.length_nil]
  omega

/-- The state is one digit. -/
theorem numeral_state (state : WingState) : Numeral 1 state.value (printInt 1 state.value) := by
  cases state <;> exact numeral_printInt (by decide) (by decide) (by decide)

theorem between_mono {a a' b b' : ℚ} (ha : a' ≤ a) (hb : b ≤ b') :
    ∀ {x : Fp}, x.Between a b → x.Between a' b'
  | .num _, ⟨hLow, hHigh⟩ => ⟨ha.trans_lt hLow, hHigh.trans_le hb⟩

/-- Conversion to `int` keeps a number between powers of ten that an `int` can hold. -/
theorem between_iff_toInt {i j : Nat} (hi : i ≤ 9) (hj : j ≤ 9) (x : Fp) :
    x.Between (-10 ^ i) (10 ^ j) ↔ ∃ n, x.toInt = some n ∧ -10 ^ i < n ∧ n < 10 ^ j := by
  have hLow : (0 : Int) < 10 ^ i := Int.pow_pos (by decide)
  have hHigh : (0 : Int) < 10 ^ j := Int.pow_pos (by decide)
  have hLow' : (10 : Int) ^ i ≤ 10 ^ 9 := pow_le_pow_right₀ (by decide) hi
  have hHigh' : (10 : Int) ^ j ≤ 10 ^ 9 := pow_le_pow_right₀ (by decide) hj
  cases x with
  | nan => exact ⟨False.elim, fun ⟨_, h, _⟩ => nomatch h⟩
  | inf m => exact ⟨False.elim, fun ⟨_, h, _⟩ => nomatch h⟩
  | num q =>
    have hTruncate : (Fp.num q).Between (-10 ^ i) (10 ^ j) ↔
        -10 ^ i < truncate q ∧ truncate q < 10 ^ j := by
      rw [neg_lt_truncate hLow, truncate_lt hHigh]
      push_cast
      exact Iff.rfl
    rw [hTruncate, Fp.toInt]
    constructor
    · intro h
      exact ⟨_, if_pos (by omega), h⟩
    · rintro ⟨n, hInt, h⟩
      split at hInt
      · exact Option.some.inj hInt ▸ h
      · cases hInt

/-- How many digits a number takes beyond its width. -/
theorem excess_le_iff {w e : Nat} (he : e ≤ 2) (x : Fp) :
    excess w x ≤ e ↔ x.Between (-10 ^ (w + e - 1)) (10 ^ (w + e)) := by
  have hMono : ∀ {i j : Nat}, i ≤ j → (10 : ℚ) ^ i ≤ 10 ^ j :=
    fun hij => pow_le_pow_right₀ (by norm_num) hij
  have hZeroOne : x.Between (-10 ^ (w - 1)) (10 ^ w) → x.Between (-10 ^ w) (10 ^ (w + 1)) :=
    between_mono (neg_le_neg (hMono (by omega))) (hMono (by omega))
  have hOneTwo : x.Between (-10 ^ w) (10 ^ (w + 1)) →
      x.Between (-10 ^ (w + 1)) (10 ^ (w + 2)) :=
    between_mono (neg_le_neg (hMono (by omega))) (hMono (by omega))
  unfold excess
  match e, he with
  | 0, _ => split_ifs <;> simp_all
  | 1, _ => split_ifs <;> simp_all
  | 2, _ => split_ifs <;> simp_all

/-- The places that a converted number takes. -/
theorem length_le_iff {w e : Nat} (hw : 0 < w) (hw' : w ≤ 3) (he : e ≤ 2) (x : Fp) :
    excess w x ≤ e ↔ ∃ n, x.toInt = some n ∧ (printInt w n).length ≤ w + e := by
  rw [excess_le_iff he, between_iff_toInt (by omega) (by omega)]
  refine exists_congr fun n => and_congr_right fun _ => ?_
  rw [length_printInt_le_iff hw]
  exact ⟨fun h => ⟨by omega, h⟩, fun h => h.2⟩

-- ---------------------------------------------------------------------------
-- Messages
-- ---------------------------------------------------------------------------

/-- The text of a command whose angles can be converted. -/
theorem constructMessage_eq {heel maxHeel : Int} (hHeel : (toDeg F cmd.heel).toInt = some heel)
    (hMax : (toDeg F cmd.maxHeel).toInt = some maxHeel) (bufLen : Nat) :
    constructMessage F cmd bufLen =
      some (snprintf bufLen (commandText cmd.state.value heel maxHeel cmd.servoPos.toInt)) := by
  rw [constructMessage, hHeel, hMax]
  rfl

/-- The position is an `int` already. -/
theorem toInt_servoPos (x : BitVec 32) : (Fp.num x.toInt).toInt = some x.toInt := by
  have hTruncate : truncate (x.toInt : ℚ) = x.toInt := by
    unfold truncate
    split
    · exact Int.floor_intCast _
    · exact Int.ceil_intCast _
  have hLow := x.le_two_mul_toInt
  have hHigh := x.two_mul_toInt_lt
  rw [Fp.toInt, hTruncate, if_pos (by omega)]

/-- The same of the servo's position. -/
theorem length_servoPos_le_iff {w e : Nat} (hw : 0 < w) (hw' : w ≤ 3) (he : e ≤ 2)
    (x : BitVec 32) : excess w (.num x.toInt) ≤ e ↔ (printInt w x.toInt).length ≤ w + e := by
  rw [length_le_iff hw hw' he, toInt_servoPos]
  exact ⟨fun ⟨m, hm, h⟩ => Option.some.inj hm ▸ h, fun h => ⟨_, rfl, h⟩⟩

/-- The commands that the format is made for are printed in it. -/
theorem hasFormat (F : Formats) (cmd : RigidWingCmd) : HasFormat F cmd := by
  intro heel maxHeel hHeel hMax hHeelRange hMaxRange hPosRange
  have hState := numeral_state cmd.state
  have hHeelText := numeral_printInt (w := 3) (by decide) hHeelRange.1 (by omega)
  have hMaxText := numeral_printInt (w := 2) (by decide) hMaxRange.1 (by omega)
  have hPosText := numeral_printInt (w := 3) (by decide) hPosRange.1 (by omega)
  refine ⟨_, _, _, _, ?_, hState, hHeelText, hMaxText, hPosText⟩
  have hLength := length_commandText cmd.state.value heel maxHeel cmd.servoPos.toInt
  rw [hState.length, hHeelText.length, hMaxText.length, hPosText.length] at hLength
  rw [constructMessage_eq hHeel hMax, snprintf, if_neg (by decide), hLength,
    List.take_of_length_le (by omega), commandText]
  simp only [List.append_assoc, List.cons_append, List.nil_append]

/-- **Commands.** The length that `ConstructMessage` returns is that of the buffer or less, and the
message has the format where the command is one of the format, if and only if the numbers are
longer than their places by two characters or less. -/
theorem constructMessage_iff (F : Formats) (cmd : RigidWingCmd) :
    FitsBuffer F cmd ∧ HasFormat F cmd ↔
      excess 3 (toDeg F cmd.heel) + excess 2 (toDeg F cmd.maxHeel) +
        excess 3 (.num cmd.servoPos.toInt) ≤ 2 := by
  rw [and_iff_left (hasFormat F cmd)]
  constructor
  · rintro ⟨buf, n, hMessage, hFits⟩
    rw [constructMessage] at hMessage
    obtain ⟨heel, hHeel, hMessage⟩ := Option.bind_eq_some_iff.mp hMessage
    obtain ⟨maxHeel, hMax, hMessage⟩ := Option.bind_eq_some_iff.mp hMessage
    obtain ⟨-, rfl⟩ := Prod.mk.inj (Option.some.inj hMessage)
    rw [length_commandText, (numeral_state cmd.state).length] at hFits
    have hHeelMin := le_length_printInt 3 heel
    have hMaxMin := le_length_printInt 2 maxHeel
    have hPosMin := le_length_printInt 3 cmd.servoPos.toInt
    have hHeelLe := (length_le_iff (w := 3) (e := (printInt 3 heel).length - 3) (by decide)
      (by decide) (by omega) (toDeg F cmd.heel)).mpr ⟨heel, hHeel, by omega⟩
    have hMaxLe := (length_le_iff (w := 2) (e := (printInt 2 maxHeel).length - 2) (by decide)
      (by decide) (by omega) (toDeg F cmd.maxHeel)).mpr ⟨maxHeel, hMax, by omega⟩
    have hPosLe := (length_servoPos_le_iff (w := 3)
      (e := (printInt 3 cmd.servoPos.toInt).length - 3) (by decide) (by decide) (by omega)
      cmd.servoPos).mpr (by omega)
    omega
  · intro hExcess
    obtain ⟨heel, hHeel, hHeelLe⟩ :=
      (length_le_iff (w := 3) (by decide) (by decide) (by omega) (toDeg F cmd.heel)).mp le_rfl
    obtain ⟨maxHeel, hMax, hMaxLe⟩ :=
      (length_le_iff (w := 2) (by decide) (by decide) (by omega) (toDeg F cmd.maxHeel)).mp le_rfl
    have hPosLe :=
      (length_servoPos_le_iff (w := 3) (by decide) (by decide) (by omega) cmd.servoPos).mp le_rfl
    refine ⟨_, _, constructMessage_eq hHeel hMax 16, ?_⟩
    rw [length_commandText, (numeral_state cmd.state).length]
    omega

/-- The position 1000000 takes seven places: 18 characters. -/
theorem constructMessage_too_long :
    ¬ ∀ (F : Formats) (cmd : RigidWingCmd), FitsBuffer F cmd ∧ HasFormat F cmd := by
  intro hAll
  obtain ⟨buf, n, hMessage, hFits⟩ := (hAll .exact { servoPos := 1000000 }).1
  have hText : constructMessage .exact { servoPos := 1000000 } 16 =
      some ("[0 000 00 100000".toList.take 15 ++ [Char.ofNat 0], 18) := by decide +kernel
  obtain ⟨-, rfl⟩ := Prod.mk.inj (Option.some.inj (hMessage.symm.trans hText))
  exact absurd hFits (by decide)

/-- What is written lies in the buffer exactly when the message fits. -/
theorem constructAndSend_isSome_iff (F : Formats) (cmd : RigidWingCmd) :
    (constructAndSend F true cmd).isSome = true ↔ FitsBuffer F cmd := by
  rw [constructAndSend, FitsBuffer]
  cases hMessage : constructMessage F cmd 16 with
  | none => exact ⟨fun h => (nomatch h), fun ⟨_, _, h, _⟩ => (nomatch h)⟩
  | some message =>
    obtain ⟨buf, n⟩ := message
    change (if n ≤ 16 then some (buf.take n) else none).isSome = true ↔ _
    constructor
    · intro h
      by_cases hFits : n ≤ 16
      · exact ⟨buf, n, rfl, hFits⟩
      · rw [if_neg hFits] at h
        cases h
    · rintro ⟨buf', n', hEq, hFits⟩
      obtain ⟨rfl, rfl⟩ := Prod.mk.inj (Option.some.inj hEq)
      rw [if_pos hFits]
      rfl

end RigidWing

end Sailbot

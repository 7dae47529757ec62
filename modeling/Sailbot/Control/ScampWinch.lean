import Sailbot.Control.ScampRange

/-!
# The winch

The volts of the winch outlive the source that sent them, and the angle of the sail
outlives the calibration it was computed with. Both results say for a whole run when
this does not show.

* `Scamp.idle_winch_iff`    — the winch stands still until the selected source has sent
  a command, if and only if the volts that were left over are stopped by the travel.
* `Scamp.winch_travel_iff`  — the winch is never driven out of its travel, if and only
  if every calibration that is used is one and the angle computed at the latest reading
  of the pot stops whatever the calibration in force would stop.
-/

namespace Sailbot.Control.Scamp

open Lib

variable {F : Formats} {s s' : Scamp} {a : ScampMsg}

-- ---------------------------------------------------------------------------
-- From volts to the servo
-- ---------------------------------------------------------------------------

/-- The sail is at the outer end of the travel, by the angle of the latest reading. -/
def AtOuterEnd (s : Scamp) : Prop := Fp.le s.consts.getWinchOutAngle s.sailPos = true

/-- The sail is at the inner end, and not at the outer one. -/
def AtInnerEnd (s : Scamp) : Prop := ¬ s.AtOuterEnd ∧ Fp.le s.sailPos (.num 0) = true

/-- Volts outward are let through, unless the winch is at its outer end. -/
theorem limitVolts_pos_iff {volts : Int} : 0 < s.limitVolts volts ↔ 0 < volts ∧ ¬ s.AtOuterEnd := by
  unfold limitVolts AtOuterEnd
  split
  · next hOut => simp [hOut]
  · next hOut =>
    split <;> simp [hOut]

/-- Volts inward are let through, unless the winch is at its inner end. -/
theorem limitVolts_neg_iff {volts : Int} : s.limitVolts volts < 0 ↔ volts < 0 ∧ ¬ s.AtInnerEnd := by
  unfold limitVolts AtInnerEnd AtOuterEnd
  split
  · next hOut => simp [hOut]
  · next hOut =>
    split
    · next hIn => simp [hOut, hIn]
    · next hIn => simp [hOut, hIn]

/-- What an `Iterate` sends to the winch in a mode that follows the volts. -/
theorem pwmMsg_winch (hVolts : FollowsVolts s.winchMode) :
    (s.pwmMsg.winch : Int) = winchRaw s.consts (s.limitVolts s.voltsWinch) := by
  have hWinch : s.pwmMsg.winch = toUInt32 (winchRaw s.consts (s.limitVolts s.voltsWinch)) := by
    simp only [pwmMsg, updateWinch, if_pos hVolts, setRawFromSailCmd]
  obtain ⟨hLow, hHigh⟩ := winchRaw_inRange s.consts (s.limitVolts s.voltsWinch)
  rw [hWinch, toUInt32]
  omega

/-- The winch stands, if and only if there are no volts. -/
theorem winchRaw_eq_neutral_iff {c : ZeroingConstants} {volts : Int} :
    winchRaw c volts = 90 ↔ volts = 0 := by
  rw [winchRaw_eq]
  split <;> omega

-- ---------------------------------------------------------------------------
-- Without a command
-- ---------------------------------------------------------------------------

/-- While the selected source has not sent a command, whatever the step sends leaves
the winch where it is. In `MANUAL_RC` the winch has no volts and is not meant. -/
def IdleNeutral (F : Formats) (s : Scamp) (a : ScampMsg) : Prop :=
  s.commanded = false → s.winchMode ≠ .manualRc →
    ∀ s', step F s a = some s' → ∀ m ∈ published s s', m.winch = 90

/-- Volts that are left over at an `Iterate` are zero or stopped by the travel. -/
def LeftoverStopped (s : Scamp) (a : ScampMsg) : Prop :=
  a = .iterate → s.commanded = false → FollowsVolts s.winchMode →
    s.voltsWinch = 0 ∨ (0 < s.voltsWinch ∧ s.AtOuterEnd) ∨ (s.voltsWinch < 0 ∧ s.AtInnerEnd)

/-- So what is sent is neutral without volts, and with those that go beyond an end. -/
theorem pwmMsg_winch_eq_neutral_iff (hVolts : FollowsVolts s.winchMode) :
    s.pwmMsg.winch = 90 ↔
      s.voltsWinch = 0 ∨ (0 < s.voltsWinch ∧ s.AtOuterEnd) ∨ (s.voltsWinch < 0 ∧ s.AtInnerEnd) := by
  have hZero : s.limitVolts s.voltsWinch = 0 ↔
      ¬ 0 < s.limitVolts s.voltsWinch ∧ ¬ s.limitVolts s.voltsWinch < 0 := by omega
  have hWinch : s.pwmMsg.winch = 90 ↔ (s.pwmMsg.winch : Int) = 90 := by omega
  rw [hWinch, pwmMsg_winch hVolts, winchRaw_eq_neutral_iff, hZero, limitVolts_pos_iff,
    limitVolts_neg_iff]
  rcases lt_trichotomy s.voltsWinch 0 with hNeg | hNil | hPos
  · simp [hNeg, hNeg.ne, hNeg.le]
  · simp [hNil]
  · simp [hPos, hPos.ne', hPos.le]

/-- A mode without volts and without the stick is `DISABLE`. -/
theorem eq_disable_of_not {m : Mode} (hVolts : ¬ FollowsVolts m) (hManual : m ≠ .manualRc) :
    m = .disable := by
  cases m with
  | disable => rfl
  | manualRc => exact absurd rfl hManual
  | auto | manualWifi | filteredRc => exact absurd (by decide) hVolts

/-- One step of `idle_winch_iff`. A disabled winch is neutral by the invariant, so that
only the three modes are left in which the winch follows the volts. -/
theorem idleNeutral_iff (hInv : Neutral s) : IdleNeutral F s a ↔ LeftoverStopped s a := by
  constructor
  · rintro hIdle ha hNone hVolts
    have hManual : s.winchMode ≠ .manualRc := by
      intro hMode
      rw [hMode] at hVolts
      exact absurd hVolts (by decide)
    exact (pwmMsg_winch_eq_neutral_iff hVolts).mp
      (forall_published_iff.mp (hIdle hNone hManual) ha)
  · intro hStopped hNone hManual
    refine forall_published_iff.mpr ?_
    intro ha
    by_cases hVolts : FollowsVolts s.winchMode
    · exact (pwmMsg_winch_eq_neutral_iff hVolts).mpr (hStopped ha hNone hVolts)
    · exact pwmMsg_of_neutral hInv (eq_disable_of_not hVolts hManual : s.mode .winch = .disable)

/-- **The winch without a command.** In a run, the winch stands still before the first
command of its selected source if and only if at every `Iterate` before it the volts
that were left over are zero or stopped by the travel. -/
theorem idle_winch_iff (F : Formats) (file : Option ZeroingConstants) (as : List ScampMsg) :
    Along (step F) (IdleNeutral F) (init F file) as ↔
      Along (step F) LeftoverStopped (init F file) as :=
  along_congr_of_inv (fun _ _ _ hInv hstep => step_neutral hInv hstep)
    (fun _ _ hInv => idleNeutral_iff hInv) (init_neutral F file)

/-- The volts are 90 after the constructor. Selecting `AUTO` drives the winch at full
speed before any sail command. -/
theorem idle_winch_moves :
    ¬ ∀ (F : Formats) (file : Option ZeroingConstants) (as : List ScampMsg),
      Along (step F) (IdleNeutral F) (init F file) as := by
  intro h
  have hIdle := (h .exact none [.controlMode { winchMode := some .auto }, .iterate]).2 _ rfl
  have hSent := hIdle.1 rfl (by decide) _ rfl ⟨0, 90, 90⟩ (by decide +kernel)
  exact absurd hSent (by decide)

-- ---------------------------------------------------------------------------
-- The travel
-- ---------------------------------------------------------------------------

/-- The winch drives the pot from `winch_0_pot` to `winch_90_pot`. Values below 90 move
the pot upward and values above 90 downward. -/
def DrivesOut (c : ZeroingConstants) (winch : Nat) : Prop :=
  (c.getWinch0Pot < c.getWinch90Pot ∧ winch < 90) ∨ (c.getWinch90Pot < c.getWinch0Pot ∧ 90 < winch)

/-- The winch drives the pot from `winch_90_pot` to `winch_0_pot`. -/
def DrivesIn (c : ZeroingConstants) (winch : Nat) : Prop :=
  (c.getWinch0Pot < c.getWinch90Pot ∧ 90 < winch) ∨ (c.getWinch90Pot < c.getWinch0Pot ∧ winch < 90)

/-- The latest reading of the pot, converted with the constants in force now. -/
def angleNow (F : Formats) (s : Scamp) : Option Fp :=
  s.lastPot.bind fun val => winchPotToAngle F s.consts (.ofInt F.float val)

/-- The travel limits at one step: no reading is divided by zero, and nothing that is
sent drives the winch on where the reading is at an end of the travel. -/
structure WithinTravel (F : Formats) (s : Scamp) (a : ScampMsg) : Prop where
  divisor : ∀ val, a = .analogPot val → potRange s.consts ≠ some 0
  outer : ∀ angle s', FollowsVolts s.winchMode → s.angleNow F = some angle →
    Fp.le s.consts.getWinchOutAngle angle → step F s a = some s' →
      ∀ m ∈ published s s', ¬ DrivesOut s.consts m.winch
  inner : ∀ angle s', FollowsVolts s.winchMode → s.angleNow F = some angle →
    Fp.le angle (.num 0) → step F s a = some s' →
      ∀ m ∈ published s s', ¬ DrivesIn s.consts m.winch

/-- The calibration that is used has two different ends, and where it puts the reading at
an end of the travel, so does the angle that was computed when the reading came, or the
volts point the other way. -/
structure CalibrationFits (F : Formats) (s : Scamp) (a : ScampMsg) : Prop where
  divisor : ∀ val, a = .analogPot val → s.consts.getWinch0Pot ≠ s.consts.getWinch90Pot
  outer : ∀ angle, a = .iterate → FollowsVolts s.winchMode →
    s.consts.getWinch0Pot ≠ s.consts.getWinch90Pot → s.angleNow F = some angle →
      Fp.le s.consts.getWinchOutAngle angle → s.voltsWinch ≤ 0 ∨ s.AtOuterEnd
  inner : ∀ angle, a = .iterate → FollowsVolts s.winchMode →
    s.consts.getWinch0Pot ≠ s.consts.getWinch90Pot → s.angleNow F = some angle →
      Fp.le angle (.num 0) → 0 ≤ s.voltsWinch ∨ s.AtInnerEnd

/-- The ends of the pot are different. -/
theorem potRange_ne_zero_iff {c : ZeroingConstants} :
    potRange c ≠ some 0 ↔ c.getWinch0Pot ≠ c.getWinch90Pot := by
  unfold potRange inInt
  split
  · simp only [ne_eq, Option.some.injEq]
    omega
  · simp only [ne_eq, reduceCtorEq, not_false_eq_true, true_iff]
    omega

/-- The winch is driven outward by volts outward, unless it is at its outer end. -/
theorem drivesOut_iff (hVolts : FollowsVolts s.winchMode) :
    DrivesOut s.consts s.pwmMsg.winch ↔
      s.consts.getWinch0Pot ≠ s.consts.getWinch90Pot ∧ 0 < s.voltsWinch ∧ ¬ s.AtOuterEnd := by
  have hWinch := pwmMsg_winch hVolts
  rw [winchRaw_eq] at hWinch
  rw [← limitVolts_pos_iff, DrivesOut]
  split at hWinch <;> omega

/-- The winch is driven inward by volts inward, unless it is at its inner end. -/
theorem drivesIn_iff (hVolts : FollowsVolts s.winchMode) :
    DrivesIn s.consts s.pwmMsg.winch ↔
      s.consts.getWinch0Pot ≠ s.consts.getWinch90Pot ∧ s.voltsWinch < 0 ∧ ¬ s.AtInnerEnd := by
  have hWinch := pwmMsg_winch hVolts
  rw [winchRaw_eq] at hWinch
  rw [← limitVolts_neg_iff, DrivesIn]
  split at hWinch <;> omega

/-- One step of `winch_travel_iff`. -/
theorem withinTravel_iff : WithinTravel F s a ↔ CalibrationFits F s a := by
  constructor
  · intro hTravel
    refine ⟨fun val ha => potRange_ne_zero_iff.mp (hTravel.divisor val ha), ?_, ?_⟩
    · intro angle ha hVolts hPots hAngle hOut
      have hNot := forall_published_iff.mp
        (fun s' => hTravel.outer angle s' hVolts hAngle hOut) ha
      rw [drivesOut_iff hVolts] at hNot
      by_contra hCon
      rw [not_or, not_le] at hCon
      exact hNot ⟨hPots, hCon⟩
    · intro angle ha hVolts hPots hAngle hIn
      have hNot := forall_published_iff.mp
        (fun s' => hTravel.inner angle s' hVolts hAngle hIn) ha
      rw [drivesIn_iff hVolts] at hNot
      by_contra hCon
      rw [not_or, not_le] at hCon
      exact hNot ⟨hPots, hCon⟩
  · intro hFits
    refine ⟨fun val ha => potRange_ne_zero_iff.mpr (hFits.divisor val ha), ?_, ?_⟩
    · intro angle s' hVolts hAngle hOut
      refine forall_published_iff.mpr (fun ha hDrives => ?_) s'
      obtain ⟨hPots, hPos, hEnd⟩ := (drivesOut_iff hVolts).mp hDrives
      rcases hFits.outer angle ha hVolts hPots hAngle hOut with hNeg | hAt
      · exact absurd hPos (not_lt.mpr hNeg)
      · exact hEnd hAt
    · intro angle s' hVolts hAngle hIn
      refine forall_published_iff.mpr (fun ha hDrives => ?_) s'
      obtain ⟨hPots, hNeg, hEnd⟩ := (drivesIn_iff hVolts).mp hDrives
      rcases hFits.inner angle ha hVolts hPots hAngle hIn with hPos | hAt
      · exact absurd hNeg (not_lt.mpr hPos)
      · exact hEnd hAt

/-- **The travel of the winch.** A run keeps the travel limits if and only if at each of
its steps the calibration fits. -/
theorem winch_travel_iff (F : Formats) (file : Option ZeroingConstants) (as : List ScampMsg) :
    Along (step F) (WithinTravel F) (init F file) as ↔
      Along (step F) (CalibrationFits F) (init F file) as :=
  along_congr fun _ _ => withinTravel_iff

/-- A message of the operator keeps the winch's angle at the outer end positive. -/
def OutAnglePositive : ScampMsg → Prop
  | .zeroingConsts msg => ∀ angle ∈ msg.winchOutAngle, Fp.lt (.num 0) angle = true
  | _ => True

/-- With the pot at 600 and the outer end moved from 750 to 600, the angle is still the
one of the old calibration, and the winch is driven on outwards. -/
theorem winch_driven_out_of_travel :
    ¬ ∀ (F : Formats) (file : Option ZeroingConstants) (as : List ScampMsg),
      (∀ a ∈ as, OutAnglePositive a) → Along (step F) (WithinTravel F) (init F file) as := by
  intro h
  have hrun : run (step .exact) (init .exact none)
      [.controlMode { winchMode := some .auto }, .sailCmd { voltage := some (.num 12) },
        .analogPot 600, .zeroingConsts { winch0Pot := some 392, winch90Pot := some 600 }] =
      some { init .exact none with
        winchMode := .auto, voltsWinch := 12, commanded := true, lastPot := some 600,
        sailPos := .num (104 / 179 * (mPi / 2)),
        consts := { ZeroingConstants.initial .exact with winch90Pot := some 600 },
        stateQueue :=
          [{ sail := some (.num (104 / 179 * (mPi / 2))), rudder := some (.num 0) }] } := by
    decide +kernel
  have hTravel : WithinTravel .exact _ .iterate :=
    along_at (h .exact none (_ ++ [.iterate]) (by simp [OutAnglePositive])) hrun
  exact hTravel.outer (.num (mPi / 2)) _ (by decide) (by decide +kernel) (by decide +kernel) rfl
    ⟨0, 90, 90⟩ (by decide +kernel) (.inl ⟨by decide, by decide⟩)

end Sailbot.Control.Scamp

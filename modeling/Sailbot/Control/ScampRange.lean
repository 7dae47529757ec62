import Sailbot.Control.Scamp

/-!
# What the servos are told

Invariants of the actuator node over every run, in any order of messages.

* `Scamp.disabled_neutral` — an actuator whose mode is `DISABLE` has the raw value 90,
  and so has every message sent in the meantime.
* `Scamp.step_isSome`      — what keeps a step from undefined behaviour.
* `Scamp.pwm_in_range`     — a run goes through, and the servos get numbers in
  `0 .. 180`, as long as the commands that are not clipped are in range.

The last needs its condition: the winch in `MANUAL_RC`, the rudder (unless it is in
`MANUAL_RC`) and a ballast command with a velocity are not clipped. Clipping does not
take NaN away, and the rudder is read from a channel whose presence is not tested.
-/

namespace Sailbot.Control.Scamp

open Lib

variable {F : Formats} {s s' : Scamp} {a : ScampMsg}

-- ---------------------------------------------------------------------------
-- Disabled actuators
-- ---------------------------------------------------------------------------

def Neutral (s : Scamp) : Prop := ∀ act, s.mode act = .disable → s.raw act = 90

/-- At the start all raw values are neutral. -/
theorem init_neutral (F : Formats) (file : Option ZeroingConstants) : Neutral (init F file) := by
  intro act _
  cases act <;> rfl

/-- In every step a disabled actuator keeps the neutral value. -/
theorem step_neutral (hInv : Neutral s) (h : step F s a = some s') : Neutral s' := by
  intro act hDis
  rcases raw_cases h act with ⟨hMode, hKept | hWritten⟩ | hRaw
  · rw [hKept]
    exact hInv act (hMode ▸ hDis)
  · exact absurd (hMode ▸ hDis) hWritten.enabled
  · rw [hRaw, hDis]
    rfl

/-- A disabled actuator has the neutral value in every state that a run reaches. -/
theorem run_neutral {file : Option ZeroingConstants} {as : List ScampMsg}
    (h : run (step F) (init F file) as = some s) : Neutral s :=
  inv_of_run_forall (fun _ _ _ hInv hstep => step_neutral hInv hstep) (init_neutral F file) h

/-- An `Iterate` sends the neutral value to a disabled actuator. -/
theorem pwmMsg_of_neutral (hInv : Neutral s) {act : Actuator} (hDis : s.mode act = .disable) :
    s.pwmMsg.value act = 90 := by
  have hMode : s.iterate.mode act = s.mode act := (iterate_wrote (F := .exact) act).1
  rw [pwmMsg_value, step_neutral (F := .exact) (a := .iterate) hInv rfl act (hMode.trans hDis)]
  rfl

/-- **A disabled actuator is neutral.** In every state that a run reaches, the raw
value of an actuator in the mode `DISABLE` is 90, and whatever the next step sends
to the servos has 90 for it. -/
theorem disabled_neutral (F : Formats) (file : Option ZeroingConstants) (as : List ScampMsg)
    (h : run (step F) (init F file) as = some s) (act : Actuator) (hDis : s.mode act = .disable) :
    s.raw act = 90 ∧
      ∀ a s', step F s a = some s' → ∀ m ∈ published s s', m.value act = 90 := by
  have hInv := run_neutral h
  exact ⟨hInv act hDis, fun a => forall_published_iff.mpr fun _ => pwmMsg_of_neutral hInv hDis⟩

/-- The rudder is disabled again after a command that moved it. -/
theorem disabled_neutral_after_rudderCmd :
    ∃ s s', run (step .exact) (init .exact none)
        [.controlMode { rudderMode := some .auto, ballastMode := some .auto },
          .rudderCmd { pos := some (.num (1 / 2)) },
          .controlMode { rudderMode := some .disable }] = some s ∧
      step .exact s .iterate = some s' ∧ s.raw .rudder = 90 ∧
      ∀ m ∈ published s s', m.rudder = 90 := by
  have hrun : run (step .exact) (init .exact none)
      [.controlMode { rudderMode := some .auto, ballastMode := some .auto },
        .rudderCmd { pos := some (.num (1 / 2)) },
        .controlMode { rudderMode := some .disable }] =
      some { init .exact none with ballastMode := .auto } := by decide +kernel
  have hNeutral := disabled_neutral .exact none _ hrun .rudder rfl
  exact ⟨_, _, hrun, rfl, hNeutral.1, hNeutral.2 .iterate _ rfl⟩

-- ---------------------------------------------------------------------------
-- Ranges
-- ---------------------------------------------------------------------------

/-- The channels of an SBUS message are in `0 .. 2047`. -/
def SbusDomain : ScampMsg → Prop
  | .sbus channel => ∀ c ∈ channel, 0 ≤ c ∧ c ≤ 2047
  | _ => True

/-- The command, if it is one that is not clipped, asks for a value in `0 .. 180`, and
nothing that is read or converted is undefined. -/
structure CommandInRange (F : Formats) (s : Scamp) (a : ScampMsg) : Prop where
  rudder : ∀ cmd, s.AcceptsRudder a cmd →
    (rudderDegrees F (cmd.pos.getD (.num 0)) s.consts.getRudderZero).Between (-1) 181
  ballast : ∀ cmd vel, s.AcceptsBallast a cmd → cmd.vel = some vel →
    (Fp.add F.float vel (.num 90)).Between (-1) 181
  sbusRudder : ∀ channel c, a = .sbus channel → s.rudderMode = .filteredRc →
    channel[3]? = some c →
      (Fp.num (-((sbusToRaw c : ℚ) - 90) * (6 / 10) + s.consts.getRudderZero)).Between (-1) 181
  sbusWinch : ∀ channel c, a = .sbus channel → s.winchMode = .manualRc →
    channel[1]? = some c → 12 ≤ c ∧ c ≤ 2034
  sailVoltage : ∀ cmd, s.AcceptsSail a cmd →
    (cmd.voltage.getD (.num 0)).Between (-2 ^ 31 - 1) (2 ^ 31)
  ballastVoltage : ∀ cmd, s.AcceptsBallast a cmd → cmd.vel = none → cmd.voltage ≠ some .nan
  channels : ∀ channel, a = .sbus channel → 2 ≤ channel.length →
    s.rudderMode = .manualRc ∨ s.rudderMode = .filteredRc → 4 ≤ channel.length
  pot : ∀ val, a = .analogPot val →
    (potRange s.consts).isSome ∧ (inInt (s.rawRudder - s.consts.getRudderZero)).isSome

def InRange (n : Int) : Prop := 0 ≤ n ∧ n ≤ 180

/-- The neutral value is in range. -/
theorem inRange_neutral : InRange 90 := ⟨by decide, by decide⟩

/-- A number between -1 and 181 is converted to one in range. -/
theorem inRange_of_toInt {x : Fp} {n : Int} (hx : x.Between (-1) 181) (h : x.toInt = some n) :
    InRange n := by
  obtain ⟨q, rfl, rfl⟩ := Fp.toInt_eq_some h
  obtain ⟨hLow, hHigh⟩ := hx
  exact truncate_between (by decide) ⟨hLow, by push_cast; linarith⟩

/-- A channel in `12 .. 2034` gives a value in range. -/
theorem sbusToRaw_inRange {c : Int} (h : 12 ≤ c ∧ c ≤ 2034) : InRange (sbusToRaw c) := by
  have hLow : (12 : ℚ) ≤ c := by exact_mod_cast h.1
  have hHigh : (c : ℚ) ≤ 2034 := by exact_mod_cast h.2
  exact truncate_between (by decide) ⟨by linarith, by push_cast; linarith⟩

/-- In `MANUAL_RC` the rudder has half of the range, so that the ends of the channel,
which `SBUSToRaw` takes out of `0 .. 180`, do no harm. -/
theorem manualRudder_inRange {c : Int} (h : 0 ≤ c ∧ c ≤ 2047) :
    InRange (truncate (((sbusToRaw c : ℚ) - 90) * (1 / 2) + 90)) := by
  have hLow : (0 : ℚ) ≤ c := by exact_mod_cast h.1
  have hHigh : (c : ℚ) ≤ 2047 := by exact_mod_cast h.2
  have hRaw := truncate_near (((c : ℚ) - 1023) * 90 / 1000 + 90)
  rw [← sbusToRaw] at hRaw
  exact truncate_between (by decide) ⟨by linarith, by push_cast; linarith⟩

/-- The volts of the winch give a value in range, whatever they are. -/
theorem winchRaw_inRange (c : ZeroingConstants) (volts : Int) : InRange (winchRaw c volts) := by
  rw [winchRaw_eq, InRange]
  split <;> omega

/-- The voltage of a ballast command is clipped, and the travel only takes from it. -/
theorem ballastVolts_clipped (F : Formats) (ballastPos : Fp) {voltage : Fp} (h : voltage ≠ .nan) :
    ∃ q, ballastVolts F ballastPos voltage = .num q ∧ -12 ≤ q ∧ q ≤ 12 := by
  obtain ⟨q, hq, hLow, hHigh⟩ := Fp.clip_eq_num (show (-12 : ℚ) ≤ 12 by norm_num) h
  simp only [ballastVolts, hq]
  simp only [Fp.min, Fp.max, Fp.lt, decide_eq_true_eq]
  have hZero : (-12 : ℚ) ≤ 0 ∧ (0 : ℚ) ≤ 12 := by norm_num
  repeat' split
  all_goals first | exact ⟨q, rfl, hLow, hHigh⟩ | exact ⟨0, rfl, hZero⟩

/-- The limits of the ballast's travel leave NaN as it is. -/
theorem ballastVolts_nan (F : Formats) (ballastPos : Fp) :
    ballastVolts F ballastPos .nan = .nan := by
  simp [ballastVolts, Fp.min, Fp.max, Fp.lt]

/-- With every result rounded, clipped volts still give a value in `0 .. 180`. -/
theorem ballastDegrees_between {q : ℚ} (h : -12 ≤ q ∧ q ≤ 12) :
    (ballastDegrees F (.num q)).Between (-1) 181 := by
  have hMul := F.double.between (x := q * 90) (a := -1080) (b := 1080) (by decide) (by decide)
    ⟨by push_cast; linarith, by push_cast; linarith⟩
  push_cast at hMul
  have hDiv := F.double.between (x := F.double.round (q * 90) / 12) (a := -90) (b := 90)
    (by decide) (by decide) ⟨by push_cast; linarith, by push_cast; linarith⟩
  push_cast at hDiv
  have hAdd := F.double.between (x := F.double.round (F.double.round (q * 90) / 12) + 90)
    (a := 0) (b := 180) (by decide) (by decide) ⟨by push_cast; linarith, by push_cast; linarith⟩
  push_cast at hAdd
  have hNum : ballastDegrees F (.num q) =
      .num (F.double.round (F.double.round (F.double.round (q * 90) / 12) + 90)) := by
    simp [ballastDegrees, Fp.add, Fp.mul, Fp.div]
  rw [hNum]
  exact ⟨by linarith, by linarith⟩

/-- Every way of writing a raw value writes one in range, if the commands that are not
clipped ask for one. -/
theorem Written.inRange {act : Actuator} {n : Int} (hWritten : Written F s a act n)
    (hSbus : SbusDomain a) (hCmd : CommandInRange F s a) : InRange n := by
  cases hWritten with
  | rudderCmd accepts value => exact inRange_of_toInt (hCmd.rudder _ accepts) value
  | ballastVel accepts isVel value => exact inRange_of_toInt (hCmd.ballast _ _ accepts isVel) value
  | @ballastVoltage _ cmd voltage n accepts value =>
    by_cases hNan : voltage = .nan
    · rw [hNan, ballastVolts_nan] at value
      cases value
    · obtain ⟨q, hq, hClipped⟩ := ballastVolts_clipped F s.ballastPos hNan
      rw [hq] at value
      exact inRange_of_toInt (ballastDegrees_between hClipped) value
  | manualRudder selected isChannel =>
    exact manualRudder_inRange (hSbus _ (List.mem_of_getElem? isChannel))
  | filteredRudder selected isChannel value =>
    exact inRange_of_toInt (hCmd.sbusRudder _ _ rfl selected isChannel) value
  | manualWinch selected isChannel =>
    exact sbusToRaw_inRange (hCmd.sbusWinch _ _ rfl selected isChannel)
  | volts selected => exact winchRaw_inRange _ _

/-- All raw values, and all numbers sent so far, are in range. -/
structure RangeInv (s : Scamp) : Prop where
  raw  : ∀ act, InRange (s.raw act)
  sent : ∀ m ∈ s.pwmQueue, ∀ act, m.value act ≤ 180

/-- At the start everything is in range. -/
theorem init_rangeInv (F : Formats) (file : Option ZeroingConstants) : RangeInv (init F file) where
  raw act := by cases act <;> exact inRange_neutral
  sent m hm := absurd hm List.not_mem_nil

/-- A number in range stays one as a `uint32`. -/
theorem toUInt32_le {n : Int} (h : InRange n) : toUInt32 n ≤ 180 := by
  obtain ⟨hLow, hHigh⟩ := h
  unfold toUInt32
  omega

/-- Every step with channels and commands in range keeps everything in range. -/
theorem step_rangeInv (hInv : RangeInv s) (hSbus : SbusDomain a) (hCmd : CommandInRange F s a)
    (h : step F s a = some s') : RangeInv s' := by
  have hRaw : ∀ act, InRange (s'.raw act) := by
    intro act
    rcases raw_cases h act with ⟨_, hKept | hWritten⟩ | hMode
    · exact hKept ▸ hInv.raw act
    · exact hWritten.inRange hSbus hCmd
    · rw [hMode, neutralIfDisabled]
      split
      · exact inRange_neutral
      · exact hInv.raw act
  refine ⟨hRaw, ?_⟩
  rcases published_cases h with ⟨hQueue, _⟩ | ⟨rfl, hQueue, _⟩
  · exact hQueue ▸ hInv.sent
  · intro m hm act
    rw [hQueue, List.mem_append, List.mem_singleton] at hm
    rcases hm with hm | rfl
    · exact hInv.sent m hm act
    · rw [pwmMsg_value, Option.some.inj h]
      exact toUInt32_le (hRaw act)

-- ---------------------------------------------------------------------------
-- Undefined behaviour
-- ---------------------------------------------------------------------------

/-- A number between -1 and 181 is converted. -/
theorem toInt_isSome_of_inRange {x : Fp} (hx : x.Between (-1) 181) : x.toInt.isSome :=
  Fp.toInt_isSome (hx.mono (by norm_num) (by norm_num))

/-- A sail command has a result, where its voltage can be converted. -/
theorem acceptSailCmd_isSome {m : Mode} {cmd : SailCmd}
    (h : s.winchMode = m → (cmd.voltage.getD (.num 0)).Between (-2 ^ 31 - 1) (2 ^ 31)) :
    (s.acceptSailCmd m cmd).isSome := by
  unfold acceptSailCmd
  split
  · next hMode =>
    rw [Option.isSome_map]
    exact Fp.toInt_isSome (h hMode)
  · rfl

/-- A rudder command has a result, where its angle can be converted. -/
theorem acceptRudderCmd_isSome {m : Mode} {cmd : RudderCmd}
    (h : s.rudderMode = m →
      (rudderDegrees F (cmd.pos.getD (.num 0)) s.consts.getRudderZero).Between (-1) 181) :
    (s.acceptRudderCmd F m cmd).isSome := by
  unfold acceptRudderCmd
  split
  · next hMode =>
    rw [setRawFromRudderCmd, Option.isSome_map]
    exact toInt_isSome_of_inRange (h hMode)
  · rfl

/-- A ballast command has a result, where its velocity can be converted and its voltage is a number.
-/
theorem acceptBallastCmd_isSome {m : Mode} {cmd : BallastCmd}
    (hVel : s.ballastMode = m → ∀ vel, cmd.vel = some vel →
      (Fp.add F.float vel (.num 90)).Between (-1) 181)
    (hVoltage : s.ballastMode = m → cmd.vel = none → cmd.voltage ≠ some .nan) :
    (s.acceptBallastCmd F m cmd).isSome := by
  unfold acceptBallastCmd
  split
  · next hMode =>
    unfold setRawFromBallastCmd
    split
    · next isVel =>
      rw [Option.isSome_map]
      exact toInt_isSome_of_inRange (hVel hMode _ isVel)
    · next voltage noVel isVoltage =>
      have hNan : voltage ≠ .nan := fun hNan => hVoltage hMode noVel (hNan ▸ isVoltage)
      obtain ⟨q, hq, hClipped⟩ := ballastVolts_clipped F s.ballastPos hNan
      rw [Option.isSome_map, hq]
      exact toInt_isSome_of_inRange (ballastDegrees_between hClipped)
    · rfl
  · rfl

/-- The channels that the modes of rudder and winch read are there. -/
theorem onSbus_isSome {channel : List Int}
    (hFiltered : s.rudderMode = .filteredRc → ∀ c, channel[3]? = some c →
      (Fp.num (-((sbusToRaw c : ℚ) - 90) * (6 / 10) + s.consts.getRudderZero)).Between (-1) 181)
    (hChannels : 2 ≤ channel.length →
      s.rudderMode = .manualRc ∨ s.rudderMode = .filteredRc → 4 ≤ channel.length) :
    (s.onSbus channel).isSome := by
  unfold onSbus
  split
  · next hTwo =>
    have hRudder : (s.sbusRudder channel).isSome := by
      unfold sbusRudder
      split
      · next hMode =>
        have hFour := hChannels hTwo (.inl hMode)
        rw [Option.isSome_map, List.getElem?_eq_getElem (by omega)]
        rfl
      · next hMode =>
        have hFour := hChannels hTwo (.inr hMode)
        have hc := List.getElem?_eq_getElem (l := channel) (i := 3) (by omega)
        rw [hc, Option.bind_some, Option.isSome_map]
        exact toInt_isSome_of_inRange (hFiltered hMode _ hc)
      · rfl
    obtain ⟨t, ht⟩ := Option.isSome_iff_exists.mp hRudder
    rw [ht, Option.bind_some, sbusWinch, List.getElem?_eq_getElem (i := 1) (by omega)]
    split <;> rfl
  · rfl

/-- A step that meets the condition has a result. -/
theorem step_isSome (hCmd : CommandInRange F s a) : (step F s a).isSome := by
  cases a with
  | zeroingConsts | ballastState | connectionStatus | controlMode | iterate => rfl
  | analogPot val =>
    obtain ⟨hRange, hTurned⟩ := hCmd.pot val rfl
    obtain ⟨range, hRange⟩ := Option.isSome_iff_exists.mp hRange
    obtain ⟨turned, hTurned⟩ := Option.isSome_iff_exists.mp hTurned
    simp [step, onAnalogPot, winchPotToAngle, hRange, hTurned]
  | sailCmd cmd => exact acceptSailCmd_isSome fun hMode => hCmd.sailVoltage cmd (.inl ⟨rfl, hMode⟩)
  | manualSailCmd cmd =>
    exact acceptSailCmd_isSome fun hMode => hCmd.sailVoltage cmd (.inr ⟨rfl, hMode⟩)
  | rudderCmd cmd => exact acceptRudderCmd_isSome fun hMode => hCmd.rudder cmd (.inl ⟨rfl, hMode⟩)
  | manualRudderCmd cmd =>
    exact acceptRudderCmd_isSome fun hMode => hCmd.rudder cmd (.inr ⟨rfl, hMode⟩)
  | ballastCmd cmd =>
    exact acceptBallastCmd_isSome (fun hMode vel => hCmd.ballast cmd vel (.inl ⟨rfl, hMode⟩))
      fun hMode => hCmd.ballastVoltage cmd (.inl ⟨rfl, hMode⟩)
  | manualBallastCmd cmd =>
    exact acceptBallastCmd_isSome (fun hMode vel => hCmd.ballast cmd vel (.inr ⟨rfl, hMode⟩))
      fun hMode => hCmd.ballastVoltage cmd (.inr ⟨rfl, hMode⟩)
  | sbus channel =>
    exact onSbus_isSome (fun hMode c => hCmd.sbusRudder channel c rfl hMode)
      (hCmd.channels channel rfl)

/-- **The servos get numbers in range.** Every run with SBUS channels in `0 .. 2047`
whose unclipped commands are in range and that reads and converts nothing undefined
goes through, and every message sent has numbers up to 180, so that each fits its byte. -/
theorem pwm_in_range (F : Formats) (file : Option ZeroingConstants) (as : List ScampMsg)
    (hSbus : ∀ a ∈ as, SbusDomain a)
    (hCmd : Along (step F) (CommandInRange F) (init F file) as) :
    ∃ s, run (step F) (init F file) as = some s ∧
      ∀ m ∈ s.pwmQueue, ∀ act, m.value act ≤ 180 ∧ m.value act % 2 ^ 8 = m.value act := by
  obtain ⟨s, h⟩ := Option.isSome_iff_exists.mp <| run_isSome_iff.mpr <|
    along_of_inv (I := fun _ => True) (fun _ _ _ _ _ _ => trivial)
      (fun _ _ _ hP => step_isSome hP) trivial hCmd
  refine ⟨s, h, ?_⟩
  have hInv : RangeInv s :=
    inv_of_run (fun _ _ _ hInv hP hstep => step_rangeInv hInv hP.1 hP.2 hstep)
      (init_rangeInv F file) (along_and (along_of_forall (fun a ha _ => hSbus a ha) _) hCmd) h
  intro m hm act
  have hLe := hInv.sent m hm act
  omega

/-- Winch and rudder follow the stick, and the ballast a velocity and then a voltage that
is clipped. -/
theorem pwm_in_range_winch_ballast :
    ∃ s, run (step .exact) (init .exact none)
        [.controlMode ⟨some .manualRc, none, some .manualRc, none, some .auto⟩,
          .ballastCmd { vel := some (.num 20) }, .iterate,
          .ballastCmd { voltage := some (.inf true) }, .sbus [1023, 12, 1023, 2047],
          .iterate] = some s ∧
      ∀ m ∈ s.pwmQueue, ∀ act, m.value act ≤ 180 ∧ m.value act % 2 ^ 8 = m.value act := by
  have hMode : step .exact (init .exact none)
      (.controlMode ⟨some .manualRc, none, some .manualRc, none, some .auto⟩) =
      some { init .exact none with
        winchMode := .manualRc, rudderMode := .manualRc, ballastMode := .auto } := rfl
  have hVel : step .exact { init .exact none with
        winchMode := .manualRc, rudderMode := .manualRc, ballastMode := .auto }
      (.ballastCmd { vel := some (.num 20) }) =
      some { init .exact none with
        winchMode := .manualRc, rudderMode := .manualRc, ballastMode := .auto,
        rawBallast := 110 } := by
    decide +kernel
  have hVoltage : step .exact (iterate { init .exact none with
        winchMode := .manualRc, rudderMode := .manualRc, ballastMode := .auto, rawBallast := 110 })
      (.ballastCmd { voltage := some (.inf true) }) =
      some { init .exact none with
        winchMode := .manualRc, rudderMode := .manualRc, ballastMode := .auto, rawBallast := 0,
        pwmQueue := [⟨90, 90, 110⟩], constsQueue := [.initial .exact] } := by
    decide +kernel
  refine pwm_in_range _ _ _ (by simp [SbusDomain]) ?_
  refine along_cons hMode ?_ <| along_cons hVel ?_ <| along_cons rfl ?_ <|
    along_cons hVoltage ?_ ⟨?_, fun _ _ => ⟨?_, fun _ _ => trivial⟩⟩
  · constructor <;> simp [AcceptsRudder, AcceptsBallast, AcceptsSail]
  · refine ⟨by simp [AcceptsRudder], ?_, by simp, by simp, by simp [AcceptsSail],
      by simp [AcceptsBallast], by simp, by simp⟩
    rintro cmd vel (⟨hCmd, _⟩ | ⟨hCmd, _⟩) hVel
    · cases hCmd
      cases hVel
      norm_num [Fp.add, Fp.Between, Formats.exact, Rounding.exact]
    · cases hCmd
  · constructor <;> simp [AcceptsRudder, AcceptsBallast, AcceptsSail]
  · refine ⟨by simp [AcceptsRudder], ?_, by simp, by simp, by simp [AcceptsSail], ?_, by simp,
      by simp⟩
    · rintro cmd vel (⟨hCmd, _⟩ | ⟨hCmd, _⟩) hVel
      · cases hCmd
        cases hVel
      · cases hCmd
    · rintro cmd (⟨hCmd, _⟩ | ⟨hCmd, _⟩) _
      · cases hCmd
        simp
      · cases hCmd
  · refine ⟨by simp [AcceptsRudder], by simp [AcceptsBallast], by simp, ?_, by simp [AcceptsSail],
      by simp [AcceptsBallast], by simp, by simp⟩
    rintro channel c hChannel _ hc
    cases hChannel
    cases hc
    decide
  · constructor <;> simp [AcceptsRudder, AcceptsBallast, AcceptsSail]

/-- The winch gets the number of another servo position: at the lower end of the stick
`SBUSToRaw` is `-2`. -/
theorem winch_out_of_range :
    ¬ ∀ (F : Formats) (file : Option ZeroingConstants) (as : List ScampMsg) (s : Scamp),
      (∀ a ∈ as, SbusDomain a) → run (step F) (init F file) as = some s →
        ∀ m ∈ s.pwmQueue, ∀ act, m.value act ≤ 180 := by
  intro h
  have hrun : run (step .exact) (init .exact none)
      [.controlMode { winchMode := some .manualRc }, .sbus [1023, 0], .iterate] =
      some { init .exact none with
        winchMode := .manualRc, rawWinch := -2,
        pwmQueue := [⟨4294967294, 90, 90⟩], constsQueue := [.initial .exact] } := by
    decide +kernel
  have hSbus : ∀ a ∈ [ScampMsg.controlMode { winchMode := some .manualRc }, .sbus [1023, 0],
      .iterate], SbusDomain a := by
    simp [SbusDomain]
  exact absurd (h _ _ _ _ hSbus hrun ⟨4294967294, 90, 90⟩ (List.mem_singleton_self _) .winch)
    (by decide)

end Sailbot.Control.Scamp

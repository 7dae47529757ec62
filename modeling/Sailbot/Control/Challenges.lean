import Sailbot.Control.WaypointManager

/-!
# What the challenges publish

One mode message is shared by the RC switch, the challenges and their state machines.
The results say for every run of the waypoint manager what reaches the other nodes.

* `WaypointManager.one_steers`         — headings are published only while the tacker is
  switched off, unless a target was lost on the way.
* `WaypointManager.override_kept_iff`  — the RC switch keeps the actuators, if and only if
  no challenge with a state machine is started meanwhile.
* `WaypointManager.hands_over_iff`     — starting a challenge hands the actuators to the
  autopilot, if and only if a `WAYPOINT` challenge finds them handed over.
* `WaypointManager.only_tacker_iff`    — the state machines publish nothing but the tacker,
  if and only if a message that is sent uncleared has no mode left in it.
-/

namespace Sailbot.Control.WaypointManager

open Lib

variable {F : Formats} {atan2 : Fp → Fp → Fp} {now later : Int} {s s' : WaypointManager}
  {a : ManagerMsg}

/-- What was last published for a field after an `Iterate`. -/
theorem Iterated.lastField {β : Type} {field : ControlMode → Option β}
    {headings : List HeadingCmd} {msg : Option ControlMode} {searches : List SearchState}
    (h : Iterated now s s' headings msg searches) :
    lastField field s'.out = (msg.bind field).or (WaypointManager.lastField field s.out) := by
  rw [h.out, ← List.append_assoc, ← List.append_assoc, lastField_append (by simp [controlMode?])]
  cases msg with
  | none => simpa using lastField_append (by simp [controlMode?])
  | some msg =>
    rw [Option.toList_some, List.map_singleton, lastField_controlMode,
      lastField_append (by simp [controlMode?])]
    rfl

-- ---------------------------------------------------------------------------
-- Steering
-- ---------------------------------------------------------------------------

/-- While the state machine is steering, the tacker was switched off. -/
def SteerInv (s : WaypointManager) : Prop :=
  s.Steering → lastField (·.tacker) s.out = some .disabled

/-- Whenever an `Iterate` publishes a heading, the last tacker that was published, in this
`Iterate` or before, is `DISABLED`. -/
def SteersAlone (F : Formats) (atan2 : Fp → Fp → Fp) (s : WaypointManager) (a : ManagerMsg) :
    Prop :=
  ∀ now later s', a = .iterate now later → step F atan2 s a = some s' →
    ∀ pre msg post, s'.out = s.out ++ (pre ++ .headingCmd msg :: post) → msg.heading.isSome →
      lastField (·.tacker) (s.out ++ pre) = some .disabled

/-- The target is not lost in this `Iterate`. -/
def KeepsTarget (s : WaypointManager) : ManagerMsg → Prop
  | .iterate _ _ => ¬ s.TargetLost
  | _ => True

instance (s : WaypointManager) (a : ManagerMsg) : Decidable (KeepsTarget s a) :=
  match a with
  | .iterate _ _ => inferInstanceAs (Decidable (¬ (_ ∧ _ ∧ _)))
  | .sbus _ | .tackerState _ | .challengeControl _ | .trueWind _ _ | .visionData _ | .boatState _ =>
    .isTrue trivial

/-- A challenge that is started does not steer. -/
theorem onChallengeControl_not_steering (s : WaypointManager) (challenge : ChallengeType) :
    ¬ (s.onChallengeControl (some challenge)).Steering := by
  cases challenge <;> simp [onChallengeControl, Steering, sendControlMode]

/-- While the target is kept, every step leaves the tacker switched off for a node that steers. -/
theorem step_steerInv (hInv : SteerInv s) (hKeeps : KeepsTarget s a)
    (h : step F atan2 s a = some s') : SteerInv s' := by
  intro hSteering
  rcases step_cases h with hQuiet | ⟨channel, rfl, rfl⟩ | ⟨challenge, rfl, rfl⟩ |
    ⟨now, later, rfl, hIter⟩
  · rw [hQuiet.out]
    exact hInv (hQuiet.steering.mp hSteering)
  · -- the tacker is not set in the messages of the switch
    rcases onSbus_cases s channel with ⟨_, hEq⟩ | ⟨c, _, _, _, hEq⟩ | ⟨c, _, _, _, hEq⟩ |
      ⟨c, _, _, _, hEq⟩
    all_goals rw [hEq] at hSteering ⊢
    · exact hInv hSteering
    · exact hInv hSteering
    · exact (lastField_controlMode _).trans (hInv hSteering)
    · exact (lastField_controlMode _).trans (hInv hSteering)
  · cases challenge with
    | none => exact (lastField_headingCmd _).trans (hInv hSteering)
    | some challenge => exact absurd hSteering (onChallengeControl_not_steering s challenge)
  · obtain ⟨headings, msg, searches, hIter⟩ := iterate_cases hIter
    rw [hIter.lastField]
    cases hIter.transition with
    | stay _ keeps => exact hInv (keeps.mp hSteering)
    | takeOver _ _ | again _ => rfl
    | giveBack _ released => exact absurd (released hSteering) hKeeps

/-- In front of a heading that an `Iterate` publishes there are only headings. -/
theorem Iterated.before_heading {headings : List HeadingCmd} {msg : Option ControlMode}
    {searches : List SearchState} (h : Iterated now s s' headings msg searches)
    {pre post : List ManagerOut} {heading : HeadingCmd}
    (hOut : s'.out = s.out ++ (pre ++ .headingCmd heading :: post)) :
    headings ≠ [] ∧ ∀ o ∈ pre, controlMode? o = none := by
  rw [h.out, List.append_cancel_left_eq, List.append_assoc] at hOut
  have hRest : ManagerOut.headingCmd heading ∉
      msg.toList.map ManagerOut.controlMode ++ searches.map ManagerOut.searchState := by
    simp
  rcases List.append_eq_append_iff.mp hOut with ⟨mid, hPre, hMid⟩ | ⟨mid, hHeadings, hMid⟩
  · rw [hMid] at hRest
    exact absurd (List.mem_append_right _ List.mem_cons_self) hRest
  · have hNone : ∀ o ∈ pre ++ mid, controlMode? o = none := by
      rw [← hHeadings]
      simp [controlMode?]
    refine ⟨?_, fun o ho => hNone o (List.mem_append_left _ ho)⟩
    rintro rfl
    rw [List.map_nil, eq_comm, List.append_eq_nil_iff] at hHeadings
    rw [hHeadings.2, List.nil_append] at hMid
    rw [← hMid] at hRest
    exact hRest List.mem_cons_self

/-- So the tacker is off at every heading that an `Iterate` publishes. -/
theorem steersAlone_of_inv (hInv : SteerInv s) : SteersAlone F atan2 s a := by
  rintro now later s' rfl hstep pre msg post hOut _
  obtain ⟨headings, sent, searches, hIter⟩ := iterate_cases hstep
  obtain ⟨hHeadings, hPre⟩ := hIter.before_heading hOut
  rw [lastField_append hPre]
  exact hInv (hIter.steering hHeadings)

/-- **At most one node steers.** In every run in which no `Iterate` finds its target lost,
the tacker is switched off whenever an `Iterate` publishes a heading. -/
theorem one_steers (F : Formats) (atan2 : Fp → Fp → Fp) (start : Int) (as : List ManagerMsg)
    (h : Along (step F atan2) KeepsTarget (init start) as) :
    Along (step F atan2) (SteersAlone F atan2) (init start) as :=
  along_of_inv (fun _ _ _ hInv hKeeps hstep => step_steerInv hInv hKeeps hstep)
    (fun _ _ hInv _ => steersAlone_of_inv hInv) (fun hSteering => absurd hSteering id) h

/-- A run that steers for a target and finds it. -/
theorem one_steers_target_found :
    let as := [ManagerMsg.challengeControl (some .vision), .tackerState { done := some true },
      .visionData { heading := some (.num 1), confidence := some (.num 300) }, .iterate 0 0,
      .iterate 1 1, .visionData { heading := some (.num 1), confidence := some (.num 800) },
      .iterate 2 2, .iterate 3 3]
    (run (step .exact fun _ _ => .num 0) (init 0) as).isSome ∧
      Along (step .exact fun _ _ => .num 0) (SteersAlone .exact fun _ _ => .num 0) (init 0) as :=
  ⟨by decide +kernel, one_steers _ _ _ _ (by decide +kernel)⟩

/-- The target is lost; the next `Iterate` publishes a heading while the tacker is on. -/
theorem steers_after_target_lost :
    ¬ ∀ (F : Formats) (atan2 : Fp → Fp → Fp) (start : Int) (as : List ManagerMsg),
      Along (step F atan2) (SteersAlone F atan2) (init start) as := by
  intro h
  have hrun : run (step .exact fun _ _ => .num 0) (init 0)
      [.challengeControl (some .vision), .tackerState { done := some true },
        .visionData { heading := some (.num 1), confidence := some (.num 300) }, .iterate 0 0,
        .visionData { heading := some (.num 1), confidence := some (.num 100) }, .iterate 1 1] =
      some { init 0 with
        mode := .vision, visionState := .followVision, tackerDone := true,
        visionAbsHeading := .num 1, visionConfidence := 100,
        controlModeMsg := { tacker := some .linePlan }, searchStateMsg := .goingToBuoy,
        headingCmdMsg := ⟨some (.num 1), some (.num 0)⟩,
        out := [.searchState .noTarget, .headingCmd ⟨none, some (.num 0)⟩,
          .controlMode (handOver {}), .controlMode { tacker := some .disabled },
          .searchState .goingToBuoy, .headingCmd ⟨some (.num 1), some (.num 0)⟩,
          .controlMode { tacker := some .linePlan }, .searchState .goingToBuoy] } := by
    decide +kernel
  have hAlone := along_at (h .exact _ 0 (_ ++ [.iterate 2 2])) hrun
  have hTacker := hAlone 2 2 _ rfl rfl [] ⟨some (.num 1), some (.num 0)⟩ _ rfl rfl
  exact absurd hTacker (by decide)

-- ---------------------------------------------------------------------------
-- The RC switch
-- ---------------------------------------------------------------------------

/-- Whether the operator has taken over, by the third channel of the SBUS messages. -/
def overrideNext (override : Bool) : ManagerMsg → Bool
  | .sbus channel =>
    match channel[2]? with
    | some c => if c < 800 then true else if 1200 < c then false else override
    | none => override
  | _ => override

def override (as : List ManagerMsg) : Bool := as.foldl overrideNext false

/-- A message of the radio sets the override to what its switch says. -/
theorem onSbus_lastSbusManual (s : WaypointManager) (channel : List Int) :
    (s.onSbus channel).lastSbusManual = overrideNext s.lastSbusManual (.sbus channel) := by
  simp only [overrideNext]
  rcases onSbus_cases s channel with ⟨hc, hEq⟩ | ⟨c, hc, hDown, hUp, hEq⟩ | ⟨c, hc, hDown, _, hEq⟩ |
    ⟨c, hc, hUp, _, hEq⟩
  · rw [hEq, hc]
  · rw [hEq, hc]
    dsimp only
    split
    · next hLow => exact hDown hLow
    · split
      · next hHigh => exact hUp hHigh
      · rfl
  · rw [hEq, hc]
    exact (if_pos hDown).symm
  · rw [hEq, hc]
    dsimp only
    rw [if_neg (by omega), if_pos hUp]

/-- A challenge that the user starts or ends does not touch the override. -/
theorem onChallengeControl_lastSbusManual (s : WaypointManager)
    (challenge : Option ChallengeType) :
    (s.onChallengeControl challenge).lastSbusManual = s.lastSbusManual := by
  rcases challenge with _ | challenge
  · rfl
  · cases challenge <;> rfl

/-- The override after any step is the one of the specification. -/
theorem step_lastSbusManual (h : step F atan2 s a = some s') :
    s'.lastSbusManual = overrideNext s.lastSbusManual a := by
  cases a with
  | sbus channel =>
    cases h
    exact onSbus_lastSbusManual s channel
  | challengeControl challenge =>
    cases h
    exact onChallengeControl_lastSbusManual s challenge
  | iterate now later =>
    obtain ⟨headings, msg, searches, hIter⟩ := iterate_cases h
    exact hIter.lastSbusManual
  | visionData data => exact (onVisionData_quiet h).lastSbusManual
  | tackerState state | trueWind x y | boatState yaw =>
    cases h
    rfl

/-- The override after any run is the fold of the messages of the radio. -/
theorem run_lastSbusManual {as : List ManagerMsg} :
    ∀ {s s' : WaypointManager}, run (step F atan2) s as = some s' →
      s'.lastSbusManual = as.foldl overrideNext s.lastSbusManual := by
  induction as with
  | nil =>
    intro s s' h
    cases h
    rfl
  | cons a as ih =>
    intro s s' h
    obtain ⟨t, ht, h⟩ := run_cons_eq_some.mp h
    rw [ih h, List.foldl_cons, step_lastSbusManual ht]

/-- The node knows whether the operator has taken over. -/
theorem lastSbusManual_eq_override {start : Int} {as : List ManagerMsg}
    (h : run (step F atan2) (init start) as = some s) : s.lastSbusManual = override as :=
  run_lastSbusManual h

/-- The last modes that were published for rudder and winch are those of the stick. -/
def RcModes (s : WaypointManager) : Prop :=
  lastField (·.rudderMode) s.out = some .filteredRc ∧
    lastField (·.winchMode) s.out = some .filteredRc

/-- While the operator has taken over, no challenge with a state machine is started. -/
def NoChallenge (s : WaypointManager) : ManagerMsg → Prop
  | .challengeControl (some challenge) => s.lastSbusManual = true → challenge = .waypoint
  | _ => True

/-- A mode that may be left in the message without harm to the operator. -/
def Harmless (m : Option Mode) : Prop := m = none ∨ m = some .filteredRc

/-- A harmless mode, sent over that of the stick, leaves that of the stick. -/
theorem Harmless.or {m last : Option Mode} (hm : Harmless m) (hLast : last = some .filteredRc) :
    m.or last = some .filteredRc := by
  rcases hm with rfl | rfl
  · exact hLast
  · rfl

/-- `rudder_mode` or `winch_mode`: a field that the RC switch sets and the state machines
do not. -/
structure ActuatorField (field : ControlMode → Option Mode) : Prop where
  tacker : ∀ m t, field { m with tacker := t } = field m
  empty  : field {} = none
  modes  : ∀ m, field (actuatorModes m) = some m

/-- The mode of the rudder is one of the fields that the override sets. -/
theorem rudderMode_actuatorField : ActuatorField (·.rudderMode) :=
  ⟨fun _ _ => rfl, rfl, fun _ => rfl⟩

/-- The mode of the winch is one of the fields that the override sets. -/
theorem winchMode_actuatorField : ActuatorField (·.winchMode) :=
  ⟨fun _ _ => rfl, rfl, fun _ => rfl⟩

section Override

variable {field : ControlMode → Option Mode}

/-- While the operator has taken over, the last mode is the one of the stick, and a state
machine that sends the mode message again finds no other in it. -/
structure OverrideInv (field : ControlMode → Option Mode) (s : WaypointManager) : Prop where
  last : s.lastSbusManual = true → lastField field s.out = some .filteredRc
  left : s.lastSbusManual = true → s.mode ≠ .waypoint → Harmless (field s.controlModeMsg)

/-- At the start the operator has not taken over. -/
theorem init_overrideInv (start : Int) : OverrideInv field (init start) where
  last h := absurd h (by simp [init])
  left h := absurd h (by simp [init])

/-- The switch itself sends the modes of the stick. -/
theorem onSbus_overrideInv (hField : ActuatorField field) (hInv : OverrideInv field s)
    (channel : List Int) : OverrideInv field (s.onSbus channel) := by
  rcases onSbus_cases s channel with ⟨_, hEq⟩ | ⟨c, _, _, _, hEq⟩ | ⟨c, _, _, _, hEq⟩ |
    ⟨c, _, _, _, hEq⟩
  all_goals rw [hEq]
  · exact hInv
  · exact ⟨hInv.last, fun _ _ => .inl hField.empty⟩
  · refine ⟨fun _ => ?_, fun _ _ => .inr (hField.modes _)⟩
    exact (lastField_controlMode _).trans (by rw [hField.modes]; rfl)
  · exact ⟨nofun, nofun⟩

/-- A `WAYPOINT` challenge leaves its modes in the message, but no state machine runs then
that would send it. -/
theorem onChallengeControl_overrideInv (hInv : OverrideInv field s)
    {challenge : Option ChallengeType} (hNo : NoChallenge s (.challengeControl challenge)) :
    OverrideInv field (s.onChallengeControl challenge) := by
  constructor
  · intro hManual
    rw [onChallengeControl_lastSbusManual] at hManual
    have hLast := hInv.last hManual
    cases challenge with
    | none => exact (lastField_headingCmd _).trans hLast
    | some challenge =>
      obtain rfl := hNo hManual
      exact (lastField_headingCmd _).trans hLast
  · intro hManual hMode
    rw [onChallengeControl_lastSbusManual] at hManual
    cases challenge with
    | none => exact hInv.left hManual hMode
    | some challenge =>
      obtain rfl := hNo hManual
      exact absurd rfl hMode

/-- The message of an `Iterate` has the mode that was left in it, or none. -/
theorem Transition.harmless (hField : ActuatorField field) {msg : ControlMode}
    (h : Transition now s s' (some msg))
    (hLeft : s.mode ≠ .waypoint → Harmless (field s.controlModeMsg)) : Harmless (field msg) := by
  cases h with
  | takeOver _ _ | giveBack _ _ => exact .inl ((hField.tacker {} _).trans hField.empty)
  | again uncleared =>
    rw [hField.tacker]
    rcases uncleared with ⟨hMode, _⟩ | ⟨hMode, _⟩
    · exact hLeft (by simp [hMode])
    · exact hLeft (by simp [hMode])

/-- An `Iterate` sends no mode but the one that was left in the message. -/
theorem iterate_overrideInv (hField : ActuatorField field) (hInv : OverrideInv field s)
    (h : s.iterate F now later = some s') : OverrideInv field s' := by
  obtain ⟨headings, msg, searches, hIter⟩ := iterate_cases h
  refine ⟨?_, ?_⟩
  · intro hManual
    rw [hIter.lastSbusManual] at hManual
    rw [hIter.lastField]
    cases msg with
    | none => exact hInv.last hManual
    | some msg =>
      exact (hIter.transition.harmless hField (hInv.left hManual)).or (hInv.last hManual)
  · intro hManual hMode
    rw [hIter.lastSbusManual] at hManual
    rw [hIter.mode] at hMode
    rw [hIter.msg]
    cases msg with
    | none => exact hInv.left hManual hMode
    | some msg => exact hIter.transition.harmless hField (hInv.left hManual)

/-- Every step that starts no challenge with a state machine keeps the operator's modes. -/
theorem step_overrideInv (hField : ActuatorField field) (hInv : OverrideInv field s)
    (hNo : NoChallenge s a) (h : step F atan2 s a = some s') : OverrideInv field s' := by
  rcases step_cases h with hQuiet | ⟨channel, rfl, rfl⟩ | ⟨challenge, rfl, rfl⟩ |
    ⟨now, later, rfl, hIter⟩
  · constructor
    · rw [hQuiet.lastSbusManual, hQuiet.out]
      exact hInv.last
    · rw [hQuiet.lastSbusManual, hQuiet.mode, hQuiet.msg]
      exact hInv.left
  · exact onSbus_overrideInv hField hInv channel
  · exact onChallengeControl_overrideInv hInv hNo
  · exact iterate_overrideInv hField hInv hIter

/-- So does every run of such steps. -/
theorem run_overrideInv (hField : ActuatorField field) {start : Int} {as : List ManagerMsg}
    (hNo : Along (step F atan2) NoChallenge (init start) as)
    (h : run (step F atan2) (init start) as = some s) : OverrideInv field s :=
  inv_of_run (fun _ _ _ hInv hNo hstep => step_overrideInv hField hInv hNo hstep)
    (init_overrideInv start) hNo h

end Override

/-- A challenge with a state machine takes the rudder from the stick at once. -/
theorem lastField_onChallengeControl {challenge : ChallengeType} (h : challenge ≠ .waypoint) :
    lastField (·.rudderMode) (s.onChallengeControl (some challenge)).out = some .auto := by
  cases challenge with
  | waypoint => exact absurd rfl h
  | stationKeep | vision | obstacle => exact lastField_controlMode _

/-- **The RC switch.** In a run, rudder and winch stay with the stick from the moment the
operator takes over until the switch is released, if and only if no challenge with a
state machine is started in the meantime. -/
theorem override_kept_iff (F : Formats) (atan2 : Fp → Fp → Fp) (start : Int)
    (as : List ManagerMsg) :
    (∀ pre post s, as = pre ++ post → run (step F atan2) (init start) pre = some s →
      override pre = true → RcModes s) ↔
      Along (step F atan2) NoChallenge (init start) as := by
  constructor
  · intro hKept
    by_contra hNot
    obtain ⟨pre, a, post, t, rfl, hrun, _, hChallenge⟩ := exists_step_of_not_along hNot
    cases a with
    | challengeControl challenge =>
      cases challenge with
      | none => exact hChallenge trivial
      | some challenge =>
        obtain ⟨hManual, hMachine⟩ : t.lastSbusManual = true ∧ challenge ≠ .waypoint := by
          simpa [NoChallenge] using hChallenge
        have hOverride : override (pre ++ [.challengeControl (some challenge)]) = true := by
          rw [override, List.foldl_append, ← override, ← lastSbusManual_eq_override hrun, hManual]
          rfl
        have hRc := hKept (pre ++ [.challengeControl (some challenge)]) post _ (by simp)
          (run_append_eq_some.mpr ⟨t, hrun, rfl⟩) hOverride
        exact absurd ((lastField_onChallengeControl hMachine).symm.trans hRc.1) (by decide)
    | sbus _ | tackerState _ | trueWind _ _ | visionData _ | boatState _ | iterate _ _ =>
      exact hChallenge trivial
  · rintro hNo pre post s rfl hrun hOverride
    have hManual : s.lastSbusManual = true := (lastSbusManual_eq_override hrun).trans hOverride
    have hNo := along_append_left hNo
    exact ⟨(run_overrideInv rudderMode_actuatorField hNo hrun).last hManual,
      (run_overrideInv winchMode_actuatorField hNo hrun).last hManual⟩

/-- A challenge that is started after the operator has taken over takes the actuators
away, and no further SBUS message gives them back. -/
theorem override_lost :
    ¬ ∀ (F : Formats) (atan2 : Fp → Fp → Fp) (start : Int) (as : List ManagerMsg)
      (s : WaypointManager), run (step F atan2) (init start) as = some s →
        override as = true → RcModes s := by
  intro h
  have hrun : run (step .exact fun _ _ => .num 0) (init 0)
      [.sbus [1023, 1023, 200], .challengeControl (some .stationKeep), .sbus [1023, 1023, 200]] =
      some { init 0 with
        mode := .stationKeep, lastSbusManual := true,
        headingCmdMsg := { extraSail := some (.num 0) },
        out := [.searchState .noTarget, .controlMode (actuatorModes .filteredRc),
          .headingCmd { extraSail := some (.num 0) },
          .controlMode (handOver (actuatorModes .filteredRc))] } := by
    decide +kernel
  exact absurd (h _ _ _ _ _ hrun (by decide)).1 (by decide)

-- ---------------------------------------------------------------------------
-- Starting a challenge
-- ---------------------------------------------------------------------------

/-- The last mode message gives both actuators to the autopilot, which follows the line. -/
def HandedOver (out : List ManagerOut) : Prop :=
  ∃ msg ∈ lastControlMode out,
    msg.rudderMode = some .auto ∧ msg.winchMode = some .auto ∧ msg.tacker = some .linePlan

/-- The challenge is selected and its state machine, if it has one, is at its start. -/
def AtStart (s : WaypointManager) (challenge : ChallengeType) : Prop :=
  s.mode = challenge ∧
    match challenge with
    | .stationKeep => s.stationKeepState = .gotoStart
    | .waypoint => True
    | .vision => s.visionState = .followWaypoints
    | .obstacle => s.obstacleState = .waypoint

/-- A challenge that is started while the operator has not taken over hands the actuators
to the autopilot. -/
def HandsOver (F : Formats) (atan2 : Fp → Fp → Fp) (s : WaypointManager) (a : ManagerMsg) : Prop :=
  ∀ challenge s', a = .challengeControl (some challenge) → s.lastSbusManual = false →
    step F atan2 s a = some s' → HandedOver s'.out ∧ AtStart s' challenge

/-- A `WAYPOINT` challenge is started with the actuators handed over already. -/
def FindsHandedOver (s : WaypointManager) (a : ManagerMsg) : Prop :=
  a = .challengeControl (some .waypoint) → s.lastSbusManual = false → HandedOver s.out

@[simp] theorem lastControlMode_controlMode (out : List ManagerOut) (msg : ControlMode) :
    lastControlMode (out ++ [.controlMode msg]) = some msg := by
  simp [lastControlMode, controlMode?]

@[simp] theorem lastControlMode_headingCmd (out : List ManagerOut) (msg : HeadingCmd) :
    lastControlMode (out ++ [.headingCmd msg]) = lastControlMode out := by
  simp [lastControlMode, controlMode?]

/-- After the message that hands the actuators over, they are. -/
theorem handedOver_handOver (out : List ManagerOut) (msg : ControlMode) :
    HandedOver (out ++ [.controlMode (handOver msg)]) :=
  ⟨handOver msg, lastControlMode_controlMode _ _, rfl, rfl, rfl⟩

/-- What the handler does is complete but for the branch of `WAYPOINT`, which sends
nothing. -/
theorem onChallengeControl_handsOver (s : WaypointManager) (challenge : ChallengeType) :
    AtStart (s.onChallengeControl (some challenge)) challenge ∧
      (HandedOver (s.onChallengeControl (some challenge)).out ↔
        challenge ≠ .waypoint ∨ HandedOver s.out) := by
  cases challenge with
  | waypoint =>
    refine ⟨⟨rfl, trivial⟩, ?_⟩
    simp [onChallengeControl, sendHeadingCmd, HandedOver]
  | stationKeep | vision | obstacle =>
    exact ⟨⟨rfl, rfl⟩, iff_of_true (handedOver_handOver _ _) (.inl (by decide))⟩

/-- A step hands the actuators over, if and only if `WAYPOINT` finds them handed over. -/
theorem handsOver_iff : HandsOver F atan2 s a ↔ FindsHandedOver s a := by
  constructor
  · rintro hHands rfl hManual
    have hAfter := (hHands .waypoint _ rfl hManual rfl).1
    exact ((onChallengeControl_handsOver s .waypoint).2.mp hAfter).resolve_left (absurd rfl)
  · rintro hFinds challenge s' rfl hManual hstep
    cases hstep
    obtain ⟨hStart, hHanded⟩ := onChallengeControl_handsOver s challenge
    refine ⟨hHanded.mpr ?_, hStart⟩
    by_cases hWaypoint : challenge = .waypoint
    · exact .inr (hFinds (by rw [hWaypoint]) hManual)
    · exact .inl hWaypoint

/-- **Starting a challenge.** In a run, every challenge that is started while the operator
has not taken over hands the actuators to the autopilot and starts at its beginning, if
and only if every `WAYPOINT` challenge finds the actuators handed over. -/
theorem hands_over_iff (F : Formats) (atan2 : Fp → Fp → Fp) (start : Int)
    (as : List ManagerMsg) :
    Along (step F atan2) (HandsOver F atan2) (init start) as ↔
      Along (step F atan2) FindsHandedOver (init start) as :=
  along_congr fun _ _ => handsOver_iff

/-- A `WAYPOINT` challenge after station keeping leaves the tacker switched off. -/
theorem waypoint_not_handed_over :
    ¬ ∀ (F : Formats) (atan2 : Fp → Fp → Fp) (start : Int) (as : List ManagerMsg),
      Along (step F atan2) (HandsOver F atan2) (init start) as := by
  intro h
  have hrun : run (step .exact fun _ _ => .num 0) (init 0)
      [.challengeControl (some .stationKeep), .tackerState { done := some true }, .iterate 0 0] =
      some { init 0 with
        mode := .stationKeep, stationKeepState := .wait, stationKeepEnd := seconds 280,
        tackerDone := true, headingCmdMsg := { extraSail := some (.num 0) },
        controlModeMsg := { tacker := some .disabled },
        out := [.searchState .noTarget, .headingCmd { extraSail := some (.num 0) },
          .controlMode (handOver {}), .controlMode { tacker := some .disabled }] } := by
    decide +kernel
  have hHands := along_at (h .exact _ 0 (_ ++ [.challengeControl (some .waypoint)])) hrun
  obtain ⟨⟨msg, hMsg, hRudder, _⟩, _⟩ := hHands .waypoint _ rfl rfl rfl
  obtain rfl : { tacker := some .disabled } = msg := Option.some.inj hMsg
  exact absurd hRudder (by decide)

-- ---------------------------------------------------------------------------
-- The tacker alone
-- ---------------------------------------------------------------------------

/-- The tacker is set in the message, and nothing else. -/
def OnlyTacker (msg : ControlMode) : Prop :=
  msg.tacker.isSome ∧ msg.rudderMode = none ∧ msg.winchMode = none ∧ msg.rigidMode = none ∧
    msg.ballastMode = none

/-- Every mode message that an `Iterate` publishes sets the tacker and nothing else. -/
def PublishesOnlyTacker (F : Formats) (atan2 : Fp → Fp → Fp) (s : WaypointManager)
    (a : ManagerMsg) : Prop :=
  ∀ now later s', a = .iterate now later → step F atan2 s a = some s' →
    ∀ sent msg, s'.out = s.out ++ sent → .controlMode msg ∈ sent → OnlyTacker msg

/-- Where an `Iterate` sends the mode message without clearing it, neither the RC switch
nor a challenge has left a mode in it. -/
def NothingLeft (s : WaypointManager) (a : ManagerMsg) : Prop :=
  ∀ now later, a = .iterate now later → Uncleared now s →
    s.controlModeMsg.rudderMode = none ∧ s.controlModeMsg.winchMode = none

/-- Nobody sets the modes of the rigid sail and the ballast. -/
def TwoModes (s : WaypointManager) : Prop :=
  s.controlModeMsg.rigidMode = none ∧ s.controlModeMsg.ballastMode = none

/-- The RC switch does not set the modes of the rigid sail and the ballast. -/
theorem onSbus_twoModes (hInv : TwoModes s) (channel : List Int) : TwoModes (s.onSbus channel) := by
  rcases onSbus_cases s channel with ⟨_, hEq⟩ | ⟨c, _, _, _, hEq⟩ | ⟨c, _, _, _, hEq⟩ |
    ⟨c, _, _, _, hEq⟩
  all_goals rw [hEq]
  · exact hInv
  all_goals exact ⟨rfl, rfl⟩

/-- Nor does any other step. -/
theorem step_twoModes (hInv : TwoModes s) (h : step F atan2 s a = some s') : TwoModes s' := by
  rcases step_cases h with hQuiet | ⟨channel, rfl, rfl⟩ | ⟨challenge, rfl, rfl⟩ |
    ⟨now, later, rfl, hIter⟩
  · rw [TwoModes, hQuiet.msg]
    exact hInv
  · exact onSbus_twoModes hInv channel
  · rcases challenge with _ | challenge
    · exact hInv
    · cases challenge <;> exact hInv
  · obtain ⟨headings, msg, searches, hIter⟩ := iterate_cases hIter
    rw [TwoModes, hIter.msg]
    cases hIter.transition with
    | stay _ _ | again _ => exact hInv
    | takeOver _ _ | giveBack _ _ => exact ⟨rfl, rfl⟩

/-- The branches that do not clear the message compute no angle. -/
theorem iterate_of_uncleared (F : Formats) (later : Int) (h : Uncleared now s) :
    ∃ s', s.iterate F now later = some s' := by
  rcases h with ⟨hMode, hState, hEnd⟩ | ⟨hMode, _⟩
  · simp only [iterate, hMode, doStationKeep, hState]
    exact ⟨_, if_pos hEnd⟩
  · simp only [iterate, hMode]
    exact ⟨_, rfl⟩

/-- The mode messages that an `Iterate` publishes are the one of its transition. -/
theorem Iterated.mem_sent {headings : List HeadingCmd} {msg : Option ControlMode}
    {searches : List SearchState} (h : Iterated now s s' headings msg searches)
    {sent : List ManagerOut} (hOut : s'.out = s.out ++ sent) {m : ControlMode} :
    .controlMode m ∈ sent ↔ msg = some m := by
  rw [h.out, List.append_cancel_left_eq] at hOut
  rw [← hOut]
  simp [Option.mem_toList]

/-- A step publishes the tacker alone, if and only if nothing was left in a message that is sent
without being cleared. -/
theorem publishesOnlyTacker_iff (hInv : TwoModes s) :
    PublishesOnlyTacker F atan2 s a ↔ NothingLeft s a := by
  constructor
  · rintro hOnly now later rfl hUncleared
    obtain ⟨s', hs'⟩ := iterate_of_uncleared F later hUncleared
    obtain ⟨headings, msg, searches, hIter⟩ := iterate_cases hs'
    cases hIter.transition with
    | stay cleared _ | takeOver cleared _ | giveBack cleared _ => exact absurd hUncleared cleared
    | again _ =>
      obtain ⟨_, hRudder, hWinch, _⟩ := hOnly now later s' rfl hs' _ _ hIter.out
        ((hIter.mem_sent hIter.out).mpr rfl)
      exact ⟨hRudder, hWinch⟩
  · rintro hLeft now later s' rfl hstep sent m hOut hm
    obtain ⟨headings, msg, searches, hIter⟩ := iterate_cases hstep
    obtain rfl := (hIter.mem_sent hOut).mp hm
    cases hIter.transition with
    | takeOver _ _ | giveBack _ _ => exact ⟨rfl, rfl, rfl, rfl, rfl⟩
    | again uncleared =>
      obtain ⟨hRudder, hWinch⟩ := hLeft now later rfl uncleared
      exact ⟨rfl, hRudder, hWinch, hInv.1, hInv.2⟩

/-- **The tacker alone.** In a run, every mode message that an `Iterate` publishes sets
the tacker and nothing else, if and only if the messages that are sent without being
cleared have no mode of rudder or winch left in them. -/
theorem only_tacker_iff (F : Formats) (atan2 : Fp → Fp → Fp) (start : Int)
    (as : List ManagerMsg) :
    Along (step F atan2) (PublishesOnlyTacker F atan2) (init start) as ↔
      Along (step F atan2) NothingLeft (init start) as :=
  along_congr_of_inv (I := TwoModes) (fun _ _ _ hInv hstep => step_twoModes hInv hstep)
    (fun _ _ hInv => publishesOnlyTacker_iff hInv) ⟨rfl, rfl⟩

/-- The operator takes over while the boat keeps its station; when the time is up, the
modes of the stick are published once more with the tacker. -/
theorem stale_modes_published :
    ¬ ∀ (F : Formats) (atan2 : Fp → Fp → Fp) (start : Int) (as : List ManagerMsg),
      Along (step F atan2) (PublishesOnlyTacker F atan2) (init start) as := by
  intro h
  have hrun : run (step .exact fun _ _ => .num 0) (init 0)
      [.challengeControl (some .stationKeep), .tackerState { done := some true }, .iterate 0 0,
        .sbus [1023, 1023, 200]] =
      some { init 0 with
        mode := .stationKeep, stationKeepState := .wait, stationKeepEnd := seconds 280,
        tackerDone := true, lastSbusManual := true,
        headingCmdMsg := { extraSail := some (.num 0) },
        controlModeMsg := actuatorModes .filteredRc,
        out := [.searchState .noTarget, .headingCmd { extraSail := some (.num 0) },
          .controlMode (handOver {}), .controlMode { tacker := some .disabled },
          .controlMode (actuatorModes .filteredRc)] } := by
    decide +kernel
  have hOnly := along_at (h .exact _ 0 (_ ++ [.iterate (seconds 281) (seconds 281)])) hrun
  have hSent := hOnly (seconds 281) (seconds 281) _ rfl rfl
    [.headingCmd ⟨some (.num 0), some (.num (3 / 2))⟩,
      .controlMode { actuatorModes .filteredRc with tacker := some .disabled }]
    _ (by decide +kernel) (List.mem_cons_of_mem _ List.mem_cons_self)
  exact absurd hSent.2.1 (by decide)

end Sailbot.Control.WaypointManager

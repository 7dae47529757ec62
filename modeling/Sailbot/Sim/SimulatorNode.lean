import Sailbot.Lib.Servo
import Sailbot.Lib.Transition
import Sailbot.Sim.FakeAirmar
import Sailbot.Sim.SailSide

/-!
# The simulator

`SimulatorNode` (`sim/sim_inter.cc`, `sim/sim_inter.h`): the commands for the sail, the rudder and
the ballast become rates or positions, every `Iterate` is a step of the dynamics, and the state that
it leads to is published. From time to time the boat is put back to a logged state.

The arithmetic is any one; `toFloat` is the rounding to `float`, `toQuat` the conversion of a matrix
to a quaternion. The process ends when it is not a number where the boat is.

* `SimulatorNode.step`       — a command, a wind, a logged state, or an `Iterate`.
* `SimulatorNode.servos`     — where the sail and the rudder are, told positions.
* `SimulatorNode.told_again` — told one position again and again, the rudder gets there.
* `SimulatorNode.published`  — what is published is a boat that heels and turns.
* `SimulatorNode.replayed`   — what is published can be gone on with.
-/

namespace Sailbot.Sim

open Lib
open Lib.Arith (lit)

namespace SimulatorNode

structure SailCmd (R : Type) where
  vel : Option R := none
  pos : Option R := none

structure RudderCmd (R : Type) where
  vel : Option R := none
  pos : Option R := none

structure BallastCmd (R : Type) where
  vel     : Option R := none
  voltage : Option R := none

/-- A state of the boat as it was logged; `hasPos` is `has_pos()`. -/
structure LoggedState (R : Type) where
  state  : BoatState R := {}
  hasPos : Bool := false

end SimulatorNode

open SimulatorNode

structure SimulatorNode (R : Type) [Trig R] where
  resetPeriod : R
  setPos      : Bool
  startTime   : R
  endTime     : R
  impl        : TrivialDynamics R
  sdot        : R
  rdot        : R
  bdot        : R
  deltas      : R
  deltar      : R
  started     : Bool := false
  nextReset   : R
  lastState   : LoggedState R := {}
  airmar      : FakeAirmar R := {}
  shutdown    : Bool := false
  stateQueue  : List (BoatState R) := []
  windQueue   : List (Vector3f R) := []

namespace SimulatorNode

variable {R : Type} [Trig R]

inductive Action (R : Type)
  | sailCmd (cmd : SailCmd R)
  | rudderCmd (cmd : RudderCmd R)
  | ballastCmd (cmd : BallastCmd R)
  | simSetWind (x y z : R)
  | origBoatState (msg : LoggedState R)
  | iterate (systime : R)

section

variable (toFloat : R → R) (toQuat : Mat3 R → Vec3 R × R)

/-- `dt`; the dynamics and the loop have it as `float`. -/
def dt : R := toFloat (lit (1 / 1000))

/-- The constructor; `deltas` and `deltar` are not initialised. -/
def init (resetPeriod : R) (setPos : Bool) (startTime endTime deltas deltar : R) :
    SimulatorNode R where
  resetPeriod := resetPeriod
  setPos := setPos
  startTime := startTime
  endTime := endTime
  impl := .init (dt toFloat)
  sdot := lit 0
  rdot := lit 0
  bdot := lit 0
  deltas := deltas
  deltar := deltar
  nextReset := lit (-1)

def setWind (s : SimulatorNode R) (x y z : R) : SimulatorNode R := { s with
  impl := s.impl.setWind ⟨x, y, z⟩
  windQueue := s.windQueue ++ [{ x := some x, y := some y, z := some z }] }

/-- The handler of `orig_boat_state`. -/
def onOrigBoatState (s : SimulatorNode R) (msg : LoggedState R) : SimulatorNode R :=
  let euler := msg.state.euler.getD {}
  let yaw := toFloat (orZero euler.yaw - lit 0)
  { s with
    lastState := { msg with
      state := { msg.state with euler := some { euler with yaw := some yaw } } }
    deltas := orZero msg.state.internal.sail }

/-- The part of a command that is given and a number. -/
def number (x : Option R) : Option R := x.filter fun x => !Arith.isNaN x

def processSail (s : SimulatorNode R) (cmd : SailCmd R) : SimulatorNode R :=
  match number cmd.vel with
  | some vel => { s with sdot := vel }
  | none =>
    match number cmd.pos with
    | some pos => { s with sdot := s.impl.getSdotForGoal pos }
    | none => s

def processRudder (s : SimulatorNode R) (cmd : RudderCmd R) : SimulatorNode R :=
  let s := { s with deltar := orZero cmd.pos }
  match number cmd.vel with
  | some vel => { s with rdot := vel }
  | none =>
    match number cmd.pos with
    | some pos => { s with rdot := s.impl.getRdotForGoal pos }
    | none => s

def processBallast (s : SimulatorNode R) (cmd : BallastCmd R) : SimulatorNode R :=
  match number cmd.vel with
  | some vel => { s with bdot := vel }
  | none =>
    match cmd.voltage with
    | some voltage => { s with bdot := voltage / lit 12 }
    | none => s

/-- The boat is put to the logged state. -/
def start (s : SimulatorNode R) : SimulatorNode R :=
  let pos := s.lastState.state.pos
  { s with
    impl := s.impl.setFromState s.lastState.state
    airmar :=
      if s.lastState.hasPos then
        s.airmar.setGpsZero (orZero pos.y) (orZero pos.x)
      else
        s.airmar.setGpsZero (lit (42276126 / 10 ^ 6)) (lit (-71756934 / 10 ^ 6))
    started := true }

/-- What is published of the boat. -/
def stateMsg (s : SimulatorNode R) : BoatState R :=
  let (v, w) := toQuat s.impl.rbi
  let rollpitchyaw := Control.Util.getRollPitchYaw s.impl.rbi
  { pos := StateEstimator.toProto id s.impl.x
    orientation := {
      w := some (toFloat w), x := some (toFloat v.x), y := some (toFloat v.y),
      z := some (toFloat v.z) }
    vel := StateEstimator.toProto toFloat s.impl.v
    omega := StateEstimator.toProto toFloat s.impl.omega
    internal := {
      sail := some (toFloat s.impl.deltas)
      rudder := some (toFloat s.impl.deltar)
      ballast := some (toFloat s.impl.deltab)
      saildot := some (toFloat s.sdot)
      rudderdot := some (toFloat s.rdot)
      ballastdot := some (toFloat s.bdot) }
    euler := some {
      roll := some (toFloat rollpitchyaw.x)
      pitch := some (toFloat rollpitchyaw.y)
      yaw := some (toFloat rollpitchyaw.z) } }

/-- One step of the dynamics. -/
def advance (s : SimulatorNode R) : Option (SimulatorNode R) :=
  let impl :=
    if s.setPos then s.impl.update toFloat s.deltas s.deltar
    else s.impl.updateRates toFloat s.sdot s.rdot s.bdot
  impl.map fun impl => { s with impl := impl }

/-- The beginning of `Iterate`: the boat is put back when it is time to. -/
def ready (s : SimulatorNode R) (systime : R) : SimulatorNode R :=
  let s :=
    if Arith.lt (lit 0) s.resetPeriod && Arith.lt s.nextReset systime then
      { s with started := false, nextReset := systime + s.resetPeriod }
    else s
  if s.started then s else s.start

/-- `Iterate`, in the loop that runs until the shutdown. -/
def iterate (s : SimulatorNode R) (systime : R) : Option (SimulatorNode R) :=
  if s.shutdown then none
  else if Arith.lt systime s.startTime then some s
  else if Arith.lt s.endTime systime then some { s with shutdown := true }
  else ((s.ready systime).advance toFloat).map fun s =>
    { s with stateQueue := s.stateQueue ++ [s.stateMsg toFloat toQuat] }

def step (s : SimulatorNode R) : Action R → Option (SimulatorNode R)
  | .sailCmd cmd => some (s.processSail cmd)
  | .rudderCmd cmd => some (s.processRudder cmd)
  | .ballastCmd cmd => some (s.processBallast cmd)
  | .simSetWind x y z => some (s.setWind x y z)
  | .origBoatState msg => some (s.onOrigBoatState toFloat msg)
  | .iterate systime => s.iterate toFloat toQuat systime

end

-- ---------------------------------------------------------------------------
-- The sail and the rudder
-- ---------------------------------------------------------------------------

open Real Control
open Servo (Asked rounds)

noncomputable section

/-- The rudder, with the rate at which it goes. -/
def rudder (s : SimulatorNode ℝ) : Servo ℝ := ⟨s.impl.deltar, s.rdot⟩

/-- The sail, which is on either side. -/
def sail (s : SimulatorNode ℝ) : Servo ℝ := ⟨|s.impl.deltas|, s.sdot⟩

/-- What an `Iterate` is to a servo. -/
def tick (s : SimulatorNode ℝ) (systime : ℝ) : Option (ServoMsg ℝ) :=
  if systime < s.startTime ∨ s.endTime < systime then none else some .tick

/-- What an action is to the rudder. -/
def rudderMsg (s : SimulatorNode ℝ) : Action ℝ → Option (ServoMsg ℝ)
  | .rudderCmd cmd => cmd.pos.map .goal
  | .iterate systime => s.tick systime
  | _ => none

/-- What an action is to the sail. -/
def sailMsg (s : SimulatorNode ℝ) : Action ℝ → Option (ServoMsg ℝ)
  | .sailCmd cmd => cmd.pos.map .goal
  | .iterate systime => s.tick systime
  | _ => none

end

/-- The simulation goes on, and it is told rates. -/
structure Going (s : SimulatorNode ℝ) : Prop where
  started : s.started = true
  period  : s.resetPeriod ≤ 0
  rates   : s.setPos = false

/-- A command for the sail or the rudder says a position. -/
def Action.SaysPos : Action ℝ → Prop
  | .sailCmd cmd => cmd.vel = none
  | .rudderCmd cmd => cmd.vel = none
  | _ => True

variable {toFloat : ℝ → ℝ} {toQuat : Mat3 ℝ → Vec3 ℝ × ℝ} {s s' t : SimulatorNode ℝ}
  {as : List (Action ℝ)} {systime : ℝ}

/-- No real number is not a number. -/
theorem number_real (x : Option ℝ) : number x = x := by
  cases x <;> rfl

/-- A simulation that goes on and is not put back from time to time is ready as it is. -/
theorem ready_of_going (h : s.Going) (systime : ℝ) : s.ready systime = s := by
  have hReset : Arith.lt (lit 0) s.resetPeriod = false := by
    rw [Bool.eq_false_iff, Ne, Arith.lt_real, Arith.lit_real, Rat.cast_zero, not_lt]
    exact h.period
  rw [ready, hReset, Bool.false_and, if_neg Bool.false_ne_true, if_pos h.started]

/-- Before and after its time the simulation stands still; otherwise the dynamics take a step, and
what they lead to is published. -/
theorem iterate_cases (h : s.iterate toFloat toQuat systime = some s') :
    ((systime < s.startTime ∨ s.endTime < systime) ∧ ∃ down, s' = { s with shutdown := down }) ∨
    (¬ (systime < s.startTime ∨ s.endTime < systime) ∧
      ∃ t, (s.ready systime).advance toFloat = some t ∧
        s' = { t with stateQueue := t.stateQueue ++ [t.stateMsg toFloat toQuat] }) := by
  unfold iterate at h
  split at h
  case isTrue => cases h
  case isFalse =>
    split at h
    case isTrue hEarly =>
      exact .inl ⟨.inl (Arith.lt_real.mp hEarly), s.shutdown, (Option.some.inj h).symm⟩
    case isFalse hEarly =>
      split at h
      case isTrue hLate =>
        exact .inl ⟨.inr (Arith.lt_real.mp hLate), true, (Option.some.inj h).symm⟩
      case isFalse hLate =>
        obtain ⟨t, hAdvance, rfl⟩ := Option.map_eq_some_iff.mp h
        refine .inr ⟨?_, t, hAdvance, rfl⟩
        rintro (hTime | hTime)
        · exact hEarly (Arith.lt_real.mpr hTime)
        · exact hLate (Arith.lt_real.mpr hTime)

/-- A simulation that is not stopped has an answer to every time. -/
theorem iterate_total (hUp : s.shutdown = false) (systime : ℝ) :
    ∃ s', s.iterate toFloat toQuat systime = some s' := by
  unfold iterate
  rw [hUp, if_neg Bool.false_ne_true]
  split
  case isTrue => exact ⟨_, rfl⟩
  case isFalse =>
    split
    case isTrue => exact ⟨_, rfl⟩
    case isFalse =>
      have hAdvance : ∃ t, (s.ready systime).advance toFloat = some t := by
        unfold advance
        split
        · exact ⟨_, rfl⟩
        · exact ⟨_, rfl⟩
      obtain ⟨t, ht⟩ := hAdvance
      exact ⟨_, congrArg _ ht⟩

/-- What comes before the step of the dynamics puts the boat somewhere, and nothing else. -/
theorem ready_eq (s : SimulatorNode ℝ) (systime : ℝ) :
    ∃ started nextReset impl airmar, s.ready systime = { s with
      started := started, nextReset := nextReset, impl := impl, airmar := airmar } := by
  unfold ready start
  dsimp only
  split
  · split
    · exact ⟨_, _, _, _, rfl⟩
    · exact ⟨_, _, _, _, rfl⟩
  · split
    · exact ⟨_, _, _, _, rfl⟩
    · exact ⟨_, _, _, _, rfl⟩

/-- An `Iterate` is in the time of the simulation. -/
def InTime (s : SimulatorNode ℝ) : Action ℝ → Prop
  | .iterate systime => s.startTime ≤ systime ∧ systime ≤ s.endTime
  | _ => True

/-- A simulation that is not stopped, and its time. -/
structure Up (s t : SimulatorNode ℝ) : Prop where
  shutdown  : t.shutdown = false
  startTime : t.startTime = s.startTime
  endTime   : t.endTime = s.endTime

/-- No step within its time stops a simulation. -/
theorem step_up {a : Action ℝ} (h : Up s t) (hTime : s.InTime a) :
    ∃ t', step toFloat toQuat t a = some t' ∧ Up s t' := by
  cases a with
  | sailCmd cmd =>
    refine ⟨_, rfl, ?_⟩
    unfold processSail
    split
    · exact ⟨h.shutdown, h.startTime, h.endTime⟩
    · split
      · exact ⟨h.shutdown, h.startTime, h.endTime⟩
      · exact h
  | rudderCmd cmd =>
    refine ⟨_, rfl, ?_⟩
    unfold processRudder
    dsimp only
    split
    · exact ⟨h.shutdown, h.startTime, h.endTime⟩
    · split
      · exact ⟨h.shutdown, h.startTime, h.endTime⟩
      · exact ⟨h.shutdown, h.startTime, h.endTime⟩
  | ballastCmd cmd =>
    refine ⟨_, rfl, ?_⟩
    unfold processBallast
    split
    · exact ⟨h.shutdown, h.startTime, h.endTime⟩
    · split
      · exact ⟨h.shutdown, h.startTime, h.endTime⟩
      · exact h
  | simSetWind x y z => exact ⟨_, rfl, h.shutdown, h.startTime, h.endTime⟩
  | origBoatState msg => exact ⟨_, rfl, h.shutdown, h.startTime, h.endTime⟩
  | iterate systime =>
    obtain ⟨t', ht⟩ : ∃ t', t.iterate toFloat toQuat systime = some t' :=
      iterate_total h.shutdown systime
    refine ⟨t', ht, ?_⟩
    rcases iterate_cases ht with ⟨hOut, -⟩ | ⟨-, u, hAdvance, rfl⟩
    · rw [h.startTime, h.endTime] at hOut
      exact (hOut.elim hTime.1.not_gt hTime.2.not_gt).elim
    · obtain ⟨started, nextReset, impl, airmar, hReady⟩ := ready_eq t systime
      obtain ⟨impl', -, rfl⟩ := Option.map_eq_some_iff.mp hAdvance
      rw [hReady]
      exact ⟨h.shutdown, h.startTime, h.endTime⟩

/-- In its time a simulation goes on. -/
theorem run_up (h : Up s t) (hTime : ∀ a ∈ as, s.InTime a) :
    ∃ t', run (step toFloat toQuat) t as = some t' ∧ Up s t' := by
  induction as generalizing t with
  | nil => exact ⟨t, rfl, h⟩
  | cons a as ih =>
    obtain ⟨hFirst, hRest⟩ := List.forall_mem_cons.mp hTime
    obtain ⟨u, hu, hUp⟩ := step_up h hFirst
    obtain ⟨t', hrun, hEnd⟩ := ih hUp hRest
    exact ⟨t', run_cons_eq_some.mpr ⟨u, hu, hrun⟩, hEnd⟩

/-- What is between the limits is not clamped. -/
theorem clamp_of_between {x low high : ℝ} (h : low ≤ x ∧ x ≤ high) :
    min (max x low) high = x := by
  rw [max_eq_left h.1, min_eq_left h.2]

/-- The sail opens as far as it is told, to whichever side. -/
theorem abs_sailFor {b : TrivialDynamics ℝ} {d : ℝ} (hd : 0 ≤ d ∧ d ≤ π) : |b.sailFor d| = d := by
  have hAbs : |d| ≤ π := (abs_of_nonneg hd.1).le.trans hd.2
  have hMax : Arith.max (Util.normAngle d) (lit 0) = d := by
    rw [Util.normAngle_of_abs_le hAbs, Arith.max_real, Arith.lit_real, Rat.cast_zero,
      max_eq_left hd.1]
  rw [TrivialDynamics.sailFor, hMax]
  split
  · rw [Util.normAngle_of_abs_le (by rwa [abs_neg]), abs_neg, abs_of_nonneg hd.1]
  · rw [Util.normAngle_of_abs_le hAbs, abs_of_nonneg hd.1]

/-- Inside of their limits, the rudder and the sail go as they are told. -/
theorem updateRates_free {b b' : TrivialDynamics ℝ} {sdot rdot bdot : ℝ}
    (h : b.updateRates toFloat sdot rdot bdot = some b')
    (hRudder : -(6 / 10) ≤ b.deltar + rdot * b.dt ∧ b.deltar + rdot * b.dt ≤ 6 / 10)
    (hSail : 0 ≤ |b.deltas| + sdot * b.dt ∧ |b.deltas| + sdot * b.dt ≤ π) :
    b'.deltar = b.deltar + rdot * b.dt ∧ |b'.deltas| = |b.deltas| + sdot * b.dt ∧ b'.dt = b.dt := by
  unfold TrivialDynamics.updateRates at h
  obtain ⟨hDeltar, -, hDt, -⟩ := TrivialDynamics.update_kept h
  obtain ⟨hDeltas, -⟩ := TrivialDynamics.update_eq_some h
  refine ⟨hDeltar.trans ?_, ?_, hDt⟩
  · have hLow : (lit (-6 / 10) : ℝ) = -(6 / 10) := by
      rw [Arith.lit_real]
      norm_num
    have hHigh : (lit (6 / 10) : ℝ) = 6 / 10 := by
      rw [Arith.lit_real]
      norm_num
    rw [TrivialDynamics.actuated, Arith.min_real, Arith.max_real, hLow, hHigh]
    exact clamp_of_between hRudder
  · rw [hDeltas, Arith.abs_real]
    exact abs_sailFor hSail

/-- The servos of one state are where those of another one got to. -/
structure Tracks (s : SimulatorNode ℝ) (as : List (Action ℝ)) (s' : SimulatorNode ℝ) : Prop where
  going     : s'.Going
  startTime : s'.startTime = s.startTime
  endTime   : s'.endTime = s.endTime
  dt        : s'.impl.dt = s.impl.dt
  rudder    : s'.rudder = s.rudder.after 5 s.impl.dt (as.filterMap s.rudderMsg)
  sail      : s'.sail = s.sail.after 5 s.impl.dt (as.filterMap s.sailMsg)

/-- One step, in which neither servo would pass a limit. -/
theorem step_tracks {a : Action ℝ} (hGoing : s.Going) (hPos : a.SaysPos)
    (hstep : step toFloat toQuat s a = some s')
    (hRudder : -(6 / 10) ≤ (s.rudder.after 5 s.impl.dt ([a].filterMap s.rudderMsg)).pos ∧
      (s.rudder.after 5 s.impl.dt ([a].filterMap s.rudderMsg)).pos ≤ 6 / 10)
    (hSail : 0 ≤ (s.sail.after 5 s.impl.dt ([a].filterMap s.sailMsg)).pos ∧
      (s.sail.after 5 s.impl.dt ([a].filterMap s.sailMsg)).pos ≤ π) : Tracks s [a] s' := by
  have hFive : (lit 5 : ℝ) = 5 := by
    rw [Arith.lit_real]
    norm_num
  cases a with
  | sailCmd cmd =>
    obtain rfl := Option.some.inj hstep
    rw [processSail, number_real, number_real, show cmd.vel = none from hPos]
    cases hCmd : cmd.pos with
    | none => exact ⟨hGoing, rfl, rfl, rfl, rfl, by simp [sailMsg, hCmd, Servo.after]⟩
    | some pos =>
      refine ⟨⟨hGoing.started, hGoing.period, hGoing.rates⟩, rfl, rfl, rfl, rfl, ?_⟩
      simp [sailMsg, hCmd, Servo.after, Servo.step, sail, TrivialDynamics.getSdotForGoal, hFive,
        Arith.abs_real]
  | rudderCmd cmd =>
    obtain rfl := Option.some.inj hstep
    rw [processRudder]
    dsimp only
    rw [number_real, number_real, show cmd.vel = none from hPos]
    cases hCmd : cmd.pos with
    | none =>
      refine ⟨⟨hGoing.started, hGoing.period, hGoing.rates⟩, rfl, rfl, rfl, ?_, rfl⟩
      simp [rudderMsg, hCmd, Servo.after, rudder]
    | some pos =>
      refine ⟨⟨hGoing.started, hGoing.period, hGoing.rates⟩, rfl, rfl, rfl, ?_, rfl⟩
      simp [rudderMsg, hCmd, Servo.after, Servo.step, rudder, TrivialDynamics.getRdotForGoal, hFive]
  | ballastCmd cmd =>
    obtain rfl := Option.some.inj hstep
    unfold processBallast
    split
    · exact ⟨⟨hGoing.started, hGoing.period, hGoing.rates⟩, rfl, rfl, rfl, rfl, rfl⟩
    · split
      · exact ⟨⟨hGoing.started, hGoing.period, hGoing.rates⟩, rfl, rfl, rfl, rfl, rfl⟩
      · exact ⟨hGoing, rfl, rfl, rfl, rfl, rfl⟩
  | simSetWind x y z =>
    obtain rfl := Option.some.inj hstep
    exact ⟨⟨hGoing.started, hGoing.period, hGoing.rates⟩, rfl, rfl, rfl, rfl, rfl⟩
  | origBoatState msg =>
    obtain rfl := Option.some.inj hstep
    exact ⟨⟨hGoing.started, hGoing.period, hGoing.rates⟩, rfl, rfl, rfl, rfl, rfl⟩
  | iterate systime =>
    -- outside its time the simulation stands still, and so do the servos
    rcases iterate_cases hstep with ⟨hTime, down, rfl⟩ | ⟨hTime, t, hAdvance, rfl⟩
    · have hTick : s.tick systime = none := if_pos hTime
      refine ⟨⟨hGoing.started, hGoing.period, hGoing.rates⟩, rfl, rfl, rfl, ?_, ?_⟩
      · simp [rudderMsg, hTick, Servo.after, rudder]
      · simp [sailMsg, hTick, Servo.after, sail]
    · have hTick : s.tick systime = some .tick := if_neg hTime
      rw [ready_of_going hGoing, advance, hGoing.rates, if_neg Bool.false_ne_true] at hAdvance
      -- the clips of the dynamics do not bite, by `hRudder` and `hSail`
      obtain ⟨impl, hUpdate, rfl⟩ := Option.map_eq_some_iff.mp hAdvance
      simp only [rudderMsg, sailMsg, List.filterMap_cons, List.filterMap_nil, hTick, Servo.after,
        List.foldl_cons, List.foldl_nil, Servo.step] at hRudder hSail ⊢
      obtain ⟨hDeltar, hDeltas, hDt⟩ := updateRates_free hUpdate hRudder hSail
      refine ⟨⟨hGoing.started, hGoing.period, rfl⟩, rfl, rfl, hDt, ?_, ?_⟩
      · simp [rudderMsg, hTick, Servo.after, Servo.step, rudder, hDeltar]
      · simp [sailMsg, hTick, Servo.after, Servo.step, sail, hDeltas]

/-- What an action is to the rudder depends on the time of the simulation only. -/
theorem Tracks.rudderMsg (h : Tracks s as s') : s'.rudderMsg = s.rudderMsg := by
  funext a
  cases a <;> simp [SimulatorNode.rudderMsg, tick, h.startTime, h.endTime]

/-- So does what it is to the sail. -/
theorem Tracks.sailMsg (h : Tracks s as s') : s'.sailMsg = s.sailMsg := by
  funext a
  cases a <;> simp [SimulatorNode.sailMsg, tick, h.startTime, h.endTime]

/-- Servos are followed over one run and then over another. -/
theorem Tracks.trans {as' : List (Action ℝ)} (h : Tracks s as t) (h' : Tracks t as' s') :
    Tracks s (as ++ as') s' where
  going := h'.going
  startTime := h'.startTime.trans h.startTime
  endTime := h'.endTime.trans h.endTime
  dt := h'.dt.trans h.dt
  rudder := by
    rw [List.filterMap_append, Servo.after_append, ← h.rudder, h'.rudder, h.dt, h.rudderMsg]
  sail := by
    rw [List.filterMap_append, Servo.after_append, ← h.sail, h'.sail, h.dt, h.sailMsg]

/-- How the rudder and the sail are steered: between limits, by goals that are told often enough. -/
structure Steered (n : Nat) (low high lowSail highSail : ℝ) (s : SimulatorNode ℝ)
    (as : List (Action ℝ)) : Prop where
  going   : s.Going
  saysPos : ∀ a ∈ as, a.SaysPos
  rudder  : Asked 5 s.impl.dt n low high s.rudder (as.filterMap s.rudderMsg)
  sail    : Asked 5 s.impl.dt n lowSail highSail s.sail (as.filterMap s.sailMsg)
  limits  : (-(6 / 10) ≤ low ∧ high ≤ 6 / 10) ∧ 0 ≤ lowSail ∧ highSail ≤ π

variable {n : Nat} {low high lowSail highSail : ℝ}

/-- A part of the run is steered as the whole is. -/
theorem Steered.initial {as' : List (Action ℝ)} (h : Steered n low high lowSail highSail s as)
    (hPrefix : as' <+: as) : Steered n low high lowSail highSail s as' where
  going := h.going
  saysPos := fun a hIn => h.saysPos a (hPrefix.subset hIn)
  rudder := h.rudder.initial (hPrefix.filterMap _)
  sail := h.sail.initial (hPrefix.filterMap _)
  limits := h.limits

/-- Both servos stay between their goals. -/
theorem Steered.between (h : Steered n low high lowSail highSail s as) :
    (low ≤ (s.rudder.after 5 s.impl.dt (as.filterMap s.rudderMsg)).pos ∧
      (s.rudder.after 5 s.impl.dt (as.filterMap s.rudderMsg)).pos ≤ high) ∧
    lowSail ≤ (s.sail.after 5 s.impl.dt (as.filterMap s.sailMsg)).pos ∧
      (s.sail.after 5 s.impl.dt (as.filterMap s.sailMsg)).pos ≤ highSail :=
  ⟨Servo.after_between h.rudder, Servo.after_between h.sail⟩

/-- By induction on the run: as long as nothing has reached a limit, the next step does not take it
past one. -/
theorem run_tracks (h : Steered n low high lowSail highSail s as)
    (hrun : run (step toFloat toQuat) s as = some s') : Tracks s as s' := by
  induction as using List.reverseRecOn generalizing s' with
  | nil =>
    obtain rfl := Option.some.inj hrun
    exact ⟨h.going, rfl, rfl, rfl, rfl, rfl⟩
  | append_singleton as a ih =>
    obtain ⟨t, hrun, hstep⟩ := run_concat_eq_some.mp hrun
    have hBefore := ih (h.initial (List.prefix_append as [a])) hrun
    obtain ⟨hRudder, hSail⟩ := h.between
    obtain ⟨⟨hLow, hHigh⟩, hLowSail, hHighSail⟩ := h.limits
    rw [List.filterMap_append, Servo.after_append, ← hBefore.rudder, ← hBefore.dt,
      ← hBefore.rudderMsg] at hRudder
    rw [List.filterMap_append, Servo.after_append, ← hBefore.sail, ← hBefore.dt,
      ← hBefore.sailMsg] at hSail
    exact hBefore.trans (step_tracks hBefore.going (h.saysPos a (by simp)) hstep
      ⟨hLow.trans hRudder.1, hRudder.2.trans hHigh⟩
      ⟨hLowSail.trans hSail.1, hSail.2.trans hHighSail⟩)

/-- **Sail and rudder.** In every run in which the sail and the rudder are told positions only, all
of them inside of the limits, and soon enough one after the other, they are where servos with a
gain of five are; neither of them meets a limit. -/
theorem servos (h : Steered n low high lowSail highSail s as)
    (hrun : run (step toFloat toQuat) s as = some s') :
    s'.rudder = s.rudder.after 5 s.impl.dt (as.filterMap s.rudderMsg) ∧
      s'.sail = s.sail.after 5 s.impl.dt (as.filterMap s.sailMsg) ∧
      (low ≤ s'.impl.deltar ∧ s'.impl.deltar ≤ high) ∧
      lowSail ≤ |s'.impl.deltas| ∧ |s'.impl.deltas| ≤ highSail := by
  have hTracks := run_tracks h hrun
  obtain ⟨hRudder, hSail⟩ := h.between
  rw [← hTracks.rudder] at hRudder
  rw [← hTracks.sail] at hSail
  exact ⟨hTracks.rudder, hTracks.sail, hRudder, hSail⟩

/-- A simulation that goes on, with the sail in and the rudder in the middle. -/
noncomputable def moored : SimulatorNode ℝ := { init id (-1) false 0 10 0 0 with
  impl := { TrivialDynamics.init (lit (1 / 1000)) with deltas := 0, deltar := 0 }
  sdot := 0
  rdot := 0
  started := true }

theorem moored_dt : moored.impl.dt = 1 / 1000 := by
  show ((1 / 1000 : ℚ) : ℝ) = 1 / 1000
  norm_num

/-- The simulation is in its time. -/
theorem moored_tick : moored.tick 1 = some .tick := by
  refine if_neg ?_
  show ¬ ((1 : ℝ) < 0 ∨ (10 : ℝ) < 1)
  norm_num

/-- The rudder is told the same position twice, and the sail one position. -/
noncomputable def toldTwice : List (Action ℝ) :=
  [.rudderCmd { pos := some (3 / 10) }, .iterate 1, .sailCmd { pos := some (1 / 2) }, .iterate 1,
    .rudderCmd { pos := some (3 / 10) }, .iterate 1]

/-- Two rounds for the rudder, with two ticks and with one. -/
theorem toldTwice_rudder :
    toldTwice.filterMap moored.rudderMsg = rounds (3 / 10) [2, 1] := by
  simp [toldTwice, List.filterMap_cons, rudderMsg, moored_tick, rounds]

/-- One goal for the sail, after the first tick. -/
theorem toldTwice_sail :
    toldTwice.filterMap moored.sailMsg = [.tick, .goal (1 / 2), .tick, .tick] := by
  simp [toldTwice, List.filterMap_cons, sailMsg, moored_tick]

/-- The goals are inside of the limits, and come before a servo would pass them. -/
theorem moored_steered : Steered 4 (-(6 / 10)) (6 / 10) 0 π moored toldTwice := by
  have hPart : (5 : ℝ) * moored.impl.dt = 5 / 1000 := by
    rw [moored_dt]
    norm_num
  have hPaced : ∀ ms : List (ServoMsg ℝ), ms.length ≤ 5 → Servo.Paced 4 ms := by
    intro ms hMs pre g j hPrefix
    have hLength := hPrefix.length_le
    rw [List.length_append, List.length_cons, List.length_replicate] at hLength
    omega
  refine ⟨⟨rfl, ?_, rfl⟩, by simp [toldTwice, Action.SaysPos], ⟨rfl, ?_, ?_, hPaced _ ?_, ?_, ?_⟩,
    ⟨rfl, ?_, ?_, hPaced _ ?_, ?_, ?_⟩, by norm_num⟩
  · show (-1 : ℝ) ≤ 0
    norm_num
  · show -(6 / 10) ≤ (0 : ℝ) ∧ (0 : ℝ) ≤ 6 / 10
    norm_num
  · rw [hPart]
    norm_num
  · rw [toldTwice_rudder]
    exact le_rfl
  · rw [hPart]
    norm_num
  · intro g hg
    simp [toldTwice_rudder, rounds] at hg
    rw [hg]
    norm_num
  · show 0 ≤ |(0 : ℝ)| ∧ |(0 : ℝ)| ≤ π
    rw [abs_zero]
    exact ⟨le_rfl, pi_pos.le⟩
  · rw [hPart]
    norm_num
  · rw [toldTwice_sail]
    exact Nat.le_succ 4
  · rw [hPart]
    norm_num
  · intro g hg
    simp [toldTwice_sail] at hg
    rw [hg]
    exact ⟨by norm_num, by linarith [two_le_pi]⟩

/-- All of it happens. -/
theorem moored_run {as : List (Action ℝ)} (h : as <+: toldTwice) :
    ∃ s', run (step id fun _ => (.zero, 1)) moored as = some s' := by
  have hTime : ∀ a ∈ toldTwice, moored.InTime a := by
    have hOne : moored.startTime ≤ 1 ∧ 1 ≤ moored.endTime := by
      show (0 : ℝ) ≤ 1 ∧ (1 : ℝ) ≤ 10
      norm_num
    simp [toldTwice, InTime, hOne]
  obtain ⟨s', hrun, -⟩ := run_up ⟨rfl, rfl, rfl⟩ fun a ha => hTime a (h.subset ha)
  exact ⟨s', hrun⟩

/-- After one `Iterate` the rudder has gone a two hundredth of the way. -/
theorem servos_moored :
    ∃ s', run (step id fun _ => (.zero, 1)) moored
        [.rudderCmd { pos := some (3 / 10) }, .iterate 1] = some s' ∧
      s'.impl.deltar = 3 / 10 / 200 := by
  have hPrefix : [.rudderCmd { pos := some (3 / 10) }, .iterate 1] <+: toldTwice := ⟨_, rfl⟩
  obtain ⟨s', hrun⟩ := moored_run hPrefix
  refine ⟨s', hrun,
    (congrArg Servo.pos (servos (moored_steered.initial hPrefix) hrun).1).trans ?_⟩
  simp only [List.filterMap_cons, List.filterMap_nil, rudderMsg, moored_tick, Option.map_some,
    Servo.after, List.foldl_cons, List.foldl_nil, Servo.step, rudder]
  rw [moored_dt]
  show (0 : ℝ) + 5 * (3 / 10 - 0) * (1 / 1000) = 3 / 10 / 200
  norm_num

/-- **One goal, again and again.** When the rudder is told one position again and again, every
`Iterate` that follows takes a part of the error away, and those after the first in a round do not
bring it back. -/
theorem told_again {goal : ℝ} {js : List Nat} (h : Steered n low high lowSail highSail s as)
    (hRounds : as.filterMap s.rudderMsg = rounds goal js)
    (hrun : run (step toFloat toQuat) s as = some s') :
    |s'.impl.deltar - goal| ≤
      (1 - 5 * s.impl.dt) ^ (js.countP (0 < ·)) * |s.impl.deltar - goal| := by
  have hRudder := h.rudder
  rw [hRounds] at hRudder
  have hLeft := Servo.after_rounds_le hRudder
  rw [← hRounds, ← (run_tracks h hrun).rudder] at hLeft
  exact hLeft

/-- In two rounds two two hundredths of the error are taken away, one of what the other leaves. -/
theorem told_again_moored :
    ∃ s', run (step id fun _ => (.zero, 1)) moored toldTwice = some s' ∧
      |s'.impl.deltar - 3 / 10| ≤ (1 - 5 * (1 / 1000)) ^ 2 * |0 - 3 / 10| := by
  obtain ⟨s', hrun⟩ := moored_run (List.prefix_refl toldTwice)
  have hNear := told_again moored_steered toldTwice_rudder hrun
  rw [moored_dt] at hNear
  exact ⟨s', hrun, hNear⟩

-- ---------------------------------------------------------------------------
-- What is published
-- ---------------------------------------------------------------------------

/-- What holds of the boat after every step of the dynamics. -/
structure Afloat (b : TrivialDynamics ℝ) : Prop where
  attitude : b.rbi = TrivialDynamics.attitude b.yaw b.heel
  level    : b.v.z = 0
  deltas   : |b.deltas| ≤ π
  deltar   : |b.deltar| ≤ 6 / 10
  deltab   : |b.deltab| ≤ 15 / 10

/-- What is clamped is within the limit. -/
theorem abs_clamp_le {x limit : ℝ} (hLimit : 0 ≤ limit) : |min (max x (-limit)) limit| ≤ limit :=
  abs_le.mpr ⟨le_min (le_max_right _ _) (by linarith), min_le_right _ _⟩

/-- Whatever the dynamics are told, they leave a boat that heels and turns only. -/
theorem afloat_of_update {b b' : TrivialDynamics ℝ} {deltasIn deltarIn : ℝ}
    (h : b.update toFloat deltasIn deltarIn = some b') : Afloat b' := by
  obtain ⟨hDeltar, hDeltab, -, hLevel⟩ := TrivialDynamics.update_kept h
  obtain ⟨hDeltas, hAttitude⟩ := TrivialDynamics.update_eq_some h
  have hClamp : ∀ (x : ℝ) {low high : ℚ}, low = -high → 0 ≤ high →
      |Arith.min (Arith.max x (lit low)) (lit high)| ≤ (high : ℝ) := by
    rintro x low high rfl hHigh
    rw [Arith.min_real, Arith.max_real, Arith.lit_real, Arith.lit_real, Rat.cast_neg]
    exact abs_clamp_le (Rat.cast_nonneg.mpr hHigh)
  refine ⟨hAttitude, hLevel.trans Rat.cast_zero, ?_, ?_, ?_⟩
  · rw [hDeltas]
    exact Util.abs_normAngle_le _
  · rw [hDeltar]
    exact (hClamp deltarIn (by norm_num) (by norm_num)).trans_eq (by norm_num)
  · rw [hDeltab]
    exact (hClamp b.deltab (by norm_num) (by norm_num)).trans_eq (by norm_num)

/-- A step of the dynamics changes the boat only. -/
theorem advance_cases (h : s.advance toFloat = some s') :
    ∃ impl, s' = { s with impl := impl } ∧ Afloat impl := by
  obtain ⟨impl, hUpdate, rfl⟩ := Option.map_eq_some_iff.mp h
  refine ⟨impl, rfl, ?_⟩
  split at hUpdate
  · exact afloat_of_update hUpdate
  · exact afloat_of_update (b := { s.impl with
      deltas := _, deltar := _, deltab := _ }) hUpdate

/-- A message was published from one of the states of a run. -/
def PublishedIn (toFloat : ℝ → ℝ) (toQuat : Mat3 ℝ → Vec3 ℝ × ℝ) (s : SimulatorNode ℝ)
    (as : List (Action ℝ)) (msg : BoatState ℝ) : Prop :=
  ∃ pre t, pre <+: as ∧ run (step toFloat toQuat) s pre = some t ∧ Afloat t.impl ∧
    msg = t.stateMsg toFloat toQuat

/-- What a part of a run has published, the run has. -/
theorem PublishedIn.concat {msg : BoatState ℝ} (h : PublishedIn toFloat toQuat s as msg)
    (a : Action ℝ) : PublishedIn toFloat toQuat s (as ++ [a]) msg := by
  obtain ⟨pre, t, hPrefix, hRest⟩ := h
  exact ⟨pre, t, hPrefix.trans (List.prefix_append as [a]), hRest⟩

/-- To put the boat back does not publish anything. -/
theorem ready_stateQueue (s : SimulatorNode ℝ) (systime : ℝ) :
    (s.ready systime).stateQueue = s.stateQueue := by
  obtain ⟨started, nextReset, impl, airmar, hReady⟩ := ready_eq s systime
  rw [hReady]

/-- Only an `Iterate` moves the boat, and then it publishes the state that it leads to. -/
theorem step_cases {a : Action ℝ} (hstep : step toFloat toQuat s a = some s') :
    s'.stateQueue = s.stateQueue ∧ s'.impl.v = s.impl.v ∨
      Afloat s'.impl ∧ s'.stateQueue = s.stateQueue ++ [s'.stateMsg toFloat toQuat] := by
  cases a with
  | sailCmd cmd =>
    obtain rfl := Option.some.inj hstep
    unfold processSail
    split
    · exact .inl ⟨rfl, rfl⟩
    · split
      · exact .inl ⟨rfl, rfl⟩
      · exact .inl ⟨rfl, rfl⟩
  | rudderCmd cmd =>
    obtain rfl := Option.some.inj hstep
    unfold processRudder
    dsimp only
    split
    · exact .inl ⟨rfl, rfl⟩
    · split
      · exact .inl ⟨rfl, rfl⟩
      · exact .inl ⟨rfl, rfl⟩
  | ballastCmd cmd =>
    obtain rfl := Option.some.inj hstep
    unfold processBallast
    split
    · exact .inl ⟨rfl, rfl⟩
    · split
      · exact .inl ⟨rfl, rfl⟩
      · exact .inl ⟨rfl, rfl⟩
  | simSetWind x y z =>
    obtain rfl := Option.some.inj hstep
    exact .inl ⟨rfl, rfl⟩
  | origBoatState msg =>
    obtain rfl := Option.some.inj hstep
    exact .inl ⟨rfl, rfl⟩
  | iterate systime =>
    rcases iterate_cases hstep with ⟨-, down, rfl⟩ | ⟨-, t, hAdvance, rfl⟩
    · exact .inl ⟨rfl, rfl⟩
    · obtain ⟨impl, rfl, hAfloat⟩ := advance_cases hAdvance
      refine .inr ⟨hAfloat, ?_⟩
      rw [← ready_stateQueue s systime]
      rfl

/-- The boat never goes up or down. -/
theorem step_level {a : Action ℝ} (h : s.impl.v.z = 0)
    (hstep : step toFloat toQuat s a = some s') : s'.impl.v.z = 0 := by
  rcases step_cases hstep with ⟨-, hSame⟩ | ⟨hAfloat, -⟩
  · rw [hSame, h]
  · exact hAfloat.level

/-- By induction on the run: each message comes from the step that sent it. -/
theorem run_published (hrun : run (step toFloat toQuat) s as = some s') :
    ∀ msg ∈ s'.stateQueue, msg ∈ s.stateQueue ∨ PublishedIn toFloat toQuat s as msg := by
  induction as using List.reverseRecOn generalizing s' with
  | nil =>
    obtain rfl := Option.some.inj hrun
    exact fun msg hMsg => .inl hMsg
  | append_singleton as a ih =>
    intro msg hMsg
    obtain ⟨t, hBefore, hstep⟩ := run_concat_eq_some.mp hrun
    have hOld : msg ∈ t.stateQueue →
        msg ∈ s.stateQueue ∨ PublishedIn toFloat toQuat s (as ++ [a]) msg :=
      fun hIn => (ih hBefore msg hIn).imp_right fun h => h.concat a
    rcases step_cases hstep with ⟨hSame, -⟩ | ⟨hAfloat, hSent⟩
    · exact hOld (hSame ▸ hMsg)
    · rw [hSent] at hMsg
      rcases List.mem_append.mp hMsg with hIn | hNew
      · exact hOld hIn
      · exact .inr ⟨as ++ [a], s', List.prefix_refl _, hrun, hAfloat, List.mem_singleton.mp hNew⟩

/-- An angle and the one of the same direction in one turn. -/
theorem exists_angle (a : ℝ) :
    ∃ b, (-π < b ∧ b ≤ π) ∧ cos b = cos a ∧ sin b = sin a :=
  ⟨(a : Real.Angle).toReal, ⟨Real.Angle.neg_pi_lt_toReal _, Real.Angle.toReal_le_pi _⟩,
    Real.Angle.cos_toReal _, Real.Angle.sin_toReal _⟩

/-- What the angles are taken for: a boat that does not pitch. -/
theorem Afloat.angles {b : TrivialDynamics ℝ} (h : Afloat b) :
    ∃ roll yaw, (-π < roll ∧ roll ≤ π) ∧ (-π < yaw ∧ yaw ≤ π) ∧
      b.rbi = TrivialDynamics.attitude yaw roll ∧ Util.getRollPitchYaw b.rbi = ⟨roll, 0, yaw⟩ := by
  obtain ⟨roll, hRoll, hRollCos, hRollSin⟩ := exists_angle b.heel
  obtain ⟨yaw, hYaw, hYawCos, hYawSin⟩ := exists_angle b.yaw
  have hSame : b.rbi = TrivialDynamics.attitude yaw roll := by
    rw [h.attitude, TrivialDynamics.attitude_real, TrivialDynamics.attitude_real, rotZ_real,
      rotX_real, rotZ_real, rotX_real, hRollCos, hRollSin, hYawCos, hYawSin]
  have hBuilt : Util.rollPitchYawToMatrix ⟨roll, 0, yaw⟩ = b.rbi := by
    have hNone : (rotY (0 : ℝ)) = 1 := by
      rw [rotY_real, cos_zero, sin_zero, neg_zero]
      exact Matrix.one_fin_three.symm
    rw [hSame, Util.rollPitchYawToMatrix_real, TrivialDynamics.attitude_real, hNone, one_mul]
  have hHalf : 0 < π / 2 := half_pos pi_pos
  refine ⟨roll, yaw, hRoll, hYaw, hSame, ?_⟩
  rw [← hBuilt]
  exact Util.matrix_of_angles hRoll ⟨neg_lt_zero.mpr hHalf, hHalf⟩ hYaw

variable {resetPeriod startTime endTime deltas deltar : ℝ} {setPos : Bool}

/-- **What is published.** In every run, every message tells of a state that the simulation was in:
a boat that heels and turns and does not pitch, with these angles; its sail, rudder and ballast are
where they can be. -/
theorem published
    (hrun : run (step toFloat toQuat)
      (init toFloat resetPeriod setPos startTime endTime deltas deltar) as = some s) :
    ∀ msg ∈ s.stateQueue, ∃ pre t, pre <+: as ∧
      run (step toFloat toQuat)
        (init toFloat resetPeriod setPos startTime endTime deltas deltar) pre = some t ∧
      msg = t.stateMsg toFloat toQuat ∧
      (|t.impl.deltas| ≤ π ∧ |t.impl.deltar| ≤ 6 / 10 ∧ |t.impl.deltab| ≤ 15 / 10) ∧
      ∃ roll yaw, (-π < roll ∧ roll ≤ π) ∧ (-π < yaw ∧ yaw ≤ π) ∧
        t.impl.rbi = rotZ yaw * rotX roll ∧
        msg.euler = some {
          roll := some (toFloat roll), pitch := some (toFloat 0), yaw := some (toFloat yaw) } := by
  intro msg hMsg
  rcases run_published hrun msg hMsg with hNone | ⟨pre, t, hPrefix, hPre, hAfloat, rfl⟩
  · exact absurd hNone List.not_mem_nil
  · obtain ⟨roll, yaw, hRoll, hYaw, hRbi, hAngles⟩ := hAfloat.angles
    refine ⟨pre, t, hPrefix, hPre, rfl, ⟨hAfloat.deltas, hAfloat.deltar, hAfloat.deltab⟩, roll, yaw,
      hRoll, hYaw, hRbi.trans (TrivialDynamics.attitude_real yaw roll), ?_⟩
    show some ({ roll := _, pitch := _, yaw := _ } : EulerAngles ℝ) = _
    rw [hAngles]

noncomputable def fresh : SimulatorNode ℝ := init id (-1) false 0 10 0 0

/-- The wind blows, the sail goes out at some rate, and the rudder is told a position. -/
noncomputable def sailed : List (Action ℝ) :=
  [.simSetWind 1 2 0, .iterate 1, .sailCmd { vel := some (1 / 2) },
    .rudderCmd { pos := some (3 / 10) }, .iterate 2, .iterate 3]

/-- After an `Iterate` there is a message. -/
theorem fresh_run : ∃ s, run (step id fun _ => (.zero, 1)) fresh sailed = some s ∧
    ∃ msg, msg ∈ s.stateQueue := by
  have hTimes : (fresh.startTime ≤ 1 ∧ 1 ≤ fresh.endTime) ∧
      (fresh.startTime ≤ 2 ∧ 2 ≤ fresh.endTime) ∧ fresh.startTime ≤ 3 ∧ 3 ≤ fresh.endTime := by
    show ((0 : ℝ) ≤ 1 ∧ (1 : ℝ) ≤ 10) ∧ ((0 : ℝ) ≤ 2 ∧ (2 : ℝ) ≤ 10) ∧ (0 : ℝ) ≤ 3 ∧ (3 : ℝ) ≤ 10
    norm_num
  have hAll : ∀ a ∈ sailed, fresh.InTime a := by simp [sailed, InTime, hTimes]
  obtain ⟨t, hBefore, hUp⟩ : ∃ t, run (step id fun _ => (.zero, 1)) fresh sailed.dropLast =
      some t ∧ Up fresh t :=
    run_up ⟨rfl, rfl, rfl⟩ fun a ha => hAll a (List.dropLast_subset _ ha)
  obtain ⟨s, hs⟩ : ∃ s, t.iterate id (fun _ => (.zero, 1)) 3 = some s :=
    iterate_total hUp.shutdown 3
  have hLast : step id (fun _ => (.zero, 1)) t (.iterate 3) = some s := hs
  refine ⟨s, run_concat_eq_some.mpr ⟨t, hBefore, hLast⟩, ?_⟩
  rcases iterate_cases hs with ⟨hOut, -⟩ | ⟨-, u, -, rfl⟩
  · rw [hUp.startTime, hUp.endTime] at hOut
    exact (hOut.elim hTimes.2.2.1.not_gt hTimes.2.2.2.not_gt).elim
  · exact ⟨_, List.mem_append_right _ (List.mem_singleton_self _)⟩

/-- Something is published of a boat that sails. -/
theorem published_sailed :
    ∃ s, run (step id fun _ => (.zero, 1)) fresh sailed = some s ∧
      ∃ msg ∈ s.stateQueue, ∃ roll yaw, msg.euler =
        some { roll := some roll, pitch := some 0, yaw := some yaw } := by
  obtain ⟨s, hrun, msg, hMsg⟩ := fresh_run
  obtain ⟨-, -, -, -, -, -, roll, yaw, -, -, -, hEuler⟩ := published hrun msg hMsg
  exact ⟨s, hrun, msg, hMsg, roll, yaw, hEuler⟩

/-- The boat of one simulation is as that of another; they may be in different places. -/
structure SameBoat (b b' : TrivialDynamics ℝ) : Prop where
  rbi    : b.rbi = b'.rbi
  v      : b.v = b'.v
  deltas : b.deltas = b'.deltas
  deltar : b.deltar = b'.deltar
  deltab : b.deltab = b'.deltab

/-- **Logs.** A simulation that is put to a state which another one has published goes on with its
boat: the attitude, the velocity, the sail, the rudder and the ballast are those that it had when
it was published. -/
theorem replayed {toQuat' : Mat3 ℝ → Vec3 ℝ × ℝ} {setPos' : Bool}
    {resetPeriod' startTime' endTime' deltas' deltar' : ℝ} {as' : List (Action ℝ)}
    {other : SimulatorNode ℝ}
    (hrun : run (step id toQuat)
      (init id resetPeriod setPos startTime endTime deltas deltar) as = some s)
    (hOther : run (step id toQuat')
      (init id resetPeriod' setPos' startTime' endTime' deltas' deltar') as' = some other) :
    ∀ msg ∈ s.stateQueue, ∃ pre t, pre <+: as ∧
      run (step id toQuat)
        (init id resetPeriod setPos startTime endTime deltas deltar) pre = some t ∧
      msg = t.stateMsg id toQuat ∧
      ∀ hasPos, SameBoat (other.onOrigBoatState id ⟨msg, hasPos⟩).start.impl t.impl := by
  intro msg hMsg
  have hLevel : other.impl.v.z = 0 :=
    inv_of_run_forall (fun _ _ _ => step_level) (Rat.cast_zero : ((0 : ℚ) : ℝ) = 0) hOther
  rcases run_published hrun msg hMsg with hNone | ⟨pre, t, hPrefix, hPre, hAfloat, rfl⟩
  · exact absurd hNone List.not_mem_nil
  · obtain ⟨roll, yaw, -, -, hRbi, hAngles⟩ := hAfloat.angles
    refine ⟨pre, t, hPrefix, hPre, rfl, fun hasPos => ⟨?_, ?_, rfl, rfl, rfl⟩⟩
    · have hYaw : (Util.getRollPitchYaw t.impl.rbi).z - lit 0 = yaw := by
        rw [hAngles, Arith.lit_real, Rat.cast_zero, sub_zero]
      have hRoll : (Util.getRollPitchYaw t.impl.rbi).x = roll := by rw [hAngles]
      show TrivialDynamics.attitude ((Util.getRollPitchYaw t.impl.rbi).z - lit 0)
        (Util.getRollPitchYaw t.impl.rbi).x = t.impl.rbi
      rw [hYaw, hRoll, hRbi]
    · show (⟨t.impl.v.x, t.impl.v.y, other.impl.v.z⟩ : Vec3 ℝ) = t.impl.v
      rw [hLevel, ← hAfloat.level]

/-- A simulation of the other kind, which is told a position of the rudder. -/
noncomputable def steered : SimulatorNode ℝ := init id 4 true 0 10 0 0

/-- It goes on, too. -/
theorem steered_run : ∃ s, run (step id fun _ => (.zero, 1)) steered
    [.rudderCmd { pos := some (1 / 10) }, .iterate 1] = some s := by
  have hOne : steered.startTime ≤ 1 ∧ 1 ≤ steered.endTime := by
    show (0 : ℝ) ≤ 1 ∧ (1 : ℝ) ≤ 10
    norm_num
  obtain ⟨s, hrun, -⟩ : ∃ s, run (step id fun _ => (.zero, 1)) steered
      [.rudderCmd { pos := some (1 / 10) }, .iterate 1] = some s ∧ Up steered s :=
    run_up ⟨rfl, rfl, rfl⟩ (by simp [InTime, hOne])
  exact ⟨s, hrun⟩

/-- It is put to what the other one has published on its way. -/
theorem replayed_sailed :
    ∃ s other, run (step id fun _ => (.zero, 1)) fresh sailed = some s ∧
      run (step id fun _ => (.zero, 1)) steered
        [.rudderCmd { pos := some (1 / 10) }, .iterate 1] = some other ∧
      ∃ msg ∈ s.stateQueue, ∃ pre t, pre <+: sailed ∧
        run (step id fun _ => (.zero, 1)) fresh pre = some t ∧
        msg = t.stateMsg id (fun _ => (.zero, 1)) ∧
        SameBoat (other.onOrigBoatState id ⟨msg, true⟩).start.impl t.impl := by
  obtain ⟨s, hrun, msg, hMsg⟩ := fresh_run
  obtain ⟨other, hOther⟩ := steered_run
  obtain ⟨pre, t, hPrefix, hPre, hEq, hSame⟩ := replayed hrun hOther msg hMsg
  exact ⟨s, other, hrun, hOther, msg, hMsg, pre, t, hPrefix, hPre, hEq, hSame true⟩

end SimulatorNode

end Sailbot.Sim

import Sailbot.Control.Adaptive
import Sailbot.Control.Angle
import Sailbot.Control.CostGradient
import Sailbot.Lib.Least

/-!
# The search of the adaptive controller

`GlobalMaxForceForTorque` (`control/adaptive.cc`) tries positions of the sail. For each of them it
computes the position of the rudder which gives the torque that is asked for, and it keeps the one
with the least cost: little force along the boat costs, and so does a torque that is missed.

* `ControlPhysics.trial`          — one position of the sail.
* `ControlPhysics.globalMaxForceForTorque` — the loop.
* `ControlPhysics.search_least`   — what it finds.
* `ControlPhysics.search_quadratic`, `trial_torque` — it always finds something with the quadratic
  cost, and the torque that this gives.
-/

namespace Sailbot.Control

open Lib
open Lib.Arith (lit)

/-- `ControlPhysics::Constraint`. -/
inductive Constraint
  | quadratic
  | starboard
  | port
  deriving DecidableEq, Repr

/-- The weights of a cost. -/
structure CostWeights (R : Type) where
  qf      : R
  qtaumax : R
  qtaueq  : R

namespace ControlPhysics

/-- A position of the sail with the one of the rudder, the torque of the two and their cost. -/
structure Trial (R : Type) where
  deltas : R
  deltar : R
  taue   : R
  cost   : R

/-- What the loop has found. Nothing is written before the first trial that costs less than
infinity. -/
structure Found (R : Type) where
  success : Bool := false
  best    : Option (Trial R) := none

variable {R : Type} [Arith R]

/-- The weights of the constructor. -/
def initWeights : CostWeights R where
  qf := lit 1
  qtaumax := lit (4 / 10)
  qtaueq := lit (4 / 100)

variable (q : CostWeights R) (c : BoatConstants R)

/-- The position of the rudder for a torque; the `cthetac` of the source is not used. -/
def rudderForTorque (taus tauk taugoal heel thetac vc : R) : R :=
  let denom := lit (1 / 2) * c.rudder.rho * c.rudder.area * vc * vc * c.rudder.k *
    Arith.cos thetac * Arith.cos heel * c.rr
  (taugoal - taus - tauk - c.taubias) / denom - thetac

def clipRudder (deltar thetac : R) : R :=
  let maxrud := c.rudder.maxalpha
  Arith.max (Arith.min deltar (maxrud - thetac)) (-maxrud - thetac)

/-- The first and the last position of the sail, between which the wind fills it. -/
def sailLimits (thetaw : R) : R × R :=
  let maxsail := Arith.abs (Util.normAngle (Arith.mPi - thetaw))
  let minsail := Arith.max (maxsail - halfPi) (lit 0)
  let maxsail := Arith.min maxsail halfPi
  (if Arith.lt (lit 0) thetaw then minsail else -maxsail,
    if Arith.lt thetaw (lit 0) then -minsail else maxsail)

/-- The position of the sail in a round. -/
def trialSail (thetaw : R) (nsteps : Int) (ii : Nat) : R :=
  let (minds, maxds) := sailLimits thetaw
  let deltadeltas := (maxds - minds) / lit (max 1 (nsteps - 1) : Int)
  minds + lit ii * deltadeltas

/-- The position of the rudder before its limits are checked. -/
def trialRudder (thetac : R) (constraint : Constraint) (demand : R) : R :=
  match constraint with
  | .quadratic => clipRudder c demand thetac
  | .starboard =>
    Arith.max demand (Util.clip (c.rudder.maxalpha - thetac) (lit 0) (lit (1 / 2)))
  | .port => Arith.min demand (Util.clip (-c.rudder.maxalpha - thetac) (lit (-1 / 2)) (lit 0))

/-- What is added to the cost of the force. -/
def torqueCost (constraint : Constraint) (taug taue : R) : R :=
  match constraint with
  | .quadratic => q.qtaueq * (taue - taug) * (taue - taug)
  | .starboard => q.qtaumax * taue
  | .port => -q.qtaumax * taue

/-- The torque and the cost of a position of the sail with one of the rudder. -/
def evaluate (thetaw vw thetac vc taug : R) (constraint : Constraint) (trialds trialdr : R) :
    Trial R :=
  let s := sailForce c thetaw vw trialds
  let k := keelForce c thetac vc
  let heel := calcHeel c s k
  let taus := sailTorque c s trialds heel
  let tauk := keelTorque c k heel
  let r := rudderForce c thetac vc trialdr
  let taur := rudderTorque c r heel
  let flon := s.force * Arith.cos s.gamma + k.force * Arith.cos k.gamma +
    r.force * Arith.cos r.gamma
  let taue := taus + tauk + taur + c.taubias
  { deltas := trialds
    deltar := trialdr
    taue := taue
    cost := -q.qf * flon + torqueCost q constraint taug taue }

/-- One round; there is no trial if the rudder would be beyond its limits. -/
def trial (thetaw vw thetac vc taug : R) (constraint : Constraint) (nsteps : Int) (ii : Nat) :
    Option (Trial R) :=
  let trialds := trialSail thetaw nsteps ii
  let s := sailForce c thetaw vw trialds
  let k := keelForce c thetac vc
  let heel := calcHeel c s k
  let taus := sailTorque c s trialds heel
  let tauk := keelTorque c k heel
  let trialdr := trialRudder c thetac constraint (rudderForTorque c taus tauk taug heel thetac vc)
  if Arith.eq (clipRudder c trialdr thetac) trialdr then
    some (evaluate q c thetaw vw thetac vc taug constraint trialds trialdr)
  else none

/-- `GlobalMaxForceForTorque`. -/
def globalMaxForceForTorque (thetaw vw thetac vc taug : R) (constraint : Constraint)
    (nsteps : Int) : Found R :=
  (List.range nsteps.toNat).foldl (fun found ii =>
    match trial q c thetaw vw thetac vc taug constraint nsteps ii with
    | none => found
    | some t => { success := true, best := Arith.keepLeast Trial.cost found.best t }) {}

-- ---------------------------------------------------------------------------
-- What is found
-- ---------------------------------------------------------------------------

variable {q c} {thetaw vw thetac vc taug : R} {constraint : Constraint} {nsteps : Int}

variable (q c thetaw vw thetac vc taug constraint nsteps) in
/-- All the trials, in their order. -/
def trials : List (Trial R) :=
  (List.range nsteps.toNat).filterMap (trial q c thetaw vw thetac vc taug constraint nsteps)

/-- The loop is a search for the least cost among the trials. -/
theorem globalMaxForceForTorque_eq :
    globalMaxForceForTorque q c thetaw vw thetac vc taug constraint nsteps =
      { success := !(trials q c thetaw vw thetac vc taug constraint nsteps).isEmpty
        best := (trials q c thetaw vw thetac vc taug constraint nsteps).foldl
          (Arith.keepLeast Trial.cost) none } := by
  have hRounds : ∀ (l : List Nat) (found : Found R),
      l.foldl (fun found ii =>
        match trial q c thetaw vw thetac vc taug constraint nsteps ii with
        | none => found
        | some t =>
          { success := true, best := Arith.keepLeast Trial.cost found.best t }) found =
      { success := found.success ||
          !(l.filterMap (trial q c thetaw vw thetac vc taug constraint nsteps)).isEmpty
        best := (l.filterMap (trial q c thetaw vw thetac vc taug constraint nsteps)).foldl
          (Arith.keepLeast Trial.cost) found.best } := by
    intro l
    induction l with
    | nil =>
      intro found
      rw [List.foldl_nil, List.filterMap_nil, List.foldl_nil, List.isEmpty_nil, Bool.not_true,
        Bool.or_false]
    | cons ii l ih =>
      intro found
      rw [List.foldl_cons, ih]
      cases hTrial : trial q c thetaw vw thetac vc taug constraint nsteps ii with
      | none => rw [List.filterMap_cons_none hTrial]
      | some t =>
        rw [List.filterMap_cons_some hTrial, List.foldl_cons, List.isEmpty_cons, Bool.not_false,
          Bool.or_true, Bool.true_or]
  rw [globalMaxForceForTorque, hRounds, Bool.false_or]
  rfl

/-- The trials are those of the loop. -/
theorem mem_trials {t : Trial R} :
    t ∈ trials q c thetaw vw thetac vc taug constraint nsteps ↔
      ∃ ii : Nat, (ii : Int) < nsteps ∧
        trial q c thetaw vw thetac vc taug constraint nsteps ii = some t := by
  rw [trials, List.mem_filterMap]
  constructor
  · rintro ⟨ii, hMem, hTrial⟩
    have := List.mem_range.mp hMem
    exact ⟨ii, by omega, hTrial⟩
  · rintro ⟨ii, hLt, hTrial⟩
    exact ⟨ii, List.mem_range.mpr (by omega), hTrial⟩

/-- The rudder of a trial is within its limits. -/
theorem trial_limits {ii : Nat} {t : Trial R}
    (h : trial q c thetaw vw thetac vc taug constraint nsteps ii = some t) :
    Arith.eq (clipRudder c t.deltar thetac) t.deltar = true := by
  unfold trial at h
  dsimp only at h
  split at h
  · next hLimits =>
    obtain rfl := Option.some.inj h
    exact hLimits
  · cases h

variable (q c thetaw vw thetac vc taug constraint nsteps) in
/-- **Search.** The search succeeds if and only if a position of the sail has a rudder that is
within its limits. What it finds is the first of the positions that no other one is better than, and
its rudder is within its limits; it finds nothing only if all costs are infinite or no numbers. -/
theorem search_least [Arith.StrictOrder R] [Arith.BelowInf R] :
    let found := globalMaxForceForTorque q c thetaw vw thetac vc taug constraint nsteps
    let l := trials q c thetaw vw thetac vc taug constraint nsteps
    (found.success = true ↔ ∃ ii : Nat, (ii : Int) < nsteps ∧
      (trial q c thetaw vw thetac vc taug constraint nsteps ii).isSome = true) ∧
    (found.best = none ↔ ∀ t ∈ l, Arith.ltInf t.cost = false) ∧
    ∀ t, found.best = some t → Arith.IsLeast Trial.cost l t ∧
      Arith.eq (clipRudder c t.deltar thetac) t.deltar = true := by
  intro found l
  have hFound : found = {
      success := !l.isEmpty, best := l.foldl (Arith.keepLeast Trial.cost) none } :=
    globalMaxForceForTorque_eq
  rw [hFound]
  refine ⟨?_, Arith.least_none_iff, ?_⟩
  · rw [Bool.not_eq_true', List.isEmpty_eq_false_iff_exists_mem]
    constructor
    · rintro ⟨t, hMem⟩
      obtain ⟨ii, hLt, hTrial⟩ := mem_trials.mp hMem
      exact ⟨ii, hLt, by rw [hTrial]; rfl⟩
    · rintro ⟨ii, hLt, hTrial⟩
      obtain ⟨t, ht⟩ := Option.isSome_iff_exists.mp hTrial
      exact ⟨t, mem_trials.mpr ⟨ii, hLt, ht⟩⟩
  · intro t hBest
    have hLeast := Arith.least_isLeast hBest
    obtain ⟨ii, -, hTrial⟩ := mem_trials.mp hLeast.mem
    exact ⟨hLeast, trial_limits hTrial⟩

-- ---------------------------------------------------------------------------
-- The torque of the rudder
-- ---------------------------------------------------------------------------

section Exact

open Real

variable (c : BoatConstants ℝ) (thetaw vw thetac vc taug heel ds : ℝ)

/-- The torque by the angle of the rudder to the water. -/
noncomputable def rudderGain : ℝ :=
  1 / 2 * c.rudder.rho * c.rudder.area * vc * vc * c.rudder.k * cos thetac * cos heel * c.rr

/-- The angle within its limits. -/
noncomputable def clampAlpha (alpha : ℝ) : ℝ :=
  max (min alpha c.rudder.maxalpha) (-c.rudder.maxalpha)

/-- The rudder is clipped in the direction of the water. -/
theorem clipRudder_real (alpha : ℝ) :
    clipRudder c (alpha - thetac) thetac = clampAlpha c alpha - thetac := by
  rw [clipRudder, Arith.max_real, Arith.min_real, min_sub_sub_right, max_sub_sub_right]
  rfl

/-- A clamped angle is within its limit. -/
theorem abs_clampAlpha_le (hMax : 0 ≤ c.rudder.maxalpha) (alpha : ℝ) :
    |clampAlpha c alpha| ≤ c.rudder.maxalpha := by
  rw [clampAlpha, abs_le]
  exact ⟨le_max_right _ _, max_le (min_le_right _ _) (by linarith)⟩

/-- An angle within the limit is not clamped. -/
theorem clampAlpha_of_abs_le {alpha : ℝ} (h : |alpha| ≤ c.rudder.maxalpha) :
    clampAlpha c alpha = alpha := by
  obtain ⟨hLow, hHigh⟩ := abs_le.mp h
  rw [clampAlpha, min_eq_left hHigh, max_eq_left hLow]

/-- The rudder for a torque, before it is clipped. -/
theorem rudderForTorque_real (taus tauk : ℝ) :
    rudderForTorque c taus tauk taug heel thetac vc =
      (taug - taus - tauk - c.taubias) / rudderGain c thetac vc heel - thetac := by
  have hHalf : (lit (1 / 2) : ℝ) = 1 / 2 := by
    rw [Arith.lit_real]
    norm_num
  rw [rudderForTorque, hHalf]
  rfl

/-- A quarter turn. -/
theorem halfPi_real : (halfPi : ℝ) = π / 2 := by
  show π / ((2 : ℚ) : ℝ) = π / 2
  norm_num

/-- The torque of a rudder that is at the angle `alpha` to the water. -/
theorem rudderTorque_of_alpha {alpha : ℝ} (hMax : |alpha| ≤ c.rudder.maxalpha)
    (hPi : c.rudder.maxalpha ≤ π) (hCos : cos thetac ≠ 0) :
    rudderTorque c (rudderForce c thetac vc (alpha - thetac)) heel =
      rudderGain c thetac vc heel *
        (cos c.rudder.drageps * alpha + sin c.rudder.drageps * tan thetac * |alpha|) := by
  have hHalf : (lit (1 / 2) : ℝ) = 1 / 2 := by
    rw [Arith.lit_real]
    norm_num
  have hAngle : -Util.normAngle (thetac + (alpha - thetac)) = -alpha := by
    rw [add_sub_cancel, Util.normAngle_of_abs_le (hMax.trans hPi)]
  have hForce : (rudderForce c thetac vc (alpha - thetac)).force =
      1 / 2 * c.rudder.rho * c.rudder.area * vc * vc * (c.rudder.k * |alpha|) := by
    show airfoilForce c.rudder vc (c.rudder.k * Arith.min (Arith.abs (-Util.normAngle _)) _) = _
    rw [hAngle, Arith.abs_real, abs_neg, Arith.min_real, min_eq_left hMax, airfoilForce, hHalf]
  have hGamma : sin (rudderForce c thetac vc (alpha - thetac)).gamma =
      -sin ((π / 2 - c.rudder.drageps) * Util.sign (-alpha) - thetac) := by
    show sin (Util.normAngle ((halfPi - c.rudder.drageps) *
      Util.sign (-Util.normAngle (thetac + (alpha - thetac))) - thetac + π)) = _
    rw [Util.sin_normAngle, sin_add_pi, hAngle, halfPi_real]
  have hTan : tan thetac * cos thetac = sin thetac := tan_mul_cos hCos
  rw [rudderTorque, hForce, rudderGain]
  show _ * c.rr * sin _ * cos heel = _
  rw [hGamma]
  rcases lt_trichotomy alpha 0 with hNeg | rfl | hPos
  · have hSin : sin (π / 2 - c.rudder.drageps - thetac) =
        cos c.rudder.drageps * cos thetac - sin c.rudder.drageps * sin thetac := by
      rw [sub_sub, sin_pi_div_two_sub, cos_add]
    rw [LineCost.sign_real, sign_pos (neg_pos.mpr hNeg), SignType.coe_one, mul_one, hSin,
      abs_of_neg hNeg, ← hTan]
    ring
  · rw [abs_zero]
    ring
  · have hSin : sin (-(π / 2 - c.rudder.drageps) - thetac) =
        -(cos c.rudder.drageps * cos thetac + sin c.rudder.drageps * sin thetac) := by
      rw [← neg_add', sin_neg, sub_add, sin_pi_div_two_sub, cos_sub]
    rw [LineCost.sign_real, sign_neg (neg_lt_zero.mpr hPos), SignType.coe_neg_one, mul_neg_one,
      hSin, abs_of_pos hPos, ← hTan]
    ring

variable (q : CostWeights ℝ) (nsteps : Int) (ii : Nat)

/-- The torque that the rudder is asked for when the sail is at `ds`. -/
noncomputable def torqueDemand : ℝ :=
  let s := sailForce c thetaw vw ds
  let k := keelForce c thetac vc
  let heel := calcHeel c s k
  taug - sailTorque c s ds heel - keelTorque c k heel - c.taubias

/-- The torque by the angle of the rudder when the sail is at `ds`. -/
noncomputable def gainAt : ℝ :=
  rudderGain c thetac vc (calcHeel c (sailForce c thetaw vw ds) (keelForce c thetac vc))

/-- With the quadratic cost, every position of the sail is a trial. Its rudder is at the angle that
is asked for, within its limits. -/
theorem trial_quadratic (hMax : 0 ≤ c.rudder.maxalpha) (hPi : c.rudder.maxalpha ≤ π)
    (hCos : cos thetac ≠ 0) :
    ∃ t, trial q c thetaw vw thetac vc taug .quadratic nsteps ii = some t ∧
      t.deltas = trialSail thetaw nsteps ii ∧
      t.deltar = clampAlpha c (torqueDemand c thetaw vw thetac vc taug t.deltas /
        gainAt c thetaw vw thetac vc t.deltas) - thetac ∧
      t.taue = taug - torqueDemand c thetaw vw thetac vc taug t.deltas +
        gainAt c thetaw vw thetac vc t.deltas *
          (cos c.rudder.drageps * (t.deltar + thetac) +
            sin c.rudder.drageps * tan thetac * |t.deltar + thetac|) := by
  set ds := trialSail thetaw nsteps ii with hDs
  set s := sailForce c thetaw vw ds with hS
  set k := keelForce c thetac vc with hK
  set heel := calcHeel c s k with hHeel
  set alpha := clampAlpha c (torqueDemand c thetaw vw thetac vc taug ds /
    gainAt c thetaw vw thetac vc ds) with hAlpha
  have hRudder : trialRudder c thetac .quadratic
      (rudderForTorque c (sailTorque c s ds heel) (keelTorque c k heel) taug heel thetac vc) =
        alpha - thetac := by
    rw [trialRudder, rudderForTorque_real, clipRudder_real]
    rfl
  have hAbs : |alpha| ≤ c.rudder.maxalpha := abs_clampAlpha_le c hMax _
  have hClip : Arith.eq (clipRudder c (alpha - thetac) thetac) (alpha - thetac) = true := by
    rw [Arith.eq_real, clipRudder_real, clampAlpha_of_abs_le c hAbs]
  have hTorque := rudderTorque_of_alpha c thetac vc heel hAbs hPi hCos
  refine ⟨evaluate q c thetaw vw thetac vc taug .quadratic ds (alpha - thetac), ?_, rfl, rfl, ?_⟩
  · unfold trial
    dsimp only
    rw [← hDs, ← hS, ← hK, ← hHeel, hRudder, if_pos hClip]
  · show sailTorque c s ds heel + keelTorque c k heel +
      rudderTorque c (rudderForce c thetac vc (alpha - thetac)) heel + c.taubias =
        taug - (taug - sailTorque c s ds heel - keelTorque c k heel - c.taubias) +
          rudderGain c thetac vc heel * (cos c.rudder.drageps * (alpha - thetac + thetac) +
            sin c.rudder.drageps * tan thetac * |alpha - thetac + thetac|)
    rw [hTorque, sub_add_cancel]
    ring

variable {c thetaw vw vc taug}

/-- The boat does not heel over. -/
theorem cos_calcHeel_pos (s k : Force ℝ) : 0 < cos (calcHeel c s k) := by
  have hOne : (lit 1 : ℝ) = 1 := Rat.cast_one
  have hNe : (⟨1, (s.force * c.hs * sin s.gamma + k.force * c.hk * sin k.gamma) /
      (c.hb * c.m * c.g)⟩ : ℂ) ≠ 0 := by
    intro hZero
    exact one_ne_zero (congrArg Complex.re hZero)
  show 0 < cos (Complex.arg ⟨lit 1, _⟩)
  rw [hOne]
  exact Complex.cos_arg hNe ▸ div_pos one_pos (norm_pos_iff.mpr hNe)

/-- The rudder of a boat that moves has an effect. -/
theorem gainAt_ne_zero (hVc : vc ≠ 0)
    (hFoil : c.rudder.rho * c.rudder.area * c.rudder.k * c.rr ≠ 0) :
    gainAt c thetaw vw 0 vc ds ≠ 0 := by
  have hHeel := (cos_calcHeel_pos (c := c) (sailForce c thetaw vw ds) (keelForce c 0 vc)).ne'
  have hSplit : gainAt c thetaw vw 0 vc ds =
      c.rudder.rho * c.rudder.area * c.rudder.k * c.rr * (1 / 2 * (vc * vc)) *
        cos (calcHeel c (sailForce c thetaw vw ds) (keelForce c 0 vc)) := by
    rw [gainAt, rudderGain, cos_zero]
    ring
  rw [hSplit]
  exact mul_ne_zero (mul_ne_zero hFoil (by positivity)) hHeel

/-- What a rudder within its limits can do about a torque: all of it but for the drag, or as much
as it can at its limit. -/
def TorqueReached (eps maxalpha demand gain deltar error : ℝ) : Prop :=
  (|demand| ≤ maxalpha * |gain| → deltar = demand / gain ∧ error = (cos eps - 1) * demand) ∧
  (maxalpha * |gain| < |demand| →
    |deltar| = maxalpha ∧ |error| = |demand| - cos eps * (maxalpha * |gain|))

/-- The torque is reached with the clamped angle, if the gain is not zero. -/
theorem torqueReached (demand : ℝ) {gain : ℝ} (hMax : 0 ≤ c.rudder.maxalpha) (hGain : gain ≠ 0) :
    TorqueReached c.rudder.drageps c.rudder.maxalpha demand gain
      (clampAlpha c (demand / gain))
      (gain * (cos c.rudder.drageps * clampAlpha c (demand / gain)) - demand) := by
  obtain ⟨d, rfl⟩ : ∃ d, demand = d * gain := ⟨demand / gain, (div_mul_cancel₀ _ hGain).symm⟩
  have hPos : 0 < |gain| := abs_pos.mpr hGain
  have hLess : cos c.rudder.drageps * c.rudder.maxalpha ≤ c.rudder.maxalpha :=
    mul_le_of_le_one_left hMax (cos_le_one _)
  rw [mul_div_cancel_right₀ _ hGain, TorqueReached, abs_mul]
  constructor
  · intro hLe
    rw [clampAlpha_of_abs_le c (le_of_mul_le_mul_right hLe hPos), mul_div_cancel_right₀ _ hGain]
    exact ⟨rfl, by ring⟩
  · intro hGt
    rcases lt_abs.mp (lt_of_mul_lt_mul_right hGt hPos.le) with hHigh | hLow
    · have hLimit : clampAlpha c d = c.rudder.maxalpha := by
        rw [clampAlpha, min_eq_right hHigh.le, max_eq_left (by linarith)]
      have hError : gain * (cos c.rudder.drageps * c.rudder.maxalpha) - d * gain =
          -((d - cos c.rudder.drageps * c.rudder.maxalpha) * gain) := by ring
      rw [hLimit, abs_of_nonneg hMax, hError, abs_neg, abs_mul, abs_of_nonneg (by linarith),
        abs_of_pos (hMax.trans_lt hHigh)]
      exact ⟨rfl, by ring⟩
    · have hLimit : clampAlpha c d = -c.rudder.maxalpha := by
        rw [clampAlpha, min_eq_left (by linarith), max_eq_right (by linarith)]
      have hError : gain * (cos c.rudder.drageps * -c.rudder.maxalpha) - d * gain =
          (-d - cos c.rudder.drageps * c.rudder.maxalpha) * gain := by ring
      have hNeg : d < 0 := by linarith
      have hShort : 0 ≤ -d - cos c.rudder.drageps * c.rudder.maxalpha := by linarith
      rw [hLimit, abs_neg, abs_of_nonneg hMax, hError, abs_mul, abs_of_nonneg hShort,
        abs_of_neg hNeg]
      exact ⟨rfl, by ring⟩

variable (c thetaw vw vc taug) in
/-- With the quadratic cost, the search finds the cheapest of all the positions of the sail. -/
theorem search_quadratic {nsteps : Int} (hSteps : 0 < nsteps) (hMax : 0 ≤ c.rudder.maxalpha)
    (hPi : c.rudder.maxalpha ≤ π) (hCos : cos thetac ≠ 0) :
    ∃ t, globalMaxForceForTorque q c thetaw vw thetac vc taug .quadratic nsteps =
        { success := true, best := some t } ∧
      (∃ ii : Nat, (ii : Int) < nsteps ∧
        trial q c thetaw vw thetac vc taug .quadratic nsteps ii = some t) ∧
      ∀ ii : Nat, (ii : Int) < nsteps → ∃ t',
        trial q c thetaw vw thetac vc taug .quadratic nsteps ii = some t' ∧ t.cost ≤ t'.cost := by
  obtain ⟨first, hFirst, -⟩ :=
    trial_quadratic c thetaw vw thetac vc taug q nsteps 0 hMax hPi hCos
  have hMem : first ∈ trials q c thetaw vw thetac vc taug .quadratic nsteps :=
    mem_trials.mpr ⟨0, by exact_mod_cast hSteps, hFirst⟩
  obtain ⟨t, hBest⟩ : ∃ t, (trials q c thetaw vw thetac vc taug .quadratic nsteps).foldl
      (Arith.keepLeast Trial.cost) none = some t := by
    refine Option.ne_none_iff_exists'.mp ?_
    intro hNone
    cases Arith.least_none_iff.mp hNone first hMem
  have hLeast := Arith.least_isLeast hBest
  refine ⟨t, ?_, mem_trials.mp hLeast.mem, ?_⟩
  · rw [globalMaxForceForTorque_eq, hBest, List.isEmpty_eq_false_iff_exists_mem.mpr ⟨_, hMem⟩,
      Bool.not_false]
  · intro ii hLt
    obtain ⟨t', ht', -⟩ := trial_quadratic c thetaw vw thetac vc taug q nsteps ii hMax hPi hCos
    have hNot := hLeast.least t' (mem_trials.mpr ⟨ii, hLt, ht'⟩)
    exact ⟨t', ht', not_lt.mp (mt Arith.lt_real.mpr (Bool.eq_false_iff.mp hNot))⟩

/-- Without leeway, the torque of a trial misses the one that is asked for by the drag of the rudder
only, or by what the rudder cannot do at its limit. -/
theorem trial_torque {nsteps : Int} {t : Trial ℝ} (hMax : 0 ≤ c.rudder.maxalpha)
    (hPi : c.rudder.maxalpha ≤ π) (hVc : vc ≠ 0)
    (hFoil : c.rudder.rho * c.rudder.area * c.rudder.k * c.rr ≠ 0)
    (h : trial q c thetaw vw 0 vc taug .quadratic nsteps ii = some t) :
    TorqueReached c.rudder.drageps c.rudder.maxalpha
      (torqueDemand c thetaw vw 0 vc taug t.deltas) (gainAt c thetaw vw 0 vc t.deltas)
      t.deltar (t.taue - taug) := by
  obtain ⟨t', ht', -, hRudder, hTaue⟩ := trial_quadratic c thetaw vw 0 vc taug q nsteps ii hMax hPi
    (by rw [cos_zero]; exact one_ne_zero)
  obtain rfl := Option.some.inj (h.symm.trans ht')
  rw [sub_zero] at hRudder
  rw [add_zero, tan_zero, mul_zero, zero_mul, add_zero] at hTaue
  have hGain : gainAt c thetaw vw 0 vc t.deltas ≠ 0 := gainAt_ne_zero t.deltas hVc hFoil
  have hReached := torqueReached (torqueDemand c thetaw vw 0 vc taug t.deltas) hMax hGain
  rw [← hRudder] at hReached
  have hError : t.taue - taug = gainAt c thetaw vw 0 vc t.deltas *
      (cos c.rudder.drageps * t.deltar) - torqueDemand c thetaw vw 0 vc taug t.deltas := by
    rw [hTaue]
    ring
  rw [hError]
  exact hReached

/-- The sail is at most square to the boat. -/
theorem abs_sailLimits_le (thetaw : ℝ) :
    |(sailLimits thetaw).1| ≤ π / 2 ∧ |(sailLimits thetaw).2| ≤ π / 2 := by
  have hPos := pi_pos
  have hZero : (lit 0 : ℝ) = 0 := Rat.cast_zero
  have hNorm := Util.abs_normAngle_le (π - thetaw)
  have hMax : |min |Util.normAngle (π - thetaw)| (π / 2)| ≤ π / 2 := by
    rw [abs_of_nonneg (le_min (abs_nonneg _) (by positivity))]
    exact min_le_right _ _
  have hMin : |max (|Util.normAngle (π - thetaw)| - π / 2) 0| ≤ π / 2 := by
    rw [abs_of_nonneg (le_max_right _ _)]
    exact max_le (by linarith) (by positivity)
  have hMinds : (sailLimits thetaw).1 =
      if Arith.lt (lit 0) thetaw then max (|Util.normAngle (π - thetaw)| - π / 2) 0
      else -min |Util.normAngle (π - thetaw)| (π / 2) := by
    rw [← hZero, ← Arith.max_real, ← Arith.min_real, ← halfPi_real, ← Arith.abs_real]
    rfl
  have hMaxds : (sailLimits thetaw).2 =
      if Arith.lt thetaw (lit 0) then -max (|Util.normAngle (π - thetaw)| - π / 2) 0
      else min |Util.normAngle (π - thetaw)| (π / 2) := by
    rw [← hZero, ← Arith.max_real, ← Arith.min_real, ← halfPi_real, ← Arith.abs_real]
    rfl
  rw [hMinds, hMaxds]
  constructor
  · split
    · exact hMin
    · rwa [abs_neg]
  · split
    · rwa [abs_neg]
    · exact hMax

/-- The sail of a trial is within its limit. -/
theorem abs_trialSail_le {nsteps : Int} (hLt : (ii : Int) < nsteps) (thetaw : ℝ) :
    |trialSail thetaw nsteps ii| ≤ π / 2 := by
  obtain ⟨hMinds, hMaxds⟩ := abs_sailLimits_le thetaw
  set minds := (sailLimits thetaw).1
  set maxds := (sailLimits thetaw).2
  -- the position is between the two limits
  have hCount : (0 : ℝ) < ((max 1 (nsteps - 1) : Int) : ℝ) := by
    exact_mod_cast (lt_of_lt_of_le one_pos (le_max_left _ _) : (0 : Int) < max 1 (nsteps - 1))
  obtain ⟨w, hw⟩ : ∃ w : ℝ, w = (ii : ℝ) / ((max 1 (nsteps - 1) : Int) : ℝ) := ⟨_, rfl⟩
  have hNonneg : 0 ≤ w := hw ▸ div_nonneg (Nat.cast_nonneg _) hCount.le
  have hLe : w ≤ 1 := by
    rw [hw, div_le_one hCount]
    exact_mod_cast (by omega : (ii : Int) ≤ max 1 (nsteps - 1))
  have hTrial : trialSail thetaw nsteps ii = (1 - w) * minds + w * maxds := by
    show minds + ((ii : ℚ) : ℝ) * ((maxds - minds) / (((max 1 (nsteps - 1) : Int) : ℚ) : ℝ)) = _
    rw [Rat.cast_natCast, Rat.cast_intCast, hw]
    field_simp
    ring
  calc |trialSail thetaw nsteps ii|
      ≤ |(1 - w) * minds| + |w * maxds| := hTrial ▸ abs_add_le _ _
    _ = (1 - w) * |minds| + w * |maxds| := by
      rw [abs_mul, abs_mul, abs_of_nonneg hNonneg, abs_of_nonneg (by linarith)]
    _ ≤ (1 - w) * (π / 2) + w * (π / 2) := by gcongr
    _ = π / 2 := by ring

/-- The constants of the constructor, in a wind of five meters per second and at a speed of two
meters per second: the search succeeds. -/
theorem search_least_init :
    (globalMaxForceForTorque initWeights init 1 5 0 2 0 .quadratic 20 : Found ℝ).success =
      true := by
  have hMax : (init : BoatConstants ℝ).rudder.maxalpha = 1 / 4 := by
    show ((25 / 100 : ℚ) : ℝ) = 1 / 4
    norm_num
  obtain ⟨t, ht, -⟩ := trial_quadratic (init : BoatConstants ℝ) 1 5 0 2 0 initWeights 20 0
    (by rw [hMax]; norm_num) (by rw [hMax]; linarith [pi_gt_three])
    (by rw [cos_zero]; exact one_ne_zero)
  exact (search_least initWeights (init : BoatConstants ℝ) 1 5 0 2 0 .quadratic 20).1.mpr
    ⟨0, by norm_num, by rw [ht]; rfl⟩

end Exact

end ControlPhysics

end Sailbot.Control

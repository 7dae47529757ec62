import Sailbot.Control.LinePlan

/-!
# The frame of the planner

The planner computes in meters from a reference point, and keeps what it has received in
degrees. The reference moves with the boat. Everything in meters is computed again from the
degrees whenever the reference or the degrees change, for every arithmetic.

Before the first `boat_state` there is no position of the boat, and before the second one no
position before it.

* `LinePlan.Coherent`         — everything in meters is what the code computes from the degrees.
* `LinePlan.waypointsFit_iff` — the gates are those that `UpdateWaypoints` leaves as they are.
* `LinePlan.caches_coherent`  — all of it fits, from the second `boat_state` on.
-/

namespace Sailbot.Control.LinePlan

open Lib Math LinePath
open Lib.Arith (lit litf)

variable {R : Type} [Arith R] {v : Bool} {s t : LinePlan R} {a : LinePlanMsg R}

/-- The gates are those of the waypoints in the frame, if there are waypoints. -/
def WaypointsFit (s : LinePlan R) : Prop :=
  s.waypointsLonLat.length = 0 ∨
    s.waypoints = course s.repeatWaypoints (s.waypointsLonLat.map s.lonLatToFrame)

/-- Positions, obstacles and gates are what the current reference makes of their longitudes and
latitudes. -/
structure Coherent (s : LinePlan R) : Prop where
  boatPos     : s.boatPos = s.lonLatToFrame s.boatPosLonLat
  prevBoatPos : s.prevBoatPos = s.lonLatToFrame s.prevBoatPosLonLat
  obstacles   : s.obstacles.map Math.Polygon.pts =
    s.obstaclesLonLat.map fun p => p.pts.map s.lonLatToFrame
  waypoints   : WaypointsFit s

def isBoatState : LinePlanMsg R → Bool
  | .boatState _ _ => true
  | _ => false

-- ---------------------------------------------------------------------------
-- Parts of a coherent state
-- ---------------------------------------------------------------------------

def BoatFits (s : LinePlan R) : Prop := s.boatPos = s.lonLatToFrame s.boatPosLonLat

def PrevFits (s : LinePlan R) : Prop := s.prevBoatPos = s.lonLatToFrame s.prevBoatPosLonLat

def ObstaclesFit (s : LinePlan R) : Prop :=
  s.obstacles = s.obstaclesLonLat.map fun p => ⟨p.pts.map s.lonLatToFrame⟩

/-- What fits after `n` messages with the state of the boat. -/
structure Phase (n : Nat) (s : LinePlan R) : Prop where
  obstacles : ObstaclesFit s
  waypoints : WaypointsFit s
  boat      : 1 ≤ n → BoatFits s
  prev      : 2 ≤ n → PrevFits s

/-- After two positions of the boat the caches are coherent. -/
theorem Phase.coherent {n : Nat} (h : Phase n s) (hn : 2 ≤ n) : Coherent s where
  boatPos := h.boat (by omega)
  prevBoatPos := h.prev hn
  obstacles := by
    rw [h.obstacles, List.map_map]
    rfl
  waypoints := h.waypoints

/-- The gates fit, if and only if `UpdateWaypoints` leaves them as they are. -/
theorem waypointsFit_iff :
    WaypointsFit s ↔ s.updateWaypoints.map (·.waypoints) = some s.waypoints := by
  rw [updateWaypoints_eq, Option.map_some, withCourse, WaypointsFit, Option.some.injEq]
  split
  case isTrue hNone => exact iff_of_true (.inl hNone) rfl
  case isFalse hSome => exact (or_iff_right hSome).trans eq_comm

/-- At the start the gates and the obstacles fit. -/
theorem init_phase (s : LinePlan R) : Phase 0 (init s) where
  obstacles := rfl
  waypoints := .inl rfl
  boat := nofun
  prev := nofun

-- ---------------------------------------------------------------------------
-- Steps
-- ---------------------------------------------------------------------------

/-- Everything but the gates is as before, and the gates fit. -/
theorem withCourse_cases (s : LinePlan R) :
    (∃ gates flags next, s.withCourse = { s with
      waypoints := gates
      areGates := flags
      nextWaypoint := next }) ∧ WaypointsFit s.withCourse := by
  unfold withCourse
  split
  · next hNone => exact ⟨⟨s.waypoints, s.areGates, s.nextWaypoint, rfl⟩, .inl hNone⟩
  · exact ⟨⟨_, _, _, rfl⟩, .inr rfl⟩

/-- The gates are computed again where everything else fits. -/
theorem withCourse_phase {n : Nat} (hObs : ObstaclesFit s) (hBoat : 1 ≤ n → BoatFits s)
    (hPrev : 2 ≤ n → PrevFits s) : Phase n s.withCourse := by
  obtain ⟨⟨gates, flags, next, hEq⟩, hFit⟩ := withCourse_cases s
  rw [hEq] at hFit ⊢
  exact ⟨hObs, hFit, hBoat, hPrev⟩

/-- In a new frame everything fits, whatever there was before. -/
theorem inFrame_phase (n : Nat) (s : LinePlan R) (ref : Vec R) :
    Phase n (s.inFrame ref).withCourse :=
  withCourse_phase rfl (fun _ => rfl) (fun _ => rfl)

/-- A list of waypoints computes the gates anew. -/
theorem receiveWaypoints_phase {n : Nat} {msg : WaypointList R} {u : LinePlan R} (h : Phase n s)
    (hu : u = s.takeWaypoints msg ∨
      ∃ first, u = ((s.takeWaypoints msg).inFrame first).withCourse) :
    Phase n u.withCourse := by
  rcases hu with rfl | ⟨first, rfl⟩
  · exact withCourse_phase h.obstacles h.boat h.prev
  · have hFrame := inFrame_phase n (s.takeWaypoints msg) first
    exact withCourse_phase hFrame.obstacles hFrame.boat hFrame.prev

/-- The position before is the last one, and the new one is in the frame. -/
theorem takeBoatState_phase {n : Nat} (h : Phase n s) (pos : Vec R) (yaw : R) :
    Phase (n + 1) (s.takeBoatState pos yaw) where
  obstacles := h.obstacles
  waypoints := h.waypoints
  boat := fun _ => rfl
  prev := fun hn => h.boat (by omega)

/-- So does a moved reference. -/
theorem moveRef_phase {n : Nat} (h : Phase n s) (hMove : s.moveRef = some t) : Phase n t := by
  rcases moveRef_cases hMove with rfl | rfl
  · exact h
  · exact inFrame_phase n s _

/-- `UpdateWaypointInc` leaves what fits. -/
theorem updateWaypointInc_phase {n : Nat} (h : Phase n s) (hInc : s.updateWaypointInc = some t) :
    Phase n t := by
  obtain ⟨next, cnt, msg, queue, rfl, -⟩ := updateWaypointInc_eq hInc
  exact ⟨h.obstacles, h.waypoints, h.boat, h.prev⟩

/-- A step counts the states of the boat, and keeps what fits. -/
theorem step_phase {n : Nat} (h : Phase n s) (hstep : step v s a = some t) :
    Phase (n + if isBoatState a then 1 else 0) t := by
  rcases step_cases hstep with ⟨msg, rfl, ⟨-, rfl⟩ | ⟨hSome, u, hu, rfl⟩⟩ |
    ⟨pos, yaw, u, rfl, hMove, hInc⟩ | ⟨polygons, lonlat, rfl, rfl⟩ |
    ⟨-, hNot, _, _, _, _, _, rfl⟩
  · exact h
  · exact receiveWaypoints_phase h hu
  · exact updateWaypointInc_phase (moveRef_phase (takeBoatState_phase h pos yaw) hMove) hInc
  · exact ⟨rfl, h.waypoints, h.boat, h.prev⟩
  · have hBoat : isBoatState a = false := by
      cases a with
      | boatState pos yaw => exact absurd rfl (hNot pos yaw)
      | _ => rfl
    rw [hBoat]
    exact ⟨h.obstacles, h.waypoints, h.boat, h.prev⟩

-- ---------------------------------------------------------------------------
-- Runs
-- ---------------------------------------------------------------------------

/-- What fits after a run, by its number of messages about the boat. -/
theorem run_phase {as : List (LinePlanMsg R)} : ∀ {n : Nat} {s t : LinePlan R}, Phase n s →
    run (step v) s as = some t → Phase (n + as.countP isBoatState) t := by
  induction as with
  | nil =>
    intro n s t h hrun
    obtain rfl := Option.some.inj hrun
    exact h
  | cons a as ih =>
    intro n s t h hrun
    obtain ⟨u, hstep, hrun⟩ := run_cons_eq_some.mp hrun
    have hRest := ih (step_phase h hstep) hrun
    rwa [Nat.add_assoc, Nat.add_comm (if isBoatState a then 1 else 0), ← List.countP_cons] at hRest

/-- **The frame.** From the second `boat_state` on, the positions of the boat, the obstacles and
the gates in meters are what the current reference makes of the degrees that were received. -/
theorem caches_coherent (v : Bool) (s : LinePlan R) (as : List (LinePlanMsg R))
    (hTwo : 2 ≤ as.countP isBoatState) (hrun : run (step v) (init s) as = some t) : Coherent t :=
  (run_phase (init_phase s) hrun).coherent (by rwa [Nat.zero_add])

/-- The boat moves away by one degree, so that there is a new reference. -/
theorem caches_coherent_new_reference :
    ∃ t, run (step false) (init (zeroed : LinePlan (Double .exact .atZero)))
        [.waypoints { points := [.zero, ⟨.num 0, .num 1⟩] }, .boatState .zero (lit 0),
          .boatState ⟨.num 0, .num 1⟩ (lit 0)] = some t ∧ t.lonLatRef = ⟨.num 0, .num 1⟩ ∧
      Coherent t := by
  have hRuns : (run (step false) (init (zeroed : LinePlan (Double .exact .atZero)))
      [.waypoints { points := [.zero, ⟨.num 0, .num 1⟩] }, .boatState .zero (lit 0),
        .boatState ⟨.num 0, .num 1⟩ (lit 0)]).map (·.lonLatRef) = some ⟨.num 0, .num 1⟩ := by
    decide +kernel
  obtain ⟨t, hrun, hRef⟩ := Option.map_eq_some_iff.mp hRuns
  exact ⟨t, hrun, hRef, caches_coherent _ _ _ (by decide) hrun⟩

end Sailbot.Control.LinePlan

import Sailbot.Control.LinePathCosts
import Sailbot.Control.LinePlan

/-!
# The waypoint that the planner sails to

The index of the next waypoint, and the flag for a boat near it, over every run and for every
arithmetic.

A list of exactly one waypoint with a defined start goes wrong: `UpdateWaypoints` returns before
it gives `are_gates_` the length of the list. If the list is repeated and there was no list
before, the next `boat_state` reads behind the end of `are_gates_`. All other lists are fine.

* `LinePlan.indices_in_range_iff` — indices and accesses are in range along a run exactly when
  no such list is received.
* `LinePlan.one_point_out_of_range` — the run that goes wrong.

The message with the state of the tacker is kept from one `boat_state` to the next. On the final
leg of a list that is not repeated, the flag `near_waypoint` is sent as it was left, at best from
the leg before.

* `LinePlan.near_current_iff`    — when the flag is right in every message of a run.
* `LinePlan.near_flag_left_unset` — a boat at the last waypoint, and the flag was never set.
-/

namespace Sailbot.Control.LinePlan

open Lib Math LinePath
open Lib.Arith (lit litf)

variable {R : Type} [Arith R] {v : Bool} {s t : LinePlan R} {a : LinePlanMsg R}

-- ---------------------------------------------------------------------------
-- Statement
-- ---------------------------------------------------------------------------

/-- Where there are waypoints, the index of the next one is in range, and there is a flag for
each of them. -/
def Indexed (s : LinePlan R) : Prop :=
  s.waypoints ≠ [] → 0 ≤ s.nextWaypoint ∧ s.nextWaypoint < s.waypoints.length ∧
    s.areGates.length = s.waypoints.length

/-- All accesses of a step are in range, and the state after it is indexed. A message with
obstacles accesses no waypoint. -/
def InRange (v : Bool) (s : LinePlan R) (a : LinePlanMsg R) : Prop :=
  ((∀ polygons, a ≠ .obstacles polygons) → (step v s a).isSome) ∧
    ∀ t, step v s a = some t → Indexed t

/-- A list of one waypoint, which is the start. -/
def OnePoint : LinePlanMsg R → Prop
  | .waypoints msg => msg.points.length = 1 ∧ msg.definedStart = true
  | _ => False

-- ---------------------------------------------------------------------------
-- The invariant
-- ---------------------------------------------------------------------------

/-- The index fits the list, which is not a single point. -/
structure Pending (s : LinePlan R) : Prop where
  nonneg : 0 ≤ s.nextWaypoint
  lt     : s.waypointsLonLat.length = 0 ∨ s.nextWaypoint < s.waypointsLonLat.length
  two    : s.waypointsLonLat.length ≠ 1

structure IndexInv (s : LinePlan R) : Prop extends Pending s where
  length   : s.waypoints.length = s.waypointsLonLat.length
  areGates : s.areGates.length = s.waypointsLonLat.length

omit [Arith R] in
/-- The invariant is what the accesses need. -/
theorem IndexInv.indexed (h : IndexInv s) : Indexed s := by
  intro hSome
  have hPos := List.length_pos_iff.mpr hSome
  have hLength := h.length
  have hLt := h.lt
  exact ⟨h.nonneg, by omega, h.areGates.trans hLength.symm⟩

/-- There are no waypoints in the beginning. -/
theorem init_indexInv (s : LinePlan R) : IndexInv (init s) where
  nonneg := le_rfl
  lt := .inl rfl
  two := Nat.zero_ne_one
  length := rfl
  areGates := rfl

/-- The gates are computed for a list that the index fits. -/
theorem Pending.withCourse (h : Pending s) (hNone : s.waypointsLonLat.length = 0 → IndexInv s) :
    IndexInv s.withCourse := by
  unfold LinePlan.withCourse
  split
  · next hZero => exact hNone hZero
  · rw [if_neg h.two, if_neg h.two]
    refine ⟨⟨h.nonneg, h.lt, h.two⟩, ?_, List.length_replicate⟩
    rw [length_course, List.length_map]

/-- A new frame moves the gates, not the index. -/
theorem inFrame_indexInv (h : IndexInv s) (ref : Vec R) : IndexInv (s.inFrame ref).withCourse := by
  have hFrame : IndexInv (s.inFrame ref) := 
    ⟨⟨h.nonneg, h.lt, h.two⟩, h.length, h.areGates⟩
  exact hFrame.toPending.withCourse fun _ => hFrame

omit [Arith R] in
/-- A list of two points or more puts the index into its range. -/
theorem takeWaypoints_pending {msg : WaypointList R} (hNext : 0 ≤ s.nextWaypoint)
    (hSome : msg.points.length ≠ 0) (hTwo : ¬ OnePoint (.waypoints msg)) :
    Pending (s.takeWaypoints msg) ∧ (s.takeWaypoints msg).waypointsLonLat.length ≠ 0 := by
  have hLength : (s.takeWaypoints msg).waypointsLonLat.length =
      (if msg.definedStart then 0 else 1) + msg.points.length := by
    rw [takeWaypoints, List.length_append]
    split <;> rfl
  have hIndex : (s.takeWaypoints msg).nextWaypoint =
      min (if msg.restart || s.nextWaypoint == 0 then 1 else s.nextWaypoint)
        (msg.points.length - 1) := rfl
  refine ⟨⟨?_, .inr ?_, ?_⟩, ?_⟩
  · rw [hIndex]
    split <;> omega
  · rw [hIndex, hLength]
    push_cast
    split <;> split <;> omega
  · rw [hLength]
    split
    · next hStart => exact fun hOne => hTwo ⟨by omega, hStart⟩
    · omega
  · rw [hLength]
    omega

/-- The gates for such a list have its length. -/
theorem receiveWaypoints_indexInv {msg : WaypointList R} {u : LinePlan R}
    (hNext : 0 ≤ s.nextWaypoint) (hSome : msg.points.length ≠ 0)
    (hTwo : ¬ OnePoint (.waypoints msg))
    (hu : u = s.takeWaypoints msg ∨
      ∃ first, u = ((s.takeWaypoints msg).inFrame first).withCourse) :
    IndexInv u.withCourse := by
  obtain ⟨hPending, hLonLat⟩ := takeWaypoints_pending hNext hSome hTwo
  rcases hu with rfl | ⟨first, rfl⟩
  · exact hPending.withCourse fun hZero => absurd hZero hLonLat
  · have hFrame : Pending ((s.takeWaypoints msg).inFrame first) :=
      ⟨hPending.nonneg, hPending.lt, hPending.two⟩
    have hCourse := hFrame.withCourse fun hZero => absurd hZero hLonLat
    exact hCourse.toPending.withCourse fun _ => hCourse

/-- A new reference moves the gates, not the index. -/
theorem moveRef_indexInv (h : IndexInv s) (hMove : s.moveRef = some t) : IndexInv t := by
  rcases moveRef_cases hMove with rfl | rfl
  · exact h
  · exact inFrame_indexInv h _

/-- Behind the last waypoint comes the first. -/
theorem updateWaypointInc_indexInv (h : IndexInv s) (hInc : s.updateWaypointInc = some t) :
    IndexInv t := by
  have hLength := h.length
  obtain ⟨next, cnt, msg, queue, rfl, rfl | ⟨hSome, rfl⟩⟩ := updateWaypointInc_eq hInc
  · exact ⟨⟨h.nonneg, h.lt, h.two⟩, h.length, h.areGates⟩
  · have hNonneg : 0 ≤ (s.nextWaypoint + 1) % s.waypoints.length := Int.emod_nonneg _ (by omega)
    have hLt : (s.nextWaypoint + 1) % s.waypoints.length < s.waypoints.length :=
      Int.emod_lt_of_pos _ (by omega)
    exact ⟨⟨hNonneg, .inr (hLength ▸ hLt), h.two⟩, h.length, h.areGates⟩

/-- A step keeps the invariant, unless it takes a list of one waypoint. -/
theorem step_indexInv (h : IndexInv s) (hTwo : ¬ OnePoint a) (hstep : step v s a = some t) :
    IndexInv t := by
  rcases step_cases hstep with ⟨msg, rfl, ⟨-, rfl⟩ | ⟨hSome, u, hu, rfl⟩⟩ |
    ⟨pos, yaw, u, rfl, hMove, hInc⟩ | ⟨polygons, lonlat, rfl, rfl⟩ |
    ⟨-, -, _, _, _, _, _, rfl⟩
  · exact h
  · exact receiveWaypoints_indexInv h.nonneg hSome hTwo hu
  · have hTake : IndexInv (s.takeBoatState pos yaw) :=
      ⟨⟨h.nonneg, h.lt, h.two⟩, h.length, h.areGates⟩
    exact updateWaypointInc_indexInv (moveRef_indexInv hTake hMove) hInc
  · exact ⟨⟨h.nonneg, h.lt, h.two⟩, h.length, h.areGates⟩
  · exact ⟨⟨h.nonneg, h.lt, h.two⟩, h.length, h.areGates⟩

-- ---------------------------------------------------------------------------
-- Accesses
-- ---------------------------------------------------------------------------

/-- With the index in range, no access of `UpdateWaypointInc` fails. -/
theorem updateWaypointInc_total (h : Indexed s) : ∃ t, s.updateWaypointInc = some t := by
  unfold updateWaypointInc
  split
  · exact ⟨s, rfl⟩
  next hSome =>
  obtain ⟨h0, hLt, hGates⟩ := h (List.length_pos_iff.mp (Nat.pos_of_ne_zero hSome))
  obtain ⟨gate, -, hGate⟩ := atInt_eq h0 hLt
  obtain ⟨isGate, -, hIsGate⟩ := atInt_eq (l := s.areGates) h0 (by rwa [hGates])
  simp only [hGate, hIsGate, Option.bind_eq_bind, Option.bind_some]
  split
  · split <;> exact ⟨_, rfl⟩
  · exact ⟨_, rfl⟩

omit [Arith R] in
/-- One leg is planned at a time. -/
theorem planLegs_eq (s : LinePlan R) : s.planLegs = 1 := by
  unfold planLegs kMaxLegs
  split <;> omega

omit [Arith R] in
/-- The index of the waypoint behind the next one is in range. -/
theorem futureIdx_lt (hSome : s.waypoints.length ≠ 0) (h0 : 0 ≤ s.nextWaypoint) :
    0 ≤ s.futureIdx ∧ s.futureIdx < s.waypoints.length := by
  unfold futureIdx
  split
  · exact ⟨Int.emod_nonneg _ (by omega), Int.emod_lt_of_pos _ (by omega)⟩
  · omega

omit [Arith R] in
/-- There is a gate to plan for. -/
theorem planForGates_total (hSome : s.waypoints.length ≠ 0) :
    ∃ gate, s.planForGates = some [gate] := by
  obtain ⟨gate, -, hGate⟩ := atInt_eq (l := s.waypoints)
    (i := (s.nextWaypoint + (0 : Nat)) % s.waypoints.length) (Int.emod_nonneg _ (by omega))
    (Int.emod_lt_of_pos _ (by omega))
  refine ⟨gate, ?_⟩
  rw [planForGates, planLegs_eq, Int.toNat_one, List.range_one, List.mapM_cons, hGate]
  rfl

/-- The path is the leg and the point at which it crosses the gate: at least two points. -/
theorem path_total (gate : Gate R) {leg : List (Vec R)} (hLeg : leg ≠ []) (alpha : R) :
    ∃ path p0 p1, (List.range [leg].length).foldlM (addLegToPath [gate] [leg] [alpha]) [] =
      some path ∧ path[0]? = some p0 ∧ path[1]? = some p1 := by
  have hLength := List.length_pos_iff.mpr hLeg
  have hTwo : 1 < (leg ++ [(lit 1 - alpha) * gate.1 + alpha * gate.2]).length := by
    rw [List.length_append, List.length_singleton]
    omega
  obtain ⟨p0, -, hp0⟩ := getElem?_total (Nat.lt_of_succ_lt hTwo)
  obtain ⟨p1, -, hp1⟩ := getElem?_total hTwo
  refine ⟨_, p0, p1, ?_, hp0, hp1⟩
  simp [addLegToPath, hLeg]

/-- With the index in range, there is a heading. -/
theorem getGoalHeading_total (h : Indexed s) : ∃ r, s.getGoalHeading = some r := by
  unfold getGoalHeading
  split
  · exact ⟨_, rfl⟩
  next hLength =>
  have hSome : s.waypoints.length ≠ 0 := by omega
  obtain ⟨h0, hLt, -⟩ := h (List.length_pos_iff.mp (Nat.pos_of_ne_zero hSome))
  obtain ⟨hFuture0, hFutureLt⟩ := futureIdx_lt hSome h0
  obtain ⟨future, -, hFuture⟩ := atInt_eq hFuture0 hFutureLt
  obtain ⟨gate, hGates⟩ := planForGates_total hSome
  obtain ⟨leg, alpha, hPath, hLeg⟩ := findMultiplePath_one (Gate.middle future) s.windDir
    s.obstacles s.yaw s.boatPos gate
  obtain ⟨path, p0, p1, hAll, hp0, hp1⟩ := path_total gate hLeg alpha
  simp only [hFuture, hGates, hPath, hAll, hp0, hp1, Option.bind_eq_bind, Option.bind_some]
  exact ⟨_, rfl⟩

/-- An `Iterate` has a result. -/
theorem iterate_total (h : Indexed s) : ∃ t, s.iterate = some t := by
  unfold iterate
  split
  · exact ⟨_, rfl⟩
  split
  · exact ⟨s, rfl⟩
  · obtain ⟨⟨u, heading⟩, hHeading⟩ := getGoalHeading_total h
    rw [hHeading]
    exact ⟨_, rfl⟩

/-- Every message has a result, but for obstacles that are not convex. -/
theorem step_total (h : IndexInv s) (ha : ∀ polygons, a ≠ .obstacles polygons) :
    (step v s a).isSome := by
  rw [Option.isSome_iff_exists]
  cases a with
  | waypoints msg =>
    by_cases hNone : msg.points.length = 0
    · exact ⟨s, if_pos hNone⟩
    · obtain ⟨u, -, hEq⟩ := receiveWaypoints_eq (s := s) hNone
      exact ⟨_, hEq⟩
  | obstacles polygons => exact absurd rfl (ha polygons)
  | boatState pos yaw =>
    obtain ⟨u, hMove⟩ := moveRef_total (s.takeBoatState pos yaw)
    have hTake : IndexInv (s.takeBoatState pos yaw) :=
      ⟨⟨h.nonneg, h.lt, h.two⟩, h.length, h.areGates⟩
    obtain ⟨t, hInc⟩ := updateWaypointInc_total (moveRef_indexInv hTake hMove).indexed
    exact ⟨t, Option.bind_eq_some_iff.mpr ⟨u, hMove, hInc⟩⟩
  | controlMode mode | trueWind wind => exact ⟨_, rfl⟩
  | iterate => exact iterate_total h.indexed

-- ---------------------------------------------------------------------------
-- Runs
-- ---------------------------------------------------------------------------

/-- There is a gate for each waypoint, a single waypoint is the next one, and `are_gates_` never
has the length one. -/
structure Sized (s : LinePlan R) : Prop where
  length   : s.waypoints.length = s.waypointsLonLat.length
  next     : s.waypointsLonLat.length = 1 → s.nextWaypoint = 0
  areGates : s.areGates.length ≠ 1

/-- There are no gates in the beginning. -/
theorem init_sized (s : LinePlan R) : Sized (init s) where
  length := rfl
  next := fun _ => rfl
  areGates := Nat.zero_ne_one

/-- There are as many gates as waypoints. -/
theorem withCourse_sized (hGates : s.areGates.length ≠ 1)
    (h : s.waypointsLonLat.length = 0 → Sized s) : Sized s.withCourse := by
  unfold withCourse
  split
  · next hZero => exact h hZero
  · refine ⟨?_, fun hOne => if_pos hOne, ?_⟩
    · rw [length_course, List.length_map]
    · dsimp only
      split
      · exact hGates
      · next hOne =>
        rw [List.length_replicate]
        exact hOne

/-- A new reference changes nothing about their number. -/
theorem moveRef_sized (h : Sized s) (hMove : s.moveRef = some t) : Sized t := by
  rcases moveRef_cases hMove with rfl | rfl
  · exact h
  · exact withCourse_sized (s := s.inFrame s.boatPosLonLat) h.areGates
      fun _ => ⟨h.length, h.next, h.areGates⟩

/-- There are as many gates as waypoints after a list, too. -/
theorem takeWaypoints_sized {msg : WaypointList R} {u : LinePlan R}
    (hSome : msg.points.length ≠ 0) (hGates : s.areGates.length ≠ 1)
    (hu : u = s.takeWaypoints msg ∨
      ∃ first, u = ((s.takeWaypoints msg).inFrame first).withCourse) :
    Sized u.withCourse := by
  have hTake : (s.takeWaypoints msg).waypointsLonLat.length ≠ 0 := by
    rw [takeWaypoints, List.length_append]
    omega
  rcases hu with rfl | ⟨first, rfl⟩
  · exact withCourse_sized hGates fun hZero => absurd hZero hTake
  · have hFrame : Sized ((s.takeWaypoints msg).inFrame first).withCourse :=
      withCourse_sized hGates fun hZero => absurd hZero hTake
    exact withCourse_sized hFrame.areGates fun _ => hFrame

/-- `UpdateWaypointInc` leaves the gates alone. -/
theorem updateWaypointInc_sized (h : Sized s) (hInc : s.updateWaypointInc = some t) :
    Sized t := by
  obtain ⟨next, cnt, msg, queue, rfl, hNext⟩ := updateWaypointInc_eq hInc
  refine ⟨h.length, fun hOne => ?_, h.areGates⟩
  rcases hNext with rfl | ⟨-, rfl⟩
  · exact h.next hOne
  · change (s.nextWaypoint + 1) % (s.waypoints.length : Int) = 0
    rw [h.length.trans hOne, Nat.cast_one, Int.emod_one]

/-- One step. -/
theorem step_sized (h : Sized s) (hstep : step v s a = some t) : Sized t := by
  rcases step_cases hstep with ⟨msg, rfl, ⟨-, rfl⟩ | ⟨hSome, u, hu, rfl⟩⟩ |
    ⟨pos, yaw, u, rfl, hMove, hInc⟩ | ⟨polygons, lonlat, rfl, rfl⟩ |
    ⟨-, -, _, _, _, _, _, rfl⟩
  · exact h
  · exact takeWaypoints_sized hSome h.areGates hu
  · have hTake : Sized (s.takeBoatState pos yaw) := ⟨h.length, h.next, h.areGates⟩
    exact updateWaypointInc_sized (moveRef_sized hTake hMove) hInc
  · exact ⟨h.length, h.next, h.areGates⟩
  · exact ⟨h.length, h.next, h.areGates⟩

/-- After a list of one waypoint there is one waypoint. -/
theorem one_waypoint_of_onePoint (hOne : OnePoint a) (hstep : step v s a = some t) :
    t.waypoints.length = 1 := by
  rcases step_cases hstep with ⟨msg, rfl, ⟨hNone, -⟩ | ⟨-, u, hu, rfl⟩⟩ |
    ⟨pos, yaw, u, rfl, -, -⟩ | ⟨polygons, lonlat, rfl, -⟩ | ⟨hNot, -, -⟩
  · have := hOne.1
    omega
  · have hLonLat : u.waypointsLonLat.length = 1 := by
      have hTake : (s.takeWaypoints msg).waypointsLonLat.length = 1 := by
        rw [takeWaypoints, if_pos hOne.2, List.nil_append]
        exact hOne.1
      rcases hu with rfl | ⟨first, rfl⟩
      · exact hTake
      · rw [withCourse_waypointsLonLat]
        exact hTake
    rw [withCourse, if_neg (by omega), length_course, List.length_map, hLonLat]
  · exact hOne.elim
  · exact hOne.elim
  · cases a with
    | waypoints msg => exact absurd rfl (hNot msg)
    | _ => exact hOne.elim

/-- A list of one point makes the code access the second flag of one. -/
theorem onePoint_not_inRange (h : Sized s) (hRange : InRange v s a) : ¬ OnePoint a := by
  intro hOne
  have ha : ∀ polygons, a ≠ .obstacles polygons := by
    rintro polygons rfl
    exact hOne
  obtain ⟨t, hstep⟩ := Option.isSome_iff_exists.mp (hRange.1 ha)
  have hLength := one_waypoint_of_onePoint hOne hstep
  have hSome : t.waypoints ≠ [] := List.length_pos_iff.mp (by omega)
  obtain ⟨-, -, hGates⟩ := hRange.2 t hstep hSome
  exact (step_sized h hstep).areGates (hGates.trans hLength)

/-- **Indices.** Along a run, all accesses are in range and the next waypoint is one of the
list, with a flag for every waypoint, if and only if no list of one waypoint with a defined start
is received. -/
theorem indices_in_range_iff (v : Bool) (s : LinePlan R) (as : List (LinePlanMsg R)) :
    Along (step v) (InRange v) (init s) as ↔
      Along (step v) (fun _ a => ¬ OnePoint a) (init s) as := by
  constructor
  · exact along_of_inv (I := Sized) (fun _ _ _ h _ hstep => step_sized h hstep)
      (fun _ _ h hRange => onePoint_not_inRange h hRange) (init_sized s)
  · exact along_of_inv (I := IndexInv) (fun _ _ _ h hTwo hstep => step_indexInv h hTwo hstep)
      (fun _ _ h hTwo => ⟨step_total h, fun _ hstep => (step_indexInv h hTwo hstep).indexed⟩)
      (init_indexInv s)

/-- The boat is at the zero of longitude and latitude, and the list has this one point and is
repeated: the `boat_state` reads the flag of a gate, and there is none. -/
theorem one_point_out_of_range :
    ¬ ∀ (s : LinePlan (Double .exact .atZero)) (as : List (LinePlanMsg (Double .exact .atZero))),
      Along (step false) (InRange false) (init s) as := by
  intro hAll
  have hNone : (run (step false) (init (zeroed : LinePlan (Double .exact .atZero)))
      [.waypoints { points := [.zero], repeats := true }, .boatState .zero (lit 0)]).isSome =
      false := by
    decide +kernel
  have hAlong := hAll zeroed
    [.waypoints { points := [.zero], repeats := true }, .boatState .zero (lit 0)]
  obtain ⟨s, hFirst⟩ := Option.isSome_iff_exists.mp (hAlong.1.1 nofun)
  obtain ⟨t, hSecond⟩ := Option.isSome_iff_exists.mp ((hAlong.2 s hFirst).1.1 nofun)
  rw [run_cons, hFirst, Option.bind_some, run_cons, hSecond] at hNone
  cases hNone

-- ---------------------------------------------------------------------------
-- The flag for a boat near its waypoint
-- ---------------------------------------------------------------------------

/-- The messages that a step sends on `tacker_state`. -/
def sentStates (s t : LinePlan R) : List TackerState := t.stateQueue.drop s.stateQueue.length

/-- What is sent for a `boat_state` says whether the boat is within eight meters of the waypoint
that was the next one when it arrived. The state `u` has the new position of the boat. -/
def NearCurrent (s : LinePlan R) : LinePlanMsg R → Prop
  | .boatState pos yaw => ∀ u t gate, (s.takeBoatState pos yaw).moveRef = some u →
      u.updateWaypointInc = some t → atInt u.waypoints s.nextWaypoint = some gate →
      ∀ msg ∈ sentStates s t, msg.nearWaypoint.getD false = u.nearWay gate
  | _ => True

/-- On the final leg, the flag that the last message left is right for the new position. -/
def FlagFits (s : LinePlan R) : LinePlanMsg R → Prop
  | .boatState pos yaw => ∀ u gate, (s.takeBoatState pos yaw).moveRef = some u →
      u.onFinalLeg = true → atInt u.waypoints s.nextWaypoint = some gate →
      s.stateMsg.nearWaypoint.getD false = u.nearWay gate
  | _ => True

/-- A new reference changes neither the next waypoint nor what was sent. -/
theorem moveRef_keeps (h : Sized s) (hMove : s.moveRef = some t) :
    t.nextWaypoint = s.nextWaypoint ∧ t.stateMsg = s.stateMsg ∧ t.stateQueue = s.stateQueue := by
  rcases moveRef_cases hMove with rfl | rfl
  · exact ⟨rfl, rfl, rfl⟩
  · unfold withCourse
    split
    · exact ⟨rfl, rfl, rfl⟩
    · refine ⟨?_, rfl, rfl⟩
      dsimp only
      split
      · next hOne => exact (h.next hOne).symm
      · rfl

/-- The next waypoint and what was sent stay when the boat moves. -/
theorem takeBoatState_moveRef_keeps {pos : Vec R} {yaw : R} {u : LinePlan R} (h : Sized s)
    (hMove : (s.takeBoatState pos yaw).moveRef = some u) :
    u.nextWaypoint = s.nextWaypoint ∧ u.stateMsg = s.stateMsg ∧ u.stateQueue = s.stateQueue :=
  moveRef_keeps (s := s.takeBoatState pos yaw) ⟨h.length, h.next, h.areGates⟩ hMove

omit [Arith R] in
/-- One state is sent. -/
theorem sentStates_sendState {u : LinePlan R} (h : u.stateQueue = s.stateQueue)
    (msg : TackerState) : sentStates s (u.sendState msg) = [msg] := by
  rw [sentStates, sendState, h, List.drop_left]

/-- On the last leg, the flag is not set at all. -/
theorem updateWaypointInc_final {gate : Gate R} (hFinal : s.onFinalLeg = true)
    (hGate : atInt s.waypoints s.nextWaypoint = some gate) :
    ∃ done last, s.updateWaypointInc =
      some (s.sendState { s.stateMsg with done := some done, lastWaypoint := some last }) := by
  rw [updateWaypointInc, if_neg (atInt_length hGate), if_pos hFinal, hGate]
  simp only [Option.bind_eq_bind, Option.bind_some]
  split <;> exact ⟨_, _, rfl⟩

/-- Whether the flag is right, by the state before the step. -/
theorem nearCurrent_iff (h : Sized s) : NearCurrent s a ↔ FlagFits s a := by
  cases a with
  | boatState pos yaw =>
    constructor
    · intro hNear u gate hMove hFinal hGate
      obtain ⟨hNext, hMsg, hQueue⟩ := takeBoatState_moveRef_keeps h hMove
      obtain ⟨done, last, hInc⟩ := updateWaypointInc_final hFinal
        (show atInt u.waypoints u.nextWaypoint = some gate by rw [hNext]; exact hGate)
      have hSent := hNear u _ gate hMove hInc hGate _ (by
        rw [sentStates_sendState hQueue]
        exact List.mem_singleton.mpr rfl)
      rw [hMsg] at hSent
      exact hSent
    · intro hFits u t gate hMove hInc hGate msg hSent
      obtain ⟨hNext, hMsg, hQueue⟩ := takeBoatState_moveRef_keeps h hMove
      rcases updateWaypointInc_cases hInc with ⟨hNone, -⟩ | ⟨-, hFinal, _, done, last, -, rfl⟩ |
        ⟨-, -, gate', isGate, hGate', -, rfl⟩
      · exact absurd hNone (atInt_length hGate)
      · rw [sentStates_sendState hQueue, List.mem_singleton] at hSent
        subst hSent
        rw [← hFits u gate hMove hFinal hGate, hMsg]
      · have hAdvanced : (u.advance gate' isGate).stateQueue = s.stateQueue := by
          obtain ⟨next, cnt, hEq, -⟩ := advance_eq u gate' isGate
          rw [hEq]
          exact hQueue
        rw [sentStates_sendState hAdvanced, List.mem_singleton] at hSent
        subst hSent
        rw [hNext, hGate, Option.some.injEq] at hGate'
        rw [hGate']
        rfl
  | _ => exact Iff.rfl

/-- **The flag.** Along a run, every message says whether the boat is near the waypoint that was
the next one, if and only if at each `boat_state` on the final leg the flag of the message before
is right for the new position. -/
theorem near_current_iff (v : Bool) (s : LinePlan R) (as : List (LinePlanMsg R)) :
    Along (step v) NearCurrent (init s) as ↔ Along (step v) FlagFits (init s) as :=
  along_congr_of_inv (I := Sized) (fun _ _ _ h hstep => step_sized h hstep)
    (fun _ _ h => nearCurrent_iff h) (init_sized s)

/-- Two waypoints, and the boat is at the last one: the flag was never set. -/
theorem near_flag_left_unset :
    ¬ ∀ (s : LinePlan (Double .exact .atZero)) (as : List (LinePlanMsg (Double .exact .atZero))),
      Along (step false) NearCurrent (init s) as := by
  intro hAll
  have hRuns : ((step false (init (zeroed : LinePlan (Double .exact .atZero)))
      (.waypoints { points := [.zero, .zero] })).bind fun s =>
        (s.takeBoatState .zero (lit 0)).moveRef.bind fun u => u.updateWaypointInc.bind fun t =>
          (atInt u.waypoints s.nextWaypoint).map fun gate => (u.nearWay gate, sentStates s t)) =
      some (true, [{ done := some true, lastWaypoint := some 1 }]) := by
    decide +kernel
  simp only [Option.bind_eq_some_iff, Option.map_eq_some_iff, Prod.mk.injEq] at hRuns
  obtain ⟨s, hFirst, u, hMove, t, hInc, gate, hGate, hNear, hSent⟩ := hRuns
  have hAlong := hAll zeroed
    [.waypoints { points := [.zero, .zero] }, .boatState .zero (lit 0)]
  have hCurrent := (hAlong.2 s hFirst).1 u t gate hMove hInc hGate
    { done := some true, lastWaypoint := some 1 } (by rw [hSent]; exact List.mem_singleton.mpr rfl)
  rw [hNear] at hCurrent
  cases hCurrent

end Sailbot.Control.LinePlan

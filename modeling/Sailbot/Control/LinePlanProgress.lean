import Sailbot.Control.GateCrossing

/-!
# The progress on a course

The index of the next waypoint says how far the boat has come. It counts modulo the length of a
repeated list, and zero has two meanings: for `ReceiveWaypoints` it is the index before a course
has been started, but a boat that has passed the last waypoint of a repeated list also has it.
`UpdateWaypointInc` sends one less than the index as the waypoint passed last, which is -1 there.

* `LinePlan.resend_keeps_iff`    — when a course that is sent again leaves the boat where it is.
* `LinePlan.last_waypoint_iff`   — when every message names the waypoint passed last.
* `LinePlan.resend_loses_start`, `LinePlan.last_waypoint_negative` — a boat on a repeated course.
-/

namespace Sailbot.Control.LinePlan

open Lib Math LinePath
open Lib.Arith (lit litf)

deriving instance DecidableEq for WaypointList

variable {R : Type} [Arith R] {v : Bool} {s t u : LinePlan R} {a : LinePlanMsg R}

-- ---------------------------------------------------------------------------
-- The current list
-- ---------------------------------------------------------------------------

/-- The list that a message brings. A list without points is ignored. -/
def takenList : LinePlanMsg R → Option (WaypointList R)
  | .waypoints msg => if msg.points.length = 0 then none else some msg
  | _ => none

/-- The note of the list that was received last. -/
def noteList (_ : LinePlan R) (a : LinePlanMsg R) (list : Option (WaypointList R)) :
    Option (WaypointList R) :=
  (takenList a).or list

/-- The index is one of the list. -/
structure NextInRange (s : LinePlan R) : Prop where
  nonneg : 0 ≤ s.nextWaypoint
  lt     : s.waypointsLonLat.length ≠ 0 → s.nextWaypoint < s.waypointsLonLat.length

/-- The list in a state is the one that was received. -/
structure Received (s : LinePlan R) (msg : WaypointList R) : Prop where
  some    : msg.points.length ≠ 0
  repeats : s.repeatWaypoints = msg.repeats
  lonLat  : msg.definedStart = true → s.waypointsLonLat = msg.points

/-- What holds of a state and the list that was received last. -/
structure OnList (x : LinePlan R × Option (WaypointList R)) : Prop where
  next     : NextInRange x.1
  received : ∀ msg, x.2 = some msg → Received x.1 msg

/-- A new course leaves the index of the next waypoint. -/
theorem withCourse_nextInRange (h : NextInRange s) : NextInRange s.withCourse := by
  unfold withCourse
  split
  · exact h
  · by_cases hOne : s.waypointsLonLat.length = 1
    · rw [if_pos hOne, if_pos hOne]
      exact ⟨le_rfl, fun _ => by rw [hOne]; exact zero_lt_one⟩
    · rw [if_neg hOne, if_neg hOne]
      exact ⟨h.nonneg, h.lt⟩

/-- A moved reference leaves the index of the next waypoint. -/
theorem moveRef_nextInRange (h : NextInRange s) (hMove : s.moveRef = some t) :
    NextInRange t := by
  rcases moveRef_cases hMove with rfl | rfl
  · exact h
  · exact withCourse_nextInRange (s := s.inFrame s.boatPosLonLat) ⟨h.nonneg, h.lt⟩

omit [Arith R] in
/-- A list that is not empty leaves an index inside it. -/
theorem takeWaypoints_nextInRange {msg : WaypointList R} (h : NextInRange s)
    (hSome : msg.points.length ≠ 0) : NextInRange (s.takeWaypoints msg) := by
  have hNonneg := h.nonneg
  refine ⟨?_, fun _ => ?_⟩
  · show 0 ≤ min (if msg.restart || s.nextWaypoint == 0 then 1 else s.nextWaypoint)
      (msg.points.length - 1 : Int)
    split <;> omega
  · show min (if msg.restart || s.nextWaypoint == 0 then 1 else s.nextWaypoint)
      (msg.points.length - 1 : Int) <
        (((if msg.definedStart then [] else [s.boatPosLonLat]) ++ msg.points).length : Nat)
    rw [List.length_append]
    omega

/-- A list leaves it in range, also where its first waypoint becomes the reference. -/
theorem receiveWaypoints_nextInRange {msg : WaypointList R} (h : NextInRange s)
    (hSome : msg.points.length ≠ 0)
    (hu : u = s.takeWaypoints msg ∨
      ∃ first, u = ((s.takeWaypoints msg).inFrame first).withCourse) :
    NextInRange u.withCourse := by
  have hTake := takeWaypoints_nextInRange h hSome
  rcases hu with rfl | ⟨first, rfl⟩
  · exact withCourse_nextInRange hTake
  · exact withCourse_nextInRange (withCourse_nextInRange
      (s := (s.takeWaypoints msg).inFrame first) ⟨hTake.nonneg, hTake.lt⟩)

/-- `UpdateWaypointInc` leaves it in range. -/
theorem updateWaypointInc_nextInRange (hLength : s.waypoints.length = s.waypointsLonLat.length)
    (h : NextInRange s) (hInc : s.updateWaypointInc = some t) : NextInRange t := by
  obtain ⟨next, cnt, msg, queue, rfl, rfl | ⟨hSome, rfl⟩⟩ := updateWaypointInc_eq hInc
  · exact ⟨h.nonneg, h.lt⟩
  · refine ⟨Int.emod_nonneg _ (by omega), fun _ => ?_⟩
    show (s.nextWaypoint + 1) % (s.waypoints.length : Int) < s.waypointsLonLat.length
    rw [← hLength]
    exact Int.emod_lt_of_pos _ (by omega)

/-- Every step leaves the index inside the list. -/
theorem step_nextInRange (hSized : Sized s) (h : NextInRange s) (hstep : step v s a = some t) :
    NextInRange t := by
  rcases step_cases hstep with ⟨msg, rfl, ⟨-, rfl⟩ | ⟨hSome, u, hu, rfl⟩⟩ |
    ⟨pos, yaw, u, rfl, hMove, hInc⟩ | ⟨polygons, lonlat, rfl, rfl⟩ |
    ⟨-, -, _, _, _, _, _, rfl⟩
  · exact h
  · exact receiveWaypoints_nextInRange h hSome hu
  · have hTake : Sized (s.takeBoatState pos yaw) := ⟨hSized.length, hSized.next, hSized.areGates⟩
    have hMoved := moveRef_nextInRange (s := s.takeBoatState pos yaw) ⟨h.nonneg, h.lt⟩ hMove
    exact updateWaypointInc_nextInRange (moveRef_sized hTake hMove).length hMoved hInc
  · exact ⟨h.nonneg, h.lt⟩
  · exact ⟨h.nonneg, h.lt⟩

/-- The list of a state and whether it is repeated. -/
def list (s : LinePlan R) : List (Vec R) × Bool := (s.waypointsLonLat, s.repeatWaypoints)

@[simp] theorem withCourse_list (s : LinePlan R) : s.withCourse.list = s.list := by
  unfold withCourse
  split <;> rfl

@[simp] theorem inFrame_list (s : LinePlan R) (ref : Vec R) : (s.inFrame ref).list = s.list := rfl

/-- A moved reference leaves the list that was received. -/
theorem moveRef_list (hMove : s.moveRef = some t) : t.list = s.list := by
  rcases moveRef_cases hMove with rfl | rfl
  · rfl
  · rw [withCourse_list, inFrame_list]

/-- Only a message with points changes the list. -/
theorem step_list (hstep : step v s a = some t) :
    takenList a = none ∧ t.list = s.list ∨
    ∃ msg, takenList a = some msg ∧ msg.points.length ≠ 0 ∧ t.list =
      ((if msg.definedStart then [] else [s.boatPosLonLat]) ++ msg.points, msg.repeats) := by
  rcases step_cases hstep with ⟨msg, rfl, ⟨hNone, rfl⟩ | ⟨hSome, u, hu, rfl⟩⟩ |
    ⟨pos, yaw, u, rfl, hMove, hInc⟩ | ⟨polygons, lonlat, rfl, rfl⟩ |
    ⟨hNot, -, _, _, _, _, _, rfl⟩
  · exact .inl ⟨if_pos hNone, rfl⟩
  · refine .inr ⟨msg, if_neg hSome, hSome, ?_⟩
    rcases hu with rfl | ⟨first, rfl⟩
    · rw [withCourse_list]
      rfl
    · rw [withCourse_list, withCourse_list, inFrame_list]
      rfl
  · refine .inl ⟨rfl, ?_⟩
    obtain ⟨next, cnt, msg, queue, rfl, -⟩ := updateWaypointInc_eq hInc
    have hList := moveRef_list hMove
    exact hList
  · exact .inl ⟨rfl, rfl⟩
  · refine .inl ⟨?_, rfl⟩
    cases a with
    | waypoints msg => exact absurd rfl (hNot msg)
    | _ => rfl

/-- After every step the list of the state is the one that was received last. -/
theorem step_received {list : Option (WaypointList R)}
    (h : ∀ msg, list = some msg → Received s msg) (hstep : step v s a = some t) :
    ∀ msg, noteList s a list = some msg → Received t msg := by
  intro msg hNote
  rcases step_list hstep with ⟨hNone, hList⟩ | ⟨taken, hTaken, hSome, hList⟩
  · rw [noteList, hNone, Option.none_or] at hNote
    obtain ⟨hPoints, hRepeat⟩ := Prod.mk.inj hList
    have hReceived := h msg hNote
    exact ⟨hReceived.some, hRepeat.trans hReceived.repeats,
      fun hStart => hPoints.trans (hReceived.lonLat hStart)⟩
  · rw [noteList, hTaken, Option.some_or, Option.some.injEq] at hNote
    subst hNote
    obtain ⟨hPoints, hRepeat⟩ := Prod.mk.inj hList
    refine ⟨hSome, hRepeat, ?_⟩
    intro hStart
    rw [hPoints, if_pos hStart, List.nil_append]

/-- The list that was received last is the one of the state that a run reaches. -/
theorem run_onList {s₀ : LinePlan R} {as : List (LinePlanMsg R)}
    {x : LinePlan R × Option (WaypointList R)}
    (hrun : run (noted (step v) noteList) (init s₀, none) as = some x) : OnList x := by
  have hInv : Sized x.1 ∧ OnList x := by
    refine inv_of_run_forall (I := fun x => Sized x.1 ∧ OnList x) ?_ ?_ hrun
    · rintro ⟨s, list⟩ a ⟨t, list'⟩ ⟨hSized, hOn⟩ hstep
      obtain ⟨hstep, rfl⟩ := noted_eq_some.mp hstep
      exact ⟨step_sized hSized hstep, step_nextInRange hSized hOn.next hstep,
        step_received hOn.received hstep⟩
    · exact ⟨init_sized s₀, ⟨le_rfl, fun hSome => absurd rfl hSome⟩, nofun⟩
  exact hInv.2

-- ---------------------------------------------------------------------------
-- A list that is sent again
-- ---------------------------------------------------------------------------

/-- The gates stay where they are if there is a reference. Otherwise the first waypoint becomes
the reference. -/
def GatesStay (s : LinePlan R) (msg : WaypointList R) : Prop :=
  Arith.eq s.lonLatScale.x (lit 0) = true →
    course msg.repeats (msg.points.map (s.inFrame (msg.points.getD 0 .zero)).lonLatToFrame) =
      s.waypoints

/-- The state before the gates are computed, for a list with a defined start. -/
def referenced (s : LinePlan R) (msg : WaypointList R) : LinePlan R :=
  if Arith.eq s.lonLatScale.x (lit 0) then
    ((s.takeWaypoints msg).inFrame (msg.points.getD 0 .zero)).withCourse
  else s.takeWaypoints msg

/-- A list with a defined start, taken in the frame of its reference. -/
theorem receiveWaypoints_referenced (msg : WaypointList R) (hSome : msg.points.length ≠ 0)
    (hStart : msg.definedStart = true) :
    s.receiveWaypoints msg = some (s.referenced msg).withCourse := by
  have hFirst : (s.takeWaypoints msg).waypointsLonLat[0]? = some (msg.points.getD 0 .zero) := by
    rw [takeWaypoints, if_pos hStart, List.nil_append]
    exact getElem?_eq_getD (Nat.pos_of_ne_zero hSome)
  have hScale : (s.takeWaypoints msg).lonLatScale = s.lonLatScale := rfl
  rw [receiveWaypoints, if_neg hSome, ensureRef, referenced, hScale, hFirst]
  split
  · simp only [Option.bind_eq_bind, Option.bind_some, resetRef_eq, updateWaypoints_eq]
  · simp only [Option.bind_eq_bind, Option.bind_some, updateWaypoints_eq]

/-- The frame in which the gates are computed. -/
theorem referenced_frame (s : LinePlan R) (msg : WaypointList R) :
    (s.referenced msg).lonLatToFrame =
      if Arith.eq s.lonLatScale.x (lit 0) then
        (s.inFrame (msg.points.getD 0 .zero)).lonLatToFrame
      else s.lonLatToFrame := by
  unfold referenced
  split
  · obtain ⟨⟨gates, flags, next, hEq⟩, -⟩ :=
      withCourse_cases ((s.takeWaypoints msg).inFrame (msg.points.getD 0 .zero))
    rw [hEq]
    rfl
  · rfl

/-- The list of that state is the one of the message. -/
theorem referenced_list {msg : WaypointList R} (hStart : msg.definedStart = true) :
    (s.referenced msg).list = (msg.points, msg.repeats) := by
  have hTake : (s.takeWaypoints msg).list = (msg.points, msg.repeats) := by
    rw [list, takeWaypoints, if_pos hStart, List.nil_append]
  unfold referenced
  split
  · rw [withCourse_list, inFrame_list, hTake]
  · exact hTake

/-- The index after a list with a defined start. -/
theorem referenced_next (msg : WaypointList R) (hStart : msg.definedStart = true)
    (hSome : msg.points.length ≠ 0) :
    (s.referenced msg).withCourse.nextWaypoint =
      if msg.points.length = 1 then 0 else (s.takeWaypoints msg).nextWaypoint := by
  have hLength : ∀ u : LinePlan R, u.list = (msg.points, msg.repeats) →
      u.withCourse.nextWaypoint = if msg.points.length = 1 then 0 else u.nextWaypoint := by
    intro u hList
    have hPoints : u.waypointsLonLat = msg.points := (Prod.mk.inj hList).1
    rw [withCourse, if_neg (by rwa [hPoints]), hPoints]
  rw [hLength _ (referenced_list hStart)]
  by_cases hOne : msg.points.length = 1
  · rw [if_pos hOne, if_pos hOne]
  · rw [if_neg hOne, if_neg hOne, referenced]
    split
    · have hTake : ((s.takeWaypoints msg).inFrame (msg.points.getD 0 .zero)).list =
          (msg.points, msg.repeats) := by
        rw [inFrame_list, list, takeWaypoints, if_pos hStart, List.nil_append]
      rw [hLength _ hTake, if_neg hOne]
      rfl
    · rfl

/-- The gates after a list with a defined start. -/
theorem referenced_course (msg : WaypointList R) (hStart : msg.definedStart = true)
    (hSome : msg.points.length ≠ 0) :
    (s.referenced msg).withCourse.waypoints =
      course msg.repeats (msg.points.map (s.referenced msg).lonLatToFrame) := by
  obtain ⟨hPoints, hRepeat⟩ := Prod.mk.inj (referenced_list (s := s) hStart)
  rw [withCourse, if_neg (by rwa [hPoints]), hPoints, hRepeat]

section Resend

variable {msg : WaypointList R}

/-- Zero becomes one, and an index of the list stays. -/
theorem resend_next_iff (hNext : NextInRange s) (hSized : Sized s) (h : Received s msg)
    (hStart : msg.definedStart = true) :
    (s.referenced { msg with restart := false }).withCourse.nextWaypoint = s.nextWaypoint ↔
      s.nextWaypoint ≠ 0 ∨ msg.points.length = 1 := by
  have hPoints := h.lonLat hStart
  have hNonneg := hNext.nonneg
  have hLt : s.nextWaypoint < msg.points.length := by
    rw [← hPoints]
    exact hNext.lt (by rw [hPoints]; exact h.some)
  rw [referenced_next { msg with restart := false } hStart h.some]
  by_cases hOne : msg.points.length = 1
  · rw [if_pos hOne]
    have hZero := hSized.next (by rw [hPoints]; exact hOne)
    exact ⟨fun _ => .inr hOne, fun _ => hZero.symm⟩
  · have hTake : (s.takeWaypoints { msg with restart := false }).nextWaypoint =
        min (if s.nextWaypoint == 0 then 1 else s.nextWaypoint) (msg.points.length - 1) := rfl
    rw [if_neg hOne, hTake]
    by_cases hZero : s.nextWaypoint = 0
    · rw [hZero, if_pos (beq_self_eq_true _)]
      omega
    · rw [if_neg (by rwa [beq_iff_eq])]
      omega

/-- A list that is sent again leaves the gates, if and only if `GatesStay` says so. -/
theorem resend_gates_iff (hFit : WaypointsFit s) (h : Received s msg)
    (hStart : msg.definedStart = true) :
    (s.referenced { msg with restart := false }).withCourse.waypoints = s.waypoints ↔
      GatesStay s msg := by
  have hPoints := h.lonLat hStart
  rw [referenced_course { msg with restart := false } hStart h.some, referenced_frame,
    GatesStay]
  by_cases hScale : Arith.eq s.lonLatScale.x (lit 0) = true
  · rw [if_pos hScale]
    exact ⟨fun hEq _ => hEq, fun hStay => hStay hScale⟩
  · rw [if_neg hScale, hFit.resolve_left (by rw [hPoints]; exact h.some), hPoints, h.repeats]
    exact ⟨fun _ hRef => absurd hRef hScale, fun _ => rfl⟩

/-- The gates stay where the reference is the first waypoint, whatever the scale is. -/
theorem gatesStay_of_reference (hFit : WaypointsFit s) (h : Received s msg)
    (hStart : msg.definedStart = true) (hRef : s.lonLatRef = msg.points.getD 0 .zero)
    (hScale : s.lonLatScale = Util.gpsLatLonScale s.lonLatRef.y) : GatesStay s msg := by
  intro _
  have hPoints := h.lonLat hStart
  have hFrame : (s.inFrame (msg.points.getD 0 .zero)).lonLatToFrame = s.lonLatToFrame := by
    funext p
    rw [← hRef, lonLatToFrame, lonLatToFrame, hScale]
    rfl
  rw [hFrame, hFit.resolve_left (by rw [hPoints]; exact h.some), hPoints, h.repeats]

/-- **Sending a course again.** In every state of a run whose list came with a defined start, the
same list without a restart leaves the next waypoint and the gates as they are if and only if the
index is not zero, or the list has one point, and the gates stay in their frame. -/
theorem resend_keeps_iff (v : Bool) (s₀ : LinePlan R) (as : List (LinePlanMsg R))
    (hrun : run (noted (step v) noteList) (init s₀, none) as = some (s, some msg))
    (hStart : msg.definedStart = true) :
    (∃ t, step v s (.waypoints { msg with restart := false }) = some t ∧
      t.nextWaypoint = s.nextWaypoint ∧ t.waypoints = s.waypoints) ↔
    (s.nextWaypoint ≠ 0 ∨ msg.points.length = 1) ∧ GatesStay s msg := by
  have hOn := run_onList hrun
  have hPlanned : Planned s := run_planned (run_of_noted hrun)
  have hReceived := hOn.received msg rfl
  have hStep : step v s (.waypoints { msg with restart := false }) =
      some (s.referenced { msg with restart := false }).withCourse :=
    receiveWaypoints_referenced { msg with restart := false } hReceived.some hStart
  rw [← resend_next_iff hOn.next hPlanned.sized hReceived hStart,
    ← resend_gates_iff hPlanned.fit hReceived hStart, hStep]
  constructor
  · rintro ⟨t, hEq, hKeeps⟩
    obtain rfl := Option.some.inj hEq
    exact hKeeps
  · intro hKeeps
    exact ⟨_, rfl, hKeeps⟩

end Resend

/-- A boat that has not passed anything gets its course again. -/
theorem resend_keeps_started :
    ∃ s t, run (noted (step false) noteList)
        (init (zeroed : LinePlan (Double .exact .atZero)), none)
        [.waypoints { points := [.zero, .zero], repeats := true }] =
          some (s, some { points := [.zero, .zero], repeats := true }) ∧
      step false s (.waypoints { points := [.zero, .zero], repeats := true, restart := false }) =
        some t ∧ t.nextWaypoint = s.nextWaypoint ∧ t.waypoints = s.waypoints := by
  have hRuns : (run (noted (step false) noteList)
      (init (zeroed : LinePlan (Double .exact .atZero)), none)
      [.waypoints { points := [.zero, .zero], repeats := true }]).map
        (fun x => (x.1.nextWaypoint, Arith.eq x.1.lonLatScale.x (lit 0), x.2)) =
      some (1, false, some { points := [.zero, .zero], repeats := true }) := by
    decide +kernel
  obtain ⟨⟨s, list⟩, hrun, hEq⟩ := Option.map_eq_some_iff.mp hRuns
  simp only [Prod.mk.injEq] at hEq
  obtain ⟨hNext, hScale, rfl⟩ := hEq
  have hKeeps := (resend_keeps_iff false zeroed _ hrun rfl).mpr
    ⟨.inl (by rw [hNext]; decide), fun hRef => absurd (hScale.symm.trans hRef) Bool.false_ne_true⟩
  obtain ⟨t, hstep, hKept⟩ := hKeeps
  exact ⟨s, t, hrun, hstep, hKept⟩

/-- The boat has passed the second of two waypoints and sails to the first one. The same course
again sends it to the second one. -/
theorem resend_loses_start :
    ¬ ∀ (s₀ : LinePlan (Double .exact .atZero)) (as : List (LinePlanMsg (Double .exact .atZero)))
      (s : LinePlan (Double .exact .atZero)) (msg : WaypointList (Double .exact .atZero)),
      run (noted (step false) noteList) (init s₀, none) as = some (s, some msg) →
      msg.definedStart = true →
      ∃ t, step false s (.waypoints { msg with restart := false }) = some t ∧
        t.nextWaypoint = s.nextWaypoint ∧ t.waypoints = s.waypoints := by
  intro hAll
  have hRuns : (run (noted (step false) noteList)
      (init (zeroed : LinePlan (Double .exact .atZero)), none)
      [.waypoints { points := [.zero, .zero], repeats := true }, .boatState .zero (lit 0)]).map
        (fun x => (x.1.nextWaypoint, x.2, (step false x.1
          (.waypoints { points := [.zero, .zero], repeats := true, restart := false })).map
            (·.nextWaypoint))) =
      some (0, some { points := [.zero, .zero], repeats := true }, some 1) := by
    decide +kernel
  obtain ⟨⟨s, list⟩, hrun, hEq⟩ := Option.map_eq_some_iff.mp hRuns
  simp only [Prod.mk.injEq] at hEq
  obtain ⟨hNext, rfl, hResent⟩ := hEq
  obtain ⟨t, hstep, hKeeps, -⟩ := hAll zeroed _ s _ hrun rfl
  rw [hstep, Option.map_some, Option.some.injEq, hKeeps, hNext] at hResent
  cases hResent

-- ---------------------------------------------------------------------------
-- The waypoint that was passed last
-- ---------------------------------------------------------------------------

/-- `UpdateWaypointInc` counts the gate as passed. -/
def passes (s : LinePlan R) (gate : Gate R) (isGate : Bool) : Bool :=
  (s.passedLine gate isGate || s.nearWay gate) &&
    (Arith.le (distToLine gate.1 gate.2 s.prevBoatPos * distToLine gate.1 gate.2 s.boatPos)
      (lit 0) || s.nearWay gate)

/-- The waypoint that the boat passes in `UpdateWaypointInc`. On the final leg it does not pass
one. -/
def passedNow (s : LinePlan R) : Option Int :=
  if s.onFinalLeg then none
  else do
    let gate ← atInt s.waypoints s.nextWaypoint
    let isGate ← atInt s.areGates s.nextWaypoint
    if s.passes gate isGate then some s.nextWaypoint else none

/-- The boat is within fifteen meters of the last waypoint, which is its target. -/
def atGoal (s : LinePlan R) : Bool :=
  s.onFinalLeg && (atInt s.waypoints s.nextWaypoint).any fun gate =>
    Arith.lt (gate.1 - s.boatPos).norm (lit 15)

/-- The note of the waypoint that was passed last. -/
def notePassed (s : LinePlan R) (a : LinePlanMsg R) (last : Option Int) : Option Int :=
  match a with
  | .boatState pos yaw => (((s.takeBoatState pos yaw).moveRef).bind passedNow).or last
  | _ => last

/-- What a `boat_state` makes the planner send names the waypoint passed last, if there is one;
on the final leg that is also the last one, while the boat is there. -/
def LastNamed (x : LinePlan R × Option Int) (a : LinePlanMsg R) : Prop :=
  match a with
  | .boatState pos yaw => ∀ u t last, (x.1.takeBoatState pos yaw).moveRef = some u →
      u.updateWaypointInc = some t →
      (if u.atGoal then some ((u.waypoints.length : Int) - 1) else notePassed x.1 a x.2) =
        some last →
      ∀ msg ∈ sentStates x.1 t, msg.lastWaypoint = some last ∧ 0 ≤ last ∧
        last < u.waypoints.length
  | _ => True

/-- The first waypoint of a repeated list is the next one after the step: it was and is not
passed, or the last one was and is passed. -/
def Wraps (s : LinePlan R) : LinePlanMsg R → Prop
  | .boatState pos yaw => ∃ u, (s.takeBoatState pos yaw).moveRef = some u ∧
      u.repeatWaypoints = true ∧
      (u.nextWaypoint = 0 ∧ u.passedNow = none ∨
        u.nextWaypoint = (u.waypoints.length : Int) - 1 ∧ u.passedNow ≠ none)
  | _ => False

section Passed

variable {last : Option Int}

/-- After a message on one list the boat has passed waypoints in order, from the one at index
one. -/
structure Progress (x : LinePlan R × Option Int) : Prop where
  sized  : Sized x.1
  flags  : NoFlags x.1
  two    : 2 ≤ x.1.waypoints.length
  start  : x.2 = none → x.1.nextWaypoint = 1
  last   : ∀ k, x.2 = some k → 0 ≤ k ∧ k < x.1.waypoints.length ∧
    x.1.nextWaypoint = (k + 1) % x.1.waypoints.length
  onward : x.1.repeatWaypoints = false → 1 ≤ x.1.nextWaypoint

omit [Arith R] in
/-- The index of the next waypoint is inside the list. -/
theorem Progress.range (h : Progress (s, last)) :
    0 ≤ s.nextWaypoint ∧ s.nextWaypoint < s.waypoints.length := by
  have hTwo : 2 ≤ s.waypoints.length := h.two
  cases hLast : last with
  | none =>
    have hStart : s.nextWaypoint = 1 := h.start hLast
    omega
  | some k =>
    obtain ⟨-, -, hNext⟩ := h.last k hLast
    have hNext : s.nextWaypoint = (k + 1) % s.waypoints.length := hNext
    rw [hNext]
    exact ⟨Int.emod_nonneg _ (by omega), Int.emod_lt_of_pos _ (by omega)⟩

omit [Arith R] in
/-- So the indices are as the plan needs them. -/
theorem Progress.indexed (h : Progress (s, last)) : Indexed s := by
  intro _
  have hTwo : 2 ≤ s.waypoints.length := h.two
  have hLength : s.waypoints.length = s.waypointsLonLat.length := h.sized.length
  have hFlags : s.areGates = List.replicate s.waypointsLonLat.length false :=
    h.flags (show 2 ≤ s.waypointsLonLat.length by omega)
  refine ⟨h.range.1, h.range.2, ?_⟩
  rw [hFlags, List.length_replicate, hLength]

/-- A new position, and perhaps a new reference. -/
theorem moved_progress {pos : Vec R} {yaw : R} (h : Progress (s, last))
    (hMove : (s.takeBoatState pos yaw).moveRef = some u) : Progress (u, last) := by
  have hTake : Sized (s.takeBoatState pos yaw) := ⟨h.sized.length, h.sized.next, h.sized.areGates⟩
  have hSized := moveRef_sized hTake hMove
  obtain ⟨hPoints, hRepeat⟩ := Prod.mk.inj (moveRef_list hMove)
  obtain ⟨hNext, -, -⟩ := moveRef_keeps hTake hMove
  have hNext : u.nextWaypoint = s.nextWaypoint := hNext
  have hLength : u.waypoints.length = s.waypoints.length := by
    rw [hSized.length, hPoints]
    exact h.sized.length.symm
  refine ⟨hSized, moveRef_noFlags (s := s.takeBoatState pos yaw) h.flags hMove, ?_, ?_, ?_, ?_⟩
  · show 2 ≤ u.waypoints.length
    rw [hLength]
    exact h.two
  · intro hNone
    exact hNext.trans (h.start hNone)
  · show ∀ k, last = some k → 0 ≤ k ∧ k < u.waypoints.length ∧
      u.nextWaypoint = (k + 1) % u.waypoints.length
    rw [hLength, hNext]
    exact h.last
  · intro hOnce
    show 1 ≤ u.nextWaypoint
    rw [hNext]
    exact h.onward (hRepeat.symm.trans hOnce)

/-- The index moves by one where the gate is passed, modulo the number of gates. -/
theorem advance_next (s : LinePlan R) (gate : Gate R) (isGate : Bool) :
    (s.advance gate isGate).nextWaypoint =
      if s.passes gate isGate then (s.nextWaypoint + 1) % s.waypoints.length
      else s.nextWaypoint := by
  unfold advance passes
  dsimp only
  by_cases hLine : (s.passedLine gate isGate || s.nearWay gate) = true
  · rw [if_pos hLine, hLine, Bool.true_and]
    split <;> rfl
  · rw [if_neg hLine, Bool.eq_false_iff.mpr hLine]
    rfl

/-- What `UpdateWaypointInc` sends on the final leg. -/
theorem updateWaypointInc_goal (hSome : s.waypoints.length ≠ 0) (hFinal : s.onFinalLeg = true)
    (hInc : s.updateWaypointInc = some t) :
    ∃ done, t = s.sendState { s.stateMsg with
      done := some done
      lastWaypoint := some (if s.atGoal then s.nextWaypoint else s.nextWaypoint - 1) } := by
  rw [updateWaypointInc, if_neg hSome, if_pos hFinal] at hInc
  obtain ⟨gate, hGate, hInc⟩ := Option.bind_eq_some_iff.mp hInc
  rw [atGoal, hFinal, hGate, Bool.true_and, Option.any_some]
  split at hInc
  · next hNear =>
    rw [if_pos hNear]
    exact ⟨_, (Option.some.inj hInc).symm⟩
  · next hFar =>
    rw [if_neg hFar]
    exact ⟨_, (Option.some.inj hInc).symm⟩

/-- What `UpdateWaypointInc` sends on the other legs. -/
theorem updateWaypointInc_passing (hSome : s.waypoints.length ≠ 0) (hFinal : s.onFinalLeg = false)
    (hInc : s.updateWaypointInc = some t) :
    t.nextWaypoint = (if s.passedNow = none then s.nextWaypoint
      else (s.nextWaypoint + 1) % s.waypoints.length) ∧
    (∀ k, s.passedNow = some k → k = s.nextWaypoint) ∧
    ∃ msg, t.stateQueue = s.stateQueue ++ [msg] ∧
      msg.lastWaypoint = some (t.nextWaypoint - 1) := by
  rcases updateWaypointInc_cases hInc with ⟨hNone, -⟩ | ⟨-, hFinal', -⟩ |
    ⟨-, -, gate, isGate, hGate, hIsGate, rfl⟩
  · exact absurd hNone hSome
  · rw [hFinal] at hFinal'
    cases hFinal'
  · have hPassed : s.passedNow = if s.passes gate isGate then some s.nextWaypoint else none := by
      rw [passedNow, hFinal, if_neg Bool.false_ne_true, hGate, hIsGate]
      rfl
    have hQueue : (s.advance gate isGate).stateQueue = s.stateQueue := by
      obtain ⟨next, cnt, hEq, -⟩ := advance_eq s gate isGate
      rw [hEq]
    refine ⟨?_, ?_, _, congrArg (· ++ _) hQueue, rfl⟩
    · show (s.advance gate isGate).nextWaypoint = _
      rw [advance_next, hPassed]
      by_cases hPass : s.passes gate isGate = true
      · rw [if_pos hPass, if_pos hPass, if_neg (Option.some_ne_none _)]
      · rw [if_neg hPass, if_neg hPass, if_pos rfl]
    · intro k hk
      rw [hPassed] at hk
      split at hk
      · exact (Option.some.inj hk).symm
      · cases hk

omit [Arith R] in
/-- A list that is not repeated is on its final leg at the last index. -/
theorem next_ne_last (hOther : s.onFinalLeg = false) (hOnce : s.repeatWaypoints = false) :
    s.nextWaypoint ≠ (s.waypoints.length : Int) - 1 := by
  rw [onFinalLeg, hOnce] at hOther
  simpa using hOther

/-- `UpdateWaypointInc` keeps the order, and sends the waypoint before the next one. -/
theorem updateWaypointInc_progress (h : Progress (s, last)) (hInc : s.updateWaypointInc = some t) :
    Progress (t, s.passedNow.or last) ∧ ∃ msg, t.stateQueue = s.stateQueue ++ [msg] ∧
      msg.lastWaypoint = some (if s.atGoal then s.nextWaypoint else t.nextWaypoint - 1) := by
  have hTwo : 2 ≤ s.waypoints.length := h.two
  obtain ⟨h0, hLt⟩ := h.range
  have hSome : s.waypoints.length ≠ 0 := by omega
  by_cases hFinal : s.onFinalLeg = true
  · have hNone : s.passedNow = none := if_pos hFinal
    obtain ⟨done, rfl⟩ := updateWaypointInc_goal hSome hFinal hInc
    rw [hNone, Option.none_or]
    exact ⟨⟨⟨h.sized.length, h.sized.next, h.sized.areGates⟩, h.flags, h.two, h.start, h.last,
      h.onward⟩, _, rfl, rfl⟩
  · have hOther := Bool.eq_false_iff.mpr hFinal
    obtain ⟨hNext, hPassed, msg, hQueue, hMsg⟩ := updateWaypointInc_passing hSome hOther hInc
    have hGoal : s.atGoal = false := by rw [atGoal, hOther, Bool.false_and]
    refine ⟨?_, msg, hQueue, by rw [hMsg, hGoal, if_neg Bool.false_ne_true]⟩
    have hSized := updateWaypointInc_sized h.sized hInc
    obtain ⟨next, cnt, sent, queue, rfl, -⟩ := updateWaypointInc_eq hInc
    have hNext : next = if s.passedNow = none then s.nextWaypoint
      else (s.nextWaypoint + 1) % s.waypoints.length := hNext
    cases hNow : s.passedNow with
    | none =>
      rw [hNow, if_pos rfl] at hNext
      subst hNext
      exact ⟨hSized, h.flags, h.two, h.start, h.last, h.onward⟩
    | some k =>
      rw [hNow, if_neg (Option.some_ne_none _)] at hNext
      obtain rfl := hPassed k hNow
      refine ⟨hSized, h.flags, h.two, nofun, ?_, ?_⟩
      · intro k hk
        obtain rfl := Option.some.inj hk
        exact ⟨h0, hLt, hNext⟩
      · intro hOnce
        have hNotLast := next_ne_last hOther hOnce
        show 1 ≤ next
        rw [hNext, Int.emod_eq_of_lt (by omega) (by omega)]
        omega

/-- The waypoint after `k`. -/
theorem emod_succ_cases {k n : Int} (h0 : 0 ≤ k) (hLt : k < n) :
    (k + 1) % n = k + 1 ∧ k + 1 < n ∨ (k + 1) % n = 0 ∧ k + 1 = n := by
  by_cases hLast : k + 1 = n
  · exact .inr ⟨by rw [hLast, Int.emod_self], hLast⟩
  · exact .inl ⟨Int.emod_eq_of_lt (by omega) (by omega), by omega⟩

omit [Arith R] in
/-- The waypoint before the next one is the one passed last, but nothing is before the first. -/
theorem Progress.before_next_iff (h : Progress (s, last)) :
    (∀ k, last = some k → s.nextWaypoint - 1 = k ∧ 0 ≤ k ∧ k < s.waypoints.length) ↔
      s.nextWaypoint ≠ 0 := by
  constructor
  · intro hNamed hZero
    cases hLast : last with
    | none =>
      have hStart : s.nextWaypoint = 1 := h.start hLast
      omega
    | some k =>
      obtain ⟨hBefore, hk0, -⟩ := hNamed k hLast
      omega
  · intro hNotZero k hLast
    obtain ⟨hk0, hkLt, hNext⟩ : 0 ≤ k ∧ k < s.waypoints.length ∧
      s.nextWaypoint = (k + 1) % s.waypoints.length := h.last k hLast
    refine ⟨?_, hk0, hkLt⟩
    rcases emod_succ_cases hk0 hkLt with ⟨hMod, -⟩ | ⟨hMod, -⟩ <;> omega

/-- The message of the final leg. -/
theorem updateWaypointInc_named_final (h : Progress (s, last)) (hFinal : s.onFinalLeg = true)
    {k : Int} (hk : (if s.atGoal then some ((s.waypoints.length : Int) - 1) else last) = some k) :
    (if s.atGoal then s.nextWaypoint else s.nextWaypoint - 1) = k ∧ 0 ≤ k ∧
      k < s.waypoints.length := by
  have hTwo : 2 ≤ s.waypoints.length := h.two
  simp only [onFinalLeg, Bool.and_eq_true, Bool.not_eq_true', beq_iff_eq] at hFinal
  have hEnd : s.nextWaypoint = (s.waypoints.length : Int) - 1 := hFinal.2
  split at hk
  · next hGoal =>
    rw [if_pos hGoal, ← Option.some.inj hk]
    omega
  · next hFar =>
    rw [if_neg hFar]
    exact h.before_next_iff.mpr (by omega) k hk

/-- Off the final leg, the first waypoint is the next one only on a repeated list. -/
theorem Progress.wraps_iff (h : Progress (s, last)) (hOther : s.onFinalLeg = false) :
    (s.repeatWaypoints = true ∧ (s.nextWaypoint = 0 ∧ s.passedNow = none ∨
        s.nextWaypoint = (s.waypoints.length : Int) - 1 ∧ s.passedNow ≠ none)) ↔
      s.nextWaypoint = 0 ∧ s.passedNow = none ∨
        s.nextWaypoint = (s.waypoints.length : Int) - 1 ∧ s.passedNow ≠ none := by
  refine ⟨And.right, fun hWraps => ⟨?_, hWraps⟩⟩
  by_contra hOnce
  have hOnce : s.repeatWaypoints = false := Bool.eq_false_iff.mpr hOnce
  rcases hWraps with ⟨hZero, -⟩ | ⟨hEnd, -⟩
  · have hOnward : 1 ≤ s.nextWaypoint := h.onward hOnce
    omega
  · exact next_ne_last hOther hOnce hEnd

/-- **One message.** It names the waypoint passed last unless the first waypoint of a repeated
list is the next one. -/
theorem updateWaypointInc_named_iff (h : Progress (s, last)) {msg : TackerState}
    (hInc : s.updateWaypointInc = some t)
    (hMsg : msg.lastWaypoint = some (if s.atGoal then s.nextWaypoint else t.nextWaypoint - 1)) :
    (∀ k, (if s.atGoal then some ((s.waypoints.length : Int) - 1) else s.passedNow.or last) =
        some k → msg.lastWaypoint = some k ∧ 0 ≤ k ∧ k < s.waypoints.length) ↔
    ¬ (s.repeatWaypoints = true ∧ (s.nextWaypoint = 0 ∧ s.passedNow = none ∨
      s.nextWaypoint = (s.waypoints.length : Int) - 1 ∧ s.passedNow ≠ none)) := by
  obtain ⟨h0, hLt⟩ := h.range
  have hSome : s.waypoints.length ≠ 0 := by omega
  simp only [hMsg, Option.some.injEq]
  by_cases hFinal : s.onFinalLeg = true
  · have hNone : s.passedNow = none := if_pos hFinal
    obtain ⟨done, rfl⟩ := updateWaypointInc_goal hSome hFinal hInc
    have hOnce : s.repeatWaypoints = false := by
      rw [onFinalLeg, Bool.and_eq_true, Bool.not_eq_true'] at hFinal
      exact hFinal.1
    rw [hNone, Option.none_or, hOnce]
    exact ⟨fun _ hWraps => Bool.false_ne_true hWraps.1,
      fun _ k hk => updateWaypointInc_named_final h hFinal hk⟩
  · have hOther := Bool.eq_false_iff.mpr hFinal
    obtain ⟨hNext, hPassed, -⟩ := updateWaypointInc_passing hSome hOther hInc
    have hGoal : ¬ s.atGoal = true := by
      rw [atGoal, hOther, Bool.false_and]
      exact Bool.false_ne_true
    rw [h.wraps_iff hOther, if_neg hGoal, if_neg hGoal]
    cases hNow : s.passedNow with
    | none =>
      rw [hNow, if_pos rfl] at hNext
      rw [hNext, Option.none_or, h.before_next_iff]
      simp
    | some k =>
      rw [hNow, if_neg (Option.some_ne_none _)] at hNext
      obtain rfl := hPassed k hNow
      rw [hNext, Option.some_or]
      constructor
      · rintro hNamed (⟨-, hNot⟩ | ⟨hEnd, -⟩)
        · cases hNot
        · have hBefore := (hNamed _ rfl).1
          rcases emod_succ_cases h0 hLt with ⟨-, hBelow⟩ | ⟨hMod, -⟩ <;> omega
      · intro hWraps k hk
        obtain rfl := Option.some.inj hk
        have hNotLast : s.nextWaypoint ≠ (s.waypoints.length : Int) - 1 :=
          fun hEnd => hWraps (.inr ⟨hEnd, Option.some_ne_none _⟩)
        refine ⟨?_, h0, hLt⟩
        rcases emod_succ_cases h0 hLt with ⟨hMod, -⟩ | ⟨-, hEnd⟩ <;> omega

/-- What is sent names the waypoint passed last, if and only if the list does not wrap. -/
theorem lastNamed_iff {x : LinePlan R × Option Int} (h : Progress x) :
    LastNamed x a ↔ ¬ Wraps x.1 a := by
  obtain ⟨s, last⟩ := x
  cases a with
  | boatState pos yaw =>
    obtain ⟨u, hMove⟩ := moveRef_total (s.takeBoatState pos yaw)
    have hMoved := moved_progress h hMove
    obtain ⟨t, hInc⟩ := updateWaypointInc_total hMoved.indexed
    obtain ⟨-, msg, hQueue, hMsg⟩ := updateWaypointInc_progress hMoved hInc
    have hNote : notePassed s (.boatState pos yaw) last = u.passedNow.or last := by
      rw [notePassed, hMove, Option.bind_some]
    have hSent : sentStates s t = [msg] := by
      obtain ⟨-, -, hKeeps⟩ := takeBoatState_moveRef_keeps h.sized hMove
      rw [sentStates, hQueue, hKeeps, List.drop_left]
    have hNamed := updateWaypointInc_named_iff hMoved hInc hMsg
    constructor
    · rintro hLast ⟨w, hw, hWraps⟩
      rw [hMove, Option.some.injEq] at hw
      subst hw
      refine hNamed.mp (fun k hk => ?_) hWraps
      exact hLast u t k hMove hInc (by rwa [hNote]) msg
        (by rw [hSent]; exact List.mem_singleton_self _)
    · intro hWraps u' t' k hMove' hInc' hk msg' hMem
      rw [hMove, Option.some.injEq] at hMove'
      subst hMove'
      rw [hInc, Option.some.injEq] at hInc'
      subst hInc'
      rw [hSent, List.mem_singleton] at hMem
      subst hMem
      rw [hNote] at hk
      exact hNamed.mpr (fun hNot => hWraps ⟨u, hMove, hNot⟩) k hk
  | _ => exact ⟨fun _ hNot => hNot, fun _ => trivial⟩

/-- Every step without a new list keeps the order. -/
theorem step_progress (h : Progress (s, last)) (hNone : takenList a = none)
    (hstep : step v s a = some t) : Progress (t, notePassed s a last) := by
  rcases step_cases hstep with ⟨msg, rfl, ⟨-, rfl⟩ | ⟨hSome, -⟩⟩ |
    ⟨pos, yaw, u, rfl, hMove, hInc⟩ | ⟨polygons, lonlat, rfl, rfl⟩ |
    ⟨-, hNot, _, _, _, _, _, rfl⟩
  · exact h
  · rw [takenList, if_neg hSome] at hNone
    cases hNone
  · rw [notePassed, hMove, Option.bind_some]
    exact (updateWaypointInc_progress (moved_progress h hMove) hInc).1
  · exact ⟨⟨h.sized.length, h.sized.next, h.sized.areGates⟩, h.flags, h.two, h.start, h.last,
      h.onward⟩
  · have hNote : notePassed s a last = last := by
      cases a with
      | boatState pos yaw => exact absurd rfl (hNot pos yaw)
      | _ => rfl
    rw [hNote]
    exact ⟨⟨h.sized.length, h.sized.next, h.sized.areGates⟩, h.flags, h.two, h.start, h.last,
      h.onward⟩

/-- **The waypoint passed last.** Let a run come to a state with at least two waypoints, the next
of which has the index one, and let no further list be taken. From there on every message names
the waypoint passed last if and only if the first waypoint of a repeated list never is the next
one when a message is sent. -/
theorem last_waypoint_iff (v : Bool) (s₀ : LinePlan R) (pre as : List (LinePlanMsg R))
    (hrun : run (step v) (init s₀) pre = some s) (hTwo : 2 ≤ s.waypoints.length)
    (hNext : s.nextWaypoint = 1) (hOne : ∀ a ∈ as, takenList a = none) :
    Along (noted (step v) notePassed) LastNamed (s, none) as ↔
      Along (noted (step v) notePassed) (fun x a => ¬ Wraps x.1 a) (s, none) as := by
  have hPlanned := run_planned hrun
  have hStart : Progress (s, none) := ⟨hPlanned.sized, hPlanned.flags, hTwo, fun _ => hNext, nofun,
    fun _ => hNext.ge⟩
  have hTakes : Along (noted (step v) notePassed) (fun _ a => takenList a = none) (s, none) as :=
    along_of_forall (fun a ha _ => hOne a ha) _
  have hStep : ∀ P : LinePlan R × Option Int → LinePlanMsg R → Prop, ∀ x a y, Progress x →
      takenList a = none ∧ P x a → noted (step v) notePassed x a = some y → Progress y := by
    rintro P ⟨s, last⟩ a ⟨t, last'⟩ hProgress ⟨hNone, -⟩ hstep
    obtain ⟨hstep, rfl⟩ := noted_eq_some.mp hstep
    exact step_progress hProgress hNone hstep
  constructor
  · intro hNamed
    exact along_of_inv (hStep LastNamed) (fun x a h hP => (lastNamed_iff h).mp hP.2) hStart
      (along_and hTakes hNamed)
  · intro hWraps
    exact along_of_inv (hStep fun x a => ¬ Wraps x.1 a) (fun x a h hP => (lastNamed_iff h).mpr hP.2)
      hStart (along_and hTakes hWraps)

end Passed

/-- Three waypoints, and the boat passes the one at index one. -/
theorem last_waypoint_passed :
    ∃ s, run (step false) (init (zeroed : LinePlan (Double .exact .atZero)))
        [.waypoints { points := [.zero, .zero, .zero] }] = some s ∧
      s.passedNow = some 1 ∧
      Along (noted (step false) notePassed) LastNamed (s, none) [.boatState .zero (lit 0)] := by
  have hRuns : (run (step false) (init (zeroed : LinePlan (Double .exact .atZero)))
      [.waypoints { points := [.zero, .zero, .zero] }]).map
        (fun s => (s.waypoints.length, s.nextWaypoint, s.passedNow, s.repeatWaypoints)) =
      some (3, 1, some 1, false) := by
    decide +kernel
  obtain ⟨s, hrun, hEq⟩ := Option.map_eq_some_iff.mp hRuns
  simp only [Prod.mk.injEq] at hEq
  obtain ⟨hLength, hNext, hPassed, hOnce⟩ := hEq
  refine ⟨s, hrun, hPassed, (last_waypoint_iff false zeroed _ _ hrun (by omega) hNext
    fun a ha => ?_).mpr ⟨?_, fun _ _ => trivial⟩⟩
  · rw [List.mem_singleton.mp ha]
    rfl
  · rintro ⟨u, hMove, hRepeat, -⟩
    have hList := (Prod.mk.inj (moveRef_list hMove)).2
    have hSame : u.repeatWaypoints = s.repeatWaypoints := hList
    rw [hSame, hOnce] at hRepeat
    cases hRepeat

/-- A repeated list of two waypoints, and the boat passes the second one. -/
theorem last_waypoint_negative :
    ¬ ∀ (s₀ s : LinePlan (Double .exact .atZero))
      (pre as : List (LinePlanMsg (Double .exact .atZero))),
      run (step false) (init s₀) pre = some s → 2 ≤ s.waypoints.length → s.nextWaypoint = 1 →
      (∀ a ∈ as, takenList a = none) →
      Along (noted (step false) notePassed) LastNamed (s, none) as := by
  intro hAll
  have hRuns : ((run (step false) (init (zeroed : LinePlan (Double .exact .atZero)))
      [.waypoints { points := [.zero, .zero], repeats := true }]).bind fun s =>
        (s.takeBoatState .zero (lit 0)).moveRef.bind fun u => u.updateWaypointInc.map fun t =>
          (s.waypoints.length, s.nextWaypoint, u.atGoal, u.passedNow,
            (sentStates s t).map (·.lastWaypoint))) =
      some (2, 1, false, some 1, [some (-1)]) := by
    decide +kernel
  simp only [Option.bind_eq_some_iff, Option.map_eq_some_iff, Prod.mk.injEq] at hRuns
  obtain ⟨s, hrun, u, hMove, t, hInc, hLength, hNext, hGoal, hPassed, hSent⟩ := hRuns
  obtain ⟨msg, hMsgs, hMsg⟩ := List.map_eq_singleton_iff.mp hSent
  have hAlong := hAll zeroed s _ [.boatState .zero (lit 0)] hrun (by omega) hNext fun a ha => by
    rw [List.mem_singleton.mp ha]
    rfl
  have hNamed := hAlong.1 u t 1 hMove hInc (by
    rw [hGoal, if_neg Bool.false_ne_true, notePassed, hMove, Option.bind_some, hPassed]
    rfl) msg (by
    rw [hMsgs]
    exact List.mem_singleton_self msg)
  rw [hMsg] at hNamed
  cases hNamed.1

end Sailbot.Control.LinePlan

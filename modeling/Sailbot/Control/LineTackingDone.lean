import Sailbot.Control.LineTackingIndex

/-!
# The end of the tacker's course

`tacker_state` says whether the last waypoint is reached. What decides is the last element of the
array that is in use: for a list that does not fit into the array this is not the last point of the
list, and for a list without points it is the position of the boat.

* `LineTacker.goalHeading_cases`       — what `GoalHeading` does to the state.
* `LineTacker.goalHeading_atLast`      — the step of the course.
* `LineTacker.done_only_at_last`       — along a run after a list that fits, the boat is near its
  last point when the tacker is done.
* `LineTacker.done_before_eleventh`    — the list that goes wrong.
-/

namespace Sailbot.Control.LineTacker

open Lib
open Lib.Arith (lit litf)

variable {R : Type} {toFloat : R → R} {s t : LineTacker R} {a : LineTackerMsg R}
  {msg : WaypointList R}

-- ---------------------------------------------------------------------------
-- Statement
-- ---------------------------------------------------------------------------

/-- The messages that a step sends on `tacker_state`. -/
def sentStates (s t : LineTacker R) : List TackerState := t.stateQueue.drop s.stateQueue.length

/-- The boat is near the last point of a list, by the margin of the last waypoint. -/
def AtLast [Arith R] (toFloat : R → R) (msg : WaypointList R) (s : LineTacker R) : Prop :=
  ∃ p moe, msg.points.getLast? = some p ∧ atInt s.waypointMoe (s.wayLen - 1) = some moe ∧
    isNear toFloat s p moe = true

/-- A step has a result, and where it reports the end of the course, the boat is there. -/
def DoneAtLast [Arith R] (toFloat : R → R) (msg : WaypointList R) (s : LineTacker R)
    (a : LineTackerMsg R) : Prop :=
  ∃ t, step toFloat s a = some t ∧
    ∀ state ∈ sentStates s t, state.done = some true → AtLast toFloat msg s

/-- The whole list is put into the array, and there is a point at all or nothing to sail. -/
structure Fits (msg : WaypointList R) : Prop where
  length : msg.points.length + offsetOf msg ≤ 10
  course : msg.points ≠ [] ∨ msg.definedStart = true

-- ---------------------------------------------------------------------------
-- Steps
-- ---------------------------------------------------------------------------

/-- What was sent in a step was appended in it. -/
theorem mem_of_sentStates {sent : List TackerState} {state : TackerState}
    (hSent : state ∈ sentStates s t) (h : t.stateQueue = s.stateQueue ++ sent) : state ∈ sent := by
  rwa [sentStates, h, List.drop_left] at hSent

/-- A step that leaves the queue has sent nothing. -/
theorem not_sentStates {state : TackerState} (h : t.stateQueue = s.stateQueue) :
    state ∉ sentStates s t := fun hSent =>
  List.not_mem_nil (mem_of_sentStates hSent (h.trans (List.append_nil _).symm))

/-- Only the first waypoint is computed again. -/
theorem recalc_cases (h : recalc s = some t) :
    ∃ w, t = { s with waypoints := w } ∧
      (w = s.waypoints ∨ s.recalcZero = true ∧ w = s.waypoints.set 0 s.curPos) := by
  unfold recalc at h
  split at h
  · next hZero =>
    obtain ⟨w, hSet, rfl⟩ := Option.map_eq_some_iff.mp h
    unfold setAt at hSet
    split at hSet
    · cases hSet
      exact ⟨_, rfl, .inr ⟨hZero, rfl⟩⟩
    · cases hSet
  · cases h
    exact ⟨s.waypoints, rfl, .inl rfl⟩

/-- The leg ends at the next waypoint, with its margin. -/
theorem leg_cases {l : Leg R} (h : leg s = some l) :
    ∃ next, modulo (s.i + 1) s.wayLen = some next ∧ atInt s.waypoints next = some l.endPt ∧
      atInt s.waypointMoe next = some l.moe := by
  simp only [leg, Option.bind_eq_bind, Option.bind_eq_some_iff, Option.pure_def,
    Option.some.injEq] at h
  obtain ⟨next, hNext, start, -, endPt, hEnd, moe, hMoe, rfl⟩ := h
  exact ⟨next, hNext, hEnd, hMoe⟩

/-- A list that is not repeated ends when the boat is near the waypoint of the last leg. -/
theorem advance_done (hOnce : s.repeats = false) {near : Bool} {i : Int} {done : Bool}
    (h : advance s near = some (i, done)) :
    (s.i ≤ i ∧ i ≤ max (s.wayLen - 2) s.i) ∧
      (done = true → near = true ∧ s.wayLen - 2 ≤ s.i) := by
  unfold advance at h
  split at h
  · next hNear =>
    split at h
    · cases h
      exact ⟨⟨by omega, by omega⟩, nofun⟩
    next hLast =>
    rw [hOnce, if_neg Bool.false_ne_true] at h
    cases h
    exact ⟨⟨le_rfl, le_max_right _ _⟩, fun _ => ⟨hNear, not_lt.mp hLast⟩⟩
  · cases h
    exact ⟨⟨le_rfl, le_max_right _ _⟩, nofun⟩

/-- The end of the last leg is the last waypoint, which for a single one is also its start. -/
theorem next_lastLeg {i n next : Int} (h0 : 0 ≤ i) (hi : i ≤ max (n - 2) 0) (hLast : n - 2 ≤ i)
    (hn : 0 < n) (h : modulo (i + 1) n = some next) : next = n - 1 := by
  rw [modulo, if_neg (ne_of_gt hn), Option.some.injEq] at h
  by_cases hOne : n = 1
  · rw [← h, hOne, Int.tmod_one]
    rfl
  · rw [← h, Int.tmod_eq_of_lt (by omega) (by omega)]
    omega

-- ---------------------------------------------------------------------------
-- The course
-- ---------------------------------------------------------------------------

/-- The tacker sails a list: the index is not behind the last leg, and the last waypoint is the last
point of the list. -/
structure Course (msg : WaypointList R) (s : LineTacker R) : Prop where
  repeats : s.repeats = false
  wayLen  : s.wayLen = msg.points.length + offsetOf msg
  start   : s.recalcZero = true → offsetOf msg = 1
  nonneg  : 0 ≤ s.i
  lastLeg : s.i ≤ max (s.wayLen - 2) 0
  last    : atInt s.waypoints (s.wayLen - 1) = msg.points.getLast?

/-- The boat's position is never the last waypoint. -/
theorem Course.last_recalc (h : Course msg s) (hCourse : msg.points ≠ []) {w : List (Vec R)}
    (hRecalc : recalc s = some { s with waypoints := w }) :
    atInt w (s.wayLen - 1) = msg.points.getLast? := by
  obtain ⟨w', hEq, hCases⟩ := recalc_cases hRecalc
  have hWay : w = w' := congrArg LineTacker.waypoints hEq
  subst hWay
  rcases hCases with rfl | ⟨hZero, rfl⟩
  · exact h.last
  · have hPoints := List.length_pos_iff.mpr hCourse
    have hLen := h.wayLen
    have hOffset := h.start hZero
    have hNe : (0 : Nat) ≠ (s.wayLen - 1).toNat := by omega
    rw [← h.last, atInt, atInt, List.getElem?_set_ne hNe]

/-- The last waypoint of the array is the last point of the list. -/
theorem atInt_last (hFits : Fits msg) {w : List (Vec R)}
    (hPoints : ∀ j : Nat, j < (msg.points.length : Int) →
      w[j + offsetOf msg]? = msg.points[j]?) :
    atInt w (msg.points.length + offsetOf msg - 1) = msg.points.getLast? := by
  by_cases hNone : msg.points = []
  · have hOffset : offsetOf msg = 0 := if_pos (hFits.course.resolve_left fun h => h hNone)
    rw [hOffset, hNone]
    rfl
  · have hPos := List.length_pos_iff.mpr hNone
    have hIndex : ((msg.points.length : Int) + offsetOf msg - 1).toNat =
        msg.points.length - 1 + offsetOf msg := by
      omega
    rw [atInt, if_pos (by omega), hIndex, hPoints _ (by omega), List.getLast?_eq_getElem?]

/-- A list that is restarted and fits begins a course, in any state. -/
theorem processWaypoints_course (h : Arrays s) (hRestart : msg.restart = true)
    (hOnce : msg.repeats = false) (hFits : Fits msg) (hstep : s.processWaypoints msg = some t) :
    Course msg t := by
  have hStart : s.starti msg = 0 := if_pos hRestart
  obtain ⟨w, hCopy, -, hPoints⟩ := copyPoints_total msg hStart.ge h.waypoints
  have hLength := hFits.length
  have hCnt : s.cnt msg = msg.points.length := by
    rw [cnt, hStart, nWaypoints]
    omega
  rw [hCnt, hStart] at hPoints
  rw [processWaypoints, hCopy, Option.map_some, Option.some.injEq] at hstep
  subst hstep
  exact {
    repeats := hOnce
    wayLen := by rw [← hCnt]
    start := fun hZero => by
      simp only [Bool.not_eq_true'] at hZero
      rw [offsetOf, hZero, if_neg Bool.false_ne_true]
    nonneg := le_rfl
    lastLeg := le_max_right _ _
    last := by
      simp only [hCnt]
      exact atInt_last hFits hPoints }

variable [Arith R]

-- ---------------------------------------------------------------------------
-- Headings
-- ---------------------------------------------------------------------------

/-- The message, the index and the distance are what changes, besides the first waypoint. -/
theorem goalHeading_cases {heading : R} (h : goalHeading toFloat s = some (t, heading)) :
    ∃ w l i done dist, recalc s = some { s with waypoints := w } ∧
      leg { s with waypoints := w } = some l ∧
      advance s (isNear toFloat s l.endPt l.moe) = some (i, done) ∧
      t = { s with
        waypoints := w
        curDist := dist
        i := i
        stateQueue := s.stateQueue ++ [{ done := some done, lastWaypoint := some i }] } := by
  simp only [goalHeading, Option.bind_eq_bind, Option.bind_eq_some_iff, Option.pure_def,
    Option.some.injEq, Prod.mk.injEq] at h
  obtain ⟨u, hRecalc, l, hLeg, ⟨i, done⟩, hAdvance, _, -, rfl, -⟩ := h
  obtain ⟨w, rfl, -⟩ := recalc_cases hRecalc
  exact ⟨w, l, i, done, _, hRecalc, hLeg, hAdvance, rfl⟩

/-- An iteration does nothing, or it follows the heading that it computes. -/
theorem iterate_cases (h : iterate toFloat s = some t) :
    t = s ∨ s.wayLen ≠ 0 ∧ ∃ u heading, goalHeading toFloat s = some (u, heading) ∧
      ∃ headings consts, t = { u with
        heading := toFloat heading
        headingQueue := headings
        constsQueue := consts } := by
  unfold iterate at h
  split at h
  · exact .inl (Option.some.inj h).symm
  next hSome =>
  split at h
  · exact .inl (Option.some.inj h).symm
  · obtain ⟨⟨u, heading⟩, hGoal, rfl⟩ := Option.map_eq_some_iff.mp h
    exact .inr ⟨hSome, u, heading, hGoal, _, _, rfl⟩

/-- **Step.** `GoalHeading` sends one message, and the course goes on. -/
theorem goalHeading_atLast (h : Course msg s) (hSome : msg.points ≠ []) {heading : R}
    (hGoal : goalHeading toFloat s = some (t, heading)) :
    Course msg t ∧ ∃ state, t.stateQueue = s.stateQueue ++ [state] ∧
      (state.done = some true → AtLast toFloat msg s) := by
  obtain ⟨w, l, i, done, dist, hRecalc, hLeg, hAdvance, rfl⟩ := goalHeading_cases hGoal
  have hLast := h.last_recalc hSome hRecalc
  have hPoints := List.length_pos_iff.mpr hSome
  have hLen := h.wayLen
  have hNonneg := h.nonneg
  have hLastLeg := h.lastLeg
  obtain ⟨⟨hLe, hIndex⟩, hEnd⟩ := advance_done h.repeats hAdvance
  refine ⟨⟨h.repeats, h.wayLen, h.start, by simp only; omega, by simp only; omega, hLast⟩,
    { done := some done, lastWaypoint := some i }, rfl, fun hDone => ?_⟩
  obtain ⟨hNear, hOver⟩ := hEnd (Option.some.inj hDone)
  obtain ⟨next, hNext, hEndPt, hMoe⟩ := leg_cases hLeg
  have hNextLast : next = s.wayLen - 1 :=
    next_lastLeg hNonneg hLastLeg hOver (by omega) hNext
  subst hNextLast
  exact ⟨l.endPt, l.moe, hLast ▸ hEndPt, hMoe, hNear⟩

/-- An iteration that reports the end is at the last waypoint. -/
theorem iterate_atLast (h : Course msg s) (hCourse : msg.points ≠ [] ∨ msg.definedStart = true)
    (hIterate : iterate toFloat s = some t) :
    Course msg t ∧ ∀ state ∈ sentStates s t, state.done = some true → AtLast toFloat msg s := by
  rcases iterate_cases hIterate with rfl | ⟨hSome, u, heading, hGoal, headings, consts, rfl⟩
  · exact ⟨h, fun state hSent => absurd hSent (not_sentStates rfl)⟩
  · have hPoints : msg.points ≠ [] := by
      rcases hCourse with hPoints | hStart
      · exact hPoints
      · intro hNone
        refine hSome ?_
        rw [h.wayLen, hNone, offsetOf, if_pos hStart]
        rfl
    obtain ⟨hNext, state, hQueue, hDone⟩ := goalHeading_atLast h hPoints hGoal
    refine ⟨{ hNext with }, ?_⟩
    intro other hSent
    rw [List.mem_singleton.mp (mem_of_sentStates hSent hQueue)]
    exact hDone

/-- Before the next list, every step keeps the course. -/
theorem step_atLast (h : Course msg s) (hCourse : msg.points ≠ [] ∨ msg.definedStart = true)
    (hOther : ∀ other, a ≠ .waypoints other) (hstep : step toFloat s a = some t) :
    Course msg t ∧ ∀ state ∈ sentStates s t, state.done = some true → AtLast toFloat msg s := by
  cases a with
  | waypoints other => exact absurd rfl (hOther other)
  | iterate => exact iterate_atLast h hCourse hstep
  | tackerConsts | trueWind | wind | boatState | controlMode =>
    cases hstep
    exact ⟨{ h with }, fun state hSent => absurd hSent (not_sentStates rfl)⟩

-- ---------------------------------------------------------------------------
-- Runs
-- ---------------------------------------------------------------------------

/-- Before the next list, every step has a result, with which the course goes on. -/
theorem step_goesOn (toFloat : R → R) (hCourse : Course msg s) (hIndexed : Indexed s)
    (hSail : msg.points ≠ [] ∨ msg.definedStart = true) (hOther : ∀ other, a ≠ .waypoints other) :
    ∃ t, step toFloat s a = some t ∧ (Course msg t ∧ Indexed t) ∧
      ∀ state ∈ sentStates s t, state.done = some true → AtLast toFloat msg s := by
  have hFits : Continues s a := fun other hList => absurd hList (hOther other)
  obtain ⟨t, hstep, hNext⟩ := step_indexed toFloat hIndexed hFits
  obtain ⟨hGoesOn, hDone⟩ := step_atLast hCourse hSail hOther hstep
  exact ⟨t, hstep, ⟨hGoesOn, hNext⟩, hDone⟩

/-- **The end.** A list of at most ten waypoints with the start, which is not repeated, is taken in
any state. Until the next list, whatever else is received, the tacker reports the end only when the
boat is near the last point of the list. -/
theorem done_only_at_last (h : Arrays s) (hRestart : msg.restart = true)
    (hOnce : msg.repeats = false) (hFits : Fits msg) {as : List (LineTackerMsg R)}
    (hOther : ∀ a ∈ as, ∀ other, a ≠ .waypoints other) :
    ∃ t, step toFloat s (.waypoints msg) = some t ∧
      Along (step toFloat) (DoneAtLast toFloat msg) t as := by
  have hStart : s.starti msg = 0 := if_pos hRestart
  obtain ⟨t, hTake, hIndexed⟩ :=
    processWaypoints_indexed h hStart.ge (hStart.trans_le (Int.natCast_nonneg _))
  refine ⟨t, hTake, ?_⟩
  have hCourse := processWaypoints_course h hRestart hOnce hFits hTake
  refine along_of_inv (I := fun s => Course msg s ∧ Indexed s)
    (P := fun _ a => ∀ other, a ≠ .waypoints other) ?_ ?_ ⟨hCourse, hIndexed⟩
    (along_of_forall (fun a ha _ => hOther a ha) t)
  · intro s a t hInv hOther hstep
    obtain ⟨u, hu, hNext, -⟩ := step_goesOn toFloat hInv.1 hInv.2 hFits.course hOther
    rw [hstep, Option.some.injEq] at hu
    exact hu ▸ hNext
  · intro s a hInv hOther
    obtain ⟨t, hstep, -, hDone⟩ := step_goesOn toFloat hInv.1 hInv.2 hFits.course hOther
    exact ⟨t, hstep, hDone⟩

def threePoints : WaypointList (Double .exact .atZero) where
  points := [⟨lit (1 / 1000), lit 0⟩, ⟨lit (2 / 1000), lit (1 / 1000)⟩, ⟨lit (3 / 1000), lit 0⟩]

/-- The boat is at one waypoint after the other. -/
def visits : List (LineTackerMsg (Double .exact .atZero)) :=
  threePoints.points.flatMap fun p =>
    [.boatState { pos := { x := some p.x, y := some p.y } }, .iterate]

/-- The end is reported when it is at the third one. -/
theorem done_only_at_last_three :
    ∃ t, step id (fresh (zeroed : LineTacker (Double .exact .atZero)))
        (.waypoints threePoints) = some t ∧
      Along (step id) (DoneAtLast id threePoints) t visits ∧
      (run (step id) t visits).map (fun u => u.stateQueue.map TackerState.done) =
        some [some false, some false, some true] := by
  have hOther : ∀ a ∈ visits, ∀ other, a ≠ .waypoints other := by
    intro a ha other
    obtain ⟨p, -, hIn⟩ := List.mem_flatMap.mp ha
    rcases List.mem_pair.mp hIn with rfl | rfl
    · exact nofun
    · exact nofun
  obtain ⟨t, hTake, hAlong⟩ : ∃ t, step id (fresh zeroed) (.waypoints threePoints) = some t ∧
      Along (step id) (DoneAtLast id threePoints) t visits :=
    done_only_at_last (fresh_indexed zeroed).toArrays rfl rfl ⟨by decide, .inr rfl⟩ hOther
  have hRuns : ((step id (fresh zeroed) (.waypoints threePoints)).bind fun t =>
      (run (step id) t visits).map fun u => u.stateQueue.map TackerState.done) =
        some [some false, some false, some true] := by
    decide +kernel
  rw [hTake, Option.bind_some] at hRuns
  exact ⟨t, hTake, hAlong, hRuns⟩

/-- Ten waypoints at zero and an eleventh at one degree of longitude. -/
def eleven : WaypointList (Double .exact .atZero) where
  points := List.replicate 10 .zero ++ [⟨lit 1, lit 0⟩]

/-- The boat is at zero, where the first ten waypoints are: the ninth iteration reports the end. -/
theorem done_before_eleventh :
    ¬ ∀ (s : LineTacker (Double .exact .atZero)) (msg : WaypointList (Double .exact .atZero))
        (as : List (LineTackerMsg (Double .exact .atZero))), Arrays s → msg.restart = true →
      msg.repeats = false → (∀ a ∈ as, ∀ other, a ≠ .waypoints other) →
      ∃ t, step id s (.waypoints msg) = some t ∧ Along (step id) (DoneAtLast id msg) t as := by
  intro hAll
  have hRuns : ((step id (fresh zeroed) (.waypoints eleven)).bind fun s =>
      (run (step id) s (List.replicate 8 .iterate)).bind fun u => (step id u .iterate).bind fun t =>
        (atInt u.waypointMoe (u.wayLen - 1)).map fun moe =>
          (sentStates u t, eleven.points.getLast?.map fun p => isNear id u p moe)) =
      some ([{ done := some true, lastWaypoint := some 8 }], some false) := by
    decide +kernel
  simp only [Option.bind_eq_some_iff, Option.map_eq_some_iff, Prod.mk.injEq] at hRuns
  obtain ⟨s, hTake, u, hrun, t, hstep, moe, hMoe, hSent, p, hLast, hFar⟩ := hRuns
  obtain ⟨s', hTake', hAlong⟩ := hAll (fresh zeroed) eleven
    (List.replicate 8 .iterate ++ [.iterate]) (fresh_indexed zeroed).toArrays rfl rfl (by
      intro a ha other
      rw [← List.replicate_succ', List.mem_replicate] at ha
      rw [ha.2]
      exact nofun)
  rw [hTake, Option.some.injEq] at hTake'
  subst hTake'
  obtain ⟨t', hstep', hDone⟩ := along_at hAlong hrun
  rw [hstep, Option.some.injEq] at hstep'
  subst hstep'
  obtain ⟨p', moe', hLast', hMoe', hNear⟩ := hDone { done := some true, lastWaypoint := some 8 } (by
    rw [hSent]
    exact List.mem_singleton.mpr rfl) rfl
  rw [hLast, Option.some.injEq] at hLast'
  rw [hMoe, Option.some.injEq] at hMoe'
  rw [← hLast', ← hMoe', hFar] at hNear
  cases hNear

end Sailbot.Control.LineTacker

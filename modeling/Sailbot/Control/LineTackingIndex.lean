import Sailbot.Control.LineTacking

/-!
# The indices of the tacker

What the messages and iterations of `LineTacker` do to its indices. A list that is not restarted is
read from the index at which the last one was left, also if it is shorter than that: then the number
of waypoints is negative.

* `LineTacker.copyPoints_total`  — the loop of `ProcessWaypoints` stays in the arrays.
* `LineTacker.goalHeading_total` — so does `GoalHeading`, and the index stays that of a waypoint.
* `LineTacker.indices_iff`       — the indices are in range on the runs on which no list ends before
  the index at which it is to be continued.
-/

namespace Sailbot.Control.LineTacker

open Lib
open Lib.Arith (lit litf)

variable {R : Type}

/-- The number of waypoints fits into the arrays, the index is one of a waypoint, and the list that
was received last does not end before the index at which it is read. -/
structure InRange (s : LineTacker R) : Prop where
  wayLen     : 0 ≤ s.wayLen ∧ s.wayLen ≤ 10
  i          : 0 ≤ s.i ∧ s.i < max s.wayLen 1
  msgIOffset : s.msgIOffset ≤ s.listSize

/-- The lengths that the arrays are declared with. -/
structure Arrays (s : LineTacker R) : Prop where
  waypoints : s.waypoints.length = 10
  bounds    : s.bounds.length = 10
  moe       : s.waypointMoe.length = 10

structure Indexed (s : LineTacker R) : Prop extends InRange s, Arrays s where
  start : 0 ≤ s.msgIOffset

/-- A list of waypoints does not end before the index at which it is continued. -/
def Continues (s : LineTacker R) (a : LineTackerMsg R) : Prop :=
  ∀ msg, a = .waypoints msg → msg.restart = true ∨ s.msgIOffset + s.i ≤ msg.points.length

variable {toFloat : R → R} {s t : LineTacker R} {a : LineTackerMsg R} {msg : WaypointList R}

/-- What a step has to do: it has a result, in which the indices are in range, and the modulus with
which an iteration computes is positive. -/
structure KeepsRange [Arith R] (toFloat : R → R) (s : LineTacker R) (a : LineTackerMsg R) :
    Prop where
  result  : ∃ t, step toFloat s a = some t ∧ InRange t
  modulus : a = .iterate → s.wayLen ≠ 0 → 0 < s.wayLen

-- ---------------------------------------------------------------------------
-- Lists
-- ---------------------------------------------------------------------------

/-- The offset is zero or one. -/
theorem offsetOf_le (msg : WaypointList R) : offsetOf msg ≤ 1 := by
  rw [offsetOf]
  split <;> omega

/-- The first index that is read is not negative. -/
theorem starti_nonneg (h : Indexed s) (msg : WaypointList R) : 0 ≤ s.starti msg := by
  have hStart := h.start
  have hIndex := h.i.1
  rw [starti]
  split <;> omega

/-- The points that are copied lie behind one another in the list and in the array. -/
theorem copyPoints_total (msg : WaypointList R) (hStart : 0 ≤ s.starti msg)
    (hLength : s.waypoints.length = 10) :
    ∃ w, s.copyPoints msg = some w ∧ w.length = 10 ∧
      ∀ j : Nat, j < s.cnt msg → w[j + offsetOf msg]? = msg.points[j + (s.starti msg).toNat]? := by
  have hOffset := offsetOf_le msg
  have hCnt : s.cnt msg ≤ msg.points.length - s.starti msg ∧ s.cnt msg ≤ 10 - offsetOf msg :=
    ⟨min_le_left _ _, min_le_right _ _⟩
  obtain ⟨w, hLoop, hw, hPoints⟩ := range_total (n := (s.cnt msg).toNat)
    (f := fun waypoints (i : Nat) => do
      let point ← atInt msg.points (i + s.starti msg)
      setAt waypoints (i + offsetOf msg) point)
    (I := fun k w => w.length = 10 ∧
      ∀ j < k, w[j + offsetOf msg]? = msg.points[j + (s.starti msg).toNat]?) (s := s.waypoints)
    (by
      intro w i hi ⟨hw, hPoints⟩
      have hPos : 0 ≤ (i : Int) + s.starti msg := by omega
      have hNat : ((i : Int) + s.starti msg).toNat = i + (s.starti msg).toNat := by omega
      obtain ⟨p, -, hp⟩ := getElem?_total (l := msg.points) (i := i + (s.starti msg).toNat)
        (by omega)
      have hPoint : atInt msg.points (i + s.starti msg) = some p := by
        rw [atInt, if_pos hPos, hNat, hp]
      refine ⟨w.set (i + offsetOf msg) p, ?_, ?_, ?_⟩
      · rw [hPoint]
        exact setAt_eq (by omega) p
      · rw [List.length_set, hw]
      · intro j hj
        rcases Nat.lt_succ_iff_lt_or_eq.mp hj with hLt | rfl
        · rw [List.getElem?_set_ne (by omega), hPoints j hLt]
        · rw [List.getElem?_set_self (by omega), hp])
    ⟨hLength, fun j hj => absurd hj (Nat.not_lt_zero j)⟩
  exact ⟨w, hLoop, hw, fun j hj => hPoints j (by omega)⟩

/-- A list after which the indices are in range. -/
theorem processWaypoints_indexed (h : Arrays s) (hStart : 0 ≤ s.starti msg)
    (hFits : s.starti msg ≤ msg.points.length) :
    ∃ t, s.processWaypoints msg = some t ∧ Indexed t := by
  obtain ⟨w, hCopy, hLength, -⟩ := copyPoints_total msg hStart h.waypoints
  have hOffset := offsetOf_le msg
  have hCnt : s.cnt msg = min (msg.points.length - s.starti msg) (10 - offsetOf msg) := rfl
  refine ⟨_, by rw [processWaypoints, hCopy, Option.map_some], ?_⟩
  exact {
    wayLen := by constructor <;> (simp only; omega)
    i := by constructor <;> (simp only; omega)
    msgIOffset := hFits
    start := hStart
    waypoints := hLength
    bounds := h.bounds
    moe := h.moe }

/-- What the list that is taken leaves of the indices. -/
theorem processWaypoints_eq (h : s.processWaypoints msg = some t) :
    t.msgIOffset = s.starti msg ∧ t.listSize = msg.points.length := by
  obtain ⟨w, -, rfl⟩ := Option.map_eq_some_iff.mp h
  exact ⟨rfl, rfl⟩

-- ---------------------------------------------------------------------------
-- Headings
-- ---------------------------------------------------------------------------

/-- A positive modulus gives a result in its range. -/
theorem modulo_total {a b : Int} (ha : 0 ≤ a) (hb : 0 < b) :
    ∃ c, modulo a b = some c ∧ 0 ≤ c ∧ c < b :=
  ⟨Int.tmod a b, if_neg (ne_of_gt hb), Int.tmod_nonneg b ha, Int.tmod_lt_of_pos a hb⟩

/-- `Recalc` has a result with ten waypoints. -/
theorem recalc_total (h : Indexed s) :
    ∃ w, w.length = 10 ∧ recalc s = some { s with waypoints := w } := by
  unfold recalc
  split
  · have hZero : 0 < s.waypoints.length := by
      rw [h.waypoints]
      omega
    refine ⟨s.waypoints.set 0 s.curPos, ?_, ?_⟩
    · rw [List.length_set, h.waypoints]
    · rw [setAt_eq hZero, Option.map_some]
  · exact ⟨s.waypoints, h.waypoints, rfl⟩

/-- There is a leg while the modulus is positive. -/
theorem leg_total (h : Indexed s) (hPos : 0 < s.wayLen) : ∃ l, leg s = some l := by
  obtain ⟨h0, hLt⟩ := h.i
  have hLen := h.wayLen.2
  obtain ⟨next, hNext, hNext0, hNextLt⟩ := modulo_total (a := s.i + 1) (by omega) hPos
  obtain ⟨start, -, hStart⟩ := atInt_eq (l := s.waypoints) h0 (by rw [h.waypoints]; omega)
  obtain ⟨endPt, -, hEnd⟩ := atInt_eq (l := s.waypoints) hNext0 (by rw [h.waypoints]; omega)
  obtain ⟨moe, -, hMoe⟩ := atInt_eq (l := s.waypointMoe) hNext0 (by rw [h.moe]; omega)
  refine ⟨{ start := start, endPt := endPt, moe := moe }, ?_⟩
  simp only [leg, hNext, hStart, hEnd, hMoe, Option.bind_eq_bind, Option.bind_some, Option.pure_def]

/-- The next index is that of a waypoint. -/
theorem advance_total (h : Indexed s) (hPos : 0 < s.wayLen) (near : Bool) :
    ∃ i done, advance s near = some (i, done) ∧ 0 ≤ i ∧ i < s.wayLen := by
  obtain ⟨h0, hLt⟩ := h.i
  have hOld : s.i < s.wayLen := by omega
  unfold advance
  split
  · split
    · exact ⟨s.i + 1, false, rfl, by omega, by omega⟩
    split
    · obtain ⟨next, hNext, hNext0, hNextLt⟩ := modulo_total (a := s.i + 1) (by omega) hPos
      exact ⟨next, true, by rw [hNext, Option.map_some], hNext0, hNextLt⟩
    · exact ⟨s.i, true, rfl, h0, hOld⟩
  · exact ⟨s.i, false, rfl, h0, hOld⟩

variable [Arith R]

/-- There is a heading for every leg. -/
theorem chooseHeading_total (toFloat : R → R) (h : Indexed s) (leg : Leg R) :
    ∃ heading, chooseHeading toFloat s leg = some heading := by
  obtain ⟨h0, hLt⟩ := h.i
  have hLen := h.wayLen.2
  obtain ⟨bound, -, hBound⟩ := atInt_eq (l := s.bounds) h0 (by rw [h.bounds]; omega)
  unfold chooseHeading
  split
  · exact ⟨_, rfl⟩
  · -- only this mode reads `bounds_`
    simp only [lineHeading, hBound, Option.bind_eq_bind, Option.bind_some, Option.pure_def]
    repeat' split
    all_goals exact ⟨_, rfl⟩
  · exact ⟨_, rfl⟩

/-- **`GoalHeading`.** All accesses are in range, and the indices stay in range. -/
theorem goalHeading_total (toFloat : R → R) (h : Indexed s) (hPos : 0 < s.wayLen) :
    ∃ t heading, goalHeading toFloat s = some (t, heading) ∧ Indexed t := by
  obtain ⟨w, hLength, hRecalc⟩ := recalc_total h
  have hFirst : Indexed { s with waypoints := w } := { h with waypoints := hLength }
  obtain ⟨l, hLeg⟩ := leg_total hFirst hPos
  obtain ⟨i, done, hAdvance, h0, hLt⟩ :=
    advance_total hFirst hPos (isNear toFloat { s with waypoints := w } l.endPt l.moe)
  have hNext : Indexed { s with
      waypoints := w
      curDist := toFloat (distTo toFloat { s with waypoints := w } l.endPt *
        avgscale { s with waypoints := w })
      i := i
      stateQueue := s.stateQueue ++ [{ done := some done, lastWaypoint := some i }] } :=
    { hFirst with i := ⟨h0, lt_max_of_lt_left hLt⟩ }
  obtain ⟨heading, hHeading⟩ := chooseHeading_total toFloat hNext l
  refine ⟨_, heading, ?_, hNext⟩
  simp only [goalHeading, hRecalc, hLeg, hAdvance, hHeading, Option.bind_eq_bind, Option.bind_some,
    Option.pure_def]

/-- An iteration has a result with indices in range. -/
theorem iterate_indexed (toFloat : R → R) (h : Indexed s) :
    ∃ t, iterate toFloat s = some t ∧ Indexed t := by
  unfold iterate
  split
  · exact ⟨s, rfl, h⟩
  next hSome =>
  split
  · exact ⟨s, rfl, h⟩
  · have hPos : 0 < s.wayLen := by
      have hLen := h.wayLen.1
      omega
    obtain ⟨t, heading, hGoal, hNext⟩ := goalHeading_total toFloat h hPos
    rw [hGoal]
    exact ⟨_, rfl, { hNext with }⟩

-- ---------------------------------------------------------------------------
-- Runs
-- ---------------------------------------------------------------------------

/-- A step keeps the invariant, unless it takes a list that is too short to be continued. -/
theorem step_indexed (toFloat : R → R) (h : Indexed s) (hFits : Continues s a) :
    ∃ t, step toFloat s a = some t ∧ Indexed t := by
  cases a with
  | waypoints msg =>
    refine processWaypoints_indexed h.toArrays (starti_nonneg h msg) ?_
    rw [starti]
    split
    · exact Int.natCast_nonneg _
    · next hGoesOn => exact (hFits msg rfl).resolve_left hGoesOn
  | iterate => exact iterate_indexed toFloat h
  | tackerConsts | trueWind | wind | boatState | controlMode => exact ⟨_, rfl, { h with }⟩

/-- After a list that is too short, the offset is behind its end. -/
theorem continues_of_inRange (hstep : step toFloat s a = some t) (h : InRange t) :
    Continues s a := by
  rintro msg rfl
  obtain ⟨hOffset, hSize⟩ := processWaypoints_eq hstep
  have hLe := h.msgIOffset
  rw [hOffset, hSize, starti] at hLe
  split at hLe
  · next hRestart => exact .inl hRestart
  · exact .inr hLe

/-- A step that continues inside its list keeps the range. -/
theorem keepsRange_of_continues (h : Indexed s) (hFits : Continues s a) :
    KeepsRange toFloat s a := by
  obtain ⟨t, hstep, hNext⟩ := step_indexed toFloat h hFits
  refine ⟨⟨t, hstep, hNext.toInRange⟩, ?_⟩
  intro _ hSome
  have hLen := h.wayLen.1
  omega

/-- The indices of a list that starts anew. -/
theorem fresh_indexed (s : LineTacker R) : Indexed s.fresh where
  wayLen := ⟨le_rfl, Int.natCast_nonneg 10⟩
  i := ⟨le_rfl, lt_max_of_lt_right Int.one_pos⟩
  msgIOffset := le_rfl
  start := le_rfl
  waypoints := by
    rw [fresh, List.length_append, List.length_take, List.length_replicate]
    omega
  bounds := List.length_replicate
  moe := by rw [fresh, List.length_set, List.length_replicate]

/-- The constructor has a result with indices in range, with a file and without one. -/
theorem init_indexed (s : LineTacker R) (file : Option (WaypointList R)) :
    ∃ t, init s file = some t ∧ Indexed t := by
  cases file with
  | none => exact ⟨s.fresh, rfl, fresh_indexed s⟩
  | some msg =>
    have hFresh := fresh_indexed s
    refine processWaypoints_indexed hFresh.toArrays (starti_nonneg hFresh msg) ?_
    rw [starti]
    split <;> exact Int.natCast_nonneg _

/-- **Indices.** The node begins with its indices in range. Along a run, they stay in range, every
access is in range and every modulus is positive, if and only if no list that goes on with the one
before ends in front of the index at which it is to be continued. -/
theorem indices_iff (toFloat : R → R) (s : LineTacker R) (file : Option (WaypointList R)) :
    ∃ t, init s file = some t ∧ InRange t ∧ ∀ as : List (LineTackerMsg R),
      Along (step toFloat) (KeepsRange toFloat) t as ↔ Along (step toFloat) Continues t as := by
  obtain ⟨t, hInit, hIndexed⟩ := init_indexed s file
  refine ⟨t, hInit, hIndexed.toInRange, fun as => ⟨?_, ?_⟩⟩
  · refine along_of_inv (I := fun _ => True) (fun _ _ _ _ _ _ => trivial) (fun s a _ hKeeps => ?_)
      trivial
    obtain ⟨t, hstep, hRange⟩ := hKeeps.result
    exact continues_of_inRange hstep hRange
  · refine along_of_inv (I := Indexed) (fun s a t h hFits hstep => ?_)
      (fun s a h hFits => keepsRange_of_continues h hFits) hIndexed
    obtain ⟨u, hu, hNext⟩ := step_indexed toFloat h hFits
    rw [hstep, Option.some.injEq] at hu
    exact hu ▸ hNext

/-- Three waypoints, of which the boat reaches the first, and then a list without any that is not
restarted: minus one waypoint. -/
theorem indices_short_list :
    ¬ ∀ (s : LineTacker (Double .exact .atZero))
        (as : List (LineTackerMsg (Double .exact .atZero))),
      ∃ t, init s none = some t ∧ InRange t ∧ Along (step id) (KeepsRange id) t as := by
  intro hAll
  have hLen : (run (step id) (fresh (zeroed : LineTacker (Double .exact .atZero)))
      ([.waypoints { points := [.zero, .zero, .zero] }, .iterate] ++
        [.waypoints { points := [], restart := false }])).map (fun t => t.wayLen) = some (-1) := by
    decide +kernel
  obtain ⟨t, hrun, hMinus⟩ := Option.map_eq_some_iff.mp hLen
  obtain ⟨s, hFirst, hLast⟩ := run_append_eq_some.mp hrun
  obtain ⟨_, hInit, -, hAlong⟩ := hAll zeroed
    ([.waypoints { points := [.zero, .zero, .zero] }, .iterate] ++
      [.waypoints { points := [], restart := false }])
  rw [init, Option.some.injEq] at hInit
  subst hInit
  obtain ⟨u, hstep, hRange⟩ := (along_at hAlong hFirst).result
  obtain ⟨_, hstep', hNil⟩ := run_cons_eq_some.mp hLast
  rw [hstep, Option.some.injEq] at hstep'
  subst hstep'
  rw [run_nil, Option.some.injEq] at hNil
  subst hNil
  have hPos := hRange.wayLen.1
  omega

end Sailbot.Control.LineTacker

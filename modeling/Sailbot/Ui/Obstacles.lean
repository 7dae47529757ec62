import Sailbot.Lib.Channel
import Sailbot.Lib.Family
import Sailbot.Math.Validate
import Sailbot.Ui.Widget

/-!
# Obstacles from the web pages to the planner

Pages that are open at the same time, the server, the queue `planner_obstacles` and the planner. A
page sends the list that it was told last with one more triangle; the server puts it on the queue,
and tells it to every page that asks. Messages and replies are under way for any time. A page
closes the polygons that it is told, so that their first corner comes again each time a list goes
round. `byteSize` is the size of a list on the wire: the server does not survive one that does not
fit into its buffer.

* `Site.step`               — all of them, in any order.
* `obstacle_ccw`            — the corners of a new obstacle are in counter-clockwise order.
* `Site.obstacles_accepted` — the planner takes every obstacle, and has those of the last list.
-/

namespace Sailbot.Ui

open Lib Math
open Control (LinePlan LinePlanMsg WaypointList)

/-- Who reads `planner_obstacles`. -/
inductive ObstacleReader
  | server
  | planner
  deriving DecidableEq

structure Site (P R : Type) where
  pages      : P → SailWidget R
  /-- What a page has sent, and the replies that are on their way to it. -/
  upstream   : P → List (WidgetMsg R)
  downstream : P → List (Reply R)
  /-- The last list that the server has received. -/
  current    : Option (List (List (Vec R)))
  obstacles  : Channel (List (List (Vec R))) ObstacleReader
  planner    : LinePlan R

inductive SiteAction (P R : Type)
  /-- Something other than a reply happens on a page. -/
  | page (p : P) (e : WidgetEvent R)
  /-- The server handles the next message of a page; `others` is what it knows of other fields. -/
  | serve (p : P) (others : Reply R)
  | receive (p : P)
  /-- The connection of a page is lost, with all that is under way. -/
  | hangUp (p : P)
  /-- A list that no page has made, such as the one from the file of the planner. -/
  | post (polygons : List (List (Vec R)))
  | give (r : ObstacleReader) (i : Nat)
  | planner (a : LinePlanMsg R)

namespace Site

variable {P R : Type} [DecidableEq P] [Arith R]

/-- The pages have never been told anything. -/
def init (pages : P → SailWidget R) (planner : LinePlan R) : Site P R where
  pages p := SailWidget.init (pages p).canvas (pages p).hasShadow
  upstream _ := []
  downstream _ := []
  current := none
  obstacles := .empty
  planner := .init planner

/-- The server handles one message. -/
def serve (byteSize : List (List (Vec R)) → Nat) (s : Site P R) (p : P) (others : Reply R) :
    WidgetMsg R → Option (Site P R)
  | .requests => some { s with
      downstream := Function.update s.downstream p
        (s.downstream p ++ [{ others with obstacles := s.current }]) }
  | .waypoints _ => some s
  | .obstacles polygons =>
    if byteSize polygons ≤ 1024 then some { s with obstacles := s.obstacles.send [polygons] }
    else none

def step (byteSize : List (List (Vec R)) → Nat) (v : Bool) (s : Site P R) :
    SiteAction P R → Option (Site P R)
  | .page _ (.reply _) => none
  | .page p e =>
    let (page, msgs) := (s.pages p).handle e
    some { s with
      pages := Function.update s.pages p page
      upstream := Function.update s.upstream p (s.upstream p ++ msgs) }
  | .serve p others =>
    match s.upstream p with
    | [] => none
    | msg :: rest =>
      serve byteSize { s with upstream := Function.update s.upstream p rest } p others msg
  | .receive p =>
    match s.downstream p with
    | [] => none
    | r :: rest => some { s with
        pages := Function.update s.pages p ((s.pages p).processSocketReceive r)
        downstream := Function.update s.downstream p rest }
  | .hangUp p => some { s with
      pages := Function.update s.pages p { s.pages p with wsReady := false }
      upstream := Function.update s.upstream p []
      downstream := Function.update s.downstream p [] }
  | .post polygons => some { s with obstacles := s.obstacles.send [polygons] }
  | .give .server i =>
    if s.obstacles.Ready .server i then s.obstacles.sent[i]?.map fun polygons =>
      { s with obstacles := s.obstacles.give .server i, current := some polygons }
    else none
  | .give .planner i =>
    if s.obstacles.Ready .planner i then do
      let polygons ← s.obstacles.sent[i]?
      let planner ← s.planner.step v (.obstacles polygons)
      some { s with obstacles := s.obstacles.give .planner i, planner := planner }
    else none
  | .planner (.obstacles _) => none
  | .planner a => (s.planner.step v a).map fun planner => { s with planner := planner }

end Site

-- ---------------------------------------------------------------------------
-- The polygons that go round
-- ---------------------------------------------------------------------------

/-- Three corners without a turn to the right. -/
def CounterClockwise (pts : List (Vec ℝ)) : Prop :=
  ∃ a b c, pts = [a, b, c] ∧ 0 ≤ (b - a).cross (c - a)

/-- The corners are those that were clicked. -/
theorem obstacle_perm (pt1 pt2 pt3 : Vec ℝ) :
    (SailWidget.obstacle pt1 pt2 pt3).Perm [pt1, pt2, pt3] := by
  unfold SailWidget.obstacle
  dsimp only
  split
  · exact .cons _ (.swap _ _ _)
  · exact .refl _

/-- The corners are put in counter-clockwise order. -/
theorem obstacle_ccw (pt1 pt2 pt3 : Vec ℝ) :
    CounterClockwise (SailWidget.obstacle pt1 pt2 pt3) := by
  have hProj : (pt1.y - pt2.y) * (pt3.x - pt1.x) + (pt2.x - pt1.x) * (pt3.y - pt1.y) =
      (pt2 - pt1).cross (pt3 - pt1) := by
    simp only [Vec.cross, Vec.sub_x, Vec.sub_y]
    ring
  have hSwap : (pt3 - pt1).cross (pt2 - pt1) = -(pt2 - pt1).cross (pt3 - pt1) := by
    simp only [Vec.cross]
    ring
  unfold SailWidget.obstacle
  simp only [Arith.lt_real, Arith.lit_real, Rat.cast_zero, hProj]
  split
  · next hRight => exact ⟨_, _, _, rfl, by rw [hSwap]; linarith⟩
  · next hLeft => exact ⟨_, _, _, rfl, not_lt.mp hLeft⟩

/-- The planner accepts it, also when the three corners are on one line. -/
theorem CounterClockwise.accepted {pts : List (Vec ℝ)} (h : CounterClockwise pts) :
    Polygon.validatePoints pts = true := by
  obtain ⟨a, b, c, rfl, hLeft⟩ := h
  rw [Polygon.validatePoints_iff (show 2 ≤ [a, b, c].length from Nat.le_add_left 2 1)]
  rintro ⟨i, hRight⟩
  rw [Polygon.leg_cross_leg] at hRight
  refine Polygon.forall_corner (P := fun a b c => ¬ (b - a).cross (c - a) < 0)
    (show 0 < [a, b, c].length from Nat.succ_pos _) ?_ i hRight
  clear hRight
  intro i hi
  simp only [List.length_cons, List.length_nil] at hi
  simp only [Vec.cross, Vec.sub_x, Vec.sub_y] at hLeft
  interval_cases i <;>
    simp only [Polygon.corner, List.length_cons, List.length_nil, Nat.reduceAdd, Nat.reduceMod,
      List.getD_cons_zero, List.getD_cons_succ, Vec.cross, Vec.sub_x, Vec.sub_y, not_lt] <;>
    linarith

/-- A polygon of some kind, closed any number of times. -/
inductive Closed (Base : List (Vec ℝ) → Prop) : List (Vec ℝ) → Prop
  | base {pts : List (Vec ℝ)} (h : Base pts) : Closed Base pts
  | close {p q : Vec ℝ} {pts : List (Vec ℝ)} (h : Closed Base (p :: q :: pts)) :
      Closed Base (p :: q :: pts ++ [p])

variable {Base : List (Vec ℝ) → Prop}

/-- A polygon that is accepted is accepted with its first corner again at the end. -/
theorem Closed.accepted (hBase : ∀ pts, Base pts → Polygon.validatePoints pts = true)
    {pts : List (Vec ℝ)} (h : Closed Base pts) : Polygon.validatePoints pts = true := by
  induction h with
  | base h => exact hBase _ h
  | close h ih => exact Polygon.validatePoints_close (Nat.le_add_left 2 _) ih

/-- All polygons of a list are closed ones of the kind. -/
def Made (Base : List (Vec ℝ) → Prop) (polygons : List (List (Vec ℝ))) : Prop :=
  ∀ pts ∈ polygons, Closed Base pts

/-- Closing the polygons that were made leaves such polygons. -/
theorem closeObstacles_made {polygons : List (List (Vec ℝ))} (h : Made Base polygons) :
    Made Base (SailWidget.closeObstacles polygons) := by
  induction polygons with
  | nil => exact h
  | cons pts rest ih =>
    have hRest := ih fun pts hp => h pts (List.mem_cons_of_mem _ hp)
    have hFirst := h pts List.mem_cons_self
    rcases pts with _ | ⟨p, _ | ⟨q, pts⟩⟩
    · exact h
    · intro pts hp
      rcases List.mem_cons.mp hp with rfl | hp
      · exact hFirst
      · exact hRest pts hp
    · intro pts hp
      rcases List.mem_cons.mp hp with rfl | hp
      · exact hFirst.close
      · exact hRest pts hp

namespace SailWidget

variable {s : SailWidget ℝ}

/-- A reply leaves the obstacles, or brings those of the server, closed. -/
theorem receive_obstacles (s : SailWidget ℝ) (r : Reply ℝ) :
    (s.processSocketReceive r).obstacles = s.obstacles ∨ ∃ polygons, r.obstacles = some polygons ∧
      (s.processSocketReceive r).obstacles = some (closeObstacles polygons) := by
  have hListener : ∀ (s : SailWidget ℝ) msg,
      (s.waypointsListener msg).1.obstacles = s.obstacles := by
    intro s msg
    unfold waypointsListener
    dsimp only
    repeat' split
    all_goals rfl
  have hWaypoints : ∀ s : SailWidget ℝ,
      (r.waypoints.elim (s, true) s.waypointsListener).1.obstacles = s.obstacles := by
    intro s
    cases r.waypoints with
    | none => rfl
    | some msg => exact hListener s msg
  have hShadow : ∀ s : SailWidget ℝ,
      (r.shadowPos.elim s s.shadowBoatPositionListener).obstacles = s.obstacles := by
    intro s
    cases r.shadowPos <;> rfl
  have hPos : (r.pos.elim s s.boatPositionListener).obstacles = s.obstacles := by
    cases r.pos <;> rfl
  unfold processSocketReceive
  dsimp only
  split
  · cases hObstacles : r.obstacles with
    | none => exact .inl ((hWaypoints _).trans ((hShadow _).trans hPos))
    | some polygons => exact .inr ⟨polygons, rfl, rfl⟩
  · exact .inl ((hWaypoints _).trans ((hShadow _).trans hPos))

/-- `gotoWaypoint` sends no obstacles. -/
theorem gotoWaypoint_no_obstacles (p : Vec ℝ) (restart : Bool) (polygons : List (List (Vec ℝ))) :
    .obstacles polygons ∉ s.gotoWaypoint p restart := by
  have hSend : ∀ msg : WaypointList ℝ, .obstacles polygons ∉ s.sendMessage (.waypoints msg) := by
    intro msg
    unfold sendMessage
    split <;> simp
  unfold gotoWaypoint
  dsimp only
  repeat' split
  all_goals first | exact List.not_mem_nil | exact hSend _

/-- What the page has of obstacles, and what it sends of them. -/
theorem handle_made (hClick : ∀ pts, CounterClockwise pts → Base pts)
    (h : ∀ polygons, s.obstacles = some polygons → Made Base polygons) {e : WidgetEvent ℝ}
    (he : ∀ r, e ≠ .reply r) :
    (∀ polygons, (s.handle e).1.obstacles = some polygons → Made Base polygons) ∧
      ∀ polygons, .obstacles polygons ∈ (s.handle e).2 → Made Base polygons := by
  cases e with
  | reply r => exact absurd rfl (he r)
  | click q shiftKey =>
    show (∀ polygons, (s.clicked q shiftKey).1.obstacles = some polygons → _) ∧
      ∀ polygons, .obstacles polygons ∈ (s.clicked q shiftKey).2 → _
    unfold clicked
    dsimp only
    split
    · -- no obstacle is being drawn: the click sets a waypoint
      exact ⟨h, fun polygons hIn => absurd hIn (gotoWaypoint_no_obstacles _ _ _)⟩
    split
    · next pt1 pt2 _ =>
      -- the third corner
      have hNew : Made Base (s.obstacles.getD [] ++ [obstacle pt1 pt2 (s.view.simPos q)]) := by
        intro pts hp
        rcases List.mem_append.mp hp with hOld | hNew
        · cases hObstacles : s.obstacles with
          | none =>
            rw [hObstacles] at hOld
            cases hOld
          | some polygons =>
            rw [hObstacles] at hOld
            exact h polygons hObstacles pts hOld
        · rw [List.mem_singleton.mp hNew]
          exact .base (hClick _ (obstacle_ccw _ _ _))
      constructor
      · intro polygons hEq
        obtain ⟨old, -, rfl⟩ := Option.map_eq_some_iff.mp hEq
        exact hNew
      · intro polygons hIn
        unfold sendMessage at hIn
        split at hIn
        · cases List.mem_singleton.mp hIn
          exact hNew
        · cases hIn
    · exact ⟨h, fun polygons hIn => absurd hIn List.not_mem_nil⟩
  | createObstacle => exact ⟨h, fun polygons hIn => absurd hIn List.not_mem_nil⟩
  | submit p => exact ⟨h, fun polygons hIn => absurd hIn (gotoWaypoint_no_obstacles _ _ _)⟩
  | submitRelative p =>
    refine ⟨h, ?_⟩
    intro polygons hIn
    change _ ∈ s.submitRelativeWaypoint p at hIn
    unfold submitRelativeWaypoint at hIn
    split at hIn
    · cases hIn
    · exact absurd hIn (gotoWaypoint_no_obstacles _ _ _)
  | sendRequests =>
    refine ⟨h, ?_⟩
    intro polygons hIn
    change _ ∈ s.sendMessage .requests at hIn
    unfold sendMessage at hIn
    split at hIn
    · cases List.mem_singleton.mp hIn
    · cases hIn
  | socket ready => exact ⟨h, fun polygons hIn => absurd hIn List.not_mem_nil⟩

end SailWidget

-- ---------------------------------------------------------------------------
-- The planner
-- ---------------------------------------------------------------------------

section Planner

variable {R : Type} [Arith R] {v : Bool} {s t : LinePlan R}

/-- Nothing is left out of a list of accepted obstacles. -/
theorem receiveObstacles_accepted {polygons : List (List (Vec R))}
    (h : ∀ pts ∈ polygons, Polygon.validatePoints pts = true) :
    s.step v (.obstacles polygons) =
      some ({ s with obstaclesLonLat := polygons.map Math.Polygon.mk }).updateObstacles := by
  have hAny : polygons.any (!Polygon.validatePoints ·) = false := by
    rw [List.any_eq_false]
    intro pts hp
    rw [h pts hp]
    decide
  rw [LinePlan.step, LinePlan.receiveObstacles, hAny, Bool.and_false, if_neg Bool.false_ne_true,
    List.filter_eq_self.mpr h]

/-- A new course leaves the obstacles. -/
theorem withCourse_obstaclesLonLat (s : LinePlan R) :
    s.withCourse.obstaclesLonLat = s.obstaclesLonLat := by
  unfold LinePlan.withCourse
  split <;> rfl

/-- Other messages leave the obstacles, which they may put into another frame. -/
theorem step_obstaclesLonLat {a : LinePlanMsg R} (ha : ∀ polygons, a ≠ .obstacles polygons)
    (hstep : s.step v a = some t) : t.obstaclesLonLat = s.obstaclesLonLat := by
  rcases LinePlan.step_cases hstep with ⟨msg, -, ⟨-, rfl⟩ | ⟨-, u, hu, rfl⟩⟩ |
    ⟨pos, yaw, u, -, hMove, hInc⟩ | ⟨polygons, lonlat, hEq, -⟩ | ⟨-, -, hAside⟩
  · rfl
  · rw [withCourse_obstaclesLonLat]
    rcases hu with rfl | ⟨first, rfl⟩
    · rfl
    · exact withCourse_obstaclesLonLat _
  · obtain ⟨next, cnt, msg, queue, rfl, -⟩ := LinePlan.updateWaypointInc_eq hInc
    rcases LinePlan.moveRef_cases hMove with rfl | rfl
    · rfl
    · exact withCourse_obstaclesLonLat _
  · exact absurd hEq (ha polygons)
  · obtain ⟨_, _, _, _, _, rfl⟩ := hAside
    rfl

end Planner

-- ---------------------------------------------------------------------------
-- All of them
-- ---------------------------------------------------------------------------

namespace Site

variable {P : Type} [DecidableEq P]

/-- A list that may be missing. -/
def MadeIfAny (Base : List (Vec ℝ) → Prop) (polygons : Option (List (List (Vec ℝ)))) : Prop :=
  ∀ l, polygons = some l → Made Base l

def PageMade (Base : List (Vec ℝ) → Prop) (w : SailWidget ℝ) : Prop := MadeIfAny Base w.obstacles

def UpstreamMade (Base : List (Vec ℝ) → Prop) (msgs : List (WidgetMsg ℝ)) : Prop :=
  ∀ polygons, .obstacles polygons ∈ msgs → Made Base polygons

def DownstreamMade (Base : List (Vec ℝ) → Prop) (rs : List (Reply ℝ)) : Prop :=
  ∀ r ∈ rs, MadeIfAny Base r.obstacles

/-- All lists of obstacles have been made of polygons of the kind, wherever they are, and the
planner has those of the last list that it was given. -/
structure Inv (Base : List (Vec ℝ) → Prop) (s : Site P ℝ) : Prop where
  pages      : ∀ p, PageMade Base (s.pages p)
  upstream   : ∀ p, UpstreamMade Base (s.upstream p)
  downstream : ∀ p, DownstreamMade Base (s.downstream p)
  current    : MadeIfAny Base s.current
  sent       : ∀ polygons ∈ s.obstacles.sent, Made Base polygons
  ordered    : s.obstacles.Ordered
  planner    : s.planner.obstaclesLonLat.map Math.Polygon.pts =
    (s.obstacles.received .planner).getLast?.getD []

omit [DecidableEq P] in
/-- At the start there are no obstacles. -/
theorem inv_init (pages : P → SailWidget ℝ) (planner : LinePlan ℝ) :
    Inv Base (init pages planner) where
  pages _ _ h := nomatch h
  upstream _ _ h := absurd h List.not_mem_nil
  downstream _ _ h := absurd h List.not_mem_nil
  current _ h := nomatch h
  sent _ h := absurd h List.not_mem_nil
  ordered := Channel.ordered_empty
  planner := rfl

variable {byteSize : List (List (Vec ℝ)) → Nat} {v : Bool} {s t : Site P ℝ}

omit [DecidableEq P] in
/-- Obstacles that were made as they should are put on the queue. -/
theorem Inv.send (h : Inv Base s) {polygons : List (List (Vec ℝ))} (hMade : Made Base polygons) :
    Inv Base { s with obstacles := s.obstacles.send [polygons] } :=
  { h with
    sent := by
      intro l hl
      rcases List.mem_append.mp hl with hl | hl
      · exact h.sent l hl
      · rw [List.mem_singleton.mp hl]
        exact hMade
    ordered := h.ordered.send _
    planner := by
      rw [h.ordered.received_send]
      exact h.planner }

/-- The server passes on what a page sends. -/
theorem Inv.serve (h : Inv Base s) {p : P} {others : Reply ℝ} {msg : WidgetMsg ℝ}
    (hMsg : ∀ polygons, msg = .obstacles polygons → Made Base polygons)
    (hstep : serve byteSize s p others msg = some t) : Inv Base t := by
  cases msg with
  | requests =>
    obtain rfl := Option.some.inj hstep
    refine { h with downstream := forall_update (fun q _ => h.downstream q) ?_ }
    intro r hr
    rcases List.mem_append.mp hr with hr | hr
    · exact h.downstream p r hr
    · rw [List.mem_singleton.mp hr]
      exact h.current
  | waypoints msg =>
    obtain rfl := Option.some.inj hstep
    exact h
  | obstacles polygons =>
    obtain ⟨-, hstep⟩ := Option.ite_none_right_eq_some.mp hstep
    obtain rfl := Option.some.inj hstep
    exact h.send (hMsg polygons rfl)

/-- A reply does not come to a page by itself. -/
theorem step_page {p : P} {e : WidgetEvent ℝ} (hstep : step byteSize v s (.page p e) = some t) :
    (∀ r, e ≠ .reply r) ∧ t = { s with
      pages := Function.update s.pages p ((s.pages p).handle e).1
      upstream := Function.update s.upstream p (s.upstream p ++ ((s.pages p).handle e).2) } := by
  cases e with
  | reply r => cases hstep
  | click | createObstacle | submit | submitRelative | sendRequests | socket =>
    exact ⟨nofun, (Option.some.inj hstep).symm⟩

/-- A page sends no other lists than it has, with one more triangle. -/
theorem Inv.page (h : Inv Base s) (hClick : ∀ pts, CounterClockwise pts → Base pts) {p : P}
    {e : WidgetEvent ℝ} (hEvent : ∀ r, e ≠ .reply r) :
    Inv Base { s with
      pages := Function.update s.pages p ((s.pages p).handle e).1
      upstream := Function.update s.upstream p (s.upstream p ++ ((s.pages p).handle e).2) } := by
  obtain ⟨hPage, hMsgs⟩ := SailWidget.handle_made hClick (h.pages p) hEvent
  refine { h with
    pages := forall_update (fun q _ => h.pages q) hPage
    upstream := forall_update (fun q _ => h.upstream q) ?_ }
  intro polygons hIn
  rcases List.mem_append.mp hIn with hIn | hIn
  · exact h.upstream p polygons hIn
  · exact hMsgs polygons hIn

/-- A page closes the polygons that it is told, which makes no others of them. -/
theorem Inv.receive (h : Inv Base s) {p : P} {r : Reply ℝ} {rest : List (Reply ℝ)}
    (hDown : s.downstream p = r :: rest) :
    Inv Base { s with
      pages := Function.update s.pages p ((s.pages p).processSocketReceive r)
      downstream := Function.update s.downstream p rest } := by
  have hReply : MadeIfAny Base r.obstacles := h.downstream p r (hDown ▸ List.mem_cons_self)
  refine { h with
    pages := forall_update (fun q _ => h.pages q) ?_
    downstream := forall_update (fun q _ => h.downstream q) fun r hr =>
      h.downstream p r (hDown ▸ List.mem_cons_of_mem _ hr) }
  intro polygons hEq
  rcases SailWidget.receive_obstacles (s.pages p) r with hSame | ⟨old, hOld, hClosed⟩
  · exact h.pages p polygons (hSame ▸ hEq)
  · rw [hClosed] at hEq
    obtain rfl := Option.some.inj hEq
    exact closeObstacles_made (hReply old hOld)

/-- What is under way is lost with the connection. -/
theorem Inv.hangUp (h : Inv Base s) (p : P) :
    Inv Base { s with
      pages := Function.update s.pages p { s.pages p with wsReady := false }
      upstream := Function.update s.upstream p []
      downstream := Function.update s.downstream p [] } :=
  { h with
    pages := forall_update (fun q _ => h.pages q) (h.pages p)
    upstream := forall_update (fun q _ => h.upstream q) fun _ hl => absurd hl List.not_mem_nil
    downstream := forall_update (fun q _ => h.downstream q) fun _ hr =>
      absurd hr List.not_mem_nil }

/-- The planner accepts the list that it is given, and has its polygons then. -/
theorem Inv.give_planner (h : Inv Base s)
    (hBase : ∀ pts, Base pts → Polygon.validatePoints pts = true) {i : Nat}
    (hstep : step byteSize v s (.give .planner i) = some t) : Inv Base t := by
  obtain ⟨hReady, hstep⟩ := Option.ite_none_right_eq_some.mp hstep
  simp only [Option.bind_eq_bind, Option.bind_eq_some_iff] at hstep
  obtain ⟨polygons, hSent, planner, hPlanner, hstep⟩ := hstep
  obtain rfl := Option.some.inj hstep
  have hMade := h.sent polygons (List.mem_of_getElem? hSent)
  rw [receiveObstacles_accepted fun pts hp => (hMade pts hp).accepted hBase] at hPlanner
  obtain rfl := Option.some.inj hPlanner
  refine { h with
    ordered := h.ordered.give hReady
    planner := ?_ }
  rw [Channel.received_give_self hSent, List.getLast?_concat]
  show (polygons.map Math.Polygon.mk).map Math.Polygon.pts = polygons
  rw [List.map_map]
  exact List.map_id polygons

/-- Every step leaves only lists that are made of polygons of the kind. The planner is the only one
that looks at them, and it takes no others in any other step. -/
theorem step_inv (hClick : ∀ pts, CounterClockwise pts → Base pts)
    (hBase : ∀ pts, Base pts → Polygon.validatePoints pts = true) {a : SiteAction P ℝ}
    (h : Inv Base s) (hPost : ∀ polygons, a = .post polygons → Made Base polygons)
    (hstep : step byteSize v s a = some t) : Inv Base t := by
  cases a with
  | page p e =>
    obtain ⟨hEvent, rfl⟩ := step_page hstep
    exact h.page hClick hEvent
  | serve p others =>
    simp only [step] at hstep
    split at hstep
    · cases hstep
    next msg rest hUp =>
    have hRest : Inv Base { s with upstream := Function.update s.upstream p rest } :=
      { h with
        upstream := forall_update (fun q _ => h.upstream q) fun l hl =>
          h.upstream p l (hUp ▸ List.mem_cons_of_mem _ hl) }
    refine hRest.serve ?_ hstep
    rintro polygons rfl
    exact h.upstream p polygons (hUp ▸ List.mem_cons_self)
  | receive p =>
    simp only [step] at hstep
    split at hstep
    · cases hstep
    next r rest hDown =>
    obtain rfl := Option.some.inj hstep
    exact h.receive hDown
  | hangUp p =>
    obtain rfl := Option.some.inj hstep
    exact h.hangUp p
  | post polygons =>
    obtain rfl := Option.some.inj hstep
    exact h.send (hPost polygons rfl)
  | give r i =>
    cases r with
    | server =>
      obtain ⟨hReady, hstep⟩ := Option.ite_none_right_eq_some.mp hstep
      obtain ⟨polygons, hSent, rfl⟩ := Option.map_eq_some_iff.mp hstep
      refine { h with
        current := fun l hl => Option.some.inj hl ▸ h.sent _ (List.mem_of_getElem? hSent)
        ordered := h.ordered.give hReady
        planner := ?_ }
      rw [Channel.received_give_of_ne (by decide)]
      exact h.planner
    | planner => exact h.give_planner hBase hstep
  | planner b =>
    -- lists of obstacles come over the queue only
    have hOther : (∀ polygons, b ≠ .obstacles polygons) ∧
        ∃ planner, s.planner.step v b = some planner ∧ { s with planner := planner } = t := by
      cases b with
      | obstacles polygons => cases hstep
      | waypoints | controlMode | boatState | trueWind | iterate =>
        exact ⟨fun polygons hEq => (by cases hEq), Option.map_eq_some_iff.mp hstep⟩
    obtain ⟨hOther, planner, hPlanner, rfl⟩ := hOther
    exact { h with planner := (congrArg _ (step_obstaclesLonLat hOther hPlanner)).trans h.planner }

/-- A polygon of a list that no page has made. -/
def Posted (as : List (SiteAction P ℝ)) (pts : List (Vec ℝ)) : Prop :=
  ∃ polygons, .post polygons ∈ as ∧ pts ∈ polygons

/-- **Obstacles.** If only lists that the planner accepts come from elsewhere, then in every run all
lists on the queue are made of these polygons and of counter-clockwise triangles, some of them
closed more than once. The planner accepts all of them, also in the verbose mode, and has every
obstacle of the list that it was given last. -/
theorem obstacles_accepted {as : List (SiteAction P ℝ)} (pages : P → SailWidget ℝ)
    (planner : LinePlan ℝ) (hPosts : ∀ pts, Posted as pts → Polygon.validatePoints pts = true)
    (hrun : run (step byteSize v) (init pages planner) as = some s) :
    (∀ polygons ∈ s.obstacles.sent, ∀ pts ∈ polygons,
      Closed (fun base => Posted as base ∨ CounterClockwise base) pts ∧
        Polygon.validatePoints pts = true) ∧
      (s.planner.obstaclesLonLat.map Math.Polygon.pts =
        (s.obstacles.received .planner).getLast?.getD []) ∧
      ∀ i, s.obstacles.Ready .planner i →
        (step byteSize v s (.give .planner i)).isSome = true := by
  set Base := fun base => Posted as base ∨ CounterClockwise base with hDef
  have hBase : ∀ pts, Base pts → Polygon.validatePoints pts = true :=
    fun pts h => h.elim (hPosts pts) CounterClockwise.accepted
  have hAlong : Along (step byteSize v)
      (fun _ a => ∀ polygons, a = .post polygons → Made Base polygons) (init pages planner) as := by
    refine along_of_forall ?_ _
    rintro _ ha _ polygons rfl pts hp
    exact .base (.inl ⟨polygons, ha, hp⟩)
  have hInv : Inv Base s := inv_of_run
    (fun _ _ _ h hPost hstep => step_inv (fun _ => .inr) hBase h hPost hstep)
    (inv_init pages planner) hAlong hrun
  refine ⟨?_, hInv.planner, ?_⟩
  · intro polygons hSent pts hp
    have hClosed := hInv.sent polygons hSent pts hp
    exact ⟨hClosed, hClosed.accepted hBase⟩
  · intro i hReady
    obtain ⟨polygons, -, hAt⟩ := getElem?_total hReady.1
    have hMade := hInv.sent polygons (List.mem_of_getElem? hAt)
    have hPlanner := receiveObstacles_accepted (v := v) (s := s.planner)
      fun pts hp => (hMade pts hp).accepted hBase
    simp only [step, if_pos hReady, hAt, hPlanner, Option.bind_eq_bind, Option.bind_some,
      Option.isSome_some]

/-- A list from elsewhere, and then a triangle that is drawn on a page. -/
noncomputable def drawn : List (SiteAction Unit ℝ) :=
  [.post [SailWidget.obstacle .zero ⟨0, 1⟩ ⟨1, 0⟩], .give .planner 0,
    .page () (.socket true), .page () .createObstacle, .page () (.click .zero false),
    .page () (.click ⟨1, 0⟩ false), .page () (.click ⟨0, 1⟩ false),
    .serve () {}, .give .planner 1]

/-- The planner is given what was drawn. -/
theorem obstacles_accepted_triangle : ∃ s : Site Unit ℝ,
    run (step (fun _ => 80) false) (init (fun _ => SailWidget.init .zero false) .zeroed) drawn =
      some s ∧
    s.planner.obstaclesLonLat.map Math.Polygon.pts = [SailWidget.obstacle
      (View.init.simPos .zero) (View.init.simPos ⟨1, 0⟩) (View.init.simPos ⟨0, 1⟩)] := by
  obtain ⟨s, hRun⟩ : ∃ s : Site Unit ℝ, run (step (fun _ => 80) false)
      (init (fun _ => SailWidget.init .zero false) .zeroed) drawn = some s := ⟨_, rfl⟩
  refine ⟨s, hRun, ?_⟩
  obtain ⟨-, hPlanner, -⟩ := obstacles_accepted (fun _ => SailWidget.init .zero false) .zeroed
    (fun pts hPosted => by
      obtain ⟨polygons, hIn, hp⟩ := hPosted
      rcases List.mem_cons.mp hIn with hEq | hIn
      · obtain rfl := SiteAction.post.inj hEq
        rw [List.mem_singleton.mp hp]
        exact (obstacle_ccw _ _ _).accepted
      · simp at hIn) hRun
  rw [hPlanner]
  obtain rfl := Option.some.inj hRun
  rfl

end Site

end Sailbot.Ui

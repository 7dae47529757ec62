import Sailbot.Control.LinePlan
import Sailbot.Lib.Plane

/-!
# The map on the web page

`ui/sail_widget.js` draws the boat and the waypoints on a canvas, and makes waypoints and obstacles
from clicks; `processSocketReceive` and `sendMessage` (`ui/retrieve_data.js`) connect it to the
server. The state has the values of the fields that the map uses, the view, and where the boat and
the waypoints are drawn. A handler that meets a `null` throws, and nothing behind it in the reply is
handled. The lines, the grid, the rotations and the texts are left out.

* `SailWidget.handle`      — what happens on a reply, on a click and on the buttons.
* `View.fit_contains`      — what the view is made for is on the canvas.
* `SailWidget.map_settles` — after two replies that tell the same, the map shows it, and a click on
  what is drawn has its position.
-/

namespace Sailbot.Ui

open Lib
open Lib.Arith (lit)
open Control (WaypointList)

variable {R : Type} [Arith R]

-- ---------------------------------------------------------------------------
-- The view
-- ---------------------------------------------------------------------------

/-- `inertialFramePos`, `posTranslate` and `scale`. -/
structure View (R : Type) where
  inertialFramePos : Vec R
  posTranslate     : Vec R
  scale            : R

/-- `minx`, `miny`, `maxx` and `maxy`. -/
structure Box (R : Type) where
  low  : Vec R
  high : Vec R

def Box.extend (b : Box R) (p : Vec R) : Box R where
  low := ⟨Arith.min b.low.x p.x, Arith.min b.low.y p.y⟩
  high := ⟨Arith.max b.high.x p.x, Arith.max b.high.y p.y⟩

namespace View

def init : View R where
  inertialFramePos := ⟨lit 500, lit 500⟩
  posTranslate := .zero
  scale := lit 4

def toInertialSvgCoords (v : View R) (pos : Vec R) : Vec R :=
  ⟨v.scale * (pos.x - v.posTranslate.x), v.scale * (v.posTranslate.y - pos.y)⟩

def svgInertialToBoat (v : View R) (pos : Vec R) : Vec R :=
  ⟨pos.x / v.scale + v.posTranslate.x, v.posTranslate.y - pos.y / v.scale⟩

def svgMainToInertial (v : View R) (pos : Vec R) : Vec R :=
  ⟨-v.inertialFramePos.x + pos.x, -v.inertialFramePos.y + pos.y⟩

/-- The position of a click. -/
def simPos (v : View R) (q : Vec R) : Vec R := v.svgInertialToBoat (v.svgMainToInertial q)

/-- The view of a rectangle, with a buffer around it. -/
def fit (canvas : Vec R) (b : Box R) : View R :=
  let minx := b.low.x - lit (1 / 10 ^ 4)
  let miny := b.low.y - lit (1 / 10 ^ 4)
  let maxx := b.high.x + lit (1 / 10 ^ 4)
  let maxy := b.high.y + lit (1 / 10 ^ 4)
  let dx := Arith.max (maxx - minx) (lit (1 / 10 ^ 5))
  let dy := Arith.max (maxy - miny) (lit (1 / 10 ^ 5))
  { scale := Arith.min (canvas.x / dx) (canvas.y / dy)
    posTranslate := ⟨(minx + maxx) / lit 2, (miny + maxy) / lit 2⟩
    inertialFramePos := ⟨canvas.x / lit 2, canvas.y / lit 2⟩ }

end View

/-- `GPSDistance` of the page. -/
def gpsDistance (lat1 lon1 lat2 lon2 : R) : R :=
  let toRad (x : R) := x * Arith.mPi / lit 180
  let a := Arith.pow (Arith.sin ((toRad lat2 - toRad lat1) / lit 2)) (lit 2) +
    Arith.cos (toRad lat1) * Arith.cos (toRad lat2) *
      Arith.pow (Arith.sin ((toRad lon2 - toRad lon1) / lit 2)) (lit 2)
  let c := lit 2 * Arith.atan2 (Arith.sqrt a) (Arith.sqrt (lit 1 - a))
  lit 6371000 * c

-- ---------------------------------------------------------------------------
-- The state
-- ---------------------------------------------------------------------------

structure SailWidget (R : Type) where
  /-- The width and the height of `myCanvas`. -/
  canvas              : Vec R
  /-- Whether the page has a second hull, for the boat of a log. -/
  hasShadow           : Bool
  view                : View R
  pos                 : Option (Vec R) := none
  shadowPos           : Option (Vec R) := none
  waypoints           : Option (WaypointList R) := none
  obstacles           : Option (List (List (Vec R))) := none
  /-- The translations of the two hulls and of the markers, in the inertial frame. -/
  hull                : Vec R
  shadowHull          : Vec R
  markers             : Nat → Option (Vec R) := fun _ => none
  isCreatingObstacles : Bool := false
  lastClickPosition   : Option (List (Vec R)) := none
  wsReady             : Bool := false

/-- What a reply of the server has of the fields, in the order of the requests. A list without
elements is not there. -/
structure Reply (R : Type) where
  pos       : Option (Vec R) := none
  shadowPos : Option (Vec R) := none
  waypoints : Option (WaypointList R) := none
  obstacles : Option (List (List (Vec R))) := none

inductive WidgetMsg (R : Type)
  /-- `null` for every field. -/
  | requests
  | waypoints (msg : WaypointList R)
  | obstacles (polygons : List (List (Vec R)))

inductive WidgetEvent (R : Type)
  | reply (r : Reply R)
  | click (q : Vec R) (shiftKey : Bool)
  /-- `create-obstacle`. -/
  | createObstacle
  /-- `goto-submit` and `goto-rel-submit`. -/
  | submit (p : Vec R)
  | submitRelative (p : Vec R)
  | sendRequests
  /-- The socket was opened or closed. -/
  | socket (ready : Bool)

namespace SailWidget

def init (canvas : Vec R) (hasShadow : Bool) : SailWidget R where
  canvas := canvas
  hasShadow := hasShadow
  view := .init
  hull := .zero
  shadowHull := .zero

-- ---------------------------------------------------------------------------
-- Replies
-- ---------------------------------------------------------------------------

def boatPositionListener (s : SailWidget R) (pos : Vec R) : SailWidget R :=
  { s with pos := some pos, hull := s.view.toInertialSvgCoords pos }

def shadowBoatPositionListener (s : SailWidget R) (pos : Vec R) : SailWidget R :=
  { s with shadowPos := some pos, shadowHull := s.view.toInertialSvgCoords pos }

/-- The markers are drawn in the view that there is; ten are cleared at most. -/
def drawMarkers (s : SailWidget R) (points : List (Vec R)) (i : Nat) : Option (Vec R) :=
  match points[i]? with
  | some p => some (s.view.toInertialSvgCoords p)
  | none => if i < 10 then none else s.markers i

/-- `waypointsListener`, and whether it came to its end. -/
def waypointsListener (s : SailWidget R) (msg : WaypointList R) : SailWidget R × Bool :=
  let s := { s with waypoints := some msg }
  match msg.points with
  | [] => (s, false)
  | first :: points =>
    let s := { s with markers := s.drawMarkers (first :: points) }
    let box := (first :: points).foldl Box.extend ⟨first, first⟩
    match s.pos with
    | none => (s, false)
    | some boat =>
      let box := box.extend boat
      if s.hasShadow then
        match s.shadowPos with
        | none => (s, false)
        | some shadow => ({ s with view := .fit s.canvas (box.extend shadow) }, true)
      else ({ s with view := .fit s.canvas box }, true)

/-- `pathObstacleListener` closes the polygons that it draws, up to one without points. -/
def closeObstacles : List (List (Vec R)) → List (List (Vec R))
  | [] => []
  | [] :: rest => [] :: rest
  | [p] :: rest => [p] :: closeObstacles rest
  | (p :: q :: pts) :: rest => ((p :: q :: pts) ++ [p]) :: closeObstacles rest

def pathObstacleListener (s : SailWidget R) (polygons : List (List (Vec R))) : SailWidget R :=
  { s with obstacles := some (closeObstacles polygons) }

/-- `processSocketReceive`. -/
def processSocketReceive (s : SailWidget R) (r : Reply R) : SailWidget R :=
  let s := r.pos.elim s s.boatPositionListener
  let s := r.shadowPos.elim s s.shadowBoatPositionListener
  let (s, done) := r.waypoints.elim (s, true) s.waypointsListener
  if done then r.obstacles.elim s s.pathObstacleListener else s

-- ---------------------------------------------------------------------------
-- Clicks
-- ---------------------------------------------------------------------------

def sendMessage (s : SailWidget R) (msg : WidgetMsg R) : List (WidgetMsg R) :=
  if s.wsReady then [msg] else []

def gotoWaypoint (s : SailWidget R) (p : Vec R) (restart : Bool) : List (WidgetMsg R) :=
  let send (points : List (Vec R)) :=
    s.sendMessage (.waypoints { points := points, restart := restart })
  match s.pos, s.waypoints with
  | none, _ => []
  | some boat, none => send [boat, p]
  | some boat, some msg =>
    if restart then send [boat, p]
    else if msg.points.isEmpty then []
    else send (msg.points ++ [p])

/-- The corners of an obstacle, in counter-clockwise order. -/
def obstacle (pt1 pt2 pt3 : Vec R) : List (Vec R) :=
  let perp : Vec R := ⟨pt1.y - pt2.y, pt2.x - pt1.x⟩
  let p1p3 : Vec R := ⟨pt3.x - pt1.x, pt3.y - pt1.y⟩
  let proj := perp.x * p1p3.x + perp.y * p1p3.y
  if Arith.lt proj (lit 0) then [pt1, pt3, pt2] else [pt1, pt2, pt3]

/-- `clicked`. The new obstacle is put into the value of the field, if there is one. -/
def clicked (s : SailWidget R) (q : Vec R) (shiftKey : Bool) :
    SailWidget R × List (WidgetMsg R) :=
  let simPos := s.view.simPos q
  if !s.isCreatingObstacles then (s, s.gotoWaypoint simPos shiftKey)
  else
    match s.lastClickPosition with
    | some [pt1, pt2] =>
      let polygons := s.obstacles.getD [] ++ [obstacle pt1 pt2 simPos]
      ({ s with
        obstacles := s.obstacles.map fun _ => polygons
        isCreatingObstacles := false
        lastClickPosition := none }, s.sendMessage (.obstacles polygons))
    | last => ({ s with lastClickPosition := some (last.getD [] ++ [simPos]) }, [])

def startCreateObstacles (s : SailWidget R) : SailWidget R :=
  { s with isCreatingObstacles := !s.isCreatingObstacles, lastClickPosition := none }

/-- `submitRelativeWaypoint`, by meters from the boat. -/
def submitRelativeWaypoint (s : SailWidget R) (p : Vec R) : List (WidgetMsg R) :=
  match s.pos with
  | none => []
  | some pos =>
    let step : R := lit (1 / 10 ^ 5)
    let latPerMeter := step / gpsDistance pos.y pos.x (pos.y + step) pos.x
    let lonPerMeter := step / gpsDistance pos.y pos.x pos.y (pos.x + step)
    s.gotoWaypoint ⟨p.x * lonPerMeter + pos.x, p.y * latPerMeter + pos.y⟩ true

def handle (s : SailWidget R) : WidgetEvent R → SailWidget R × List (WidgetMsg R)
  | .reply r => (s.processSocketReceive r, [])
  | .click q shiftKey => s.clicked q shiftKey
  | .createObstacle => (s.startCreateObstacles, [])
  | .submit p => (s, s.gotoWaypoint p true)
  | .submitRelative p => (s, s.submitRelativeWaypoint p)
  | .sendRequests => (s, s.sendMessage .requests)
  | .socket ready => ({ s with wsReady := ready }, [])

def step (s : SailWidget R) (e : WidgetEvent R) : Option (SailWidget R) := some (s.handle e).1

end SailWidget

-- ---------------------------------------------------------------------------
-- What the view is made for
-- ---------------------------------------------------------------------------

/-- The boat measures by the same formula. -/
theorem gpsDistance_eq : @gpsDistance R _ = Control.Util.gpsDistance := rfl

/-- The rectangle over the real numbers. -/
theorem Box.extend_real (b : Box ℝ) (p : Vec ℝ) : b.extend p =
    ⟨⟨min b.low.x p.x, min b.low.y p.y⟩, ⟨max b.high.x p.x, max b.high.y p.y⟩⟩ := by
  rw [Box.extend, Arith.min_real, Arith.min_real, Arith.max_real, Arith.max_real]

/-- The point is in the rectangle. -/
structure Box.Has (b : Box ℝ) (p : Vec ℝ) : Prop where
  min_x : b.low.x ≤ p.x
  max_x : p.x ≤ b.high.x
  min_y : b.low.y ≤ p.y
  max_y : p.y ≤ b.high.y

/-- A rectangle that was extended to a point has it. -/
theorem Box.has_extend_self (b : Box ℝ) (p : Vec ℝ) : (b.extend p).Has p := by
  rw [Box.extend_real]
  exact ⟨min_le_right _ _, le_max_right _ _, min_le_right _ _, le_max_right _ _⟩

/-- And it keeps the points that it had. -/
theorem Box.Has.extend {b : Box ℝ} {p : Vec ℝ} (h : b.Has p) (q : Vec ℝ) :
    (b.extend q).Has p := by
  rw [Box.extend_real]
  exact ⟨(min_le_left _ _).trans h.min_x, h.max_x.trans (le_max_left _ _),
    (min_le_left _ _).trans h.min_y, h.max_y.trans (le_max_left _ _)⟩

/-- A rectangle that was extended to many points has them all. -/
theorem Box.has_foldl {points : List (Vec ℝ)} {p : Vec ℝ} :
    ∀ {b : Box ℝ}, b.Has p ∨ p ∈ points → (points.foldl Box.extend b).Has p := by
  induction points with
  | nil =>
    intro b h
    exact h.resolve_right List.not_mem_nil
  | cons q points ih =>
    intro b h
    rcases h with hBox | hMem
    · exact ih (.inl (hBox.extend q))
    · rcases List.mem_cons.mp hMem with rfl | hMem
      · exact ih (.inl (b.has_extend_self p))
      · exact ih (.inr hMem)

namespace View

/-- Where on the canvas a place of the inertial frame is. -/
def onCanvas (v : View R) (q : Vec R) : Vec R := v.inertialFramePos + q

/-- A click where a position is drawn has that position. -/
theorem simPos_onCanvas {v : View ℝ} (hScale : v.scale ≠ 0) (p : Vec ℝ) :
    v.simPos (v.onCanvas (v.toInertialSvgCoords p)) = p := by
  apply Vec.ext
  · show (-v.inertialFramePos.x + (v.inertialFramePos.x + v.scale * (p.x - v.posTranslate.x))) /
      v.scale + v.posTranslate.x = p.x
    rw [neg_add_cancel_left, mul_div_cancel_left₀ _ hScale, sub_add_cancel]
  · show v.posTranslate.y - (-v.inertialFramePos.y + (v.inertialFramePos.y +
      v.scale * (v.posTranslate.y - p.y))) / v.scale = p.y
    rw [neg_add_cancel_left, mul_div_cancel_left₀ _ hScale, sub_sub_cancel]

/-- One coordinate of a point between `low` and `high`, in a view that is wide enough. -/
theorem abs_scaled_le {scale size low high x : ℝ} (hScale : 0 ≤ scale)
    (hFit : scale ≤ size / max (high - low) (1 / 10 ^ 5)) (hLow : low ≤ x) (hHigh : x ≤ high) :
    |scale * (x - (low + high) / 2)| ≤ size / 2 := by
  set d := max (high - low) (1 / 10 ^ 5) with hd
  have hPos : 0 < d := lt_of_lt_of_le (by norm_num) (le_max_right _ _)
  have hWide : high - low ≤ d := le_max_left _ _
  have hMiddle : |x - (low + high) / 2| ≤ d / 2 := by
    rw [abs_le]
    constructor <;> linarith
  rw [abs_mul, abs_of_nonneg hScale]
  calc scale * |x - (low + high) / 2| ≤ size / d * (d / 2) :=
        mul_le_mul hFit hMiddle (abs_nonneg _) (hScale.trans hFit)
    _ = size / 2 := by field_simp

/-- The view of a rectangle over the real numbers. -/
theorem fit_real (canvas : Vec ℝ) (b : Box ℝ) :
    let low : Vec ℝ := ⟨b.low.x - 1 / 10 ^ 4, b.low.y - 1 / 10 ^ 4⟩
    let high : Vec ℝ := ⟨b.high.x + 1 / 10 ^ 4, b.high.y + 1 / 10 ^ 4⟩
    fit canvas b =
      { scale := min (canvas.x / max (high.x - low.x) (1 / 10 ^ 5))
          (canvas.y / max (high.y - low.y) (1 / 10 ^ 5))
        posTranslate := ⟨(low.x + high.x) / 2, (low.y + high.y) / 2⟩
        inertialFramePos := ⟨canvas.x / 2, canvas.y / 2⟩ } := by
  have hBuffer : (lit (1 / 10 ^ 4) : ℝ) = 1 / 10 ^ 4 := by
    rw [Arith.lit_real]
    norm_num
  have hLeast : (lit (1 / 10 ^ 5) : ℝ) = 1 / 10 ^ 5 := by
    rw [Arith.lit_real]
    norm_num
  have hTwo : (lit 2 : ℝ) = 2 := by
    rw [Arith.lit_real]
    norm_num
  simp only [fit, hBuffer, hLeast, hTwo, Arith.min_real, Arith.max_real]

variable {canvas : Vec ℝ} {b : Box ℝ} {p : Vec ℝ}

/-- On a canvas with an area the scale is positive. -/
theorem fit_scale_pos (hWidth : 0 < canvas.x) (hHeight : 0 < canvas.y) :
    0 < (fit canvas b).scale := by
  have hLeast : (0 : ℝ) < 1 / 10 ^ 5 := by norm_num
  rw [fit_real]
  exact lt_min (div_pos hWidth (hLeast.trans_le (le_max_right _ _)))
    (div_pos hHeight (hLeast.trans_le (le_max_right _ _)))

/-- What the view is made for is on the canvas. -/
theorem fit_contains (hWidth : 0 < canvas.x) (hHeight : 0 < canvas.y) (h : b.Has p) :
    let q := (fit canvas b).onCanvas ((fit canvas b).toInertialSvgCoords p)
    (0 ≤ q.x ∧ q.x ≤ canvas.x) ∧ 0 ≤ q.y ∧ q.y ≤ canvas.y := by
  have hScale := (fit_scale_pos (b := b) hWidth hHeight).le
  rw [fit_real] at hScale ⊢
  dsimp only at hScale ⊢
  have hx := abs_le.mp (abs_scaled_le hScale (min_le_left _ _)
    (x := p.x) (by linarith [h.min_x]) (by linarith [h.max_x]))
  have hy := abs_le.mp (abs_scaled_le hScale (min_le_right _ _)
    (x := p.y) (by linarith [h.min_y]) (by linarith [h.max_y]))
  simp only [onCanvas, toInertialSvgCoords, Vec.add_x, Vec.add_y]
  refine ⟨⟨by linarith [hx.1], by linarith [hx.2]⟩, ?_, ?_⟩
  · linarith [hy.2]
  · linarith [hy.1]

end View

-- ---------------------------------------------------------------------------
-- Replies that tell the same
-- ---------------------------------------------------------------------------

/-- What the map is told of. -/
structure Situation (R : Type) where
  boat   : Vec R
  shadow : Option (Vec R)
  course : WaypointList R

/-- The rectangle around the waypoints, the boat and, if there is one, its shadow. -/
def Situation.box (t : Situation R) (hasShadow : Bool) : Box R :=
  let first := t.course.points.headD .zero
  let box := (t.course.points.foldl Box.extend ⟨first, first⟩).extend t.boat
  if hasShadow then t.shadow.elim box box.extend else box

/-- A reply that tells this, and maybe of obstacles. -/
structure Reply.Tells (r : Reply R) (t : Situation R) : Prop where
  pos       : r.pos = some t.boat
  shadowPos : r.shadowPos = t.shadow
  waypoints : r.waypoints = some t.course

def Situation.reply (t : Situation R) : Reply R where
  pos := some t.boat
  shadowPos := t.shadow
  waypoints := some t.course

/-- There is a waypoint, and the shadow has a position if the page has one. -/
structure Situation.Whole (t : Situation R) (hasShadow : Bool) : Prop where
  points : t.course.points ≠ []
  shadow : hasShadow = true → t.shadow.isSome = true

namespace SailWidget

/-- What the listener draws of a course, and the view that it makes. -/
theorem waypointsListener_eq {s : SailWidget R} {t : Situation R} (hWhole : t.Whole s.hasShadow)
    (hPos : s.pos = some t.boat) (hShadow : s.hasShadow = true → s.shadowPos = t.shadow) :
    s.waypointsListener t.course = ({ s with
      waypoints := some t.course
      markers := s.drawMarkers t.course.points
      view := .fit s.canvas (t.box s.hasShadow) }, true) := by
  obtain ⟨first, points, hPoints⟩ := List.exists_cons_of_ne_nil hWhole.points
  rw [waypointsListener, Situation.box, hPoints]
  dsimp only [List.headD_cons]
  rw [hPos]
  cases hHas : s.hasShadow with
  | false => rfl
  | true =>
    obtain ⟨p, hp⟩ := Option.isSome_iff_exists.mp (hWhole.shadow hHas)
    dsimp only
    rw [hShadow hHas, hp]
    rfl

/-- What a reply that tells everything changes: the boat and the waypoints are drawn in the view
that there was, and then there is a new view. -/
structure Redrawn (t : Situation R) (s s' : SailWidget R) : Prop where
  canvas     : s'.canvas = s.canvas
  hasShadow  : s'.hasShadow = s.hasShadow
  view       : s'.view = .fit s.canvas (t.box s.hasShadow)
  hull       : s'.hull = s.view.toInertialSvgCoords t.boat
  shadowHull : ∀ p, t.shadow = some p → s'.shadowHull = s.view.toInertialSvgCoords p
  markers    : s'.markers = s.drawMarkers t.course.points

/-- A reply that tells everything has the map redrawn. -/
theorem receive_redrawn {s : SailWidget R} {r : Reply R} {t : Situation R}
    (hWhole : t.Whole s.hasShadow) (h : r.Tells t) : Redrawn t s (s.processSocketReceive r) := by
  rw [processSocketReceive, h.pos, h.shadowPos, h.waypoints]
  dsimp only [Option.elim_some]
  cases hShadow : t.shadow with
  | none =>
    have hNone : s.hasShadow = true → (s.boatPositionListener t.boat).shadowPos = t.shadow := by
      intro hHas
      have hSome := hWhole.shadow hHas
      rw [hShadow] at hSome
      cases hSome
    rw [Option.elim_none,
      waypointsListener_eq (s := s.boatPositionListener t.boat) hWhole rfl hNone]
    have hOther : ∀ p q : Vec R, t.shadow = some p → q = s.view.toInertialSvgCoords p :=
      fun p _ hp => absurd (hp.symm.trans hShadow) (Option.some_ne_none p)
    cases r.obstacles <;> exact ⟨rfl, rfl, rfl, rfl, fun p hp => hOther p _ hp, rfl⟩
  | some p =>
    rw [Option.elim_some, waypointsListener_eq
      (s := (s.boatPositionListener t.boat).shadowBoatPositionListener p) hWhole rfl
      fun _ => hShadow.symm]
    have hSame : ∀ q, t.shadow = some q →
        s.view.toInertialSvgCoords p = s.view.toInertialSvgCoords q := fun q hq =>
      congrArg _ (Option.some.inj (hShadow.symm.trans hq))
    cases r.obstacles <;> exact ⟨rfl, rfl, rfl, rfl, hSame, rfl⟩

/-- A click and the buttons leave the map as it is. -/
theorem handle_map (s : SailWidget R) (e : WidgetEvent R) (h : ∀ r, e ≠ .reply r) :
    ∃ obstacles creating last ready, (s.handle e).1 = { s with
      obstacles := obstacles
      isCreatingObstacles := creating
      lastClickPosition := last
      wsReady := ready } := by
  cases e with
  | reply r => exact absurd rfl (h r)
  | click q shiftKey =>
    show ∃ _ _ _ _, (s.clicked q shiftKey).1 = _
    rw [clicked]
    dsimp only
    split
    · exact ⟨_, _, _, _, rfl⟩
    · split <;> exact ⟨_, _, _, _, rfl⟩
  | createObstacle | submit | submitRelative | sendRequests | socket => exact ⟨_, _, _, _, rfl⟩

def isReply : WidgetEvent R → Bool
  | .reply _ => true
  | _ => false

/-- What `n` replies that tell the same leave. The second one draws in the view that the first one
made. -/
structure Settling (canvas : Vec R) (hasShadow : Bool) (t : Situation R) (n : Nat)
    (s : SailWidget R) : Prop where
  same_canvas : s.canvas = canvas
  same_shadow : s.hasShadow = hasShadow
  view        : 1 ≤ n → s.view = .fit canvas (t.box hasShadow)
  drawn       : 2 ≤ n → s.hull = s.view.toInertialSvgCoords t.boat ∧
    (∀ p, t.shadow = some p → s.shadowHull = s.view.toInertialSvgCoords p) ∧
    (∀ i p, t.course.points[i]? = some p → s.markers i = some (s.view.toInertialSvgCoords p)) ∧
    ∀ i, t.course.points.length ≤ i → i < 10 → s.markers i = none

variable {canvas : Vec R} {hasShadow : Bool} {t : Situation R}

/-- Every event keeps what the replies have left. -/
theorem settling_step (hWhole : t.Whole hasShadow) {n : Nat} {s s' : SailWidget R}
    {e : WidgetEvent R} (h : Settling canvas hasShadow t n s)
    (hTells : ∀ r, e = .reply r → r.Tells t) (hstep : step s e = some s') :
    Settling canvas hasShadow t (n + [e].countP isReply) s' := by
  obtain rfl := Option.some.inj hstep
  by_cases hReply : ∃ r, e = .reply r
  · obtain ⟨r, rfl⟩ := hReply
    have hNew := receive_redrawn (s := s) (h.same_shadow ▸ hWhole) (hTells r rfl)
    have hFit := hNew.view
    rw [h.same_canvas, h.same_shadow] at hFit
    show Settling canvas hasShadow t (n + 1) (s.processSocketReceive r)
    refine ⟨hNew.canvas.trans h.same_canvas, hNew.hasShadow.trans h.same_shadow, fun _ => hFit, ?_⟩
    intro hTwo
    -- the view was made by a reply before this one
    have hView : (s.processSocketReceive r).view = s.view := hFit.trans (h.view (by omega)).symm
    rw [hView, hNew.hull, hNew.markers]
    refine ⟨rfl, hNew.shadowHull, ?_, ?_⟩
    · intro i p hp
      rw [drawMarkers, hp]
    · intro i hLen hTen
      rw [drawMarkers, List.getElem?_eq_none hLen]
      exact if_pos hTen
  · obtain ⟨obstacles, creating, last, ready, hEq⟩ :=
      handle_map s e fun r hr => hReply ⟨r, hr⟩
    have hNone : [e].countP isReply = 0 := by
      cases e with
      | reply r => exact absurd ⟨r, rfl⟩ hReply
      | click | createObstacle | submit | submitRelative | sendRequests | socket => rfl
    rw [hNone, hEq]
    exact ⟨h.same_canvas, h.same_shadow, h.view, h.drawn⟩

/-- And so does every run. -/
theorem run_settling (hWhole : t.Whole hasShadow) {es : List (WidgetEvent R)} :
    ∀ {n : Nat} {s s' : SailWidget R}, Settling canvas hasShadow t n s →
      (∀ r, .reply r ∈ es → r.Tells t) → run step s es = some s' →
      Settling canvas hasShadow t (n + es.countP isReply) s' := by
  induction es with
  | nil =>
    intro n s s' h _ hrun
    obtain rfl := Option.some.inj hrun
    exact h
  | cons e es ih =>
    intro n s s' h hTells hrun
    obtain ⟨u, hu, hrun⟩ := run_cons_eq_some.mp hrun
    have hStep := settling_step hWhole h
      (fun r hr => hTells r (hr ▸ List.mem_cons_self)) hu
    have hRest := ih hStep (fun r hr => hTells r (List.mem_cons_of_mem _ hr)) hrun
    rwa [Nat.add_assoc, ← List.countP_append] at hRest

-- ---------------------------------------------------------------------------
-- What the map shows
-- ---------------------------------------------------------------------------

/-- The rectangle has all that is shown. -/
theorem Situation.box_has (t : Situation ℝ) (hasShadow : Bool) :
    (∀ p ∈ t.course.points, (t.box hasShadow).Has p) ∧ (t.box hasShadow).Has t.boat ∧
      (hasShadow = true → ∀ p, t.shadow = some p → (t.box hasShadow).Has p) := by
  set box := (t.course.points.foldl Box.extend
    ⟨t.course.points.headD .zero, t.course.points.headD .zero⟩).extend t.boat with hBox
  have hGrow : ∀ p, box.Has p → (t.box hasShadow).Has p := by
    intro p hp
    rw [Situation.box, ← hBox]
    split
    · cases t.shadow with
      | none => exact hp
      | some q => exact hp.extend q
    · exact hp
  refine ⟨fun p hp => hGrow p ((Box.has_foldl (.inr hp)).extend _),
    hGrow _ (Box.has_extend_self _ _), ?_⟩
  rintro rfl p hp
  rw [Situation.box, if_pos rfl, hp]
  exact Box.has_extend_self _ _

/-- What is drawn at `q` in the inertial frame is on the canvas, and a click on it has the position
`p`. -/
structure Finds (s : SailWidget ℝ) (q p : Vec ℝ) : Prop where
  visible : (0 ≤ (s.view.onCanvas q).x ∧ (s.view.onCanvas q).x ≤ s.canvas.x) ∧
    0 ≤ (s.view.onCanvas q).y ∧ (s.view.onCanvas q).y ≤ s.canvas.y
  simPos  : s.view.simPos (s.view.onCanvas q) = p

/-- The map shows the boat, its shadow and the waypoints where they are. -/
structure Shows (s : SailWidget ℝ) (t : Situation ℝ) : Prop where
  hull       : s.Finds s.hull t.boat
  shadowHull : s.hasShadow = true → ∀ p, t.shadow = some p → s.Finds s.shadowHull p
  markers    : ∀ i p, t.course.points[i]? = some p → ∃ q, s.markers i = some q ∧ s.Finds q p
  cleared    : ∀ i, t.course.points.length ≤ i → i < 10 → s.markers i = none

/-- **The map settles.** From any state on, once two replies were received, and if all replies
tell the same, the boat, its shadow and all waypoints are drawn on the canvas, and a click on any
of them has its position; whatever is clicked in between. -/
theorem map_settles {s s' : SailWidget ℝ} {t : Situation ℝ} {es : List (WidgetEvent ℝ)}
    (hWidth : 0 < s.canvas.x) (hHeight : 0 < s.canvas.y) (hWhole : t.Whole s.hasShadow)
    (hTells : ∀ r, .reply r ∈ es → r.Tells t) (hTwo : 2 ≤ es.countP isReply)
    (hrun : run step s es = some s') : s'.Shows t := by
  have hStart : Settling s.canvas s.hasShadow t 0 s :=
    ⟨rfl, rfl, fun h => absurd h (by decide), fun h => absurd h (by decide)⟩
  have hEnd := run_settling hWhole hStart hTells hrun
  rw [Nat.zero_add] at hEnd
  obtain ⟨hHull, hShadow, hMarkers, hCleared⟩ := hEnd.drawn hTwo
  obtain ⟨hPoints, hBoat, hShadowIn⟩ := Situation.box_has t s.hasShadow
  have hView := hEnd.view (by omega)
  have hFinds : ∀ p, (t.box s.hasShadow).Has p →
      s'.Finds (s'.view.toInertialSvgCoords p) p := by
    intro p hp
    refine ⟨?_, View.simPos_onCanvas ?_ p⟩
    · rw [hView, hEnd.same_canvas]
      exact View.fit_contains hWidth hHeight hp
    · rw [hView]
      exact (View.fit_scale_pos hWidth hHeight).ne'
  refine ⟨hHull ▸ hFinds _ hBoat, ?_, ?_, hCleared⟩
  · intro hHas p hp
    rw [hShadow p hp]
    exact hFinds p (hShadowIn (hEnd.same_shadow ▸ hHas) p hp)
  · intro i p hp
    exact ⟨_, hMarkers i p hp, hFinds p (hPoints p (List.mem_of_getElem? hp))⟩

/-- A boat in the origin, with a waypoint to the north-east. -/
noncomputable def northEast : Situation ℝ where
  boat := .zero
  shadow := none
  course := { points := [⟨4, 3⟩] }

/-- After two replies, with a click between them, the map shows the waypoint. -/
theorem map_settles_north_east : ∃ s, run step (init ⟨4, 3⟩ false)
    [.reply northEast.reply, .click .zero false, .reply northEast.reply] = some s ∧
    s.Shows northEast := by
  have hTells : ∀ r, .reply r ∈ [WidgetEvent.reply northEast.reply, .click .zero false,
      .reply northEast.reply] → r.Tells northEast := by
    intro r hr
    simp only [List.mem_cons, List.not_mem_nil, or_false, WidgetEvent.reply.injEq,
      reduceCtorEq, false_or] at hr
    rcases hr with rfl | rfl <;> exact ⟨rfl, rfl, rfl⟩
  refine ⟨_, rfl, map_settles (s := init ⟨4, 3⟩ false) ?_ ?_ ?_ hTells (le_refl 2) rfl⟩
  · show (0 : ℝ) < 4
    norm_num
  · show (0 : ℝ) < 3
    norm_num
  · exact ⟨List.cons_ne_nil _ _, fun h => Bool.noConfusion h⟩

end SailWidget

end Sailbot.Ui

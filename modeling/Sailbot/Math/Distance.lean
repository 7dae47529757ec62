import Mathlib.Tactic.IntervalCases
import Sailbot.Lib.Segment
import Sailbot.Math.Line

/-!
# The distance to a polygon

`Polygon::DistToPoint` (`math/polygon.cc`) in exact arithmetic, for convex polygons in
counter-clockwise order. The code looks for the vertex that is nearest and then at two edges
only, the ones next to it. There are two things wrong with that. The nearest point of a
polygon need not be on an edge of the nearest vertex: a long edge may be near where all
vertices are far away. And the edge before the first vertex is not found: `minvertex - 1` is
computed in a `size_t`, and unless the number of vertices is a power of two, the remainder of
`2 ^ 64 - 1` is not the index of the last vertex.

* `Polygon.region`               — the polygon as a set of points.
* `Polygon.Contract`             — what the code says that it computes.
* `Polygon.edgesOf_iff`          — where the two edges are those of the nearest vertex.
* `Polygon.distToPoint_contract_iff` — where the code computes what it says.
* `Polygon.contract_of_inside`   — inside, the second fault is the only one.
-/

namespace Sailbot.Math

open Lib

-- ---------------------------------------------------------------------------
-- Convex polygons
-- ---------------------------------------------------------------------------

namespace Polygon

/-- A convex polygon in counter-clockwise order, which may be a segment: every vertex is on or
to the left of the line through every two consecutive ones. The number of vertices is a
`size_t`. -/
structure ConvexCcw (p : Polygon ℝ) : Prop where
  two      : 2 ≤ p.pts.length
  size     : p.pts.length < 2 ^ 64
  distinct : ∀ i < p.pts.length, p.pt i ≠ p.pt ((i + 1) % p.pts.length)
  left     : ∀ i < p.pts.length, ∀ j < p.pts.length,
    0 ≤ (p.pt ((i + 1) % p.pts.length) - p.pt i).cross (p.pt j - p.pt i)

/-- The points of a polygon, with its inside. -/
def region (p : Polygon ℝ) : Set ℂ := convexHull ℝ (Vec.toComplex '' {a | a ∈ p.pts})

/-- The point is strictly to the left of the line from `l0` to `l1`. -/
def StrictlyLeft (l0 l1 pt : Vec ℝ) : Prop := 0 < (l1 - l0).cross (pt - l0)

/-- What `DistToPoint` says that it returns: a negative number strictly inside, and the distance
everywhere else, which is zero on the boundary. -/
def Contract (p : Polygon ℝ) (pt : Vec ℝ) : Prop :=
  (pt.toComplex ∈ interior p.region → p.distToPoint pt < 0) ∧
    (pt.toComplex ∉ interior p.region →
      p.distToPoint pt = Metric.infDist pt.toComplex p.region)

/-- The first of the vertices that are nearest to a point. -/
structure FirstNearest (p : Polygon ℝ) (pt : Vec ℝ) (m : Nat) : Prop where
  lt      : m < p.pts.length
  nearest : ∀ j < p.pts.length, (pt - p.pt m).norm ≤ (pt - p.pt j).norm
  first   : ∀ j < m, (pt - p.pt m).norm < (pt - p.pt j).norm

variable {p : Polygon ℝ} {pt : Vec ℝ} {m : Nat}

theorem pt_mem {i : Nat} (h : i < p.pts.length) : p.pt i ∈ p.pts := by
  rw [pt, List.getD_eq_getElem?_getD, List.getElem?_eq_getElem h, Option.getD_some]
  exact List.getElem_mem h

/-- A vertex has an index. -/
theorem exists_pt {a : Vec ℝ} (h : a ∈ p.pts) : ∃ i < p.pts.length, p.pt i = a := by
  obtain ⟨i, hi, rfl⟩ := List.mem_iff_getElem.mp h
  exact ⟨i, hi, by rw [pt, List.getD_eq_getElem?_getD, List.getElem?_eq_getElem hi,
    Option.getD_some]⟩

/-- The vertices belong to the polygon. -/
theorem pt_mem_region {i : Nat} (h : i < p.pts.length) : (p.pt i).toComplex ∈ p.region :=
  subset_convexHull ℝ _ ⟨p.pt i, pt_mem h, rfl⟩

/-- So do the segments between them. -/
theorem segment_subset_region {i j : Nat} (hi : i < p.pts.length) (hj : j < p.pts.length) :
    segment ℝ (p.pt i).toComplex (p.pt j).toComplex ⊆ p.region :=
  (convex_convexHull ℝ _).segment_subset (pt_mem_region hi) (pt_mem_region hj)

/-- The side of a line is convex. -/
theorem convex_side (l0 l1 : Vec ℝ) :
    Convex ℝ {z : ℂ | 0 ≤ (l1 - l0).cross (Vec.ofComplex z - l0)} := by
  intro z hz w hw s t hs ht hst
  have hMix : (l1 - l0).cross (Vec.ofComplex (s • z + t • w) - l0) =
      s * (l1 - l0).cross (Vec.ofComplex z - l0) + t * (l1 - l0).cross (Vec.ofComplex w - l0) := by
    simp only [Vec.cross, Vec.sub_x, Vec.sub_y, Vec.ofComplex_x, Vec.ofComplex_y, Complex.add_re,
      Complex.add_im, Complex.real_smul, Complex.re_ofReal_mul, Complex.im_ofReal_mul]
    linear_combination ((l1.x - l0.x) * l0.y - (l1.y - l0.y) * l0.x) * hst
  rw [Set.mem_ofPred_eq, hMix]
  exact add_nonneg (mul_nonneg hs hz) (mul_nonneg ht hw)

/-- All of a convex polygon is to the left of each of its edges. -/
theorem ConvexCcw.region_left (h : p.ConvexCcw) {i : Nat} (hi : i < p.pts.length) {z : ℂ}
    (hz : z ∈ p.region) :
    0 ≤ (p.pt ((i + 1) % p.pts.length) - p.pt i).cross (Vec.ofComplex z - p.pt i) := by
  refine convexHull_min (t := {z | 0 ≤ (p.pt ((i + 1) % p.pts.length) - p.pt i).cross
    (Vec.ofComplex z - p.pt i)}) ?_ (convex_side _ _) hz
  rintro _ ⟨a, ha, rfl⟩
  obtain ⟨j, hj, rfl⟩ := exists_pt ha
  exact h.left i hi j hj

/-- The inside of a convex polygon is strictly to the left of each of its edges: a point on the
line has points to the right of it in every neighbourhood. -/
theorem ConvexCcw.interior_left (h : p.ConvexCcw) {i : Nat} (hi : i < p.pts.length)
    (hpt : pt.toComplex ∈ interior p.region) :
    StrictlyLeft (p.pt i) (p.pt ((i + 1) % p.pts.length)) pt := by
  have hDistinct := h.distinct i hi
  set a := p.pt i
  set b := p.pt ((i + 1) % p.pts.length)
  have hLength : 0 < (b.x - a.x) ^ 2 + (b.y - a.y) ^ 2 := Vec.squaredNorm_pos hDistinct
  by_contra hNot
  obtain ⟨ε, hε, hBall⟩ := Metric.mem_nhds_iff.mp (mem_interior_iff_mem_nhds.mp hpt)
  have hNorm : 0 < (b - a).norm := Vec.norm_pos hDistinct
  -- One half of the radius to the right of the line.
  set δ : ℝ := ε / (2 * (b - a).norm) with hδ
  have hδPos : 0 < δ := by positivity
  set z : ℂ := (pt + δ * (⟨(b - a).y, -(b - a).x⟩ : Vec ℝ)).toComplex with hz
  have hDist : dist z pt.toComplex < ε := by
    rw [dist_comm, Vec.dist_toComplex, Vec.norm_lt_iff hε]
    have hSq := (b - a).norm_sq
    have hHalf : δ * (b - a).norm = ε / 2 := by
      rw [hδ]
      field_simp
    have hSum : (pt - Vec.ofComplex z).x ^ 2 + (pt - Vec.ofComplex z).y ^ 2 =
        (δ * (b - a).norm) ^ 2 := by
      rw [hz, mul_pow, hSq]
      simp only [Vec.ofComplex_toComplex, Vec.sub_x, Vec.sub_y, Vec.add_x, Vec.add_y,
        Vec.smul_x, Vec.smul_y]
      ring
    rw [hSum, hHalf]
    nlinarith
  have hLeft := h.region_left hi (hBall (Metric.mem_ball.mpr hDist))
  have hRight : (b - a).cross (Vec.ofComplex z - a) =
      (b - a).cross (pt - a) - δ * ((b.x - a.x) ^ 2 + (b.y - a.y) ^ 2) := by
    rw [hz]
    simp only [Vec.cross, Vec.ofComplex_toComplex, Vec.sub_x, Vec.sub_y, Vec.add_x, Vec.add_y,
      Vec.smul_x, Vec.smul_y]
    ring
  have hMove := mul_pos hδPos hLength
  have hCross := not_lt.mp hNot
  linarith

-- ---------------------------------------------------------------------------
-- The code
-- ---------------------------------------------------------------------------

/-- The sign of the distance to a line is the side. -/
theorem distToLine_pos_iff {l0 l1 : Vec ℝ} : 0 < distToLine l0 l1 pt ↔ StrictlyLeft l0 l1 pt := by
  by_cases h : l0 = l1
  · subst h
    rw [distToLine_self]
    simp [StrictlyLeft, Vec.cross]
  · rw [distToLine_eq h, StrictlyLeft]
    exact div_pos_iff_of_pos_right (Vec.norm_pos h)

/-- What the loop over the vertices knows after the first `k` of them. -/
structure NearestBelow (p : Polygon ℝ) (pt : Vec ℝ) (k : Nat) (r : Nat × Option ℝ) : Prop where
  lt      : r.1 < k
  dist    : r.2 = some (pt - p.pt r.1).norm
  nearest : ∀ j < k, (pt - p.pt r.1).norm ≤ (pt - p.pt j).norm
  first   : ∀ j < r.1, (pt - p.pt r.1).norm < (pt - p.pt j).norm

/-- A vertex that is nearer is taken. -/
theorem NearestBelow.nearer {k : Nat} {r : Nat × Option ℝ} (h : NearestBelow p pt k r)
    (hLt : (pt - p.pt k).norm < (pt - p.pt r.1).norm) :
    NearestBelow p pt (k + 1) (k, some (pt - p.pt k).norm) where
  lt := Nat.lt_succ_self k
  dist := rfl
  nearest := by
    intro j hj
    rcases Nat.lt_succ_iff_lt_or_eq.mp hj with hBelow | rfl
    · exact hLt.le.trans (h.nearest j hBelow)
    · exact le_rfl
  first := fun j hj => hLt.trans_le (h.nearest j hj)

/-- One that is not nearer is not. -/
theorem NearestBelow.notNearer {k : Nat} {r : Nat × Option ℝ} (h : NearestBelow p pt k r)
    (hLe : (pt - p.pt r.1).norm ≤ (pt - p.pt k).norm) : NearestBelow p pt (k + 1) r where
  lt := h.lt.trans (Nat.lt_succ_self k)
  dist := h.dist
  nearest := by
    intro j hj
    rcases Nat.lt_succ_iff_lt_or_eq.mp hj with hBelow | rfl
    · exact h.nearest j hBelow
    · exact hLe
  first := h.first

/-- By induction on the number of vertices that the loop has looked at. -/
theorem nearest_loop (p : Polygon ℝ) (pt : Vec ℝ) (k : Nat) :
    NearestBelow p pt (k + 1) ((List.range (k + 1)).foldl (fun (minvertex, mindist) i =>
      let dist := (pt - p.pt i).norm
      if Arith.ltMin dist mindist then (i, some dist) else (minvertex, mindist)) (0, none)) := by
  induction k with
  | zero =>
    exact ⟨Nat.zero_lt_one, rfl, fun j hj => by rw [Nat.lt_one_iff.mp hj]; exact le_rfl, nofun⟩
  | succ k ih =>
    rw [List.range_succ, List.foldl_append, List.foldl_cons, List.foldl_nil]
    set r := (List.range (k + 1)).foldl (fun (minvertex, mindist) i =>
      let dist := (pt - p.pt i).norm
      if Arith.ltMin dist mindist then (i, some dist) else (minvertex, mindist)) (0, none)
    show NearestBelow p pt (k + 2) (if Arith.ltMin (pt - p.pt (k + 1)).norm r.2 then
      (k + 1, some (pt - p.pt (k + 1)).norm) else (r.1, r.2))
    rw [ih.dist]
    split
    case isTrue hLt => exact ih.nearer (Arith.lt_real.mp hLt)
    case isFalse hNot =>
      rw [← ih.dist]
      exact ih.notNearer (not_lt.mp (mt Arith.lt_real.mpr hNot))

/-- The code finds the first of the vertices that are nearest. -/
theorem nearest_eq (hm : FirstNearest p pt m) :
    p.nearest pt = (m, some (pt - p.pt m).norm) := by
  have hPos : 0 < p.pts.length := Nat.zero_lt_of_lt hm.lt
  have h : NearestBelow p pt p.pts.length (p.nearest pt) := by
    have := nearest_loop p pt (p.pts.length - 1)
    rwa [Nat.sub_add_cancel hPos] at this
  have hIndex : (p.nearest pt).1 = m := by
    rcases lt_trichotomy (p.nearest pt).1 m with hLt | hEq | hGt
    · exact absurd (h.nearest m hm.lt) (not_le.mpr (hm.first _ hLt))
    · exact hEq
    · exact absurd (hm.nearest _ h.lt) (not_le.mpr (h.first m hGt))
  exact Prod.ext hIndex (by rw [h.dist, hIndex])

/-- There is a first one of the nearest vertices. -/
theorem exists_firstNearest (h : p.pts ≠ []) (pt : Vec ℝ) : ∃ m, FirstNearest p pt m := by
  have hPos : 0 < p.pts.length := List.length_pos_iff.mpr h
  have hLoop := nearest_loop p pt (p.pts.length - 1)
  rw [Nat.sub_add_cancel hPos] at hLoop
  exact ⟨_, hLoop.lt, hLoop.nearest, hLoop.first⟩

/-- The vertices before and behind the nearest one, as the code finds them. -/
def before {R : Type} [Arith R] (p : Polygon R) (m : Nat) : Vec R :=
  p.pt (preIndex m p.pts.length)

def behind {R : Type} [Arith R] (p : Polygon R) (m : Nat) : Vec R :=
  p.pt (postIndex m p.pts.length)

open Classical in
/-- The four outcomes. -/
theorem distToPoint_eq (hm : FirstNearest p pt m) :
    p.distToPoint pt =
      if StrictlyLeft (p.before m) (p.pt m) pt ∧ StrictlyLeft (p.pt m) (p.behind m) pt then
        Min.min (-distToLine (p.before m) (p.pt m) pt) (-distToLine (p.pt m) (p.behind m) pt)
      else if projectsToLine (p.pt m) (p.behind m) pt ∧
          ¬ StrictlyLeft (p.pt m) (p.behind m) pt then -distToLine (p.pt m) (p.behind m) pt
      else if projectsToLine (p.before m) (p.pt m) pt ∧
          ¬ StrictlyLeft (p.before m) (p.pt m) pt then -distToLine (p.before m) (p.pt m) pt
      else (pt - p.pt m).norm := by
  have hNeg {l0 l1 : Vec ℝ} : Arith.lt (-distToLine l0 l1 pt) (Arith.lit 0) = true ↔
      StrictlyLeft l0 l1 pt := by
    rw [Arith.lt_real, Arith.lit_real, Rat.cast_zero, neg_lt_zero, distToLine_pos_iff]
  have hLe {l0 l1 : Vec ℝ} : Arith.le (Arith.lit 0) (-distToLine l0 l1 pt) = true ↔
      ¬ StrictlyLeft l0 l1 pt := by
    rw [Arith.le_real, Arith.lit_real, Rat.cast_zero, neg_nonneg, ← distToLine_pos_iff, not_lt]
  unfold distToPoint
  rw [nearest_eq hm]
  dsimp only [Option.getD_some]
  rw [Arith.min_real]
  simp only [Bool.and_eq_true, hNeg, hLe]
  rfl

-- ---------------------------------------------------------------------------
-- The edges of a vertex
-- ---------------------------------------------------------------------------

section Index

variable {n k : Nat}

/-- The index for the vertex before is in range. -/
theorem preIndex_lt (hn : 0 < n) (k : Nat) : preIndex k n < n := Nat.mod_lt _ hn

/-- The index for the vertex behind is in range. -/
theorem postIndex_lt (hn : 0 < n) (k : Nat) : postIndex k n < n := Nat.mod_lt _ hn

/-- The index for the vertex behind is that of the next one. -/
theorem postIndex_eq (hk : k < n) (hSize : n < 2 ^ 64) : postIndex k n = (k + 1) % n := by
  rw [postIndex, Nat.mod_eq_of_lt (show k + 1 < 2 ^ 64 by omega)]

/-- Behind the first vertex, nothing wraps. -/
theorem preIndex_of_pos (hFirst : 0 < k) (hk : k < n) (hSize : n < 2 ^ 64) :
    preIndex k n = k - 1 := by
  rw [preIndex, show k + 2 ^ 64 - 1 = k - 1 + 2 ^ 64 by omega, Nat.add_mod_right,
    Nat.mod_eq_of_lt (show k - 1 < 2 ^ 64 by omega), Nat.mod_eq_of_lt (by omega)]

/-- At the first vertex, `minvertex - 1` is the largest `size_t`. -/
theorem preIndex_zero (n : Nat) : preIndex 0 n = (2 ^ 64 - 1) % n := by
  rw [preIndex, Nat.zero_add, Nat.mod_eq_of_lt (show 2 ^ 64 - 1 < 2 ^ 64 by decide)]

/-- Before the first vertex, the code finds the last one for powers of two only. -/
theorem preIndex_zero_eq_iff (hn : 0 < n) : preIndex 0 n = n - 1 ↔ n ∣ 2 ^ 64 := by
  rw [preIndex_zero]
  have hDivision := Nat.mod_add_div (2 ^ 64 - 1) n
  constructor
  · intro hLast
    rw [hLast] at hDivision
    exact ⟨(2 ^ 64 - 1) / n + 1, by rw [Nat.mul_add]; omega⟩
  · rintro ⟨q, hq⟩
    obtain ⟨r, rfl⟩ : ∃ r, q = r + 1 := ⟨q - 1, by
      have : q ≠ 0 := by rintro rfl; omega
      omega⟩
    have hSum : 2 ^ 64 - 1 = n - 1 + n * r := by
      rw [hq, Nat.mul_add]
      omega
    rw [hSum, Nat.add_mul_mod_self_left, Nat.mod_eq_of_lt (by omega)]

/-- The vertex before another one in the order of the polygon. -/
theorem preIndex_eq_iff (hk : k < n) (hSize : n < 2 ^ 64) :
    preIndex k n = (k + n - 1) % n ↔ 0 < k ∨ n ∣ 2 ^ 64 := by
  rcases Nat.eq_zero_or_pos k with rfl | hFirst
  · rw [Nat.zero_add, Nat.mod_eq_of_lt (show n - 1 < n by omega), preIndex_zero_eq_iff hk]
    simp
  · have hPred : (k + n - 1) % n = k - 1 := by
      rw [show k + n - 1 = k - 1 + n by omega, Nat.add_mod_right, Nat.mod_eq_of_lt (by omega)]
    exact iff_of_true (by rw [preIndex_of_pos hFirst hk hSize, hPred]) (.inl hFirst)

/-- The two edges are those from the vertex before `k` to the one behind it, and none of them is
a point. -/
structure EdgesOf (n k : Nat) : Prop where
  pre_eq  : preIndex k n = (k + n - 1) % n
  post_eq : postIndex k n = (k + 1) % n
  pre_ne  : preIndex k n ≠ k
  post_ne : postIndex k n ≠ k

/-- The next vertex is another one. -/
theorem succ_mod_ne (hTwo : 2 ≤ n) (hk : k < n) : (k + 1) % n ≠ k := by
  rcases Nat.lt_or_ge (k + 1) n with hLt | hLast
  · rw [Nat.mod_eq_of_lt hLt]
    omega
  · rw [show k + 1 = n by omega, Nat.mod_self]
    omega

/-- The vertex before is another one. -/
theorem pred_mod_ne (hTwo : 2 ≤ n) (hk : k < n) : (k + n - 1) % n ≠ k := by
  rcases Nat.eq_zero_or_pos k with rfl | hFirst
  · rw [Nat.zero_add, Nat.mod_eq_of_lt (by omega)]
    omega
  · rw [show k + n - 1 = k - 1 + n by omega, Nat.add_mod_right, Nat.mod_eq_of_lt (by omega)]
    omega

/-- **The edges of a vertex.** The edge behind a vertex is found always. The one before it is
found unless the vertex is the first one of a polygon whose number of vertices is not a power of
two. -/
theorem edgesOf_iff (hTwo : 2 ≤ n) (hSize : n < 2 ^ 64) (hk : k < n) :
    EdgesOf n k ↔ 0 < k ∨ n ∣ 2 ^ 64 := by
  rw [← preIndex_eq_iff hk hSize]
  constructor
  · exact EdgesOf.pre_eq
  · intro hPre
    have hPost := postIndex_eq hk hSize
    exact {
      pre_eq := hPre
      post_eq := hPost
      pre_ne := hPre ▸ pred_mod_ne hTwo hk
      post_ne := hPost ▸ succ_mod_ne hTwo hk }

/-- The second vertex of a triangle has both of its edges. -/
theorem edgesOf_iff_triangle : EdgesOf 3 1 :=
  (edgesOf_iff (by decide) (by decide) (by decide)).mpr (.inl Nat.one_pos)

/-- The first vertex of a triangle is taken for the one before it. -/
theorem triangle_first_not_edgesOf : ¬ EdgesOf 3 0 :=
  fun h => h.pre_ne (by decide)

/-- Where the vertex before another one is found, the other one is behind it. -/
theorem preIndex_succ (hIndex : 0 < k ∨ n ∣ 2 ^ 64) (hk : k < n) (hSize : n < 2 ^ 64) :
    (preIndex k n + 1) % n = k := by
  rw [(preIndex_eq_iff hk hSize).mpr hIndex, Nat.mod_add_mod,
    show k + n - 1 + 1 = k + n by omega, Nat.add_mod_right, Nat.mod_eq_of_lt hk]

end Index

-- ---------------------------------------------------------------------------
-- Outside
-- ---------------------------------------------------------------------------

section Edge

variable {l0 l1 : Vec ℝ}

/-- What a point projects onto is not a point. -/
theorem ne_of_projects (h : projectsToLine l0 l1 pt = true) : l0 ≠ l1 := by
  rintro rfl
  obtain ⟨hPos, -⟩ := projectsToLine_iff.mp h
  simp [Vec.dot_eq] at hPos

/-- On the right the distance to a line is positive. -/
theorem neg_distToLine_eq (hNe : l0 ≠ l1) (h : ¬ StrictlyLeft l0 l1 pt) :
    -distToLine l0 l1 pt = |(l1 - l0).cross (pt - l0)| / (l1 - l0).norm := by
  rw [distToLine_eq hNe, abs_of_nonpos (not_lt.mp h), neg_div]

/-- The distance to an edge that the point projects onto is the one to a point of the edge. -/
theorem exists_foot (hProj : projectsToLine l0 l1 pt = true) (h : ¬ StrictlyLeft l0 l1 pt) :
    ∃ z ∈ segment ℝ l0.toComplex l1.toComplex,
      dist pt.toComplex z = -distToLine l0 l1 pt ∧ dist pt.toComplex z < (pt - l0).norm ∧
        dist pt.toComplex z < (pt - l1).norm := by
  obtain ⟨hPos, hLt⟩ := projectsToLine_iff.mp hProj
  obtain ⟨z, hz, hDist, hStart, hEnd⟩ := Vec.exists_foot hPos hLt
  exact ⟨z, hz, hDist.trans (neg_distToLine_eq (ne_of_projects hProj) h).symm, hStart, hEnd⟩

/-- Nothing on the other side of the line is nearer than the line. -/
theorem neg_distToLine_le (hNe : l0 ≠ l1) (h : ¬ StrictlyLeft l0 l1 pt) {z : ℂ}
    (hz : 0 ≤ (l1 - l0).cross (Vec.ofComplex z - l0)) :
    -distToLine l0 l1 pt ≤ dist pt.toComplex z := by
  rw [neg_distToLine_eq hNe h]
  exact Vec.dist_of_sides hNe (not_lt.mp h) hz

/-- The points of an edge are on neither side of it. -/
theorem cross_of_mem_segment {z : ℂ} (hz : z ∈ segment ℝ l0.toComplex l1.toComplex) :
    (l1 - l0).cross (Vec.ofComplex z - l0) = 0 := by
  obtain ⟨t, -, -, hEq⟩ := Vec.mem_segment_iff.mp hz
  rw [hEq]
  simp only [Vec.cross, Vec.sub_x, Vec.sub_y, Vec.add_x, Vec.add_y, Vec.smul_x, Vec.smul_y]
  ring

/-- On a segment that a point does not project onto, an end is nearest, and a nearest vertex is
no further away. -/
theorem le_dist_of_not_projects {v : Vec ℝ} (hProj : ¬ projectsToLine l0 l1 pt = true)
    (h0 : (pt - v).norm ≤ (pt - l0).norm) (h1 : (pt - v).norm ≤ (pt - l1).norm) {z : ℂ}
    (hz : z ∈ segment ℝ l0.toComplex l1.toComplex) : (pt - v).norm ≤ dist pt.toComplex z := by
  rcases Vec.dist_of_not_projects (mt projectsToLine_iff.mpr hProj) hz with hLe | hLe
  · exact h0.trans hLe
  · exact h1.trans hLe

end Edge

/-- The nearest point of the polygon is on an edge that the code looks at, and the point is not
to the left of it. -/
def NearestOnEdge (p : Polygon ℝ) (pt : Vec ℝ) (m : Nat) : Prop :=
  ∃ z ∈ p.region, dist pt.toComplex z = Metric.infDist pt.toComplex p.region ∧
    (z ∈ segment ℝ (p.before m).toComplex (p.pt m).toComplex ∧
        ¬ StrictlyLeft (p.before m) (p.pt m) pt ∨
      z ∈ segment ℝ (p.pt m).toComplex (p.behind m).toComplex ∧
        ¬ StrictlyLeft (p.pt m) (p.behind m) pt)

variable {p : Polygon ℝ} {pt : Vec ℝ} {m : Nat}

/-- What is returned as a distance is the distance to a point of the two edges. -/
theorem nearestOnEdge_of_eq (hm : FirstNearest p pt m)
    (hEq : p.distToPoint pt = Metric.infDist pt.toComplex p.region) : NearestOnEdge p pt m := by
  have hPos : 0 < p.pts.length := Nat.zero_lt_of_lt hm.lt
  have hPrevSub := segment_subset_region (preIndex_lt hPos m) hm.lt
  have hNextSub := segment_subset_region hm.lt (postIndex_lt hPos m)
  rw [distToPoint_eq hm] at hEq
  split_ifs at hEq with hBoth hNext hPrev
  · -- Both signs are wrong: a distance is not negative.
    have hNeg : -distToLine (p.before m) (p.pt m) pt < 0 :=
      neg_lt_zero.mpr (distToLine_pos_iff.mpr hBoth.1)
    have hNonneg : 0 ≤ Metric.infDist pt.toComplex p.region := Metric.infDist_nonneg
    rw [← hEq] at hNonneg
    exact absurd (hNonneg.trans (min_le_left _ _)) (not_le.mpr hNeg)
  · obtain ⟨z, hz, hDist, -⟩ := exists_foot hNext.1 hNext.2
    exact ⟨z, hNextSub hz, hDist.trans hEq, .inr ⟨hz, hNext.2⟩⟩
  · obtain ⟨z, hz, hDist, -⟩ := exists_foot hPrev.1 hPrev.2
    exact ⟨z, hPrevSub hz, hDist.trans hEq, .inl ⟨hz, hPrev.2⟩⟩
  · refine ⟨(p.pt m).toComplex, pt_mem_region hm.lt, ?_, ?_⟩
    · rw [Vec.dist_toComplex, Vec.ofComplex_toComplex, hEq]
    · by_cases hLeft : StrictlyLeft (p.before m) (p.pt m) pt
      · exact .inr ⟨left_mem_segment ℝ _ _, fun hRight => hBoth ⟨hLeft, hRight⟩⟩
      · exact .inl ⟨right_mem_segment ℝ _ _, hLeft⟩

/-- Where the nearest point is on one of the two edges, every outcome is its distance. -/
theorem eq_of_nearestOnEdge (h : p.ConvexCcw) (hm : FirstNearest p pt m)
    (hEdge : NearestOnEdge p pt m) :
    p.distToPoint pt = Metric.infDist pt.toComplex p.region := by
  obtain ⟨q, hq, hDist, hSide⟩ := hEdge
  have hPos : 0 < p.pts.length := Nat.zero_lt_of_lt hm.lt
  have hPrevSub := segment_subset_region (preIndex_lt hPos m) hm.lt
  have hNextSub := segment_subset_region hm.lt (postIndex_lt hPos m)
  have hInf {z : ℂ} (hz : z ∈ p.region) :
      Metric.infDist pt.toComplex p.region ≤ dist pt.toComplex z := Metric.infDist_le_dist_of_mem hz
  -- If the point does not project onto an edge, the nearest vertex is nearest on it.
  have hOnPrev (hz : q ∈ segment ℝ (p.before m).toComplex (p.pt m).toComplex)
      (hProj : ¬ projectsToLine (p.before m) (p.pt m) pt = true) :
      (pt - p.pt m).norm ≤ dist pt.toComplex q :=
    le_dist_of_not_projects hProj (hm.nearest _ (preIndex_lt hPos m)) le_rfl hz
  have hOnNext (hz : q ∈ segment ℝ (p.pt m).toComplex (p.behind m).toComplex)
      (hProj : ¬ projectsToLine (p.pt m) (p.behind m) pt = true) :
      (pt - p.pt m).norm ≤ dist pt.toComplex q :=
    le_dist_of_not_projects hProj le_rfl (hm.nearest _ (postIndex_lt hPos m)) hz
  rw [distToPoint_eq hm]
  split_ifs with hBoth hNext hPrev
  · rcases hSide with ⟨-, hNot⟩ | ⟨-, hNot⟩
    · exact absurd hBoth.1 hNot
    · exact absurd hBoth.2 hNot
  · obtain ⟨z, hz, hFoot, -⟩ := exists_foot hNext.1 hNext.2
    have hBehind : p.behind m = p.pt ((m + 1) % p.pts.length) := by
      rw [behind, postIndex_eq hm.lt h.size]
    have hLeft : 0 ≤ (p.behind m - p.pt m).cross (Vec.ofComplex q - p.pt m) := by
      rw [hBehind]
      exact h.region_left hm.lt hq
    refine le_antisymm ?_ ?_
    · rw [← hDist]
      exact neg_distToLine_le (ne_of_projects hNext.1) hNext.2 hLeft
    · rw [← hFoot]
      exact hInf (hNextSub hz)
  · obtain ⟨z, hz, hFoot, -, hNearer⟩ := exists_foot hPrev.1 hPrev.2
    have hLe := hInf (hPrevSub hz)
    rcases hSide with ⟨hOn, -⟩ | ⟨hOn, hRight⟩
    · refine le_antisymm ?_ (hFoot ▸ hLe)
      rw [← hDist]
      exact neg_distToLine_le (ne_of_projects hPrev.1) hPrev.2 (cross_of_mem_segment hOn).ge
    · have hVertex := hOnNext hOn fun hProj => hNext ⟨hProj, hRight⟩
      linarith
  · have hLe : Metric.infDist pt.toComplex p.region ≤ (pt - p.pt m).norm := by
      have := hInf (pt_mem_region hm.lt)
      rwa [Vec.dist_toComplex, Vec.ofComplex_toComplex] at this
    refine le_antisymm ?_ hLe
    rw [← hDist]
    rcases hSide with ⟨hOn, hRight⟩ | ⟨hOn, hRight⟩
    · exact hOnPrev hOn fun hProj => hPrev ⟨hProj, hRight⟩
    · exact hOnNext hOn fun hProj => hNext ⟨hProj, hRight⟩

-- ---------------------------------------------------------------------------
-- Inside
-- ---------------------------------------------------------------------------

/-- The code finds a point inside where it is to the left of both edges that it looks at. -/
theorem neg_iff_left (hm : FirstNearest p pt m) :
    p.distToPoint pt < 0 ↔
      StrictlyLeft (p.before m) (p.pt m) pt ∧ StrictlyLeft (p.pt m) (p.behind m) pt := by
  rw [distToPoint_eq hm]
  split_ifs with hBoth hNext hPrev
  · refine ⟨fun _ => hBoth, fun _ => ?_⟩
    exact (min_le_left _ _).trans_lt (neg_lt_zero.mpr (distToLine_pos_iff.mpr hBoth.1))
  · refine ⟨fun hNeg => absurd hNeg ?_, fun hLeft => absurd hLeft hBoth⟩
    rw [neg_lt_zero, distToLine_pos_iff]
    exact hNext.2
  · refine ⟨fun hNeg => absurd hNeg ?_, fun hLeft => absurd hLeft hBoth⟩
    rw [neg_lt_zero, distToLine_pos_iff]
    exact hPrev.2
  · exact ⟨fun hNeg => absurd hNeg (not_lt.mpr (Vec.norm_nonneg _)),
      fun hLeft => absurd hLeft hBoth⟩

/-- A point inside is to the left of the edge behind the nearest vertex. -/
theorem ConvexCcw.left_behind (h : p.ConvexCcw) (hm : FirstNearest p pt m)
    (hpt : pt.toComplex ∈ interior p.region) : StrictlyLeft (p.pt m) (p.behind m) pt := by
  rw [behind, postIndex_eq hm.lt h.size]
  exact h.interior_left hm.lt hpt

/-- **The distance to a polygon.** What is returned is what the comment says, if and only if the
point is strictly inside and strictly to the left of the line from the vertex that is taken for
the one before the nearest vertex; or it is not strictly inside, and the nearest point of the
polygon is on one of the two edges that are looked at, with the point not to the left of it. -/
theorem distToPoint_contract_iff (h : p.ConvexCcw) (hm : FirstNearest p pt m) :
    p.Contract pt ↔
      pt.toComplex ∈ interior p.region ∧ StrictlyLeft (p.before m) (p.pt m) pt ∨
      pt.toComplex ∉ interior p.region ∧ NearestOnEdge p pt m := by
  by_cases hIn : pt.toComplex ∈ interior p.region
  · have hBehind := h.left_behind hm hIn
    constructor
    · intro hContract
      exact .inl ⟨hIn, ((neg_iff_left hm).mp (hContract.1 hIn)).1⟩
    · rintro (⟨-, hBefore⟩ | ⟨hOut, -⟩)
      · exact ⟨fun _ => (neg_iff_left hm).mpr ⟨hBefore, hBehind⟩, fun hOut => absurd hIn hOut⟩
      · exact absurd hIn hOut
  · constructor
    · intro hContract
      exact .inr ⟨hIn, nearestOnEdge_of_eq hm (hContract.2 hIn)⟩
    · rintro (⟨hNot, -⟩ | ⟨-, hEdge⟩)
      · exact absurd hNot hIn
      · exact ⟨fun hNot => absurd hNot hIn, fun _ => eq_of_nearestOnEdge h hm hEdge⟩

/-- The triangle with the corners `(0, 0)`, `(4, 0)` and `(0, 4)`. -/
def triangle : Polygon ℝ := ⟨[⟨0, 0⟩, ⟨4, 0⟩, ⟨0, 4⟩]⟩

/-- The triangle is convex, and its corners are in counter-clockwise order. -/
theorem triangle_convexCcw : triangle.ConvexCcw where
  two := by decide
  size := by decide
  distinct := by
    intro i hi
    have hi : i < 3 := hi
    interval_cases i <;> simp [triangle, pt]
  left := by
    intro i hi j hj
    have hi : i < 3 := hi
    have hj : j < 3 := hj
    interval_cases i <;> interval_cases j <;> simp [triangle, pt, Vec.cross]

/-- Below the edge from the first vertex to the second, what is returned is the distance. -/
theorem distToPoint_contract_iff_triangle : triangle.Contract ⟨1, -1⟩ := by
  have hm : FirstNearest triangle ⟨1, -1⟩ 0 := by
    refine ⟨by decide, ?_, nofun⟩
    intro j hj
    have hj : j < 3 := hj
    rw [Vec.norm_le_norm_iff]
    interval_cases j <;> norm_num [triangle, pt, Vec.squaredNorm_eq]
  have hRight : ¬ StrictlyLeft (triangle.pt 0) (triangle.behind 0) ⟨1, -1⟩ := by
    rw [show triangle.behind 0 = ⟨4, 0⟩ from rfl]
    norm_num [StrictlyLeft, triangle, pt, Vec.cross]
  have hProj : projectsToLine (triangle.pt 0) (triangle.behind 0) ⟨1, -1⟩ = true := by
    rw [projectsToLine_iff, show triangle.behind 0 = ⟨4, 0⟩ from rfl]
    norm_num [triangle, pt, Vec.dot_eq, Vec.squaredNorm_eq]
  obtain ⟨z, hz, hDist, -⟩ := exists_foot hProj hRight
  have hIn : z ∈ triangle.region :=
    segment_subset_region (p := triangle) (i := 0) (j := 1) (by decide) (by decide) hz
  -- Nothing to the left of the edge is nearer than its foot.
  have hNearest : dist (⟨1, -1⟩ : Vec ℝ).toComplex z =
      Metric.infDist (⟨1, -1⟩ : Vec ℝ).toComplex triangle.region := by
    refine le_antisymm ((Metric.le_infDist ⟨z, hIn⟩).mpr fun {w} hw => ?_)
      (Metric.infDist_le_dist_of_mem hIn)
    rw [hDist]
    exact neg_distToLine_le (ne_of_projects hProj) hRight
      (triangle_convexCcw.region_left (i := 0) (by decide) hw)
  refine (distToPoint_contract_iff triangle_convexCcw hm).mpr (.inr ⟨fun hInside => ?_, ?_⟩)
  · exact hRight (triangle_convexCcw.left_behind hm hInside)
  · exact ⟨z, hIn, hNearest, .inr ⟨hz, hRight⟩⟩

/-- A point on an edge of a triangle, for which the code takes the first vertex for the one
before it. -/
theorem triangle_edge_not_zero : triangle.ConvexCcw ∧ ¬ triangle.Contract ⟨0, 1⟩ := by
  refine ⟨triangle_convexCcw, ?_⟩
  intro hContract
  have hm : FirstNearest triangle ⟨0, 1⟩ 0 := by
    refine ⟨by decide, ?_, nofun⟩
    intro j hj
    have hj : j < 3 := hj
    rw [Vec.norm_le_norm_iff]
    interval_cases j <;> simp [triangle, pt, Vec.squaredNorm_eq]
    norm_num
  have hBefore : triangle.before 0 = ⟨0, 0⟩ := rfl
  by_cases hIn : (⟨0, 1⟩ : Vec ℝ).toComplex ∈ interior triangle.region
  · have hLeft := ((neg_iff_left hm).mp (hContract.1 hIn)).1
    rw [hBefore] at hLeft
    simp [StrictlyLeft, triangle, pt, Vec.cross] at hLeft
  · obtain ⟨z, -, hDist, hEdge⟩ := nearestOnEdge_of_eq hm (hContract.2 hIn)
    have hMem : (⟨0, 1⟩ : Vec ℝ).toComplex ∈ triangle.region := by
      refine segment_subset_region (p := triangle) (i := 2) (j := 0) (by decide) (by decide) ?_
      refine Vec.mem_segment_iff.mpr ⟨3 / 4, by norm_num, by norm_num, ?_⟩
      exact Vec.ext (by simp [triangle, pt]) (by simp [triangle, pt]; norm_num)
    rw [Metric.infDist_zero_of_mem hMem, dist_eq_zero] at hDist
    subst hDist
    have hBehind : triangle.behind 0 = ⟨4, 0⟩ := rfl
    have hFirst : triangle.pt 0 = ⟨0, 0⟩ := rfl
    rw [hBefore, hBehind, hFirst] at hEdge
    -- Both segments are on the axis of `x`.
    rcases hEdge with ⟨hOn, -⟩ | ⟨hOn, -⟩ <;>
    · obtain ⟨t, -, -, hEq⟩ := Vec.mem_segment_iff.mp hOn
      have hy := congrArg Vec.y hEq
      simp at hy

/-- Inside a polygon, only the vertex before the first one is missed: the code is right where
another vertex is nearest, and for polygons whose number of vertices is a power of two. -/
theorem contract_of_inside (h : p.ConvexCcw) (hm : FirstNearest p pt m)
    (hIndex : m ≠ 0 ∨ p.pts.length ∣ 2 ^ 64) (hIn : pt.toComplex ∈ interior p.region) :
    p.distToPoint pt < 0 := by
  refine (neg_iff_left hm).mpr ⟨?_, h.left_behind hm hIn⟩
  have hPos : 0 < p.pts.length := Nat.zero_lt_of_lt hm.lt
  have hNext := preIndex_succ (hIndex.imp_left Nat.pos_of_ne_zero) hm.lt h.size
  have hLeft := h.interior_left (preIndex_lt hPos m) hIn
  rwa [hNext] at hLeft

end Polygon

end Sailbot.Math

import Sailbot.Lib.Arith

/-!
# Lines and polygons

`math/polygon.h` and `math/polygon.cc`. A polygon is its list of vertices; the centroid is never
computed, because `ProcessPts` returns before it does anything. Vertices are accessed at
indices modulo their number, which are in range for every polygon that has a vertex.

* `distToLine`, `projectsToLine`, `projectsToRay` — a point and a line.
* `Polygon.validatePoints` — the check for a convex polygon in counter-clockwise order.
* `Polygon.distToPoint`    — the distance by the vertex that is nearest.
-/

namespace Sailbot.Math

open Lib
open Lib.Arith (lit)

variable {R : Type} [Arith R]

/-- `DistToLine`, positive to the left of the line from `l0` to `l1`. -/
def distToLine (l0 l1 pt : Vec R) : R :=
  let perp : Vec R := ⟨l0.y - l1.y, l1.x - l0.x⟩
  perp.normalized.dot (pt - l0)

def projectsToLine (l0 l1 pt : Vec R) : Bool :=
  let line := l1 - l0
  let dot := line.dot (pt - l0)
  Arith.lt (lit 0) dot && Arith.lt dot line.squaredNorm

def projectsToRay (l0 l1 pt : Vec R) : Bool :=
  let line := l1 - l0
  let dot := line.dot (pt - l0)
  Arith.lt (lit 0) dot

structure Polygon (R : Type) where
  pts : List (Vec R)
  deriving DecidableEq

namespace Polygon

def pt (p : Polygon R) (i : Nat) : Vec R := p.pts.getD i .zero

def validatePoints (pts : List (Vec R)) : Bool :=
  let n := pts.length
  if n < 2 then false
  else (List.range n).all fun i =>
    !Arith.lt (distToLine (pts.getD i .zero) (pts.getD ((i + 1) % n) .zero)
      (pts.getD ((i + 2) % n) .zero)) (lit 0)

/-- The vertex that is nearest and its distance; the distance is infinite where no vertex has
a distance less than that. -/
def nearest (p : Polygon R) (pt : Vec R) : Nat × Option R :=
  (List.range p.pts.length).foldl (fun (minvertex, mindist) i =>
    let dist := (pt - p.pt i).norm
    if Arith.ltMin dist mindist then (i, some dist) else (minvertex, mindist)) (0, none)

/-- The index before `i`, in the arithmetic of a 64-bit `size_t`. -/
def preIndex (i n : Nat) : Nat := (i + 2 ^ 64 - 1) % 2 ^ 64 % n

/-- The index behind `i`. -/
def postIndex (i n : Nat) : Nat := (i + 1) % 2 ^ 64 % n

def distToPoint (p : Polygon R) (pt : Vec R) : R :=
  let n := p.pts.length
  let (minvertex, mindist) := p.nearest pt
  let prept := p.pt (preIndex minvertex n)
  let postpt := p.pt (postIndex minvertex n)
  let minpt := p.pt minvertex
  let d0 := -distToLine prept minpt pt
  let d1 := -distToLine minpt postpt pt
  let d0proj := projectsToLine prept minpt pt
  let d1proj := projectsToLine minpt postpt pt
  if Arith.lt d0 (lit 0) && Arith.lt d1 (lit 0) then Arith.min d0 d1
  else if d1proj && Arith.le (lit 0) d1 then d1
  else if d0proj && Arith.le (lit 0) d0 then d0
  else mindist.getD Arith.inf

end Polygon

end Sailbot.Math

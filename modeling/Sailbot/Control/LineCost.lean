import Sailbot.Math.Polygon

/-!
# Angles, positions and the costs of a path

The functions of `control/util.cc` that the planner uses, and the costs of a path in
`control/line_plan.cc`: of a turn, of a straight line, of being near an obstacle, and of where
the finish line is crossed, each with its derivatives.

* `Util.normAngle`, `Util.gpsDistance`, `Util.gpsLatLonScale` — angles and positions.
* `turnCost`, `straightLineCost`, `crossFinishCost`, `obstacleCost` — the parts of a cost.
* `singleLineCost`, `linePairCost` — the last line of a path, and two lines with a turn
  between them.
-/

namespace Sailbot.Control

open Lib Math
open Lib.Arith (lit litf)

variable {R : Type} [Arith R]

-- ---------------------------------------------------------------------------
-- Angles and positions
-- ---------------------------------------------------------------------------

namespace Util

/-- `util::norm_angle`. -/
def normAngle (a : R) : R :=
  let tau := lit 2 * Arith.mPi
  if Arith.lt Arith.mPi a then a - Arith.trunc (a / tau + lit (1 / 2)) * tau
  else if Arith.lt a (-Arith.mPi) then a - Arith.trunc (a / tau - lit (1 / 2)) * tau
  else a

/-- `util::atan2`, the direction of a vector. -/
def atan2 (diff : Vec R) : R := Arith.atan2 diff.y diff.x

/-- `util::Clip`. -/
def clip (a lo hi : R) : R := Arith.max (Arith.min a hi) lo

/-- `util::Sign`. -/
def sign (a : R) : R :=
  lit ((if Arith.lt (lit 0) a then 1 else 0) - (if Arith.lt a (lit 0) then 1 else 0))

/-- `util::ToRad`. -/
def toRad (a : R) : R := a * Arith.mPi / lit 180

def gpsDistanceRad (lat1 lon1 lat2 lon2 : R) : R :=
  let a := Arith.pow (Arith.sin ((lat2 - lat1) / lit 2)) (lit 2) +
    Arith.cos lat1 * Arith.cos lat2 * Arith.pow (Arith.sin ((lon2 - lon1) / lit 2)) (lit 2)
  let c := lit 2 * Arith.atan2 (Arith.sqrt a) (Arith.sqrt (lit 1 - a))
  lit 6371000 * c

/-- `util::GPSDistance`, in meters by positions in degrees. -/
def gpsDistance (lat1 lon1 lat2 lon2 : R) : R :=
  gpsDistanceRad (toRad lat1) (toRad lon1) (toRad lat2) (toRad lon2)

/-- `util::GPSLatLonScale`: meters per degree of longitude (`x`) and latitude (`y`). -/
def gpsLatLonScale (lat : R) : Vec R :=
  let clat := Arith.cos (toRad lat)
  let clat2 := clat * clat
  let denom := Arith.sqrt (lit 1 + lit (67394967565868823004 / 10 ^ 22) * clat2)
  { x := lit (11169397955992134774 / 10 ^ 14) * clat / denom
    y := lit (11169397955992134774 / 10 ^ 14) / (denom * denom * denom) }

end Util

-- ---------------------------------------------------------------------------
-- Parts of a cost
-- ---------------------------------------------------------------------------

namespace LineCost

def kTackCost : R := litf 5
def kTurnCost : R := litf (3 / 10)
def kUpwindCost : R := litf 300
def kUpwindApproxCost : R := litf 0
def kObstacleCost : R := litf 100
def kLengthCost : R := litf 1
def kAlphaCrossCost : R := litf 5

/-- `kSailableReach`, the angle `M_PI / 6` as a `float`. -/
def kSailableReach : R := litf (884279719003555 / 281474976710656 / 6)

/-- A cost with its derivatives by two angles or by a length and an angle. -/
structure Cost2 (R : Type) where
  cost : R
  d1   : R
  d2   : R

/-- `TurnCost`, with the derivatives by the first and the last heading. -/
def turnCost (startheading endheading winddir : R) : Cost2 R :=
  let nogosize := Arith.mPi / lit 4
  let plusnogoabs := Util.normAngle (Arith.mPi + winddir + nogosize)
  let negnogoabs := Util.normAngle (Arith.mPi + winddir - nogosize)
  let endnorm := Util.normAngle (endheading - startheading)
  let plusnogonorm := Util.normAngle (plusnogoabs - startheading)
  let negnogonorm := Util.normAngle (negnogoabs - startheading)
  -- a turn to the other side is mirrored
  let (sign, endnorm, plusnogonorm, negnogonorm) : R × R × R × R :=
    if Arith.lt endnorm (lit 0) then
      (lit (-1), endnorm * lit (-1), negnogonorm * lit (-1), plusnogonorm * lit (-1))
    else (lit 1, endnorm, plusnogonorm, negnogonorm)
  if (Arith.lt plusnogonorm (lit 0) && Arith.lt negnogonorm (lit 0)) ||
      Arith.lt endnorm negnogonorm then
    { cost := kTurnCost * endnorm * endnorm
      d1 := lit (-2) * kTurnCost * sign * endnorm
      d2 := lit 2 * kTurnCost * sign * endnorm }
  else
    let clipstart := Arith.lt negnogonorm (lit 0)
    let startnogo := if clipstart then lit 0 else negnogonorm
    let clipend := Arith.lt endnorm plusnogonorm || Arith.lt plusnogonorm (lit 0)
    let endnogo := if clipend then endnorm else plusnogonorm
    let nogodist := endnogo - startnogo
    let costbase := endnorm + (kTackCost - litf 1) * nogodist
    { cost := kTurnCost * costbase * costbase
      d1 := lit (-2) * kTurnCost * sign * (if clipstart then kTackCost else lit 1) * costbase
      d2 := lit 2 * kTurnCost * sign * (if clipend then kTackCost else lit 1) * costbase }

/-- `StraightLineCost`, with the derivatives by the length and the heading, and whether the
heading can be sailed. -/
def straightLineCost (len heading winddir : R) (isReal : Bool) : Cost2 R × Bool :=
  let headingnorm := Util.normAngle (winddir + Arith.mPi - heading)
  let upwindness := Arith.abs headingnorm
  let kUp : R := if isReal then kUpwindCost else kUpwindApproxCost
  let viable := Arith.lt kSailableReach upwindness
  let kMaxUpwindness : R := lit (9 / 10)
  let upwindness := Util.clip upwindness (lit 0) kMaxUpwindness
  let upwindexp := Arith.exp (lit 10 * (upwindness - Arith.mPi / lit 6))
  let dupwindexpdheading := lit (-10) * upwindexp * Util.sign headingnorm
  let upwindscalar := kUp / (lit 1 + upwindexp)
  let dupwindscalardheading := -upwindscalar / (lit 1 + upwindexp) * dupwindexpdheading
  ({ cost := upwindscalar * kLengthCost * len
     d1 := upwindscalar * kLengthCost
     d2 := if Arith.eq upwindness kMaxUpwindness || Arith.eq upwindness (lit 0) then lit 0
       else kLengthCost * len * dupwindscalardheading },
    viable)

/-- `CrossFinishCost`, with its derivative. -/
def crossFinishCost (alpha : R) : R × R :=
  let alpha := Arith.max (lit (1 / 10)) alpha
  let baseCost := kAlphaCrossCost * Arith.exp alpha / Arith.sqrt alpha
  (baseCost, baseCost * (lit 1 - lit (1 / 2) / alpha))

/-- The cost of `ObstacleCost`: ten points of the line, at the middle of ten parts of it. -/
def obstacleCostAt (start stop : Vec R) (obstacles : List (Math.Polygon R)) : R :=
  let dx := (start - stop).norm / lit 10
  (List.range 10).foldl (fun cost (i : Nat) =>
    let alpha : R := (lit i + lit (1 / 2)) / lit 10
    let evalpt := start + alpha * (stop - start)
    obstacles.foldl (fun cost obstacle =>
      let diff := Arith.max (lit 0) (lit 10 - obstacle.distToPoint evalpt) / lit 10
      cost + kObstacleCost * diff * diff * dx) cost) (lit 0)

/-- `ObstacleCost`, with the derivatives by the first point as difference quotients. -/
def obstacleCost (start stop : Vec R) (obstacles : List (Math.Polygon R)) : R × Vec R :=
  let cost := obstacleCostAt start stop obstacles
  let eps : R := lit (1 / 100000)
  (cost,
    { x := (obstacleCostAt { start with x := start.x + eps } stop obstacles - cost) / eps
      y := (obstacleCostAt { start with y := start.y + eps } stop obstacles - cost) / eps })

-- ---------------------------------------------------------------------------
-- Costs of lines
-- ---------------------------------------------------------------------------

/-- The derivative of the direction of `x`. -/
def datan (x dxda : Vec R) : R :=
  let d : Vec R := ⟨-x.y, x.x⟩
  (d / x.squaredNorm).dot dxda

/-- The derivative of the length of `x`. -/
def dnorm (x dxda : Vec R) : R := x.normalized.dot dxda

/-- `SingleLineCost` without obstacles: the cost, its derivative by `alpha`, and whether the
line can be sailed. -/
def singleLineCostFree (startline endline startpt : Vec R) (alpha preheading : R) (nextpt : Vec R)
    (winddir : R) : R × R × Bool :=
  let endpt := startline + alpha * (endline - startline)
  let dendda := endline - startline
  let firstleg := endpt - startpt
  let nextleg := nextpt - endpt
  let startheading := Arith.atan2 firstleg.y firstleg.x
  let dstarthda := datan firstleg dendda
  let (nextheading, dnexthda) :=
    if Arith.lt nextleg.squaredNorm (lit (1 / 10 ^ 8)) then (startheading, dstarthda)
    else (Arith.atan2 nextleg.y nextleg.x, datan nextleg (-dendda))
  let dfirstlenda := dnorm firstleg dendda
  let dnextlenda := dnorm nextleg (-dendda)
  let (first, viable) := straightLineCost firstleg.norm startheading winddir true
  let (next, _) := straightLineCost nextleg.norm nextheading winddir false
  let lencost := first.cost + next.cost
  let dlencostda := first.d1 * dfirstlenda + first.d2 * dstarthda + next.d1 * dnextlenda +
    next.d2 * dnexthda
  let preturn := turnCost preheading startheading winddir
  let dpreturncostda := preturn.d2 * dstarthda
  let turn := turnCost startheading nextheading winddir
  let dturncostda := turn.d1 * dstarthda + turn.d2 * dnexthda
  let turncost := turn.cost + preturn.cost
  let dturncostda := dturncostda + dpreturncostda
  let (crosscost, dcrossda) := crossFinishCost alpha
  let dcostdalpha := dlencostda + dturncostda + dcrossda
  (lencost + turncost + crosscost,
    if Arith.isNaN dcostdalpha then lit 0 else dcostdalpha, viable)

def singleLineCost (startline endline startpt : Vec R) (alpha preheading : R) (nextpt : Vec R)
    (winddir : R) (obstacles : List (Math.Polygon R)) : R × R × Bool :=
  let (basecost, basedalpha, viable) :=
    singleLineCostFree startline endline startpt alpha preheading nextpt winddir
  let crosspt := startline + alpha * (endline - startline)
  let dcrossptdalpha := endline - startline
  let (obstaclecost, obstacledend) := obstacleCost crosspt startpt obstacles
  (basecost + obstaclecost, basedalpha + obstacledend.dot dcrossptdalpha, viable)

/-- `LinePairCost` without obstacles: the cost, its derivatives by the turning point, and
whether both lines can be sailed. -/
def linePairCostFree (startpt endpt turnpt : Vec R) (preheading postheading winddir scalePre : R) :
    R × Vec R × Bool :=
  let sega := turnpt - startpt
  let segb := endpt - turnpt
  let lena := sega.norm
  let dlena := sega / sega.norm
  let lenb := segb.norm
  let dlenb := -segb / segb.norm
  let headinga := Arith.atan2 sega.y sega.x
  let dha := (⟨-sega.y, sega.x⟩ : Vec R) / sega.squaredNorm
  let headingb := Arith.atan2 segb.y segb.x
  let dhb := -(⟨-segb.y, segb.x⟩ : Vec R) / segb.squaredNorm
  let pre := turnCost preheading headinga winddir
  let cost := lit 0 + pre.cost * scalePre
  let dcost := Vec.zero + pre.d2 * dha * scalePre
  let middle := turnCost headinga headingb winddir
  let cost := cost + middle.cost
  let dcost := dcost + middle.d1 * dha
  let dcost := dcost + middle.d2 * dhb
  let post := turnCost headingb postheading winddir
  let cost := cost + post.cost
  let dcost := dcost + post.d1 * dhb
  let (linea, viablea) := straightLineCost lena headinga winddir true
  let cost := cost + linea.cost
  let dcost := dcost + (linea.d1 * dlena + linea.d2 * dha)
  let (lineb, viableb) := straightLineCost lenb headingb winddir true
  let cost := cost + lineb.cost
  let dcost := dcost + (lineb.d1 * dlenb + lineb.d2 * dhb)
  (cost, dcost, viableb && viablea)

def linePairCost (startpt endpt turnpt : Vec R) (preheading postheading winddir scalePre : R)
    (obstacles : List (Math.Polygon R)) : R × Vec R × Bool :=
  let (basecost, basedturnpt, viable) :=
    linePairCostFree startpt endpt turnpt preheading postheading winddir scalePre
  let (startcost, startdturnpt) := obstacleCost turnpt startpt obstacles
  let (endcost, enddturnpt) := obstacleCost turnpt endpt obstacles
  (lit 0 + basecost + startcost + endcost,
    Vec.zero + basedturnpt + startdturnpt + enddturnpt, viable)

end LineCost

end Sailbot.Control

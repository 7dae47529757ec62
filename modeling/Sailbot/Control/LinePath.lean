import Sailbot.Lib.Loop
import Sailbot.Control.LineCost

/-!
# The search for a path

`GenerateHypotheses`, `BackPass`, `OptimizeMultipleTacks` and `FindMultiplePath` of
`control/line_plan.cc`: candidates for the points of every leg are put together to hypotheses,
each hypothesis is improved by gradient descent, and the cheapest one is taken.

An access out of range and a failed `CHECK` are the absence of a result; the check for an empty
path in `BackPass` is the access to its last point. The gradients and the
costs may be any numbers.

* `backPass`              — one pass over the points of a leg, from the last to the second.
* `optimizeMultipleTacks` — the passes over all legs of a hypothesis.
* `findMultiplePath`      — the search over all combinations of candidates.
-/

namespace Sailbot.Control.LinePath

open Lib Math LineCost
open Lib.Arith (lit litf)

variable {R : Type} [Arith R]

/-- `kMaxTotalpts`. -/
def kMaxTotalpts : Int := 6

def kPreTurnScale : R := litf 200

abbrev Gate (R : Type) := Vec R × Vec R

/-- The point in the middle of a gate. -/
def Gate.middle (gate : Gate R) : Vec R := (lit (1 / 2) : R) * (gate.1 + gate.2)

/-- The point that is the part `alpha` along a gate. -/
def Gate.along (gate : Gate R) (alpha : R) : Vec R := gate.1 + alpha * (gate.2 - gate.1)

-- ---------------------------------------------------------------------------
-- Candidates
-- ---------------------------------------------------------------------------

/-- The paths that `GenerateHypotheses` adds: the straight line and, close to the wind, two
ways to tack. -/
def generateHypotheses (startpt endpt : Vec R) (winddir : R) (npts : Nat) : List (List (Vec R)) :=
  if npts = 0 then [[startpt]]
  else
    let kMinWind : R := lit 1
    let diff := endpt - startpt
    let relwind := Util.normAngle (Arith.mPi - winddir + Util.atan2 diff)
    let straight := startpt :: (List.range npts).map fun (i : Nat) =>
      let alpha : R := (lit i + lit (1 / 2)) / lit npts
      startpt + alpha * diff
    if Arith.lt (Arith.abs relwind) (lit 1) then
      let alpha := kMinWind * lit 2
      let theta := kMinWind - relwind
      let l : R := lit 2 / lit npts
      let legdist := l * Arith.sin (alpha - theta) / Arith.sin alpha
      let latdist := legdist * Arith.sin theta
      let londist1 := legdist * Arith.cos theta
      let londist2 := l - londist1
      let perp : Vec R := ⟨-diff.y, diff.x⟩
      let dominantmult (i : Nat) : R := lit (1 / 2) + Arith.floor (lit i / lit 2)
      let recessivemult (i : Nat) : R := Arith.floor ((lit i + lit 1) / lit 2)
      let latoffset1 (i : Nat) : R := latdist * lit (if i % 2 = 0 then 1 else -1) / lit 2
      let tack1 := startpt :: (List.range npts).map fun i =>
        let lon1 := londist1 * dominantmult i + londist2 * recessivemult i
        startpt + diff * lon1 + perp * latoffset1 i
      let tack2 := startpt :: (List.range npts).map fun i =>
        let lon2 := londist2 * dominantmult i + londist1 * recessivemult i
        startpt + diff * lon2 + perp * (-latoffset1 i)
      [straight, tack1, tack2]
    else [straight]

-- ---------------------------------------------------------------------------
-- Gradient descent
-- ---------------------------------------------------------------------------

/-- What `BackPass` changes and computes. -/
structure Leg (R : Type) where
  tackpts   : List (Vec R)
  alpha     : R
  finalcost : R
  viable    : Bool

section BackPass

variable (gate : Gate R) (nextpt : Vec R) (winddir : R) (obstacles : List (Math.Polygon R))
  (curYaw step : R) (prescale : Bool)

/-- The heading with which the boat comes to the point `i`: for the first point, the heading
that it has. -/
def headingInto (tackpts : List (Vec R)) (i : Nat) : Option R :=
  if i = 0 then some curYaw
  else do
    let pt ← tackpts[i]?
    let pre ← tackpts[i - 1]?
    some (Util.atan2 (pt - pre))

/-- The points of a leg from the last to the second, and the point and the heading behind
the one that is improved. -/
structure BackState (R : Type) where
  leg         : Leg R
  postpt      : Vec R
  postheading : R

/-- The improvement of the point `i`. The next point sees the improved one. -/
def backPassPoint (s : BackState R) (i : Nat) : Option (BackState R) := do
  let prept ← s.leg.tackpts[i - 1]?
  let curpt ← s.leg.tackpts[i]?
  let preheading ← headingInto curYaw s.leg.tackpts (i - 1)
  let scalePre : R := if i = 1 && prescale then kPreTurnScale else lit 1
  let (cost, dcostdpt, lineviable) :=
    linePairCost prept s.postpt curpt preheading s.postheading winddir scalePre obstacles
  let curpt := curpt - step * dcostdpt
  let tackpts ← setAt s.leg.tackpts i curpt
  some {
    leg := { s.leg with
      tackpts := tackpts
      finalcost := s.leg.finalcost + cost
      viable := s.leg.viable && lineviable }
    postpt := curpt
    postheading := Util.atan2 (s.postpt - curpt) }

/-- The improvement of `alpha`, which comes first. -/
def backPassAlpha (tackpts : List (Vec R)) (alpha : R) : Option (BackState R) := do
  let last ← tackpts[tackpts.length - 1]?
  let penultimateHeading ← headingInto curYaw tackpts (tackpts.length - 1)
  let (cost, dcostdalpha, lineviable) :=
    singleLineCost gate.1 gate.2 last alpha penultimateHeading nextpt winddir obstacles
  let alpha := Util.clip (alpha - step * dcostdalpha) (lit (1 / 10)) (lit 1)
  let postpt := Gate.along gate alpha
  some {
    leg := { tackpts := tackpts, alpha := alpha, finalcost := lit 0 + cost, viable := lineviable }
    postpt := postpt
    postheading := Util.atan2 (postpt - last) }

/-- `BackPass`. -/
def backPass (tackpts : List (Vec R)) (alpha : R) : Option (Leg R) := do
  let s ← backPassAlpha gate nextpt winddir obstacles curYaw step tackpts alpha
  let s ← (List.range' 1 (tackpts.length - 1)).reverse.foldlM
    (backPassPoint winddir obstacles curYaw step prescale) s
  some s.leg

end BackPass

section Optimize

variable (gates : List (Gate R)) (nextpt : Vec R) (winddir : R) (obstacles : List (Math.Polygon R))
  (curYaw : R)

/-- What `OptimizeMultipleTacks` changes and computes. -/
structure Plan (R : Type) where
  tacks     : List (List (Vec R))
  alphas    : List R
  finalcost : R

/-- The point that the boat goes to behind the leg `j`. -/
def pointAfter (tacks : List (List (Vec R))) (j : Nat) : Option (Vec R) :=
  if j = tacks.length - 1 then some nextpt else tacks[j + 1]?.bind (·[0]?)

/-- The leg `j` with its first point moved, and the heading into it. Only the first leg starts
where it started before. -/
def startLeg (gate : Gate R) (plan : Plan R) (j : Nat) (leg : List (Vec R)) :
    Option (List (Vec R) × R) :=
  if j = 0 then some (leg, curYaw)
  else do
    let alpha ← plan.alphas[j - 1]?
    let startpt := Gate.along gate alpha
    let leg ← setAt leg 0 startpt
    let prev ← plan.tacks[j - 1]?
    let back ← prev[prev.length - 1]?
    some (leg, Util.atan2 (startpt - back))

/-- One leg of one iteration. -/
def optimizeLeg (step : R) (plan : Plan R) (j : Nat) : Option (Plan R) := do
  let gate ← gates[j]?
  let npt ← pointAfter nextpt plan.tacks j
  let leg ← plan.tacks[j]?
  let (leg, cyaw) ← startLeg curYaw gate plan j leg
  let alpha ← plan.alphas[j]?
  let leg ← backPass gate npt winddir obstacles cyaw step (j = 0) leg alpha
  let tacks ← setAt plan.tacks j leg.tackpts
  let alphas ← setAt plan.alphas j leg.alpha
  some { tacks := tacks, alphas := alphas, finalcost := plan.finalcost + leg.finalcost }

/-- One iteration over all legs. The costs of the earlier iterations are dropped. -/
def optimizeRound (plan : Plan R) (i : Nat) : Option (Plan R) :=
  let step : R := if i > 20 then lit (3 / 1000) else lit (1 / 100)
  (List.range plan.tacks.length).foldlM (optimizeLeg gates nextpt winddir obstacles curYaw step)
    { plan with finalcost := lit 0 }

/-- `OptimizeMultipleTacks`. Every path counts as viable. -/
def optimizeMultipleTacks (tacks : List (List (Vec R))) (alphas : List R) : Option (Plan R) :=
  if tacks.length = alphas.length ∧ tacks.length = gates.length ∧ ∀ leg ∈ tacks, leg ≠ [] then
    (List.range 50).foldlM (optimizeRound gates nextpt winddir obstacles curYaw)
      { tacks := tacks, alphas := alphas, finalcost := lit 0 }
  else none

end Optimize

-- ---------------------------------------------------------------------------
-- Hypotheses
-- ---------------------------------------------------------------------------

/-- The hypotheses, with one path for every leg so far, and their numbers of points. -/
structure Hypotheses (R : Type) where
  paths   : List (List (List (Vec R))) := []
  lengths : List Int := []

section Search

variable (maxPts : Int)

/-- The index of the hypothesis that a candidate is put behind. Behind the first candidate, it is
a copy of the hypothesis without its last leg. -/
def copyHypothesis (oldLength : Int) (newhyp : Nat) (h : Hypotheses R) (prevhyp : Nat) :
    Option (Hypotheses R × Nat) :=
  if newhyp > 0 then do
    let prev ← h.paths[prevhyp]?
    if prev.isEmpty then none
    else some ({ paths := h.paths ++ [prev.dropLast], lengths := h.lengths ++ [oldLength] },
      h.paths.length)
  else some (h, prevhyp)

/-- The candidate `path` for the leg `leg` behind the hypothesis `prevhyp`, if there are not
too many points then. -/
def extendHypothesis (leg : Nat) (old : List Int) (newhyp : Nat) (path : List (Vec R))
    (h : Hypotheses R) (prevhyp : Nat) : Option (Hypotheses R) := do
  let oldLength ← old[prevhyp]?
  if oldLength + path.length > maxPts + leg then some h
  else
    let (h, idx) ← copyHypothesis oldLength newhyp h prevhyp
    let hyp ← h.paths[idx]?
    let len ← h.lengths[idx]?
    let paths ← setAt h.paths idx (hyp ++ [path])
    let lengths ← setAt h.lengths idx (len + path.length)
    some { paths := paths, lengths := lengths }

/-- One candidate for a leg, behind each of the first `nprev` hypotheses. -/
def addCandidate (leg : Nat) (old : List Int) (nprev : Nat) (hypos : List (List (Vec R)))
    (h : Hypotheses R) (newhyp : Nat) : Option (Hypotheses R) := do
  let path ← hypos[newhyp]?
  let h ← (List.range nprev).foldlM (extendHypothesis maxPts leg old newhyp path) h
  if nprev = 0 then
    some { paths := h.paths ++ [[path]], lengths := h.lengths ++ [(path.length : Int)] }
  else some h

/-- All candidates for a leg. -/
def addLeg (startpt : Vec R) (endpts : List (Vec R)) (winddir : R) (h : Hypotheses R) (leg : Nat) :
    Option (Hypotheses R) := do
  let legstart ← if leg = 0 then some startpt else endpts[leg - 1]?
  let legend ← endpts[leg]?
  let hypos := (List.range maxPts.toNat).flatMap (generateHypotheses legstart legend winddir)
  (List.range hypos.length).foldlM (addCandidate maxPts leg h.lengths h.paths.length hypos) h

/-- The best plan so far, with its cost; infinite before the first. -/
structure Best (R : Type) where
  tacks  : List (List (Vec R))
  alphas : List R
  lowest : Option R := none

/-- The hypothesis is improved, and taken if it is cheaper than the best one. -/
def takeCheaper (gates : List (Gate R)) (nextpt : Vec R) (winddir : R)
    (obstacles : List (Math.Polygon R)) (curYaw : R) (best : Best R)
    (hypothesis : List (List (Vec R))) : Option (Best R) := do
  let plan ← optimizeMultipleTacks gates nextpt winddir obstacles curYaw hypothesis
    (List.replicate gates.length (lit (1 / 2)))
  if Arith.ltMin plan.finalcost best.lowest then
    some { tacks := plan.tacks, alphas := plan.alphas, lowest := some plan.finalcost }
  else some best

/-- `FindMultiplePath`. -/
def findMultiplePath (startpt : Vec R) (gates : List (Gate R)) (nextpt : Vec R) (winddir : R)
    (obstacles : List (Math.Polygon R)) (curYaw : R) :
    Option (List (List (Vec R)) × List R) := do
  let nlegs := gates.length
  let maxPts := max 1 (kMaxTotalpts + 1 - nlegs)
  let endpts := gates.map Gate.middle
  let h ← (List.range nlegs).foldlM (addLeg maxPts startpt endpts winddir) {}
  let first ← h.paths[0]?
  let best ← h.paths.foldlM (takeCheaper gates nextpt winddir obstacles curYaw)
    { tacks := first, alphas := List.replicate nlegs (lit (1 / 2)) }
  some (best.tacks, best.alphas)

end Search

end Sailbot.Control.LinePath

import Sailbot.Control.LinePathSearch

/-!
# The search with any costs

The search for a path (`control/line_plan.cc`) once more, with the costs and gradients of its
lines as parameters: they may be any numbers, different ones for every hypothesis, iteration, leg
and point. What the search does to the points of a path and to the places at which it crosses the
gates, whatever the gradients are, is said about this search. The one of the code has the costs of
`SingleLineCost` and `LinePairCost`.

* `AnyCost.Swept`              — the shape of a hypothesis while its legs are improved.
* `AnyCost.findMultiplePath_result` — the result is a hypothesis, improved or as it was.
* `search_enumerates`          — the hypotheses of the code, and the cheapest of them.
-/

namespace Sailbot.Control.LinePath

open Lib Math LineCost
open Lib.Arith (lit litf)

variable {R : Type} [Arith R]

/-- What is computed for the last line of a leg, from the arguments of `SingleLineCost`. -/
abbrev SingleCost (R : Type) [Arith R] :=
  Vec R → Vec R → Vec R → R → R → Vec R → R → List (Math.Polygon R) → R × R × Bool

/-- What is computed for two lines, from the arguments of `LinePairCost`. -/
abbrev PairCost (R : Type) [Arith R] :=
  Vec R → Vec R → Vec R → R → R → R → R → List (Math.Polygon R) → R × Vec R × Bool

/-- The costs for one leg in one iteration; those of two lines by the point between them. -/
structure LegCosts (R : Type) [Arith R] where
  single : SingleCost R
  pair   : Nat → PairCost R

/-- The costs of the code. -/
def lineCosts : LegCosts R where
  single := singleLineCost
  pair _ := linePairCost

namespace AnyCost

section BackPass

variable (costs : LegCosts R) (gate : Gate R) (nextpt : Vec R) (winddir : R)
  (obstacles : List (Math.Polygon R)) (curYaw step : R) (prescale : Bool)

def backPassPoint (s : BackState R) (i : Nat) : Option (BackState R) := do
  let prept ← s.leg.tackpts[i - 1]?
  let curpt ← s.leg.tackpts[i]?
  let preheading ← headingInto curYaw s.leg.tackpts (i - 1)
  let scalePre : R := if i = 1 && prescale then kPreTurnScale else lit 1
  let (cost, dcostdpt, lineviable) :=
    costs.pair i prept s.postpt curpt preheading s.postheading winddir scalePre obstacles
  let curpt := curpt - step * dcostdpt
  let tackpts ← setAt s.leg.tackpts i curpt
  some {
    leg := { s.leg with
      tackpts := tackpts
      finalcost := s.leg.finalcost + cost
      viable := s.leg.viable && lineviable }
    postpt := curpt
    postheading := Util.atan2 (s.postpt - curpt) }

def backPassAlpha (tackpts : List (Vec R)) (alpha : R) : Option (BackState R) := do
  let last ← tackpts[tackpts.length - 1]?
  let penultimateHeading ← headingInto curYaw tackpts (tackpts.length - 1)
  let (cost, dcostdalpha, lineviable) :=
    costs.single gate.1 gate.2 last alpha penultimateHeading nextpt winddir obstacles
  let alpha := Util.clip (alpha - step * dcostdalpha) (lit (1 / 10)) (lit 1)
  let postpt := Gate.along gate alpha
  some {
    leg := { tackpts := tackpts, alpha := alpha, finalcost := lit 0 + cost, viable := lineviable }
    postpt := postpt
    postheading := Util.atan2 (postpt - last) }

def backPass (tackpts : List (Vec R)) (alpha : R) : Option (Leg R) := do
  let s ← backPassAlpha costs gate nextpt winddir obstacles curYaw step tackpts alpha
  let s ← (List.range' 1 (tackpts.length - 1)).reverse.foldlM
    (backPassPoint costs winddir obstacles curYaw step prescale) s
  some s.leg

end BackPass

section Optimize

variable (gates : List (Gate R)) (nextpt : Vec R) (winddir : R) (obstacles : List (Math.Polygon R))
  (curYaw : R)

def optimizeLeg (costs : Nat → LegCosts R) (step : R) (plan : Plan R) (j : Nat) :
    Option (Plan R) := do
  let gate ← gates[j]?
  let npt ← pointAfter nextpt plan.tacks j
  let leg ← plan.tacks[j]?
  let (leg, cyaw) ← startLeg curYaw gate plan j leg
  let alpha ← plan.alphas[j]?
  let leg ← backPass (costs j) gate npt winddir obstacles cyaw step (j = 0) leg alpha
  let tacks ← setAt plan.tacks j leg.tackpts
  let alphas ← setAt plan.alphas j leg.alpha
  some { tacks := tacks, alphas := alphas, finalcost := plan.finalcost + leg.finalcost }

def optimizeRound (costs : Nat → Nat → LegCosts R) (plan : Plan R) (i : Nat) : Option (Plan R) :=
  let step : R := if i > 20 then lit (3 / 1000) else lit (1 / 100)
  (List.range plan.tacks.length).foldlM
    (optimizeLeg gates nextpt winddir obstacles curYaw (costs i) step)
    { plan with finalcost := lit 0 }

def optimizeMultipleTacks (costs : Nat → Nat → LegCosts R) (tacks : List (List (Vec R)))
    (alphas : List R) : Option (Plan R) :=
  if tacks.length = alphas.length ∧ tacks.length = gates.length ∧ ∀ leg ∈ tacks, leg ≠ [] then
    (List.range 50).foldlM (optimizeRound gates nextpt winddir obstacles curYaw costs)
      { tacks := tacks, alphas := alphas, finalcost := lit 0 }
  else none

/-- The hypotheses come with their numbers. -/
def takeCheaper (costs : Nat → Nat → Nat → LegCosts R) (best : Best R)
    (hypothesis : List (List (Vec R)) × Nat) : Option (Best R) := do
  let plan ← optimizeMultipleTacks gates nextpt winddir obstacles curYaw (costs hypothesis.2)
    hypothesis.1 (List.replicate gates.length (lit (1 / 2)))
  if Arith.ltMin plan.finalcost best.lowest then
    some { tacks := plan.tacks, alphas := plan.alphas, lowest := some plan.finalcost }
  else some best

def findMultiplePath (costs : Nat → Nat → Nat → LegCosts R) (startpt : Vec R) :
    Option (List (List (Vec R)) × List R) := do
  let h ← searchHypotheses startpt gates winddir
  let first ← h.paths[0]?
  let best ← h.paths.zipIdx.foldlM (takeCheaper gates nextpt winddir obstacles curYaw costs)
    { tacks := first, alphas := List.replicate gates.length (lit (1 / 2)) }
  some (best.tacks, best.alphas)

end Optimize

end AnyCost

-- ---------------------------------------------------------------------------
-- The search of the code
-- ---------------------------------------------------------------------------

section Code

variable (gates : List (Gate R)) (nextpt : Vec R) (winddir : R) (obstacles : List (Math.Polygon R))
  (curYaw : R)

/-- The code's own costs are a case of arbitrary ones. -/
theorem optimizeMultipleTacks_eq (tacks : List (List (Vec R))) (alphas : List R) :
    optimizeMultipleTacks gates nextpt winddir obstacles curYaw tacks alphas =
      AnyCost.optimizeMultipleTacks gates nextpt winddir obstacles curYaw (fun _ _ => lineCosts)
        tacks alphas := rfl

/-- The search of the code does not know the numbers of the hypotheses. -/
theorem findMultiplePath_eq (startpt : Vec R) :
    findMultiplePath startpt gates nextpt winddir obstacles curYaw =
      AnyCost.findMultiplePath gates nextpt winddir obstacles curYaw (fun _ _ _ => lineCosts)
        startpt := by
  have hLoop (paths : List (List (List (Vec R)))) (best : Best R) :
      paths.foldlM (takeCheaper gates nextpt winddir obstacles curYaw) best =
        paths.zipIdx.foldlM (AnyCost.takeCheaper gates nextpt winddir obstacles curYaw
          fun _ _ _ => lineCosts) best := by
    conv_lhs => rw [← List.zipIdx_map_fst 0 paths, List.foldlM_map]
    rfl
  rw [findMultiplePath, AnyCost.findMultiplePath]
  simp only [← hLoop]
  rfl

end Code

-- ---------------------------------------------------------------------------
-- One leg
-- ---------------------------------------------------------------------------

/-- There is a heading at every point of a leg. -/
theorem headingInto_total (curYaw : R) {tackpts : List (Vec R)} {i : Nat}
    (h : i < tackpts.length) : ∃ heading, headingInto curYaw tackpts i = some heading := by
  unfold headingInto
  split
  · exact ⟨_, rfl⟩
  · obtain ⟨pt, -, hPt⟩ := getElem?_total h
    obtain ⟨pre, -, hPre⟩ := getElem?_total (show i - 1 < tackpts.length by omega)
    exact ⟨_, by rw [hPt, hPre]; rfl⟩

/-- A part of a gate that `BackPass` may choose. -/
def Clipped (alpha : R) : Prop := ∃ a, alpha = Util.clip a (lit (1 / 10)) (lit 1)

/-- As many points, and the same first one. -/
def SameStart (tackpts tackpts' : List (Vec R)) : Prop :=
  tackpts'.length = tackpts.length ∧ tackpts'[0]? = tackpts[0]?

namespace AnyCost

section Leg

variable (costs : LegCosts R) (gate : Gate R) (nextpt : Vec R) (winddir : R)
  (obstacles : List (Math.Polygon R)) (curYaw step : R) (prescale : Bool)

/-- The first point is not improved. -/
theorem backPassPoint_total {s : BackState R} {i : Nat} (hPos : 1 ≤ i)
    (hLt : i < s.leg.tackpts.length) :
    ∃ t, backPassPoint costs winddir obstacles curYaw step prescale s i = some t ∧
      SameStart s.leg.tackpts t.leg.tackpts ∧ t.leg.alpha = s.leg.alpha := by
  have hPreLt : i - 1 < s.leg.tackpts.length := by omega
  obtain ⟨prept, -, hPre⟩ := getElem?_total hPreLt
  obtain ⟨curpt, -, hCur⟩ := getElem?_total hLt
  obtain ⟨preheading, hHeading⟩ := headingInto_total curYaw hPreLt
  simp only [backPassPoint, hPre, hCur, hHeading, setAt_eq hLt, Option.bind_eq_bind,
    Option.bind_some]
  exact ⟨_, rfl, ⟨List.length_set, List.getElem?_set_ne (by omega)⟩, rfl⟩

/-- `BackPass` has a result for a leg with a point, which keeps the points, and a place on the gate.
-/
theorem backPassAlpha_total {tackpts : List (Vec R)} (h : tackpts ≠ []) (alpha : R) :
    ∃ s, backPassAlpha costs gate nextpt winddir obstacles curYaw step tackpts alpha = some s ∧
      s.leg.tackpts = tackpts ∧ Clipped s.leg.alpha := by
  have hLt : tackpts.length - 1 < tackpts.length := by
    have := List.length_pos_iff.mpr h
    omega
  obtain ⟨last, -, hLast⟩ := getElem?_total hLt
  obtain ⟨heading, hHeading⟩ := headingInto_total curYaw hLt
  simp only [backPassAlpha, hLast, hHeading, Option.bind_eq_bind, Option.bind_some]
  exact ⟨_, rfl, rfl, _, rfl⟩

/-- **One leg.** `BackPass` has a result, which starts at the same point and has as many points,
and a part of the gate that is clipped. -/
theorem backPass_total {tackpts : List (Vec R)} (h : tackpts ≠ []) (alpha : R) :
    ∃ leg, backPass costs gate nextpt winddir obstacles curYaw step prescale tackpts alpha =
      some leg ∧ SameStart tackpts leg.tackpts ∧ Clipped leg.alpha := by
  obtain ⟨start, hStart, rfl, hClipped⟩ :=
    backPassAlpha_total costs gate nextpt winddir obstacles curYaw step h alpha
  -- the loop goes over the points from the last to the second
  have hLoop : ∃ t : BackState R, (List.range' 1 (start.leg.tackpts.length - 1)).reverse.foldlM
      (backPassPoint costs winddir obstacles curYaw step prescale) start = some t ∧
      SameStart start.leg.tackpts t.leg.tackpts ∧ Clipped t.leg.alpha := by
    refine foldlM_total (I := fun t : BackState R => SameStart start.leg.tackpts t.leg.tackpts ∧
      Clipped t.leg.alpha) ?_ ⟨⟨rfl, rfl⟩, hClipped⟩
    intro s i hi hs
    obtain ⟨hLow, hHigh⟩ := List.mem_range'_1.mp (List.mem_reverse.mp hi)
    obtain ⟨t, ht, hSame, hAlpha⟩ := backPassPoint_total costs winddir obstacles curYaw step
      prescale hLow (show i < s.leg.tackpts.length by rw [hs.1.1]; omega)
    exact ⟨t, ht, ⟨hSame.1.trans hs.1.1, hSame.2.trans hs.1.2⟩, hAlpha ▸ hs.2⟩
  obtain ⟨t, ht, hSame, hAlpha⟩ := hLoop
  refine ⟨t.leg, ?_, hSame, hAlpha⟩
  rw [backPass, hStart, Option.bind_eq_bind, Option.bind_some, ht]
  rfl

end Leg

end AnyCost

-- ---------------------------------------------------------------------------
-- All legs
-- ---------------------------------------------------------------------------

/-- The point at which a leg of a plan starts. -/
def Plan.start (plan : Plan R) (j : Nat) : Option (Vec R) := plan.tacks[j]?.bind (·[0]?)

/-- What is known of a plan when the first `n` legs have been improved: the numbers of points, the
first point of all, the first points of the other legs, which are taken from their own gates, and
where the gates are crossed. -/
structure Swept (gates : List (Gate R)) (sizes : List Nat) (first : Option (Vec R)) (n : Nat)
    (plan : Plan R) : Prop where
  shape   : plan.tacks.map List.length = sizes
  alphas  : plan.alphas.length = sizes.length
  first   : plan.start 0 = first
  starts  : ∀ j, 1 ≤ j → j < n → ∃ gate alpha, gates[j]? = some gate ∧
    plan.alphas[j - 1]? = some alpha ∧ plan.start j = some (Gate.along gate alpha)
  clipped : ∀ j, j < n → ∃ alpha, plan.alphas[j]? = some alpha ∧ Clipped alpha

section Sweep

variable {gates : List (Gate R)} {sizes : List Nat} {first : Option (Vec R)} {n : Nat}
  {plan : Plan R}

/-- There are as many legs as sizes. -/
theorem Swept.length (h : Swept gates sizes first n plan) : plan.tacks.length = sizes.length := by
  rw [← h.shape, List.length_map]

/-- No leg is empty. -/
theorem Swept.leg_ne_nil (h : Swept gates sizes first n plan) (hPos : ∀ n ∈ sizes, 0 < n) :
    ∀ leg ∈ plan.tacks, leg ≠ [] := by
  intro leg hLeg
  rw [← List.length_pos_iff]
  exact hPos _ (h.shape ▸ List.mem_map_of_mem hLeg)

/-- An iteration starts with any plan of the shape. -/
theorem Swept.restart (h : Swept gates sizes first n plan) (cost : R) :
    Swept gates sizes first 0 { plan with finalcost := cost } :=
  ⟨h.shape, h.alphas, h.first, fun _ _ hLt => absurd hLt (Nat.not_lt_zero _),
    fun _ hLt => absurd hLt (Nat.not_lt_zero _)⟩

omit [Arith R] in
/-- Behind every leg there is a point. -/
theorem pointAfter_total (nextpt : Vec R) {tacks : List (List (Vec R))}
    (hPos : ∀ leg ∈ tacks, leg ≠ []) {j : Nat} (hLt : j < tacks.length) :
    ∃ npt, pointAfter nextpt tacks j = some npt := by
  unfold pointAfter
  split
  · exact ⟨_, rfl⟩
  · obtain ⟨leg, hMem, hLeg⟩ := getElem?_total (show j + 1 < tacks.length by omega)
    obtain ⟨pt, -, hPt⟩ := getElem?_total (List.length_pos_iff.mpr (hPos leg hMem))
    exact ⟨pt, by rw [hLeg]; exact hPt⟩

/-- Only the legs behind the first one are moved, to a place on their own gate. -/
theorem startLeg_total (curYaw : R) (gate : Gate R) (h : Swept gates sizes first n plan)
    (hPos : ∀ n ∈ sizes, 0 < n) {j : Nat} (hLt : j < sizes.length) {leg : List (Vec R)}
    (hLeg : leg ≠ []) :
    ∃ leg' cyaw, startLeg curYaw gate plan j leg = some (leg', cyaw) ∧
      leg'.length = leg.length ∧
      (j = 0 → leg' = leg) ∧ (1 ≤ j → ∃ alpha, plan.alphas[j - 1]? = some alpha ∧
        leg'[0]? = some (Gate.along gate alpha)) := by
  unfold startLeg
  split
  · exact ⟨leg, curYaw, rfl, rfl, fun _ => rfl, fun h => by omega⟩
  · next hj =>
    obtain ⟨alpha, -, hAlpha⟩ := getElem?_total (show j - 1 < plan.alphas.length by
      rw [h.alphas]
      omega)
    obtain ⟨prev, hMem, hPrev⟩ := getElem?_total (show j - 1 < plan.tacks.length by
      rw [h.length]
      omega)
    have hPrevPos := List.length_pos_iff.mpr (h.leg_ne_nil hPos prev hMem)
    obtain ⟨back, -, hBack⟩ := getElem?_total (show prev.length - 1 < prev.length by omega)
    simp only [hAlpha, setAt_eq (List.length_pos_iff.mpr hLeg), hPrev, hBack, Option.bind_eq_bind,
      Option.bind_some]
    exact ⟨_, _, rfl, List.length_set, fun h => absurd h hj,
      fun _ => ⟨alpha, rfl, List.getElem?_set_self (List.length_pos_iff.mpr hLeg)⟩⟩

/-- The next leg has been improved. -/
theorem Swept.next (h : Swept gates sizes first n plan) (hLt : n < sizes.length)
    {leg leg' : List (Vec R)} {gate : Gate R} {alpha cost : R} (hGate : gates[n]? = some gate)
    (hLeg : plan.tacks[n]? = some leg) (hLength : leg'.length = leg.length)
    (hFirst : n = 0 → leg'[0]? = leg[0]?)
    (hStart : 1 ≤ n → ∃ alpha, plan.alphas[n - 1]? = some alpha ∧
      leg'[0]? = some (Gate.along gate alpha)) (hClipped : Clipped alpha) :
    Swept gates sizes first (n + 1)
      ⟨plan.tacks.set n leg', plan.alphas.set n alpha, cost⟩ := by
  have hTacks : n < plan.tacks.length := h.length ▸ hLt
  have hAlphas : n < plan.alphas.length := h.alphas ▸ hLt
  have hAt : ∀ j, (plan.tacks.set n leg')[j]?.bind (·[0]?) =
      if j = n then leg'[0]? else plan.start j := by
    intro j
    by_cases hj : j = n
    · rw [if_pos hj, hj, List.getElem?_set_self hTacks, Option.bind_some]
    · rw [if_neg hj, List.getElem?_set_ne (Ne.symm hj), Plan.start]
  refine ⟨?_, ?_, ?_, ?_, ?_⟩
  · show (plan.tacks.set n leg').map List.length = sizes
    rw [map_set_of_eq hLeg hLength, h.shape]
  · show (plan.alphas.set n alpha).length = sizes.length
    rw [List.length_set, h.alphas]
  · refine (hAt 0).trans ?_
    rcases Nat.eq_zero_or_pos n with hZero | hPos
    · rw [if_pos hZero.symm, hFirst hZero, ← h.first, Plan.start, ← hZero, hLeg]
      rfl
    · rw [if_neg (by omega), h.first]
  · intro j hj hjn
    show ∃ gate a, gates[j]? = some gate ∧ (plan.alphas.set n alpha)[j - 1]? = some a ∧
      (plan.tacks.set n leg')[j]?.bind (·[0]?) = some (Gate.along gate a)
    rw [hAt, List.getElem?_set_ne (by omega)]
    by_cases hEq : j = n
    · subst hEq
      rw [if_pos rfl]
      obtain ⟨a, ha, hStart⟩ := hStart hj
      exact ⟨gate, a, hGate, ha, hStart⟩
    · rw [if_neg hEq]
      exact h.starts j hj (by omega)
  · intro j hjn
    show ∃ a, (plan.alphas.set n alpha)[j]? = some a ∧ Clipped a
    by_cases hEq : j = n
    · rw [hEq, List.getElem?_set_self hAlphas]
      exact ⟨alpha, rfl, hClipped⟩
    · rw [List.getElem?_set_ne (Ne.symm hEq)]
      exact h.clipped j (by omega)

namespace AnyCost

variable (nextpt : Vec R) (winddir : R) (obstacles : List (Math.Polygon R)) (curYaw : R)

/-- One more leg is improved. -/
theorem optimizeLeg_total (costs : Nat → LegCosts R) (step : R)
    (hGates : gates.length = sizes.length) (hPos : ∀ n ∈ sizes, 0 < n)
    (h : Swept gates sizes first n plan) (hLt : n < sizes.length) :
    ∃ plan', optimizeLeg gates nextpt winddir obstacles curYaw costs step plan n = some plan' ∧
      Swept gates sizes first (n + 1) plan' := by
  have hTacks : n < plan.tacks.length := h.length ▸ hLt
  have hAlphas : n < plan.alphas.length := h.alphas ▸ hLt
  have hNonempty := h.leg_ne_nil hPos
  obtain ⟨gate, -, hGate⟩ := getElem?_total (hGates ▸ hLt)
  obtain ⟨npt, hNpt⟩ := pointAfter_total nextpt hNonempty hTacks
  obtain ⟨leg, hMem, hLeg⟩ := getElem?_total hTacks
  obtain ⟨leg', cyaw, hStart, hLength, hSame, hMoved⟩ :=
    startLeg_total curYaw gate h hPos hLt (hNonempty leg hMem)
  obtain ⟨alpha, -, hAlpha⟩ := getElem?_total hAlphas
  have hLeg' : leg' ≠ [] := by
    rw [← List.length_pos_iff, hLength]
    exact List.length_pos_iff.mpr (hNonempty leg hMem)
  obtain ⟨r, hPass, hKeeps, hClipped⟩ := backPass_total (costs n) gate npt winddir obstacles cyaw
    step (n = 0) hLeg' alpha
  simp only [optimizeLeg, hGate, hNpt, hLeg, hStart, hAlpha, hPass, setAt_eq hTacks,
    setAt_eq hAlphas, Option.bind_eq_bind, Option.bind_some]
  refine ⟨_, rfl, h.next hLt hGate hLeg (hKeeps.1.trans hLength) (fun hZero => ?_)
    (fun hLater => ?_) hClipped⟩
  · rw [hKeeps.2, hSame hZero]
  · rw [hKeeps.2]
    exact hMoved hLater

/-- A round improves all legs. -/
theorem optimizeRound_total (costs : Nat → Nat → LegCosts R) (hGates : gates.length = sizes.length)
    (hPos : ∀ n ∈ sizes, 0 < n) (h : Swept gates sizes first n plan) (i : Nat) :
    ∃ plan', optimizeRound gates nextpt winddir obstacles curYaw costs plan i = some plan' ∧
      Swept gates sizes first sizes.length plan' := by
  unfold optimizeRound
  dsimp only
  rw [h.length]
  exact range_total (I := Swept gates sizes first) (fun s j hj hs =>
    optimizeLeg_total nextpt winddir obstacles curYaw (costs i) _ hGates hPos hs hj)
    (h.restart (lit 0))

/-- **All legs.** The optimization of a hypothesis for as many legs as there are gates has a
result, in which all legs have been improved. -/
theorem optimizeMultipleTacks_total (costs : Nat → Nat → LegCosts R)
    (tacks : List (List (Vec R))) (alphas : List R) (hAlphas : tacks.length = alphas.length)
    (hGates : tacks.length = gates.length) (hNonempty : ∀ leg ∈ tacks, leg ≠ []) :
    ∃ plan, optimizeMultipleTacks gates nextpt winddir obstacles curYaw costs tacks alphas =
      some plan ∧
      Swept gates (tacks.map List.length) (tacks[0]?.bind (·[0]?)) gates.length plan := by
  have hPos : ∀ n ∈ tacks.map List.length, 0 < n := by
    intro n hn
    obtain ⟨leg, hLeg, rfl⟩ := List.mem_map.mp hn
    exact List.length_pos_iff.mpr (hNonempty leg hLeg)
  have hSizes : gates.length = (tacks.map List.length).length := by
    rw [List.length_map, hGates]
  rw [optimizeMultipleTacks, if_pos ⟨hAlphas, hGates, hNonempty⟩, hSizes]
  -- after an iteration all legs have been improved, and before the first one none
  obtain ⟨plan, hLoop, hSwept⟩ := range_total (n := 50)
    (f := optimizeRound gates nextpt winddir obstacles curYaw costs)
    (I := fun i plan => Swept gates (tacks.map List.length) (tacks[0]?.bind (·[0]?))
      (if i = 0 then 0 else (tacks.map List.length).length) plan)
    (fun plan i _ h => optimizeRound_total nextpt winddir obstacles curYaw costs hSizes hPos h i)
    (s := { tacks := tacks, alphas := alphas, finalcost := lit 0 })
    ⟨rfl, by rw [List.length_map, hAlphas], rfl, fun _ _ hLt => absurd hLt (Nat.not_lt_zero _),
      fun _ hLt => absurd hLt (Nat.not_lt_zero _)⟩
  exact ⟨plan, hLoop, hSwept⟩

end AnyCost

end Sweep

-- ---------------------------------------------------------------------------
-- The cheapest hypothesis
-- ---------------------------------------------------------------------------

namespace AnyCost

section Search

variable (gates : List (Gate R)) (nextpt : Vec R) (winddir : R) (obstacles : List (Math.Polygon R))
  (curYaw : R) (costs : Nat → Nat → Nat → LegCosts R)

/-- The improved hypothesis. -/
def improve (hypothesis : List (List (Vec R)) × Nat) : Option (Plan R) :=
  optimizeMultipleTacks gates nextpt winddir obstacles curYaw (costs hypothesis.2) hypothesis.1
    (List.replicate gates.length (lit (1 / 2)))

/-- What has been taken of the hypotheses `seen`: nothing, because none has a cost below infinity,
or one that is not dearer than any other one with such a cost. -/
def Taken (start : Best R) (seen : List (List (List (Vec R)) × Nat)) (best : Best R) : Prop :=
  (best = start ∧ ∀ e ∈ seen, ∀ plan, improve gates nextpt winddir obstacles curYaw costs e =
    some plan → Arith.ltInf plan.finalcost = false) ∨
  ∃ e ∈ seen, ∃ plan, improve gates nextpt winddir obstacles curYaw costs e = some plan ∧
    best = { tacks := plan.tacks, alphas := plan.alphas, lowest := some plan.finalcost } ∧
    (Arith.StrictOrder R → ∀ e' ∈ seen, ∀ plan', improve gates nextpt winddir obstacles curYaw
      costs e' = some plan' → Arith.ltInf plan'.finalcost = true →
      Arith.lt plan'.finalcost plan.finalcost = false)

variable {gates nextpt winddir obstacles curYaw costs}

/-- One more hypothesis is compared with the best one. -/
theorem takeCheaper_taken {start best : Best R} {seen : List (List (List (Vec R)) × Nat)}
    {e : List (List (Vec R)) × Nat} (hStart : start.lowest = none)
    (h : Taken gates nextpt winddir obstacles curYaw costs start seen best) {plan : Plan R}
    (hPlan : improve gates nextpt winddir obstacles curYaw costs e = some plan) :
    ∃ best', takeCheaper gates nextpt winddir obstacles curYaw costs best e = some best' ∧
      Taken gates nextpt winddir obstacles curYaw costs start (seen ++ [e]) best' := by
  have hEq : takeCheaper gates nextpt winddir obstacles curYaw costs best e =
      if Arith.ltMin plan.finalcost best.lowest then
        some { tacks := plan.tacks, alphas := plan.alphas, lowest := some plan.finalcost }
      else some best := by
    show (improve gates nextpt winddir obstacles curYaw costs e).bind _ = _
    rw [hPlan, Option.bind_some]
  have hLast : ∀ e' ∈ seen ++ [e], e' ∈ seen ∨ e' = e := fun e' he' =>
    (List.mem_append.mp he').imp_right List.mem_singleton.mp
  have hSelf : e ∈ seen ++ [e] := List.mem_append_right _ (List.mem_singleton_self e)
  have hOnly : ∀ plan', improve gates nextpt winddir obstacles curYaw costs e = some plan' →
      plan' = plan := fun plan' hPlan' => Option.some.inj (hPlan'.symm.trans hPlan)
  rw [hEq]
  rcases h with ⟨rfl, hNone⟩ | ⟨e₀, he₀, plan₀, hPlan₀, rfl, hLeast⟩
  · -- nothing was taken yet: the first cost below infinity is
    by_cases hLt : Arith.ltInf plan.finalcost = true
    · refine ⟨_, if_pos (by rwa [hStart]), .inr ⟨e, hSelf, plan, hPlan, rfl, ?_⟩⟩
      intro hOrder e' he' plan' hPlan' hFinite
      rcases hLast e' he' with hSeen | rfl
      · rw [hNone e' hSeen plan' hPlan'] at hFinite
        cases hFinite
      · obtain rfl := hOnly plan' hPlan'
        exact hOrder.irrefl _
    · refine ⟨best, if_neg (by rwa [hStart]), .inl ⟨rfl, ?_⟩⟩
      intro e' he' plan' hPlan'
      rcases hLast e' he' with hSeen | rfl
      · exact hNone e' hSeen plan' hPlan'
      · obtain rfl := hOnly plan' hPlan'
        exact Bool.eq_false_iff.mpr hLt
  · by_cases hLt : Arith.lt plan.finalcost plan₀.finalcost = true
    · refine ⟨_, if_pos hLt, .inr ⟨e, hSelf, plan, hPlan, rfl, ?_⟩⟩
      intro hOrder e' he' plan' hPlan' hFinite
      rcases hLast e' he' with hSeen | rfl
      · -- a cheaper one would be cheaper than the one before, too
        by_contra hCheaper
        have hNot := hLeast hOrder e' hSeen plan' hPlan' hFinite
        rw [hOrder.trans _ _ _ (Bool.eq_true_of_not_eq_false hCheaper) hLt] at hNot
        cases hNot
      · obtain rfl := hOnly plan' hPlan'
        exact hOrder.irrefl _
    · refine ⟨_, if_neg hLt, .inr ⟨e₀, List.mem_append_left _ he₀, plan₀, hPlan₀, rfl, ?_⟩⟩
      intro hOrder e' he' plan' hPlan' hFinite
      rcases hLast e' he' with hSeen | rfl
      · exact hLeast hOrder e' hSeen plan' hPlan' hFinite
      · obtain rfl := hOnly plan' hPlan'
        exact Bool.eq_false_iff.mpr hLt

variable (nextpt obstacles curYaw costs) in
/-- Every hypothesis is improved to a plan. -/
theorem improve_total {maxPts : Int} {startpt : Vec R} {endpts : List (Vec R)} {h : Hypotheses R}
    (hEnum : Enumerated maxPts startpt endpts winddir gates.length h)
    {hyp : List (List (Vec R))} (hMem : hyp ∈ h.paths) (i : Nat) :
    ∃ plan, improve gates nextpt winddir obstacles curYaw costs (hyp, i) = some plan ∧
      Swept gates (hyp.map List.length) (hyp[0]?.bind (·[0]?)) gates.length plan :=
  optimizeMultipleTacks_total nextpt winddir obstacles curYaw (costs i) hyp _
    (by rw [List.length_replicate, hEnum.length hMem]) (hEnum.length hMem)
    (hEnum.leg_ne_nil hMem)

variable (nextpt obstacles curYaw costs) in
/-- **The search.** It has a result, which is the first hypothesis as it was or a cheapest one,
improved. -/
theorem findMultiplePath_total {maxPts : Int} {startpt : Vec R} {endpts : List (Vec R)}
    {h : Hypotheses R} (hHyps : searchHypotheses startpt gates winddir = some h)
    (hEnum : Enumerated maxPts startpt endpts winddir gates.length h) :
    ∃ first ∈ h.paths, ∃ best,
      findMultiplePath gates nextpt winddir obstacles curYaw costs startpt =
        some (best.tacks, best.alphas) ∧
      Taken gates nextpt winddir obstacles curYaw costs
        { tacks := first, alphas := List.replicate gates.length (lit (1 / 2)) } h.paths.zipIdx
        best := by
  obtain ⟨first, hMem, hFirst⟩ := getElem?_total (List.length_pos_iff.mpr hEnum.nonempty)
  have hTotal : ∀ e ∈ h.paths.zipIdx, ∃ plan,
      improve gates nextpt winddir obstacles curYaw costs e = some plan := by
    rintro ⟨hyp, i⟩ he
    obtain ⟨plan, hPlan, -⟩ := improve_total nextpt obstacles curYaw costs hEnum
      (List.fst_mem_of_mem_zipIdx he) i
    exact ⟨plan, hPlan⟩
  obtain ⟨best, hLoop, hTaken⟩ := foldlM_seen (l := h.paths.zipIdx)
    (f := takeCheaper gates nextpt winddir obstacles curYaw costs)
    (I := Taken gates nextpt winddir obstacles curYaw costs
      { tacks := first, alphas := List.replicate gates.length (lit (1 / 2)) })
    (fun seen best e he hTaken => by
      obtain ⟨plan, hPlan⟩ := hTotal e he
      exact takeCheaper_taken rfl hTaken hPlan)
    [] _ (.inl ⟨rfl, fun e he => absurd he List.not_mem_nil⟩)
  refine ⟨first, hMem, best, ?_, hTaken⟩
  rw [findMultiplePath, hHyps]
  simp only [hFirst, hLoop, Option.bind_eq_bind, Option.bind_some]

end Search

end AnyCost

-- ---------------------------------------------------------------------------
-- The path that is found
-- ---------------------------------------------------------------------------

/-- A path for all gates: legs with as many points as one of the hypotheses, the first of which
starts at `startpt`, and a place on each gate. -/
structure PathFor (startpt : Vec R) (gates : List (Gate R)) (h : Hypotheses R)
    (tacks : List (List (Vec R))) (alphas : List R) : Prop where
  shape   : ∃ hyp ∈ h.paths, tacks.map List.length = hyp.map List.length
  legs    : tacks.length = gates.length
  points  : ∀ leg ∈ tacks, leg ≠ []
  start   : tacks[0]?.bind (·[0]?) = some startpt
  crosses : alphas.length = gates.length
  clipped : ∀ alpha ∈ alphas, alpha = lit (1 / 2) ∨ Clipped alpha

section Found

variable {gates : List (Gate R)} {nextpt startpt : Vec R} {winddir curYaw : R}
  {obstacles : List (Math.Polygon R)} {h : Hypotheses R} {maxPts : Int} {endpts : List (Vec R)}
  {hyp : List (List (Vec R))}

/-- All hypotheses start at the boat. -/
theorem Enumerated.start (hGates : gates ≠ [])
    (hEnum : Enumerated maxPts startpt endpts winddir gates.length h) (hMem : hyp ∈ h.paths) :
    hyp[0]?.bind (·[0]?) = some startpt := by
  obtain ⟨leg, -, hLeg⟩ := getElem?_total (l := hyp) (i := 0) (by
    rw [hEnum.length hMem]
    exact List.length_pos_iff.mpr hGates)
  rw [hLeg, Option.bind_some, (of_mem_legCandidates (hEnum.leg hMem hLeg)).2.2, if_pos rfl]

/-- A hypothesis as it was. -/
theorem Enumerated.pathFor (hGates : gates ≠ [])
    (hEnum : Enumerated maxPts startpt endpts winddir gates.length h) (hMem : hyp ∈ h.paths) :
    PathFor startpt gates h hyp (List.replicate gates.length (lit (1 / 2))) where
  shape := ⟨hyp, hMem, rfl⟩
  legs := hEnum.length hMem
  points := hEnum.leg_ne_nil hMem
  start := hEnum.start hGates hMem
  crosses := List.length_replicate
  clipped := fun _ ha => .inl (List.eq_of_mem_replicate ha)

/-- A hypothesis that was improved. -/
theorem Swept.pathFor (hGates : gates ≠ [])
    (hEnum : Enumerated maxPts startpt endpts winddir gates.length h) (hMem : hyp ∈ h.paths)
    {plan : Plan R}
    (hSwept : Swept gates (hyp.map List.length) (hyp[0]?.bind (·[0]?)) gates.length plan) :
    PathFor startpt gates h plan.tacks plan.alphas where
  shape := ⟨hyp, hMem, hSwept.shape⟩
  legs := by rw [hSwept.length, List.length_map, hEnum.length hMem]
  points := by
    refine hSwept.leg_ne_nil ?_
    intro n hn
    obtain ⟨leg, hLeg, rfl⟩ := List.mem_map.mp hn
    exact List.length_pos_iff.mpr (hEnum.leg_ne_nil hMem leg hLeg)
  start := hSwept.first.trans (hEnum.start hGates hMem)
  crosses := by rw [hSwept.alphas, List.length_map, hEnum.length hMem]
  clipped := by
    intro alpha ha
    obtain ⟨j, hj⟩ := List.mem_iff_getElem?.mp ha
    have hLt := (List.getElem?_eq_some_iff.mp hj).1
    rw [hSwept.alphas, List.length_map, hEnum.length hMem] at hLt
    obtain ⟨alpha', hAlpha, hClipped⟩ := hSwept.clipped j hLt
    rw [hj, Option.some.injEq] at hAlpha
    exact .inr (hAlpha ▸ hClipped)

/-- **The path.** Whatever the costs are, the search for one gate or more finds a path. -/
theorem AnyCost.findMultiplePath_pathFor (costs : Nat → Nat → Nat → LegCosts R)
    (hGates : gates ≠ []) (startpt nextpt : Vec R) (winddir : R)
    (obstacles : List (Math.Polygon R)) (curYaw : R) :
    ∃ h tacks alphas, searchHypotheses startpt gates winddir = some h ∧
      AnyCost.findMultiplePath gates nextpt winddir obstacles curYaw costs startpt =
        some (tacks, alphas) ∧ PathFor startpt gates h tacks alphas := by
  obtain ⟨h, hHyps, hEnum⟩ := searchHypotheses_eq hGates startpt winddir
  obtain ⟨first, hFirst, best, hBest, hTaken⟩ :=
    AnyCost.findMultiplePath_total nextpt obstacles curYaw costs hHyps hEnum
  refine ⟨h, best.tacks, best.alphas, hHyps, hBest, ?_⟩
  rcases hTaken with ⟨rfl, -⟩ | ⟨⟨hyp, i⟩, he, plan, hPlan, rfl, -⟩
  · exact hEnum.pathFor hGates hFirst
  · have hMem := List.fst_mem_of_mem_zipIdx he
    obtain ⟨plan', hPlan', hSwept⟩ := AnyCost.improve_total nextpt obstacles curYaw costs hEnum
      hMem i
    rw [hPlan, Option.some.injEq] at hPlan'
    subst hPlan'
    exact hSwept.pathFor hGates hEnum hMem

/-- The search for a path to one gate has a result, which is one leg with at least one point, and
one `alpha`. -/
theorem findMultiplePath_one (nextpt : Vec R) (winddir : R) (obstacles : List (Math.Polygon R))
    (curYaw : R) (startpt : Vec R) (gate : Gate R) :
    ∃ leg alpha, findMultiplePath startpt [gate] nextpt winddir obstacles curYaw =
      some ([leg], [alpha]) ∧ leg ≠ [] := by
  obtain ⟨h, tacks, alphas, -, hFound, hPath⟩ := AnyCost.findMultiplePath_pathFor
    (fun _ _ _ => lineCosts) (List.cons_ne_nil gate []) startpt nextpt winddir obstacles curYaw
  obtain ⟨leg, rfl⟩ := List.length_eq_one_iff.mp hPath.legs
  obtain ⟨alpha, rfl⟩ := List.length_eq_one_iff.mp hPath.crosses
  refine ⟨leg, alpha, ?_, hPath.points leg (List.mem_singleton_self leg)⟩
  rw [findMultiplePath_eq, hFound]

end Found

-- ---------------------------------------------------------------------------
-- Results for the code
-- ---------------------------------------------------------------------------

section Results

variable {gates : List (Gate R)}

/-- The sections that the search keeps. -/
theorem fitsAlong_eq {maxPts : Int} {startpt : Vec R} {endpts : List (Vec R)} {winddir : R}
    {n : Nat} {hyp : List (List (Vec R))}
    (hMem : hyp ∈ (candidates maxPts startpt endpts winddir n).sections) :
    fitsAlong (fitsPoints maxPts) hyp =
      decide (∀ i < n, totalPoints (hyp.take (i + 1)) ≤ maxPts + i) := by
  have hLength : hyp.length = n := by
    rw [List.mem_sections_length hMem, candidates, List.length_map, List.length_range]
  rw [Bool.eq_iff_iff, fitsAlong, List.all_eq_true, decide_eq_true_iff, hLength]
  simp only [List.mem_range]
  refine forall₂_congr ?_
  intro i hi
  rw [fitsPoints, decide_eq_true_iff, List.length_take, Nat.min_eq_left (by omega)]
  push_cast
  rw [add_sub_cancel_right]

/-- **The hypotheses and the cheapest one.** For any gates, before the optimization the hypotheses
are the choices of one candidate for each leg with not more than `MaxPtsPerLeg + i` points in the
first `i + 1` legs, each as often as it can be made; they have a leg with points for each gate,
and their lengths are their numbers of points. If the costs are below infinity, the search returns
one of them, improved, and none is cheaper. -/
theorem search_enumerates [Arith.StrictOrder R] (hGates : gates ≠ []) (startpt nextpt : Vec R)
    (winddir : R) (obstacles : List (Math.Polygon R)) (curYaw : R) :
    ∃ h, searchHypotheses startpt gates winddir = some h ∧
      h.paths.Perm ((candidates (maxPtsPerLeg gates.length) startpt (gates.map Gate.middle) winddir
        gates.length).sections.filter fun hyp => decide (∀ i < gates.length,
          totalPoints (hyp.take (i + 1)) ≤ maxPtsPerLeg gates.length + i)) ∧
      (∀ hyp ∈ h.paths, hyp.length = gates.length ∧ ∀ leg ∈ hyp, leg ≠ []) ∧
      h.lengths = h.paths.map totalPoints ∧
      ∃ tacks alphas, findMultiplePath startpt gates nextpt winddir obstacles curYaw =
        some (tacks, alphas) ∧
      let improved (hyp : List (List (Vec R))) : Option (Plan R) :=
        optimizeMultipleTacks gates nextpt winddir obstacles curYaw hyp
          (List.replicate gates.length (lit (1 / 2)))
      ((∀ hyp ∈ h.paths, ∀ plan, improved hyp = some plan →
          Arith.ltInf plan.finalcost = true) →
        ∃ hyp ∈ h.paths, ∃ plan, improved hyp = some plan ∧ tacks = plan.tacks ∧
          alphas = plan.alphas ∧ ∀ hyp' ∈ h.paths, ∀ plan', improved hyp' = some plan' →
            Arith.lt plan'.finalcost plan.finalcost = false) := by
  obtain ⟨h, hHyps, hEnum⟩ := searchHypotheses_eq hGates startpt winddir
  obtain ⟨first, hFirst, best, hBest, hTaken⟩ := AnyCost.findMultiplePath_total nextpt obstacles
    curYaw (fun _ _ _ => lineCosts) hHyps hEnum
  refine ⟨h, hHyps, ?_, fun hyp hMem => ⟨hEnum.length hMem, hEnum.leg_ne_nil hMem⟩,
    hEnum.counted, best.tacks, best.alphas, ?_, ?_⟩
  · rw [hEnum.paths]
    refine (choices_perm _).trans (List.Perm.of_eq ?_)
    exact List.filter_congr fun hyp hMem => fitsAlong_eq hMem
  · rw [findMultiplePath_eq, hBest]
  · intro improved hFinite
    rcases hTaken with ⟨-, hNone⟩ | ⟨⟨hyp, i⟩, he, plan, hPlan, rfl, hLeast⟩
    · -- the first hypothesis has a cost below infinity, so something was taken
      obtain ⟨k, hk⟩ := List.mem_iff_getElem?.mp hFirst
      have hMem : (first, k) ∈ h.paths.zipIdx :=
        List.mem_zipIdx_iff_getElem?.mpr hk
      obtain ⟨plan, hPlan, -⟩ := AnyCost.improve_total nextpt obstacles curYaw
        (fun _ _ _ => lineCosts) hEnum hFirst k
      have hLt := hFinite first hFirst plan hPlan
      rw [hNone (first, k) hMem plan hPlan] at hLt
      cases hLt
    · refine ⟨hyp, List.fst_mem_of_mem_zipIdx he, plan, hPlan, rfl, rfl, ?_⟩
      intro hyp' hMem' plan' hPlan'
      obtain ⟨k, hk⟩ := List.mem_iff_getElem?.mp hMem'
      exact hLeast inferInstance (hyp', k) (List.mem_zipIdx_iff_getElem?.mpr hk) plan' hPlan'
        (hFinite hyp' hMem' plan' hPlan')

/-- Two gates at the origin: there are five candidates for each of the legs, and fifteen pairs of
them do not have too many points. -/
theorem search_enumerates_two :
    ∃ h, searchHypotheses (.zero : Vec (Double .exact .atZero)) [(.zero, .zero), (.zero, .zero)]
      (lit 0) = some h ∧ h.paths.length = 15 ∧ h.lengths = h.paths.map totalPoints := by
  obtain ⟨h, hHyps, hPerm, -, hLengths, -⟩ := @search_enumerates _ _
    [((.zero : Vec (Double .exact .atZero)), .zero), (.zero, .zero)] _
    (List.cons_ne_nil _ _) .zero .zero (lit 0) [] (lit 0)
  refine ⟨h, hHyps, hPerm.length_eq.trans ?_, hLengths⟩
  decide +kernel

end Results

end Sailbot.Control.LinePath

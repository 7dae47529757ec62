import Sailbot.Lib.Choices
import Sailbot.Control.LinePath

/-!
# The hypotheses of the search

`FindMultiplePath` (`control/line_plan.cc`) puts hypotheses together leg by leg. The first
candidate of a leg is put behind the hypotheses that there are, in place. Every other one is put
behind copies of them, which end with the first candidate by then and lose it again. What counts
is the number of points before the leg.

* `Enumerated`          — the hypotheses are the choices of one candidate for each leg which have,
  up to each leg, not too many points, and their lengths are counted.
* `searchHypotheses_eq` — they are after all legs.
-/

namespace Sailbot.Control.LinePath

open Lib Math LineCost
open Lib.Arith (lit litf)

variable {R : Type}

/-- The number of points of a hypothesis. -/
def totalPoints (hyp : List (List (Vec R))) : Int := ((hyp.map List.length).sum : Nat)

/-- `MaxPtsPerLeg`. -/
def maxPtsPerLeg (nlegs : Nat) : Int := max 1 (kMaxTotalpts + 1 - nlegs)

/-- The hypotheses before they are improved. -/
def searchHypotheses [Arith R] (startpt : Vec R) (gates : List (Gate R)) (winddir : R) :
    Option (Hypotheses R) :=
  (List.range gates.length).foldlM
    (addLeg (maxPtsPerLeg gates.length) startpt (gates.map Gate.middle) winddir) {}

/-- The candidates for a leg, of up to `maxPts` points. -/
def legCandidates [Arith R] (maxPts : Int) (startpt : Vec R) (endpts : List (Vec R)) (winddir : R)
    (leg : Nat) : List (List (Vec R)) :=
  (List.range maxPts.toNat).flatMap (generateHypotheses
    (if leg = 0 then startpt else endpts.getD (leg - 1) .zero) (endpts.getD leg .zero) winddir)

/-- The legs so far, of which there is one at least, do not have too many points. -/
def fitsPoints (maxPts : Int) (hyp : List (List (Vec R))) : Bool :=
  decide (totalPoints hyp ≤ maxPts + (hyp.length - 1 : Int))

-- ---------------------------------------------------------------------------
-- Points
-- ---------------------------------------------------------------------------

@[simp] theorem totalPoints_nil : totalPoints ([] : List (List (Vec R))) = 0 := rfl

/-- One more leg adds its points. -/
theorem totalPoints_concat (hyp : List (List (Vec R))) (path : List (Vec R)) :
    totalPoints (hyp ++ [path]) = totalPoints hyp + path.length := by
  rw [totalPoints, totalPoints, List.map_append, List.sum_append, List.map_singleton,
    List.sum_singleton]
  push_cast
  rfl

section Candidates

variable [Arith R] {startpt endpt : Vec R} {winddir : R} {maxPts : Int}
  {endpts : List (Vec R)} {leg : Nat}

/-- A candidate for `npts` points has these and the start. -/
theorem length_of_mem_generateHypotheses {npts : Nat} {path : List (Vec R)}
    (h : path ∈ generateHypotheses startpt endpt winddir npts) :
    path.length = npts + 1 ∧ path[0]? = some startpt := by
  unfold generateHypotheses at h
  split at h
  · next hZero =>
    obtain rfl := List.mem_singleton.mp h
    exact ⟨by rw [hZero]; rfl, rfl⟩
  · dsimp only at h
    split at h
    · simp only [List.mem_cons, List.not_mem_nil, or_false] at h
      rcases h with rfl | rfl | rfl <;>
        exact ⟨by rw [List.length_cons, List.length_map, List.length_range], rfl⟩
    · obtain rfl := List.mem_singleton.mp h
      exact ⟨by rw [List.length_cons, List.length_map, List.length_range], rfl⟩

/-- The candidates for a leg have up to `maxPts` points and start where the leg starts. -/
theorem of_mem_legCandidates {path : List (Vec R)}
    (h : path ∈ legCandidates maxPts startpt endpts winddir leg) :
    1 ≤ path.length ∧ (path.length : Int) ≤ maxPts ∧
      path[0]? = some (if leg = 0 then startpt else endpts.getD (leg - 1) .zero) := by
  obtain ⟨npts, hnpts, hPath⟩ := List.mem_flatMap.mp h
  have hLt := List.mem_range.mp hnpts
  obtain ⟨hLength, hFirst⟩ := length_of_mem_generateHypotheses hPath
  exact ⟨by omega, by omega, hFirst⟩

/-- The first candidate for a leg has one point. -/
theorem legCandidates_cons (hPos : 1 ≤ maxPts) (startpt : Vec R) (endpts : List (Vec R))
    (winddir : R) (leg : Nat) : ∃ rest, legCandidates maxPts startpt endpts winddir leg =
      [if leg = 0 then startpt else endpts.getD (leg - 1) .zero] :: rest := by
  obtain ⟨n, hn⟩ : ∃ n, maxPts.toNat = n + 1 := ⟨maxPts.toNat - 1, by omega⟩
  rw [legCandidates, hn, List.range_succ_eq_map, List.flatMap_cons]
  exact ⟨_, rfl⟩

end Candidates

-- ---------------------------------------------------------------------------
-- One candidate
-- ---------------------------------------------------------------------------

section Candidate

variable {maxPts : Int} {leg newhyp : Nat} {h : Hypotheses R} {hyps : List (List (List (Vec R)))}
  {path : List (Vec R)}

/-- The lengths are those of the hypotheses. -/
def Counted (h : Hypotheses R) : Prop := h.lengths = h.paths.map totalPoints

/-- A hypothesis of the legs before `leg` may be followed by the candidate `path`. -/
def roomFor (maxPts : Int) (leg : Nat) (path : List (Vec R)) (hyp : List (List (Vec R))) : Bool :=
  decide (totalPoints hyp + path.length ≤ maxPts + leg)

variable (maxPts leg path) in
/-- Behind the first candidate `first`, the next one is put behind a copy that loses it. -/
theorem extendHypothesis_copy {prevhyp : Nat} {hyp : List (List (Vec R))} {first : List (Vec R)}
    (hNew : 0 < newhyp) (hCounted : Counted h) (hHyp : hyps[prevhyp]? = some hyp)
    (hPath : h.paths[prevhyp]? = some (hyp ++ [first])) :
    ∃ t, extendHypothesis maxPts leg (hyps.map totalPoints) newhyp path h prevhyp = some t ∧
      Counted t ∧ t.paths = h.paths ++
        (if roomFor maxPts leg path hyp then [hyp ++ [path]] else []) := by
  have hOld : (hyps.map totalPoints)[prevhyp]? = some (totalPoints hyp) := by
    rw [List.getElem?_map, hHyp]
    rfl
  have hLengths : h.lengths.length = h.paths.length := by
    rw [hCounted, List.length_map]
  rw [extendHypothesis, hOld, Option.bind_eq_bind, Option.bind_some]
  by_cases hRoom : totalPoints hyp + path.length > maxPts + leg
  · refine ⟨h, if_pos hRoom, hCounted, ?_⟩
    rw [roomFor, decide_eq_false (by omega), if_neg Bool.false_ne_true, List.append_nil]
  · have hCopy : copyHypothesis (totalPoints hyp) newhyp h prevhyp =
        some ({ paths := h.paths ++ [hyp], lengths := h.lengths ++ [totalPoints hyp] },
          h.paths.length) := by
      have hEmpty : ¬ (hyp ++ [first]).isEmpty = true := by simp
      rw [copyHypothesis, if_pos hNew, hPath, Option.bind_eq_bind, Option.bind_some,
        if_neg hEmpty, List.dropLast_concat]
    have hLast : (h.lengths ++ [totalPoints hyp])[h.paths.length]? = some (totalPoints hyp) := by
      rw [← hLengths, List.getElem?_concat_length]
    refine ⟨{ paths := h.paths ++ [hyp ++ [path]],
              lengths := h.lengths ++ [totalPoints hyp + path.length] }, ?_, ?_, ?_⟩
    · rw [if_neg hRoom, hCopy]
      simp only [Option.bind_eq_bind, Option.bind_some, List.getElem?_concat_length, hLast]
      rw [setAt_eq (by rw [List.length_append, List.length_singleton]; omega),
        setAt_eq (by rw [List.length_append, List.length_singleton, hLengths]; omega)]
      simp only [Option.bind_some, List.set_append_right _ _ (Nat.le_refl _), Nat.sub_self,
        List.set_cons_zero]
      rw [List.set_append_right _ _ hLengths.le, hLengths, Nat.sub_self, List.set_cons_zero]
    · rw [Counted, List.map_append, ← hCounted, List.map_singleton, totalPoints_concat]
    · rw [roomFor, decide_eq_true (by omega), if_pos rfl]

variable (maxPts leg) in
/-- The first candidate is put behind the hypothesis in place. -/
theorem extendHypothesis_first {before after : List (List (List (Vec R)))}
    {hyp : List (List (Vec R))} {old : List Int} (hCounted : Counted h)
    (hOld : old[before.length]? = some (totalPoints hyp))
    (hPaths : h.paths = before ++ hyp :: after) (hRoom : roomFor maxPts leg path hyp = true) :
    ∃ t, extendHypothesis maxPts leg old 0 path h before.length = some t ∧ Counted t ∧
      t.paths = before ++ (hyp ++ [path]) :: after := by
  have hHyp : h.paths[before.length]? = some hyp := by
    rw [hPaths, List.getElem?_append_right (Nat.le_refl _), Nat.sub_self]
    rfl
  have hLen : h.lengths[before.length]? = some (totalPoints hyp) := by
    rw [hCounted, List.getElem?_map, hHyp]
    rfl
  have hLt : before.length < h.paths.length := (List.getElem?_eq_some_iff.mp hHyp).1
  have hLtLengths : before.length < h.lengths.length := (List.getElem?_eq_some_iff.mp hLen).1
  have hFits : ¬ totalPoints hyp + path.length > maxPts + leg :=
    not_lt.mpr (of_decide_eq_true hRoom)
  refine ⟨{ paths := h.paths.set before.length (hyp ++ [path]),
            lengths := h.lengths.set before.length (totalPoints hyp + path.length) }, ?_, ?_, ?_⟩
  · rw [extendHypothesis, hOld, Option.bind_eq_bind, Option.bind_some, if_neg hFits]
    simp only [copyHypothesis, Nat.lt_irrefl, if_false, Option.bind_eq_bind, Option.bind_some, hHyp,
      hLen, setAt_eq hLt, setAt_eq hLtLengths]
  · rw [Counted, List.map_set, totalPoints_concat, ← hCounted]
  · dsimp only
    rw [hPaths, List.set_append_right _ _ (Nat.le_refl _), Nat.sub_self, List.set_cons_zero]

variable {hypos : List (List (Vec R))}

/-- The first candidate for a leg behind all hypotheses. -/
theorem addCandidate_first (hSome : hyps ≠ []) (hCand : hypos[0]? = some path)
    (hRoom : ∀ hyp ∈ hyps, roomFor maxPts leg path hyp = true) (hCounted : Counted h)
    (hPaths : h.paths = hyps) :
    ∃ t, addCandidate maxPts leg (hyps.map totalPoints) hyps.length hypos h 0 = some t ∧
      Counted t ∧ t.paths = hyps.map (· ++ [path]) := by
  obtain ⟨t, hLoop, hCountedT, hPathsT⟩ := range_total
    (f := extendHypothesis maxPts leg (hyps.map totalPoints) 0 path) (n := hyps.length)
    (I := fun k t => Counted t ∧
      t.paths = (hyps.take k).map (· ++ [path]) ++ hyps.drop k)
    (fun s k hk hs => by
      have hBefore : ((hyps.take k).map (· ++ [path])).length = k := by
        rw [List.length_map, List.length_take, Nat.min_eq_left hk.le]
      have hOld : (hyps.map totalPoints)[((hyps.take k).map (· ++ [path])).length]? =
          some (totalPoints hyps[k]) := by
        rw [hBefore, List.getElem?_map, List.getElem?_eq_getElem hk]
        rfl
      obtain ⟨t, ht, hCountedT, hPathsT⟩ := extendHypothesis_first maxPts leg
        hs.1 hOld (hs.2.trans (by rw [List.drop_eq_getElem_cons hk]))
        (hRoom _ (List.getElem_mem hk))
      rw [hBefore] at ht
      refine ⟨t, ht, hCountedT, ?_⟩
      rw [hPathsT, List.take_add_one, List.getElem?_eq_getElem hk, List.map_append,
        List.append_assoc]
      rfl)
    (s := h) ⟨hCounted, by rw [hPaths]; rfl⟩
  refine ⟨t, ?_, hCountedT, ?_⟩
  · simp only [addCandidate, hCand, hLoop, Option.bind_eq_bind, Option.bind_some]
    exact if_neg (List.length_pos_iff.mpr hSome).ne'
  · rw [hPathsT, List.take_length, List.drop_length, List.append_nil]

variable (maxPts leg) in
/-- Any other candidate for a leg, behind copies of the hypotheses that have room for it. -/
theorem addCandidate_copy {first : List (Vec R)} {more : List (List (List (Vec R)))}
    (hSome : hyps ≠ []) (hNew : 0 < newhyp) (hCand : hypos[newhyp]? = some path)
    (hCounted : Counted h) (hPaths : h.paths = hyps.map (· ++ [first]) ++ more) :
    ∃ t, addCandidate maxPts leg (hyps.map totalPoints) hyps.length hypos h newhyp = some t ∧
      Counted t ∧
      t.paths = h.paths ++ (hyps.filter (roomFor maxPts leg path)).map (· ++ [path]) := by
  obtain ⟨t, hLoop, hCountedT, hPathsT⟩ := range_total
    (f := extendHypothesis maxPts leg (hyps.map totalPoints) newhyp path) (n := hyps.length)
    (I := fun k t => Counted t ∧ t.paths = h.paths ++
      ((hyps.take k).filter (roomFor maxPts leg path)).map (· ++ [path]))
    (fun s k hk hs => by
      have hPath : s.paths[k]? = some (hyps[k] ++ [first]) := by
        rw [hs.2, hPaths, List.append_assoc, List.getElem?_append_left (by
          rw [List.length_map]
          exact hk), List.getElem?_map, List.getElem?_eq_getElem hk]
        rfl
      obtain ⟨t, ht, hCountedT, hPathsT⟩ := extendHypothesis_copy maxPts leg path
        hNew hs.1 (List.getElem?_eq_getElem hk) hPath
      refine ⟨t, ht, hCountedT, ?_⟩
      rw [hPathsT, hs.2, List.append_assoc, List.take_add_one, List.getElem?_eq_getElem hk,
        List.filter_append, List.map_append, Option.toList_some]
      congr 2
      cases hRoom : roomFor maxPts leg path hyps[k] with
      | true => rw [if_pos rfl, List.filter_cons_of_pos hRoom]; rfl
      | false =>
        rw [if_neg Bool.false_ne_true, List.filter_cons_of_neg (by rw [hRoom]; nofun)]
        rfl)
    (s := h) ⟨hCounted, (List.append_nil _).symm⟩
  refine ⟨t, ?_, hCountedT, by rw [hPathsT, List.take_length]⟩
  simp only [addCandidate, hCand, hLoop, Option.bind_eq_bind, Option.bind_some]
  exact if_neg (List.length_pos_iff.mpr hSome).ne'

end Candidate

-- ---------------------------------------------------------------------------
-- One leg
-- ---------------------------------------------------------------------------

section Behind

/-- The candidates `l` for a leg behind the hypotheses `hyps` that have room for them. -/
def behind (maxPts : Int) (leg : Nat) (hyps : List (List (List (Vec R))))
    (l : List (List (Vec R))) : List (List (List (Vec R))) :=
  l.flatMap fun path => (hyps.filter (roomFor maxPts leg path)).map (· ++ [path])

variable {maxPts : Int} {leg : Nat} {hyps : List (List (List (Vec R)))}
  {l : List (List (Vec R))} {path : List (Vec R)}

/-- The turns of the loop up to one more path. -/
theorem behind_take_succ {k : Nat} (h : l[k]? = some path) :
    behind maxPts leg hyps (l.take (k + 1)) = behind maxPts leg hyps (l.take k) ++
      (hyps.filter (roomFor maxPts leg path)).map (· ++ [path]) := by
  rw [behind, List.take_add_one, h, Option.toList_some, List.flatMap_append,
    List.flatMap_singleton]
  rfl

/-- The first path of the leg, where it fits everywhere. -/
theorem behind_cons (hRoom : ∀ hyp ∈ hyps, roomFor maxPts leg path hyp = true) :
    behind maxPts leg hyps (path :: l) =
      hyps.map (· ++ [path]) ++ behind maxPts leg hyps l := by
  rw [behind, List.flatMap_cons, List.filter_eq_self.mpr hRoom]
  rfl

/-- The loop extends all choices that fit. -/
theorem behind_eq_extendChoices (hLegs : ∀ hyp ∈ hyps, hyp.length = leg) :
    behind maxPts leg hyps l = extendChoices (fitsPoints maxPts) hyps l := by
  refine List.flatMap_congr ?_
  intro path _
  congr 1
  refine List.filter_congr ?_
  intro hyp hMem
  rw [fitsPoints, roomFor, totalPoints_concat, List.length_append, hLegs hyp hMem,
    List.length_singleton]
  congr 2
  push_cast
  ring

end Behind

section OneLeg

variable [Arith R] {maxPts : Int} {leg : Nat} {startpt : Vec R} {endpts : List (Vec R)}
  {winddir : R} {h : Hypotheses R}

/-- The candidates that the code makes for a leg. -/
theorem addLeg_eq (hLeg : leg < endpts.length) : addLeg maxPts startpt endpts winddir h leg =
    (List.range (legCandidates maxPts startpt endpts winddir leg).length).foldlM
      (addCandidate maxPts leg h.lengths h.paths.length
        (legCandidates maxPts startpt endpts winddir leg)) h := by
  have hEnd : endpts[leg]? = some (endpts.getD leg .zero) := by
    rw [List.getD_eq_getElem?_getD, List.getElem?_eq_getElem hLeg]
    rfl
  by_cases hZero : leg = 0
  · rw [addLeg, legCandidates, if_pos hZero, if_pos hZero, hEnd]
    rfl
  · have hStart : endpts[leg - 1]? = some (endpts.getD (leg - 1) .zero) := by
      rw [List.getD_eq_getElem?_getD, List.getElem?_eq_getElem (by omega)]
      rfl
    rw [addLeg, legCandidates, if_neg hZero, if_neg hZero, hEnd, hStart]
    rfl

variable (startpt winddir) in
/-- For the first leg, every candidate is a hypothesis of its own. -/
theorem addLeg_zero (hLeg : 0 < endpts.length) (hPos : 1 ≤ maxPts) :
    ∃ t, addLeg maxPts startpt endpts winddir {} 0 = some t ∧ Counted t ∧ t.paths ≠ [] ∧
      t.paths = extendChoices (fitsPoints maxPts) [[]]
        (legCandidates maxPts startpt endpts winddir 0) := by
  set hypos := legCandidates maxPts startpt endpts winddir 0 with hHypos
  obtain ⟨t, hLoop, hCounted, hPaths⟩ := range_total
    (f := addCandidate maxPts 0 [] 0 hypos) (n := hypos.length)
    (I := fun k t => Counted t ∧ t.paths = (hypos.take k).map fun path => [path])
    (fun s k hk hs => by
      refine ⟨{ paths := s.paths ++ [[hypos[k]]],
                lengths := s.lengths ++ [(hypos[k].length : Int)] }, ?_, ?_, ?_⟩
      · rw [addCandidate, List.getElem?_eq_getElem hk]
        rfl
      · have hOne : totalPoints [hypos[k]] = hypos[k].length :=
          (totalPoints_concat [] _).trans (Int.zero_add _)
        rw [Counted, List.map_append, ← hs.1, List.map_singleton, hOne]
      · rw [List.take_add_one, List.getElem?_eq_getElem hk, List.map_append, ← hs.2]
        rfl)
    (s := {}) ⟨rfl, rfl⟩
  rw [List.take_length] at hPaths
  refine ⟨t, (addLeg_eq hLeg).trans hLoop, hCounted, ?_, ?_⟩
  · obtain ⟨rest, hCons⟩ := legCandidates_cons hPos startpt endpts winddir 0
    rw [hPaths, hHypos, hCons]
    exact List.cons_ne_nil _ _
  rw [hPaths, extendChoices, List.map_eq_flatMap]
  refine List.flatMap_congr ?_
  intro path hMem
  have hFits : fitsPoints maxPts ([] ++ [path]) = true := by
    have hLength := (of_mem_legCandidates hMem).2.1
    rw [fitsPoints, totalPoints_concat, decide_eq_true_iff, totalPoints_nil]
    simpa using hLength
  have hKeep : [[]].filter (fun c => fitsPoints maxPts (c ++ [path])) = [[]] :=
    List.filter_eq_self.mpr fun c hc => by
      rw [List.mem_singleton.mp hc]
      exact hFits
  rw [hKeep]
  rfl

variable (startpt winddir) in
/-- For a later leg, the candidates behind the hypotheses so far that have room for them. The
first candidate is a single point, for which there always is room. -/
theorem addLeg_next (hLeg : leg < endpts.length) (hPos : 1 ≤ maxPts) (hCounted : Counted h)
    (hSome : h.paths ≠ []) (hLegs : ∀ hyp ∈ h.paths, hyp.length = leg)
    (hRoom : ∀ hyp ∈ h.paths, totalPoints hyp + 1 ≤ maxPts + leg) :
    ∃ t, addLeg maxPts startpt endpts winddir h leg = some t ∧ Counted t ∧
      t.paths ≠ [] ∧ t.paths = extendChoices (fitsPoints maxPts) h.paths
        (legCandidates maxPts startpt endpts winddir leg) := by
  obtain ⟨rest, hHypos⟩ := legCandidates_cons hPos startpt endpts winddir leg
  rw [addLeg_eq hLeg, hCounted, hHypos, ← behind_eq_extendChoices hLegs]
  generalize (if leg = 0 then startpt else endpts.getD (leg - 1) .zero) = start
  have hRoomFirst : ∀ hyp ∈ h.paths, roomFor maxPts leg [start] hyp = true :=
    fun hyp hMem => decide_eq_true (hRoom hyp hMem)
  obtain ⟨t, hLoop, hCountedT, hPaths⟩ := range_total
    (f := addCandidate maxPts leg (h.paths.map totalPoints) h.paths.length ([start] :: rest))
    (n := rest.length + 1)
    (I := fun k t => Counted t ∧
      t.paths = if k = 0 then h.paths else behind maxPts leg h.paths (([start] :: rest).take k))
    (fun s k hk hs => by
      rw [if_neg (Nat.succ_ne_zero k)]
      -- the first path is put behind the hypotheses, the others behind copies of them
      cases k with
      | zero =>
        obtain ⟨t, ht, hCountedT, hPathsT⟩ := addCandidate_first hSome
          (show ([start] :: rest)[0]? = some [start] from rfl) hRoomFirst hs.1 hs.2
        refine ⟨t, ht, hCountedT, ?_⟩
        rw [hPathsT, List.take_succ_cons, behind_cons hRoomFirst]
        exact (List.append_nil _).symm
      | succ m =>
        have hCand : ([start] :: rest)[m + 1]? = some ([start] :: rest)[m + 1] :=
          List.getElem?_eq_getElem hk
        have hPaths : s.paths = behind maxPts leg h.paths (([start] :: rest).take (m + 1)) :=
          hs.2
        have hCut : s.paths =
            h.paths.map (· ++ [[start]]) ++ behind maxPts leg h.paths (rest.take m) := by
          rw [hPaths, List.take_succ_cons, behind_cons hRoomFirst]
        obtain ⟨t, ht, hCountedT, hPathsT⟩ := addCandidate_copy maxPts leg
          hSome (Nat.succ_pos m) hCand hs.1 hCut
        refine ⟨t, ht, hCountedT, ?_⟩
        rw [hPathsT, hPaths, behind_take_succ hCand])
    (s := h) ⟨hCounted, rfl⟩
  have hAll : t.paths = behind maxPts leg h.paths ([start] :: rest) := by
    rw [hPaths, if_neg (Nat.succ_ne_zero _)]
    show behind _ _ _ (([start] :: rest).take ([start] :: rest).length) = _
    rw [List.take_length]
  refine ⟨t, hLoop, hCountedT, ?_, hAll⟩
  rw [hAll, behind_cons hRoomFirst]
  exact List.append_ne_nil_of_left_ne_nil (List.map_eq_nil_iff.not.mpr hSome) _

end OneLeg

-- ---------------------------------------------------------------------------
-- All legs
-- ---------------------------------------------------------------------------

section AllLegs

variable [Arith R] {maxPts : Int} {startpt : Vec R} {endpts : List (Vec R)} {winddir : R}

/-- The candidates for the first `n` legs. -/
def candidates (maxPts : Int) (startpt : Vec R) (endpts : List (Vec R)) (winddir : R) (n : Nat) :
    List (List (List (Vec R))) :=
  (List.range n).map (legCandidates maxPts startpt endpts winddir)

/-- The hypotheses after `n` legs. -/
structure Enumerated (maxPts : Int) (startpt : Vec R) (endpts : List (Vec R)) (winddir : R)
    (n : Nat) (h : Hypotheses R) : Prop where
  counted  : Counted h
  nonempty : h.paths ≠ []
  paths    : h.paths = choices (fitsPoints maxPts) (candidates maxPts startpt endpts winddir n)

/-- An enumerated hypothesis has one path for each leg, and it fits. -/
theorem Enumerated.mem {n : Nat} {h : Hypotheses R}
    (hEnum : Enumerated maxPts startpt endpts winddir n h) {hyp : List (List (Vec R))}
    (hMem : hyp ∈ h.paths) :
    hyp ∈ (candidates maxPts startpt endpts winddir n).sections ∧
      fitsAlong (fitsPoints maxPts) hyp = true := by
  rw [hEnum.paths, (choices_perm _).mem_iff] at hMem
  exact List.mem_filter.mp hMem

/-- It has as many legs as there are. -/
theorem Enumerated.length {n : Nat} {h : Hypotheses R}
    (hEnum : Enumerated maxPts startpt endpts winddir n h) {hyp : List (List (Vec R))}
    (hMem : hyp ∈ h.paths) : hyp.length = n := by
  rw [List.mem_sections_length (hEnum.mem hMem).1, candidates, List.length_map, List.length_range]

/-- Every leg is a candidate for it. -/
theorem Enumerated.leg {n : Nat} {h : Hypotheses R}
    (hEnum : Enumerated maxPts startpt endpts winddir n h) {hyp : List (List (Vec R))}
    (hMem : hyp ∈ h.paths) {i : Nat} {leg : List (Vec R)} (hLeg : hyp[i]? = some leg) :
    leg ∈ legCandidates maxPts startpt endpts winddir i := by
  obtain ⟨hLt, rfl⟩ := List.getElem?_eq_some_iff.mp hLeg
  have hSection := List.mem_sections.mp (hEnum.mem hMem).1
  have hGet := (List.forall₂_iff_get.mp hSection).2 i hLt
    (by rw [candidates, List.length_map, List.length_range, ← hEnum.length hMem]; exact hLt)
  simpa only [candidates, List.get_eq_getElem, List.getElem_map, List.getElem_range] using hGet

/-- None of its legs is empty. -/
theorem Enumerated.leg_ne_nil {n : Nat} {h : Hypotheses R}
    (hEnum : Enumerated maxPts startpt endpts winddir n h) {hyp : List (List (Vec R))}
    (hMem : hyp ∈ h.paths) : ∀ leg ∈ hyp, leg ≠ [] := by
  intro leg hLeg
  obtain ⟨i, hi⟩ := List.mem_iff_getElem?.mp hLeg
  exact List.length_pos_iff.mp (of_mem_legCandidates (hEnum.leg hMem hi)).1

/-- There is room for one point of the next leg. -/
theorem Enumerated.room {n : Nat} {h : Hypotheses R} (hn : 0 < n)
    (hEnum : Enumerated maxPts startpt endpts winddir n h) {hyp : List (List (Vec R))}
    (hMem : hyp ∈ h.paths) : totalPoints hyp + 1 ≤ maxPts + n := by
  have hLength := hEnum.length hMem
  have hFits := List.all_eq_true.mp (hEnum.mem hMem).2 (n - 1)
    (List.mem_range.mpr (by omega))
  rw [List.take_of_length_le (by omega)] at hFits
  have hTotal := of_decide_eq_true hFits
  omega

/-- The candidates for one more leg. -/
theorem candidates_succ (n : Nat) : candidates maxPts startpt endpts winddir (n + 1) =
    candidates maxPts startpt endpts winddir n ++
      [legCandidates maxPts startpt endpts winddir n] := by
  rw [candidates, List.range_succ, List.map_append]
  rfl

/-- `addLeg` enumerates the hypotheses with one more leg. -/
theorem addLeg_enumerated {n : Nat} {h : Hypotheses R} (hn : n < endpts.length)
    (hPos : 1 ≤ maxPts)
    (hEnum : if n = 0 then h = {} else Enumerated maxPts startpt endpts winddir n h) :
    ∃ t, addLeg maxPts startpt endpts winddir h n = some t ∧
      Enumerated maxPts startpt endpts winddir (n + 1) t := by
  cases n with
  | zero =>
    obtain rfl : h = {} := hEnum
    obtain ⟨t, ht, hCounted, hSome, hPaths⟩ := addLeg_zero startpt winddir hn hPos
    exact ⟨t, ht, hCounted, hSome, hPaths⟩
  | succ n =>
    have hEnum : Enumerated maxPts startpt endpts winddir (n + 1) h := hEnum
    obtain ⟨t, ht, hCounted, hSome, hPaths⟩ := addLeg_next startpt winddir hn hPos hEnum.counted
      hEnum.nonempty (fun hyp hMem => hEnum.length hMem)
      (fun hyp hMem => hEnum.room (Nat.succ_pos n) hMem)
    refine ⟨t, ht, hCounted, hSome, ?_⟩
    rw [hPaths, candidates_succ (n + 1), choices_concat, ← hEnum.paths]

/-- **Hypotheses.** For one gate or more, the loop over the legs has a result: the choices of a
candidate for each leg that do not have too many points up to any leg. -/
theorem searchHypotheses_eq {gates : List (Gate R)} (hGates : gates ≠ []) (startpt : Vec R)
    (winddir : R) :
    ∃ h, searchHypotheses startpt gates winddir = some h ∧
      Enumerated (maxPtsPerLeg gates.length) startpt (gates.map Gate.middle) winddir
        gates.length h := by
  have hPos : 1 ≤ maxPtsPerLeg gates.length := le_max_left _ _
  obtain ⟨h, hLoop, hEnum⟩ := range_total
    (f := addLeg (maxPtsPerLeg gates.length) startpt (gates.map Gate.middle) winddir)
    (n := gates.length)
    (I := fun n h => if n = 0 then h = {} else
      Enumerated (maxPtsPerLeg gates.length) startpt (gates.map Gate.middle) winddir n h)
    (fun h n hn hI => by
      obtain ⟨t, ht, hEnum⟩ := addLeg_enumerated (by rwa [List.length_map]) hPos hI
      exact ⟨t, ht, by rwa [if_neg (Nat.succ_ne_zero n)]⟩)
    (s := {}) (by rw [if_pos rfl])
  rw [if_neg (List.length_pos_iff.mpr hGates).ne'] at hEnum
  exact ⟨h, hLoop, hEnum⟩

end AllLegs

end Sailbot.Control.LinePath

import MgRobot.Lib.Polyline
import MgRobot.Sequencer.Navigator
import Mathlib.Analysis.Complex.Norm

/-!
# The length of the rest of the plan

`_plan_callback` sums the segments up from the end of the plan, and
`_remaining_plan_length` looks for the point of the plan nearest to the robot, from the last one
found and no further along the plan than a window. The way to that point and along the plan
is never shorter than the straight way to the plan's end.
-/

namespace MgRobot.Sequencer

open MgRobot.Lib.Polyline

set_option autoImplicit false

variable {κ R : Type*}

namespace NavConfig

def dist [Sub R] (cfg : NavConfig R) (p q : R × R) : R := cfg.hypot (q.1 - p.1) (q.2 - p.2)

/-- What the lengths need of `hypot`. -/
structure Metric [Field R] [LinearOrder R] (cfg : NavConfig R) : Prop where
  self : ∀ p, cfg.dist p p = 0
  triangle : ∀ p q r, cfg.dist p r ≤ cfg.dist p q + cfg.dist q r

/-- `math.hypot` without rounding. -/
def Euclidean (cfg : NavConfig ℝ) : Prop := ∀ x y, cfg.hypot x y = Real.sqrt (x * x + y * y)

theorem Euclidean.metric {cfg : NavConfig ℝ} (h : cfg.Euclidean) : cfg.Metric := by
  have hnorm : ∀ p q : ℝ × ℝ, cfg.dist p q = ‖(⟨q.1 - p.1, q.2 - p.2⟩ : ℂ)‖ := by
    intro p q
    rw [dist, h, Complex.norm_def, Complex.normSq_mk]
  constructor
  · intro p
    rw [dist, h, sub_self, sub_self, mul_zero, add_zero, Real.sqrt_zero]
  · intro p q r
    rw [hnorm, hnorm, hnorm]
    refine le_trans (le_of_eq (congrArg norm ?_)) (norm_add_le _ _)
    apply Complex.ext
    · exact (sub_add_sub_cancel' q.1 p.1 r.1).symm
    · exact (sub_add_sub_cancel' q.2 p.2 r.2).symm

end NavConfig

variable [Field R] [LinearOrder R] {cfg : NavConfig R} {points : List (R × R)}

/-! ## The suffix sums -/

omit [LinearOrder R] in
theorem length_suffixLengths (cfg : NavConfig R) : ∀ points : List (R × R),
    (suffixLengths cfg points).length = points.length
  | [] => rfl
  | [_] => rfl
  | p :: q :: rest => by
      have ih := length_suffixLengths cfg (q :: rest)
      rw [suffixLengths]
      split
      · rename_i hnil
        rw [hnil] at ih
        cases ih
      · rename_i l tail hcons
        rw [hcons] at ih
        exact congrArg (· + 1) ih

omit [LinearOrder R] in
/-- The sum at a point is the length of the plan from there on. -/
theorem suffixLengths_getD (cfg : NavConfig R) : ∀ (points : List (R × R)) (i : Nat),
    (suffixLengths cfg points).getD i 0 = arcLength cfg.dist (points.drop i)
  | [], i => by simp [suffixLengths, arcLength]
  | [p], 0 => rfl
  | [p], i + 1 => by simp [suffixLengths, arcLength]
  | p :: q :: rest, i => by
      have hlen := length_suffixLengths cfg (q :: rest)
      have ih := suffixLengths_getD cfg (q :: rest)
      rw [suffixLengths]
      split
      · rename_i hnil
        rw [hnil] at hlen
        cases hlen
      · rename_i l tail hcons
        rw [hcons] at ih
        cases i with
        | zero => exact (congrArg (· + _) (ih 0)).trans (add_comm _ _)
        | succ i => exact ih i

/-! ## The search for the nearest point -/

/-- The stretch of the plan from one of its points to another. -/
def stretch (points : List (R × R)) (i j : Nat) : List (R × R) := (points.take (j + 1)).drop i

omit [LinearOrder R] in
theorem arcLength_stretch (dist : R × R → R × R → R) {i j : Nat} (hij : i ≤ j)
    (hj : j < points.length) : arcLength dist (stretch points i j) =
      arcLength dist (points.drop i) - arcLength dist (points.drop j) := by
  have hsplit : points.drop i = (points.take j).drop i ++ points[j] :: points.drop (j + 1) := by
    rw [← List.drop_append_of_le_length, ← List.drop_eq_getElem_cons hj, List.take_append_drop]
    rw [List.length_take]
    omega
  have hstretch : stretch points i j = (points.take j).drop i ++ [points[j]] := by
    rw [stretch, List.take_succ_eq_append_getElem hj, List.drop_append_of_le_length]
    rw [List.length_take]
    omega
  rw [hsplit, hstretch, arcLength_append points[j] (points.drop (j + 1)),
    List.drop_eq_getElem_cons hj, add_sub_cancel_right]

/-- What the search has found so far, starting at `start`. -/
structure Found (cfg : NavConfig R) (points : List (R × R)) (pos : R × R) (start best : Nat)
    (bestDist : R) : Prop where
  forward : start ≤ best
  inPlan : best < points.length
  window : arcLength cfg.dist (stretch points start best) ≤ planSearchWindowM
  dist : bestDist = cfg.dist pos (points.getD best (0, 0))

variable {pos : R × R} {start : Nat}

theorem nearestPoint_found : ∀ {indices : List Nat} {best : Nat} {bestDist : R},
    (∀ i ∈ indices, start ≤ i ∧ i < points.length) → Found cfg points pos start best bestDist →
    ∃ best' bestDist', nearestPoint cfg points (suffixLengths cfg points) start pos.1 pos.2 indices
        (best, some bestDist) = (best', some bestDist') ∧
      Found cfg points pos start best' bestDist'
  | [], best, bestDist, _, h => ⟨best, bestDist, rfl, h⟩
  | i :: rest, best, bestDist, hi, h => by
      obtain ⟨hle, hlt⟩ := hi i List.mem_cons_self
      have hrest : ∀ k ∈ rest, start ≤ k ∧ k < points.length :=
        fun k hk => hi k (List.mem_cons_of_mem i hk)
      rw [nearestPoint]
      split
      · exact ⟨best, bestDist, rfl, h⟩
      · rename_i hwindow
        dsimp only
        split
        · refine nearestPoint_found hrest ⟨hle, hlt, ?_, rfl⟩
          rw [suffixLengths_getD, suffixLengths_getD, not_lt] at hwindow
          rw [arcLength_stretch cfg.dist hle hlt]
          exact hwindow
        · exact nearestPoint_found hrest h

namespace LogicalGoal

variable {g : LogicalGoal κ R}

/-- The sums belong to the plan, and the index is one of its points. -/
structure PlanRead (cfg : NavConfig R) (g : LogicalGoal κ R) : Prop where
  suffix : g.planSuffix = suffixLengths cfg g.planPoints
  index : g.planPoints ≠ [] → g.planIndex < g.planPoints.length

/-- `_remaining_plan_length` finds a point ahead within the window. -/
theorem PlanRead.remainingPlanLength [IsStrictOrderedRing R] (h : PlanRead cfg g)
    (hne : g.planPoints ≠ []) (x y : R) :
    ∃ best bestDist, Found cfg g.planPoints (x, y) g.planIndex best bestDist ∧
      g.remainingPlanLength cfg x y = ({ g with planIndex := best },
        some (bestDist + arcLength cfg.dist (g.planPoints.drop best))) := by
  have hlt := h.index hne
  have hindices : (List.range g.planPoints.length).drop g.planIndex =
      g.planIndex :: (List.range g.planPoints.length).drop (g.planIndex + 1) := by
    rw [List.drop_eq_getElem_cons (by rwa [List.length_range]), List.getElem_range]
  have hahead : ∀ i ∈ (List.range g.planPoints.length).drop (g.planIndex + 1),
      g.planIndex ≤ i ∧ i < g.planPoints.length := by
    intro i hi
    refine ⟨?_, List.mem_range.mp (List.mem_of_mem_drop hi)⟩
    obtain ⟨k, hk, rfl⟩ := List.getElem_of_mem hi
    rw [List.getElem_drop, List.getElem_range]
    omega
  have hwindow : (0 : R) ≤ planSearchWindowM := zero_le_two
  have hfirst : Found cfg g.planPoints (x, y) g.planIndex g.planIndex
      (cfg.dist (x, y) (g.planPoints.getD g.planIndex (0, 0))) := by
    refine ⟨le_rfl, hlt, ?_, rfl⟩
    rw [arcLength_stretch cfg.dist le_rfl hlt, sub_self]
    exact hwindow
  obtain ⟨best, bestDist, hsearch, hfound⟩ := nearestPoint_found hahead hfirst
  refine ⟨best, bestDist, hfound, ?_⟩
  unfold LogicalGoal.remainingPlanLength
  dsimp only
  rw [hindices, nearestPoint, if_neg (by rw [sub_self]; exact not_lt.mpr hwindow), h.suffix]
  dsimp only
  have hsearch' : nearestPoint cfg g.planPoints (suffixLengths cfg g.planPoints) g.planIndex x y
      ((List.range g.planPoints.length).drop (g.planIndex + 1))
      (g.planIndex, some (cfg.hypot ((g.planPoints.getD g.planIndex (0, 0)).1 - x)
        ((g.planPoints.getD g.planIndex (0, 0)).2 - y))) = (best, some bestDist) := hsearch
  rw [hsearch', suffixLengths_getD]
  rfl

/-- The rest of the plan is no shorter than the straight way to its end. -/
theorem PlanRead.straight_le [IsStrictOrderedRing R] (h : PlanRead cfg g) (hm : cfg.Metric)
    {last : R × R} (hlast : g.planPoints.getLast? = some last) (x y : R) :
    ∃ remaining, (g.remainingPlanLength cfg x y).2 = some remaining ∧
      cfg.dist (x, y) last ≤ remaining := by
  have hne : g.planPoints ≠ [] := by
    intro hnil
    rw [hnil] at hlast
    cases hlast
  obtain ⟨best, bestDist, ⟨_, hlt, _, rfl⟩, heq⟩ := h.remainingPlanLength hne x y
  refine ⟨_, congrArg Prod.snd heq, ?_⟩
  have hdrop := List.drop_eq_getElem_cons hlt
  have hend : (g.planPoints[best] :: g.planPoints.drop (best + 1)).getLast? = some last := by
    rw [← hdrop, List.getLast?_drop, if_neg (not_le.mpr hlt), hlast]
  have hpoint : g.planPoints.getD best (0, 0) = g.planPoints[best] := by
    rw [List.getD_eq_getElem?_getD, List.getElem?_eq_getElem hlt, Option.getD_some]
  calc cfg.dist (x, y) last
      ≤ cfg.dist (x, y) g.planPoints[best] + cfg.dist g.planPoints[best] last := hm.triangle _ _ _
    _ ≤ cfg.dist (x, y) (g.planPoints.getD best (0, 0)) +
          arcLength cfg.dist (g.planPoints.drop best) := by
        rw [hpoint, hdrop]
        gcongr
        exact dist_getLast_le_arcLength hm.self hm.triangle hend

end LogicalGoal

end MgRobot.Sequencer

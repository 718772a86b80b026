import Mathlib.Data.Int.Range
import MgRobot.Lib.ParallelFor
import MgRobot.Slam.GridUtils

/-!
# Correlative scan matching

The two searches of `scan_matching/multi_res_csm_matcher.cpp`: a coarse one over rotations
and shifts around the guess, and a fine one around its best. The rotations are shared among
threads.
-/

namespace MgRobot.Slam

set_option autoImplicit false

open MgRobot.Lib.ParallelFor

/-- `std::exp`. -/
structure Exponential (R : Type*) [Zero R] [LE R] where
  toFun : R → R
  nonneg : ∀ x, 0 ≤ toFun x

structure CsmConfig (R : Type*) where
  linearSearchWindow : R
  angularSearchWindowRad : R
  linearStep : R
  angularStepRad : R
  enableVariancePenalty : Bool
  distanceVariancePenalty : R
  angleVariancePenalty : R
  minimumDistancePenalty : R
  minimumAnglePenalty : R

/-- The scores of the cells, by `gy * width + gx`. -/
structure LikelihoodGrid (R : Type*) [Zero R] [LE R] where
  originX : R
  originY : R
  resolution : R
  width : Int
  height : Int
  data : Int → R
  nonneg : ∀ i, 0 ≤ data i

structure Candidate (R : Type*) where
  score : R
  cx : R
  cy : R
  theta : R
  order : Nat
  updated : Bool
  deriving DecidableEq, Repr

variable {R : Type*} [Field R] [LinearOrder R] [FloorRing R]

namespace LikelihoodGrid

/-- `grid_[i] = v` for every greater value in turn. -/
def raise (data : Int → R) (writes : List (Int × R)) : Int → R :=
  writes.foldl (fun d w => if d w.1 < w.2 then Function.update d w.1 w.2 else d) data

omit [Field R] [FloorRing R] in
theorem le_raise (data : Int → R) (writes : List (Int × R)) (i : Int) :
    data i ≤ raise data writes i := by
  induction writes generalizing data with
  | nil => exact le_rfl
  | cons w rest ih =>
      refine le_trans ?_ (ih (if data w.1 < w.2 then Function.update data w.1 w.2 else data))
      split
      · rename_i h
        by_cases hi : i = w.1
        · subst hi
          rw [Function.update_self]
          exact h.le
        · rw [Function.update_of_ne hi]
      · exact le_rfl

/-- The cells around a point of the target and their scores. -/
def kernel (exp : Exponential R) (resolution sigma originX originY : R) (width height : Int)
    (p : R × R) : List (Int × R) :=
  let inv := 1 / resolution
  let maxEvalDist := 3 * sigma
  let kernelCells := ⌈maxEvalDist * inv⌉
  let gx := truncToInt ((p.1 - originX) * inv)
  let gy := truncToInt ((p.2 - originY) * inv)
  (Int.range (max 0 (gy - kernelCells)) (min (height - 1) (gy + kernelCells) + 1)).flatMap
    fun (y : Int) =>
    (Int.range (max 0 (gx - kernelCells)) (min (width - 1) (gx + kernelCells) + 1)).filterMap
      fun (x : Int) =>
      let dx := originX + (x + 1 / 2) * resolution - p.1
      let dy := originY + (y + 1 / 2) * resolution - p.2
      let distSq := dx * dx + dy * dy
      if distSq ≤ maxEvalDist * maxEvalDist then
        some (y * width + x, exp.toFun (-distSq / (2 * sigma * sigma)))
      else none

/-- The bands of rows that the threads draw are disjoint, so the points are drawn one by one. -/
def build (exp : Exponential R) (resolution sigma margin : R) (pts : List (R × R)) :
    LikelihoodGrid R :=
  match pts with
  | [] => ⟨0, 0, resolution, 0, 0, fun _ => 0, fun _ => le_rfl⟩
  | p :: rest =>
      let originX := (rest.map Prod.fst).foldl min p.1 - margin
      let originY := (rest.map Prod.snd).foldl min p.2 - margin
      let extentX := (rest.map Prod.fst).foldl max p.1 + margin - originX
      let extentY := (rest.map Prod.snd).foldl max p.2 + margin - originY
      let width := ⌈extentX * (1 / resolution)⌉ + 1
      let height := ⌈extentY * (1 / resolution)⌉ + 1
      { originX := originX
        originY := originY
        resolution := resolution
        width := width
        height := height
        data := raise (fun _ => 0)
          (pts.flatMap (kernel exp resolution sigma originX originY width height))
        nonneg := le_raise (fun _ => 0) _ }

variable (grid : LikelihoodGrid R)

def invResolution : R := 1 / grid.resolution

def lookup (x y : R) : R :=
  let gx := truncToInt ((x - grid.originX) * grid.invResolution)
  let gy := truncToInt ((y - grid.originY) * grid.invResolution)
  if gx < 0 ∨ grid.width ≤ gx ∨ gy < 0 ∨ grid.height ≤ gy then 0
  else grid.data (gy * grid.width + gx)

end LikelihoodGrid

/-- A column or row of the grid; `none` is the `-1` of the tables. -/
def gridIndex (origin inv : R) (size : Int) (v : R) : Option Int :=
  let g := truncToInt ((v - origin) * inv)
  if 0 ≤ g ∧ g < size then some g else none

/-- The two neighbouring columns or rows of a coordinate and their weights. -/
structure BilinearTap (R : Type*) where
  g0 : Int
  g1 : Int
  w0 : R
  w1 : R
  valid : Bool

def bilinearTap (origin inv : R) (size : Int) (v : R) : BilinearTap R :=
  let f := (v - origin) * inv - 1 / 2
  let g0 := ⌊f⌋
  let w1 := f - g0
  { g0 := g0
    g1 := g0 + 1
    w0 := 1 - w1
    w1 := w1
    valid := decide (0 ≤ g0 ∧ g0 + 1 < size) }

/-- The score of the cells that the points fall on. -/
def coarseSum (grid : LikelihoodGrid R) (rPts : List (R × R)) (cx cy : R) : R :=
  (rPts.map fun p =>
    match gridIndex grid.originX grid.invResolution grid.width (p.1 + cx),
      gridIndex grid.originY grid.invResolution grid.height (p.2 + cy) with
    | some gx, some gy => grid.data (gy * grid.width + gx)
    | _, _ => 0).sum

/-- The score between the cells around the points. -/
def fineSum (grid : LikelihoodGrid R) (rPts : List (R × R)) (cx cy : R) : R :=
  (rPts.map fun p =>
    let bx := bilinearTap grid.originX grid.invResolution grid.width (p.1 + cx)
    let byy := bilinearTap grid.originY grid.invResolution grid.height (p.2 + cy)
    if bx.valid && byy.valid then
      byy.w0 * (bx.w0 * grid.data (byy.g0 * grid.width + bx.g0) +
          bx.w1 * grid.data (byy.g0 * grid.width + bx.g1)) +
        byy.w1 * (bx.w0 * grid.data (byy.g1 * grid.width + bx.g0) +
          bx.w1 * grid.data (byy.g1 * grid.width + bx.g1))
    else grid.lookup (p.1 + cx) (p.2 + cy)).sum

/-- `std::unique`, which compares with the last element kept. -/
def uniqueFrom {α : Type*} (eq : α → α → Bool) (kept : α) : List α → List α
  | [] => []
  | y :: rest => if eq kept y then uniqueFrom eq kept rest else y :: uniqueFrom eq y rest

def unique {α : Type*} (eq : α → α → Bool) : List α → List α
  | [] => []
  | x :: rest => x :: uniqueFrom eq x rest

/-- The multiples of a step from `-steps` to `steps`. -/
def offsets (steps : Int) (step : R) : List R :=
  (Int.range (-steps) (steps + 1)).map fun (i : Int) => i * step

def int64Max : Nat := 2 ^ 63 - 1

/-- What a search is about: the target, the points of the scan and the guess. -/
structure SearchInput (R : Type*) [Zero R] [LE R] where
  grid : LikelihoodGrid R
  dstPts : List (R × R)
  guess : Pose R

namespace SearchInput

variable (cfg : CsmConfig R) (m : Numerics R) (exp : Exponential R) (q : SearchInput R)

def centroid : R × R :=
  ((q.dstPts.map Prod.fst).sum / q.dstPts.length, (q.dstPts.map Prod.snd).sum / q.dstPts.length)

/-- Where the guess puts the centroid. -/
def initCenter : R × R :=
  let p := m.rotate q.guess.yaw q.centroid.1 q.centroid.2
  (q.guess.x + p.1, q.guess.y + p.2)

def rotatedCentered (theta : R) : List (R × R) :=
  q.dstPts.map fun p => m.rotate theta (p.1 - q.centroid.1) (p.2 - q.centroid.2)

def anglePenaltyAt (theta : R) : R :=
  if cfg.enableVariancePenalty && decide (0 < cfg.angleVariancePenalty) then
    let dyaw := m.angleDiff theta q.guess.yaw
    let varYaw := cfg.angleVariancePenalty * cfg.angleVariancePenalty
    max cfg.minimumAnglePenalty (exp.toFun (-(1 / 2) * (dyaw * dyaw) / varYaw))
  else 1

def distancePenaltyAt (distSq : R) : R :=
  if cfg.enableVariancePenalty && decide (0 < cfg.distanceVariancePenalty) then
    let varD := cfg.distanceVariancePenalty * cfg.distanceVariancePenalty
    max cfg.minimumDistancePenalty (exp.toFun (-(1 / 2) * distSq / varD))
  else 1

/-- The rotations of the coarse search with their indices. -/
def yawCandidates : List (R × Nat) :=
  let yawSteps := ⌈cfg.angularSearchWindowRad / cfg.angularStepRad⌉
  let yaws := q.guess.yaw :: 0 :: (Int.range (-yawSteps) (yawSteps + 1)).map fun (i : Int) =>
    m.normalizeAngle (q.guess.yaw + i * cfg.angularStepRad)
  (unique (fun a b => decide (|m.angleDiff a b| < 1 / 10000))
    (yaws.mergeSort fun a b => decide (a ≤ b))).zipIdx

/-- The shifts of both searches, in `x` and in `y`. -/
def coarseOffsets : List R := offsets ⌈cfg.linearSearchWindow / cfg.linearStep⌉ cfg.linearStep

def fineOffsets : List R :=
  offsets (max 1 (roundToInt (cfg.linearStep / (1 / 100)))) (1 / 100)

def fineAngStepRad : R := 1 / 5 * m.pi / 180

/-- The rotations of the fine search, as multiples of its step, with their indices. -/
def fineSteps : List (Int × Nat) :=
  let steps := max 1 (roundToInt (cfg.angularStepRad / fineAngStepRad m))
  (Int.range (-steps) (steps + 1)).zipIdx

/-- Candidates of one rotation, in the order of the loops over the shifts. -/
def visit (a : Nat) (shifts : List R) (at' : R → R → Nat → Candidate R) : List (Candidate R) :=
  shifts.zipIdx.flatMap fun dx => shifts.zipIdx.map fun dy =>
    at' dx.1 dy.1 ((a * shifts.length + dx.2) * shifts.length + dy.2)

def coarseCandidates (a : R × Nat) : List (Candidate R) :=
  let rPts := q.rotatedCentered m a.1
  let init := q.initCenter m
  visit a.2 (coarseOffsets cfg) fun dx dy order =>
    { score := coarseSum q.grid rPts (init.1 + dx) (init.2 + dy) * (1 / q.dstPts.length) *
        q.anglePenaltyAt cfg m exp a.1 * distancePenaltyAt cfg exp (dx * dx + dy * dy)
      cx := init.1 + dx
      cy := init.2 + dy
      theta := a.1
      order := order
      updated := false }

def fineCandidates (best : Candidate R) (a : Int × Nat) : List (Candidate R) :=
  let theta := m.normalizeAngle (best.theta + a.1 * fineAngStepRad m)
  let rPts := q.rotatedCentered m theta
  let init := q.initCenter m
  visit a.2 (fineOffsets cfg) fun dx dy order =>
    let cx := best.cx + dx
    let cy := best.cy + dy
    let totalDx := cx - init.1
    let totalDy := cy - init.2
    { score := fineSum q.grid rPts cx cy * (1 / q.dstPts.length) *
        q.anglePenaltyAt cfg m exp theta *
        distancePenaltyAt cfg exp (totalDx * totalDx + totalDy * totalDy)
      cx := cx
      cy := cy
      theta := theta
      order := order
      updated := true }

/-- The guess, which every candidate of the coarse search beats. -/
def initCandidate : Candidate R :=
  ⟨-1, (q.initCenter m).1, (q.initCenter m).2, q.guess.yaw, int64Max, false⟩

end SearchInput

/-- The candidate after a visit of the coarse search, and in the merge of its threads. -/
def takeCoarse (best c : Candidate R) : Candidate R :=
  if best.score < c.score ∨ c.score = best.score ∧ c.order < best.order then c else best

/-- The candidate after a visit of the fine search. -/
def takeFine (best c : Candidate R) : Candidate R :=
  if best.updated then takeCoarse best c
  else if best.score < c.score then c else best

/-- The merge of the threads of the fine search, with `stage2_found`. -/
def mergeFine (s : Candidate R × Bool) (c : Candidate R) : Candidate R × Bool :=
  if !c.updated then s
  else if s.2 = false ∨ s.1.score < c.score ∨ c.score = s.1.score ∧ c.order < s.1.order then
    (c, true)
  else s

/-- The rotations that the threads take in each of the two searches, in any order. -/
structure SearchSchedule (n : Nat) {α β : Type*} (coarse : List α) (fine : List β) where
  coarse : Schedule n coarse
  fine : Schedule n fine

namespace SearchInput

variable (cfg : CsmConfig R) (m : Numerics R) (exp : Exponential R) (q : SearchInput R)
variable {n : Nat}

def searchCoarse (s : Schedule n (q.yawCandidates cfg m)) : Candidate R :=
  let threadBest := run (fun best a => (q.coarseCandidates cfg m exp a).foldl takeCoarse best)
    (fun _ => q.initCandidate m) s.steps
  ((List.finRange n).map threadBest).foldl takeCoarse (q.initCandidate m)

def searchFine (best : Candidate R) (s : Schedule n (fineSteps cfg m)) : Candidate R :=
  let threadBest := run (fun b a => (q.fineCandidates cfg m exp best a).foldl takeFine b)
    (fun _ => { best with order := int64Max, updated := false }) s.steps
  (((List.finRange n).map threadBest).foldl mergeFine (best, false)).1

/-- The search of `run_match`. -/
def search (s : SearchSchedule n (q.yawCandidates cfg m) (fineSteps cfg m)) : Candidate R :=
  q.searchFine cfg m exp (q.searchCoarse cfg m exp s.coarse) s.fine

end SearchInput

end MgRobot.Slam

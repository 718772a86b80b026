import MgRobot.Lib.Numerals
import Mathlib.Algebra.Field.Rat
import Mathlib.Order.Defs.LinearOrder

/-!
# Waypoints and progress

The data the sequencer and the navigator read of a waypoint file, the stall monitor of
a goal and the geometry of the through-point judgement. Coordinates, tolerances and
distances live in an ordered field `R`, where the source has floats; distances are
exact, and `hypot` is the one library function they rest on.
-/

namespace MgRobot.Sequencer

set_option autoImplicit false

section Files

variable {R : Type*}

structure ActionConfig where
  type : String
  mode : String := "normal"
  deriving DecidableEq, Repr

structure Pose (R : Type*) where
  x : R
  y : R
  deriving DecidableEq, Repr

structure NavigationConfig (R : Type*) where
  throughTolerance : R
  isThroughPoint : Bool
  deriving DecidableEq, Repr

structure Waypoint (R : Type*) where
  index : Int
  pose : Pose R
  navigation : NavigationConfig R
  onReachedActions : List ActionConfig
  deriving DecidableEq, Repr

/-- A waypoint to stop at, for concrete runs. -/
def Waypoint.stop (x : ℚ) : Waypoint ℚ where
  index := 0
  pose := ⟨x, 0⟩
  navigation := ⟨3, false⟩
  onReachedActions := []

structure WaypointList (R : Type*) where
  waypoints : List (Waypoint R)
  deriving DecidableEq, Repr

namespace WaypointList

/-- `waypoints[index]`: a negative index counts from the end, and `none` is the
`IndexError` of an index outside the list. -/
def get (l : WaypointList R) (index : Int) : Option (Waypoint R) :=
  if 0 ≤ index then l.waypoints[index.toNat]?
  else if 0 ≤ l.waypoints.length + index then l.waypoints[(l.waypoints.length + index).toNat]?
  else none

def getSize (l : WaypointList R) : Nat := l.waypoints.length

theorem get_isSome_of_lt (l : WaypointList R) {index : Int} (h0 : 0 ≤ index)
    (h : index < l.getSize) : ∃ w, l.get index = some w := by
  have hn : index.toNat < l.waypoints.length := by unfold getSize at h; omega
  exact ⟨l.waypoints[index.toNat], by simp [get, h0, hn]⟩

theorem get_eq_none_of_le (l : WaypointList R) {index : Int} (h : l.getSize ≤ index) :
    l.get index = none := by
  unfold getSize at h
  have h0 : 0 ≤ index := by omega
  simp only [get, h0, if_true, List.getElem?_eq_none_iff]
  omega

theorem lt_of_get_eq_some (l : WaypointList R) {index : Int} {w : Waypoint R}
    (h : l.get index = some w) : index < l.getSize := by
  by_contra hle
  rw [l.get_eq_none_of_le (by omega)] at h
  cases h

end WaypointList

end Files

section Progress

variable {R : Type*}

/-- Node parameters and the mathematical library the navigator uses. -/
structure NavConfig (R : Type*) where
  btXmlNormal : String
  btXmlQueueWait : String
  planGoalMatchTolerance : R
  hypot : R → R → R

structure ProgressStatus (R : Type*) where
  stalledSec : R
  numberOfRecoveries : Int

structure ProgressMonitor (R : Type*) where
  minProgressM : R
  anchor : Option (R × R)
  anchorTime : Option R
  numberOfRecoveries : Int

variable [Field R] [LinearOrder R]

namespace ProgressMonitor

def init (minProgressM : R) : ProgressMonitor R where
  minProgressM := minProgressM
  anchor := none
  anchorTime := none
  numberOfRecoveries := 0

def reset (m : ProgressMonitor R) (now : R) : ProgressMonitor R :=
  { m with anchor := none, anchorTime := some now, numberOfRecoveries := 0 }

def update (cfg : NavConfig R) (m : ProgressMonitor R) (x y : R) (numberOfRecoveries : Int)
    (now : R) : ProgressMonitor R :=
  let m := { m with numberOfRecoveries := numberOfRecoveries }
  match m.anchor with
  | none => { m with anchor := some (x, y), anchorTime := some now }
  | some (ax, ay) =>
      if m.minProgressM ≤ cfg.hypot (x - ax) (y - ay) then
        { m with anchor := some (x, y), anchorTime := some now }
      else m

def status (m : ProgressMonitor R) (now : R) : ProgressStatus R where
  stalledSec :=
    match m.anchorTime with
    | none => 0
    | some t => max 0 (now - t)
  numberOfRecoveries := m.numberOfRecoveries

end ProgressMonitor

/-- `nanoseconds / 1e9`. -/
def toSec (nanoseconds : Int) : R := (nanoseconds : R) / 10 ^ 9

/-- `_PLAN_SEARCH_WINDOW_M`. -/
def planSearchWindowM : R := 2

/-- The length of the plan from each of its points to the last one. -/
def suffixLengths (cfg : NavConfig R) : List (R × R) → List R
  | [] => []
  | [_] => [0]
  | p :: q :: rest =>
      match suffixLengths cfg (q :: rest) with
      | [] => []
      | l :: tail => (l + cfg.hypot (q.1 - p.1) (q.2 - p.2)) :: l :: tail

/-- The loop of `_remaining_plan_length` over the remaining indices: the nearest plan
point and its distance so far, `none` standing for the initial infinity. -/
def nearestPoint (cfg : NavConfig R) (points : List (R × R)) (suffix : List R) (start : Nat)
    (x y : R) : List Nat → Nat × Option R → Nat × Option R
  | [], acc => acc
  | i :: rest, (best, bestDist) =>
      if planSearchWindowM < suffix.getD start 0 - suffix.getD i 0 then (best, bestDist)
      else
        let p := points.getD i (0, 0)
        let d := cfg.hypot (p.1 - x) (p.2 - y)
        match bestDist with
        | none => nearestPoint cfg points suffix start x y rest (i, some d)
        | some b =>
            if d < b then nearestPoint cfg points suffix start x y rest (i, some d)
            else nearestPoint cfg points suffix start x y rest (best, some b)

end Progress

end MgRobot.Sequencer

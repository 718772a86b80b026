import MgRobot.Lib.Numerals
import Mathlib.Algebra.Field.Defs
import Mathlib.LinearAlgebra.Matrix.Defs
import Mathlib.Order.Defs.LinearOrder

/-!
# Data types and configuration of the SLAM node

`core/data_types.hpp` and the part of `core/config.hpp` that the pose graph, the
optimizer and the orchestrator read. `R` is the type of the doubles.
-/

namespace MgRobot.Slam

set_option autoImplicit false

variable {R : Type*}

/-- The scan itself is seen by the matchers and the renderer only. -/
structure ScanData (R : Type*) where
  timestamp : R
  deriving DecidableEq, Repr

structure OdomData (R : Type*) where
  timestamp : R
  x : R
  y : R
  yaw : R
  deriving DecidableEq, Repr

structure GnssData (R : Type*) where
  timestamp : R
  x : R
  y : R
  covariance : Matrix (Fin 2) (Fin 2) R
  fixStatus : Int

structure SensorFrame (R : Type*) where
  scan : Option (ScanData R)
  odom : OdomData R
  gnss : Option (GnssData R)

/-- The `(x, y, yaw)` tuples of the optimizer and of `last_rendered_poses_`. -/
structure Pose (R : Type*) where
  x : R
  y : R
  yaw : R
  deriving DecidableEq, Repr

structure PoseNode (R : Type*) where
  index : Nat
  timestamp : R
  x : R
  y : R
  yaw : R
  scan : Option (ScanData R)
  deriving DecidableEq, Repr

structure MatchResult (R : Type*) where
  dx : R
  dy : R
  dyaw : R
  converged : Bool
  information : Matrix (Fin 3) (Fin 3) R
  score : R

structure PoseEdge (R : Type*) where
  fromIndex : Nat
  toIndex : Nat
  dx : R
  dy : R
  dyaw : R
  information : Matrix (Fin 3) (Fin 3) R
  score : R
  isOdomFallback : Bool

structure GnssPrior (R : Type*) where
  nodeIndex : Nat
  x : R
  y : R
  information : Matrix (Fin 2) (Fin 2) R

structure ScanProcessResult (R : Type*) where
  node : Option (PoseNode R)
  loopClosed : Bool
  rerenderRequired : Bool
  newSeqEdge : Option (PoseEdge R)
  newLoopEdges : List (PoseEdge R)
  newGnssPrior : Option (GnssPrior R)

def Pose.pos (p : Pose R) : R × R := (p.x, p.y)

namespace PoseNode

def pos (n : PoseNode R) : R × R := (n.x, n.y)

def pose (n : PoseNode R) : Pose R := ⟨n.x, n.y, n.yaw⟩

def withPose (n : PoseNode R) (p : Pose R) : PoseNode R :=
  { n with x := p.x, y := p.y, yaw := p.yaw }

end PoseNode

namespace PoseEdge

/-- `std::abs(e.to_index - e.from_index)`. -/
def span (e : PoseEdge R) : Nat := ((e.toIndex : Int) - e.fromIndex).natAbs

/-- The pair of node indices that an edge joins. -/
def ends (e : PoseEdge R) : Nat × Nat := (e.fromIndex, e.toIndex)

theorem span_of_le (e : PoseEdge R) (h : e.fromIndex ≤ e.toIndex) :
    e.span = e.toIndex - e.fromIndex := by
  unfold span
  omega

end PoseEdge

structure KeyframeConfig (R : Type*) where
  minTranslation : R
  minRotation : R

/-- An axis with information `0` is not fused. -/
structure OdomFusionConfig (R : Type*) where
  informationX : R
  informationY : R
  informationYaw : R

structure NearKeyframeLinkConfig (R : Type*) where
  enabled : Bool
  bufferSize : Int
  maxDistance : R
  minIndexDiff : Int
  maxLinksPerNode : Int
  maxTranslationDrift : R
  maxRotationDriftDeg : R
  minEigenvalue : R

structure ScanMatchingConfig (R : Type*) where
  enabled : Bool
  maxTranslationDrift : R
  nearLinks : NearKeyframeLinkConfig R
  odomFusion : OdomFusionConfig R

structure LoopClosureConfig (R : Type*) where
  enabled : Bool
  searchRadius : R
  minNodeGap : Int
  maxDyawDeg : R
  crossingRejectDeg : R
  maxScore : R

structure GnssAnchorConfig (R : Type*) where
  minFixStatus : Int
  sigmaM : R
  initYawSigmaRad : R
  initDistanceM : R

structure GnssSigmaConfig (R : Type*) where
  fixM : R
  floatM : R

structure GnssDynamicReanchorConfig (R : Type*) where
  enabled : Bool
  minFixStatus : Int
  minSamples : Int
  minDistanceM : R
  maxResidualRmsM : R

structure GnssLeverArmConfig (R : Type*) where
  x : R
  y : R
  deriving DecidableEq, Repr

structure GnssConfig (R : Type*) where
  enabled : Bool
  minIntervalM : R
  maxInnovationM : R
  robustKernel : String
  robustKernelScale : R
  priorMinFixStatus : Int
  dynamicReanchor : GnssDynamicReanchorConfig R
  /-- `validation.max_sigma_m`. -/
  maxSigmaM : R
  anchor : GnssAnchorConfig R
  sigma : GnssSigmaConfig R
  leverArm : GnssLeverArmConfig R

structure SlamConfig (R : Type*) where
  keyframe : KeyframeConfig R
  scanMatching : ScanMatchingConfig R
  loopClosure : LoopClosureConfig R
  gnss : GnssConfig R
  /-- `optimization.rerender_threshold_m`. -/
  rerenderThresholdM : R
  /-- `map.skip_intermediate_rendering`. -/
  skipIntermediateRendering : Bool

/-- The defaults of `config.hpp`. -/
def SlamConfig.defaults [Field R] : SlamConfig R where
  keyframe := ⟨1 / 2, 1 / 2⟩
  scanMatching := ⟨true, 8 / 100, ⟨true, 10, 2, 2, 3, 4 / 10, 15, 10⟩, ⟨1500, 0, 0⟩⟩
  loopClosure := ⟨true, 2, 50, 145, 45, 0⟩
  gnss :=
    { enabled := true
      minIntervalM := 1
      maxInnovationM := 0
      robustKernel := "huber"
      robustKernelScale := 1345 / 1000
      priorMinFixStatus := 1
      dynamicReanchor := ⟨false, 2, 10, 10, 1⟩
      maxSigmaM := 5
      anchor := ⟨0, 5 / 100, 10, 2⟩
      sigma := ⟨2 / 100, 1 / 2⟩
      leverArm := ⟨26 / 100, -13 / 100⟩ }
  rerenderThresholdM := 1 / 10
  skipIntermediateRendering := false

end MgRobot.Slam

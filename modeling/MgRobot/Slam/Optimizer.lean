import MgRobot.Slam.DataTypes

/-!
# The iSAM2 optimizer

`optimizer/isam2_optimizer.cpp` around GTSAM: the factors and values it is handed,
and the estimate it serves. What an `isam2_->update` answers is a parameter of the
frame; `none` is an exception.
-/

namespace MgRobot.Slam

set_option autoImplicit false

structure PriorFactor (R : Type*) where
  nodeIndex : Nat
  pose : Pose R
  posSigma : R
  yawSigma : R

structure BetweenFactor (R : Type*) where
  fromIndex : Nat
  toIndex : Nat
  dx : R
  dy : R
  dyaw : R
  information : Matrix (Fin 3) (Fin 3) R

/-- `LeverArmPositionFactor` with its noise model. -/
structure GnssFactor (R : Type*) where
  nodeIndex : Nat
  measured : R × R
  sigmaXy : R
  robustKernel : String
  robustKernelScale : R
  leverArm : GnssLeverArmConfig R

/-- `geom_graph_` is the prior and the between factors, `gnss_graph_` the GNSS factors; of
`pending_graph_` only its size is read. -/
structure ISAM2Optimizer (R : Type*) where
  initialized : Bool
  priorFactor : Option (PriorFactor R)
  betweenFactors : List (BetweenFactor R)
  gnssFactors : List (GnssFactor R)
  pendingGraph : Nat
  pendingValues : List (Nat × Pose R)
  latestEstimate : Nat → Option (Pose R)

/-- The estimate after `isam2_->update`, for what the optimizer holds. -/
abbrev Isam2 (R : Type*) := ISAM2Optimizer R → Option (Nat → Option (Pose R))

variable {R : Type*}

/-- The between factor of an edge. -/
def PoseEdge.factor (e : PoseEdge R) : BetweenFactor R :=
  ⟨e.fromIndex, e.toIndex, e.dx, e.dy, e.dyaw, e.information⟩

namespace ISAM2Optimizer

def new : ISAM2Optimizer R := ⟨false, none, [], [], 0, [], fun _ => none⟩

/-- `initialize`: a fresh solver with one node and its prior. -/
def initializeAt (nodeIndex : Nat) (pose : Pose R) (posSigma yawSigma : R) : ISAM2Optimizer R :=
  ⟨true, some ⟨nodeIndex, pose, posSigma, yawSigma⟩, [], [], 1, [(nodeIndex, pose)],
    fun _ => none⟩

variable (o : ISAM2Optimizer R)

/-- `add_between_factor` with the fields of an edge. -/
def addBetweenFactor (e : PoseEdge R) : ISAM2Optimizer R :=
  if o.initialized then
    { o with
      betweenFactors := o.betweenFactors ++ [e.factor]
      pendingGraph := o.pendingGraph + 1 }
  else o

/-- Every kernel but `cauchy` is taken as `huber`. -/
def addGnssPrior (nodeIndex : Nat) (x y sigmaXy : R) (kernel : String) (scale : R)
    (leverArm : GnssLeverArmConfig R) : ISAM2Optimizer R :=
  if o.initialized then
    let kernel := if kernel = "cauchy" then "cauchy" else "huber"
    { o with
      gnssFactors := o.gnssFactors ++ [⟨nodeIndex, (x, y), sigmaXy, kernel, scale, leverArm⟩]
      pendingGraph := o.pendingGraph + 1 }
  else o

def addInitialEstimate (nodeIndex : Nat) (pose : Pose R) : ISAM2Optimizer R :=
  if o.initialized ∧ (o.pendingValues.lookup nodeIndex).isNone then
    { o with pendingValues := o.pendingValues ++ [(nodeIndex, pose)] }
  else o

def update (isam2 : Isam2 R) : Option (ISAM2Optimizer R) :=
  if !o.initialized || (o.pendingGraph == 0 && o.pendingValues.isEmpty) then some o
  else (isam2 o).map fun estimate =>
    { o with latestEstimate := estimate, pendingGraph := 0, pendingValues := [] }

def getPose (nodeIndex : Nat) : Option (Pose R) :=
  if o.initialized then o.latestEstimate nodeIndex else none

/-- What stays when values are added and the graph is solved. -/
structure SameFactors (o o' : ISAM2Optimizer R) : Prop where
  initialized : o'.initialized = o.initialized
  betweenFactors : o'.betweenFactors = o.betweenFactors
  gnssFactors : o'.gnssFactors = o.gnssFactors

variable {o}

theorem addInitialEstimate_sameFactors (nodeIndex : Nat) (pose : Pose R) :
    SameFactors o (o.addInitialEstimate nodeIndex pose) := by
  unfold addInitialEstimate
  split
  · exact ⟨rfl, rfl, rfl⟩
  · exact ⟨rfl, rfl, rfl⟩

theorem SameFactors.of_update {o' : ISAM2Optimizer R} {isam2 : Isam2 R}
    (h : o.update isam2 = some o') : SameFactors o o' := by
  unfold update at h
  split at h
  · obtain rfl := Option.some.inj h
    exact ⟨rfl, rfl, rfl⟩
  · obtain ⟨e, _, rfl⟩ := Option.map_eq_some_iff.mp h
    exact ⟨rfl, rfl, rfl⟩

/-- Edges are handed over one by one. -/
theorem foldl_addBetweenFactor (es : List (PoseEdge R)) (h : o.initialized = true) :
    (es.foldl addBetweenFactor o).initialized = true ∧
      (es.foldl addBetweenFactor o).betweenFactors = o.betweenFactors ++ es.map (·.factor) ∧
      (es.foldl addBetweenFactor o).gnssFactors = o.gnssFactors := by
  induction es generalizing o with
  | nil => exact ⟨h, (List.append_nil _).symm, rfl⟩
  | cons e rest ih =>
      have ha : o.addBetweenFactor e = { o with
          betweenFactors := o.betweenFactors ++ [e.factor]
          pendingGraph := o.pendingGraph + 1 } := if_pos h
      rw [List.foldl_cons, ha]
      obtain ⟨hi, hb, hg⟩ := ih (o := { o with
        betweenFactors := o.betweenFactors ++ [e.factor]
        pendingGraph := o.pendingGraph + 1 }) h
      refine ⟨hi, ?_, hg⟩
      rw [hb, List.append_assoc]
      rfl

end ISAM2Optimizer

end MgRobot.Slam

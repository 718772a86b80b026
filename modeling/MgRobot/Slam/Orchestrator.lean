import Mathlib.LinearAlgebra.Matrix.Notation
import Mathlib.Logic.Function.Basic
import MgRobot.Slam.Builders
import MgRobot.Slam.Optimizer

/-!
# The graph orchestrator

`GraphOrchestrator::process_frame` and what it calls: the GNSS initialisation, the
hand-over of new edges to the optimizer, the dynamic re-anchoring, the GNSS priors,
and the poses that go back to the builder. The anchor manager is its pair of UTM
coordinates; counters that are only logged are left out.
-/

namespace MgRobot.Slam

set_option autoImplicit false

/-- `state_`. -/
inductive Phase where
  | initializing
  | running
  deriving DecidableEq, Repr

structure ReanchorSample (R : Type*) where
  slamPos : R × R
  utmPos : R × R
  deriving DecidableEq, Repr

structure GraphOrchestrator (R : Type*) where
  poseGraph : PoseGraphBuilder R
  optimizer : ISAM2Optimizer R
  /-- `anchor_utm()`. -/
  anchor : Option (R × R)
  dynamicReanchored : Bool
  lastNodeIndex : Int
  lastLoopEdgeCount : Nat
  initialized : Bool
  state : Phase
  initRotation : R
  lastRenderedPoses : Nat → Option (Pose R)
  lastGnssTimestamp : Option R
  lastGnssPos : Option (R × R)
  firstRenderDone : Bool
  reanchorSamples : List (ReanchorSample R)
  initGnssPts : List (R × R)
  initOdomPts : List (R × R)

/-- A frame, with what the matchers and iSAM2 answer while it is processed. -/
structure Frame (R : Type*) where
  sensor : SensorFrame R
  matchers : Matchers R
  isam2 : Isam2 R

variable {R : Type*}

/-- The edges whose ends are at least 15 nodes apart, which pass for loop edges. -/
def longEdges (es : List (PoseEdge R)) : List (PoseEdge R) := es.filter fun e => 15 ≤ e.span

def getLatestSeqEdge (nodeIndex : Nat) (allEdges : List (PoseEdge R)) : Option (PoseEdge R) :=
  allEdges.reverse.find? fun e => e.span = 1 ∧ e.toIndex = nodeIndex

/-- The local mesh links to a node, last one first. -/
def meshEdges (nodeIndex : Nat) (allEdges : List (PoseEdge R)) : List (PoseEdge R) :=
  allEdges.reverse.filter fun e => e.toIndex = nodeIndex ∧ 1 < e.span ∧ e.span < 15

/-- A frame whose scan makes no node. -/
def ScanProcessResult.rejected : ScanProcessResult R := ⟨none, false, false, none, [], none⟩

variable [Field R] [LinearOrder R]
variable (cfg : SlamConfig R) (m : Numerics R)

def GnssData.pos (g : GnssData R) : R × R := (g.x, g.y)

/-- `to_local`. -/
def GnssData.toLocal (g : GnssData R) (anchor : R × R) : R × R := (g.x - anchor.1, g.y - anchor.2)

/-- `sigma_from_gnss`. -/
def GnssData.sigma (g : GnssData R) : R :=
  if 0 < g.covariance 0 0 then m.sqrt (g.covariance 0 0)
  else if 2 ≤ g.fixStatus then cfg.gnss.sigma.fixM
  else if 0 ≤ g.fixStatus then cfg.gnss.sigma.floatM
  else -1

section Heading

/-- The mean of one coordinate. -/
def mean (xs : List R) : R := xs.sum * (1 / xs.length)

def pcaCovariance (pts : List (R × R)) : Matrix (Fin 2) (Fin 2) R :=
  let meanX := mean (pts.map (·.1))
  let meanY := mean (pts.map (·.2))
  let cxx := mean (pts.map fun p => (p.1 - meanX) * (p.1 - meanX))
  let cyy := mean (pts.map fun p => (p.2 - meanY) * (p.2 - meanY))
  let cxy := mean (pts.map fun p => (p.1 - meanX) * (p.2 - meanY))
  Matrix.of ![![cxx, cxy], ![cxy, cyy]]

/-- The heading of a track and its linearity; the axis points from its first to its last point. -/
def estimateHeadingPca (pts : List (R × R)) : Option (R × R) :=
  if pts.length < 2 then none
  else
    match m.selfAdjointEigen (pcaCovariance pts), pts.head?, pts.getLast? with
    | some solver, some front, some back =>
        let linearity := solver.lambdaMax / max (solver.lambdaMax + solver.lambdaMin) (1 / 10 ^ 9)
        let axis := solver.majorAxis
        let axis :=
          if axis.1 * (back.1 - front.1) + axis.2 * (back.2 - front.2) < 0 then
            (-axis.1, -axis.2)
          else axis
        some (m.atan2 axis.2 axis.1, linearity)
    | _, _, _ => none

/-- The rotation from the two headings, or from the vector to the last fix and the one from
the first to the last node. -/
def headingRotation (gnssPts odomPts : List (R × R)) (l : R × R) (front curr : PoseNode R) : R :=
  let twoPoint :=
    let theta0 := m.atan2 l.2 l.1
    let odomDx := curr.x - front.x
    let odomDy := curr.y - front.y
    if 1 / 2 < m.hypot odomDx odomDy then m.angleDiff theta0 (m.atan2 odomDy odomDx)
    else m.angleDiff theta0 front.yaw
  match estimateHeadingPca m gnssPts, estimateHeadingPca m odomPts with
  | some gnssPca, some odomPca =>
      if 17 / 20 ≤ gnssPca.2 then m.angleDiff gnssPca.1 odomPca.1 else twoPoint
  | _, _ => twoPoint

end Heading

section Reanchor

/-- The oldest samples go while the newest one is more than 25 m away. -/
def trimSpan (back : R × R) : List (ReanchorSample R) → List (ReanchorSample R)
  | s :: t :: rest =>
      if 25 < m.norm back s.slamPos then trimSpan back (t :: rest) else s :: t :: rest
  | l => l

def maxSpan : List (ReanchorSample R) → R
  | [] => 0
  | s :: rest => (rest.map fun t => m.norm s.slamPos t.slamPos).foldl max (maxSpan rest)

/-- The samples after a frame at `node` with fix `g`: a recent local window. -/
def collectSample (samples : List (ReanchorSample R)) (node : PoseNode R) (g : GnssData R) :
    List (ReanchorSample R) :=
  let sample : ReanchorSample R := ⟨(node.x, node.y), g.pos⟩
  let far := match samples.getLast? with
    | none => true
    | some back => decide (1 / 2 < m.norm sample.slamPos back.slamPos)
  let samples := if far then samples ++ [sample] else samples
  let window := cfg.gnss.dynamicReanchor.minSamples + 5
  let samples := if 0 ≤ window then samples.drop (samples.length - window.toNat) else samples
  match samples.getLast? with
  | none => samples
  | some back => trimSpan m back.slamPos samples

def mul2 (s t : Matrix (Fin 2) (Fin 2) R) : Matrix (Fin 2) (Fin 2) R :=
  fun i j => s i 0 * t 0 j + s i 1 * t 1 j

/-- `R * p`. -/
def apply2 (r : Matrix (Fin 2) (Fin 2) R) (p : R × R) : R × R :=
  (r 0 0 * p.1 + r 0 1 * p.2, r 1 0 * p.1 + r 1 1 * p.2)

/-- The rotation of the least-squares alignment of the SLAM positions with the UTM positions. -/
def alignmentRotation (samples : List (ReanchorSample R)) (pMean qMean : R × R) :
    Matrix (Fin 2) (Fin 2) R :=
  let h i j := (samples.map fun s => i (s.slamPos - pMean) * j (s.utmPos - qMean)).sum
  let svd := m.jacobiSvd (Matrix.of
    ![![h Prod.fst Prod.fst, h Prod.fst Prod.snd], ![h Prod.snd Prod.fst, h Prod.snd Prod.snd]])
  let vu := mul2 svd.matrixV svd.matrixU.transpose
  let det := vu 0 0 * vu 1 1 - vu 0 1 * vu 1 0
  mul2 (mul2 svd.matrixV (diag2 1 (if det < 0 then -1 else 1))) svd.matrixU.transpose

/-- The anchor that the samples ask for, if they are many, far apart and consistent enough. -/
def reanchorTarget (samples : List (ReanchorSample R)) : Option (R × R) :=
  let re := cfg.gnss.dynamicReanchor
  if (samples.length : Int) < re.minSamples ∨ maxSpan m samples < re.minDistanceM then none
  else
    let pMean := (mean (samples.map (·.slamPos.1)), mean (samples.map (·.slamPos.2)))
    let qMean := (mean (samples.map (·.utmPos.1)), mean (samples.map (·.utmPos.2)))
    let r := alignmentRotation m samples pMean qMean
    let anchorStar := qMean - apply2 r pMean
    let err := samples.map fun s =>
      let e := apply2 r s.slamPos + anchorStar - s.utmPos
      e.1 * e.1 + e.2 * e.2
    if re.maxResidualRmsM < m.sqrt (err.sum / samples.length) then none
    else some anchorStar

end Reanchor

namespace GraphOrchestrator

def new : GraphOrchestrator R where
  poseGraph := .new cfg
  optimizer := .new
  anchor := none
  dynamicReanchored := false
  lastNodeIndex := -1
  lastLoopEdgeCount := 0
  initialized := false
  state := if cfg.gnss.enabled then .initializing else .running
  initRotation := 0
  lastRenderedPoses := fun _ => none
  lastGnssTimestamp := none
  lastGnssPos := none
  firstRenderDone := false
  reanchorSamples := []
  initGnssPts := []
  initOdomPts := []

variable (o : GraphOrchestrator R)

/-- The second half of `initialize_with_gnss_if_ready`: the graph turns by `rot` about its
first node, and the optimizer starts over with all nodes and edges. -/
def alignGraph (rot : R) (front curr : PoseNode R) : GraphOrchestrator R :=
  let nodes := m.rebaseAndRotateNodes o.poseGraph.getNodes rot
  let fresh := ISAM2Optimizer.initializeAt front.index ⟨0, 0, front.yaw + rot⟩
    cfg.gnss.anchor.sigmaM cfg.gnss.anchor.initYawSigmaRad
  let withNodes := nodes.foldl
    (fun opt n => if n.index = front.index then opt else opt.addInitialEstimate n.index n.pose) fresh
  { o with
    initRotation := rot
    initGnssPts := []
    initOdomPts := []
    optimizer := o.poseGraph.getEdges.foldl ISAM2Optimizer.addBetweenFactor withNodes
    poseGraph := o.poseGraph.replaceNodes nodes
    lastLoopEdgeCount := (longEdges o.poseGraph.getEdges).length
    state := .running
    lastNodeIndex := curr.index
    initialized := true }

def initializeWithGnssIfReady (frame : SensorFrame R) : GraphOrchestrator R :=
  match frame.gnss, o.state with
  | some g, .initializing =>
      if !cfg.gnss.enabled then o
      else
        let anchor := o.anchor.orElse fun _ =>
          if g.fixStatus < cfg.gnss.anchor.minFixStatus then none else some g.pos
        match anchor with
        | none => o
        | some anchor =>
            let l := g.toLocal anchor
            let o := { o with anchor := some anchor, initGnssPts := o.initGnssPts ++ [l] }
            match o.poseGraph.getNodes.head?, o.poseGraph.getNodes.getLast? with
            | some front, some curr =>
                let o := { o with initOdomPts := o.initOdomPts ++ [(curr.x, curr.y)] }
                if m.hypot l.1 l.2 < cfg.gnss.anchor.initDistanceM then o
                else
                  o.alignGraph cfg m (headingRotation m o.initGnssPts o.initOdomPts l front curr)
                    front curr
            | _, _ => o
  | _, _ => o

/-- Without GNSS the optimizer starts at the first node. -/
def initializeOptimizerIfNeeded (isam2 : Isam2 R) (node : PoseNode R) :
    Option (GraphOrchestrator R) :=
  if o.initialized then some o
  else
    ((ISAM2Optimizer.initializeAt node.index node.pose (1 / 20) 10).update isam2).map fun opt =>
      { o with optimizer := opt, initialized := true, lastNodeIndex := node.index }

/-- The pose that an edge predicts from the estimate of its start, else the node's own. -/
def predictedPose (node : PoseNode R) (e : PoseEdge R) : Pose R :=
  match o.optimizer.getPose e.fromIndex with
  | some p =>
      let d := m.rotate p.yaw e.dx e.dy
      ⟨p.x + d.1, p.y + d.2, p.yaw + e.dyaw⟩
  | none => node.pose

def addLatestSeqEdge (node : PoseNode R) (allEdges : List (PoseEdge R)) :
    GraphOrchestrator R × Option (PoseEdge R) :=
  match getLatestSeqEdge node.index allEdges with
  | some e =>
      if o.lastNodeIndex < node.index then
        ({ o with
            optimizer := (e :: meshEdges node.index allEdges).foldl ISAM2Optimizer.addBetweenFactor
              (o.optimizer.addInitialEstimate node.index (o.predictedPose m node e))
            lastNodeIndex := node.index }, some e)
      else (o, none)
  | none => (o, none)

/-- The long edges past the count of those handed over before. -/
def addNewLoopEdges (allEdges : List (PoseEdge R)) :
    GraphOrchestrator R × List (PoseEdge R) × Bool :=
  let loopEdges := longEdges allEdges
  if o.lastLoopEdgeCount < loopEdges.length then
    let new := loopEdges.drop o.lastLoopEdgeCount
    ({ o with
        optimizer := new.foldl ISAM2Optimizer.addBetweenFactor o.optimizer
        lastLoopEdgeCount := loopEdges.length }, new, true)
  else (o, [], false)

/-- The fix that `try_dynamic_reanchor` samples in a frame. -/
def reanchorFix (frame : SensorFrame R) : Option (GnssData R) :=
  if cfg.gnss.enabled ∧ cfg.gnss.dynamicReanchor.enabled ∧ o.dynamicReanchored = false ∧
      o.anchor.isSome then
    frame.gnss.filter fun g => decide (cfg.gnss.dynamicReanchor.minFixStatus ≤ g.fixStatus ∧
      0 < g.sigma cfg m ∧ g.sigma cfg m ≤ 1 / 2)
  else none

def tryDynamicReanchor (node : PoseNode R) (frame : SensorFrame R) : GraphOrchestrator R × Bool :=
  match o.reanchorFix cfg m frame with
  | none => (o, false)
  | some g =>
      let samples := collectSample cfg m o.reanchorSamples node g
      match reanchorTarget cfg m samples with
      | none => ({ o with reanchorSamples := samples }, false)
      | some anchorStar =>
          ({ o with
              reanchorSamples := samples
              anchor := some anchorStar
              lastGnssPos := none
              dynamicReanchored := true }, true)

/-- The fix of a frame passes the checks for a prior at `node`. -/
def priorAccepted (node : PoseNode R) (g : GnssData R) (anchor : R × R) : Prop :=
  let l := g.toLocal anchor
  let sigma := g.sigma cfg m
  ¬ (o.lastGnssTimestamp.any (fun t => decide (|g.timestamp - t| < 1 / 10 ^ 6))) = true ∧
    cfg.gnss.priorMinFixStatus ≤ g.fixStatus ∧
    0 < sigma ∧ sigma ≤ cfg.gnss.maxSigmaM ∧
    ¬ (0 < cfg.gnss.maxInnovationM ∧
      cfg.gnss.maxInnovationM < m.hypot (l.1 - node.x) (l.2 - node.y)) ∧
    ¬ (o.lastGnssPos.any (fun p => decide (0 < cfg.gnss.minIntervalM ∧
      m.hypot (l.1 - p.1) (l.2 - p.2) < cfg.gnss.minIntervalM))) = true

instance (node : PoseNode R) (g : GnssData R) (anchor : R × R) :
    Decidable (o.priorAccepted cfg m node g anchor) := by
  unfold priorAccepted
  infer_instance

def addGnssPrior (frame : SensorFrame R) (node : PoseNode R) :
    GraphOrchestrator R × Option (GnssPrior R) :=
  match cfg.gnss.enabled, frame.gnss, o.anchor with
  | true, some g, some anchor =>
      if o.priorAccepted cfg m node g anchor then
        let l := g.toLocal anchor
        let sigma := g.sigma cfg m
        let invVar := 1 / max (sigma * sigma) (1 / 10 ^ 12)
        ({ o with
            optimizer := o.optimizer.addGnssPrior node.index l.1 l.2 sigma cfg.gnss.robustKernel
              cfg.gnss.robustKernelScale cfg.gnss.leverArm
            lastGnssTimestamp := some g.timestamp
            lastGnssPos := some l },
          some ⟨node.index, l.1, l.2, diag2 invVar invVar⟩)
      else (o, none)
  | _, _, _ => (o, none)

/-- A node at the pose of its estimate. -/
def optimizedNode (n : PoseNode R) : PoseNode R :=
  match o.optimizer.getPose n.index with
  | some p => n.withPose p
  | none => n

/-- How far the estimate of a node is from where it was last rendered. -/
def displacement (n : PoseNode R) : Option R :=
  match o.optimizer.getPose n.index, o.lastRenderedPoses n.index with
  | some p, some old => some (m.hypot (p.x - old.x) (p.y - old.y))
  | _, _ => none

/-- The graph was turned and has not been rendered since. -/
def firstRender (node : PoseNode R) : Bool :=
  cfg.gnss.enabled && decide (o.lastNodeIndex = node.index) && decide (o.initRotation ≠ 0) &&
    decide (1 < o.poseGraph.getNodes.length) && !o.firstRenderDone

/-- `last_rendered_poses_` after all of `nodes` are recorded. -/
def recordAll (rendered : Nat → Option (Pose R)) (nodes : List (PoseNode R)) :
    Nat → Option (Pose R) :=
  nodes.foldl (fun r n => Function.update r n.index (some n.pose)) rendered

def applyOptimizedPoses (node : PoseNode R) (loopClosed : Bool) : GraphOrchestrator R × Bool :=
  let first := o.firstRender cfg node
  let maxDisplacement := (o.poseGraph.getNodes.filterMap (o.displacement m)).foldl max 0
  let moved := decide (0 < cfg.rerenderThresholdM ∧ cfg.rerenderThresholdM ≤ maxDisplacement)
  let rerender := loopClosed || first || moved
  let nodes := o.poseGraph.getNodes.map o.optimizedNode
  ({ o with
      firstRenderDone := o.firstRenderDone || first
      poseGraph := o.poseGraph.replaceNodes nodes
      lastRenderedPoses :=
        if rerender then recordAll o.lastRenderedPoses nodes
        else recordAll o.lastRenderedPoses [node] }, rerender)

/-- `process_frame` from `add_latest_seq_edge` on. -/
def processNode (f : Frame R) (node : PoseNode R) :
    Option (GraphOrchestrator R × ScanProcessResult R) :=
  let allEdges := o.poseGraph.getEdges
  let seq := o.addLatestSeqEdge m node allEdges
  let loop := seq.1.addNewLoopEdges allEdges
  let re := loop.1.tryDynamicReanchor cfg m node f.sensor
  let node := if re.2 then re.1.poseGraph.getNodes.getLast?.getD node else node
  let prior := re.1.addGnssPrior cfg m f.sensor node
  (prior.1.optimizer.update f.isam2).map fun opt =>
    let o := { prior.1 with optimizer := opt }
    let applied := o.applyOptimizedPoses cfg m node (loop.2.2 || re.2)
    (applied.1, ⟨some (applied.1.optimizedNode node), loop.2.2, applied.2, seq.2, loop.2.1,
      prior.2⟩)

/-- `none` is an exception of the optimizer, which ends the program. -/
def processFrame (f : Frame R) : Option (GraphOrchestrator R × ScanProcessResult R) :=
  match o.poseGraph.addScan cfg m f.matchers f.sensor.scan f.sensor.odom with
  | (poseGraph, none) => some ({ o with poseGraph := poseGraph }, .rejected)
  | (poseGraph, some node) =>
      let o := initializeWithGnssIfReady cfg m { o with poseGraph := poseGraph } f.sensor
      match o.state with
      | .initializing =>
          some (o, ⟨some node, false, false, getLatestSeqEdge node.index o.poseGraph.getEdges, [],
            none⟩)
      | .running =>
          (o.initializeOptimizerIfNeeded f.isam2 node).bind fun o => o.processNode cfg m f node

end GraphOrchestrator

omit [Field R] [LinearOrder R] in
/-- iSAM2 on edges that agree with the initial values: it keeps them. -/
def keepValues : Isam2 R := fun o =>
  some fun i => (o.pendingValues.lookup i).orElse fun _ => o.latestEstimate i

omit [LinearOrder R] in
/-- Matchers that find the motion of the guess, for sequential matches and for the near and loop
candidates in `near` and `loop`. -/
def Matchers.agreeing (near loop : List Nat) : Matchers R :=
  let found (b : Bool) (guess : OdomData R) : MatchResult R :=
    ⟨guess.x, guess.y, guess.yaw, b, diag3 100 100 100, 0⟩
  { reference := true
    seqMatch := found true
    targetCloud := fun _ => true
    nearMatch := fun i => found (near.contains i)
    sortRank := id
    submap := fun _ => true
    loopMatch := fun i => found (loop.contains i) }

end MgRobot.Slam

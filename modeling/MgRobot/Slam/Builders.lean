import Mathlib.Algebra.Order.Group.Int
import Mathlib.Data.List.Sort
import MgRobot.Slam.Geometry

/-!
# Pose graph builders

`OdomOnlyBuilder`, `ScanMatchingBuilder` with its near-keyframe links, and
`LoopClosureBuilder` around it. What the matchers answer is a parameter of each
frame, and so is the order in which `std::sort` leaves equally distant candidates.
-/

namespace MgRobot.Slam

set_option autoImplicit false

/-- The answers of the matchers, the reference provider and the clouds in one frame. Candidates
go by their node index. -/
structure Matchers (R : Type*) where
  /-- `provider_->get_reference_pts_and_normals().has_value()`. -/
  reference : Bool
  seqMatch : OdomData R → MatchResult R
  targetCloud : Nat → Bool
  nearMatch : Nat → OdomData R → MatchResult R
  sortRank : Nat → Nat
  submap : Nat → Bool
  loopMatch : Nat → OdomData R → MatchResult R

structure OdomOnlyBuilder (R : Type*) where
  nodes : List (PoseNode R)
  edges : List (PoseEdge R)
  lastOdom : Option (OdomData R)

structure ScanMatchingBuilder (R : Type*) where
  nodes : List (PoseNode R)
  edges : List (PoseEdge R)
  lastOdom : Option (OdomData R)
  icpAttemptCount : Nat
  icpSuccessCount : Nat
  odomFallbackCount : Nat

structure LoopClosureBuilder (R : Type*) where
  inner : ScanMatchingBuilder R
  loopEdges : List (PoseEdge R)
  allNodesCache : List (PoseNode R)
  loopAttemptCount : Nat
  loopSuccessCount : Nat

inductive PoseGraphBuilder (R : Type*) where
  | odomOnly (b : OdomOnlyBuilder R)
  | scanMatching (b : ScanMatchingBuilder R)
  | loopClosure (b : LoopClosureBuilder R)

variable {R : Type*} [Field R] [LinearOrder R]
variable (cfg : SlamConfig R) (m : Numerics R) (a : Matchers R)

def makeOdomInformation : Matrix (Fin 3) (Fin 3) R := diag3 100 100 50

def makeOdomFallbackInformation : Matrix (Fin 3) (Fin 3) R := diag3 10 10 5

/-- The robot has not moved enough for a keyframe. -/
def belowKeyframe (last odom : OdomData R) : Prop :=
  m.hypot (odom.x - last.x) (odom.y - last.y) < cfg.keyframe.minTranslation ∧
    |m.angleDiff odom.yaw last.yaw| < cfg.keyframe.minRotation

instance (last odom : OdomData R) : Decidable (belowKeyframe cfg m last odom) :=
  inferInstanceAs (Decidable (_ ∧ _))

/-- The first node stands where the odometry is. -/
def firstNode (scan : ScanData R) (odom : OdomData R) : PoseNode R :=
  ⟨0, scan.timestamp, odom.x, odom.y, odom.yaw, some scan⟩

/-- The node that the motion `(dx, dy, dyaw)` in the frame of `prev` leads to. -/
def nextNode (index : Nat) (scan : ScanData R) (prev : PoseNode R) (dx dy dyaw : R) :
    PoseNode R :=
  let d := m.localDeltaToWorld dx dy prev.yaw
  ⟨index, scan.timestamp, prev.x + d.1, prev.y + d.2, m.normalizeAngle (prev.yaw + dyaw),
    some scan⟩

namespace OdomOnlyBuilder

def new : OdomOnlyBuilder R := ⟨[], [], none⟩

def addScan (b : OdomOnlyBuilder R) (scan : Option (ScanData R)) (odom : OdomData R) :
    OdomOnlyBuilder R × Option (PoseNode R) :=
  match scan with
  | none => (b, none)
  | some scan =>
      match b.nodes.getLast?, b.lastOdom with
      | none, _ =>
          let node := firstNode scan odom
          ({ b with nodes := [node], lastOdom := some odom }, some node)
      | some _, none => (b, none)
      | some prev, some last =>
          if belowKeyframe cfg m last odom then (b, none)
          else
            let d := m.worldDeltaToLocal (odom.x - last.x) (odom.y - last.y) last.yaw
            let dyaw := m.angleDiff odom.yaw last.yaw
            let node := nextNode m b.nodes.length scan prev d.1 d.2 dyaw
            let edge := ⟨prev.index, node.index, d.1, d.2, dyaw, makeOdomInformation, 0, false⟩
            (⟨b.nodes ++ [node], b.edges ++ [edge], some odom⟩, some node)

end OdomOnlyBuilder

/-- The motion that a sequential edge records, and how it was found. -/
structure SeqMatch (R : Type*) where
  dx : R
  dy : R
  dyaw : R
  information : Matrix (Fin 3) (Fin 3) R
  score : R
  isOdomFallback : Bool

structure LinkCandidate (R : Type*) where
  node : PoseNode R
  distance : R

namespace ScanMatchingBuilder

def new : ScanMatchingBuilder R := ⟨[], [], none, 0, 0, 0⟩

/-- One axis of the Gaussian product; `delta` is the odometry minus the match. -/
def fuseAxis (i : Fin 3) (odomInfo delta : R) (value : R)
    (information : Matrix (Fin 3) (Fin 3) R) : R × Matrix (Fin 3) (Fin 3) R :=
  if odomInfo ≤ 0 then (value, information)
  else
    let total := information i i + odomInfo
    (value + odomInfo / total * delta, setDiag information i total)

def fuseWithOdometry (odomDx odomDy odomDyaw : R) (s : SeqMatch R) : SeqMatch R :=
  let f := cfg.scanMatching.odomFusion
  let x := fuseAxis 0 f.informationX (odomDx - s.dx) s.dx s.information
  let y := fuseAxis 1 f.informationY (odomDy - s.dy) s.dy x.2
  let yaw := fuseAxis 2 f.informationYaw (m.angleDiff odomDyaw s.dyaw) s.dyaw y.2
  { s with
    dx := x.1
    dy := y.1
    dyaw := if 0 < f.informationYaw then m.normalizeAngle yaw.1 else s.dyaw
    information := yaw.2 }

/-- A slip along a straight: the odometry's translation is kept. -/
def clampDrift (dxLocal dyawDelta : R) (s : SeqMatch R) : SeqMatch R :=
  let d := cfg.scanMatching.maxTranslationDrift
  if |dyawDelta| < 1 / 20 ∧ |s.dyaw| < 1 / 20 ∧ 0 < d ∧ d < |s.dx - dxLocal| then
    { s with dx := dxLocal, information := setDiag s.information 0 (min (s.information 0 0) 20) }
  else s

/-- The motion since the last node: a match against the reference, else the odometry. -/
def sequentialMatch (guess : OdomData R) : SeqMatch R :=
  if a.reference then
    let result := a.seqMatch guess
    if result.converged then
      fuseWithOdometry cfg m guess.x guess.y guess.yaw
        (clampDrift cfg guess.x guess.yaw
          ⟨result.dx, result.dy, result.dyaw, result.information, result.score, false⟩)
    else ⟨guess.x, guess.y, guess.yaw, makeOdomFallbackInformation, 0, true⟩
  else ⟨guess.x, guess.y, guess.yaw, makeOdomInformation, 0, true⟩

/-- The earlier keyframes that `current` may be linked with, nearest first. -/
def linkCandidates (nodes : List (PoseNode R)) (current : PoseNode R) : List (LinkCandidate R) :=
  let links := cfg.scanMatching.nearLinks
  let candidates := nodes.zipIdx.filterMap fun p =>
    let dist := m.hypot (current.x - p.1.x) (current.y - p.1.y)
    if max 0 ((current.index : Int) - links.bufferSize) ≤ p.2 ∧
        (p.2 : Int) ≤ current.index - links.minIndexDiff ∧
        p.1.scan.isSome ∧ dist ≤ links.maxDistance then some ⟨p.1, dist⟩
    else none
  candidates.insertionSort fun c d => c.distance < d.distance ∨
    c.distance = d.distance ∧ a.sortRank c.node.index ≤ a.sortRank d.node.index

/-- The initial guess for a match of `node` against `candidate`. -/
def relativeGuess (timestamp : R) (node candidate : PoseNode R) : OdomData R :=
  let d := m.worldDeltaToLocal (node.x - candidate.x) (node.y - candidate.y) candidate.yaw
  ⟨timestamp, d.1, d.2, m.angleDiff node.yaw candidate.yaw⟩

/-- The link from `candidate`, if its match passes the gates. -/
def nearLink (timestamp : R) (current candidate : PoseNode R) : Option (PoseEdge R) :=
  let links := cfg.scanMatching.nearLinks
  let guess := relativeGuess m timestamp current candidate
  let result := a.nearMatch candidate.index guess
  if a.targetCloud candidate.index ∧ result.converged ∧
      m.hypot (result.dx - guess.x) (result.dy - guess.y) ≤ links.maxTranslationDrift ∧
      |m.angleDiff result.dyaw guess.yaw| ≤ links.maxRotationDriftDeg * m.pi / 180 ∧
      ¬ (result.information 1 1 < links.minEigenvalue ∧
        result.information 2 2 < links.minEigenvalue) then
    some ⟨candidate.index, current.index, result.dx, result.dy, result.dyaw,
      setDiag result.information 0 (max (result.information 0 0) 10), result.score, false⟩
  else none

/-- At most `max_links_per_node` of the candidates are accepted, in order. -/
def acceptLinks (timestamp : R) (current : PoseNode R) :
    Int → List (LinkCandidate R) → List (PoseEdge R)
  | _, [] => []
  | added, c :: rest =>
      if added < cfg.scanMatching.nearLinks.maxLinksPerNode then
        match nearLink cfg m a timestamp current c.node with
        | some e => e :: acceptLinks timestamp current (added + 1) rest
        | none => acceptLinks timestamp current added rest
      else []

/-- `add_near_keyframe_links` behind its guard. A negative `min_index_diff` is past every size
once it is cast to `size_t`. -/
def nearLinks (nodes : List (PoseNode R)) (current : PoseNode R) : List (PoseEdge R) :=
  let links := cfg.scanMatching.nearLinks
  match current.scan with
  | none => []
  | some scan =>
      if links.enabled ∧ 0 ≤ links.minIndexDiff ∧ links.minIndexDiff < nodes.length then
        acceptLinks cfg m a scan.timestamp current 0 (linkCandidates cfg m a nodes current)
      else []

def addScan (b : ScanMatchingBuilder R) (scan : Option (ScanData R)) (odom : OdomData R) :
    ScanMatchingBuilder R × Option (PoseNode R) :=
  match scan with
  | none => (b, none)
  | some scan =>
      match b.nodes.getLast?, b.lastOdom with
      | none, _ =>
          let node := firstNode scan odom
          ({ b with nodes := [node], lastOdom := some odom }, some node)
      | some _, none => (b, none)
      | some prev, some last =>
          if belowKeyframe cfg m last odom then (b, none)
          else
            let d := m.worldDeltaToLocal (odom.x - last.x) (odom.y - last.y) last.yaw
            let guess := ⟨scan.timestamp, d.1, d.2, m.angleDiff odom.yaw last.yaw⟩
            let converged := (a.seqMatch guess).converged
            let s := sequentialMatch cfg m a guess
            let node := nextNode m b.nodes.length scan prev s.dx s.dy s.dyaw
            let edge := ⟨prev.index, node.index, s.dx, s.dy, s.dyaw, s.information, s.score,
              s.isOdomFallback⟩
            let nodes := b.nodes ++ [node]
            ({ nodes := nodes
               edges := b.edges ++ edge :: nearLinks cfg m a nodes node
               lastOdom := some odom
               icpAttemptCount := b.icpAttemptCount + if a.reference then 1 else 0
               icpSuccessCount := b.icpSuccessCount + if a.reference && converged then 1 else 0
               odomFallbackCount :=
                 b.odomFallbackCount + if a.reference && !converged then 1 else 0 },
              some node)

end ScanMatchingBuilder

namespace LoopClosureBuilder

def new : LoopClosureBuilder R := ⟨.new, [], [], 0, 0⟩

/-- The cached nodes strictly within the search radius and far enough back, in index order. -/
def findLoopCandidates (cache : List (PoseNode R)) (node : PoseNode R) : List (PoseNode R) :=
  let radius := cfg.loopClosure.searchRadius
  cache.filter fun n =>
    (node.x - n.x) * (node.x - n.x) + (node.y - n.y) * (node.y - n.y) < radius * radius ∧
      n.scan.isSome ∧ ¬ (node.index : Int) - n.index < cfg.loopClosure.minNodeGap

/-- The gates on a loop match: drift, turn, crossing band, score and degeneracy. -/
def loopGates (guess : OdomData R) (result : MatchResult R) : Prop :=
  let loop := cfg.loopClosure
  let crossing := if 0 < loop.crossingRejectDeg then loop.crossingRejectDeg * m.pi / 180 else 0
  result.converged ∧ m.hypot (result.dx - guess.x) (result.dy - guess.y) ≤ 1 ∧
    |result.dyaw| ≤ loop.maxDyawDeg * m.pi / 180 ∧
    ¬ (0 < crossing ∧ crossing ≤ |result.dyaw| ∧ |result.dyaw| ≤ m.pi - crossing) ∧
    ¬ (0 < loop.maxScore ∧ loop.maxScore < result.score) ∧
    ¬ (m.smallestEigenvalue result.information).any (fun l => decide (l < 5)) = true

instance (guess : OdomData R) (result : MatchResult R) :
    Decidable (loopGates cfg m guess result) := by
  unfold loopGates
  infer_instance

def tryAddLoopEdge (b : LoopClosureBuilder R) (node candidate : PoseNode R) :
    LoopClosureBuilder R :=
  if b.loopEdges.any (fun e => e.fromIndex == candidate.index) || !a.submap candidate.index then b
  else
    let guess := ScanMatchingBuilder.relativeGuess m node.timestamp node candidate
    let result := a.loopMatch candidate.index guess
    let b := { b with loopAttemptCount := b.loopAttemptCount + 1 }
    if loopGates cfg m guess result then
      { b with
        loopSuccessCount := b.loopSuccessCount + 1
        loopEdges := b.loopEdges ++ [⟨candidate.index, node.index, result.dx, result.dy,
          result.dyaw, result.information, result.score, false⟩] }
    else b

def addScan (b : LoopClosureBuilder R) (scan : Option (ScanData R)) (odom : OdomData R) :
    LoopClosureBuilder R × Option (PoseNode R) :=
  match b.inner.addScan cfg m a scan odom with
  | (inner, none) => ({ b with inner := inner }, none)
  | (inner, some node) =>
      let b := { b with inner := inner, allNodesCache := b.allNodesCache ++ [node] }
      ((findLoopCandidates cfg b.allNodesCache node).foldl
        (fun b candidate => b.tryAddLoopEdge cfg m a node candidate) b, some node)

/-- The cached nodes take the poses of the nodes of their index. -/
def replaceNodes (b : LoopClosureBuilder R) (nodes : List (PoseNode R)) : LoopClosureBuilder R :=
  { b with
    inner := { b.inner with nodes := nodes }
    allNodesCache := b.allNodesCache.map fun c =>
      match nodes.reverse.find? (fun n => n.index == c.index) with
      | some n => c.withPose n.pose
      | none => c }

end LoopClosureBuilder

namespace PoseGraphBuilder

/-- `build_pose_graph_builder`. -/
def new : PoseGraphBuilder R :=
  if cfg.loopClosure.enabled then .loopClosure .new
  else if cfg.scanMatching.enabled then .scanMatching .new
  else .odomOnly .new

def addScan (scan : Option (ScanData R)) (odom : OdomData R) :
    PoseGraphBuilder R → PoseGraphBuilder R × Option (PoseNode R)
  | .odomOnly b => (b.addScan cfg m scan odom).map .odomOnly id
  | .scanMatching b => (b.addScan cfg m a scan odom).map .scanMatching id
  | .loopClosure b => (b.addScan cfg m a scan odom).map .loopClosure id

def getNodes : PoseGraphBuilder R → List (PoseNode R)
  | .odomOnly b => b.nodes
  | .scanMatching b => b.nodes
  | .loopClosure b => b.inner.nodes

/-- The edges of the builder that finds the nodes: sequential edges and near-keyframe links. -/
def innerEdges : PoseGraphBuilder R → List (PoseEdge R)
  | .odomOnly b => b.edges
  | .scanMatching b => b.edges
  | .loopClosure b => b.inner.edges

/-- `get_loop_edges` of a `LoopClosureBuilder`. -/
def getLoopEdges : PoseGraphBuilder R → List (PoseEdge R)
  | .loopClosure b => b.loopEdges
  | _ => []

def getEdges (b : PoseGraphBuilder R) : List (PoseEdge R) := b.innerEdges ++ b.getLoopEdges

def replaceNodes (nodes : List (PoseNode R)) : PoseGraphBuilder R → PoseGraphBuilder R
  | .odomOnly b => .odomOnly { b with nodes := nodes }
  | .scanMatching b => .scanMatching { b with nodes := nodes }
  | .loopClosure b => .loopClosure (b.replaceNodes nodes)

omit [Field R] [LinearOrder R]

@[simp] theorem replaceNodes_getNodes (b : PoseGraphBuilder R) (nodes : List (PoseNode R)) :
    (b.replaceNodes nodes).getNodes = nodes := by
  cases b <;> rfl

@[simp] theorem replaceNodes_innerEdges (b : PoseGraphBuilder R) (nodes : List (PoseNode R)) :
    (b.replaceNodes nodes).innerEdges = b.innerEdges := by
  cases b <;> rfl

@[simp] theorem replaceNodes_getLoopEdges (b : PoseGraphBuilder R) (nodes : List (PoseNode R)) :
    (b.replaceNodes nodes).getLoopEdges = b.getLoopEdges := by
  cases b <;> rfl

@[simp] theorem replaceNodes_getEdges (b : PoseGraphBuilder R) (nodes : List (PoseNode R)) :
    (b.replaceNodes nodes).getEdges = b.getEdges := by
  simp [getEdges]

end PoseGraphBuilder

end MgRobot.Slam

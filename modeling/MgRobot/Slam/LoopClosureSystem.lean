import MgRobot.Lib.PointIndex
import MgRobot.Lib.Runs
import MgRobot.Slam.BuilderGrowth
import MgRobot.Slam.LinkRuns
import MgRobot.Slam.LocalMap

/-!
# The searches of the loop closure

`LoopClosureBuilder` finds the candidates for a loop and the nodes of their submaps
with a k-d tree over its own copies of the nodes. The tree is built when it is first
needed after a change.
-/

namespace MgRobot.Slam

set_option autoImplicit false

open MgRobot.Lib.PointIndex

variable {R : Type*} [Field R] [LinearOrder R]

/-- A point is strictly within the radius of a query, given as its square. -/
def withinSq (query : (R × R) × R) (p : R × R) : Bool :=
  (query.1.1 - p.1) * (query.1.1 - p.1) + (query.1.2 - p.2) * (query.1.2 - p.2) < query.2

/-- `LoopClosureBuilder` with its `Impl`. -/
structure IndexedLoopBuilder (R : Type*) extends LoopClosureBuilder R where
  /-- The positions that the tree was built from. -/
  tree : Option (List (R × R))
  dirty : Bool

/-- What an `add_scan` looks at: the candidates, and for each one that is tried the nodes of its
submap, if it gets one. -/
structure LoopSearch (R : Type*) where
  candidates : List (PoseNode R)
  submaps : List (PoseNode R × Option (List (PoseNode R)))

/-- `replace_nodes` comes with all nodes of the builder, at other poses. -/
inductive LoopCall (R : Type*) where
  | addScan (matchers : Matchers R) (scan : Option (ScanData R)) (odom : OdomData R)
  | replaceNodes (poses : Nat → Pose R)

namespace IndexedLoopBuilder

variable (cfg : SlamConfig R) (m : Numerics R) (a : Matchers R) (submapRadius : R)
  (search : Search (R × R) ((R × R) × R))

def new : IndexedLoopBuilder R := ⟨.new, none, true⟩

def ensureNodeKdtree (b : IndexedLoopBuilder R) : IndexedLoopBuilder R :=
  if !b.dirty && b.tree.isSome then b
  else if b.allNodesCache.isEmpty then { b with tree := none, dirty := false }
  else { b with tree := some (b.allNodesCache.map PoseNode.pos), dirty := false }

/-- `radiusSearch`, and the cached nodes that `keep` lets through, by their places. -/
def radiusNodes (b : IndexedLoopBuilder R) (built : List (R × R)) (center : PoseNode R) (radius : R)
    (keep : PoseNode R → Bool) : List (PoseNode R) :=
  let found := search built (b.allNodesCache.map PoseNode.pos) (center.pos, radius * radius)
  ((found.filter fun i => b.allNodesCache[i]?.any keep).insertionSort (· ≤ ·)).filterMap
    fun i => b.allNodesCache[i]?

/-- The nodes that may close a loop with `node`, as far as the radius allows. -/
def farBack (node n : PoseNode R) : Bool :=
  n.scan.isSome && !decide ((node.index : Int) - n.index < cfg.loopClosure.minNodeGap)

def findLoopCandidates (b : IndexedLoopBuilder R) (node : PoseNode R) :
    IndexedLoopBuilder R × List (PoseNode R) :=
  if b.allNodesCache.isEmpty then (b, [])
  else
    let b := b.ensureNodeKdtree
    match b.tree with
    | none => (b, [])
    | some built => (b, b.radiusNodes search built node cfg.loopClosure.searchRadius (farBack cfg node))

/-- The nodes that `build_candidate_submap_with_normals` merges; without any, the candidate's own
cloud is the submap. -/
def candidateSubmap (b : IndexedLoopBuilder R) (candidate : PoseNode R) :
    IndexedLoopBuilder R × Option (List (PoseNode R)) :=
  if submapRadius ≤ 0 then (b, none)
  else
    let b := b.ensureNodeKdtree
    match b.tree with
    | none => (b, none)
    | some built => (b, some (b.radiusNodes search built candidate submapRadius fun n => n.scan.isSome))

def tryAddLoopEdge (node : PoseNode R) (s : IndexedLoopBuilder R × LoopSearch R)
    (candidate : PoseNode R) : IndexedLoopBuilder R × LoopSearch R :=
  if s.1.loopEdges.any (fun e => e.fromIndex == candidate.index) then s
  else
    let submap := s.1.candidateSubmap submapRadius search candidate
    ({ submap.1 with
        toLoopClosureBuilder := submap.1.toLoopClosureBuilder.tryAddLoopEdge cfg m a node candidate },
      { s.2 with submaps := s.2.submaps ++ [(candidate, submap.2)] })

def addScan (b : IndexedLoopBuilder R) (scan : Option (ScanData R)) (odom : OdomData R) :
    IndexedLoopBuilder R × Option (PoseNode R × LoopSearch R) :=
  match b.inner.addScan cfg m a scan odom with
  | (inner, none) => ({ b with inner := inner }, none)
  | (inner, some node) =>
      let b := { b with
        inner := inner
        allNodesCache := b.allNodesCache ++ [node]
        dirty := true }
      let found := b.findLoopCandidates cfg search node
      let tried := found.2.foldl (tryAddLoopEdge cfg m a submapRadius search node)
        (found.1, ⟨found.2, []⟩)
      (tried.1, some (node, tried.2))

def replaceNodes (b : IndexedLoopBuilder R) (nodes : List (PoseNode R)) : IndexedLoopBuilder R :=
  { b with toLoopClosureBuilder := b.toLoopClosureBuilder.replaceNodes nodes, dirty := true }

def step (b : IndexedLoopBuilder R) : LoopCall R → IndexedLoopBuilder R
  | .addScan a scan odom => (b.addScan cfg m a submapRadius search scan odom).1
  | .replaceNodes poses =>
      b.replaceNodes (b.inner.nodes.map fun n => n.withPose (poses n.index))

/-- The builder after the calls. -/
def run (calls : List (LoopCall R)) : IndexedLoopBuilder R :=
  calls.foldl (step cfg m submapRadius search) new

end IndexedLoopBuilder

end MgRobot.Slam

/-!
# LoopClosureBuilder with all it owns

The two nested builders, the reference provider with its own keyframes, the targets
that the matcher caches and the clouds of the scans. A matcher answers from its target,
its source and the guess only.
-/

namespace MgRobot.Slam

set_option autoImplicit false

open MgRobot.Lib.PointIndex

/-- Points and their normals. -/
abbrev PointCloud (R : Type*) := List (R × R) × List (R × R)

/-- `scan_matching.reference`, with `local_map.window` and `local_map.radius`. -/
inductive ScanReference (R : Type*) where
  | scanToScan
  | scanToLocalMap (window : Int) (radius : R)

inductive ReferenceProvider (R : Type*) where
  | scanToScan (lastPts : Option (List (R × R)))
  | localMap (p : LocalMapProvider R)

/-- The configuration of the builders, and their matchers. -/
structure LoopSetup (R : Type*) where
  config : SlamConfig R
  reference : ScanReference R
  /-- `loop_closure.submap_radius`. -/
  submapRadius : R
  matcher : NearMatcher R (PointCloud R) (BeamScan R)
  /-- Against a target, with the points of the last keyframes or the scan itself as source. -/
  loopMatch : PointCloud R → List (R × R) → BeamScan R → OdomData R → MatchResult R
  radiusSearch : Search (R × R) ((R × R) × R)
  /-- How `std::sort` leaves the equally distant ones of the nodes. -/
  sortRank : List (PoseNode R) → Nat → Nat

/-- `LoopClosureBuilder`, with the scans of its nodes by index. -/
structure LoopClosureSystem (R : Type*) where
  loop : IndexedLoopBuilder R
  scans : List (BeamScan R)
  provider : ReferenceProvider R
  /-- The reusable targets of the matcher. -/
  targets : TargetCache (PointCloud R)

/-- `replace_nodes` comes with all nodes, at other poses. -/
inductive BuilderInput (R : Type*) where
  | addScan (scan : Option (ScanData R × BeamScan R)) (odom : OdomData R)
  | replaceNodes (poses : Nat → Pose R)
  | reset

section Definitions

variable {R : Type*} [Field R] [LinearOrder R] (m : Numerics R)

namespace ReferenceProvider

/-- `build_reference_provider`. -/
def new : ScanReference R → ReferenceProvider R
  | .scanToScan => .scanToScan none
  | .scanToLocalMap window radius => .localMap (.new window radius)

def update (node : ScanNode R) : ReferenceProvider R → ReferenceProvider R
  | .scanToScan last => .scanToScan (match node.scan with
      | some scan => some (scanToPoints m scan)
      | none => last)
  | .localMap p => .localMap (p.update m node)

def syncPoses (nodes : List (ScanNode R)) : ReferenceProvider R → ReferenceProvider R
  | .scanToScan last => .scanToScan last
  | .localMap p => .localMap (p.syncPoses nodes)

/-- A `ScanToScanProvider` has no normals, and this is the default of its base. -/
def getReferencePtsAndNormals : ReferenceProvider R → Option (PointCloud R)
  | .scanToScan _ => none
  | .localMap p => p.getReferencePtsAndNormals m

end ReferenceProvider

section Clouds

/-- The normals that a node keeps. -/
def storedNormals (scan : BeamScan R) : List (R × R) := (scanToPointsAndNormals m scan).2

/-- A node as the provider gets it. -/
def asScanNode (n : PoseNode R) (scan : Option (BeamScan R)) : ScanNode R :=
  ⟨n.index, n.x, n.y, n.yaw, scan, scan.map (storedNormals m)⟩

variable (scans : List (BeamScan R))

/-- The points and normals of the node with an index, in its own frame. -/
def nodeCloud (i : Nat) : PointCloud R :=
  match scans[i]? with
  | some scan => scanCloud m scan (some (storedNormals m scan))
  | none => ([], [])

/-- `build_target_cloud`. -/
def targetCloud (i : Nat) : Option (PointCloud R) :=
  let cloud := nodeCloud m scans i
  if cloud.1.isEmpty || cloud.2.isEmpty then none else some cloud

/-- `build_candidate_submap_with_normals`, from the nodes that it merges. -/
def submapCloud (candidate : PoseNode R) : Option (List (PoseNode R)) → PointCloud R
  | none => nodeCloud m scans candidate.index
  | some nodes =>
      let worldPts := nodes.flatMap fun n => pointsLocalToWorld m n.pose (nodeCloud m scans n.index).1
      let worldNormals := nodes.flatMap fun n =>
        normalsLocalToWorld m n.yaw (nodeCloud m scans n.index).2
      if worldPts.isEmpty then
        match scans[candidate.index]? with
        | some scan => scanToPointsAndNormals m scan
        | none => ([], [])
      else (pointsWorldToLocal m candidate.pose worldPts,
        normalsWorldToLocal m candidate.yaw worldNormals)

/-- `build_query_submap`, over the last five cached nodes. -/
def querySubmap (cache : List (PoseNode R)) (node : PoseNode R) (scan : BeamScan R) :
    List (R × R) :=
  let worldPts := (cache.drop (cache.length - 5)).flatMap fun n =>
    match scans[n.index]? with
    | some scan => pointsLocalToWorld m n.pose (scanToPoints m scan)
    | none => []
  if worldPts.isEmpty then scanToPoints m scan else pointsWorldToLocal m node.pose worldPts

end Clouds

variable (L : LoopSetup R)

/-- Answers where no matcher is asked. -/
def Matchers.idle : Matchers R where
  reference := false
  seqMatch guess := ⟨guess.x, guess.y, guess.yaw, false, fun _ _ => 0, 0⟩
  targetCloud _ := false
  nearMatch _ guess := ⟨guess.x, guess.y, guess.yaw, false, fun _ _ => 0, 0⟩
  sortRank := id
  submap _ := false
  loopMatch _ guess := ⟨guess.x, guess.y, guess.yaw, false, fun _ _ => 0, 0⟩

/-- The sequential match of a scan, against the reference. -/
def seqMatchers (reference : Option (PointCloud R)) (scan : BeamScan R) : Matchers R :=
  { Matchers.idle with
    reference := reference.isSome
    seqMatch := fun guess => L.matcher.answer scan reference guess }

def linkMatchers (nodes : List (PoseNode R)) : Matchers R :=
  { Matchers.idle with sortRank := L.sortRank nodes }

/-- The loop match against a submap. -/
def loopMatchers (submap : PointCloud R) (query : List (R × R)) (scan : BeamScan R) : Matchers R :=
  { Matchers.idle with
    submap := fun _ => !submap.1.isEmpty
    loopMatch := fun _ guess => L.loopMatch submap query scan guess }

namespace LoopClosureSystem

def new : LoopClosureSystem R := ⟨.new, [], .new L.reference, []⟩

/-- `try_add_loop_edge`. -/
def tryCandidate (scans : List (BeamScan R)) (scan : BeamScan R) (node : PoseNode R)
    (s : IndexedLoopBuilder R × LoopSearch R) (candidate : PoseNode R) :
    IndexedLoopBuilder R × LoopSearch R :=
  let merged := (s.1.candidateSubmap L.submapRadius L.radiusSearch candidate).2
  let answers := loopMatchers L (submapCloud m scans candidate merged)
    (querySubmap m scans s.1.allNodesCache node scan) scan
  IndexedLoopBuilder.tryAddLoopEdge L.config m answers L.submapRadius L.radiusSearch node s candidate

/-- The candidates for a loop with the new node are tried in turn. -/
def closeLoops (scans : List (BeamScan R)) (scan : BeamScan R) (b : IndexedLoopBuilder R)
    (node : PoseNode R) : IndexedLoopBuilder R :=
  let found := b.findLoopCandidates L.config L.radiusSearch node
  (found.2.foldl (tryCandidate m L scans scan node) (found.1, ⟨found.2, []⟩)).1

/-- The near-keyframe links of the new node; the first one has none. -/
def links (s : LoopClosureSystem R) (scans : List (BeamScan R)) (scan : BeamScan R)
    (nodes : List (PoseNode R)) (node : PoseNode R) :
    List (LinkRound R (PointCloud R)) × TargetCache (PointCloud R) :=
  if s.loop.inner.nodes.isEmpty then ([], s.targets)
  else ScanMatchingBuilder.batchedLinks L.config m (linkMatchers L nodes) L.matcher
    (targetCloud m scans) scan node nodes s.targets

def addScan (s : LoopClosureSystem R) (scan : Option (ScanData R × BeamScan R))
    (odom : OdomData R) : LoopClosureSystem R :=
  match scan with
  | none => s
  | some (data, beams) =>
      let a := seqMatchers L (s.provider.getReferencePtsAndNormals m) beams
      match s.loop.inner.addScan L.config.withoutLinks m a (some data) odom with
      | (inner, none) =>
          { s with loop := { s.loop with inner := inner } }
      | (inner, some node) =>
          let scans := s.scans ++ [beams]
          let linked := s.links m L scans beams inner.nodes node
          let loop := { s.loop with
            inner := { inner with edges := inner.edges ++ linked.1.flatMap (·.links) }
            allNodesCache := s.loop.allNodesCache ++ [node]
            dirty := true }
          { loop := closeLoops m L scans beams loop node
            scans := scans
            provider := s.provider.update m (asScanNode m node (some beams))
            targets := linked.2 }

/-- `ScanMatchingBuilder::reset` clears the targets of the matcher too. -/
def reset (s : LoopClosureSystem R) : LoopClosureSystem R where
  loop :=
    { s.loop with
      inner := { s.loop.inner with nodes := [], edges := [], lastOdom := none }
      loopEdges := []
      allNodesCache := []
      loopAttemptCount := 0
      loopSuccessCount := 0
      dirty := true }
  scans := []
  provider := s.provider
  targets := []

def replaceNodes (s : LoopClosureSystem R) (poses : Nat → Pose R) : LoopClosureSystem R :=
  let nodes := s.loop.inner.nodes.map fun n => n.withPose (poses n.index)
  { s with
    loop := s.loop.replaceNodes nodes
    provider := s.provider.syncPoses (nodes.map fun n => asScanNode m n s.scans[n.index]?) }

def step (s : LoopClosureSystem R) : BuilderInput R → LoopClosureSystem R
  | .addScan scan odom => s.addScan m L scan odom
  | .replaceNodes poses => s.replaceNodes m poses
  | .reset => s.reset

def run (inputs : List (BuilderInput R)) (s : LoopClosureSystem R) : LoopClosureSystem R :=
  inputs.foldl (step m L) s

end LoopClosureSystem

end Definitions

end MgRobot.Slam

import Mathlib.Data.List.AList
import Mathlib.Data.Finset.Lattice.Basic
import Mathlib.Data.Finset.Prod
import Mathlib.Data.String.Basic
import MgRobot.Slam.Orchestrator

/-!
# Pose graph messages

`PoseGraphDiff.msg` and `GetPoseGraph.srv` with their parallel arrays, and the
keys by which a reader files what they carry: node indices, and `from-to` for
sequential and for loop edges.
-/

namespace MgRobot.Slam

set_option autoImplicit false

structure PoseGraphDiff (R : Type*) where
  newNodeIndices : List Nat
  newNodeX : List R
  newNodeY : List R
  newNodeYaw : List R
  newNodeTimestamps : List R
  seqEdgeFrom : List Nat
  seqEdgeTo : List Nat
  seqEdgeScore : List R
  seqEdgeType : List Nat
  seqEdgeInfoDiag : List R
  priorNodeIndices : List Nat
  priorSigmaM : List R
  priorGnssStatus : List Int
  loopEdgeFrom : List Nat
  loopEdgeTo : List Nat
  loopEdgeScore : List R
  loopEdgeInfoDiag : List R
  loopClosed : Bool
  fullRefreshNeeded : Bool
  deriving DecidableEq, Repr

structure GraphStats where
  totalNodes : Nat
  totalSeqEdges : Nat
  totalLoopEdges : Nat
  icpAttemptCount : Nat
  icpSuccessCount : Nat
  odomFallbackCount : Nat
  loopAttemptCount : Nat
  loopSuccessCount : Nat
  deriving DecidableEq, Repr

/-- The response of `GetPoseGraph.srv`, its counts in one record. -/
structure GetPoseGraphResponse (R : Type*) where
  graph : PoseGraphDiff R
  stats : GraphStats
  deriving DecidableEq, Repr

/-- The map key `from-to`; an index that is missing from its array prints as `undefined`. -/
def edgeKey (source : Nat) (target : Option Nat) : String :=
  toString source ++ "-" ++ (target.map toString).getD "undefined"

/-- The node indices, the sequential edge keys and the loop edge keys of a pose graph. -/
abbrev Keys := Finset Nat × Finset String × Finset String

/-- The keys of parallel `from` and `to` arrays. -/
def edgeKeys (source target : List Nat) : List String :=
  source.zipIdx.map fun p => edgeKey p.1 target[p.2]?

def PoseGraphDiff.keys {R : Type*} (d : PoseGraphDiff R) : Keys :=
  (d.newNodeIndices.toFinset, (edgeKeys d.seqEdgeFrom d.seqEdgeTo).toFinset,
    (edgeKeys d.loopEdgeFrom d.loopEdgeTo).toFinset)

theorem edgeKeys_map {α : Type*} (source target : α → Nat) (es : List α) :
    edgeKeys (es.map source) (es.map target) =
      es.map fun e => edgeKey (source e) (some (target e)) := by
  apply List.ext_getElem
  · simp [edgeKeys]
  · intro i h1 h2
    have hi : i < es.length := by simpa using h2
    simp [edgeKeys, hi]

theorem edgeKey_toList (source target : Nat) : (edgeKey source (some target)).toList =
    Nat.toDigits 10 source ++ '-' :: Nat.toDigits 10 target := by
  simp [edgeKey]

theorem toDigits_injective {a b : Nat} (h : Nat.toDigits 10 a = Nat.toDigits 10 b) : a = b := by
  rw [← Nat.ofDigitChars_ten_toDigits (n := a), h, Nat.ofDigitChars_ten_toDigits]

/-- The dash separates the two indices. -/
theorem edgeKey_injective {a b c d : Nat} (h : edgeKey a (some b) = edgeKey c (some d)) :
    (a, b) = (c, d) := by
  have hno : ∀ n : Nat, '-' ∉ Nat.toDigits 10 n := by
    intro n hm
    exact absurd (Nat.isDigit_of_mem_toDigits (by decide) (by decide) hm) (by decide)
  have hl := congrArg String.toList h
  rw [edgeKey_toList, edgeKey_toList,
    List.append_cons_inj_of_notMem (hno a) (hno b)] at hl
  rw [toDigits_injective hl.1, toDigits_injective hl.2.2]

end MgRobot.Slam

/-!
# The SLAM node

`SlamNodeBase::on_frame` with its rendering step, the pose graph message builder, and
the `GetPoseGraph` service. The map is seen through the pose each node was last drawn
with.
-/

namespace MgRobot.Slam

set_option autoImplicit false

variable {R : Type*}

/-- `split_edges`: what joins no pair of a loop edge, and the loop edges. -/
def splitEdges (allEdges loopEdges : List (PoseEdge R)) : List (PoseEdge R) × List (PoseEdge R) :=
  (allEdges.filter fun e => e.ends ∉ loopEdges.map (·.ends), loopEdges)

/-- The three diagonal entries that a message carries for each edge. -/
def infoDiag (es : List (PoseEdge R)) : List R :=
  es.flatMap fun e => [e.information 0 0, e.information 1 1, e.information 2 2]

/-- The map after `rerender_all`, which does nothing for no nodes. -/
def rerenderAll (drawn : Nat → Option (Pose R)) (nodes : List (PoseNode R)) :
    Nat → Option (Pose R) :=
  if nodes.isEmpty then drawn else GraphOrchestrator.recordAll (fun _ => none) nodes

/-- The counters of the builders that have them. -/
def PoseGraphBuilder.stats (b : PoseGraphBuilder R) (seqEdges loopEdges : List (PoseEdge R)) :
    GraphStats :=
  let of (s : ScanMatchingBuilder R) (attempts successes : Nat) : GraphStats :=
    { totalNodes := b.getNodes.length
      totalSeqEdges := seqEdges.length
      totalLoopEdges := loopEdges.length
      icpAttemptCount := s.icpAttemptCount
      icpSuccessCount := s.icpSuccessCount
      odomFallbackCount := s.odomFallbackCount
      loopAttemptCount := attempts
      loopSuccessCount := successes }
  match b with
  | .odomOnly _ => of .new 0 0
  | .scanMatching s => of s 0 0
  | .loopClosure l => of l.inner l.loopAttemptCount l.loopSuccessCount

variable [Field R] [LinearOrder R]

def buildPoseGraphDiff (m : Numerics R) (nodes : List (PoseNode R))
    (seqEdges loopEdges : List (PoseEdge R)) (priors : List (GnssPrior R))
    (loopClosed fullRefreshNeeded : Bool) : PoseGraphDiff R where
  newNodeIndices := nodes.map (·.index)
  newNodeX := nodes.map (·.x)
  newNodeY := nodes.map (·.y)
  newNodeYaw := nodes.map (·.yaw)
  newNodeTimestamps := nodes.map (·.timestamp)
  seqEdgeFrom := seqEdges.map (·.fromIndex)
  seqEdgeTo := seqEdges.map (·.toIndex)
  seqEdgeScore := seqEdges.map (·.score)
  seqEdgeType := seqEdges.map fun e => if e.isOdomFallback then 1 else 0
  seqEdgeInfoDiag := infoDiag seqEdges
  priorNodeIndices := priors.map (·.nodeIndex)
  priorSigmaM := priors.map fun p =>
    if 0 < p.information 0 0 then 1 / m.sqrt (p.information 0 0) else -1
  priorGnssStatus := priors.map fun _ => 0
  loopEdgeFrom := loopEdges.map (·.fromIndex)
  loopEdgeTo := loopEdges.map (·.toIndex)
  loopEdgeScore := loopEdges.map (·.score)
  loopEdgeInfoDiag := infoDiag loopEdges
  loopClosed := loopClosed
  fullRefreshNeeded := fullRefreshNeeded

/-- The answer of `GetPoseGraph`. -/
def handleService (m : Numerics R) (b : PoseGraphBuilder R) : GetPoseGraphResponse R :=
  let split := splitEdges b.getEdges b.getLoopEdges
  { graph := buildPoseGraphDiff m b.getNodes split.1 split.2 [] false true
    stats := b.stats split.1 split.2 }

/-- `drawn` is what the renderer has done: the pose each node of the map was last drawn with. -/
structure SlamNode (R : Type*) where
  orchestrator : GraphOrchestrator R
  drawn : Nat → Option (Pose R)

namespace SlamNode

variable (cfg : SlamConfig R) (m : Numerics R)

def init : SlamNode R := ⟨.new cfg, fun _ => none⟩

/-- The diff that `on_frame` publishes for the result of a frame. -/
def frameDiff (r : ScanProcessResult R) (node : PoseNode R) : PoseGraphDiff R :=
  buildPoseGraphDiff m [node] r.newSeqEdge.toList r.newLoopEdges r.newGnssPrior.toList r.loopClosed
    r.rerenderRequired

omit [Field R] [LinearOrder R] in
/-- The map after the rendering step; `added` is the answer of the renderer's `add_node`. -/
def render (drawn : Nat → Option (Pose R)) (o : GraphOrchestrator R) (r : ScanProcessResult R)
    (node : PoseNode R) (added : Bool) : Nat → Option (Pose R) :=
  if r.loopClosed || r.rerenderRequired then rerenderAll drawn o.poseGraph.getNodes
  else if added then Function.update drawn node.index (some node.pose)
  else rerenderAll drawn o.poseGraph.getNodes

/-- `on_frame`: the node after the frame and the diff it publishes, if any. -/
def onFrame (n : SlamNode R) (f : Frame R) (added : Bool) :
    Option (SlamNode R × Option (PoseGraphDiff R)) :=
  (n.orchestrator.processFrame cfg m f).map fun p =>
    match p.2.node with
    | none => (⟨p.1, n.drawn⟩, none)
    | some node =>
        if cfg.skipIntermediateRendering then (⟨p.1, n.drawn⟩, none)
        else (⟨p.1, render n.drawn p.1 p.2 node added⟩, some (frameDiff m p.2 node))

/-- A frame and the answer of `add_node` as a step. -/
def step (n : SlamNode R) (a : Frame R × Bool) : Option (SlamNode R) :=
  (n.onFrame cfg m a.1 a.2).map (·.1)

variable {cfg m} {n n' : SlamNode R} {f : Frame R} {added : Bool}

/-- The inversion of `on_frame`. -/
theorem onFrame_cases {d : Option (PoseGraphDiff R)}
    (h : n.onFrame cfg m f added = some (n', d)) :
    ∃ r, n.orchestrator.processFrame cfg m f = some (n'.orchestrator, r) ∧
      (((r.node = none ∨ cfg.skipIntermediateRendering = true) ∧ n'.drawn = n.drawn ∧ d = none) ∨
        ∃ node, r.node = some node ∧ cfg.skipIntermediateRendering = false ∧
          n'.drawn = render n.drawn n'.orchestrator r node added ∧
          d = some (frameDiff m r node)) := by
  obtain ⟨⟨o', r⟩, hp, hd⟩ := Option.map_eq_some_iff.mp h
  rw [hp]
  dsimp only at hd
  split at hd
  · next hn =>
    obtain ⟨rfl, rfl⟩ := Prod.mk.inj hd
    exact ⟨r, rfl, Or.inl ⟨Or.inl hn, rfl, rfl⟩⟩
  · next node hn =>
    split at hd
    · next hskip =>
      obtain ⟨rfl, rfl⟩ := Prod.mk.inj hd
      exact ⟨r, rfl, Or.inl ⟨Or.inr hskip, rfl, rfl⟩⟩
    · next hskip =>
      obtain ⟨rfl, rfl⟩ := Prod.mk.inj hd
      exact ⟨r, rfl, Or.inr ⟨node, hn, Bool.not_eq_true _ ▸ hskip, rfl, rfl⟩⟩

end SlamNode

end MgRobot.Slam

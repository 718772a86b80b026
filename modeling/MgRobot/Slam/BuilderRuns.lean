import MgRobot.Lib.Runs
import MgRobot.Slam.BuilderGrowth

/-!
# Runs of a pose graph builder

The calls the orchestrator makes on a builder, with the odometry of the scans that
made a node. Where the odometry alone decides, a keyframe adds the edge of the motion
since the keyframe before it.
-/

namespace MgRobot.Slam

set_option autoImplicit false

open MgRobot.Lib.Runs

variable {R : Type*}

inductive BuilderCall (R : Type*) where
  | addScan (matchers : Matchers R) (scan : Option (ScanData R)) (odom : OdomData R)
  | replaceNodes (nodes : List (PoseNode R))

/-- No match converges. -/
def Matchers.Rejects (a : Matchers R) : Prop :=
  (∀ guess, (a.seqMatch guess).converged = false) ∧
    ∀ i guess, (a.nearMatch i guess).converged = false

/-- The odometry as a pose. -/
def OdomData.pose (o : OdomData R) : Pose R := ⟨o.x, o.y, o.yaw⟩

/-- The motion that an edge records. -/
def PoseEdge.delta (e : PoseEdge R) : Pose R := ⟨e.dx, e.dy, e.dyaw⟩

/-- What the builders keep of the way: nodes, the edges along it and the last odometry. -/
structure Track (R : Type*) where
  nodes : List (PoseNode R)
  edges : List (PoseEdge R)
  lastOdom : Option (OdomData R)

namespace PoseGraphBuilder

def track : PoseGraphBuilder R → Track R
  | .odomOnly b => ⟨b.nodes, b.edges, b.lastOdom⟩
  | .scanMatching b => ⟨b.nodes, b.edges, b.lastOdom⟩
  | .loopClosure b => ⟨b.inner.nodes, b.inner.edges, b.inner.lastOdom⟩

def isOdomOnly : PoseGraphBuilder R → Prop
  | .odomOnly _ => True
  | _ => False

end PoseGraphBuilder

/-- A builder, and the odometry of every scan that made a node. -/
structure BuilderRun (R : Type*) where
  builder : PoseGraphBuilder R
  keyframes : List (OdomData R)

variable [Field R]

namespace BuilderRun

variable [LinearOrder R] (cfg : SlamConfig R) (m : Numerics R)

def init : BuilderRun R := ⟨.new cfg, []⟩

/-- `replace_nodes` is called with the nodes of the builder at other poses. -/
def step (w : BuilderRun R) : BuilderCall R → Option (BuilderRun R)
  | .addScan a scan odom =>
      let added := w.builder.addScan cfg m a scan odom
      some ⟨added.1, w.keyframes ++ if added.2.isSome then [odom] else []⟩
  | .replaceNodes nodes =>
      if nodes.map (·.index) = w.builder.getNodes.map (·.index) then
        some { w with builder := w.builder.replaceNodes nodes }
      else none

end BuilderRun

variable (cfg : SlamConfig R) (m : Numerics R)

/-- The edge from `prev` to node `index` is the odometry since the last keyframe. -/
structure OdometryEdge (prev : PoseNode R) (index : Nat) (last odom : OdomData R)
    (e : PoseEdge R) : Prop where
  ends : e.ends = (prev.index, index)
  delta : e.delta = ⟨(m.worldDeltaToLocal (odom.x - last.x) (odom.y - last.y) last.yaw).1,
    (m.worldDeltaToLocal (odom.x - last.x) (odom.y - last.y) last.yaw).2,
    m.angleDiff odom.yaw last.yaw⟩

/-- The first keyframe, or one that adds the odometry's edge. -/
inductive Track.Extends (odom : OdomData R) (node : PoseNode R) : Track R → Track R → Prop
  | first {t : Track R} (empty : t.nodes = []) : Extends odom node t ⟨[node], t.edges, some odom⟩
  | next {t : Track R} {prev : PoseNode R} {last : OdomData R} {e : PoseEdge R}
      (back : t.nodes.getLast? = some prev) (lastOdom : t.lastOdom = some last)
      (edge : OdometryEdge m prev t.nodes.length last odom e) :
      Extends odom node t ⟨t.nodes ++ [node], t.edges ++ [e], some odom⟩

variable [LinearOrder R] (a : Matchers R)

theorem OdomOnlyBuilder.addScan_track (b : OdomOnlyBuilder R) (scan : Option (ScanData R))
    (odom : OdomData R) : b.addScan cfg m scan odom = (b, none) ∨
      ∃ b' node, b.addScan cfg m scan odom = (b', some node) ∧
        Track.Extends m odom node (PoseGraphBuilder.odomOnly b).track
          (PoseGraphBuilder.odomOnly b').track := by
  rcases b.addScan_cases cfg m scan odom with hs | ⟨data, hn, hs⟩ | ⟨data, prev, last, hp, hl, hs⟩
  · exact Or.inl hs
  · exact Or.inr ⟨_, _, hs, .first hn⟩
  · exact Or.inr ⟨_, _, hs, .next hp hl ⟨rfl, rfl⟩⟩

namespace ScanMatchingBuilder

variable {a}

/-- Without a match the odometry is kept. -/
theorem sequentialMatch_rejected (h : a.Rejects) (guess : OdomData R) :
    ∃ information, sequentialMatch cfg m a guess =
      ⟨guess.x, guess.y, guess.yaw, information, 0, true⟩ := by
  unfold sequentialMatch
  split
  · dsimp only
    rw [h.1 guess]
    exact ⟨_, rfl⟩
  · exact ⟨_, rfl⟩

theorem nearLink_rejected (h : a.Rejects) (t : R) (current candidate : PoseNode R) :
    nearLink cfg m a t current candidate = none := by
  dsimp only [nearLink]
  rw [if_neg]
  intro hg
  rw [h.2] at hg
  exact absurd hg.2.1 Bool.false_ne_true

theorem nearLinks_rejected (h : a.Rejects) (nodes : List (PoseNode R)) (current : PoseNode R) :
    nearLinks cfg m a nodes current = [] := by
  have haccept : ∀ (t : R) (added : Int) (cs : List (LinkCandidate R)),
      acceptLinks cfg m a t current added cs = [] := by
    intro t added cs
    induction cs with
    | nil => rfl
    | cons c rest ih =>
        unfold acceptLinks
        rw [nearLink_rejected cfg m h, ih, ite_self]
  dsimp only [nearLinks]
  split
  · rfl
  · rw [haccept, ite_self]

theorem addScan_track (h : a.Rejects) (b : ScanMatchingBuilder R) (scan : Option (ScanData R))
    (odom : OdomData R) : b.addScan cfg m a scan odom = (b, none) ∨
      ∃ b' node, b.addScan cfg m a scan odom = (b', some node) ∧
        Track.Extends m odom node (PoseGraphBuilder.scanMatching b).track
          (PoseGraphBuilder.scanMatching b').track := by
  rcases b.addScan_cases cfg m a scan odom with hs | ⟨data, hn, hs⟩ |
    ⟨b', data, prev, last, node, hs, hm⟩
  · exact Or.inl hs
  · exact Or.inr ⟨_, _, hs, .first hn⟩
  · refine Or.inr ⟨b', node, hs, ?_⟩
    obtain ⟨information, hguess⟩ := sequentialMatch_rejected cfg m h
      ⟨data.timestamp, (m.worldDeltaToLocal (odom.x - last.x) (odom.y - last.y) last.yaw).1,
        (m.worldDeltaToLocal (odom.x - last.x) (odom.y - last.y) last.yaw).2,
        m.angleDiff odom.yaw last.yaw⟩
    have hedges := hm.edges
    dsimp only at hedges
    rw [nearLinks_rejected cfg m h, hguess] at hedges
    have htrack : (PoseGraphBuilder.scanMatching b').track = ⟨b'.nodes, b'.edges, b'.lastOdom⟩ := rfl
    rw [htrack, hm.nodes, hedges, hm.nextOdom]
    exact .next hm.back hm.lastOdom ⟨Prod.ext rfl hm.index, rfl⟩

end ScanMatchingBuilder

theorem LoopClosureBuilder.foldl_tryAddLoopEdge_inner (node : PoseNode R)
    (candidates : List (PoseNode R)) (b : LoopClosureBuilder R) :
    (candidates.foldl (fun b c => b.tryAddLoopEdge cfg m a node c) b).inner = b.inner := by
  induction candidates generalizing b with
  | nil => rfl
  | cons c rest ih =>
      rw [List.foldl_cons, ih]
      dsimp only [tryAddLoopEdge]
      split
      · rfl
      · split
        · rfl
        · rfl

variable {a}

theorem LoopClosureBuilder.addScan_of_some {b : LoopClosureBuilder R} {i' : ScanMatchingBuilder R}
    {node : PoseNode R} {scan : Option (ScanData R)} {odom : OdomData R}
    (h : b.inner.addScan cfg m a scan odom = (i', some node)) :
    ∃ b', b.addScan cfg m a scan odom = (b', some node) ∧ b'.inner = i' := by
  unfold addScan
  rw [h]
  exact ⟨_, rfl, foldl_tryAddLoopEdge_inner ..⟩

namespace PoseGraphBuilder

/-- A scan leaves the builder as it is, or the track takes one more keyframe. -/
theorem addScan_track (b : PoseGraphBuilder R) (h : b.isOdomOnly ∨ a.Rejects)
    (scan : Option (ScanData R)) (odom : OdomData R) : b.addScan cfg m a scan odom = (b, none) ∨
      ∃ b' node, b.addScan cfg m a scan odom = (b', some node) ∧
        Track.Extends m odom node b.track b'.track := by
  cases b with
  | odomOnly b =>
      rcases b.addScan_track cfg m scan odom with hn | ⟨b', node, hs, ht⟩
      · refine Or.inl ?_
        rw [addScan, hn]
        rfl
      · refine Or.inr ⟨.odomOnly b', node, ?_, ht⟩
        rw [addScan, hs]
        rfl
  | scanMatching b =>
      rcases ScanMatchingBuilder.addScan_track cfg m (h.resolve_left id) b scan odom with
        hn | ⟨b', node, hs, ht⟩
      · refine Or.inl ?_
        rw [addScan, hn]
        rfl
      · refine Or.inr ⟨.scanMatching b', node, ?_, ht⟩
        rw [addScan, hs]
        rfl
  | loopClosure b =>
      rcases ScanMatchingBuilder.addScan_track cfg m (h.resolve_left id) b.inner scan odom with
        hn | ⟨i', node, hs, ht⟩
      · refine Or.inl ?_
        rw [addScan, LoopClosureBuilder.addScan, hn]
        rfl
      · obtain ⟨b', hb, rfl⟩ := LoopClosureBuilder.addScan_of_some cfg m hs
        refine Or.inr ⟨.loopClosure b', node, ?_, ht⟩
        rw [addScan, hb]
        rfl

end PoseGraphBuilder

end MgRobot.Slam

import MgRobot.Slam.PoseGraphDiffs

/-!
# Diffs over runs

Over whole runs of the SLAM node, every diff that is not marked as a refresh agrees
with the service exactly as long as every such frame has nothing else to tell
(`DiffComplete`).
-/

namespace MgRobot.Slam

set_option autoImplicit false

open MgRobot.Lib MgRobot.Lib.Runs MgRobot.WebUi GraphOrchestrator

variable {R : Type*} [Field R] [LinearOrder R]

namespace SlamNode

variable (cfg : SlamConfig R) (m : Numerics R)

/-- The diff of the frame, unless it is marked as a refresh, agrees with the service. -/
def PublishesAgreeing (n : SlamNode R) (a : Frame R × Bool) : Prop :=
  ∀ n' d, n.onFrame cfg m a.1 a.2 = some (n', some d) → d.fullRefreshNeeded = false →
    DiffAgrees m n.orchestrator.poseGraph n'.orchestrator.poseGraph d

instance (n : SlamNode R) (a : Frame R × Bool) : Decidable (PublishesAgreeing cfg m n a) :=
  match h : n.onFrame cfg m a.1 a.2 with
  | none => isTrue fun n' d ho _ => by
      rw [h] at ho
      cases ho
  | some (_, none) => isTrue fun n' d ho _ => by
      rw [h] at ho
      cases ho
  | some (n', some d) => decidable_of_iff (d.fullRefreshNeeded = false →
      DiffAgrees m n.orchestrator.poseGraph n'.orchestrator.poseGraph d) (by
        constructor
        · intro hd n'' d' ho
          rw [h] at ho
          obtain ⟨rfl, hs⟩ := Prod.mk.inj (Option.some.inj ho)
          obtain rfl := Option.some.inj hs
          exact hd
        · exact fun hp => hp n' d h)

/-- The frame publishes a diff that is not marked as a refresh. -/
def Incremental (n : SlamNode R) (a : Frame R × Bool) : Prop :=
  ∃ n' d, n.onFrame cfg m a.1 a.2 = some (n', some d) ∧ d.fullRefreshNeeded = false

/-- The frame adds no loop edge and no near-keyframe link but to its neighbour, and if the graph
is turned at it then it is the first. -/
def DiffComplete (n : SlamNode R) (f : Frame R) : Prop :=
  match n.orchestrator.poseGraph.addScan cfg m f.matchers f.sensor.scan f.sensor.odom with
  | (_, none) => True
  | (b, some node) => n.orchestrator.poseGraph.loopsAdded b = [] ∧
      (∀ e ∈ n.orchestrator.poseGraph.nearAdded b, e.fromIndex + 1 = e.toIndex) ∧
      (n.orchestrator.state = .initializing →
        (n.orchestrator.alignFix cfg m f.sensor).isSome = true → node.index = 0)

variable {cfg m}

section Entry

variable {o o₁ p : GraphOrchestrator R} {f : Frame R} {b : PoseGraphBuilder R}
variable {node last : PoseNode R} {seq near loops l : List (PoseEdge R)}
variable {s : Option (PoseEdge R)} {prior : Option (GnssPrior R)}

/-- The node that a frame returns is the one that entered, at its place after a re-anchoring. -/
theorem last_index (g : PoseGraphBuilder.Grows cfg o.poseGraph b node seq near loops)
    (hat : AtNode o₁ b) (hp : Prepared cfg m f o₁ p node last s l prior) :
    last.index = node.index := by
  rw [hp.lastNode]
  split
  · have hl : (o₁.poseGraph.getNodes.map (·.index)).getLast? = some node.index := by
      rw [hat.nodes, g.getNodes, List.map_append, List.map_singleton, List.getLast?_concat]
    rw [List.getLast?_map] at hl
    obtain ⟨n, hn, hi⟩ := Option.map_eq_some_iff.mp hl
    rw [hn]
    exact hi
  · rfl

/-- A frame that closes no loop hands over no long edge. -/
theorem loopEdges_eq_nil (hp : Prepared cfg m f o₁ p node last s l prior)
    (hc : o₁.closes cfg m f node = false) : l = [] := by
  rw [hp.loopEdges]
  unfold closes at hc
  have hle := of_decide_eq_false (Bool.or_eq_false_iff.mp hc).1
  exact List.drop_eq_nil_of_le (by omega)

/-- The sequential edge that an entered node returns: none if the graph is turned at it. -/
theorem endsSet_newSeqEdge (h : WellFormed cfg o)
    (g : PoseGraphBuilder.Grows cfg o.poseGraph b node seq near loops)
    (he : Entered cfg m o o₁ b node) (hp : Prepared cfg m f o₁ p node last s l prior) :
    endsSet s.toList = if o.initialized then endsSet seq else ∅ := by
  rw [hp.seqEdge, he.lastNodeIndex h g, (he.atNode h g).getEdges]
  cases o.initialized with
  | true =>
      rw [if_pos rfl, if_pos (by omega), if_pos rfl]
      exact g.endsSet_latest h.builder
  | false =>
      rw [if_neg Bool.false_ne_true, if_neg (by omega), if_neg Bool.false_ne_true]
      rfl

end Entry

theorem keys_frameDiff (r : ScanProcessResult R) (node : PoseNode R) :
    (frameDiff m r node).keys = ({node.index}, (endsSet r.newSeqEdge.toList).image pairKey,
      (endsSet r.newLoopEdges).image pairKey) :=
  keys_buildPoseGraphDiff ..

section Frame

variable {o o' : GraphOrchestrator R} {f : Frame R}

/-- `DiffComplete` of a frame that adds a node. -/
theorem diffComplete_iff {n : SlamNode R} {b : PoseGraphBuilder R} {node : PoseNode R}
    {seq near loops : List (PoseEdge R)}
    (g : PoseGraphBuilder.Grows cfg n.orchestrator.poseGraph b node seq near loops)
    (hadd : n.orchestrator.poseGraph.addScan cfg m f.matchers f.sensor.scan f.sensor.odom =
      (b, some node)) :
    DiffComplete cfg m n f ↔ loops = [] ∧ (∀ e ∈ near, e.fromIndex + 1 = e.toIndex) ∧
      (n.orchestrator.state = .initializing →
        (n.orchestrator.alignFix cfg m f.sensor).isSome = true → node.index = 0) := by
  unfold DiffComplete
  rw [hadd]
  dsimp only
  rw [g.loopsAdded, g.nearAdded]

/-- The diff of a node that waits for GNSS. -/
theorem diffAgrees_waiting {b : PoseGraphBuilder R} {node : PoseNode R}
    {seq near loops : List (PoseEdge R)} {c e : Bool} (h : WellFormed cfg o)
    (g : PoseGraphBuilder.Grows cfg o.poseGraph b node seq near loops)
    (hgraph : o'.poseGraph = b) :
    DiffAgrees m o.poseGraph o'.poseGraph (frameDiff m ⟨some node, c, e,
        getLatestSeqEdge node.index o'.poseGraph.getEdges, [], none⟩ node) ↔
      loops = [] ∧ ∀ e ∈ near, e.fromIndex + 1 = e.toIndex := by
  rw [hgraph]
  exact diffAgrees_iff_of_seq h.builder g rfl (keys_frameDiff ..) (g.endsSet_latest h.builder)

/-- The diff of an entered node that closes no loop. -/
theorem diffAgrees_entered {o₁ p : GraphOrchestrator R} {b : PoseGraphBuilder R}
    {node last : PoseNode R} {seq near loops : List (PoseEdge R)} {s : Option (PoseEdge R)}
    {prior : Option (GnssPrior R)} {c e : Bool} (h : WellFormed cfg o)
    (g : PoseGraphBuilder.Grows cfg o.poseGraph b node seq near loops)
    (hent : Entered cfg m o o₁ b node) (hp : Prepared cfg m f o₁ p node last s [] prior)
    (ha : PosesApplied p o') :
    DiffAgrees m o.poseGraph o'.poseGraph
        (frameDiff m ⟨some (o'.optimizedNode last), c, e, s, [], prior⟩ (o'.optimizedNode last)) ↔
      loops = [] ∧
        if o.initialized then ∀ e ∈ near, e.fromIndex + 1 = e.toIndex else node.index = 0 := by
  have hat := hent.atNode h g
  have hkeys := keys_frameDiff (m := m)
    ⟨some (o'.optimizedNode last), c, e, s, [], prior⟩ (o'.optimizedNode last)
  rw [optimizedNode_index, last_index g hat hp] at hkeys
  have hservice : (handleService m o'.poseGraph).graph.keys =
      (handleService m b).graph.keys := by
    rw [keys_handleService, keys_handleService, ha.nodes, map_optimizedNode_index, hp.poseGraph,
      hat.nodes, ha.loopEdges, hp.poseGraph, hat.loopEdges]
    unfold PoseGraphBuilder.seqEnds
    rw [ha.getEdges, ha.loopEdges, hp.poseGraph, hat.getEdges, hat.loopEdges]
  have hs := endsSet_newSeqEdge h g hent hp
  cases hi : o.initialized with
  | true =>
      rw [hi, if_pos rfl] at hs
      rw [if_pos rfl]
      exact diffAgrees_iff_of_seq h.builder g hservice hkeys hs
  | false =>
      rw [hi, if_neg Bool.false_ne_true] at hs
      rw [if_neg Bool.false_ne_true]
      exact diffAgrees_iff_of_empty h.builder g hservice hkeys hs

/-- What an entered node's diff needs besides the loop edges, in terms of the frame. -/
theorem newEdges_complete_iff {o₁ : GraphOrchestrator R} {b : PoseGraphBuilder R}
    {node : PoseNode R} {seq near loops : List (PoseEdge R)} (h : WellFormed cfg o)
    (g : PoseGraphBuilder.Grows cfg o.poseGraph b node seq near loops)
    (he : o.entry cfg m f = some (o₁, node)) :
    (if o.initialized then ∀ e ∈ near, e.fromIndex + 1 = e.toIndex else node.index = 0) ↔
      (∀ e ∈ near, e.fromIndex + 1 = e.toIndex) ∧
        (o.state = .initializing → (o.alignFix cfg m f.sensor).isSome = true →
          node.index = 0) := by
  have hidx := g.keyframe.index
  cases hi : o.initialized with
  | true =>
      rw [if_pos rfl]
      refine ⟨fun hn => ⟨hn, fun hst => ?_⟩, And.left⟩
      exact Bool.noConfusion (hi.symm.trans (h.initialized_eq hst).2)
  | false =>
      rw [if_neg Bool.false_ne_true]
      constructor
      · intro h0
        rw [(g.keyframe.first (by omega)).2]
        exact ⟨fun e he => absurd he List.not_mem_nil, fun _ _ => h0⟩
      · intro ⟨_, hturn⟩
        cases hst : o.state with
        | initializing => exact hturn hst (alignFix_of_entry h hst he)
        | running =>
            rw [hidx, h.empty hi hst]
            rfl

end Frame

/-- The diff of a frame that is not marked as a refresh agrees exactly if it is complete. -/
theorem diffAgrees_iff_complete {n n' : SlamNode R} {f : Frame R} {added : Bool}
    {d : PoseGraphDiff R} (h : WellFormed cfg n.orchestrator)
    (ho : n.onFrame cfg m f added = some (n', some d)) (hd : d.fullRefreshNeeded = false) :
    DiffAgrees m n.orchestrator.poseGraph n'.orchestrator.poseGraph d ↔ DiffComplete cfg m n f := by
  obtain ⟨r, hp, ⟨_, _, hnone⟩ | ⟨node', hnode, _, _, hsome⟩⟩ := onFrame_cases ho
  · cases hnone
  obtain rfl := Option.some.inj hsome
  rcases processFrame_cases h.builder hp with ⟨_, rfl, _⟩ | hw | ⟨o₁, node, he, hpn⟩
  · cases hnode
  · obtain ⟨b, node, seq, near, loops, g, hadd, hb, hst, hst', _, rfl⟩ := hw
    obtain rfl := Option.some.inj hnode
    obtain ⟨hno, hgraph⟩ := waiting_poseGraph h g hb hst hst'
    rw [diffAgrees_waiting h g hgraph, diffComplete_iff g hadd, hno]
    exact and_congr_right fun _ => ⟨fun hn => ⟨hn, fun _ hal => Bool.noConfusion hal⟩, And.left⟩
  · obtain ⟨b, seq, near, loops, g, hadd, hent⟩ := entry_spec h he
    have hat := hent.atNode h g
    obtain ⟨p, last, s, l, prior, hpr, hn', rfl⟩ :=
      processNode_cases hat.optimizer hat.loopCount hpn
    have ha := p.applyOptimizedPoses_spec cfg m last (o₁.closes cfg m f node)
    rw [← hn'] at ha
    obtain rfl := Option.some.inj hnode
    -- a frame that hands over a long edge is marked as a refresh
    have hclose : o₁.closes cfg m f node = false := by
      have hflag := hd
      by_contra hc
      rw [Bool.not_eq_false] at hc
      rw [hc] at hflag
      exact Bool.noConfusion hflag
    obtain rfl := loopEdges_eq_nil hpr hclose
    rw [diffAgrees_entered h g hent hpr ha, diffComplete_iff g hadd]
    exact and_congr_right fun _ => newEdges_complete_iff h g he

theorem wellFormed_step {n n' : SlamNode R} {a : Frame R × Bool}
    (h : WellFormed cfg n.orchestrator) (hs : n.step cfg m a = some n') :
    WellFormed cfg n'.orchestrator := by
  obtain ⟨⟨v, d⟩, ho, rfl⟩ := Option.map_eq_some_iff.mp hs
  obtain ⟨r, hp, _⟩ := onFrame_cases ho
  exact wellFormed_frame h hp

/-- In every run, all diffs that are not marked as refreshes agree with the service, exactly if
every frame of such a diff is complete. -/
theorem diffs_agree_iff (as : List (Frame R × Bool)) :
    Meets (step cfg m) (PublishesAgreeing cfg m) (init cfg) as ↔
      Meets (step cfg m) (fun n a => Incremental cfg m n a → DiffComplete cfg m n a.1)
        (init cfg) as := by
  have hinv : ∀ (Q : SlamNode R → Frame R × Bool → Prop) s a t, WellFormed cfg s.orchestrator →
      Q s a → step cfg m s a = some t → WellFormed cfg t.orchestrator :=
    fun _ s a t h _ hs => wellFormed_step h hs
  constructor
  · apply meets_of_invariant (hinv _) _ (wellFormed_new cfg)
    intro n a h hpub hinc
    obtain ⟨n', d, ho, hd⟩ := hinc
    exact (diffAgrees_iff_complete h ho hd).mp (hpub n' d ho hd)
  · apply meets_of_invariant (hinv _) _ (wellFormed_new cfg)
    intro n a h hcomp n' d ho hd
    exact (diffAgrees_iff_complete h ho hd).mpr (hcomp ⟨n', d, ho, hd⟩)

/-- Scan matching with near-keyframe links, without GNSS. -/
def linkConfig : SlamConfig ℚ :=
  let d : SlamConfig ℚ := .defaults
  { d with gnss := { d.gnss with enabled := false } }

/-- The robot goes a metre ahead, back, and ahead again, and node 3 is linked with node 1. -/
def linkFrames : List (Frame ℚ × Bool) :=
  (List.range 4).map fun i : Nat => (⟨⟨some ⟨i⟩, ⟨i, (i % 2 : Nat), 0, 0⟩, none⟩,
    .agreeing (if i = 3 then [1] else []) [], keepValues⟩, true)

/-- Odometry and GNSS. -/
def odomConfig : SlamConfig ℚ :=
  let d : SlamConfig ℚ := .defaults
  { d with
    scanMatching := { d.scanMatching with enabled := false }
    loopClosure := { d.loopClosure with enabled := false } }

/-- Three metres along the axis with fixes that need no turn of the graph. -/
def axisFrames : List (Frame ℚ × Bool) :=
  (List.range 4).map fun i : Nat => (⟨⟨some ⟨i⟩, ⟨i, i, 0, 0⟩,
    some ⟨i, i, 0, fun _ _ => 0, 1⟩⟩, .agreeing [] [], keepValues⟩, true)

/-- The first diff with the link `1-3` does not carry it, and the diff of the frame that turns
the graph does not carry the sequential edge `1-2`. -/
theorem diff_leaves_edges_out :
    ¬ Meets (step linkConfig .axis) (PublishesAgreeing linkConfig .axis) (init linkConfig)
        linkFrames ∧
      ¬ Meets (step odomConfig .axis) (PublishesAgreeing odomConfig .axis) (init odomConfig)
        axisFrames := by
  decide +kernel

end SlamNode

end MgRobot.Slam

import MgRobot.Slam.EdgeForwarding

/-!
# Every edge once

Over whole runs, the between factors of the optimizer are the edges of the builder
exactly as long as every frame forwards what it adds (`ForwardsAll`).
-/

namespace MgRobot.Slam

set_option autoImplicit false

open MgRobot.Lib MgRobot.Lib.Runs

variable {R : Type*}

namespace PoseGraphBuilder

variable {cfg : SlamConfig R} {b b' : PoseGraphBuilder R} {node : PoseNode R}
variable {seq near loops : List (PoseEdge R)}

theorem Grows.newEdges (g : Grows cfg b b' node seq near loops) (hw : b.WellIndexed)
    (hpos : 0 < node.index) (hdiff : 2 ≤ cfg.scanMatching.nearLinks.minIndexDiff) :
    ∃ e, seq = [e] ∧ NewEdges node.index e near loops b.getLoopEdges := by
  have hi := g.keyframe.index
  obtain ⟨e, hseq, he⟩ := g.keyframe.seqEdge (by omega)
  obtain ⟨hf, ht⟩ := Prod.mk.inj he
  refine ⟨e, hseq, ?_, ?_, ?_, ?_⟩
  · have hs := e.span_of_le (by omega)
    omega
  · intro d hd
    have hl := g.keyframe.links d hd
    have hs := d.span_of_le (by omega)
    omega
  · exact fun d hd => (g.loopsTo d hd).1
  · intro d hd
    have hb := (hw.edges d (List.mem_append_right _ hd)).2
    omega

/-- The mesh edges of a node are edges of its frame. -/
theorem Grows.meshEdges_perm (g : Grows cfg b b' node seq near loops) (hw : b.WellIndexed) :
    (meshEdges node.index b'.getEdges).Perm
      ((seq ++ near ++ loops).filter fun d => 1 < d.span ∧ d.span < 15) := by
  have hi := g.keyframe.index
  have hp := ((List.reverse_perm _).trans g.getEdges_perm).filter fun d : PoseEdge R =>
    d.toIndex = node.index ∧ 1 < d.span ∧ d.span < 15
  have hold : b.getEdges.filter (fun d : PoseEdge R =>
      d.toIndex = node.index ∧ 1 < d.span ∧ d.span < 15) = [] := by
    apply List.filter_eq_nil_iff.mpr
    intro d hd
    have hb := (hw.edges d hd).2
    rw [decide_eq_true_iff]
    omega
  rw [List.filter_append, hold, List.nil_append] at hp
  refine hp.trans (List.Perm.of_eq ?_)
  apply List.filter_congr
  intro d hd
  have ht := (g.mem hd).2
  rw [decide_eq_decide]
  omega

/-- The long edges past the old count: links come before the old loop edges. -/
theorem Grows.longEdges_drop (g : Grows cfg b b' node seq near loops)
    (hseq : ∀ e ∈ seq, e.span = 1) :
    (longEdges b'.getEdges).drop (longEdges b.getEdges).length =
      (longEdges near ++ longEdges b.getLoopEdges).drop (longEdges b.getLoopEdges).length ++
        longEdges loops := by
  have hs : longEdges seq = [] := by
    apply List.filter_eq_nil_iff.mpr
    intro e he
    rw [decide_eq_true_iff, hseq e he]
    decide
  unfold getEdges
  rw [g.innerEdges, g.getLoopEdges]
  simp only [GraphOrchestrator.longEdges_append, hs, List.nil_append, List.length_append]
  rw [List.append_assoc, List.drop_length_add_append, ← List.append_assoc,
    List.drop_append_of_le_length]
  rw [List.length_append]
  omega

end PoseGraphBuilder

namespace GraphOrchestrator

/-- The between factors of the optimizer are the edges of the builder, each once. -/
def EdgesForwarded (o : GraphOrchestrator R) : Prop :=
  o.optimizer.betweenFactors.Perm (o.poseGraph.getEdges.map (·.factor))

variable [Field R] [LinearOrder R] (cfg : SlamConfig R) (m : Numerics R)

/-- In a frame of the running phase: no new loop edge joins neighbours or a node with itself,
and a long near-keyframe link comes only while there is no long loop edge. -/
def ForwardsAll (o : GraphOrchestrator R) (f : Frame R) : Prop :=
  o.state = .running →
    match o.poseGraph.addScan cfg m f.matchers f.sensor.scan f.sensor.odom with
    | (_, none) => True
    | (b, some _) => (∀ e ∈ o.poseGraph.loopsAdded b, 2 ≤ e.span) ∧
        (longEdges (o.poseGraph.nearAdded b) = [] ∨ longEdges o.poseGraph.getLoopEdges = [])

instance (o : GraphOrchestrator R) (f : Frame R) : Decidable (ForwardsAll cfg m o f) := by
  unfold ForwardsAll
  split
  · infer_instance
  · infer_instance

variable {cfg m} {o o₁ o' p : GraphOrchestrator R} {b : PoseGraphBuilder R} {f : Frame R}
variable {node last : PoseNode R} {seq near loops l : List (PoseEdge R)}
variable {s : Option (PoseEdge R)} {prior : Option (GnssPrior R)}

/-- In a frame whose orchestrator had started, all is forwarded exactly if the condition holds. -/
theorem forwarded_kept (h : WellFormed cfg o) (hi : o.initialized = true)
    (g : PoseGraphBuilder.Grows cfg o.poseGraph b node seq near loops)
    (hdiff : 2 ≤ cfg.scanMatching.nearLinks.minIndexDiff) (hfw : o.EdgesForwarded)
    (hp : Prepared cfg m f { o with poseGraph := b } p node last s l prior)
    (ha : PosesApplied p o') : o'.EdgesForwarded ↔
      (∀ d ∈ loops, 2 ≤ d.span) ∧
        (longEdges near = [] ∨ longEdges o.poseGraph.getLoopEdges = []) := by
  have hstart := h.started hi
  have hidx := g.keyframe.index
  have hnonempty := hstart.nonempty
  have hlt : o.lastNodeIndex < node.index := by
    have hl := hstart.lastNode
    omega
  obtain ⟨e, rfl, hnew⟩ := g.newEdges h.builder (by omega) hdiff
  obtain ⟨d, hd⟩ := Option.isSome_iff_exists.mp (getLatestSeqEdge_isSome g (by omega))
  obtain ⟨hdin, hdspan, hdto⟩ := getLatestSeqEdge_spec hd
  have hdmem : d ∈ e :: near ++ loops := by
    rcases List.mem_append.mp (g.getEdges_perm.mem_iff.mp hdin) with hin | hin
    · have hb := (h.builder.edges d hin).2
      omega
    · exact hin
  have hseq : seqForward o.lastNodeIndex node.index b.getEdges =
      d :: meshEdges node.index b.getEdges := by
    unfold seqForward
    rw [if_pos hlt, hd]
  have hfactors : o'.optimizer.betweenFactors = o.optimizer.betweenFactors ++
      (d :: meshEdges node.index b.getEdges ++
        ((longEdges near ++ longEdges o.poseGraph.getLoopEdges).drop
          (longEdges o.poseGraph.getLoopEdges).length ++ longEdges loops)).map (·.factor) := by
    rw [ha.optimizer, hp.betweenFactors, hp.loopEdges, hseq, List.append_assoc, ← List.map_append,
      hstart.loopCount, g.longEdges_drop]
    intro e' he'
    rw [List.mem_singleton.mp he']
    exact hnew.seq
  have hedges : (o'.poseGraph.getEdges.map (·.factor)).Perm
      (o.poseGraph.getEdges.map (·.factor) ++ (e :: near ++ loops).map (·.factor)) := by
    rw [ha.getEdges, hp.poseGraph, ← List.map_append]
    exact g.getEdges_perm.map _
  rw [← hnew.forward_perm_iff hdspan hdmem (g.meshEdges_perm h.builder)]
  unfold EdgesForwarded
  rw [hfactors]
  constructor
  · intro hperm
    exact (List.perm_append_left_iff _).mp
      ((List.Perm.append_right _ hfw.symm).trans (hperm.trans hedges))
  · intro hperm
    exact (List.Perm.append hfw hperm).trans hedges.symm

/-- Without GNSS the first node has no edges but those of a loop closure to itself. -/
theorem forwarded_first (h : WellFormed cfg o) (hn : o.poseGraph.getNodes = [])
    (g : PoseGraphBuilder.Grows cfg o.poseGraph b node seq near loops)
    (hat : AtNode o₁ b) (hb : o₁.optimizer.betweenFactors = [])
    (hlast : o₁.lastNodeIndex = node.index)
    (hp : Prepared cfg m f o₁ p node last s l prior) (ha : PosesApplied p o') :
    o'.EdgesForwarded ↔ (∀ d ∈ loops, 2 ≤ d.span) ∧
      (longEdges near = [] ∨ longEdges o.poseGraph.getLoopEdges = []) := by
  have h0 : o.poseGraph.getNodes.length = 0 := by rw [hn]; rfl
  have hidx := g.keyframe.index
  obtain ⟨rfl, rfl⟩ := g.keyframe.first h0
  have hspan : ∀ d ∈ loops, d.span = 0 := by
    intro d hd
    have hl := g.loopsTo d hd
    have hs := d.span_of_le (by omega)
    omega
  have hedges : b.getEdges.Perm loops := by
    have hg := g.getEdges_perm
    rw [h.edges_nil hn] at hg
    exact hg
  have hlong : longEdges b.getEdges = [] := by
    apply List.filter_eq_nil_iff.mpr
    intro d hd
    rw [decide_eq_true_iff, hspan d (hedges.mem_iff.mp hd)]
    decide
  have hfactors : o'.optimizer.betweenFactors = [] := by
    rw [ha.optimizer, hp.betweenFactors, hp.loopEdges, hat.getEdges, hlong, hb, seqForward,
      if_neg (by omega), List.drop_nil]
    rfl
  have hiff : o'.EdgesForwarded ↔ loops = [] := by
    unfold EdgesForwarded
    rw [hfactors, List.nil_perm, List.map_eq_nil_iff, ha.getEdges, hp.poseGraph, hat.getEdges]
    constructor
    · intro hnil
      rw [hnil] at hedges
      exact List.nil_perm.mp hedges
    · rintro rfl
      exact List.perm_nil.mp hedges
  rw [hiff]
  constructor
  · rintro rfl
    exact ⟨fun d hd => absurd hd List.not_mem_nil, Or.inl rfl⟩
  · rintro ⟨hloops, _⟩
    apply List.eq_nil_iff_forall_not_mem.mpr
    intro d hd
    have h2 := hloops d hd
    have hs := hspan d hd
    omega

/-- The frame that turns the graph hands every edge over at once. -/
theorem forwarded_turned (hat : AtNode o₁ b)
    (hb : o₁.optimizer.betweenFactors = b.getEdges.map (·.factor))
    (hc : o₁.lastLoopEdgeCount = (longEdges b.getEdges).length)
    (hlast : o₁.lastNodeIndex = node.index)
    (hp : Prepared cfg m f o₁ p node last s l prior) (ha : PosesApplied p o') :
    o'.EdgesForwarded := by
  unfold EdgesForwarded
  rw [ha.getEdges, hp.poseGraph, hat.getEdges, ha.optimizer, hp.betweenFactors, hp.loopEdges,
    hat.getEdges, hc, List.drop_length, hb, seqForward, if_neg (by omega)]
  simp

/-- One frame: all stays forwarded exactly if the frame meets the condition. -/
theorem forwarded_step (hdiff : 2 ≤ cfg.scanMatching.nearLinks.minIndexDiff)
    (h : WellFormed cfg o) (hfw : o.state = .running → o.EdgesForwarded)
    (hs : o.step cfg m f = some o') :
    (o'.state = .running → o'.EdgesForwarded) ↔ ForwardsAll cfg m o f := by
  obtain ⟨⟨v, r⟩, hf, rfl⟩ := Option.map_eq_some_iff.mp hs
  unfold ForwardsAll
  rcases processFrame_cases h.builder hf with ⟨rfl, _, _, hn⟩ | hw | ⟨o₁, node, he, hp⟩
  · rw [hn]
    exact ⟨fun _ _ => trivial, fun _ => hfw⟩
  · obtain ⟨_, _, _, _, _, _, _, _, hinit, hst, _⟩ := hw
    constructor
    · intro _ hrun
      exact Phase.noConfusion (hinit.symm.trans hrun)
    · intro _ hrun
      exact Phase.noConfusion (hst.symm.trans hrun)
  · obtain ⟨b, seq, near, loops, g, hadd, hent⟩ := entry_spec h he
    have hat := hent.atNode h g
    obtain ⟨p, last, s, l, prior, hpr, rfl, _⟩ := processNode_cases hat.optimizer hat.loopCount hp
    have ha := p.applyOptimizedPoses_spec cfg m last (o₁.closes cfg m f node)
    have hrun := ha.state.trans (hpr.state.trans hat.state)
    have hlast := hent.lastNodeIndex h g
    rw [hadd]
    dsimp only
    rw [g.loopsAdded, g.nearAdded]
    cases hent with
    | kept hi ho =>
        subst ho
        have hst : o.state = .running := hat.state
        rw [← forwarded_kept h hi g hdiff (hfw hst) hpr ha]
        exact ⟨fun h _ => h hrun, fun h _ => h hst⟩
    | first opt hi hen hn ho hopt =>
        have hst : o.state = .running := by
          rw [h.phase, if_neg]
          exact fun h => Bool.noConfusion (hen.symm.trans h.1)
        have hiff := forwarded_first h hn g hat (by rw [ho]; exact hopt.2.1)
          (by rw [hlast, hi]; rfl) hpr ha
        rw [← hiff]
        exact ⟨fun h _ => h hrun, fun h _ => h hst⟩
    | turned a gp op rot front curr hst hi hf hc ho =>
        have hall := forwarded_turned hat
          (by rw [ho]; exact (alignGraph_optimizer rot front curr).2.1) (by rw [ho]; rfl)
          (by rw [hlast, hi]; rfl) hpr ha
        exact ⟨fun _ hr => Phase.noConfusion (hst.symm.trans hr), fun _ _ => hall⟩

/-- In every run, the between factors are the edges whenever the orchestrator is running, exactly
if every frame of the running phase meets the condition. -/
theorem edges_forwarded_iff (hdiff : 2 ≤ cfg.scanMatching.nearLinks.minIndexDiff)
    {fs : List (Frame R)} (hr : exec (step cfg m) (new cfg) fs = some o) :
    Always (step cfg m) (fun o => o.state = .running → o.EdgesForwarded) (new cfg) fs ↔
      Meets (step cfg m) (ForwardsAll cfg m) (new cfg) fs := by
  apply always_iff_meets (J := WellFormed cfg) _ _ (wellFormed_new cfg) _ hr
  · exact fun s a t h hs => wellFormed_step h hs
  · exact fun s a t h hfw hs => forwarded_step hdiff h hfw hs
  · intro _
    unfold EdgesForwarded
    rw [(wellFormed_new cfg).edges_nil (new_getNodes cfg)]
    exact List.Perm.refl _

/-- Loop closure from 15 nodes back and mesh links from 20, without GNSS. -/
def shuttleConfig : SlamConfig ℚ :=
  let d : SlamConfig ℚ := .defaults
  { d with
    scanMatching := { d.scanMatching with
      nearLinks := { d.scanMatching.nearLinks with bufferSize := 20 } }
    loopClosure := { d.loopClosure with minNodeGap := 15 }
    gnss := { d.gnss with enabled := false } }

/-- The robot goes a metre ahead and back; node 15 closes a loop with node 0, and node 16 is
linked with node 1. -/
def shuttleFrames : List (Frame ℚ) :=
  (List.range 17).map fun i : Nat => ⟨⟨some ⟨i⟩, ⟨i, (i % 2 : Nat), 0, 0⟩, none⟩,
    .agreeing (if i = 16 then [1] else []) (if i = 15 then [0] else []), keepValues⟩

/-- Up to the loop every edge is forwarded once. -/
theorem edges_forwarded_shuttle : Always (step shuttleConfig .axis)
    (fun o => o.state = .running → o.EdgesForwarded) (new shuttleConfig)
    (shuttleFrames.take 16) := by
  obtain ⟨o, ho, _⟩ : ∃ o, exec (step shuttleConfig .axis) (new shuttleConfig)
      (shuttleFrames.take 16) = some o ∧ True := exists_exec (by decide +kernel)
  exact (edges_forwarded_iff (by decide +kernel) ho).mpr (by decide +kernel)

/-- The link from 1 to 16 pushes the loop edge past the count: the loop edge is handed over a
second time and the link never. -/
theorem edge_forwarded_twice : 2 ≤ shuttleConfig.scanMatching.nearLinks.minIndexDiff ∧
    ∃ o, exec (step shuttleConfig .axis) (new shuttleConfig) shuttleFrames = some o ∧
      o.state = .running ∧ ¬ o.EdgesForwarded := by
  have hends : ∃ o, exec (step shuttleConfig .axis) (new shuttleConfig) shuttleFrames = some o ∧
      (o.state = .running ∧
        ¬ (o.optimizer.betweenFactors.map fun b => (b.fromIndex, b.toIndex)).Perm
          (o.poseGraph.getEdges.map (·.ends))) := exists_exec (by decide +kernel)
  obtain ⟨o, ho, hrun, hne⟩ := hends
  refine ⟨by decide +kernel, o, ho, hrun, fun h => hne ?_⟩
  have hm := h.map fun b => (b.fromIndex, b.toIndex)
  rw [List.map_map] at hm
  exact hm

end GraphOrchestrator

end MgRobot.Slam

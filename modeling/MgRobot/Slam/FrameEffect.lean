import MgRobot.Slam.BuilderGrowth
import MgRobot.Slam.Orchestrator

/-!
# What a frame does to the orchestrator

Each stage of `process_frame` changes a few fields only. From the lemmas on the
stages comes what a node brings about before the optimised poses are applied
(`Prepared`).
-/

namespace MgRobot.Slam.GraphOrchestrator

set_option autoImplicit false

variable {R : Type*}

/-- The between factors that `add_latest_seq_edge` hands over. -/
def seqForward (lastNodeIndex : Int) (nodeIndex : Nat) (es : List (PoseEdge R)) :
    List (PoseEdge R) :=
  if lastNodeIndex < nodeIndex then
    match getLatestSeqEdge nodeIndex es with
    | some e => e :: meshEdges nodeIndex es
    | none => []
  else []

variable [Field R] [LinearOrder R] {cfg : SlamConfig R} {m : Numerics R}
variable {o : GraphOrchestrator R} {node : PoseNode R} {es : List (PoseEdge R)}

omit [LinearOrder R] in
theorem addLatestSeqEdge_spec (h : o.optimizer.initialized = true) :
    ∃ opt seq, o.addLatestSeqEdge m node es = ({ o with
        optimizer := opt
        lastNodeIndex := if seq.isSome then node.index else o.lastNodeIndex }, seq) ∧
      seq = (if o.lastNodeIndex < node.index then getLatestSeqEdge node.index es else none) ∧
      opt.initialized = true ∧
      opt.betweenFactors = o.optimizer.betweenFactors ++
        (seqForward o.lastNodeIndex node.index es).map (·.factor) ∧
      opt.gnssFactors = o.optimizer.gnssFactors := by
  unfold addLatestSeqEdge seqForward
  by_cases hlt : o.lastNodeIndex < node.index
  · cases getLatestSeqEdge node.index es with
    | none =>
        refine ⟨o.optimizer, none, rfl, (if_pos hlt).symm, h, ?_, rfl⟩
        rw [if_pos hlt, List.map_nil, List.append_nil]
    | some e =>
        have hi := ISAM2Optimizer.addInitialEstimate_sameFactors (o := o.optimizer) node.index
          (o.predictedPose m node e)
        obtain ⟨h1, h2, h3⟩ := ISAM2Optimizer.foldl_addBetweenFactor
          (e :: meshEdges node.index es) (hi.initialized.trans h)
        refine ⟨_, some e, if_pos hlt, (if_pos hlt).symm, h1, ?_, ?_⟩
        · rw [if_pos hlt, h2, hi.betweenFactors]
        · rw [h3, hi.gnssFactors]
  · refine ⟨o.optimizer, none, ?_, (if_neg hlt).symm, h, ?_, rfl⟩
    · cases getLatestSeqEdge node.index es with
      | none => rfl
      | some e => exact if_neg hlt
    · rw [if_neg hlt, List.map_nil, List.append_nil]

omit [LinearOrder R] in
theorem addLatestSeqEdge_fst (m : Numerics R) (o : GraphOrchestrator R) (node : PoseNode R)
    (es : List (PoseEdge R)) : ∃ opt i, (o.addLatestSeqEdge m node es).1 =
      { o with optimizer := opt, lastNodeIndex := i } := by
  unfold addLatestSeqEdge
  split
  · split
    · exact ⟨_, _, rfl⟩
    · exact ⟨_, _, rfl⟩
  · exact ⟨_, _, rfl⟩

omit [Field R] [LinearOrder R] in
theorem addNewLoopEdges_fst (o : GraphOrchestrator R) (es : List (PoseEdge R)) :
    ∃ opt n, (o.addNewLoopEdges es).1 = { o with optimizer := opt, lastLoopEdgeCount := n } := by
  unfold addNewLoopEdges
  dsimp only
  split
  · exact ⟨_, _, rfl⟩
  · exact ⟨_, _, rfl⟩

omit [Field R] [LinearOrder R] in
/-- The long edges past the count are handed over and returned. -/
theorem addNewLoopEdges_spec (h : o.optimizer.initialized = true)
    (hc : o.lastLoopEdgeCount ≤ (longEdges es).length) :
    ∃ opt, o.addNewLoopEdges es = ({ o with
        optimizer := opt
        lastLoopEdgeCount := (longEdges es).length }, (longEdges es).drop o.lastLoopEdgeCount,
        decide (o.lastLoopEdgeCount < (longEdges es).length)) ∧
      opt.initialized = true ∧
      opt.betweenFactors = o.optimizer.betweenFactors ++
        ((longEdges es).drop o.lastLoopEdgeCount).map (·.factor) ∧
      opt.gnssFactors = o.optimizer.gnssFactors := by
  unfold addNewLoopEdges
  by_cases hlt : o.lastLoopEdgeCount < (longEdges es).length
  · obtain ⟨h1, h2, h3⟩ := ISAM2Optimizer.foldl_addBetweenFactor
      ((longEdges es).drop o.lastLoopEdgeCount) h
    refine ⟨_, ?_, h1, h2, h3⟩
    rw [if_pos hlt, decide_eq_true hlt]
  · have heq : o.lastLoopEdgeCount = (longEdges es).length := by omega
    have hd : (longEdges es).drop o.lastLoopEdgeCount = [] := by rw [heq, List.drop_length]
    refine ⟨o.optimizer, ?_, h, ?_, rfl⟩
    · rw [if_neg hlt, decide_eq_false hlt, hd, ← heq]
    · rw [hd, List.map_nil, List.append_nil]

/-- The anchor that a frame moves to, if `try_dynamic_reanchor` accepts its samples. -/
def reanchorsTo (cfg : SlamConfig R) (m : Numerics R) (o : GraphOrchestrator R)
    (node : PoseNode R) (frame : SensorFrame R) : Option (R × R) :=
  (o.reanchorFix cfg m frame).bind fun g =>
    reanchorTarget cfg m (collectSample cfg m o.reanchorSamples node g)

/-- The re-anchoring touches the samples, the anchor, and what goes with a new anchor. -/
theorem tryDynamicReanchor_spec (frame : SensorFrame R) :
    ∃ samples pos, o.tryDynamicReanchor cfg m node frame = ({ o with
        reanchorSamples := samples
        anchor := (o.reanchorsTo cfg m node frame).orElse fun _ => o.anchor
        lastGnssPos := pos
        dynamicReanchored :=
          (o.reanchorsTo cfg m node frame).isSome || o.dynamicReanchored },
      (o.reanchorsTo cfg m node frame).isSome) := by
  unfold tryDynamicReanchor reanchorsTo
  cases o.reanchorFix cfg m frame with
  | none => exact ⟨_, _, rfl⟩
  | some g =>
      rw [Option.bind_some]
      dsimp only
      cases reanchorTarget cfg m (collectSample cfg m o.reanchorSamples node g) with
      | none => exact ⟨_, _, rfl⟩
      | some t => exact ⟨_, _, rfl⟩

/-- A prior is one more GNSS factor, measured from the anchor in force. -/
theorem addGnssPrior_spec (frame : SensorFrame R) (h : o.optimizer.initialized = true) :
    ∃ opt stamp pos prior, o.addGnssPrior cfg m frame node = ({ o with
        optimizer := opt
        lastGnssTimestamp := stamp
        lastGnssPos := pos }, prior) ∧
      opt.initialized = true ∧ opt.betweenFactors = o.optimizer.betweenFactors ∧
      ((prior = none ∧ opt.gnssFactors = o.optimizer.gnssFactors) ∨
        ∃ g anchor factor, frame.gnss = some g ∧ o.anchor = some anchor ∧ prior.isSome = true ∧
          opt.gnssFactors = o.optimizer.gnssFactors ++ [factor] ∧
          factor.measured = g.toLocal anchor) := by
  unfold addGnssPrior
  split
  case h_1 g anchor _ hg ha =>
    by_cases hp : o.priorAccepted cfg m node g anchor
    · refine ⟨_, _, _, _, if_pos hp, ?_⟩
      unfold ISAM2Optimizer.addGnssPrior
      rw [if_pos h]
      exact ⟨h, rfl, Or.inr ⟨g, anchor, _, hg, ha, rfl, rfl, rfl⟩⟩
    · exact ⟨_, _, _, _, if_neg hp, h, rfl, Or.inl ⟨rfl, rfl⟩⟩
  case h_2 => exact ⟨_, _, _, _, rfl, h, rfl, Or.inl ⟨rfl, rfl⟩⟩

/-- The orchestrator just before the optimized poses are applied, for a node that entered in `o`;
`last` is the node after a re-anchoring, and `seq`, `loops` and `prior` are the frame's results. -/
structure Prepared (cfg : SlamConfig R) (m : Numerics R) (f : Frame R) (o o' : GraphOrchestrator R)
    (node last : PoseNode R) (seq : Option (PoseEdge R)) (loops : List (PoseEdge R))
    (prior : Option (GnssPrior R)) : Prop where
  poseGraph : o'.poseGraph = o.poseGraph
  state : o'.state = o.state
  started : o'.initialized = o.initialized
  initRotation : o'.initRotation = o.initRotation
  lastRenderedPoses : o'.lastRenderedPoses = o.lastRenderedPoses
  firstRenderDone : o'.firstRenderDone = o.firstRenderDone
  lastNode : last = if (o.reanchorsTo cfg m node f.sensor).isSome
    then o.poseGraph.getNodes.getLast?.getD node else node
  seqEdge : seq = if o.lastNodeIndex < node.index
    then getLatestSeqEdge node.index o.poseGraph.getEdges else none
  lastNodeIndex : o'.lastNodeIndex = if seq.isSome then (node.index : Int) else o.lastNodeIndex
  loopEdges : loops = (longEdges o.poseGraph.getEdges).drop o.lastLoopEdgeCount
  lastLoopEdgeCount : o'.lastLoopEdgeCount = (longEdges o.poseGraph.getEdges).length
  optimizer : o'.optimizer.initialized = true
  betweenFactors : o'.optimizer.betweenFactors = o.optimizer.betweenFactors ++
    (seqForward o.lastNodeIndex node.index o.poseGraph.getEdges).map (·.factor) ++
    loops.map (·.factor)
  anchor : o'.anchor = (o.reanchorsTo cfg m node f.sensor).orElse fun _ => o.anchor
  gnssFactors : (prior = none ∧ o'.optimizer.gnssFactors = o.optimizer.gnssFactors) ∨
    ∃ g anchor factor, f.sensor.gnss = some g ∧ o'.anchor = some anchor ∧ prior.isSome = true ∧
      o'.optimizer.gnssFactors = o.optimizer.gnssFactors ++ [factor] ∧
      factor.measured = g.toLocal anchor

/-- The frame is a re-anchoring or hands over a long edge. -/
def closes (cfg : SlamConfig R) (m : Numerics R) (f : Frame R) (o : GraphOrchestrator R)
    (node : PoseNode R) : Bool :=
  decide (o.lastLoopEdgeCount < (longEdges o.poseGraph.getEdges).length) ||
    (o.reanchorsTo cfg m node f.sensor).isSome

theorem processNode_cases {f : Frame R} {o' : GraphOrchestrator R} {r : ScanProcessResult R}
    (hi : o.optimizer.initialized = true)
    (hc : o.lastLoopEdgeCount ≤ (longEdges o.poseGraph.getEdges).length)
    (h : o.processNode cfg m f node = some (o', r)) :
    ∃ p last seq loops prior, Prepared cfg m f o p node last seq loops prior ∧
      o' = (p.applyOptimizedPoses cfg m last (o.closes cfg m f node)).1 ∧
      r = ⟨some (o'.optimizedNode last),
        decide (o.lastLoopEdgeCount < (longEdges o.poseGraph.getEdges).length),
        (p.applyOptimizedPoses cfg m last (o.closes cfg m f node)).2, seq, loops, prior⟩ := by
  obtain ⟨opt1, seq, h1, hseq, hi1, hb1, hg1⟩ := addLatestSeqEdge_spec (m := m) hi
  obtain ⟨opt2, h2, hi2, hb2, hg2⟩ := addNewLoopEdges_spec
    (o := { o with
      optimizer := opt1
      lastNodeIndex := if seq.isSome then node.index else o.lastNodeIndex }) hi1 hc
  obtain ⟨samples, pos, h3⟩ := tryDynamicReanchor_spec (m := m)
    (o := { o with
      optimizer := opt2
      lastNodeIndex := if seq.isSome then node.index else o.lastNodeIndex
      lastLoopEdgeCount := (longEdges o.poseGraph.getEdges).length }) f.sensor
  -- the samples, the anchor and the flag are still those of `o`
  have hre : reanchorsTo cfg m { o with
      optimizer := opt2
      lastNodeIndex := if seq.isSome then node.index else o.lastNodeIndex
      lastLoopEdgeCount := (longEdges o.poseGraph.getEdges).length } node f.sensor =
    o.reanchorsTo cfg m node f.sensor := rfl
  rw [hre] at h3
  dsimp only [processNode] at h
  rw [h1] at h
  dsimp only at h
  rw [h2] at h
  dsimp only at h
  rw [h3] at h
  dsimp only at h
  obtain ⟨opt4, stamp, pos', prior, h4, hi4, hb4, hg4⟩ := addGnssPrior_spec (m := m)
    (o := { o with
      optimizer := opt2
      lastNodeIndex := if seq.isSome then node.index else o.lastNodeIndex
      lastLoopEdgeCount := (longEdges o.poseGraph.getEdges).length
      reanchorSamples := samples
      anchor := (o.reanchorsTo cfg m node f.sensor).orElse fun _ => o.anchor
      lastGnssPos := pos
      dynamicReanchored := (o.reanchorsTo cfg m node f.sensor).isSome || o.dynamicReanchored })
    f.sensor hi2
  rw [h4] at h
  dsimp only at h
  obtain ⟨opt5, hu, he⟩ := Option.map_eq_some_iff.mp h
  obtain ⟨rfl, rfl⟩ := Prod.mk.inj he
  have hs := ISAM2Optimizer.SameFactors.of_update hu
  refine ⟨_, _, seq, _, prior, ?_, rfl, rfl⟩
  refine ⟨rfl, rfl, rfl, rfl, rfl, rfl, rfl, hseq, rfl, rfl, rfl, hs.initialized.trans hi4, ?_,
    rfl, ?_⟩
  · rw [hs.betweenFactors, hb4, hb2, hb1]
  · rw [hs.gnssFactors, ← hg1, ← hg2]
    exact hg4

end MgRobot.Slam.GraphOrchestrator

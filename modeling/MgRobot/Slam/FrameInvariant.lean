import MgRobot.Lib.Runs
import MgRobot.Slam.FrameEffect

/-!
# The orchestrator over runs

`WellFormed` relates the indices, counts and phases of the orchestrator to the
builder's graph. A frame is rejected, waits for GNSS, or enters a node (`entry`);
in each case a well-formed orchestrator stays one.
-/

namespace MgRobot.Slam.GraphOrchestrator

set_option autoImplicit false

open MgRobot.Lib MgRobot.Lib.Runs

variable {R : Type*}

theorem longEdges_append (es es' : List (PoseEdge R)) :
    longEdges (es ++ es') = longEdges es ++ longEdges es' :=
  List.filter_append ..

/-- Once the optimizer has started, the marks stand at the end of the graph. -/
structure Started (o : GraphOrchestrator R) : Prop where
  optimizer : o.optimizer.initialized = true
  nonempty : 0 < o.poseGraph.getNodes.length
  lastNode : o.lastNodeIndex + 1 = o.poseGraph.getNodes.length
  loopCount : o.lastLoopEdgeCount = (longEdges o.poseGraph.getEdges).length

structure WellFormed (cfg : SlamConfig R) (o : GraphOrchestrator R) : Prop where
  builder : o.poseGraph.WellIndexed
  phase : o.state = if cfg.gnss.enabled ∧ o.initialized = false then .initializing else .running
  started : o.initialized = true → o.Started
  gnssFactors : o.initialized = false → o.optimizer.gnssFactors = [] ∧
    o.optimizer.betweenFactors = [] ∧ o.lastLoopEdgeCount = 0
  /-- Without GNSS only the empty graph waits for the optimizer. -/
  empty : o.initialized = false → o.state = .running → o.poseGraph.getNodes = []

theorem WellFormed.edges_nil {cfg : SlamConfig R} {o : GraphOrchestrator R} (h : WellFormed cfg o)
    (hn : o.poseGraph.getNodes = []) : o.poseGraph.getEdges = [] := by
  apply List.eq_nil_iff_forall_not_mem.mpr
  intro e he
  have hlt := (h.builder.edges e he).2
  rw [hn] at hlt
  exact absurd hlt (Nat.not_lt_zero _)

theorem new_getNodes [Field R] (cfg : SlamConfig R) : (new cfg).poseGraph.getNodes = [] := by
  show (PoseGraphBuilder.new cfg).getNodes = []
  unfold PoseGraphBuilder.new
  split
  · rfl
  · split <;> rfl

theorem wellFormed_new [Field R] (cfg : SlamConfig R) : WellFormed cfg (new cfg) := by
  refine ⟨PoseGraphBuilder.wellIndexed_new, ?_, fun h => Bool.noConfusion h,
    fun _ => ⟨rfl, rfl, rfl⟩, fun _ _ => new_getNodes cfg⟩
  simp [new]

variable [Field R] [LinearOrder R] (cfg : SlamConfig R) (m : Numerics R)

/-- The orchestrator and the node with which `process_frame` gets past the initialisation. -/
def entry (o : GraphOrchestrator R) (f : Frame R) : Option (GraphOrchestrator R × PoseNode R) :=
  match o.poseGraph.addScan cfg m f.matchers f.sensor.scan f.sensor.odom with
  | (_, none) => none
  | (poseGraph, some node) =>
      let o := initializeWithGnssIfReady cfg m { o with poseGraph := poseGraph } f.sensor
      match o.state with
      | .initializing => none
      | .running => (o.initializeOptimizerIfNeeded f.isam2 node).map fun o => (o, node)

variable {cfg m} {o o' : GraphOrchestrator R} {node : PoseNode R} {f : Frame R}
variable {r : ScanProcessResult R}

/-- `initialize_with_gnss_if_ready` collects its points and waits, or turns the graph. -/
theorem initializeWithGnssIfReady_cases (frame : SensorFrame R) :
    (∃ anchor gnssPts odomPts, initializeWithGnssIfReady cfg m o frame =
        { o with anchor := anchor, initGnssPts := gnssPts, initOdomPts := odomPts } ∧
      (o.state = .running → initializeWithGnssIfReady cfg m o frame = o)) ∨
    ∃ anchor gnssPts odomPts rot front curr, o.state = .initializing ∧
      cfg.gnss.enabled = true ∧
      o.poseGraph.getNodes.head? = some front ∧ o.poseGraph.getNodes.getLast? = some curr ∧
      initializeWithGnssIfReady cfg m o frame =
        alignGraph cfg m { o with
          anchor := some anchor
          initGnssPts := gnssPts
          initOdomPts := odomPts } rot front curr := by
  have hsame : ∃ anchor gnssPts odomPts, o =
      { o with anchor := anchor, initGnssPts := gnssPts, initOdomPts := odomPts } :=
    ⟨_, _, _, rfl⟩
  unfold initializeWithGnssIfReady
  split
  case h_1 g hg hst =>
    have hrun : ∀ p : Prop, o.state = .running → p := fun p h => by
      rw [hst] at h
      cases h
    by_cases hen : cfg.gnss.enabled = true
    · rw [hen]
      simp only [Bool.not_true, Bool.false_eq_true, if_false]
      split
      case h_1 => exact Or.inl ⟨_, _, _, rfl, hrun _⟩
      case h_2 anchor _ =>
        split
        case h_1 front curr hf hc =>
          split
          · exact Or.inl ⟨_, _, _, rfl, hrun _⟩
          · exact Or.inr ⟨anchor, _, _, _, front, curr, hst, trivial, hf, hc, rfl⟩
        case h_2 => exact Or.inl ⟨_, _, _, rfl, hrun _⟩
    · rw [Bool.not_eq_true] at hen
      rw [hen]
      exact Or.inl ⟨_, _, _, rfl, hrun _⟩
  case h_2 => exact Or.inl ⟨_, _, _, rfl, fun _ => rfl⟩

/-- The inversion of a frame: the scan is rejected, or its node waits for GNSS, or it enters. -/
theorem processFrame_cases (hw : o.poseGraph.WellIndexed)
    (h : o.processFrame cfg m f = some (o', r)) :
    (o' = o ∧ r = .rejected ∧ o.entry cfg m f = none ∧
      o.poseGraph.addScan cfg m f.matchers f.sensor.scan f.sensor.odom = (o.poseGraph, none)) ∨
    (∃ b node seq near loops, PoseGraphBuilder.Grows cfg o.poseGraph b node seq near loops ∧
      o.poseGraph.addScan cfg m f.matchers f.sensor.scan f.sensor.odom = (b, some node) ∧
      o' = initializeWithGnssIfReady cfg m { o with poseGraph := b } f.sensor ∧
      o.state = .initializing ∧ o'.state = .initializing ∧ o.entry cfg m f = none ∧
      r = ⟨some node, false, false, getLatestSeqEdge node.index o'.poseGraph.getEdges, [], none⟩) ∨
    ∃ o₁ node, o.entry cfg m f = some (o₁, node) ∧
      o₁.processNode cfg m f node = some (o', r) := by
  unfold processFrame at h
  rcases o.poseGraph.addScan_spec cfg m f.matchers f.sensor.scan f.sensor.odom hw with
    hn | ⟨b, node, seq, near, loops, hs, g⟩
  · rw [hn] at h
    obtain ⟨rfl, rfl⟩ := Prod.mk.inj (Option.some.inj h)
    refine Or.inl ⟨rfl, rfl, ?_, hn⟩
    unfold entry
    rw [hn]
  · refine Or.inr ?_
    rw [hs] at h
    dsimp only at h
    split at h
    case h_1 hst =>
      obtain ⟨rfl, rfl⟩ := Prod.mk.inj (Option.some.inj h)
      refine Or.inl ⟨b, node, seq, near, loops, g, hs, rfl, ?_, hst, ?_, rfl⟩
      · rcases initializeWithGnssIfReady_cases (m := m) (o := { o with poseGraph := b })
          f.sensor with ⟨_, _, _, hw, _⟩ | ⟨_, _, _, _, _, _, hi, _⟩
        · rw [hw] at hst
          exact hst
        · exact hi
      · unfold entry
        rw [hs]
        dsimp only
        rw [hst]
    case h_2 hst =>
      obtain ⟨o₁, ho, hp⟩ := Option.bind_eq_some_iff.mp h
      refine Or.inr ⟨o₁, node, ?_, hp⟩
      unfold entry
      rw [hs]
      dsimp only
      rw [hst, ho]
      rfl

omit [LinearOrder R] in
/-- What turning the graph does to the optimizer. -/
theorem alignGraph_optimizer (rot : R) (front curr : PoseNode R) :
    (alignGraph cfg m o rot front curr).optimizer.initialized = true ∧
      (alignGraph cfg m o rot front curr).optimizer.betweenFactors =
        o.poseGraph.getEdges.map (·.factor) ∧
      (alignGraph cfg m o rot front curr).optimizer.gnssFactors = [] := by
  have hnodes : ∀ (ns : List (PoseNode R)) (opt : ISAM2Optimizer R),
      ISAM2Optimizer.SameFactors opt (ns.foldl (fun opt n =>
        if n.index = front.index then opt else opt.addInitialEstimate n.index n.pose) opt) := by
    intro ns
    induction ns with
    | nil => exact fun opt => ⟨rfl, rfl, rfl⟩
    | cons n rest ih =>
        intro opt
        rw [List.foldl_cons]
        by_cases hi : n.index = front.index
        · rw [if_pos hi]
          exact ih opt
        · rw [if_neg hi]
          have ha := ISAM2Optimizer.addInitialEstimate_sameFactors (o := opt) n.index n.pose
          have hr := ih (opt.addInitialEstimate n.index n.pose)
          exact ⟨hr.initialized.trans ha.initialized, hr.betweenFactors.trans ha.betweenFactors,
            hr.gnssFactors.trans ha.gnssFactors⟩
  have hn := hnodes (m.rebaseAndRotateNodes o.poseGraph.getNodes rot)
    (ISAM2Optimizer.initializeAt front.index ⟨0, 0, front.yaw + rot⟩
      cfg.gnss.anchor.sigmaM cfg.gnss.anchor.initYawSigmaRad)
  obtain ⟨hi, hb, hg⟩ := ISAM2Optimizer.foldl_addBetweenFactor o.poseGraph.getEdges hn.initialized
  refine ⟨hi, ?_, hg.trans hn.gnssFactors⟩
  rw [show (alignGraph cfg m o rot front curr).optimizer.betweenFactors = _ from hb,
    hn.betweenFactors]
  rfl

/-- How a node got past the initialisation: the optimizer had started before, it started at this
node, or the graph was turned in this frame. -/
inductive Entered (cfg : SlamConfig R) (m : Numerics R) (o o₁ : GraphOrchestrator R)
    (b : PoseGraphBuilder R) (node : PoseNode R) : Prop where
  | kept (hi : o.initialized = true) (ho : o₁ = { o with poseGraph := b })
  | first (opt : ISAM2Optimizer R) (hi : o.initialized = false) (hen : cfg.gnss.enabled = false)
      (hn : o.poseGraph.getNodes = [])
      (ho : o₁ = { o with
        poseGraph := b
        optimizer := opt
        initialized := true
        lastNodeIndex := node.index })
      (hopt : opt.initialized = true ∧ opt.betweenFactors = [] ∧ opt.gnssFactors = [])
  | turned (anchor : R × R) (gnssPts odomPts : List (R × R)) (rot : R) (front curr : PoseNode R)
      (hst : o.state = .initializing) (hi : o.initialized = false)
      (hf : b.getNodes.head? = some front) (hc : b.getNodes.getLast? = some curr)
      (ho : o₁ = alignGraph cfg m { o with
        poseGraph := b
        anchor := some anchor
        initGnssPts := gnssPts
        initOdomPts := odomPts } rot front curr)

omit [Field R] [LinearOrder R] in
theorem WellFormed.initialized_eq (h : WellFormed cfg o) (hst : o.state = .initializing) :
    cfg.gnss.enabled = true ∧ o.initialized = false := by
  by_contra hn
  have hp := h.phase
  rw [if_neg hn, hst] at hp
  cases hp

/-- The inversion of an entry. -/
theorem entry_spec (h : WellFormed cfg o) {o₁ : GraphOrchestrator R}
    (he : o.entry cfg m f = some (o₁, node)) :
    ∃ b seq near loops, PoseGraphBuilder.Grows cfg o.poseGraph b node seq near loops ∧
      o.poseGraph.addScan cfg m f.matchers f.sensor.scan f.sensor.odom = (b, some node) ∧
      Entered cfg m o o₁ b node := by
  unfold entry at he
  rcases o.poseGraph.addScan_spec cfg m f.matchers f.sensor.scan f.sensor.odom h.builder with
    hn | ⟨b, node', seq, near, loops, hs, g⟩
  · rw [hn] at he
    cases he
  · rw [hs] at he
    dsimp only at he
    refine ⟨b, seq, near, loops, ?_⟩
    rcases initializeWithGnssIfReady_cases (m := m) (o := { o with poseGraph := b })
      f.sensor with ⟨a, gp, op, hw, hrun⟩ | ⟨a, gp, op, rot, front, curr, hst, hen, hf, hc, ht⟩
    · rw [hw] at he
      dsimp only at he
      split at he
      case h_1 => cases he
      case h_2 hst =>
        have hsame := hw.symm.trans (hrun hst)
        rw [hsame] at he
        obtain ⟨o₂, ho₂, hp⟩ := Option.map_eq_some_iff.mp he
        obtain ⟨rfl, rfl⟩ := Prod.mk.inj hp
        refine ⟨g, hs, ?_⟩
        unfold initializeOptimizerIfNeeded at ho₂
        by_cases hi : o.initialized = true
        · rw [if_pos hi] at ho₂
          exact .kept hi (Option.some.inj ho₂).symm
        · rw [if_neg hi] at ho₂
          obtain ⟨opt, hu, rfl⟩ := Option.map_eq_some_iff.mp ho₂
          rw [Bool.not_eq_true] at hi
          have hf := ISAM2Optimizer.SameFactors.of_update hu
          refine .first opt hi ?_ (h.empty hi hst) rfl
            ⟨hf.initialized, hf.betweenFactors, hf.gnssFactors⟩
          by_contra hen
          have hp := h.phase
          rw [if_pos ⟨by simpa using hen, hi⟩] at hp
          exact Phase.noConfusion (hst.symm.trans hp)
    · rw [ht] at he
      obtain ⟨rfl, rfl⟩ := Prod.mk.inj (Option.some.inj he)
      exact ⟨g, hs, .turned a gp op rot front curr hst (h.initialized_eq hst).2 hf hc rfl⟩

/-- An orchestrator that a node of the builder `b` has entered. -/
structure AtNode (o₁ : GraphOrchestrator R) (b : PoseGraphBuilder R) : Prop where
  innerEdges : o₁.poseGraph.innerEdges = b.innerEdges
  loopEdges : o₁.poseGraph.getLoopEdges = b.getLoopEdges
  nodes : o₁.poseGraph.getNodes.map (·.index) = b.getNodes.map (·.index)
  builder : o₁.poseGraph.WellIndexed
  state : o₁.state = .running
  started : o₁.initialized = true
  optimizer : o₁.optimizer.initialized = true
  loopCount : o₁.lastLoopEdgeCount ≤ (longEdges o₁.poseGraph.getEdges).length

omit [Field R] [LinearOrder R] in
theorem AtNode.getEdges {o₁ : GraphOrchestrator R} {b : PoseGraphBuilder R} (h : AtNode o₁ b) :
    o₁.poseGraph.getEdges = b.getEdges := by
  unfold PoseGraphBuilder.getEdges
  rw [h.innerEdges, h.loopEdges]

omit [Field R] [LinearOrder R] in
theorem AtNode.length {o₁ : GraphOrchestrator R} {b : PoseGraphBuilder R} (h : AtNode o₁ b) :
    o₁.poseGraph.getNodes.length = b.getNodes.length := by
  simpa using congrArg List.length h.nodes

variable {o₁ : GraphOrchestrator R} {b : PoseGraphBuilder R} {seq near loops : List (PoseEdge R)}

omit [Field R] [LinearOrder R] in
/-- The count of long edges only grows. -/
theorem longEdges_grow (g : PoseGraphBuilder.Grows cfg o.poseGraph b node seq near loops) :
    (longEdges o.poseGraph.getEdges).length ≤ (longEdges b.getEdges).length := by
  have hp := (g.getEdges_perm.filter fun e => 15 ≤ e.span).length_eq
  rw [List.filter_append, List.length_append] at hp
  unfold longEdges
  omega

omit [LinearOrder R] in
theorem Entered.atNode (h : WellFormed cfg o)
    (g : PoseGraphBuilder.Grows cfg o.poseGraph b node seq near loops)
    (he : Entered cfg m o o₁ b node) : AtNode o₁ b := by
  have hb := h.builder.grow g
  cases he with
  | kept hi ho =>
      subst ho
      have hs := h.started hi
      refine ⟨rfl, rfl, rfl, hb, ?_, hi, hs.optimizer, ?_⟩
      · show o.state = .running
        rw [h.phase, if_neg]
        rw [hi]
        exact fun h => Bool.noConfusion h.2
      · show o.lastLoopEdgeCount ≤ _
        rw [hs.loopCount]
        exact longEdges_grow g
  | first opt hi hen hn ho hopt =>
      subst ho
      refine ⟨rfl, rfl, rfl, hb, ?_, rfl, hopt.1, ?_⟩
      · show o.state = .running
        rw [h.phase, if_neg]
        exact fun h => Bool.noConfusion (hen.symm.trans h.1)
      · show o.lastLoopEdgeCount ≤ _
        rw [(h.gnssFactors hi).2.2]
        exact Nat.zero_le _
  | turned a gp op rot front curr hst hi hf hc ho =>
      subst ho
      have hn := m.rebaseAndRotateNodes_index b.getNodes rot
      refine ⟨?_, ?_, ?_, ?_, rfl, rfl, (alignGraph_optimizer rot front curr).1, ?_⟩
      · exact PoseGraphBuilder.replaceNodes_innerEdges ..
      · exact PoseGraphBuilder.replaceNodes_getLoopEdges ..
      · show ((b.replaceNodes _).getNodes).map _ = _
        rw [PoseGraphBuilder.replaceNodes_getNodes, hn]
      · exact hb.replaceNodes hn
      · show _ ≤ (longEdges (b.replaceNodes _).getEdges).length
        rw [PoseGraphBuilder.replaceNodes_getEdges]
        exact le_refl _

omit [LinearOrder R] in
/-- The mark of the last node is one behind the node, or at it. -/
theorem Entered.lastNodeIndex (h : WellFormed cfg o)
    (g : PoseGraphBuilder.Grows cfg o.poseGraph b node seq near loops)
    (he : Entered cfg m o o₁ b node) : o₁.lastNodeIndex =
      if o.initialized = true then (node.index : Int) - 1 else node.index := by
  cases he with
  | kept hi ho =>
      subst ho
      rw [if_pos hi]
      have hl := (h.started hi).lastNode
      have hn := g.keyframe.index
      show o.lastNodeIndex = _
      omega
  | first opt hi hen hn ho hopt =>
      subst ho
      rw [hi]
      rfl
  | turned a gp op rot front curr hst hi hf hc ho =>
      subst ho
      rw [hi]
      have hc' := (h.builder.grow g).nodes.getLast? hc
      have hn := g.keyframe.index
      rw [g.getNodes, List.length_append, List.length_singleton] at hc'
      show (curr.index : Int) = (node.index : Int)
      omega

omit [Field R] [LinearOrder R] in
theorem getLatestSeqEdge_spec {i : Nat} {es : List (PoseEdge R)} {e : PoseEdge R}
    (h : getLatestSeqEdge i es = some e) : e ∈ es ∧ e.span = 1 ∧ e.toIndex = i := by
  unfold getLatestSeqEdge at h
  have hs := List.find?_some h
  rw [decide_eq_true_iff] at hs
  exact ⟨List.mem_reverse.mp (List.mem_of_find?_eq_some h), hs⟩

omit [Field R] [LinearOrder R] in
/-- A sequential edge leads to every node but the first. -/
theorem getLatestSeqEdge_isSome {b₀ : PoseGraphBuilder R}
    (g : PoseGraphBuilder.Grows cfg b₀ b node seq near loops) (hn : 0 < node.index) :
    (getLatestSeqEdge node.index b.getEdges).isSome = true := by
  have hi := g.keyframe.index
  obtain ⟨e, rfl, he⟩ := g.keyframe.seqEdge (by omega)
  obtain ⟨hf, ht⟩ := Prod.mk.inj he
  unfold getLatestSeqEdge
  rw [List.find?_isSome]
  refine ⟨e, ?_, ?_⟩
  · rw [List.mem_reverse]
    apply List.mem_append_left
    rw [g.innerEdges]
    exact List.mem_append_right _ List.mem_cons_self
  · have hs := e.span_of_le (by omega)
    apply decide_eq_true
    omega

/-- `apply_optimized_poses` moves nodes and records poses, no more. -/
structure PosesApplied (p o' : GraphOrchestrator R) : Prop where
  innerEdges : o'.poseGraph.innerEdges = p.poseGraph.innerEdges
  loopEdges : o'.poseGraph.getLoopEdges = p.poseGraph.getLoopEdges
  nodes : o'.poseGraph.getNodes = p.poseGraph.getNodes.map p.optimizedNode
  builder : p.poseGraph.WellIndexed → o'.poseGraph.WellIndexed
  optimizer : o'.optimizer = p.optimizer
  anchor : o'.anchor = p.anchor
  state : o'.state = p.state
  started : o'.initialized = p.initialized
  lastNodeIndex : o'.lastNodeIndex = p.lastNodeIndex
  lastLoopEdgeCount : o'.lastLoopEdgeCount = p.lastLoopEdgeCount

omit [Field R] [LinearOrder R] in
theorem optimizedNode_index (n : PoseNode R) : (o.optimizedNode n).index = n.index := by
  unfold optimizedNode
  cases o.optimizer.getPose n.index with
  | none => rfl
  | some p => rfl

omit [Field R] [LinearOrder R] in
theorem map_optimizedNode_index (ns : List (PoseNode R)) :
    (ns.map o.optimizedNode).map (·.index) = ns.map (·.index) := by
  rw [List.map_map]
  exact List.map_congr_left fun n _ => optimizedNode_index n

theorem applyOptimizedPoses_spec (o : GraphOrchestrator R) (cfg : SlamConfig R)
    (m : Numerics R) (node : PoseNode R) (flag : Bool) :
    PosesApplied o (o.applyOptimizedPoses cfg m node flag).1 where
  innerEdges := PoseGraphBuilder.replaceNodes_innerEdges ..
  loopEdges := PoseGraphBuilder.replaceNodes_getLoopEdges ..
  nodes := PoseGraphBuilder.replaceNodes_getNodes ..
  builder h := h.replaceNodes (map_optimizedNode_index _)
  optimizer := rfl
  anchor := rfl
  state := rfl
  started := rfl
  lastNodeIndex := rfl
  lastLoopEdgeCount := rfl

omit [Field R] [LinearOrder R] in
theorem PosesApplied.getEdges {p : GraphOrchestrator R} (h : PosesApplied p o') :
    o'.poseGraph.getEdges = p.poseGraph.getEdges := by
  unfold PoseGraphBuilder.getEdges
  rw [h.innerEdges, h.loopEdges]

/-- An entered node leaves a started orchestrator. -/
theorem started_of_entered (h : WellFormed cfg o)
    (g : PoseGraphBuilder.Grows cfg o.poseGraph b node seq near loops)
    (he : Entered cfg m o o₁ b node) {p : GraphOrchestrator R} {last : PoseNode R}
    {s : Option (PoseEdge R)} {l : List (PoseEdge R)} {prior : Option (GnssPrior R)}
    (hp : Prepared cfg m f o₁ p node last s l prior) (ha : PosesApplied p o') : o'.Started := by
  have hat := he.atNode h g
  have hidx := g.keyframe.index
  have hlen : o'.poseGraph.getNodes.length = node.index + 1 := by
    rw [ha.nodes, List.length_map, hp.poseGraph, hat.length, g.getNodes, List.length_append,
      List.length_singleton, hidx]
  refine ⟨?_, ?_, ?_, ?_⟩
  · rw [ha.optimizer]
    exact hp.optimizer
  · rw [hlen]
    exact Nat.succ_pos _
  · have hlast : p.lastNodeIndex = node.index := by
      rw [hp.lastNodeIndex, hp.seqEdge, he.lastNodeIndex h g]
      cases hi : o.initialized with
      | false => simp
      | true =>
          have hz := (h.started hi).nonempty
          have hsome := getLatestSeqEdge_isSome g (by omega)
          simp [hat.getEdges, hsome]
    rw [ha.lastNodeIndex, hlast, hlen]
    rfl
  · rw [ha.lastLoopEdgeCount, hp.lastLoopEdgeCount, ha.getEdges, hp.poseGraph]

theorem wellFormed_frame (h : WellFormed cfg o) (hf : o.processFrame cfg m f = some (o', r)) :
    WellFormed cfg o' := by
  rcases processFrame_cases h.builder hf with ⟨rfl, _⟩ | hw | ⟨o₁, node, he, hp⟩
  · exact h
  · obtain ⟨b, node, seq, near, loops, g, _, ho, _, hst, _⟩ := hw
    rcases initializeWithGnssIfReady_cases (m := m) (o := { o with poseGraph := b })
      f.sensor with ⟨a, gp, op, hw, _⟩ | ⟨a, gp, op, rot, front, curr, _, _, _, _, ht⟩
    · rw [ho, hw] at hst ⊢
      have hwait := h.initialized_eq hst
      refine ⟨h.builder.grow g, h.phase, ?_, h.gnssFactors, ?_⟩
      · intro hi
        exact Bool.noConfusion (hwait.2.symm.trans hi)
      · intro _ hrun
        exact Phase.noConfusion (hst.symm.trans hrun)
    · rw [ho, ht] at hst
      cases hst
  · obtain ⟨b, seq, near, loops, g, _, hent⟩ := entry_spec h he
    have hat := hent.atNode h g
    obtain ⟨p, last, s, l, prior, hpr, rfl, _⟩ := processNode_cases hat.optimizer hat.loopCount hp
    have ha := p.applyOptimizedPoses_spec cfg m last (o₁.closes cfg m f node)
    have hstart := started_of_entered h g hent hpr ha
    have hi : ((p.applyOptimizedPoses cfg m last (o₁.closes cfg m f node)).1).initialized =
        true := by rw [ha.started, hpr.started, hat.started]
    refine ⟨ha.builder ?_, ?_, fun _ => hstart, ?_, ?_⟩
    · rw [hpr.poseGraph]
      exact hat.builder
    · rw [ha.state, hpr.state, hat.state, hi, if_neg]
      exact fun hc => Bool.noConfusion hc.2
    · intro hf
      exact Bool.noConfusion (hi.symm.trans hf)
    · intro hf
      exact Bool.noConfusion (hi.symm.trans hf)

variable (cfg m) in
/-- A frame as a step; what the frame returns is left out. -/
def step (o : GraphOrchestrator R) (f : Frame R) : Option (GraphOrchestrator R) :=
  (o.processFrame cfg m f).map (·.1)

theorem wellFormed_step (h : WellFormed cfg o) (hs : o.step cfg m f = some o') :
    WellFormed cfg o' := by
  obtain ⟨⟨v, r⟩, hf, rfl⟩ := Option.map_eq_some_iff.mp hs
  exact wellFormed_frame h hf

end MgRobot.Slam.GraphOrchestrator

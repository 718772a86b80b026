import MgRobot.Slam.DrawnPoses

/-!
# Drawn poses over runs

A frame without a rerender keeps the record true if iSAM2 leaves the new node where the
builder has put it, and the renderer draws nothing else or the rest is at its record
(`KeepsRecord`). Then no drawn node is further than the threshold from where it was
drawn.
-/

namespace MgRobot.Slam

set_option autoImplicit false

open MgRobot.Lib MgRobot.Lib.Runs GraphOrchestrator

variable {R : Type*} [Field R] [LinearOrder R]

namespace SlamNode

variable (cfg : SlamConfig R) (m : Numerics R)

/-- If the frame asks for no rerender, every drawn node is within the threshold of the pose it
was last drawn with. -/
def WithinThreshold (n : SlamNode R) (a : Frame R × Bool) : Prop :=
  ∀ o' r, n.orchestrator.processFrame cfg m a.1 = some (o', r) → r.rerenderRequired = false →
    ∀ x ∈ o'.poseGraph.getNodes, ∀ p, n.drawn x.index = some p →
      x.awayFrom m p ≤ cfg.rerenderThresholdM

instance (n : SlamNode R) (a : Frame R × Bool) : Decidable (WithinThreshold cfg m n a) :=
  match h : n.orchestrator.processFrame cfg m a.1 with
  | none => isTrue fun o' r hp _ => by
      rw [h] at hp
      cases hp
  | some (o', r) => decidable_of_iff (r.rerenderRequired = false →
      ∀ x ∈ o'.poseGraph.getNodes, ∀ p ∈ n.drawn x.index,
        x.awayFrom m p ≤ cfg.rerenderThresholdM) (by
      constructor
      · intro hw o'' r' hp
        rw [h] at hp
        obtain ⟨rfl, rfl⟩ := Prod.mk.inj (Option.some.inj hp)
        exact hw
      · exact fun hw => hw o' r h)

/-- Once the orchestrator is running, every drawn node is on record with the pose it is drawn
with. -/
def RecordsDrawn (n : SlamNode R) : Prop :=
  n.orchestrator.state = .running → ∀ x ∈ n.orchestrator.poseGraph.getNodes, ∀ p,
    n.drawn x.index = some p → n.orchestrator.lastRenderedPoses x.index = some p

/-- A node that enters without a rerender: the graph was not turned, or it is the only node and
the turn leaves its pose; its estimate is the pose it was given; and it is drawn alone, or all
others are at their record. -/
def KeepsRecord (n : SlamNode R) (a : Frame R × Bool) : Prop :=
  match n.orchestrator.entry cfg m a.1, n.orchestrator.processFrame cfg m a.1 with
  | some (o₁, node), some (o', r) => r.rerenderRequired = false →
      (n.orchestrator.state = .initializing →
        node.index = 0 ∧ ∀ x ∈ o₁.poseGraph.getNodes, x.pose = node.pose) ∧
      (o'.optimizedNode node).pose = node.pose ∧
      (a.2 = true ∨ ∀ x ∈ n.orchestrator.poseGraph.getNodes,
        ∀ q ∈ n.orchestrator.lastRenderedPoses x.index, (o'.optimizedNode x).pose = q)
  | _, _ => True

instance (n : SlamNode R) (a : Frame R × Bool) : Decidable (KeepsRecord cfg m n a) := by
  unfold KeepsRecord
  split
  · infer_instance
  · infer_instance

variable {cfg m} {n : SlamNode R} {f : Frame R} {o o₁ o' p : GraphOrchestrator R}
variable {b : PoseGraphBuilder R} {node last : PoseNode R} {seq near loops l : List (PoseEdge R)}
variable {s : Option (PoseEdge R)} {prior : Option (GnssPrior R)}

omit [Field R] [LinearOrder R] in
/-- The new node is told apart by its index. -/
theorem eq_node {x : PoseNode R} (h : o.poseGraph.WellIndexed)
    (g : PoseGraphBuilder.Grows cfg o.poseGraph b node seq near loops)
    (hx : x ∈ b.getNodes) : (x ∈ o.poseGraph.getNodes ∧ x.index < node.index) ∨ x = node := by
  rw [g.getNodes] at hx
  rcases List.mem_append.mp hx with hx | hx
  · refine Or.inl ⟨hx, ?_⟩
    rw [g.keyframe.index]
    exact h.nodes.lt hx
  · exact Or.inr (List.mem_singleton.mp hx)

/-- What a frame does in which `node` enters without a rerender. -/
structure QuietEntry (cfg : SlamConfig R) (m : Numerics R) (n : SlamNode R) (node : PoseNode R)
    (o' : GraphOrchestrator R) (r : ScanProcessResult R) : Prop where
  index : node.index = n.orchestrator.poseGraph.getNodes.length
  length : o'.poseGraph.getNodes.length = node.index + 1
  state : o'.state = .running
  result : r.node = some (o'.optimizedNode node)
  loopClosed : r.loopClosed = false
  rendered : o'.lastRenderedPoses =
    Function.update n.orchestrator.lastRenderedPoses node.index (some node.pose)
  nodes : ∀ x ∈ o'.poseGraph.getNodes,
    (∃ y ∈ n.orchestrator.poseGraph.getNodes, y.index < node.index ∧ x = o'.optimizedNode y ∧
      OnRecord m cfg n.orchestrator.lastRenderedPoses n.drawn x) ∨
    x.index = node.index ∧ x.pose = node.pose

/-- The new node at its estimate, whether or not the graph was turned about it. -/
theorem entered_node_pose {x : PoseNode R} (h : WellFormed cfg o)
    (g : PoseGraphBuilder.Grows cfg o.poseGraph b node seq near loops)
    (he : Entered cfg m o o₁ b node)
    (hturn : o.state = .initializing → ∀ x ∈ o₁.poseGraph.getNodes, x.pose = node.pose)
    (hx : x ∈ o₁.poseGraph.getNodes) (hi : x.index = node.index)
    (hstay : (p.optimizedNode node).pose = node.pose) :
    (p.optimizedNode x).pose = node.pose := by
  cases hp : p.optimizer.getPose node.index with
  | some e =>
      rw [optimizedNode_of_some hp] at hstay
      rw [← hi] at hp
      rw [optimizedNode_of_some hp]
      exact hstay
  | none =>
      rw [← hi] at hp
      rw [optimizedNode_of_none hp]
      have hsame : x ∈ b.getNodes → x.pose = node.pose := by
        intro hb
        rcases eq_node h.builder g hb with ⟨_, hlt⟩ | rfl
        · omega
        · rfl
      cases he with
      | kept hi ho =>
          subst ho
          exact hsame hx
      | first opt hi hen hn ho hopt =>
          subst ho
          exact hsame hx
      | turned a gp op rot front curr hst hi hf hc ho => exact hturn hst x hx

/-- The old nodes of an orchestrator that has entered, before the estimates are applied. -/
theorem entered_old_node {x : PoseNode R} (h : WellFormed cfg o)
    (g : PoseGraphBuilder.Grows cfg o.poseGraph b node seq near loops)
    (he : Entered cfg m o o₁ b node) (h0 : o.state = .initializing → node.index = 0)
    (hx : x ∈ o₁.poseGraph.getNodes) (hi : x.index ≠ node.index) :
    o.state = .running ∧ x ∈ o.poseGraph.getNodes ∧ x.index < node.index := by
  have hat := he.atNode h g
  have hidx := g.keyframe.index
  have hlt : x.index < node.index := by
    have hl := hat.builder.nodes.lt hx
    rw [hat.length, g.getNodes, List.length_append, List.length_singleton, ← hidx] at hl
    omega
  cases he with
  | kept hi ho =>
      subst ho
      rcases eq_node h.builder g hx with ⟨hold, _⟩ | rfl
      · exact ⟨hat.state, hold, hlt⟩
      · exact absurd rfl hi
  | first opt hi hen hn ho hopt =>
      rw [hn] at hidx
      exact absurd hlt (by rw [hidx]; exact Nat.not_lt_zero _)
  | turned a gp op rot front curr hst hi hf hc ho =>
      have hz := h0 hst
      omega

/-- The inversion of an entry without a rerender. -/
theorem quietEntry {r : ScanProcessResult R} (hthr : 0 < cfg.rerenderThresholdM)
    (h : Tracked m cfg n) (he : n.orchestrator.entry cfg m f = some (o₁, node))
    (hp : o₁.processNode cfg m f node = some (o', r)) (hr : r.rerenderRequired = false)
    (hturn : n.orchestrator.state = .initializing →
      node.index = 0 ∧ ∀ x ∈ o₁.poseGraph.getNodes, x.pose = node.pose)
    (hstay : (o'.optimizedNode node).pose = node.pose) : QuietEntry cfg m n node o' r := by
  obtain ⟨b, seq, near, loops, g, _, hent⟩ := entry_spec h.orchestrator he
  have hat := hent.atNode h.orchestrator g
  obtain ⟨p, last, s, l, prior, hpr, rfl, rfl⟩ := processNode_cases hat.optimizer hat.loopCount hp
  have ha := p.applyOptimizedPoses_spec cfg m last (o₁.closes cfg m f node)
  obtain ⟨hclose, hquiet, hrec⟩ := applyOptimizedPoses_quiet hthr hr
  obtain ⟨hloop, hre⟩ := Bool.or_eq_false_iff.mp hclose
  have hlast : last = node := by
    rw [hpr.lastNode, if_neg]
    rw [hre]
    exact Bool.false_ne_true
  subst hlast
  have hentered : o₁.lastRenderedPoses = n.orchestrator.lastRenderedPoses := by
    cases hent with
    | kept hi ho => rw [ho]
    | first opt hi hen hn ho hopt => rw [ho]
    | turned a gp op rot front curr hst hi hf hc ho =>
        rw [ho]
        rfl
  refine ⟨g.keyframe.index, ?_, ?_, rfl, hloop, ?_, ?_⟩
  · rw [ha.nodes, List.length_map, hpr.poseGraph, hat.length, g.getNodes, List.length_append,
      List.length_singleton, g.keyframe.index]
  · rw [ha.state, hpr.state, hat.state]
  · rw [hrec, hpr.lastRenderedPoses, hentered]
  · intro x hx
    rw [ha.nodes] at hx
    obtain ⟨y, hy, rfl⟩ := List.mem_map.mp hx
    have hy' := hy
    rw [hpr.poseGraph] at hy
    rw [optimizedNode_congr ha.optimizer] at hstay
    by_cases hi : y.index = last.index
    · refine Or.inr ⟨(optimizedNode_index y).trans hi, ?_⟩
      exact entered_node_pose h.orchestrator g hent (fun hst => (hturn hst).2) hy hi hstay
    · obtain ⟨hrun, hold, hlt⟩ := entered_old_node h.orchestrator g hent
        (fun hst => (hturn hst).1) hy hi
      refine Or.inl ⟨y, hold, hlt, (optimizedNode_congr ha.optimizer).symm, ?_⟩
      apply (h.running hrun y hold).optimizedNode
      · rw [hpr.lastRenderedPoses, hentered]
      · exact hquiet y hy'

variable {a : Frame R × Bool} {r : ScanProcessResult R} {drawn : Nat → Option (Pose R)}

/-- After a full rerender every node is on record where it is drawn, and there. -/
theorem tracked_of_drawn (h0 : m.hypot 0 0 = 0) (hthr : 0 < cfg.rerenderThresholdM)
    (hw : WellFormed cfg o') (hrun : o'.state = .running)
    (hrec : ∀ x ∈ o'.poseGraph.getNodes, o'.lastRenderedPoses x.index = some x.pose) :
    Tracked m cfg ⟨o', recordAll (fun _ => none) o'.poseGraph.getNodes⟩ := by
  refine ⟨hw, ?_, ?_, ?_⟩
  · exact fun k p hp => hw.builder.nodes.lt_of_recordAll hp
  · exact fun hst => Phase.noConfusion (hst.symm.trans hrun)
  · intro _ x hx
    refine ⟨x.pose, hrec x hx, ?_, ?_⟩
    · rw [PoseNode.awayFrom_self h0 rfl]
      exact hthr
    · intro p hp
      change recordAll _ _ _ = _ at hp
      rw [recordAll_of_mem _ hw.builder.nodes.nodup hx] at hp
      exact (Option.some.inj hp).symm

/-- A quiet entry keeps the record if the renderer draws the new node only, or redraws the others
where they are on record. -/
theorem QuietEntry.tracked (h0 : m.hypot 0 0 = 0) (hthr : 0 < cfg.rerenderThresholdM)
    (h : Tracked m cfg n) (hw : WellFormed cfg o') (hq : QuietEntry cfg m n node o' r)
    (hr : r.rerenderRequired = false) (hstay : (o'.optimizedNode node).pose = node.pose)
    {added : Bool} (hadded : added = true ∨ ∀ x ∈ n.orchestrator.poseGraph.getNodes,
      ∀ q ∈ n.orchestrator.lastRenderedPoses x.index, (o'.optimizedNode x).pose = q) :
    Tracked m cfg ⟨o', render n.drawn o' r (o'.optimizedNode node) added⟩ := by
  have hlen := hq.length
  have hidx := hq.index
  refine ⟨hw, ?_, fun hst => Phase.noConfusion (hst.symm.trans hq.state), ?_⟩
  · intro k p hp
    apply lt_of_render_quiet hq.loopClosed hr hw.builder.nodes _ _ hp
    · rw [optimizedNode_index]
      omega
    · intro k p hp
      have hlt := h.drawn k p hp
      omega
  · intro _ x hx
    show OnRecord m cfg o'.lastRenderedPoses _ x
    rw [hq.rendered]
    rcases hq.nodes x hx with ⟨y, hy, hlt, rfl, q, hrec, haway, hdrawn⟩ | ⟨hi, hpose⟩
    · rw [optimizedNode_index] at hrec hdrawn
      refine ⟨q, ?_, haway, fun p hp => ?_⟩
      · rw [optimizedNode_index, Function.update_of_ne (by omega)]
        exact hrec
      · have hdraw := drawn_render_quiet hq.loopClosed hr hw.builder.nodes hx hp
        rw [optimizedNode_index, optimizedNode_index] at hdraw
        rcases hdraw with ⟨_, ⟨hi, _⟩ | ⟨_, hp⟩⟩ | ⟨hno, rfl⟩
        · omega
        · exact hdrawn p hp
        · exact (hadded.resolve_left (by rw [hno]; exact Bool.false_ne_true)) y hy q hrec
    · refine ⟨node.pose, ?_, ?_, fun p hp => ?_⟩
      · rw [hi, Function.update_self]
      · rw [PoseNode.awayFrom_self h0 (congrArg Pose.pos hpose.symm)]
        exact hthr
      · have hdraw := drawn_render_quiet hq.loopClosed hr hw.builder.nodes hx hp
        rw [optimizedNode_index] at hdraw
        rcases hdraw with ⟨_, ⟨_, rfl⟩ | ⟨hne, _⟩⟩ | ⟨_, rfl⟩
        · exact hstay
        · exact absurd hi hne
        · exact hpose

/-- No drawn node is away from where it was drawn before a quiet entry. -/
theorem QuietEntry.within (h : Tracked m cfg n) (hq : QuietEntry cfg m n node o' r)
    {x : PoseNode R} (hx : x ∈ o'.poseGraph.getNodes) {p : Pose R}
    (hp : n.drawn x.index = some p) : x.awayFrom m p ≤ cfg.rerenderThresholdM := by
  rcases hq.nodes x hx with ⟨y, _, _, _, q, _, haway, hdrawn⟩ | ⟨hi, _⟩
  · rw [hdrawn p hp]
    exact haway.le
  · have hlt := h.drawn _ p hp
    rw [hi, hq.index] at hlt
    exact absurd hlt (lt_irrefl _)

/-- A frame without a node, or whose node waits for GNSS, moves no node. -/
theorem tracked_waiting (h : Tracked m cfg n) (hw : WellFormed cfg o')
    (g : PoseGraphBuilder.Grows cfg n.orchestrator.poseGraph b node seq near loops)
    (hb : o'.poseGraph = b) (hst : n.orchestrator.state = .initializing)
    (hst' : o'.state = .initializing) {added : Bool} (hc : r.loopClosed = false)
    (hr : r.rerenderRequired = false) : Tracked m cfg ⟨o', render n.drawn o' r node added⟩ := by
  have hlen : o'.poseGraph.getNodes.length = node.index + 1 := by
    rw [hb, g.getNodes, List.length_append, List.length_singleton, g.keyframe.index]
  have hidx := g.keyframe.index
  refine ⟨hw, ?_, ?_, fun hrun => Phase.noConfusion (hst'.symm.trans hrun)⟩
  · intro k p hp
    apply lt_of_render_quiet hc hr hw.builder.nodes (by omega) _ hp
    intro k p hp
    have hlt := h.drawn k p hp
    omega
  · intro _ x hx p hp
    rcases drawn_render_quiet hc hr hw.builder.nodes hx hp with
      ⟨_, hnew⟩ | ⟨_, rfl⟩
    · change x ∈ o'.poseGraph.getNodes at hx
      rw [hb] at hx
      rcases eq_node h.orchestrator.builder g hx with ⟨hold, hlt⟩ | rfl
      · rcases hnew with ⟨hi, _⟩ | ⟨_, hp⟩
        · omega
        · exact h.waiting hst x hold p hp
      · rcases hnew with ⟨_, rfl⟩ | ⟨hne, _⟩
        · rfl
        · exact absurd rfl hne
    · rfl

theorem processNode_isSome (h : o.processNode cfg m f node = some (o', r)) :
    r.node.isSome = true := by
  obtain ⟨opt, _, he⟩ := Option.map_eq_some_iff.mp h
  rw [← (Prod.mk.inj he).2]
  rfl

/-- A node that enters with a rerender is drawn with all others. -/
theorem tracked_rerender (h0 : m.hypot 0 0 = 0) (hthr : 0 < cfg.rerenderThresholdM)
    (h : WellFormed cfg n.orchestrator) (he : n.orchestrator.entry cfg m f = some (o₁, node))
    (hp : o₁.processNode cfg m f node = some (o', r)) (hr : r.rerenderRequired = true)
    (hw : WellFormed cfg o') {x : PoseNode R} {added : Bool} :
    Tracked m cfg ⟨o', render n.drawn o' r x added⟩ := by
  obtain ⟨b, seq, near, loops, g, _, hent⟩ := entry_spec h he
  have hat := hent.atNode h g
  obtain ⟨p, last, s, l, prior, hpr, rfl, rfl⟩ := processNode_cases hat.optimizer hat.loopCount hp
  have ha := p.applyOptimizedPoses_spec cfg m last (o₁.closes cfg m f node)
  have hnodes := ha.nodes
  have hrec := applyOptimizedPoses_rerender hr
  have hrun := ha.state.trans (hpr.state.trans hat.state)
  have hne : (p.applyOptimizedPoses cfg m last (o₁.closes cfg m f node)).1.poseGraph.getNodes ≠
      [] := by
    intro hnil
    have hl := congrArg List.length hnodes
    rw [hnil, List.length_map, hpr.poseGraph, hat.length, g.getNodes, List.length_append] at hl
    exact absurd hl (by simp)
  have hrender := rerenderAll_eq n.drawn hne
  unfold render
  rw [hr, Bool.or_true, if_pos rfl, hrender]
  apply tracked_of_drawn h0 hthr hw hrun
  intro x hx
  rw [hrec, ← hnodes]
  exact recordAll_of_mem _ hw.builder.nodes.nodup hx

/-- One frame of a node that draws, under its condition. -/
theorem tracked_frame (h0 : m.hypot 0 0 = 0) (hthr : 0 < cfg.rerenderThresholdM)
    (h : Tracked m cfg n) (hk : KeepsRecord cfg m n a)
    (hp : n.orchestrator.processFrame cfg m a.1 = some (o', r)) :
    (r.rerenderRequired = false → ∀ x ∈ o'.poseGraph.getNodes, ∀ p, n.drawn x.index = some p →
      x.awayFrom m p ≤ cfg.rerenderThresholdM) ∧
    (r.node = none → Tracked m cfg ⟨o', n.drawn⟩) ∧
    ∀ x, r.node = some x → Tracked m cfg ⟨o', render n.drawn o' r x a.2⟩ := by
  have hw := wellFormed_frame h.orchestrator hp
  rcases processFrame_cases h.orchestrator.builder hp with
    ⟨rfl, rfl, _⟩ | hwait | ⟨o₁, node, he, hpn⟩
  · refine ⟨fun _ x hx p hd => h.within h0 hthr hx hd, fun _ => h, ?_⟩
    intro x hx
    cases hx
  · obtain ⟨b, node, seq, near, loops, g, _, hb, hst, hst', _, rfl⟩ := hwait
    obtain ⟨_, hgraph⟩ := waiting_poseGraph h.orchestrator g hb hst hst'
    have ht : ∀ added, Tracked m cfg ⟨o', render n.drawn o' _ node added⟩ := fun added =>
      tracked_waiting (r := ⟨some node, false, false,
        getLatestSeqEdge node.index o'.poseGraph.getEdges, [], none⟩) h hw g hgraph hst hst' rfl rfl
    refine ⟨?_, fun hno => absurd hno (Option.some_ne_none node), ?_⟩
    · intro _ x hx p hd
      rw [hgraph] at hx
      rcases eq_node h.orchestrator.builder g hx with ⟨hold, _⟩ | rfl
      · exact h.within h0 hthr hold hd
      · have hlt := h.drawn _ p hd
        rw [g.keyframe.index] at hlt
        exact absurd hlt (lt_irrefl _)
    · intro x hx
      obtain rfl := Option.some.inj hx
      exact ht a.2
  · have hsome := processNode_isSome hpn
    unfold KeepsRecord at hk
    rw [he, hp] at hk
    dsimp only at hk
    cases hr : r.rerenderRequired with
    | true =>
        refine ⟨fun hf => Bool.noConfusion hf, ?_, fun x _ => ?_⟩
        · intro hno
          rw [hno] at hsome
          cases hsome
        · exact tracked_rerender h0 hthr h.orchestrator he hpn hr hw
    | false =>
        obtain ⟨hturn, hstay, hadded⟩ := hk hr
        have hq := quietEntry hthr h he hpn hr hturn hstay
        refine ⟨fun _ x hx p hd => hq.within h hx hd, ?_, ?_⟩
        · intro hno
          rw [hq.result] at hno
          cases hno
        · intro x hx
          obtain rfl := Option.some.inj (hq.result.symm.trans hx)
          exact hq.tracked h0 hthr h hw hr hstay hadded

theorem tracked_step {n' : SlamNode R} (h0 : m.hypot 0 0 = 0) (hthr : 0 < cfg.rerenderThresholdM)
    (hskip : cfg.skipIntermediateRendering = false) (h : Tracked m cfg n)
    (hk : KeepsRecord cfg m n a) (hs : n.step cfg m a = some n') : Tracked m cfg n' := by
  obtain ⟨⟨v, d⟩, ho, rfl⟩ := Option.map_eq_some_iff.mp hs
  obtain ⟨r, hp, ⟨hno, hd, _⟩ | ⟨x, hx, _, hd, _⟩⟩ := onFrame_cases ho
  · obtain ⟨_, hnone, _⟩ := tracked_frame h0 hthr h hk hp
    have hn := hno.resolve_right (by
      rw [hskip]
      exact Bool.false_ne_true)
    have ht := hnone hn
    rw [← hd] at ht
    exact ht
  · obtain ⟨_, _, hsome⟩ := tracked_frame h0 hthr h hk hp
    have ht := hsome x hx
    rw [← hd] at ht
    exact ht

/-- Without intermediate rendering nothing is drawn. -/
theorem drawn_of_skip {n' : SlamNode R} (hskip : cfg.skipIntermediateRendering = true)
    (hs : n.step cfg m a = some n') : n'.drawn = n.drawn := by
  obtain ⟨⟨v, d⟩, ho, rfl⟩ := Option.map_eq_some_iff.mp hs
  obtain ⟨r, hp, ⟨_, hd, _⟩ | ⟨x, _, hno, _⟩⟩ := onFrame_cases ho
  · exact hd
  · exact absurd (hno.symm.trans hskip) Bool.false_ne_true

/-- In every run whose frames keep the record true, a frame without a rerender leaves every drawn
node within the threshold of where it was drawn, and the record is of drawn poses. -/
theorem drawn_within_threshold (h0 : m.hypot 0 0 = 0) {as : List (Frame R × Bool)}
    (h : cfg.skipIntermediateRendering = true ∨ 0 < cfg.rerenderThresholdM ∧
      Meets (step cfg m) (KeepsRecord cfg m) (init cfg) as) :
    Meets (step cfg m) (WithinThreshold cfg m) (init cfg) as ∧
      ∀ n, exec (step cfg m) (init cfg) as = some n → n.RecordsDrawn := by
  cases hskip : cfg.skipIntermediateRendering with
  | true =>
      have hstep : ∀ (s : SlamNode R) a t, (s.drawn = fun _ => none) → True →
          s.step cfg m a = some t → t.drawn = fun _ => none :=
        fun s a t hd _ hs => (drawn_of_skip hskip hs).trans hd
      have hall : Meets (step cfg m) (fun _ _ => True) (init cfg) as :=
        Meets.of_forall fun _ _ => trivial
      constructor
      · apply meets_of_invariant hstep _ rfl hall
        intro s a hd _ o' r _ _ x _ p hp
        rw [hd] at hp
        cases hp
      · intro n hr _ x _ p hp
        rw [invariant hstep rfl hall hr] at hp
        cases hp
  | false =>
      obtain ⟨hthr, hm⟩ := h.resolve_left (by
        rw [hskip]
        exact Bool.false_ne_true)
      have hstep : ∀ s a t, Tracked m cfg s → KeepsRecord cfg m s a → s.step cfg m a = some t →
          Tracked m cfg t := fun s a t ht hk hs => tracked_step h0 hthr hskip ht hk hs
      constructor
      · apply meets_of_invariant hstep _ (tracked_init m cfg) hm
        exact fun s a ht hk o' r hp hr => (tracked_frame h0 hthr ht hk hp).1 hr
      · intro n hr hrun x hx p hp
        have ht := invariant hstep (tracked_init m cfg) hm hr
        obtain ⟨q, hq, _, hdrawn⟩ := ht.running hrun x hx
        rw [hdrawn p hp]
        exact hq

/-- Odometry only; `gnss` turns the GNSS initialisation on. -/
def drawConfig (gnss : Bool) : SlamConfig ℚ :=
  let d : SlamConfig ℚ := .defaults
  { d with
    scanMatching := { d.scanMatching with enabled := false }
    loopClosure := { d.loopClosure with enabled := false }
    gnss := { d.gnss with enabled := gnss } }

/-- Node `k` is estimated `d` further along the axis than before. -/
def nudge (k : Nat) (d : ℚ) : Isam2 ℚ := fun o =>
  (keepValues o).map fun v i => (v i).map fun p => if i = k then { p with x := p.x + d } else p

/-- The `i`-th frame, a metre after the one before; the first scan does not fit the map. -/
def axisFrame (start : ℚ) (isam2 : Isam2 ℚ) (i : Nat) : Frame ℚ × Bool :=
  (⟨⟨some ⟨i⟩, ⟨i, start + i, 0, 0⟩, some ⟨i, start + i, 0, fun _ _ => 0, 1⟩⟩, .agreeing [] [],
    isam2⟩, decide (i ≠ 0))

theorem drawn_within_threshold_axis :
    Meets (step (drawConfig false) .axis) (WithinThreshold (drawConfig false) .axis)
      (init (drawConfig false)) ((List.range 4).map (axisFrame 0 keepValues)) ∧
    ∀ n, exec (step (drawConfig false) .axis) (init (drawConfig false))
      ((List.range 4).map (axisFrame 0 keepValues)) = some n → n.RecordsDrawn :=
  drawn_within_threshold (by decide +kernel) (Or.inr (by decide +kernel))

/-- The graph is moved to the origin by the GNSS initialisation, which needs no turn; and a node
is drawn 20 cm ahead of its record, where it is the frame after. -/
theorem drawn_elsewhere :
    ¬ Meets (step (drawConfig true) .axis) (WithinThreshold (drawConfig true) .axis)
        (init (drawConfig true)) ((List.range 3).map (axisFrame 5 keepValues)) ∧
      ¬ Meets (step (drawConfig false) .axis) (WithinThreshold (drawConfig false) .axis)
        (init (drawConfig false)) [axisFrame 0 keepValues 0, axisFrame 0 (nudge 1 (1 / 5)) 1,
          axisFrame 0 (nudge 1 (-1 / 5)) 2] := by
  decide +kernel

end SlamNode

end MgRobot.Slam

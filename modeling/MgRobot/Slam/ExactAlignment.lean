import MgRobot.Slam.ExactHeading
import MgRobot.Slam.GnssInit

/-!
# The alignment on exact data

In runs without noise the samples of the GNSS initialisation are the odometry samples
turned about the first of them. The graph is aligned exactly if the first sample is at
the first node and the heading is decided.
-/

namespace MgRobot.Slam

set_option autoImplicit false

open MgRobot.Lib MgRobot.Lib.Runs MgRobot.Lib.Plane GraphOrchestrator

/-- The UTM position of a position in the odometry frame. -/
noncomputable def utm (θ : ℝ) (offset p : ℝ × ℝ) : ℝ × ℝ := offset + turn θ p

theorem utm_sub (θ : ℝ) (offset p q : ℝ × ℝ) :
    utm θ offset p - utm θ offset q = turn θ (p - q) := by
  unfold utm
  rw [turn_sub, add_sub_add_left_eq_sub]

namespace GraphOrchestrator

section Statement

variable (θ : ℝ) (offset : ℝ × ℝ) (cfg : SlamConfig ℝ) (m : Numerics ℝ)

/-- A fix that is good enough for the anchor reads the UTM position of the node it is taken at. -/
def NoiseFree (o : GraphOrchestrator ℝ) (f : Frame ℝ) : Prop :=
  match o.poseGraph.addScan cfg m f.matchers f.sensor.scan f.sensor.odom with
  | (_, none) => True
  | (_, some node) => ∀ g ∈ f.sensor.gnss, cfg.gnss.anchor.minFixStatus ≤ g.fixStatus →
      g.pos = utm θ offset node.pos

/-- Once there is an anchor, no weaker fix is off, although it is sampled like the others. -/
def WeakFixExact (o : GraphOrchestrator ℝ) (f : Frame ℝ) : Prop :=
  match o.poseGraph.addScan cfg m f.matchers f.sensor.scan f.sensor.odom with
  | (_, none) => True
  | (_, some node) => ∀ g ∈ f.sensor.gnss, g.fixStatus < cfg.gnss.anchor.minFixStatus →
      o.anchor.isSome = true → g.pos = utm θ offset node.pos

/-- `o₁` is the orchestrator after `node` has entered in `o`: the rotation is `θ`, and every node
is where a fix taken at it is locally. -/
def Aligned (o o₁ : GraphOrchestrator ℝ) (node : PoseNode ℝ) : Prop :=
  (o₁.initRotation : Real.Angle) = θ ∧ ∃ anchor, o₁.anchor = some anchor ∧
    o₁.poseGraph.getNodes.map (·.pos) =
      (o.poseGraph.getNodes ++ [node]).map fun n => utm θ offset n.pos - anchor

/-- The anchor was taken at the position of the first node, and the heading is decided. -/
def AlignmentDecided (o : GraphOrchestrator ℝ) (f : Frame ℝ) (node : PoseNode ℝ) : Prop :=
  match o.alignFix cfg m f.sensor, (o.poseGraph.getNodes ++ [node]).head? with
  | some (g, anchor), some front =>
      (o.initOdomPts ++ [node.pos]).head? = some front.pos ∧
        HeadingDecided m θ (o.initGnssPts ++ [g.toLocal anchor]) (o.initOdomPts ++ [node.pos])
          (g.toLocal anchor) front node
  | _, _ => False

/-- The samples so far: without an anchor none, else the GNSS samples are the odometry samples
turned about the first of them, where the anchor was taken. -/
def Sampled (o : GraphOrchestrator ℝ) : Prop :=
  match o.anchor with
  | none => o.initGnssPts = [] ∧ o.initOdomPts = []
  | some anchor => ∃ first, o.initOdomPts.head? = some first ∧ anchor = utm θ offset first ∧
      o.initGnssPts = o.initOdomPts.map fun p => turn θ (p - first)

end Statement

variable {θ : ℝ} {offset : ℝ × ℝ} {cfg : SlamConfig ℝ} {m : Numerics ℝ}
variable {o o' o₁ : GraphOrchestrator ℝ} {f : Frame ℝ} {node : PoseNode ℝ}

/-- An exact fix keeps the samples exact. -/
theorem Sampled.withSample (h : Sampled θ offset o) {g : GnssData ℝ} {anchor : ℝ × ℝ}
    (ha : o.initAnchor cfg g = some anchor) (hg : g.pos = utm θ offset node.pos) :
    ∃ first, (o.initOdomPts ++ [node.pos]).head? = some first ∧ anchor = utm θ offset first ∧
      o.initGnssPts ++ [g.toLocal anchor] =
        (o.initOdomPts ++ [node.pos]).map fun p => turn θ (p - first) := by
  have hlocal : ∀ a, g.toLocal a = g.pos - a := fun a => rfl
  unfold Sampled at h
  unfold initAnchor at ha
  cases hanchor : o.anchor with
  | none =>
      rw [hanchor] at h ha
      obtain ⟨hgnss, hodom⟩ := h
      dsimp only [Option.orElse_none] at ha
      split at ha
      · cases ha
      · obtain rfl := Option.some.inj ha
        refine ⟨node.pos, ?_, hg, ?_⟩
        · rw [hodom]
          rfl
        · rw [hgnss, hodom, hlocal, sub_self, List.nil_append, List.nil_append, List.map_singleton,
            sub_self, turn_zero]
  | some a =>
      rw [hanchor] at h ha
      obtain rfl := Option.some.inj ha
      obtain ⟨first, hf, hutm, hgnss⟩ := h
      refine ⟨first, ?_, hutm, ?_⟩
      · rw [List.head?_append, hf]
        rfl
      · rw [List.map_append, List.map_singleton, ← hgnss, hlocal, hg, hutm, utm_sub]

/-- Every fix that is sampled is exact. -/
theorem pos_of_initAnchor (hfree : NoiseFree θ offset cfg m o f)
    (hweak : WeakFixExact θ offset cfg m o f) {b : PoseGraphBuilder ℝ}
    (hadd : o.poseGraph.addScan cfg m f.matchers f.sensor.scan f.sensor.odom = (b, some node))
    {g : GnssData ℝ} (hg : f.sensor.gnss = some g) {anchor : ℝ × ℝ}
    (ha : o.initAnchor cfg g = some anchor) : g.pos = utm θ offset node.pos := by
  unfold NoiseFree at hfree
  unfold WeakFixExact at hweak
  rw [hadd] at hfree hweak
  rcases le_or_gt cfg.gnss.anchor.minFixStatus g.fixStatus with hs | hs
  · exact hfree g hg hs
  · apply hweak g hg hs
    unfold initAnchor at ha
    cases hanchor : o.anchor with
    | some a => rfl
    | none =>
        rw [hanchor] at ha
        dsimp only [Option.orElse_none] at ha
        rw [if_pos hs] at ha
        cases ha

theorem sampled_step (h : WellFormed cfg o) (hfree : NoiseFree θ offset cfg m o f)
    (hweak : WeakFixExact θ offset cfg m o f) (hs : o.state = .initializing → Sampled θ offset o)
    (hstep : o.step cfg m f = some o') : o'.state = .initializing → Sampled θ offset o' := by
  obtain ⟨⟨v, r⟩, hp, rfl⟩ := Option.map_eq_some_iff.mp hstep
  rcases processFrame_cases h.builder hp with ⟨rfl, _⟩ | hwait | ⟨o₁, node, he, hpn⟩
  · exact hs
  · obtain ⟨b, node, seq, near, loops, g, hadd, hb, hst, hst', _⟩ := hwait
    intro _
    have hsam := hs hst
    obtain ⟨hno, _⟩ := waiting_poseGraph h g hb hst hst'
    obtain ⟨front, hf, hc⟩ := front_and_last g
    rcases initializeWithGnssIfReady_waits (m := m)
      (o := { o with poseGraph := b }) hf hc hno with hw | ⟨fix, anchor, hg, ha, hw⟩
    · rw [hb, hw]
      exact hsam
    · rw [hb, hw]
      exact hsam.withSample ha (pos_of_initAnchor hfree hweak hadd hg ha)
  · obtain ⟨b, seq, near, loops, g, _, hent⟩ := entry_spec h he
    have hat := hent.atNode h g
    obtain ⟨p, last, s, l, prior, hpr, rfl, _⟩ := processNode_cases hat.optimizer hat.loopCount hpn
    have ha := p.applyOptimizedPoses_spec cfg m last (o₁.closes cfg m f node)
    intro hst
    exact Phase.noConfusion (hst.symm.trans (ha.state.trans (hpr.state.trans hat.state)))

/-- Where the nodes are after the graph has been turned about the first of them. -/
theorem rebaseAndRotateNodes_pos (hm : m.Exact) {nodes : List (PoseNode ℝ)} {front : PoseNode ℝ}
    (hf : nodes.head? = some front) (rot : ℝ) :
    (m.rebaseAndRotateNodes nodes rot).map (·.pos) =
      nodes.map fun n => turn rot (n.pos - front.pos) := by
  rw [m.rebaseAndRotateNodes_of_head hf, List.map_map]
  apply List.map_congr_left
  intro n _
  show m.rotate rot (n.x - front.x) (n.y - front.y) = _
  rw [hm.rotate]
  rfl

/-- Nodes turned about the first of them are turned about `first` if that is the same point. -/
theorem turned_nodes_iff {nodes : List (PoseNode ℝ)} {front : PoseNode ℝ}
    (hf : nodes.head? = some front) (rot : ℝ) (first : ℝ × ℝ) :
    ((rot : Real.Angle) = θ ∧ nodes.map (fun n => turn rot (n.pos - front.pos)) =
      nodes.map fun n => turn θ (n.pos - first)) ↔
    first = front.pos ∧ (rot : Real.Angle) = θ := by
  constructor
  · intro ⟨hrot, hmap⟩
    refine ⟨?_, hrot⟩
    cases nodes with
    | nil => cases hf
    | cons n rest =>
        obtain rfl := Option.some.inj hf
        rw [List.map_cons, List.map_cons] at hmap
        have hhead := (List.cons.inj hmap).1
        rw [sub_self, turn_zero] at hhead
        exact (sub_eq_zero.mp (turn_eq_zero.mp hhead.symm)).symm
  · intro ⟨hfirst, hrot⟩
    refine ⟨hrot, ?_⟩
    rw [hfirst]
    apply List.map_congr_left
    intro n _
    exact turn_congr hrot _

/-- `Aligned` of a graph turned by `rot` about its first node. -/
theorem aligned_iff_rotation (hm : m.Exact) {b : PoseGraphBuilder ℝ} {front : PoseNode ℝ}
    (hfront : b.getNodes.head? = some front) (hnodes : b.getNodes = o.poseGraph.getNodes ++ [node])
    {first : ℝ × ℝ} {rot : ℝ} (hrot : o₁.initRotation = rot)
    (hanchor : o₁.anchor = some (utm θ offset first))
    (hturned : o₁.poseGraph.getNodes = m.rebaseAndRotateNodes b.getNodes rot) :
    Aligned θ offset o o₁ node ↔ first = front.pos ∧ (rot : Real.Angle) = θ := by
  rw [← turned_nodes_iff hfront]
  unfold Aligned
  rw [hrot, hanchor, hturned, rebaseAndRotateNodes_pos hm hfront, ← hnodes]
  apply and_congr_right
  intro _
  constructor
  · intro ⟨anchor, ha, hmap⟩
    obtain rfl := Option.some.inj ha
    simpa only [utm_sub] using hmap
  · intro hmap
    refine ⟨_, rfl, ?_⟩
    simpa only [utm_sub] using hmap

/-- The graph turned at a fix is aligned if the anchor is at the first node and the heading is
right. -/
theorem alignedAt_aligned_iff (hm : m.Exact) {b : PoseGraphBuilder ℝ} {front : PoseNode ℝ}
    (hfront : b.getNodes.head? = some front) (hnodes : b.getNodes = o.poseGraph.getNodes ++ [node])
    {first anchor : ℝ × ℝ} (hanchor : anchor = utm θ offset first) {g : GnssData ℝ} :
    Aligned θ offset o (alignedAt cfg m { o with poseGraph := b } g anchor front node) node ↔
      first = front.pos ∧
        ((alignedAt cfg m { o with poseGraph := b } g anchor front node).initRotation :
          Real.Angle) = θ :=
  aligned_iff_rotation hm hfront hnodes rfl (congrArg some hanchor)
    (PoseGraphBuilder.replaceNodes_getNodes ..)

/-- In the frame that turns the graph, it is aligned exactly if that is decided. -/
theorem aligned_iff (hm : m.Exact) (h : WellFormed cfg o) (hst : o.state = .initializing)
    (hs : Sampled θ offset o) (hfree : NoiseFree θ offset cfg m o f)
    (hweak : WeakFixExact θ offset cfg m o f) (he : o.entry cfg m f = some (o₁, node)) :
    Aligned θ offset o o₁ node ↔ AlignmentDecided θ cfg m o f node := by
  obtain ⟨b, seq, near, loops, g, anchor, front, hg, hadd, hfix, hfront, rfl⟩ :=
    entry_aligned h hst he
  obtain ⟨hgnss, hanchor, _⟩ := alignFix_eq_some hfix
  have hpos := pos_of_initAnchor hfree hweak hadd hgnss hanchor
  obtain ⟨first, hfirst, rfl, hpts⟩ := hs.withSample hanchor hpos
  have hlocal : g.toLocal (utm θ offset first) = turn θ (node.pos - first) := by
    rw [← utm_sub θ offset, ← hpos]
    rfl
  have hlast : (o.initOdomPts ++ [node.pos]).getLast? = some node.pos := List.getLast?_concat
  rw [alignedAt_aligned_iff hm hfront hg.getNodes rfl]
  unfold AlignmentDecided
  rw [hfix, ← hg.getNodes, hfront]
  dsimp only
  rw [hfirst, Option.some.injEq]
  apply and_congr_right
  intro hfirst'
  subst hfirst'
  rw [hpts, hlocal, ← hm.headingRotation hfirst hlast, ← hpts, ← hlocal]
  rfl

/-- In every run without noise, the frame that leaves the initialisation aligns the graph exactly
if the anchor was taken at the first node's position and the heading is decided. -/
theorem aligned_after_run_iff (hm : m.Exact) {fs : List (Frame ℝ)}
    (hr : exec (step cfg m) (new cfg) fs = some o) (hst : o.state = .initializing)
    (he : o.entry cfg m f = some (o₁, node))
    (hfree : Meets (step cfg m) (NoiseFree θ offset cfg m) (new cfg) (fs ++ [f]))
    (hweak : Meets (step cfg m) (WeakFixExact θ offset cfg m) (new cfg) (fs ++ [f])) :
    Aligned θ offset o o₁ node ↔ AlignmentDecided θ cfg m o f node := by
  have hinv : WellFormed cfg o ∧ (o.state = .initializing → Sampled θ offset o) := by
    apply invariant (I := fun o => WellFormed cfg o ∧
      (o.state = .initializing → Sampled θ offset o)) _ _ (hfree.left.and hweak.left) hr
    · intro s a t ⟨hw, hs⟩ ⟨hf, hk⟩ hst
      exact ⟨wellFormed_step hw hst, sampled_step hw hf hk hs hst⟩
    · exact ⟨wellFormed_new cfg, fun _ => ⟨rfl, rfl⟩⟩
  exact aligned_iff hm hinv.1 hst (hinv.2 hst) (hfree.at hr) (hweak.at hr) he

section Line

/-- Odometry and GNSS; the anchor needs a status of 1. -/
noncomputable def lineConfig : SlamConfig ℝ :=
  let d : SlamConfig ℝ := .defaults
  { d with
    scanMatching := { d.scanMatching with enabled := false }
    loopClosure := { d.loopClosure with enabled := false }
    gnss := { d.gnss with anchor := { d.gnss.anchor with minFixStatus := 1 } } }

noncomputable def fixAt (p : ℝ × ℝ) (status : Int) : GnssData ℝ :=
  ⟨0, p.1, p.2, fun _ _ => 0, status⟩

/-- A frame at `x` metres along the axis. -/
noncomputable def lineFrame (x : ℝ) (gnss : Option (GnssData ℝ)) : Frame ℝ :=
  ⟨⟨some ⟨x⟩, ⟨x, x, 0, 0⟩, gnss⟩, .agreeing [] [], keepValues⟩

noncomputable def lineNode (i : Nat) (x : ℝ) : PoseNode ℝ := ⟨i, x, x, 0, 0, some ⟨x⟩⟩

variable {x y : ℝ} {gnss : Option (GnssData ℝ)} {b : OdomOnlyBuilder ℝ} {k : Nat}

theorem heading_one : heading (1, 0) = 0 := Complex.arg_one

theorem lineFrame_addScan_first : PoseGraphBuilder.addScan lineConfig .exact
    (lineFrame x gnss).matchers (lineFrame x gnss).sensor.scan (lineFrame x gnss).sensor.odom
    (.odomOnly .new) =
      (.odomOnly ⟨[lineNode 0 x], [], some ⟨x, x, 0, 0⟩⟩, some (lineNode 0 x)) := rfl

/-- A metre and more ahead there is a keyframe. -/
theorem lineFrame_addScan (gnss : Option (GnssData ℝ)) (hl : b.nodes.getLast? = some (lineNode k x))
    (ho : b.lastOdom = some ⟨x, x, 0, 0⟩) (hxy : 1 ≤ y - x) :
    ∃ es, PoseGraphBuilder.addScan lineConfig .exact (lineFrame y gnss).matchers
        (lineFrame y gnss).sensor.scan (lineFrame y gnss).sensor.odom (.odomOnly b) =
      (.odomOnly ⟨b.nodes ++ [lineNode b.nodes.length y], es, some ⟨y, y, 0, 0⟩⟩,
        some (lineNode b.nodes.length y)) := by
  have hk : ¬ belowKeyframe lineConfig .exact ⟨x, x, 0, 0⟩ ⟨y, y, 0, 0⟩ := by
    intro h
    have hlt : Real.sqrt ((y - x) * (y - x) + (0 - 0) * (0 - 0)) < 1 / 2 := h.1
    rw [sub_self, mul_zero, add_zero, Real.sqrt_mul_self (by linarith)] at hlt
    linarith
  have hyaw : Numerics.exact.angleDiff 0 0 = 0 := by
    show heading (Real.cos (0 - 0), Real.sin (0 - 0)) = 0
    rw [sub_self, Real.cos_zero, Real.sin_zero, heading_one]
  have hn : Numerics.exact.normalizeAngle (0 + 0) = 0 := by
    show heading (Real.cos (0 + 0), Real.sin (0 + 0)) = 0
    rw [add_zero, Real.cos_zero, Real.sin_zero, heading_one]
  have hd : Numerics.exact.localDeltaToWorld
      (Numerics.exact.worldDeltaToLocal (y - x) (0 - 0) 0).1
      (Numerics.exact.worldDeltaToLocal (y - x) (0 - 0) 0).2 0 = (y - x, 0) := by
    simp [Numerics.localDeltaToWorld, Numerics.worldDeltaToLocal, Numerics.exact]
  have hnode : nextNode .exact b.nodes.length ⟨y⟩ (lineNode k x)
      (Numerics.exact.worldDeltaToLocal (y - x) (0 - 0) 0).1
      (Numerics.exact.worldDeltaToLocal (y - x) (0 - 0) 0).2
      (Numerics.exact.angleDiff 0 0) = lineNode b.nodes.length y := by
    dsimp only [nextNode, lineNode]
    rw [hd, hyaw, hn, add_sub_cancel, add_zero]
  unfold PoseGraphBuilder.addScan OdomOnlyBuilder.addScan lineFrame
  dsimp only
  rw [hl, ho]
  dsimp only
  rw [if_neg hk, hnode]
  exact ⟨_, rfl⟩

/-- The orchestrator after a first frame whose fix sets the anchor. -/
noncomputable def lineStart : GraphOrchestrator ℝ :=
  withSample { new lineConfig with
    poseGraph := .odomOnly ⟨[lineNode 0 0], [], some ⟨0, 0, 0, 0⟩⟩ } (fixAt 0 1) 0 (lineNode 0 0)

theorem step_lineStart : step lineConfig .exact (new lineConfig) (lineFrame 0 (some (fixAt 0 1))) =
    some lineStart := by
  apply step_of_waiting lineFrame_addScan_first _ rfl
  apply initializeWithGnssIfReady_sample rfl rfl rfl rfl rfl rfl
  show Real.sqrt ((0 - 0) * (0 - 0) + (0 - 0) * (0 - 0)) < 2
  norm_num

variable {p : ℝ × ℝ} {status : Int}

/-- A fix two metres and more from the anchor turns the graph. -/
theorem alignFix_of_far (o : GraphOrchestrator ℝ) (status : Int) {anchor : ℝ × ℝ}
    (ha : o.anchor = some anchor)
    (hp : 4 ≤ (p.1 - anchor.1) * (p.1 - anchor.1) + (p.2 - anchor.2) * (p.2 - anchor.2)) :
    o.alignFix lineConfig .exact (lineFrame x (some (fixAt p status))).sensor =
      some (fixAt p status, anchor) := by
  have hfar : ¬ Numerics.exact.hypot ((fixAt p status).toLocal anchor).1
      ((fixAt p status).toLocal anchor).2 < lineConfig.gnss.anchor.initDistanceM := by
    show ¬ Real.sqrt ((p.1 - anchor.1) * (p.1 - anchor.1) +
      (p.2 - anchor.2) * (p.2 - anchor.2)) < 2
    rw [not_lt]
    apply Real.le_sqrt_of_sq_le
    linarith
  unfold alignFix initAnchor
  rw [ha]
  exact if_neg hfar

/-- Wherever the second fix is, the second frame decides the heading by the odometry. -/
theorem lineStart_entry (p : ℝ × ℝ) (status : Int) (hp : 4 ≤ p.1 * p.1 + p.2 * p.2) :
    ∃ o₁, lineStart.entry lineConfig .exact (lineFrame 3 (some (fixAt p status))) =
        some (o₁, lineNode 1 3) ∧
      ∀ θ, AlignmentDecided θ lineConfig .exact lineStart (lineFrame 3 (some (fixAt p status)))
        (lineNode 1 3) := by
  have hfix := alignFix_of_far (x := 3) (p := p) lineStart status rfl
    (by simpa using hp)
  obtain ⟨es, hadd⟩ := lineFrame_addScan (some (fixAt p status))
    (b := ⟨[lineNode 0 0], [], some ⟨0, 0, 0, 0⟩⟩) (k := 0) (x := 0) (y := 3) rfl rfl (by norm_num)
  refine ⟨_, entry_of_alignFix hadd rfl rfl rfl rfl hfix, fun θ => ?_⟩
  have haxis : ∀ gp, AxisDecided .exact θ gp [(0, 0), (3, 0)] (3, 0) := by
    intro gp eg eo _ heo
    obtain rfl := Option.some.inj heo
    left
    have hcov : pcaCovariance [((0 : ℝ), (0 : ℝ)), (3, 0)] =
        Matrix.of ![![9 / 4, 0], ![0, 0]] := by
      simp only [pcaCovariance, mean, List.map_cons, List.map_nil, List.sum_cons, List.sum_nil,
        List.length_cons, List.length_nil]
      norm_num
    show dot (principalAxis (pcaCovariance [((0 : ℝ), (0 : ℝ)), (3, 0)] 0 0)
      (pcaCovariance [((0 : ℝ), (0 : ℝ)), (3, 0)] 0 1)
      (pcaCovariance [((0 : ℝ), (0 : ℝ)), (3, 0)] 1 1)) (3, 0) ≠ 0
    rw [hcov]
    norm_num [principalAxis, dot]
  have htwo : ∀ l, TwoPointsDecided .exact θ l (lineNode 0 0) (lineNode 1 3) := by
    intro l
    left
    show 1 / 2 < Real.sqrt ((3 - 0) * (3 - 0) + (0 - 0) * (0 - 0))
    rw [sub_zero, sub_zero, mul_zero, add_zero, Real.sqrt_mul_self (by norm_num)]
    norm_num
  have hd : (lineNode 1 3).pos - (lineNode 0 0).pos = (3, 0) := by
    simp [PoseNode.pos, lineNode]
  unfold AlignmentDecided
  rw [hfix]
  refine ⟨rfl, ?_⟩
  unfold HeadingDecided
  rw [hd]
  split
  · split
    · exact haxis _
    · exact htwo _
  · exact htwo _

theorem noiseFree_of {θ : ℝ} {cfg : SlamConfig ℝ} {m : Numerics ℝ} {b : PoseGraphBuilder ℝ}
    (hadd : o.poseGraph.addScan cfg m f.matchers f.sensor.scan f.sensor.odom = (b, some node))
    (h : ∀ g ∈ f.sensor.gnss, cfg.gnss.anchor.minFixStatus ≤ g.fixStatus →
      g.pos = utm θ offset node.pos) : NoiseFree θ offset cfg m o f := by
  unfold NoiseFree
  rw [hadd]
  exact h

theorem weakFixExact_of {θ : ℝ} {cfg : SlamConfig ℝ} {m : Numerics ℝ} {b : PoseGraphBuilder ℝ}
    (hadd : o.poseGraph.addScan cfg m f.matchers f.sensor.scan f.sensor.odom = (b, some node))
    (h : ∀ g ∈ f.sensor.gnss, g.fixStatus < cfg.gnss.anchor.minFixStatus →
      o.anchor.isSome = true → g.pos = utm θ offset node.pos) :
    WeakFixExact θ offset cfg m o f := by
  unfold WeakFixExact
  rw [hadd]
  exact h

theorem utm_zero (p : ℝ × ℝ) : utm 0 0 p = p := by
  simp [utm, turn]

/-- The first frame is exact for every rotation. -/
theorem first_noiseFree (θ : ℝ) :
    NoiseFree θ 0 lineConfig .exact (new lineConfig) (lineFrame 0 (some (fixAt 0 1))) ∧
      WeakFixExact θ 0 lineConfig .exact (new lineConfig) (lineFrame 0 (some (fixAt 0 1))) := by
  have hpos : (fixAt 0 1).pos = utm θ 0 (lineNode 0 0).pos := by
    simp [utm, turn, fixAt, GnssData.pos, lineNode, PoseNode.pos]
  constructor
  · apply noiseFree_of lineFrame_addScan_first
    intro g hg _
    obtain rfl := Option.some.inj hg
    exact hpos
  · apply weakFixExact_of lineFrame_addScan_first
    intro g hg hs
    obtain rfl := Option.some.inj hg
    exact absurd hs (lt_irrefl _)

theorem second_addScan (gnss : Option (GnssData ℝ)) :
    ∃ b, lineStart.poseGraph.addScan lineConfig .exact (lineFrame 3 gnss).matchers
      (lineFrame 3 gnss).sensor.scan (lineFrame 3 gnss).sensor.odom =
        (b, some (lineNode 1 3)) := by
  obtain ⟨es, hadd⟩ := lineFrame_addScan gnss
    (b := ⟨[lineNode 0 0], [], some ⟨0, 0, 0, 0⟩⟩) (k := 0) (x := 0) (y := 3) rfl rfl (by norm_num)
  exact ⟨_, hadd⟩

/-- A fix at the second node turns the graph by nothing. -/
theorem aligned_line : ∃ o₁, lineStart.entry lineConfig .exact
      (lineFrame 3 (some (fixAt (3, 0) 1))) = some (o₁, lineNode 1 3) ∧
    Aligned 0 0 lineStart o₁ (lineNode 1 3) := by
  obtain ⟨o₁, he, hdec⟩ := lineStart_entry (3, 0) 1 (by norm_num)
  obtain ⟨b, hadd⟩ := second_addScan (some (fixAt (3, 0) 1))
  obtain ⟨hfree, hweak⟩ := first_noiseFree 0
  refine ⟨o₁, he, (aligned_after_run_iff Numerics.exact_exact (exec_single step_lineStart) rfl he
    (Meets.cons hfree step_lineStart ⟨?_, fun _ _ => trivial⟩)
    (Meets.cons hweak step_lineStart ⟨?_, fun _ _ => trivial⟩)).mpr (hdec 0)⟩
  · apply noiseFree_of hadd
    intro g hg _
    obtain rfl := Option.some.inj hg
    rw [utm_zero]
    rfl
  · apply weakFixExact_of hadd
    intro g hg hs
    obtain rfl := Option.some.inj hg
    exact absurd hs (lt_irrefl _)

/-- The graph after a first frame without a fix and a fix three metres on. -/
noncomputable def lateGraph (es : List (PoseEdge ℝ)) : OdomOnlyBuilder ℝ :=
  ⟨[lineNode 0 0, lineNode 1 3], es, some ⟨3, 3, 0, 0⟩⟩

/-- The orchestrator whose anchor is the fix at the second node. -/
noncomputable def lateStart (es : List (PoseEdge ℝ)) : GraphOrchestrator ℝ :=
  withSample { new lineConfig with poseGraph := .odomOnly (lateGraph es) } (fixAt (3, 0) 1) (3, 0)
    (lineNode 1 3)

theorem step_withoutFix : step lineConfig .exact (new lineConfig) (lineFrame 0 none) =
    some { new lineConfig with poseGraph := .odomOnly ⟨[lineNode 0 0], [], some ⟨0, 0, 0, 0⟩⟩ } :=
  step_of_waiting lineFrame_addScan_first (initializeWithGnssIfReady_of_none rfl) rfl

theorem step_lateStart : ∃ es, step lineConfig .exact
    { new lineConfig with poseGraph := .odomOnly ⟨[lineNode 0 0], [], some ⟨0, 0, 0, 0⟩⟩ }
    (lineFrame 3 (some (fixAt (3, 0) 1))) = some (lateStart es) := by
  obtain ⟨es, hadd⟩ := lineFrame_addScan (some (fixAt (3, 0) 1))
    (b := ⟨[lineNode 0 0], [], some ⟨0, 0, 0, 0⟩⟩) (k := 0) (x := 0) (y := 3) rfl rfl (by norm_num)
  refine ⟨es, step_of_waiting hadd ?_ rfl⟩
  apply initializeWithGnssIfReady_sample rfl rfl rfl rfl rfl rfl
  show Real.sqrt ((3 - 3) * (3 - 3) + (0 - 0) * (0 - 0)) < 2
  norm_num

/-- A fix read without an offset is exact. -/
theorem noiseFree_lineFrame (hadd : ∃ b, o.poseGraph.addScan lineConfig .exact
      (lineFrame x gnss).matchers (lineFrame x gnss).sensor.scan (lineFrame x gnss).sensor.odom =
        (b, some (lineNode k x)))
    (h : ∀ g ∈ gnss, g.pos = (x, 0)) : NoiseFree 0 0 lineConfig .exact o (lineFrame x gnss) := by
  obtain ⟨b, hadd⟩ := hadd
  apply noiseFree_of hadd
  intro g hg _
  rw [utm_zero]
  exact h g hg

theorem fixAt_pos {p : ℝ × ℝ} {g : GnssData ℝ} (hg : g ∈ some (fixAt p status)) : g.pos = p := by
  obtain rfl := Option.some.inj hg
  rfl

/-- A run without noise, rotation and offset whose last frame turns the graph and leaves it
misaligned. -/
def Misaligns (fs : List (Frame ℝ)) (f : Frame ℝ) : Prop :=
  ∃ o o₁ node, exec (step lineConfig .exact) (new lineConfig) fs = some o ∧
    o.state = .initializing ∧ o.entry lineConfig .exact f = some (o₁, node) ∧
    Meets (step lineConfig .exact) (NoiseFree 0 0 lineConfig .exact) (new lineConfig) (fs ++ [f]) ∧
    ¬ Aligned 0 0 o o₁ node

/-- The first fix is the one at the second node, and the graph is three metres off. -/
theorem misaligns_late : Misaligns [lineFrame 0 none, lineFrame 3 (some (fixAt (3, 0) 1))]
    (lineFrame 6 (some (fixAt (6, 0) 1))) := by
  obtain ⟨es, hstep⟩ := step_lateStart
  obtain ⟨es', hadd⟩ := lineFrame_addScan (some (fixAt (6, 0) 1)) (b := lateGraph es)
    (k := 1) (x := 3) (y := 6) rfl rfl (by norm_num)
  obtain ⟨es₁, hadd₁⟩ := lineFrame_addScan (some (fixAt (3, 0) 1))
    (b := ⟨[lineNode 0 0], [], some ⟨0, 0, 0, 0⟩⟩) (k := 0) (x := 0) (y := 3) rfl rfl (by norm_num)
  have hfix := alignFix_of_far (x := 6) (p := (6, 0)) (lateStart es) 1 rfl
    (by norm_num)
  have he := entry_of_alignFix hadd rfl rfl rfl rfl hfix
  refine ⟨lateStart es, _, _, exec_cons_iff.mpr ⟨_, step_withoutFix, exec_single hstep⟩, rfl, he,
    ?_, ?_⟩
  · apply Meets.cons (noiseFree_lineFrame ⟨_, lineFrame_addScan_first⟩ _) step_withoutFix
    · apply Meets.cons (noiseFree_lineFrame ⟨_, hadd₁⟩ fun g hg => fixAt_pos hg) hstep
      exact ⟨noiseFree_lineFrame ⟨_, hadd⟩ fun g hg => fixAt_pos hg, fun _ _ => trivial⟩
    · intro g hg
      cases hg
  · intro h
    -- the nodes stay about the first one, the fixes are taken about the anchor
    have hnodes : PoseGraphBuilder.getNodes (.odomOnly ⟨[lineNode 0 0, lineNode 1 3, lineNode 2 6],
        es', some ⟨6, 6, 0, 0⟩⟩) = (lateStart es).poseGraph.getNodes ++ [lineNode 2 6] := rfl
    have hfirst := ((alignedAt_aligned_iff Numerics.exact_exact rfl hnodes
      (utm_zero _).symm).mp h).1
    have h30 : (3 : ℝ) = 0 := congrArg Prod.fst hfirst
    norm_num at h30

/-- A weak fix that is off turns the graph by a right angle. -/
theorem misaligns_weak : Misaligns [lineFrame 0 (some (fixAt 0 1))]
    (lineFrame 3 (some (fixAt (0, 3) 0))) := by
  obtain ⟨o₁, he, hdec⟩ := lineStart_entry (0, 3) 0 (by norm_num)
  obtain ⟨b, hadd⟩ := second_addScan (some (fixAt (0, 3) 0))
  have hweak : ∀ θ, NoiseFree θ 0 lineConfig .exact lineStart
      (lineFrame 3 (some (fixAt (0, 3) 0))) := by
    intro θ
    apply noiseFree_of hadd
    intro g hg hs
    obtain rfl := Option.some.inj hg
    exact absurd hs (by decide)
  refine ⟨lineStart, o₁, lineNode 1 3, exec_single step_lineStart, rfl, he,
    Meets.cons (first_noiseFree 0).1 step_lineStart ⟨hweak 0, fun _ _ => trivial⟩, ?_⟩
  -- the weak fix is what an exact one would be under a right angle
  have hutm : WeakFixExact (Real.pi / 2) 0 lineConfig .exact lineStart
      (lineFrame 3 (some (fixAt (0, 3) 0))) := by
    apply weakFixExact_of hadd
    intro g hg _ _
    rw [fixAt_pos hg]
    simp [utm, turn, lineNode, PoseNode.pos]
  have hturned : Aligned (Real.pi / 2) 0 lineStart o₁ (lineNode 1 3) := by
    apply (aligned_iff Numerics.exact_exact
      (wellFormed_step (wellFormed_new _) step_lineStart) rfl _ (hweak _) hutm he).mpr (hdec _)
    obtain ⟨hfree, hfirst⟩ := first_noiseFree (Real.pi / 2)
    exact sampled_step (wellFormed_new _) hfree hfirst (fun _ => ⟨rfl, rfl⟩) step_lineStart rfl
  intro h
  have hrot : Real.Angle.cos (0 : ℝ) = Real.Angle.cos (Real.pi / 2 : ℝ) :=
    congrArg Real.Angle.cos (h.1.symm.trans hturned.1)
  rw [Real.Angle.cos_coe, Real.Angle.cos_coe, Real.cos_zero, Real.cos_pi_div_two] at hrot
  exact one_ne_zero hrot

/-- The anchor is taken for the first node, and a weak fix for an exact one. -/
theorem misaligned :
    Misaligns [lineFrame 0 none, lineFrame 3 (some (fixAt (3, 0) 1))]
        (lineFrame 6 (some (fixAt (6, 0) 1))) ∧
      Misaligns [lineFrame 0 (some (fixAt 0 1))] (lineFrame 3 (some (fixAt (0, 3) 0))) :=
  ⟨misaligns_late, misaligns_weak⟩

end Line

end GraphOrchestrator

end MgRobot.Slam

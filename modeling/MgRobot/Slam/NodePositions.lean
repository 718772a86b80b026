import MgRobot.Slam.Anchoring
import MgRobot.Slam.GnssInit

/-!
# The positions that a frame compares its fix with

`process_frame` goes on with the copy of the node that `add_scan` gave it. The
re-anchoring records its position, and the innovation of the fix is measured from it.
The copy and the builder agree, but for the frame that turns the graph.
-/

namespace MgRobot.Slam.GraphOrchestrator

set_option autoImplicit false

open MgRobot.Lib.Runs

section Statement

variable {R : Type*} [Field R] [LinearOrder R]
variable (cfg : SlamConfig R) (m : Numerics R) (o : GraphOrchestrator R)

omit [Field R] [LinearOrder R] in
/-- The builder holds node `i` at `p`. -/
def Holds (i : Nat) (p : R × R) : Prop := ∃ n ∈ o.poseGraph.getNodes, n.index = i ∧ n.pos = p

instance (i : Nat) (p : R × R) : Decidable (o.Holds i p) :=
  inferInstanceAs (Decidable (∃ n ∈ o.poseGraph.getNodes, n.index = i ∧ n.pos = p))

/-- `process_node` where it comes to `try_dynamic_reanchor`. -/
def beforeReanchor (node : PoseNode R) : GraphOrchestrator R :=
  ((o.addLatestSeqEdge m node o.poseGraph.getEdges).1.addNewLoopEdges o.poseGraph.getEdges).1

/-- `process_node` where it comes to `add_gnss_prior`, and the node it has there. -/
def beforePrior (node : PoseNode R) (frame : SensorFrame R) : GraphOrchestrator R × PoseNode R :=
  let re := (o.beforeReanchor m node).tryDynamicReanchor cfg m node frame
  (re.1, if re.2 then re.1.poseGraph.getNodes.getLast?.getD node else node)

/-- The sample that `try_dynamic_reanchor` records. -/
def recordedSample (node : PoseNode R) (frame : SensorFrame R) : Option (ReanchorSample R) :=
  (o.reanchorFix cfg m frame).bind fun g =>
    match o.reanchorSamples.getLast? with
    | none => some ⟨node.pos, g.pos⟩
    | some back => if 1 / 2 < m.norm node.pos back.slamPos then some ⟨node.pos, g.pos⟩ else none

/-- `add_gnss_prior` comes to the innovation of the fix. -/
def ChecksInnovation (frame : SensorFrame R) : Prop :=
  match cfg.gnss.enabled, frame.gnss, o.anchor with
  | true, some g, some _ =>
      ¬ (o.lastGnssTimestamp.any (fun t => decide (|g.timestamp - t| < 1 / 10 ^ 6))) = true ∧
        cfg.gnss.priorMinFixStatus ≤ g.fixStatus ∧
        0 < g.sigma cfg m ∧ g.sigma cfg m ≤ cfg.gnss.maxSigmaM ∧ 0 < cfg.gnss.maxInnovationM
  | _, _, _ => False

instance (frame : SensorFrame R) : Decidable (o.ChecksInnovation cfg m frame) := by
  unfold ChecksInnovation
  split <;> infer_instance

/-- Where the frame uses the position of its node, the builder holds the node at that position. -/
def UsesHeldPositions (f : Frame R) : Prop :=
  match o.entry cfg m f with
  | none => True
  | some (o₁, node) =>
      let re := o₁.beforeReanchor m node
      let prior := o₁.beforePrior cfg m node f.sensor
      (∀ s ∈ re.recordedSample cfg m node f.sensor, re.Holds node.index s.slamPos) ∧
        (prior.1.ChecksInnovation cfg m f.sensor → prior.1.Holds node.index prior.2.pos)

instance (f : Frame R) : Decidable (o.UsesHeldPositions cfg m f) := by
  unfold UsesHeldPositions
  split <;> infer_instance

/-- The fix is good enough for a sample, or for a prior whose innovation is checked. -/
def ComparesFix (g : GnssData R) : Prop :=
  let re := cfg.gnss.dynamicReanchor
  (re.enabled = true ∧ re.minFixStatus ≤ g.fixStatus ∧
      0 < g.sigma cfg m ∧ g.sigma cfg m ≤ 1 / 2) ∨
    (0 < cfg.gnss.maxInnovationM ∧ cfg.gnss.priorMinFixStatus ≤ g.fixStatus ∧
      0 < g.sigma cfg m ∧ g.sigma cfg m ≤ cfg.gnss.maxSigmaM)

instance (g : GnssData R) : Decidable (ComparesFix cfg m g) :=
  inferInstanceAs (Decidable ((_ ∧ _ ∧ _ ∧ _) ∨ (_ ∧ _ ∧ _ ∧ _)))

/-- If the frame turns the graph at a fix that its node is compared with, the turn about the first
node leaves the new node where it is. -/
def TurnKeepsNode (f : Frame R) : Prop :=
  match o.poseGraph.addScan cfg m f.matchers f.sensor.scan f.sensor.odom,
      o.alignFix cfg m f.sensor with
  | (_, some node), some (g, anchor) =>
      o.state = .initializing → ComparesFix cfg m g →
        ∀ front ∈ (o.poseGraph.getNodes ++ [node]).head?,
          let rot := headingRotation m (o.initGnssPts ++ [g.toLocal anchor])
            (o.initOdomPts ++ [node.pos]) (g.toLocal anchor) front node
          m.rotate rot (node.x - front.x) (node.y - front.y) = node.pos
  | _, _ => True

end Statement

variable {R : Type*} [Field R] [LinearOrder R] {cfg : SlamConfig R} {m : Numerics R}
variable {o o' : GraphOrchestrator R} {f : Frame R} {node : PoseNode R} {frame : SensorFrame R}

/-! ## The uses are those of the frame -/

theorem processNode_eq : o.processNode cfg m f node =
    let seq := o.addLatestSeqEdge m node o.poseGraph.getEdges
    let loop := seq.1.addNewLoopEdges o.poseGraph.getEdges
    let re := (o.beforeReanchor m node).tryDynamicReanchor cfg m node f.sensor
    let p := o.beforePrior cfg m node f.sensor
    let prior := p.1.addGnssPrior cfg m f.sensor p.2
    (prior.1.optimizer.update f.isam2).map fun opt =>
      let applied := applyOptimizedPoses cfg m { prior.1 with optimizer := opt } p.2
        (loop.2.2 || re.2)
      (applied.1, ⟨some (applied.1.optimizedNode p.2), loop.2.2, applied.2, seq.2, loop.2.1,
        prior.2⟩) :=
  rfl

theorem mem_trimSpan {back : R × R} {samples : List (ReanchorSample R)} {s : ReanchorSample R}
    (h : s ∈ trimSpan m back samples) : s ∈ samples := by
  fun_induction trimSpan m back samples with
  | case1 s t rest hfar ih => exact List.mem_cons_of_mem _ (ih h)
  | case2 s t rest hnear => exact h
  | case3 l hl => exact h

theorem mem_collectSample {samples : List (ReanchorSample R)} {g : GnssData R}
    {s : ReanchorSample R} (h : s ∈ collectSample cfg m samples node g) :
    s ∈ samples ∨ s = ⟨node.pos, g.pos⟩ ∧
      ∀ back ∈ samples.getLast?, 1 / 2 < m.norm node.pos back.slamPos := by
  unfold collectSample at h
  dsimp only at h
  generalize hall : (if (match samples.getLast? with
    | none => true
    | some back => decide (1 / 2 < m.norm (node.x, node.y) back.slamPos)) = true
    then samples ++ [⟨(node.x, node.y), g.pos⟩] else samples) = all at h
  -- the window and the span only drop samples
  have hkept : s ∈ all := by
    have hwindow : ∀ window : Int,
        s ∈ (if 0 ≤ window then all.drop (all.length - window.toNat) else all) → s ∈ all := by
      intro window hs
      split at hs
      · exact List.mem_of_mem_drop hs
      · exact hs
    split at h
    · exact hwindow _ h
    · exact hwindow _ (mem_trimSpan h)
  rw [← hall] at hkept
  cases hlast : samples.getLast? with
  | none =>
      rw [hlast] at hkept
      refine (List.mem_append.mp hkept).imp_right fun hs => ?_
      exact ⟨List.mem_singleton.mp hs, nofun⟩
  | some back =>
      rw [hlast] at hkept
      dsimp only at hkept
      split at hkept
      case isTrue hfar =>
        refine (List.mem_append.mp hkept).imp_right fun hs => ⟨List.mem_singleton.mp hs, ?_⟩
        intro back' hback
        obtain rfl := Option.some.inj hback
        exact of_decide_eq_true hfar
      case isFalse => exact Or.inl hkept

/-- A sample that a frame leaves was there before or is the one it records. -/
theorem mem_reanchorSamples {s : ReanchorSample R}
    (h : s ∈ (o.tryDynamicReanchor cfg m node frame).1.reanchorSamples) :
    s ∈ o.reanchorSamples ∨ s ∈ o.recordedSample cfg m node frame := by
  unfold tryDynamicReanchor at h
  unfold recordedSample
  cases hfix : o.reanchorFix cfg m frame with
  | none =>
      rw [hfix] at h
      exact Or.inl h
  | some g =>
      rw [hfix] at h
      have hs : s ∈ collectSample cfg m o.reanchorSamples node g := by
        dsimp only at h
        split at h
        · exact h
        · exact h
      refine (mem_collectSample hs).imp_right ?_
      rintro ⟨rfl, hfar⟩
      rw [Option.bind_some]
      cases hlast : o.reanchorSamples.getLast? with
      | none => rfl
      | some back => exact if_pos (hfar back hlast)

/-- Where the innovation is not checked, the position of the node does not matter. -/
theorem addGnssPrior_of_unchecked {node' : PoseNode R} (hi : node'.index = node.index)
    (h : ¬ o.ChecksInnovation cfg m frame) :
    o.addGnssPrior cfg m frame node' = o.addGnssPrior cfg m frame node := by
  have hsame : ∀ g ∈ frame.gnss, ∀ anchor ∈ o.anchor, cfg.gnss.enabled = true →
      (o.priorAccepted cfg m node' g anchor ↔ o.priorAccepted cfg m node g anchor) := by
    intro g hg anchor ha hen
    unfold ChecksInnovation at h
    rw [hen, Option.mem_def.mp hg, Option.mem_def.mp ha] at h
    unfold priorAccepted
    dsimp only
    constructor
    · rintro ⟨hstamp, hstatus, hpos, hmax, _, hdist⟩
      exact ⟨hstamp, hstatus, hpos, hmax, fun hc => h ⟨hstamp, hstatus, hpos, hmax, hc.1⟩, hdist⟩
    · rintro ⟨hstamp, hstatus, hpos, hmax, _, hdist⟩
      exact ⟨hstamp, hstatus, hpos, hmax, fun hc => h ⟨hstamp, hstatus, hpos, hmax, hc.1⟩, hdist⟩
  unfold addGnssPrior
  rw [hi]
  cases hen : cfg.gnss.enabled with
  | false => rfl
  | true =>
      cases hg : frame.gnss with
      | none => rfl
      | some g =>
          cases ha : o.anchor with
          | none => rfl
          | some anchor => simp only [hsame g hg anchor ha hen]

/-! ## One frame -/

omit [LinearOrder R] in
theorem beforeReanchor_eq (m : Numerics R) (o : GraphOrchestrator R) (node : PoseNode R) :
    ∃ opt i n, o.beforeReanchor m node =
      { o with optimizer := opt, lastNodeIndex := i, lastLoopEdgeCount := n } := by
  obtain ⟨opt, i, hseq⟩ := addLatestSeqEdge_fst m o node o.poseGraph.getEdges
  obtain ⟨opt', n, hloop⟩ := addNewLoopEdges_fst { o with optimizer := opt, lastNodeIndex := i }
    o.poseGraph.getEdges
  unfold beforeReanchor
  rw [hseq, hloop]
  exact ⟨_, _, _, rfl⟩

/-- The node is refreshed if the frame re-anchors. -/
theorem beforePrior_eq (cfg : SlamConfig R) (m : Numerics R) (o : GraphOrchestrator R)
    (node : PoseNode R) (frame : SensorFrame R) :
    ∃ opt i n samples pos re, o.beforePrior cfg m node frame = ({ o with
        optimizer := opt
        lastNodeIndex := i
        lastLoopEdgeCount := n
        reanchorSamples := samples
        anchor := (o.reanchorsTo cfg m node frame).orElse fun _ => o.anchor
        lastGnssPos := pos
        dynamicReanchored := re },
      if (o.reanchorsTo cfg m node frame).isSome then o.poseGraph.getNodes.getLast?.getD node
      else node) := by
  obtain ⟨opt, i, n, hre⟩ := beforeReanchor_eq m o node
  obtain ⟨samples, pos, htry⟩ := @tryDynamicReanchor_spec R _ _ cfg m
    { o with optimizer := opt, lastNodeIndex := i, lastLoopEdgeCount := n } node frame
  unfold beforePrior
  rw [hre, htry]
  exact ⟨_, _, _, _, _, _, rfl⟩

omit [LinearOrder R] in
theorem beforeReanchor_holds {i : Nat} {p : R × R} :
    (o.beforeReanchor m node).Holds i p ↔ o.Holds i p := by
  obtain ⟨opt, j, n, hre⟩ := beforeReanchor_eq m o node
  rw [hre]
  exact Iff.rfl

theorem beforePrior_holds {i : Nat} {p : R × R} :
    (o.beforePrior cfg m node frame).1.Holds i p ↔ o.Holds i p := by
  obtain ⟨opt, j, n, samples, pos, re, hprior⟩ := beforePrior_eq cfg m o node frame
  rw [hprior]
  exact Iff.rfl

theorem beforeReanchor_recordedSample :
    (o.beforeReanchor m node).recordedSample cfg m node frame =
      o.recordedSample cfg m node frame := by
  obtain ⟨opt, j, n, hre⟩ := beforeReanchor_eq m o node
  rw [hre]
  rfl

theorem slamPos_of_mem {s : ReanchorSample R} (h : s ∈ o.recordedSample cfg m node frame) :
    s.slamPos = node.pos := by
  obtain ⟨g, _, hs⟩ := Option.bind_eq_some_iff.mp h
  split at hs
  · exact congrArg ReanchorSample.slamPos (Option.some.inj hs).symm
  · split at hs
    · exact congrArg ReanchorSample.slamPos (Option.some.inj hs).symm
    · cases hs

section Entry

variable {o₁ : GraphOrchestrator R} {b : PoseGraphBuilder R} {seq near loops : List (PoseEdge R)}

omit [LinearOrder R] in
/-- The builder holds an entered node at the position of its last node. -/
theorem exists_held (h : WellFormed cfg o)
    (g : PoseGraphBuilder.Grows cfg o.poseGraph b node seq near loops)
    (he : Entered cfg m o o₁ b node) : ∃ last, o₁.poseGraph.getNodes.getLast? = some last ∧
      ∀ p, o₁.Holds node.index p ↔ last.pos = p := by
  have hat := he.atNode h g
  have hlast : (o₁.poseGraph.getNodes.map (·.index)).getLast? = some node.index := by
    rw [hat.nodes, g.getNodes, List.map_append, List.map_singleton, List.getLast?_concat]
  rw [List.getLast?_map] at hlast
  obtain ⟨last, hlast, hidx⟩ := Option.map_eq_some_iff.mp hlast
  have hmem := List.mem_of_getLast? hlast
  refine ⟨last, hlast, fun p => ⟨?_, fun hp => ⟨last, hmem, hidx, hp⟩⟩⟩
  rintro ⟨n, hn, hi, rfl⟩
  rw [List.inj_on_of_nodup_map hat.builder.nodes.nodup hmem hn (hidx.trans hi.symm)]

/-- The uses of a node that has entered: a sample at its position, and a check against it unless
the node was refreshed. -/
theorem uses_iff (h : WellFormed cfg o)
    (g : PoseGraphBuilder.Grows cfg o.poseGraph b node seq near loops)
    (hent : Entered cfg m o o₁ b node) (he : o.entry cfg m f = some (o₁, node)) :
    ∃ last, o₁.poseGraph.getNodes.getLast? = some last ∧
      (o.UsesHeldPositions cfg m f ↔
        ((o₁.recordedSample cfg m node f.sensor).isSome → last.pos = node.pos) ∧
        ((o₁.beforePrior cfg m node f.sensor).1.ChecksInnovation cfg m f.sensor →
          ¬ (o₁.reanchorsTo cfg m node f.sensor).isSome → last.pos = node.pos)) := by
  obtain ⟨last, hlast, hholds⟩ := exists_held h g hent
  have hnode : (o₁.beforePrior cfg m node f.sensor).2 =
      if (o₁.reanchorsTo cfg m node f.sensor).isSome then last else node := by
    obtain ⟨opt, j, n, samples, pos, re, hprior⟩ := beforePrior_eq cfg m o₁ node f.sensor
    rw [hprior]
    dsimp only
    rw [hlast, Option.getD_some]
  refine ⟨last, hlast, ?_⟩
  unfold UsesHeldPositions
  rw [he]
  dsimp only
  rw [hnode, beforeReanchor_recordedSample]
  simp only [beforeReanchor_holds, beforePrior_holds, hholds]
  refine and_congr ?_ (imp_congr_right fun _ => ?_)
  · constructor
    · intro hs hsome
      obtain ⟨s, hrec⟩ := Option.isSome_iff_exists.mp hsome
      exact (hs s hrec).trans (slamPos_of_mem hrec)
    · intro hpos s hrec
      exact (hpos (Option.isSome_iff_exists.mpr ⟨s, hrec⟩)).trans (slamPos_of_mem hrec).symm
  · split
    case isTrue hre => exact ⟨fun _ hn => absurd hre hn, fun _ => rfl⟩
    case isFalse hre => exact ⟨fun hp _ => hp, fun hp => hp hre⟩

/-- No fix has been sampled or made a prior. -/
structure FixesUnused (o : GraphOrchestrator R) : Prop where
  samples : o.reanchorSamples = []
  reanchored : o.dynamicReanchored = false
  timestamp : o.lastGnssTimestamp = none

theorem fixesUnused_step (h : WellFormed cfg o) (hu : o.state = .initializing → o.FixesUnused)
    (hs : o.step cfg m f = some o') (hst' : o'.state = .initializing) : o'.FixesUnused := by
  obtain ⟨⟨v, r⟩, hf, rfl⟩ := Option.map_eq_some_iff.mp hs
  rcases processFrame_cases h.builder hf with ⟨rfl, _⟩ | hwait | ⟨o₁, node, he, hp⟩
  · exact hu hst'
  · obtain ⟨b, node, seq, near, loops, g, _, ho, hst, _⟩ := hwait
    rcases initializeWithGnssIfReady_cases (m := m) (o := { o with poseGraph := b })
      f.sensor with ⟨a, gp, op, hw, _⟩ | ⟨a, gp, op, rot, front, curr, _, _, _, _, ht⟩
    · rw [ho, hw]
      obtain ⟨hsamples, hre, hstamp⟩ := hu hst
      exact ⟨hsamples, hre, hstamp⟩
    · dsimp only at hst'
      rw [ho, ht] at hst'
      cases hst'
  · obtain ⟨b, seq, near, loops, g, _, hent⟩ := entry_spec h he
    have hat := hent.atNode h g
    obtain ⟨p, last, s, l, prior, hpr, rfl, _⟩ := processNode_cases hat.optimizer hat.loopCount hp
    have ha := p.applyOptimizedPoses_spec cfg m last (o₁.closes cfg m f node)
    exact Phase.noConfusion (hst'.symm.trans (ha.state.trans (hpr.state.trans hat.state)))

theorem reanchorFix_of_unused (hu : o.FixesUnused) (hen : cfg.gnss.enabled = true)
    {g : GnssData R} (hg : frame.gnss = some g) {anchor : R × R} (ha : o.anchor = some anchor) :
    (o.reanchorFix cfg m frame).isSome ↔ cfg.gnss.dynamicReanchor.enabled = true ∧
      cfg.gnss.dynamicReanchor.minFixStatus ≤ g.fixStatus ∧
      0 < g.sigma cfg m ∧ g.sigma cfg m ≤ 1 / 2 := by
  unfold reanchorFix
  rw [hen, hu.reanchored, ha, hg]
  by_cases hre : cfg.gnss.dynamicReanchor.enabled = true
  · rw [if_pos ⟨rfl, hre, rfl, rfl⟩, and_iff_right hre, Option.isSome_filter]
    simp
  · rw [if_neg fun h => hre h.2.1]
    simp [hre]

/-- The first sample is recorded wherever it is. -/
theorem recordedSample_of_unused (hu : o.FixesUnused) :
    (o.recordedSample cfg m node frame).isSome ↔ (o.reanchorFix cfg m frame).isSome := by
  unfold recordedSample
  rw [hu.samples]
  cases o.reanchorFix cfg m frame with
  | none => exact Iff.rfl
  | some g => exact Iff.rfl

theorem checksInnovation_of_unused (hu : o.FixesUnused) (hen : cfg.gnss.enabled = true)
    {g : GnssData R} (hg : frame.gnss = some g) {anchor : R × R} (ha : o.anchor = some anchor) :
    (o.beforePrior cfg m node frame).1.ChecksInnovation cfg m frame ↔
      0 < cfg.gnss.maxInnovationM ∧ cfg.gnss.priorMinFixStatus ≤ g.fixStatus ∧
        0 < g.sigma cfg m ∧ g.sigma cfg m ≤ cfg.gnss.maxSigmaM := by
  obtain ⟨opt, j, n, samples, pos, re, hprior⟩ := beforePrior_eq cfg m o node frame
  obtain ⟨anchor', ha'⟩ : ∃ anchor',
      ((o.reanchorsTo cfg m node frame).orElse fun _ => o.anchor) = some anchor' := by
    cases o.reanchorsTo cfg m node frame with
    | none => exact ⟨anchor, ha⟩
    | some target => exact ⟨target, rfl⟩
  rw [hprior]
  unfold ChecksInnovation
  dsimp only
  rw [hen, hg, ha', hu.timestamp]
  simp only [Option.any_none, Bool.false_eq_true, not_false_eq_true, true_and]
  tauto

/-- In an orchestrator that has used no fix yet, a frame uses its fix if it is good enough. -/
theorem compares_iff (hu : o.FixesUnused) (hen : cfg.gnss.enabled = true) {g : GnssData R}
    (hg : frame.gnss = some g) {anchor : R × R} (ha : o.anchor = some anchor) :
    ((o.recordedSample cfg m node frame).isSome ∨
      ((o.beforePrior cfg m node frame).1.ChecksInnovation cfg m frame ∧
        ¬ (o.reanchorsTo cfg m node frame).isSome)) ↔ ComparesFix cfg m g := by
  have hre : (o.reanchorsTo cfg m node frame).isSome → (o.reanchorFix cfg m frame).isSome := by
    intro h
    obtain ⟨target, h⟩ := Option.isSome_iff_exists.mp h
    obtain ⟨g, hfix, _⟩ := Option.bind_eq_some_iff.mp h
    exact Option.isSome_iff_exists.mpr ⟨g, hfix⟩
  unfold ComparesFix
  dsimp only
  rw [recordedSample_of_unused hu, checksInnovation_of_unused hu hen hg ha,
    ← reanchorFix_of_unused hu hen hg ha]
  tauto

omit [LinearOrder R] in
theorem rebaseAndRotateNodes_last {nodes : List (PoseNode R)} {front last : PoseNode R} (rot : R)
    (hf : nodes.head? = some front) (hc : nodes.getLast? = some node)
    (hl : (m.rebaseAndRotateNodes nodes rot).getLast? = some last) :
    last.pos = m.rotate rot (node.x - front.x) (node.y - front.y) := by
  rw [m.rebaseAndRotateNodes_of_head hf, List.getLast?_map, hc] at hl
  obtain rfl := Option.some.inj hl
  rfl

/-- In a started orchestrator the copy of the node is what the builder holds. -/
theorem usesHeldPositions_of_running (h : WellFormed cfg o) (hst : o.state = .running) :
    o.UsesHeldPositions cfg m f := by
  cases he : o.entry cfg m f with
  | none =>
      unfold UsesHeldPositions
      rw [he]
      trivial
  | some p =>
      obtain ⟨o₁, node⟩ := p
      obtain ⟨b, seq, near, loops, g, _, hent⟩ := entry_spec h he
      obtain ⟨last, hlast, hiff⟩ := uses_iff h g hent he
      have hgraph : o₁.poseGraph = b := by
        cases hent with
        | kept hi ho => rw [ho]
        | first opt hi hen hn ho hopt => rw [ho]
        | turned a gp op rot front curr hst' => exact Phase.noConfusion (hst.symm.trans hst')
      rw [hgraph, g.getNodes, List.getLast?_concat] at hlast
      obtain rfl := Option.some.inj hlast
      exact hiff.mpr ⟨fun _ => rfl, fun _ _ => rfl⟩

/-- The frame that turns the graph uses the position from before the turn. -/
theorem usesHeldPositions_of_aligned (h : WellFormed cfg o) (hu : o.FixesUnused)
    (hst : o.state = .initializing) (he : o.entry cfg m f = some (o₁, node)) :
    o.UsesHeldPositions cfg m f ↔ o.TurnKeepsNode cfg m f := by
  obtain ⟨b, seq, near, loops, fix, anchor, front, g, hadd, hfix, hfront, ho₁⟩ :=
    entry_aligned h hst he
  obtain ⟨b', seq', near', loops', g', hadd', hent⟩ := entry_spec h he
  obtain rfl := (Prod.mk.inj (hadd.symm.trans hadd')).1
  obtain ⟨last, hlast, hiff⟩ := uses_iff h g' hent he
  have hunused : o₁.FixesUnused := by
    rw [ho₁]
    exact ⟨hu.samples, hu.reanchored, hu.timestamp⟩
  have hanchor : o₁.anchor = some anchor := by
    rw [ho₁]
    rfl
  have hcompares := @compares_iff R _ _ cfg m o₁ node f.sensor hunused (h.initialized_eq hst).1 fix
    (alignFix_eq_some hfix).1 anchor hanchor
  obtain ⟨_, _, hlastb⟩ := front_and_last g
  have hpos := rebaseAndRotateNodes_last (m := m) _ hfront hlastb (by
    rw [← hlast, ho₁]
    exact congrArg List.getLast? (PoseGraphBuilder.replaceNodes_getNodes ..).symm)
  have hturn : o.TurnKeepsNode cfg m f ↔ (ComparesFix cfg m fix → last.pos = node.pos) := by
    unfold TurnKeepsNode
    rw [hadd, hfix]
    dsimp only
    rw [← g.getNodes, hfront, hpos]
    refine ⟨fun hk hc => hk hst hc front rfl, fun hk _ hc front' hf' => ?_⟩
    obtain rfl := Option.some.inj hf'
    exact hk hc
  rw [hiff, hturn, ← hcompares]
  constructor
  · rintro ⟨hsample, hcheck⟩ (hs | ⟨hc, hre⟩)
    · exact hsample hs
    · exact hcheck hc hre
  · exact fun hk => ⟨fun hs => hk (Or.inl hs), fun hc hre => hk (Or.inr ⟨hc, hre⟩)⟩

/-- Only a frame that enters in a waiting orchestrator turns the graph. -/
theorem turnKeepsNode_of_not_aligned (h : WellFormed cfg o)
    (hst : o.state = .running ∨ o.entry cfg m f = none) : o.TurnKeepsNode cfg m f := by
  unfold TurnKeepsNode
  split
  case h_1 b node g anchor hadd hfix =>
    intro hinit
    rcases hst with hst | he
    · exact Phase.noConfusion (hst.symm.trans hinit)
    · rcases o.poseGraph.addScan_spec cfg m f.matchers f.sensor.scan f.sensor.odom h.builder with
        hn | ⟨b', node', seq, near, loops, hs, hg⟩
      · rw [hadd] at hn
        cases hn
      · obtain ⟨front, hf, hc⟩ := front_and_last hg
        rw [entry_of_alignFix hs hinit (h.initialized_eq hinit).1 hf hc hfix] at he
        cases he
  case h_2 => trivial

/-- A frame uses the positions that the builder holds, exactly if the turn of the graph does not
leave the node behind. -/
theorem usesHeldPositions_iff (h : WellFormed cfg o)
    (hu : o.state = .initializing → o.FixesUnused) :
    o.UsesHeldPositions cfg m f ↔ o.TurnKeepsNode cfg m f := by
  cases hst : o.state with
  | running =>
      exact iff_of_true (usesHeldPositions_of_running h hst)
        (turnKeepsNode_of_not_aligned h (Or.inl hst))
  | initializing =>
      cases he : o.entry cfg m f with
      | none =>
          refine iff_of_true ?_ (turnKeepsNode_of_not_aligned h (Or.inr he))
          unfold UsesHeldPositions
          rw [he]
          trivial
      | some p => exact usesHeldPositions_of_aligned h (hu hst) hst he

/-- In every run, each frame records and gates its fix at the position that the builder holds for
the new node, exactly if no frame that turns the graph and compares its fix moves the node. -/
theorem used_positions_held_iff (fs : List (Frame R)) :
    Meets (step cfg m) (UsesHeldPositions cfg m) (new cfg) fs ↔
      Meets (step cfg m) (TurnKeepsNode cfg m) (new cfg) fs := by
  apply meets_congr
  intro pre f post o _ hr
  have hinv : WellFormed cfg o ∧ (o.state = .initializing → o.FixesUnused) := by
    apply invariant_of_step (I := fun o => WellFormed cfg o ∧
      (o.state = .initializing → o.FixesUnused)) _ _ hr
    · exact fun s a t ⟨hw, hu⟩ hs => ⟨wellFormed_step hw hs, fixesUnused_step hw hu hs⟩
    · exact ⟨wellFormed_new cfg, fun _ => ⟨rfl, rfl, rfl⟩⟩
  exact usesHeldPositions_iff hinv.1 hinv.2

end Entry

/-- Odometry that starts two metres along the axis, and exact RTK fixes. -/
def startedAwayFrames : List (Frame ℚ) :=
  [AnchoredRun.fixFrame 2 2 0, AnchoredRun.fixFrame 12 2 0]

/-- The second frame turns the graph: the builder holds its node ten metres from the anchor, where
the fix is. The sample is recorded at twelve metres, and the fix is dropped as two metres off. -/
theorem sample_before_turn :
    (∃ o, exec (step AnchoredRun.reanchorConfig .axis) (new AnchoredRun.reanchorConfig)
        startedAwayFrames = some o ∧
      o.poseGraph.getNodes.map (·.pos) = [(0, 0), (10, 0)] ∧ o.anchor = some (2, 0) ∧
      o.reanchorSamples = [⟨(12, 0), (12, 0)⟩] ∧ o.lastGnssPos = none) ∧
    ¬ Meets (step AnchoredRun.reanchorConfig .axis)
      (UsesHeldPositions AnchoredRun.reanchorConfig .axis) (new AnchoredRun.reanchorConfig)
      startedAwayFrames := by
  exact ⟨exists_exec (by decide +kernel), by decide +kernel⟩

end MgRobot.Slam.GraphOrchestrator

import MgRobot.Slam.GnssInit
import MgRobot.Slam.SlamNode

/-!
# Drawn poses and their record

The map is drawn by the node, and `last_rendered_poses_` is kept by the orchestrator.
`Tracked` relates the two to the graph: while the orchestrator is running, every node
is on record where it is drawn, and closer than the threshold to there.
-/

namespace MgRobot.Slam

set_option autoImplicit false

open GraphOrchestrator

variable {R : Type*}

namespace GraphOrchestrator

theorem recordAll_of_notMem {nodes : List (PoseNode R)} {k : Nat} (r : Nat → Option (Pose R))
    (h : k ∉ nodes.map (·.index)) : recordAll r nodes k = r k := by
  induction nodes generalizing r with
  | nil => rfl
  | cons n rest ih =>
      rw [List.map_cons, List.mem_cons, not_or] at h
      show recordAll (Function.update r n.index (some n.pose)) rest k = r k
      rw [ih _ h.2, Function.update_of_ne h.1]

theorem recordAll_of_mem {nodes : List (PoseNode R)} {x : PoseNode R} (r : Nat → Option (Pose R))
    (hn : (nodes.map (·.index)).Nodup) (hx : x ∈ nodes) :
    recordAll r nodes x.index = some x.pose := by
  induction nodes generalizing r with
  | nil => exact absurd hx List.not_mem_nil
  | cons n rest ih =>
      rw [List.map_cons, List.nodup_cons] at hn
      show recordAll (Function.update r n.index (some n.pose)) rest x.index = some x.pose
      cases hx with
      | head => rw [recordAll_of_notMem _ hn.1, Function.update_self]
      | tail _ hx => exact ih _ hn.2 hx

end GraphOrchestrator

/-- Only nodes that exist are on a fresh record. -/
theorem Indexed.lt_of_recordAll {nodes : List (PoseNode R)} (h : Indexed nodes) {k : Nat}
    {p : Pose R} (hk : recordAll (fun _ => none) nodes k = some p) : k < nodes.length := by
  by_contra hge
  rw [recordAll_of_notMem] at hk
  · cases hk
  · rw [h, List.mem_range]
    exact hge

theorem rerenderAll_eq (drawn : Nat → Option (Pose R)) {nodes : List (PoseNode R)}
    (h : nodes ≠ []) : rerenderAll drawn nodes = recordAll (fun _ => none) nodes := by
  unfold rerenderAll
  rw [List.isEmpty_eq_false_iff.mpr h]
  rfl

namespace SlamNode

variable {o : GraphOrchestrator R} {r : ScanProcessResult R} {drawn : Nat → Option (Pose R)}
variable {node : PoseNode R} {added : Bool}

/-- A frame without a rerender draws its node, or every node if the renderer needs that. -/
theorem render_quiet (hc : r.loopClosed = false) (hr : r.rerenderRequired = false)
    (hne : o.poseGraph.getNodes ≠ []) : render drawn o r node added =
      if added then Function.update drawn node.index (some node.pose)
      else recordAll (fun _ => none) o.poseGraph.getNodes := by
  unfold render
  rw [hc, hr, rerenderAll_eq _ hne]
  rfl

/-- Where a node is drawn after a frame without a rerender. -/
theorem drawn_render_quiet (hc : r.loopClosed = false) (hr : r.rerenderRequired = false)
    (hn : Indexed o.poseGraph.getNodes) {y : PoseNode R} (hy : y ∈ o.poseGraph.getNodes)
    {p : Pose R} (hp : render drawn o r node added y.index = some p) :
    added = true ∧ (y.index = node.index ∧ p = node.pose ∨
        y.index ≠ node.index ∧ drawn y.index = some p) ∨
      added = false ∧ p = y.pose := by
  rw [render_quiet hc hr (List.ne_nil_of_mem hy)] at hp
  cases added with
  | false =>
      change recordAll _ _ _ = _ at hp
      rw [recordAll_of_mem _ hn.nodup hy] at hp
      exact Or.inr ⟨rfl, (Option.some.inj hp).symm⟩
  | true =>
      change Function.update _ _ _ _ = _ at hp
      by_cases hi : y.index = node.index
      · rw [hi, Function.update_self] at hp
        exact Or.inl ⟨rfl, Or.inl ⟨hi, (Option.some.inj hp).symm⟩⟩
      · rw [Function.update_of_ne hi] at hp
        exact Or.inl ⟨rfl, Or.inr ⟨hi, hp⟩⟩

/-- Nothing but nodes of the graph is drawn by it. -/
theorem lt_of_render_quiet (hc : r.loopClosed = false) (hr : r.rerenderRequired = false)
    (hn : Indexed o.poseGraph.getNodes) (hnode : node.index < o.poseGraph.getNodes.length)
    (hold : ∀ k p, drawn k = some p → k < o.poseGraph.getNodes.length) {k : Nat} {p : Pose R}
    (hp : render drawn o r node added k = some p) : k < o.poseGraph.getNodes.length := by
  rw [render_quiet hc hr (List.ne_nil_of_length_pos (by omega))] at hp
  cases added with
  | false => exact hn.lt_of_recordAll hp
  | true =>
      change Function.update _ _ _ k = _ at hp
      by_cases hk : k = node.index
      · rw [hk]
        exact hnode
      · rw [Function.update_of_ne hk] at hp
        exact hold k p hp

end SlamNode

variable [Field R] (m : Numerics R)

def PoseNode.awayFrom (n : PoseNode R) (p : Pose R) : R := m.hypot (n.x - p.x) (n.y - p.y)

variable {m}

theorem PoseNode.awayFrom_congr {n n' : PoseNode R} {p q : Pose R} (hn : n.pose.pos = n'.pose.pos)
    (hp : p.pos = q.pos) : n.awayFrom m p = n'.awayFrom m q := by
  obtain ⟨hnx, hny⟩ := Prod.mk.inj hn
  obtain ⟨hpx, hpy⟩ := Prod.mk.inj hp
  unfold PoseNode.awayFrom
  rw [show n.x = n'.x from hnx, show n.y = n'.y from hny, hpx, hpy]

theorem PoseNode.awayFrom_self (h0 : m.hypot 0 0 = 0) {n : PoseNode R} {p : Pose R}
    (hp : p.pos = n.pose.pos) : n.awayFrom m p = 0 := by
  rw [PoseNode.awayFrom_congr rfl hp]
  unfold PoseNode.awayFrom PoseNode.pose
  dsimp only
  rw [sub_self, sub_self, h0]

variable [LinearOrder R]

omit [Field R] in
theorem le_foldl_max {l : List R} {a x : R} (h : x ∈ l) : x ≤ l.foldl max a := by
  rw [List.foldl_max_eq_max (List.ne_nil_of_mem h)]
  exact le_max_of_le_right (List.le_max_of_mem h)

section Poses

variable {cfg : SlamConfig R} {o : GraphOrchestrator R} {last x : PoseNode R} {flag : Bool}

/-- What no rerender says about the frame, and what it puts on record. -/
theorem applyOptimizedPoses_quiet (hthr : 0 < cfg.rerenderThresholdM)
    (h : (o.applyOptimizedPoses cfg m last flag).2 = false) :
    flag = false ∧
      (∀ x ∈ o.poseGraph.getNodes, ∀ d, o.displacement m x = some d → d < cfg.rerenderThresholdM) ∧
      (o.applyOptimizedPoses cfg m last flag).1.lastRenderedPoses =
        Function.update o.lastRenderedPoses last.index (some last.pose) := by
  have hflags := h
  dsimp only [applyOptimizedPoses] at hflags
  obtain ⟨hff, hmoved⟩ := Bool.or_eq_false_iff.mp hflags
  obtain ⟨hflag, _⟩ := Bool.or_eq_false_iff.mp hff
  refine ⟨hflag, ?_, ?_⟩
  · intro x hx d hd
    have hle := le_foldl_max (a := 0) (List.mem_filterMap.mpr ⟨x, hx, hd⟩)
    have hmax := not_and.mp (of_decide_eq_false hmoved) hthr
    exact lt_of_le_of_lt hle (not_le.mp hmax)
  · show (if (o.applyOptimizedPoses cfg m last flag).2 then _ else _) = _
    rw [h]
    rfl

theorem applyOptimizedPoses_rerender (h : (o.applyOptimizedPoses cfg m last flag).2 = true) :
    (o.applyOptimizedPoses cfg m last flag).1.lastRenderedPoses =
      recordAll o.lastRenderedPoses (o.poseGraph.getNodes.map o.optimizedNode) := by
  show (if (o.applyOptimizedPoses cfg m last flag).2 then _ else _) = _
  rw [h]
  rfl

omit [LinearOrder R] in
theorem displacement_eq {q e : Pose R} (hq : o.lastRenderedPoses x.index = some q)
    (he : o.optimizer.getPose x.index = some e) :
    o.displacement m x = some ((o.optimizedNode x).awayFrom m q) := by
  unfold displacement optimizedNode
  rw [he, hq]
  rfl

omit [Field R] [LinearOrder R] in
theorem optimizedNode_of_some {e : Pose R} (he : o.optimizer.getPose x.index = some e) :
    (o.optimizedNode x).pose = e := by
  unfold optimizedNode
  rw [he]
  rfl

omit [Field R] [LinearOrder R] in
theorem optimizedNode_of_none (he : o.optimizer.getPose x.index = none) :
    o.optimizedNode x = x := by
  unfold optimizedNode
  rw [he]

omit [Field R] [LinearOrder R] in
theorem optimizedNode_congr {o' : GraphOrchestrator R} (h : o'.optimizer = o.optimizer) :
    o'.optimizedNode x = o.optimizedNode x := by
  unfold optimizedNode
  rw [h]

end Poses

section Tracked

variable (cfg : SlamConfig R) (m)

/-- A node is on record where it is drawn, and closer than the threshold to there. -/
def OnRecord (rendered drawn : Nat → Option (Pose R)) (x : PoseNode R) : Prop :=
  ∃ q, rendered x.index = some q ∧ x.awayFrom m q < cfg.rerenderThresholdM ∧
    ∀ p, drawn x.index = some p → p = q

variable {m cfg} in
/-- A node on record stays on record where the estimates move it, if no displacement reaches the
threshold. -/
theorem OnRecord.optimizedNode {o : GraphOrchestrator R} {y : PoseNode R}
    {rendered drawn : Nat → Option (Pose R)} (h : OnRecord m cfg rendered drawn y)
    (hr : o.lastRenderedPoses = rendered)
    (hd : ∀ d, o.displacement m y = some d → d < cfg.rerenderThresholdM) :
    OnRecord m cfg rendered drawn (o.optimizedNode y) := by
  obtain ⟨q, hq, haway, hdrawn⟩ := h
  refine ⟨q, ?_, ?_, ?_⟩
  · rw [optimizedNode_index]
    exact hq
  · cases he : o.optimizer.getPose y.index with
    | none =>
        rw [optimizedNode_of_none he]
        exact haway
    | some e =>
        apply hd
        apply displacement_eq _ he
        rw [hr]
        exact hq
  · intro p hp
    rw [optimizedNode_index] at hp
    exact hdrawn p hp

/-- While it waits for GNSS the orchestrator has no record, but no node moves. -/
structure Tracked (n : SlamNode R) : Prop where
  orchestrator : WellFormed cfg n.orchestrator
  drawn : ∀ k p, n.drawn k = some p → k < n.orchestrator.poseGraph.getNodes.length
  waiting : n.orchestrator.state = .initializing → ∀ x ∈ n.orchestrator.poseGraph.getNodes,
    ∀ p, n.drawn x.index = some p → p = x.pose
  running : n.orchestrator.state = .running → ∀ x ∈ n.orchestrator.poseGraph.getNodes,
    OnRecord m cfg n.orchestrator.lastRenderedPoses n.drawn x

theorem tracked_init : Tracked m cfg (SlamNode.init cfg) := by
  have hnil : (SlamNode.init cfg).orchestrator.poseGraph.getNodes = [] := new_getNodes cfg
  refine ⟨wellFormed_new cfg, ?_, ?_, ?_⟩
  · intro k p hp
    cases hp
  · intro _ x hx
    rw [hnil] at hx
    exact absurd hx List.not_mem_nil
  · intro _ x hx
    rw [hnil] at hx
    exact absurd hx List.not_mem_nil

variable {m cfg}

/-- Before any frame the drawn nodes are within the threshold. -/
theorem Tracked.within (h0 : m.hypot 0 0 = 0) (hthr : 0 < cfg.rerenderThresholdM)
    {n : SlamNode R} (h : Tracked m cfg n) {x : PoseNode R}
    (hx : x ∈ n.orchestrator.poseGraph.getNodes) {p : Pose R} (hp : n.drawn x.index = some p) :
    x.awayFrom m p ≤ cfg.rerenderThresholdM := by
  cases hst : n.orchestrator.state with
  | initializing =>
      rw [h.waiting hst x hx p hp, PoseNode.awayFrom_self h0 rfl]
      exact hthr.le
  | running =>
      obtain ⟨q, _, haway, hdrawn⟩ := h.running hst x hx
      rw [hdrawn p hp]
      exact haway.le

end Tracked

end MgRobot.Slam

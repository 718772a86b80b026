import Mathlib.Data.Finset.Disjoint
import MgRobot.Slam.EdgeForwarding
import MgRobot.Slam.GnssInit
import MgRobot.Slam.SlamNode
import MgRobot.WebUi.PoseGraphSync

/-!
# The two encoders of the pose graph

A diff carries what the orchestrator returns for a frame, an answer of the service a
split of all edges. Both are compared by the sets of node pairs that their keys
stand for.
-/

namespace MgRobot.Slam

set_option autoImplicit false

open MgRobot.Lib MgRobot.Lib.Runs MgRobot.WebUi GraphOrchestrator

variable {R : Type*}

/-- The key of the edges between a pair of nodes. -/
def pairKey (p : Nat × Nat) : String := edgeKey p.1 (some p.2)

theorem pairKey_injective : Function.Injective pairKey := fun _ _ h => edgeKey_injective h

/-- The node pairs of a list of edges. -/
def endsSet (es : List (PoseEdge R)) : Finset (Nat × Nat) := (es.map (·.ends)).toFinset

theorem mem_endsSet {es : List (PoseEdge R)} {p : Nat × Nat} :
    p ∈ endsSet es ↔ ∃ e ∈ es, e.ends = p := by
  unfold endsSet
  rw [List.mem_toFinset, List.mem_map]

theorem endsSet_append (es es' : List (PoseEdge R)) :
    endsSet (es ++ es') = endsSet es ∪ endsSet es' := by
  unfold endsSet
  rw [List.map_append, List.toFinset_append]

theorem endsSet_eq_empty {es : List (PoseEdge R)} : endsSet es = ∅ ↔ es = [] := by
  unfold endsSet
  rw [List.toFinset_eq_empty_iff, List.map_eq_nil_iff]

theorem toFinset_edgeKeys (es : List (PoseEdge R)) :
    (edgeKeys (es.map (·.fromIndex)) (es.map (·.toIndex))).toFinset =
      (endsSet es).image pairKey := by
  rw [edgeKeys_map]
  ext k
  simp [endsSet, pairKey, PoseEdge.ends]

theorem keys_buildPoseGraphDiff [Field R] [LinearOrder R] (m : Numerics R)
    (nodes : List (PoseNode R)) (seqEdges loopEdges : List (PoseEdge R))
    (priors : List (GnssPrior R)) (loopClosed fullRefreshNeeded : Bool) :
    (buildPoseGraphDiff m nodes seqEdges loopEdges priors loopClosed fullRefreshNeeded).keys =
      ((nodes.map (·.index)).toFinset, (endsSet seqEdges).image pairKey,
        (endsSet loopEdges).image pairKey) := by
  unfold buildPoseGraphDiff PoseGraphDiff.keys
  rw [toFinset_edgeKeys, toFinset_edgeKeys]

namespace PoseGraphBuilder

/-- The pairs that the service lists as sequential edges. -/
def seqEnds (b : PoseGraphBuilder R) : Finset (Nat × Nat) :=
  endsSet (splitEdges b.getEdges b.getLoopEdges).1

theorem mem_seqEnds {b : PoseGraphBuilder R} {p : Nat × Nat} :
    p ∈ b.seqEnds ↔ p ∈ endsSet b.getEdges ∧ p ∉ endsSet b.getLoopEdges := by
  unfold seqEnds splitEdges endsSet
  simp only [List.mem_toFinset, List.mem_map, List.mem_filter, decide_eq_true_eq]
  constructor
  · rintro ⟨e, ⟨he, hn⟩, rfl⟩
    exact ⟨⟨e, he, rfl⟩, hn⟩
  · rintro ⟨⟨e, he, rfl⟩, hn⟩
    exact ⟨e, ⟨he, hn⟩, rfl⟩

variable {cfg : SlamConfig R} {b b' : PoseGraphBuilder R} {node : PoseNode R}
variable {seq near loops : List (PoseEdge R)}

/-- An edge of the graph before a keyframe does not lead to its node. -/
theorem Grows.snd_ne (g : Grows cfg b b' node seq near loops) (h : b.WellIndexed)
    {p : Nat × Nat} (hp : p ∈ endsSet b.getEdges) : p.2 ≠ node.index := by
  obtain ⟨e, he, rfl⟩ := mem_endsSet.mp hp
  have hlt := (h.edges e he).2
  have hi := g.keyframe.index
  show e.toIndex ≠ node.index
  omega

theorem endsSet_loops_subset : endsSet b.getLoopEdges ⊆ endsSet b.getEdges := by
  unfold getEdges
  rw [endsSet_append]
  exact Finset.subset_union_right

theorem Grows.snd_eq (g : Grows cfg b b' node seq near loops) {p : Nat × Nat}
    (hp : p ∈ endsSet (seq ++ near ++ loops)) : p.2 = node.index := by
  obtain ⟨e, he, rfl⟩ := mem_endsSet.mp hp
  exact (g.mem he).2

/-- Without new loop edges the sequential pairs grow by those of the new edges. -/
theorem Grows.seqEnds_eq (g : Grows cfg b b' node seq near []) (h : b.WellIndexed) :
    b'.seqEnds = b.seqEnds ∪ endsSet (seq ++ near) := by
  have hl : b'.getLoopEdges = b.getLoopEdges := by
    rw [g.getLoopEdges, List.append_nil]
  have he : endsSet b'.getEdges = endsSet b.getEdges ∪ endsSet (seq ++ near) := by
    unfold endsSet
    rw [List.toFinset_eq_of_perm _ _ (g.getEdges_perm.map _), List.map_append,
      List.toFinset_append, List.append_nil]
  ext p
  rw [Finset.mem_union, mem_seqEnds, mem_seqEnds, he, hl, Finset.mem_union]
  constructor
  · rintro ⟨ho | hn, hno⟩
    · exact Or.inl ⟨ho, hno⟩
    · exact Or.inr hn
  · rintro (⟨ho, hno⟩ | hn)
    · exact ⟨Or.inl ho, hno⟩
    · refine ⟨Or.inr hn, fun hc => g.snd_ne h (endsSet_loops_subset hc) (g.snd_eq ?_)⟩
      rw [List.append_nil]
      exact hn

/-- `get_latest_seq_edge` finds the pair of the edge that the builder has added. -/
theorem Grows.endsSet_latest (g : Grows cfg b b' node seq near loops) (h : b.WellIndexed) :
    endsSet (getLatestSeqEdge node.index b'.getEdges).toList = endsSet seq := by
  have hi := g.keyframe.index
  have hw := h.grow g
  rcases Nat.eq_zero_or_pos b.getNodes.length with h0 | hpos
  · rw [(g.keyframe.first h0).1]
    cases hs : getLatestSeqEdge node.index b'.getEdges with
    | none => rfl
    | some e =>
        obtain ⟨hm, hspan, hto⟩ := getLatestSeqEdge_spec hs
        have hle := (hw.edges e hm).1
        have hsp := e.span_of_le hle
        omega
  · obtain ⟨e, rfl, he⟩ := g.keyframe.seqEdge hpos
    obtain ⟨d, hd⟩ := Option.isSome_iff_exists.mp (getLatestSeqEdge_isSome g (by omega))
    obtain ⟨hm, hspan, hto⟩ := getLatestSeqEdge_spec hd
    have hle := (hw.edges d hm).1
    have hsp := d.span_of_le hle
    have hde : d.ends = e.ends := by
      rw [he]
      exact Prod.ext (show d.fromIndex = _ by omega) (show d.toIndex = _ by omega)
    rw [hd]
    unfold endsSet
    rw [Option.toList_some, List.map_singleton, List.map_singleton, hde]

end PoseGraphBuilder

section Keyframe

variable {cfg : SlamConfig R} {i : Nat} {node : PoseNode R} {seq near : List (PoseEdge R)}

/-- The pair of the sequential edge covers the near-keyframe links between neighbours only. -/
theorem Keyframe.near_subset_iff (h : Keyframe cfg i node seq near) :
    endsSet near ⊆ endsSet seq ↔ ∀ e ∈ near, e.fromIndex + 1 = e.toIndex := by
  rcases Nat.eq_zero_or_pos i with h0 | hpos
  · obtain ⟨rfl, rfl⟩ := h.first h0
    exact iff_of_true (Finset.Subset.refl _) fun e he => absurd he List.not_mem_nil
  · obtain ⟨d, rfl, hd⟩ := h.seqEdge hpos
    constructor
    · intro hsub e he
      obtain ⟨c, hc, hce⟩ := mem_endsSet.mp (hsub (mem_endsSet.mpr ⟨e, he, rfl⟩))
      obtain rfl := List.mem_singleton.mp hc
      obtain ⟨hf, ht⟩ := Prod.mk.inj (hce.symm.trans hd)
      omega
    · intro hall p hp
      obtain ⟨e, he, rfl⟩ := mem_endsSet.mp hp
      have hstep := hall e he
      have hto := (h.links e he).1
      refine mem_endsSet.mpr ⟨d, List.mem_cons_self, ?_⟩
      rw [hd]
      exact Prod.ext (show i - 1 = e.fromIndex by omega) hto.symm

theorem Keyframe.append_eq_nil_iff (h : Keyframe cfg i node seq near) :
    seq ++ near = [] ↔ i = 0 := by
  constructor
  · intro hnil
    by_contra hne
    obtain ⟨e, rfl, _⟩ := h.seqEdge (by omega)
    cases hnil
  · intro h0
    obtain ⟨rfl, rfl⟩ := h.first h0
    rfl

end Keyframe

section Agreement

variable [Field R] [LinearOrder R] (m : Numerics R)

/-- A client that applies a diff to the answer of the service before a frame has the keys of the
answer after it. -/
def DiffAgrees (before after : PoseGraphBuilder R) (d : PoseGraphDiff R) : Prop :=
  ((PoseGraphState.ofResponse (handleService m before)).applyDiff d).keys =
    (PoseGraphState.ofResponse (handleService m after)).keys

instance (before after : PoseGraphBuilder R) (d : PoseGraphDiff R) :
    Decidable (DiffAgrees m before after d) := by
  unfold DiffAgrees
  infer_instance

theorem keys_handleService (b : PoseGraphBuilder R) : (handleService m b).graph.keys =
    ((b.getNodes.map (·.index)).toFinset, b.seqEnds.image pairKey,
      (endsSet b.getLoopEdges).image pairKey) :=
  keys_buildPoseGraphDiff ..

variable {m} {cfg : SlamConfig R} {b b' a : PoseGraphBuilder R} {node : PoseNode R}
variable {seq near loops s : List (PoseEdge R)} {d : PoseGraphDiff R}

/-- A diff of a keyframe without loop edges agrees exactly if there are none, and if its
sequential edges stand for the pairs of all that is new. -/
theorem diffAgrees_iff (h : b.WellIndexed)
    (g : PoseGraphBuilder.Grows cfg b b' node seq near loops)
    (ha : (handleService m a).graph.keys = (handleService m b').graph.keys)
    (hd : d.keys = ({node.index}, (endsSet s).image pairKey, ∅))
    (hs : ∀ p ∈ endsSet s, p.2 = node.index) :
    DiffAgrees m b a d ↔ loops = [] ∧ endsSet s = endsSet (seq ++ near) := by
  have hnodes : (b'.getNodes.map (·.index)).toFinset =
      (b.getNodes.map (·.index)).toFinset ∪ {node.index} := by
    rw [g.getNodes, List.map_append, List.toFinset_append, List.map_singleton]
    rfl
  have hinj := Finset.image_injective pairKey_injective
  unfold DiffAgrees
  rw [PoseGraphState.keys_applyDiff, PoseGraphState.keys_ofResponse, PoseGraphState.keys_ofResponse,
    ha, keys_handleService, keys_handleService, hd, hnodes, g.getLoopEdges, endsSet_append]
  simp only [Prod.mk_sup_mk, Prod.mk.injEq, Finset.sup_eq_union, Finset.union_empty, true_and]
  rw [← Finset.image_union, hinj.eq_iff, hinj.eq_iff]
  have hold : ∀ t : Finset (Nat × Nat), (∀ p ∈ t, p.2 = node.index) →
      Disjoint b.seqEnds t := by
    intro t ht
    rw [Finset.disjoint_left]
    intro p hp hpt
    exact g.snd_ne h (PoseGraphBuilder.mem_seqEnds.mp hp).1 (ht p hpt)
  constructor
  · intro ⟨hseq, hloop⟩
    have hnil : loops = [] := by
      apply List.eq_nil_iff_forall_not_mem.mpr
      intro e he
      have hm : e.ends ∈ endsSet b.getLoopEdges := by
        rw [hloop]
        exact Finset.mem_union_right _ (mem_endsSet.mpr ⟨e, he, rfl⟩)
      exact g.snd_ne h (PoseGraphBuilder.endsSet_loops_subset hm)
        (g.mem (List.mem_append_right _ he)).2
    subst hnil
    rw [g.seqEnds_eq h, ← Finset.disjUnion_eq_union _ _ (hold _ hs),
      ← Finset.disjUnion_eq_union _ _ (hold _ fun p hp => g.snd_eq (by
        rw [List.append_nil]
        exact hp)), Finset.disjUnion_inj_right] at hseq
    exact ⟨rfl, hseq⟩
  · intro ⟨hnil, hseq⟩
    subst hnil
    rw [g.seqEnds_eq h, hseq]
    exact ⟨rfl, (Finset.union_empty _).symm⟩

/-- The diff reports the sequential edge of its keyframe. -/
theorem diffAgrees_iff_of_seq (h : b.WellIndexed)
    (g : PoseGraphBuilder.Grows cfg b b' node seq near loops)
    (ha : (handleService m a).graph.keys = (handleService m b').graph.keys)
    (hd : d.keys = ({node.index}, (endsSet s).image pairKey, ∅)) (hs : endsSet s = endsSet seq) :
    DiffAgrees m b a d ↔ loops = [] ∧ ∀ e ∈ near, e.fromIndex + 1 = e.toIndex := by
  have hnew : ∀ p ∈ endsSet s, p.2 = node.index := by
    intro p hp
    rw [hs] at hp
    apply g.snd_eq
    rw [endsSet_append, endsSet_append]
    exact Finset.mem_union_left _ (Finset.mem_union_left _ hp)
  rw [diffAgrees_iff h g ha hd hnew, hs, endsSet_append, eq_comm (a := endsSet seq),
    Finset.union_eq_left, g.keyframe.near_subset_iff]

/-- The diff reports no edge. -/
theorem diffAgrees_iff_of_empty (h : b.WellIndexed)
    (g : PoseGraphBuilder.Grows cfg b b' node seq near loops)
    (ha : (handleService m a).graph.keys = (handleService m b').graph.keys)
    (hd : d.keys = ({node.index}, (endsSet s).image pairKey, ∅)) (hs : endsSet s = ∅) :
    DiffAgrees m b a d ↔ loops = [] ∧ node.index = 0 := by
  have hnew : ∀ p ∈ endsSet s, p.2 = node.index := by
    intro p hp
    rw [hs] at hp
    exact absurd hp (Finset.notMem_empty p)
  rw [diffAgrees_iff h g ha hd hnew, hs, eq_comm (a := ∅), endsSet_eq_empty,
    g.keyframe.append_eq_nil_iff, g.keyframe.index]

end Agreement

end MgRobot.Slam

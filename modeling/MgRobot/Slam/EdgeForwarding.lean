import MgRobot.Lib.Handover
import MgRobot.Slam.FrameInvariant

/-!
# Edges and between factors

The orchestrator hands the builder's edges to the optimizer piecemeal: the latest
sequential edge, the mesh links of the node, and the long edges past a count. The
edges of a frame sort into these by their span.
-/

namespace MgRobot.Slam

set_option autoImplicit false

open MgRobot.Lib MgRobot.Lib.Runs

variable {R : Type*}

def BetweenFactor.span (b : BetweenFactor R) : Nat := ((b.toIndex : Int) - b.fromIndex).natAbs

namespace PoseGraphBuilder

/-- The near-keyframe links that a frame has added behind its sequential edge. -/
def nearAdded (b b' : PoseGraphBuilder R) : List (PoseEdge R) :=
  b'.innerEdges.drop (b.innerEdges.length + 1)

def loopsAdded (b b' : PoseGraphBuilder R) : List (PoseEdge R) :=
  b'.getLoopEdges.drop b.getLoopEdges.length

variable {cfg : SlamConfig R} {b b' : PoseGraphBuilder R} {node : PoseNode R}
variable {seq near loops : List (PoseEdge R)}

theorem Grows.nearAdded (g : Grows cfg b b' node seq near loops) : b.nearAdded b' = near := by
  unfold PoseGraphBuilder.nearAdded
  rw [g.innerEdges]
  rcases Nat.eq_zero_or_pos b.getNodes.length with h0 | hpos
  · obtain ⟨rfl, rfl⟩ := g.keyframe.first h0
    simp
  · obtain ⟨e, rfl, _⟩ := g.keyframe.seqEdge hpos
    simp

theorem Grows.loopsAdded (g : Grows cfg b b' node seq near loops) : b.loopsAdded b' = loops := by
  unfold PoseGraphBuilder.loopsAdded
  rw [g.getLoopEdges, List.drop_left]

end PoseGraphBuilder

/-- The edges of a frame sort by their span: next to the node, in the mesh, or long. -/
theorem perm_by_span (es : List (PoseEdge R)) :
    (es.filter (fun e => e.span ≤ 1) ++ es.filter (fun e => 1 < e.span ∧ e.span < 15) ++
      longEdges es).Perm es := by
  have h1 := List.filter_append_perm (fun e : PoseEdge R => decide (e.span ≤ 1)) es
  have h2 := List.filter_append_perm (fun e : PoseEdge R => decide (e.span < 15))
    (es.filter fun e => !decide (e.span ≤ 1))
  rw [List.append_assoc]
  refine List.Perm.trans (List.Perm.append_left _ ?_) h1
  refine List.Perm.trans (List.Perm.of_eq ?_) h2
  unfold longEdges
  rw [List.filter_filter, List.filter_filter]
  congr 1
  · apply List.filter_congr
    intro e _
    simp only [decide_eq_decide, ← decide_not, ← Bool.decide_and]
    omega
  · apply List.filter_congr
    intro e _
    simp only [← decide_not, ← Bool.decide_and, decide_eq_decide]
    omega

/-- The new edges of a frame, and what the earlier edges are told apart by: their ends. -/
structure NewEdges (i : Nat) (e : PoseEdge R) (near loops old : List (PoseEdge R)) : Prop where
  seq : e.span = 1
  near : ∀ d ∈ near, d.toIndex = i ∧ 2 ≤ d.span
  loops : ∀ d ∈ loops, d.toIndex = i
  old : ∀ d ∈ old, d.toIndex ≠ i

variable {i : Nat} {e d : PoseEdge R} {near loops old mesh : List (PoseEdge R)}

theorem NewEdges.long_eq (h : NewEdges i e near loops old) :
    longEdges (e :: near ++ loops) = longEdges near ++ longEdges loops := by
  rw [GraphOrchestrator.longEdges_append, longEdges, List.filter_cons, if_neg]
  · rfl
  · rw [h.seq]
    decide

theorem NewEdges.short_eq (h : NewEdges i e near loops old) :
    (e :: near ++ loops).filter (fun d => d.span ≤ 1) = e :: loops.filter fun d => d.span ≤ 1 := by
  have hn : near.filter (fun d => decide (d.span ≤ 1)) = [] := by
    apply List.filter_eq_nil_iff.mpr
    intro d hd
    have hs := (h.near d hd).2
    rw [decide_eq_true_iff]
    omega
  rw [List.filter_append, List.filter_cons, if_pos, hn]
  · rfl
  · rw [h.seq]
    decide

theorem span_of_mem_longEdges {es : List (PoseEdge R)} (h : d ∈ longEdges es) : 15 ≤ d.span :=
  of_decide_eq_true (List.mem_filter.mp h).2

section Forwarded

variable {tail : List (PoseEdge R)}

/-- Of what is handed over, the first edge is the short one. -/
theorem filter_short_forwarded (hd : d.span = 1) (hmid : ∀ c ∈ mesh, 1 < c.span ∧ c.span < 15)
    (htail : ∀ c ∈ tail, 15 ≤ c.span) :
    (d :: mesh ++ tail).filter (fun c => decide (c.span ≤ 1)) = [d] := by
  rw [List.cons_append, List.filter_cons, if_pos (decide_eq_true (by omega)),
    List.filter_eq_nil_iff.mpr]
  intro c hc
  rw [decide_eq_true_iff]
  rcases List.mem_append.mp hc with hc | hc
  · have hm := hmid c hc
    omega
  · have ht := htail c hc
    omega

/-- Of what is handed over, the tail is long. -/
theorem longEdges_forwarded (hd : d.span = 1) (hmid : ∀ c ∈ mesh, 1 < c.span ∧ c.span < 15)
    (htail : ∀ c ∈ tail, 15 ≤ c.span) : longEdges (d :: mesh ++ tail) = tail := by
  unfold longEdges
  rw [List.filter_append, List.filter_eq_nil_iff.mpr, List.nil_append, List.filter_eq_self.mpr]
  · exact fun c hc => decide_eq_true (htail c hc)
  · intro c hc
    rw [decide_eq_true_iff]
    cases hc with
    | head => omega
    | tail _ hc =>
        have hm := hmid c hc
        omega

theorem span_of_mem_tail {c : PoseEdge R}
    (hc : c ∈ (longEdges near ++ longEdges old).drop (longEdges old).length ++ longEdges loops) :
    15 ≤ c.span := by
  rcases List.mem_append.mp hc with hc | hc
  · rcases List.mem_append.mp (List.mem_of_mem_drop hc) with hc | hc
    · exact span_of_mem_longEdges hc
    · exact span_of_mem_longEdges hc
  · exact span_of_mem_longEdges hc

/-- The long links past the count are the new ones exactly if there are no new ones, or no old long
edges that they stand before. -/
theorem NewEdges.drop_perm_iff (h : NewEdges i e near loops old) :
    (((longEdges near ++ longEdges old).drop (longEdges old).length).map (·.factor)).Perm
        ((longEdges near).map (·.factor)) ↔ longEdges near = [] ∨ longEdges old = [] := by
  rw [List.map_drop, List.map_append, ← List.length_map (·.factor),
    Handover.drop_append_perm_iff (p := fun b : BetweenFactor R => b.toIndex = i),
    List.map_eq_nil_iff, List.map_eq_nil_iff]
  · intro b hb
    obtain ⟨c, hc, rfl⟩ := List.mem_map.mp hb
    exact (h.near c (List.mem_of_mem_filter hc)).1
  · intro b hb
    obtain ⟨c, hc, rfl⟩ := List.mem_map.mp hb
    exact h.old c (List.mem_of_mem_filter hc)

theorem filter_short_eq_nil_iff :
    loops.filter (fun d => decide (d.span ≤ 1)) = [] ↔ ∀ d ∈ loops, 2 ≤ d.span := by
  rw [List.filter_eq_nil_iff]
  apply forall₂_congr
  intro c _
  rw [decide_eq_true_iff]
  omega

/-- What is handed over in a frame is what the frame has added, exactly if no loop edge is too
short and no long link comes before old long loop edges. -/
theorem NewEdges.forward_perm_iff (h : NewEdges i e near loops old)
    (hd : d.span = 1) (hmem : d ∈ e :: near ++ loops)
    (hmesh : mesh.Perm ((e :: near ++ loops).filter fun d => 1 < d.span ∧ d.span < 15)) :
    ((d :: mesh ++ ((longEdges near ++ longEdges old).drop (longEdges old).length ++
        longEdges loops)).map (·.factor)).Perm ((e :: near ++ loops).map (·.factor)) ↔
      (∀ d ∈ loops, 2 ≤ d.span) ∧ (longEdges near = [] ∨ longEdges old = []) := by
  have hmid : ∀ c ∈ mesh, 1 < c.span ∧ c.span < 15 := fun c hc =>
    of_decide_eq_true (List.mem_filter.mp (hmesh.mem_iff.mp hc)).2
  constructor
  · intro hp
    constructor
    · -- one short factor is handed over, so the loop edges add none
      have hs := (hp.filter fun b => decide (b.span ≤ 1)).length_eq
      rw [List.filter_map, List.filter_map, List.length_map, List.length_map] at hs
      have hright : (e :: near ++ loops).filter ((fun b : BetweenFactor R => decide (b.span ≤ 1)) ∘
          (·.factor)) = e :: loops.filter fun d => decide (d.span ≤ 1) := h.short_eq
      have hleft : (d :: mesh ++ ((longEdges near ++ longEdges old).drop (longEdges old).length ++
          longEdges loops)).filter ((fun b : BetweenFactor R => decide (b.span ≤ 1)) ∘
          (·.factor)) = [d] := filter_short_forwarded hd hmid fun c hc => span_of_mem_tail hc
      rw [hleft, hright, List.length_singleton, List.length_cons] at hs
      apply filter_short_eq_nil_iff.mp
      apply List.eq_nil_of_length_eq_zero
      omega
    · -- among the long factors, the old ones must not be handed over again
      have hl := hp.filter fun b => decide (15 ≤ b.span)
      rw [List.filter_map, List.filter_map] at hl
      have hright : (e :: near ++ loops).filter ((fun b : BetweenFactor R => decide (15 ≤ b.span)) ∘
          (·.factor)) = longEdges near ++ longEdges loops := h.long_eq
      have hleft : (d :: mesh ++ ((longEdges near ++ longEdges old).drop (longEdges old).length ++
          longEdges loops)).filter ((fun b : BetweenFactor R => decide (15 ≤ b.span)) ∘
          (·.factor)) = (longEdges near ++ longEdges old).drop (longEdges old).length ++
          longEdges loops := longEdges_forwarded hd hmid fun c hc => span_of_mem_tail hc
      rw [hleft, hright, List.map_append, List.map_append, List.perm_append_right_iff] at hl
      exact h.drop_perm_iff.mp hl
  · intro ⟨hloops, hor⟩
    have hshort : (e :: near ++ loops).filter (fun d => d.span ≤ 1) = [e] := by
      rw [h.short_eq, filter_short_eq_nil_iff.mpr hloops]
    have hde : d = e := by
      have hin : d ∈ (e :: near ++ loops).filter (fun d => decide (d.span ≤ 1)) :=
        List.mem_filter.mpr ⟨hmem, decide_eq_true (by omega)⟩
      rw [hshort] at hin
      exact List.mem_singleton.mp hin
    have htail : (((longEdges near ++ longEdges old).drop (longEdges old).length ++
        longEdges loops).map (·.factor)).Perm
          ((longEdges near ++ longEdges loops).map (·.factor)) := by
      rw [List.map_append, List.map_append]
      exact (h.drop_perm_iff.mpr hor).append_right _
    have hall := (perm_by_span (e :: near ++ loops)).map (·.factor)
    rw [hshort, h.long_eq, List.map_append] at hall
    refine List.Perm.trans ?_ hall
    rw [hde, List.map_append]
    exact ((hmesh.cons e).map _).append htail

end Forwarded

end MgRobot.Slam

import Mathlib.Analysis.Real.Sqrt
import MgRobot.Slam.LoopClosureSystem

/-!
# The searches see the current nodes

The cached nodes are those of the inner builder, and a tree that is not dirty was built
from their positions. So each search finds what a look at every node finds.
-/

namespace MgRobot.Slam

set_option autoImplicit false

open MgRobot.Lib.PointIndex

variable {R : Type*} [Field R] [LinearOrder R]

/-- The distance of two points is less than `radius`, by the squares. -/
def Near (radius : R) (p q : R × R) : Prop :=
  (p.1 - q.1) ^ 2 + (p.2 - q.2) ^ 2 < radius ^ 2

instance (radius : R) (p q : R × R) : Decidable (Near radius p q) := by
  unfold Near
  infer_instance

theorem near_iff {radius : ℝ} (h : 0 ≤ radius) (p q : ℝ × ℝ) :
    Near radius p q ↔ Real.sqrt ((p.1 - q.1) ^ 2 + (p.2 - q.2) ^ 2) < radius := by
  rcases h.eq_or_lt with rfl | hpos
  · have hsq : 0 ≤ (p.1 - q.1) ^ 2 + (p.2 - q.2) ^ 2 := by positivity
    unfold Near
    rw [zero_pow two_ne_zero]
    exact ⟨fun hlt => absurd hlt hsq.not_gt, fun hlt => absurd hlt (Real.sqrt_nonneg _).not_gt⟩
  · exact (Real.sqrt_lt' hpos).symm

variable (cfg : SlamConfig R) (m : Numerics R) (a : Matchers R) (submapRadius : R)
  (search : Search (R × R) ((R × R) × R))

/-- The nodes with a scan that are at least `min_node_gap` before `node` and near it. -/
def loopCandidates (nodes : List (PoseNode R)) (node : PoseNode R) : List (PoseNode R) :=
  nodes.filter fun n => n.scan.isSome ∧
    cfg.loopClosure.minNodeGap ≤ (node.index : Int) - n.index ∧
    Near cfg.loopClosure.searchRadius node.pos n.pos

/-- The nodes with a scan that are near `candidate`, unless there are no submaps. -/
def submapNodes (nodes : List (PoseNode R)) (candidate : PoseNode R) : Option (List (PoseNode R)) :=
  if submapRadius ≤ 0 then none
  else some (nodes.filter fun n => n.scan.isSome ∧ Near submapRadius candidate.pos n.pos)

namespace IndexedLoopBuilder

/-- The nodes of the inner builder, the cached ones and those of the tree agree. -/
structure Fresh (b : IndexedLoopBuilder R) : Prop where
  indexed : Indexed b.inner.nodes
  cache : b.allNodesCache = b.inner.nodes
  tree : b.dirty = false → ∀ built, b.tree = some built → built = b.inner.nodes.map PoseNode.pos

/-- What the tries for the candidates look at. -/
structure Tried (nodes tried : List (PoseNode R))
    (s t : IndexedLoopBuilder R × LoopSearch R) : Prop where
  fresh : t.1.Fresh
  inner : t.1.inner = s.1.inner
  candidates : t.2.candidates = s.2.candidates
  submaps : ∀ sm ∈ t.2.submaps, sm ∈ s.2.submaps ∨
    sm.1 ∈ tried ∧ sm.2 = submapNodes submapRadius nodes sm.1

/-- What an `add_scan` looks at, by hand. -/
structure SearchedByHand (b : IndexedLoopBuilder R) (node : PoseNode R) (found : LoopSearch R) :
    Prop where
  candidates : found.candidates = loopCandidates cfg b.inner.nodes node
  /-- In index order. -/
  ordered : (found.candidates.map PoseNode.index).Pairwise (· < ·)
  submaps : ∀ sm ∈ found.submaps, sm.1 ∈ found.candidates ∧
    sm.2 = submapNodes submapRadius b.inner.nodes sm.1

variable {cfg m a submapRadius search} {b : IndexedLoopBuilder R}

section Structure

omit [Field R] [LinearOrder R]

theorem fresh_new : (new : IndexedLoopBuilder R).Fresh :=
  ⟨rfl, rfl, fun h => Bool.noConfusion h⟩

theorem ensureNodeKdtree_builder (b : IndexedLoopBuilder R) :
    b.ensureNodeKdtree.toLoopClosureBuilder = b.toLoopClosureBuilder := by
  unfold ensureNodeKdtree
  split_ifs <;> rfl

/-- Loop edges and counts do not matter. -/
theorem Fresh.of_kept (h : b.Fresh) {c : LoopClosureBuilder R} (hi : c.inner = b.inner)
    (hc : c.allNodesCache = b.allNodesCache) :
    ({ b with toLoopClosureBuilder := c } : IndexedLoopBuilder R).Fresh := by
  refine ⟨?_, ?_, ?_⟩
  · rw [hi]
    exact h.indexed
  · rw [hi, hc]
    exact h.cache
  · rw [hi]
    exact h.tree

/-- After `ensure_node_kdtree` the tree is the one of the current nodes. -/
theorem Fresh.ensureNodeKdtree (h : b.Fresh) : b.ensureNodeKdtree.Fresh ∧
    (b.inner.nodes ≠ [] → b.ensureNodeKdtree.tree = some (b.inner.nodes.map PoseNode.pos)) := by
  unfold IndexedLoopBuilder.ensureNodeKdtree
  split_ifs with hclean hempty
  · rw [Bool.and_eq_true, Bool.not_eq_true'] at hclean
    obtain ⟨built, hbuilt⟩ := Option.isSome_iff_exists.mp hclean.2
    refine ⟨h, fun _ => ?_⟩
    rw [hbuilt, h.tree hclean.1 built hbuilt]
  · rw [h.cache, List.isEmpty_iff] at hempty
    exact ⟨⟨h.indexed, h.cache, fun _ built hbuilt => by cases hbuilt⟩,
      fun hne => absurd hempty hne⟩
  · refine ⟨⟨h.indexed, h.cache, fun _ built hbuilt => ?_⟩, fun _ => ?_⟩
    · rw [← Option.some.inj hbuilt, h.cache]
    · rw [h.cache]

/-- A complete node list with changed poses. -/
theorem Fresh.replaceNodes (h : b.Fresh) (poses : Nat → Pose R) :
    (b.replaceNodes (b.inner.nodes.map fun n => n.withPose (poses n.index))).Fresh := by
  have hindex : (b.inner.nodes.map fun n => n.withPose (poses n.index)).map (·.index) =
      b.inner.nodes.map (·.index) := by
    rw [List.map_map]
    rfl
  have hindexed := h.indexed.of_map hindex
  refine ⟨hindexed, ?_, fun hdirty => Bool.noConfusion hdirty⟩
  show b.allNodesCache.map _ = b.inner.nodes.map _
  rw [h.cache]
  refine List.map_congr_left fun c hc => ?_
  have hmem : c.withPose (poses c.index) ∈
      (b.inner.nodes.map fun n => n.withPose (poses n.index)).reverse :=
    List.mem_reverse.mpr (List.mem_map_of_mem hc)
  cases hfind : (b.inner.nodes.map fun n => n.withPose (poses n.index)).reverse.find?
      fun n => n.index == c.index with
  | none => exact absurd (by simp [PoseNode.withPose]) (List.find?_eq_none.mp hfind _ hmem)
  | some n =>
      have hidx : n.index = (c.withPose (poses c.index)).index := by
        simpa [PoseNode.withPose] using List.find?_some hfind
      obtain rfl := List.inj_on_of_nodup_map hindexed.nodup
        (List.mem_reverse.mp (List.mem_of_find?_eq_some hfind)) (List.mem_reverse.mp hmem) hidx
      rfl

end Structure

theorem withinSq_eq (p q : R × R) (radius : R) :
    withinSq (p, radius * radius) q = decide (Near radius p q) := by
  unfold withinSq Near
  simp only [pow_two]

/-- A search through a tree of the current positions. -/
theorem Fresh.radiusNodes (h : b.Fresh) (hsearch : Exact withinSq search) (center : PoseNode R)
    (radius : R) (keep : PoseNode R → Bool) :
    b.radiusNodes search (b.inner.nodes.map PoseNode.pos) center radius keep =
      b.inner.nodes.filter fun n => decide (Near radius center.pos n.pos) && keep n := by
  unfold IndexedLoopBuilder.radiusNodes
  rw [h.cache]
  have hfound := found_sorted hsearch PoseNode.pos keep b.inner.nodes (center.pos, radius * radius)
  simp only [withinSq_eq] at hfound
  exact hfound

variable (cfg) in
theorem Fresh.findLoopCandidates (h : b.Fresh) (hsearch : Exact withinSq search)
    (node : PoseNode R) :
    (b.findLoopCandidates cfg search node).1.Fresh ∧
      (b.findLoopCandidates cfg search node).1.toLoopClosureBuilder = b.toLoopClosureBuilder ∧
      (b.findLoopCandidates cfg search node).2 = loopCandidates cfg b.inner.nodes node := by
  obtain ⟨hfresh, htree⟩ := h.ensureNodeKdtree
  have hbuilder := ensureNodeKdtree_builder b
  unfold IndexedLoopBuilder.findLoopCandidates
  split_ifs with hempty
  · rw [h.cache, List.isEmpty_iff] at hempty
    refine ⟨h, rfl, ?_⟩
    rw [hempty]
    rfl
  · have hne : b.inner.nodes ≠ [] := by
      rw [h.cache, List.isEmpty_iff] at hempty
      exact hempty
    simp only [htree hne]
    refine ⟨hfresh, hbuilder, ?_⟩
    have hnodes : b.ensureNodeKdtree.inner.nodes = b.inner.nodes := by rw [hbuilder]
    have hfound := hfresh.radiusNodes hsearch node cfg.loopClosure.searchRadius (farBack cfg node)
    rw [hnodes] at hfound
    rw [hfound]
    refine List.filter_congr fun n _ => ?_
    unfold farBack
    rw [Bool.eq_iff_iff]
    simp only [Bool.and_eq_true, decide_eq_true_eq, Bool.not_eq_true', decide_eq_false_iff_not,
      not_lt]
    tauto

variable (submapRadius) in
theorem Fresh.candidateSubmap (h : b.Fresh) (hsearch : Exact withinSq search)
    (hne : b.inner.nodes ≠ []) (candidate : PoseNode R) :
    (b.candidateSubmap submapRadius search candidate).1.Fresh ∧
      (b.candidateSubmap submapRadius search candidate).1.toLoopClosureBuilder =
        b.toLoopClosureBuilder ∧
      (b.candidateSubmap submapRadius search candidate).2 =
        submapNodes submapRadius b.inner.nodes candidate := by
  obtain ⟨hfresh, htree⟩ := h.ensureNodeKdtree
  have hbuilder := ensureNodeKdtree_builder b
  unfold IndexedLoopBuilder.candidateSubmap submapNodes
  split_ifs with hradius
  · exact ⟨h, rfl, rfl⟩
  · simp only [htree hne]
    refine ⟨hfresh, hbuilder, congrArg some ?_⟩
    have hnodes : b.ensureNodeKdtree.inner.nodes = b.inner.nodes := by rw [hbuilder]
    have hfound := hfresh.radiusNodes hsearch candidate submapRadius fun n => n.scan.isSome
    rw [hnodes] at hfound
    rw [hfound]
    refine List.filter_congr fun n _ => ?_
    rw [Bool.and_comm, Bool.decide_and, Bool.decide_eq_true]

end IndexedLoopBuilder

/-- The calls on a builder that looks at all its nodes. -/
def LoopClosureBuilder.step (b : LoopClosureBuilder R) : LoopCall R → LoopClosureBuilder R
  | .addScan a scan odom => (b.addScan cfg m a scan odom).1
  | .replaceNodes poses => b.replaceNodes (b.inner.nodes.map fun n => n.withPose (poses n.index))

theorem LoopClosureBuilder.tryAddLoopEdge_kept (b : LoopClosureBuilder R)
    (node candidate : PoseNode R) :
    (b.tryAddLoopEdge cfg m a node candidate).inner = b.inner ∧
      (b.tryAddLoopEdge cfg m a node candidate).allNodesCache = b.allNodesCache := by
  unfold tryAddLoopEdge
  dsimp only
  split_ifs <;> exact ⟨rfl, rfl⟩

namespace IndexedLoopBuilder

variable {cfg m a submapRadius search} {b : IndexedLoopBuilder R}

variable (cfg m a submapRadius) in
theorem Fresh.tryAddLoopEdge {s : IndexedLoopBuilder R × LoopSearch R} (h : s.1.Fresh)
    (hsearch : Exact withinSq search) (hne : s.1.inner.nodes ≠ []) (node candidate : PoseNode R) :
    Tried submapRadius s.1.inner.nodes [candidate] s
        (IndexedLoopBuilder.tryAddLoopEdge cfg m a submapRadius search node s candidate) ∧
      (IndexedLoopBuilder.tryAddLoopEdge cfg m a submapRadius search node s
          candidate).1.toLoopClosureBuilder =
        s.1.toLoopClosureBuilder.tryAddLoopEdge cfg m a node candidate := by
  unfold IndexedLoopBuilder.tryAddLoopEdge
  split_ifs with hany
  · refine ⟨⟨h, rfl, rfl, fun sm hsm => Or.inl hsm⟩, ?_⟩
    rw [LoopClosureBuilder.tryAddLoopEdge, if_pos (by rw [hany, Bool.true_or])]
  · obtain ⟨hfresh, hbuilder, hsubmap⟩ :=
      h.candidateSubmap submapRadius hsearch hne candidate
    have hkept := LoopClosureBuilder.tryAddLoopEdge_kept cfg m a
      (s.1.candidateSubmap submapRadius search candidate).1.toLoopClosureBuilder node candidate
    refine ⟨⟨hfresh.of_kept hkept.1 hkept.2, hkept.1.trans (congrArg _ hbuilder), rfl,
      fun sm hsm => ?_⟩, congrArg (fun c => c.tryAddLoopEdge cfg m a node candidate) hbuilder⟩
    rcases List.mem_append.mp hsm with hsm | hsm
    · exact Or.inl hsm
    · obtain rfl := List.mem_singleton.mp hsm
      exact Or.inr ⟨List.mem_singleton_self _, hsubmap⟩

variable (cfg m a submapRadius) in
theorem Fresh.foldl_tryAddLoopEdge {s : IndexedLoopBuilder R × LoopSearch R} (h : s.1.Fresh)
    (hsearch : Exact withinSq search) (hne : s.1.inner.nodes ≠ []) (node : PoseNode R)
    (candidates : List (PoseNode R)) :
    Tried submapRadius s.1.inner.nodes candidates s
        (candidates.foldl (IndexedLoopBuilder.tryAddLoopEdge cfg m a submapRadius search node) s) ∧
      (candidates.foldl (IndexedLoopBuilder.tryAddLoopEdge cfg m a submapRadius search node)
        s).1.toLoopClosureBuilder =
        candidates.foldl (fun b c => b.tryAddLoopEdge cfg m a node c) s.1.toLoopClosureBuilder := by
  induction candidates generalizing s with
  | nil => exact ⟨⟨h, rfl, rfl, fun sm hsm => Or.inl hsm⟩, rfl⟩
  | cons c rest ih =>
      obtain ⟨hc, hbuilder⟩ := h.tryAddLoopEdge cfg m a submapRadius hsearch hne node c
      obtain ⟨hrest, hbuilder'⟩ := ih hc.fresh (by rw [hc.inner]; exact hne)
      refine ⟨⟨hrest.fresh, hrest.inner.trans hc.inner, hrest.candidates.trans hc.candidates,
        fun sm hsm => ?_⟩, ?_⟩
      · rcases hrest.submaps sm hsm with hsm | ⟨hmem, hsub⟩
        · rcases hc.submaps sm hsm with hsm | ⟨hmem, hsub⟩
          · exact Or.inl hsm
          · obtain hmem := List.mem_singleton.mp hmem
            exact Or.inr ⟨List.mem_cons.mpr (Or.inl hmem), hsub⟩
        · rw [hc.inner] at hsub
          exact Or.inr ⟨List.mem_cons_of_mem c hmem, hsub⟩
      · rw [List.foldl_cons, List.foldl_cons, hbuilder', hbuilder]

theorem findLoopCandidates_eq (nodes : List (PoseNode R)) (node : PoseNode R) :
    LoopClosureBuilder.findLoopCandidates cfg nodes node = loopCandidates cfg nodes node := by
  refine List.filter_congr fun n _ => ?_
  unfold Near
  simp only [pow_two, decide_eq_decide, not_lt]
  tauto

theorem loopCandidates_ordered {nodes : List (PoseNode R)} (h : Indexed nodes)
    (node : PoseNode R) :
    ((loopCandidates cfg nodes node).map PoseNode.index).Pairwise (· < ·) := by
  have hall : (nodes.map PoseNode.index).Pairwise (· < ·) := by
    rw [show nodes.map PoseNode.index = List.range nodes.length from h]
    exact List.pairwise_lt_range
  exact hall.sublist (List.filter_sublist.map _)

theorem Fresh.addScan (h : b.Fresh) (hsearch : Exact withinSq search) (scan : Option (ScanData R))
    (odom : OdomData R) :
    (b.addScan cfg m a submapRadius search scan odom).1.Fresh ∧
      (b.addScan cfg m a submapRadius search scan odom).1.toLoopClosureBuilder =
        (b.toLoopClosureBuilder.addScan cfg m a scan odom).1 ∧
      ∀ node found,
        (b.addScan cfg m a submapRadius search scan odom).2 = some (node, found) →
          SearchedByHand cfg submapRadius (b.addScan cfg m a submapRadius search scan odom).1
            node found := by
  unfold IndexedLoopBuilder.addScan LoopClosureBuilder.addScan
  rcases b.inner.addScan_spec cfg m a scan odom h.indexed with
    hnone | ⟨inner, node, seq, near, hsome, hnodes, -, hkey⟩
  · rw [hnone]
    exact ⟨h, rfl, fun _ _ heq => by cases heq⟩
  · rw [hsome]
    dsimp only
    -- the new node is cached, and the tree has to be built again
    have hadded : ({ b with
        inner := inner
        allNodesCache := b.allNodesCache ++ [node]
        dirty := true } : IndexedLoopBuilder R).Fresh := by
      refine ⟨?_, ?_, fun hdirty => Bool.noConfusion hdirty⟩
      · rw [hnodes]
        exact h.indexed.append hkey.index
      · rw [hnodes, h.cache]
    have hne : inner.nodes ≠ [] := by
      rw [hnodes]
      exact List.append_ne_nil_of_right_ne_nil _ (List.cons_ne_nil _ _)
    obtain ⟨hfresh, hbuilder, hcandidates⟩ :=
      hadded.findLoopCandidates cfg hsearch node
    have hinner := congrArg LoopClosureBuilder.inner hbuilder
    obtain ⟨htried, htriedBuilder⟩ := Fresh.foldl_tryAddLoopEdge cfg m a submapRadius
      (s := (_, ⟨loopCandidates cfg inner.nodes node, []⟩)) hfresh hsearch
      (by rw [hinner]; exact hne) node (loopCandidates cfg inner.nodes node)
    have hplain : LoopClosureBuilder.findLoopCandidates cfg (b.allNodesCache ++ [node]) node =
        loopCandidates cfg inner.nodes node := by
      rw [findLoopCandidates_eq, h.cache, hnodes]
    rw [hcandidates]
    refine ⟨htried.fresh, ?_, fun node' found heq => ?_⟩
    · rw [htriedBuilder, hplain]
      exact congrArg (fun c => (loopCandidates cfg inner.nodes node).foldl
        (fun b c => b.tryAddLoopEdge cfg m a node c) c) hbuilder
    · obtain ⟨rfl, rfl⟩ := Prod.mk.inj (Option.some.inj heq)
      have hnow := htried.inner.trans hinner
      refine ⟨?_, ?_, fun sm hsm => ?_⟩
      · rw [htried.candidates, hnow]
      · rw [htried.candidates]
        exact loopCandidates_ordered hadded.indexed node
      · rcases htried.submaps sm hsm with hsm | ⟨hmem, hsub⟩
        · cases hsm
        · rw [htried.candidates, hnow]
          rw [hinner] at hsub
          exact ⟨hmem, hsub⟩

theorem Fresh.step (h : b.Fresh) (hsearch : Exact withinSq search) (call : LoopCall R) :
    (b.step cfg m submapRadius search call).Fresh := by
  cases call with
  | addScan a scan odom => exact (h.addScan hsearch scan odom).1
  | replaceNodes poses => exact h.replaceNodes poses

variable (cfg m submapRadius) in
theorem fresh_run (hsearch : Exact withinSq search) (calls : List (LoopCall R)) :
    (run cfg m submapRadius search calls).Fresh := by
  induction calls using List.reverseRecOn with
  | nil => exact fresh_new
  | append_singleton calls call ih =>
      rw [run, List.foldl_append]
      exact ih.step hsearch call

/-- The builder behaves as the one without a tree. -/
theorem run_toLoopClosureBuilder (hsearch : Exact withinSq search) (calls : List (LoopCall R)) :
    (run cfg m submapRadius search calls).toLoopClosureBuilder =
      calls.foldl (LoopClosureBuilder.step cfg m) .new := by
  induction calls using List.reverseRecOn with
  | nil => rfl
  | append_singleton calls call ih =>
      have hfresh := fresh_run cfg m submapRadius hsearch calls
      rw [run, List.foldl_append, List.foldl_append, ← ih]
      cases call with
      | addScan a scan odom => exact (hfresh.addScan hsearch scan odom).2.1
      | replaceNodes poses => rfl

/-- After any calls nothing is stale, and what an `add_scan` then looks at is what a search
through the nodes of the inner builder finds. -/
theorem addScan_searches_by_hand (cfg : SlamConfig R) (m : Numerics R) (submapRadius : R)
    (search : Search (R × R) ((R × R) × R)) (hsearch : Exact withinSq search)
    (calls : List (LoopCall R)) :
    let b := run cfg m submapRadius search calls
    b.Fresh ∧ ∀ a scan odom node found,
      (b.addScan cfg m a submapRadius search scan odom).2 = some (node, found) →
        SearchedByHand cfg submapRadius (b.addScan cfg m a submapRadius search scan odom).1
          node found :=
  ⟨fresh_run cfg m submapRadius hsearch calls, fun _ scan odom =>
    ((fresh_run cfg m submapRadius hsearch calls).addScan hsearch scan odom).2.2⟩

section MovedNodes

/-- A tree that goes on finding the positions it was built from. -/
def frozenSearch : Search (ℚ × ℚ) ((ℚ × ℚ) × ℚ) := fun built _ q => places (withinSq q) built

/-- No reference, and loop matches that agree with the guess. -/
def agreeingLoops : Matchers ℚ where
  reference := false
  seqMatch guess := ⟨guess.x, guess.y, guess.yaw, false, diag3 0 0 0, 0⟩
  targetCloud _ := false
  nearMatch _ guess := ⟨guess.x, guess.y, guess.yaw, false, diag3 0 0 0, 0⟩
  sortRank := id
  submap _ := true
  loopMatch _ guess := ⟨guess.x, guess.y, guess.yaw, true, diag3 100 100 100, 0⟩

def closeLoops : SlamConfig ℚ :=
  let d : SlamConfig ℚ := .defaults
  { d with loopClosure := { d.loopClosure with minNodeGap := 1 } }

/-- Two nodes a metre apart, and an optimization that takes the second one ten metres away. -/
def movedApart : List (LoopCall ℚ) :=
  [.addScan agreeingLoops (some ⟨0⟩) ⟨0, 0, 0, 0⟩, .addScan agreeingLoops (some ⟨1⟩) ⟨1, 1, 0, 0⟩,
    .replaceNodes fun i => ⟨10 * i, 0, 0⟩]

/-- The third node sees the second one where it is now, and not the first one. -/
theorem addScan_searches_by_hand_moved :
    ∃ node found,
      ((run closeLoops .axis 5 frozenSearch movedApart).addScan closeLoops .axis agreeingLoops 5
        frozenSearch (some ⟨2⟩) ⟨2, 2, 0, 0⟩).2 = some (node, found) ∧
      found.candidates.map PoseNode.index = [1] ∧
      (found.submaps.map fun sm => sm.2.map fun l => l.map PoseNode.index) = [some [1, 2]] ∧
      SearchedByHand closeLoops 5
        ((run closeLoops .axis 5 frozenSearch movedApart).addScan closeLoops .axis agreeingLoops 5
          frozenSearch (some ⟨2⟩) ⟨2, 2, 0, 0⟩).1 node found := by
  have hsearch : Exact withinSq frozenSearch := fun _ _ => List.Perm.refl _
  have hdecided : (((run closeLoops .axis 5 frozenSearch movedApart).addScan closeLoops .axis
      agreeingLoops 5 frozenSearch (some ⟨2⟩) ⟨2, 2, 0, 0⟩).2.any fun r =>
        decide (r.2.candidates.map PoseNode.index = [1] ∧
          (r.2.submaps.map fun sm => sm.2.map fun l => l.map PoseNode.index) = [some [1, 2]])) =
      true := by decide +kernel
  obtain ⟨⟨node, found⟩, hr, hp⟩ := (Option.any_eq_true _ _).mp hdecided
  obtain ⟨hcand, hsub⟩ := of_decide_eq_true hp
  exact ⟨node, found, hr, hcand, hsub,
    (addScan_searches_by_hand closeLoops .axis 5 frozenSearch hsearch movedApart).2 agreeingLoops
      _ _ node found hr⟩

end MovedNodes

end IndexedLoopBuilder

end MgRobot.Slam

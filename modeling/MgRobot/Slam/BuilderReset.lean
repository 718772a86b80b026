import MgRobot.Slam.LeftoverKeyframes
import MgRobot.Slam.LoopSearchRuns

/-!
# A builder after `reset`

All that `reset` clears is as in a new builder. The reference provider is not reset: the
builder goes on as a new one as long as no keyframe with points is left over in it.
-/

namespace MgRobot.Slam

set_option autoImplicit false

/-- Builders that differ in their counts only. -/
structure ScanMatchingBuilder.SameTrack {R : Type*} (b b' : ScanMatchingBuilder R) : Prop where
  nodes : b.nodes = b'.nodes
  edges : b.edges = b'.edges
  lastOdom : b.lastOdom = b'.lastOdom

/-- Loop closures that differ in the counts of the inner builder, and in a tree that is dirty. -/
structure IndexedLoopBuilder.SameLoop {R : Type*} (b b' : IndexedLoopBuilder R) : Prop where
  inner : b.inner.SameTrack b'.inner
  loopEdges : b.loopEdges = b'.loopEdges
  cache : b.allNodesCache = b'.allNodesCache
  attempts : b.loopAttemptCount = b'.loopAttemptCount
  successes : b.loopSuccessCount = b'.loopSuccessCount
  dirty : b.dirty = b'.dirty
  tree : b.dirty = false → b.tree = b'.tree

namespace LoopClosureSystem

/-- `get_nodes`, the edges of the inner builder and `get_loop_edges` are the same. -/
def SameGraph {R : Type*} (s t : LoopClosureSystem R) : Prop :=
  s.loop.inner.nodes = t.loop.inner.nodes ∧ s.loop.inner.edges = t.loop.inner.edges ∧
    s.loop.loopEdges = t.loop.loopEdges

/-- Systems that go on alike. -/
structure Similar {R : Type*} (s t : LoopClosureSystem R) : Prop where
  loop : s.loop.SameLoop t.loop
  scans : s.scans = t.scans
  targets : s.targets = t.targets
  provider : s.provider.Alike (s.loop.inner.nodes ≠ []) t.provider

end LoopClosureSystem

open MgRobot.Lib.PointIndex

variable {R : Type*} [Field R] [LinearOrder R] {cfg : SlamConfig R} {m : Numerics R}

namespace ScanMatchingBuilder

variable {a a' : Matchers R} {b b' : ScanMatchingBuilder R}

theorem addScan_outcome (b : ScanMatchingBuilder R) (scan : Option (ScanData R))
    (odom : OdomData R) : b.addScan cfg m a scan odom = (b, none) ∨
      ∃ b' node, b.addScan cfg m a scan odom = (b', some node) ∧ b'.nodes = b.nodes ++ [node] := by
  rcases b.addScan_cases cfg m a scan odom with hs | ⟨data, hn, hs⟩ |
    ⟨b', data, prev, last, node, hs, hm⟩
  · exact Or.inl hs
  · refine Or.inr ⟨_, _, hs, ?_⟩
    rw [hn]
    rfl
  · exact Or.inr ⟨b', node, hs, hm.nodes⟩

/-- Without nodes, no matcher is asked. -/
theorem SameTrack.addScan (h : b.SameTrack b') (ha : b.nodes ≠ [] → a = a')
    (scan : Option (ScanData R)) (odom : OdomData R) :
    (b.addScan cfg m a scan odom).1.SameTrack (b'.addScan cfg m a' scan odom).1 ∧
      (b.addScan cfg m a scan odom).2 = (b'.addScan cfg m a' scan odom).2 := by
  obtain ⟨nodes, edges, lastOdom, n₁, n₂, n₃⟩ := b
  obtain ⟨nodes', edges', lastOdom', n₁', n₂', n₃'⟩ := b'
  obtain ⟨rfl, rfl, rfl⟩ := h
  unfold ScanMatchingBuilder.addScan
  cases scan with
  | none => exact ⟨⟨rfl, rfl, rfl⟩, rfl⟩
  | some scan =>
      dsimp only
      rcases hp : nodes.getLast? with _ | prev
      · exact ⟨⟨rfl, rfl, rfl⟩, rfl⟩
      · have hne : nodes ≠ [] := fun hnil => by simp [hnil] at hp
        obtain rfl := ha hne
        cases lastOdom with
        | none => exact ⟨⟨rfl, rfl, rfl⟩, rfl⟩
        | some last =>
            dsimp only
            by_cases hk : belowKeyframe cfg m last odom
            · rw [if_pos hk, if_pos hk]
              exact ⟨⟨rfl, rfl, rfl⟩, rfl⟩
            · rw [if_neg hk, if_neg hk]
              exact ⟨⟨rfl, rfl, rfl⟩, rfl⟩

variable (cfg m a) in
/-- A scan far enough on makes an edge from the sequential match. -/
theorem addScan_next {prev : PoseNode R} {last : OdomData R} (hp : b.nodes.getLast? = some prev)
    (hl : b.lastOdom = some last) (data : ScanData R) {odom : OdomData R}
    (hk : ¬ belowKeyframe cfg m last odom) :
    ∃ guess b' node e rest, b.addScan cfg m a (some data) odom = (b', some node) ∧
      b'.edges = b.edges ++ e :: rest ∧
      e.information = (sequentialMatch cfg m a guess).information ∧
      e.isOdomFallback = (sequentialMatch cfg m a guess).isOdomFallback := by
  unfold addScan
  rw [hp, hl]
  dsimp only
  rw [if_neg hk]
  exact ⟨_, _, _, _, _, rfl, rfl, rfl, rfl⟩

end ScanMatchingBuilder

namespace IndexedLoopBuilder

open LoopClosureSystem

variable {a : Matchers R} {L : LoopSetup R} {b b' : IndexedLoopBuilder R}

omit [Field R] [LinearOrder R] in
theorem ensureNodeKdtree_dirty (b : IndexedLoopBuilder R) : b.ensureNodeKdtree.dirty = false := by
  unfold ensureNodeKdtree
  split_ifs with hclean
  · rw [Bool.and_eq_true, Bool.not_eq_true'] at hclean
    exact hclean.1
  · rfl
  · rfl

omit [Field R] [LinearOrder R] in
/-- After `ensure_node_kdtree` the trees are the same. -/
theorem SameLoop.ensureNodeKdtree (h : b.SameLoop b') :
    b.ensureNodeKdtree.SameLoop b'.ensureNodeKdtree := by
  have hguard : (!b.dirty && b.tree.isSome) = (!b'.dirty && b'.tree.isSome) := by
    cases hd : b.dirty with
    | true => rw [← h.dirty, hd]; rfl
    | false => rw [← h.dirty, hd, h.tree hd]
  unfold IndexedLoopBuilder.ensureNodeKdtree
  rw [← hguard, ← h.cache]
  split_ifs
  · exact h
  · exact ⟨h.inner, h.loopEdges, h.cache, h.attempts, h.successes, rfl, fun _ => rfl⟩
  · exact ⟨h.inner, h.loopEdges, h.cache, h.attempts, h.successes, rfl, fun _ => rfl⟩

omit [LinearOrder R] in
theorem SameLoop.radiusNodes (h : b.SameLoop b') : b.radiusNodes L.radiusSearch =
    b'.radiusNodes L.radiusSearch := by
  unfold IndexedLoopBuilder.radiusNodes
  rw [h.cache]

omit [LinearOrder R] in
theorem SameLoop.findLoopCandidates (h : b.SameLoop b') (node : PoseNode R) :
    (b.findLoopCandidates cfg L.radiusSearch node).1.SameLoop
        (b'.findLoopCandidates cfg L.radiusSearch node).1 ∧
      (b.findLoopCandidates cfg L.radiusSearch node).2 =
        (b'.findLoopCandidates cfg L.radiusSearch node).2 := by
  have hens := h.ensureNodeKdtree
  unfold IndexedLoopBuilder.findLoopCandidates
  rw [← h.cache]
  split_ifs
  · exact ⟨h, rfl⟩
  · dsimp only
    rw [← hens.tree (ensureNodeKdtree_dirty b), hens.radiusNodes]
    cases b.ensureNodeKdtree.tree with
    | none => exact ⟨hens, rfl⟩
    | some built => exact ⟨hens, rfl⟩

theorem SameLoop.candidateSubmap (h : b.SameLoop b') (candidate : PoseNode R) :
    (b.candidateSubmap L.submapRadius L.radiusSearch candidate).1.SameLoop
        (b'.candidateSubmap L.submapRadius L.radiusSearch candidate).1 ∧
      (b.candidateSubmap L.submapRadius L.radiusSearch candidate).2 =
        (b'.candidateSubmap L.submapRadius L.radiusSearch candidate).2 := by
  have hens := h.ensureNodeKdtree
  unfold IndexedLoopBuilder.candidateSubmap
  split_ifs
  · exact ⟨h, rfl⟩
  · dsimp only
    rw [← hens.tree (ensureNodeKdtree_dirty b), hens.radiusNodes]
    cases b.ensureNodeKdtree.tree with
    | none => exact ⟨hens, rfl⟩
    | some built => exact ⟨hens, rfl⟩

/-- The inner builder has no part in a try. -/
theorem SameLoop.of_builder (h : b.SameLoop b') (node candidate : PoseNode R) :
    ({ b with toLoopClosureBuilder := b.toLoopClosureBuilder.tryAddLoopEdge cfg m a node candidate } :
      IndexedLoopBuilder R).SameLoop
      { b' with
        toLoopClosureBuilder := b'.toLoopClosureBuilder.tryAddLoopEdge cfg m a node candidate } := by
  obtain ⟨⟨inner, loopEdges, cache, attempts, successes⟩, tree, dirty⟩ := b
  obtain ⟨⟨inner', loopEdges', cache', attempts', successes'⟩, tree', dirty'⟩ := b'
  obtain ⟨hinner, rfl, rfl, rfl, rfl, rfl, htree⟩ := h
  unfold LoopClosureBuilder.tryAddLoopEdge
  dsimp only
  split_ifs
  · exact ⟨hinner, rfl, rfl, rfl, rfl, rfl, htree⟩
  · exact ⟨hinner, rfl, rfl, rfl, rfl, rfl, htree⟩
  · exact ⟨hinner, rfl, rfl, rfl, rfl, rfl, htree⟩

theorem SameLoop.tryCandidate {s s' : IndexedLoopBuilder R × LoopSearch R}
    (h : s.1.SameLoop s'.1) (hs : s.2 = s'.2) (scans : List (BeamScan R)) (scan : BeamScan R)
    (node candidate : PoseNode R) :
    (LoopClosureSystem.tryCandidate m L scans scan node s candidate).1.SameLoop
        (LoopClosureSystem.tryCandidate m L scans scan node s' candidate).1 ∧
      (LoopClosureSystem.tryCandidate m L scans scan node s candidate).2 =
        (LoopClosureSystem.tryCandidate m L scans scan node s' candidate).2 := by
  obtain ⟨hloop, hsubmap⟩ := h.candidateSubmap (L := L) candidate
  unfold LoopClosureSystem.tryCandidate IndexedLoopBuilder.tryAddLoopEdge
  dsimp only
  rw [← h.loopEdges, ← h.cache, ← hsubmap, ← hs]
  split_ifs
  · exact ⟨h, hs⟩
  · exact ⟨hloop.of_builder node candidate, rfl⟩

theorem SameLoop.closeLoops (h : b.SameLoop b') (scans : List (BeamScan R)) (scan : BeamScan R)
    (node : PoseNode R) :
    (LoopClosureSystem.closeLoops m L scans scan b node).SameLoop
      (LoopClosureSystem.closeLoops m L scans scan b' node) := by
  have hfold (candidates : List (PoseNode R)) {s s' : IndexedLoopBuilder R × LoopSearch R}
      (hs : s.1.SameLoop s'.1) (hs' : s.2 = s'.2) :
      (candidates.foldl (LoopClosureSystem.tryCandidate m L scans scan node) s).1.SameLoop
        (candidates.foldl (LoopClosureSystem.tryCandidate m L scans scan node) s').1 := by
    induction candidates generalizing s s' with
    | nil => exact hs
    | cons c rest ih =>
        obtain ⟨hc, hc'⟩ := hs.tryCandidate (m := m) (L := L) hs' scans scan node c
        exact ih hc hc'
  obtain ⟨hfound, hcandidates⟩ := h.findLoopCandidates (L := L) node
  unfold LoopClosureSystem.closeLoops
  dsimp only
  rw [← hcandidates]
  exact hfold _ hfound rfl

end IndexedLoopBuilder

namespace LoopClosureSystem

variable {L : LoopSetup R} {s t : LoopClosureSystem R}

theorem Similar.addScan (h : s.Similar t) (scan : Option (ScanData R × BeamScan R))
    (odom : OdomData R) : (s.addScan m L scan odom).Similar (t.addScan m L scan odom) := by
  cases scan with
  | none => exact h
  | some scan =>
      obtain ⟨data, beams⟩ := scan
      have ha : s.loop.inner.nodes ≠ [] →
          seqMatchers L (s.provider.getReferencePtsAndNormals m) beams =
            seqMatchers L (t.provider.getReferencePtsAndNormals m) beams := by
        intro hne
        rw [h.provider.getReference hne]
      obtain ⟨htrack, hnode⟩ := h.loop.inner.addScan (m := m) ha
        (some data) odom
      unfold LoopClosureSystem.addScan
      dsimp only
      rcases ht : t.loop.inner.addScan L.config.withoutLinks m
        (seqMatchers L (t.provider.getReferencePtsAndNormals m) beams) (some data) odom with
        ⟨inner', node'⟩
      rcases ScanMatchingBuilder.addScan_outcome (m := m)
        (a := seqMatchers L (s.provider.getReferencePtsAndNormals m) beams) s.loop.inner (some data)
        odom with hs | ⟨inner, node, hs, -⟩
      · rw [hs, ht] at htrack hnode
        obtain rfl : none = node' := hnode
        rw [hs]
        have hloop := h.loop
        exact ⟨⟨htrack, hloop.loopEdges, hloop.cache, hloop.attempts, hloop.successes, hloop.dirty,
          hloop.tree⟩, h.scans, h.targets, h.provider⟩
      · rw [hs, ht] at htrack hnode
        obtain rfl : some node = node' := hnode
        rw [hs]
        dsimp only at htrack ⊢
        have hlinks : s.links m L (s.scans ++ [beams]) beams inner.nodes node =
            t.links m L (t.scans ++ [beams]) beams inner'.nodes node := by
          unfold links
          rw [h.loop.inner.nodes, h.targets, h.scans, htrack.nodes]
        rw [hlinks, h.scans]
        refine ⟨IndexedLoopBuilder.SameLoop.closeLoops ?_ _ _ _, rfl, rfl, ?_⟩
        · refine ⟨⟨htrack.nodes, ?_, htrack.lastOdom⟩, h.loop.loopEdges, ?_, h.loop.attempts,
            h.loop.successes, rfl, fun hd => Bool.noConfusion hd⟩
          · dsimp only
            rw [htrack.edges]
          · dsimp only
            rw [h.loop.cache]
        · have hscan : (asScanNode m node (some beams)).scan = some beams := rfl
          exact (h.provider.update hscan).of_imp fun _ => trivial

theorem Similar.replaceNodes (h : s.Similar t) (poses : Nat → Pose R) :
    (s.replaceNodes m poses).Similar (t.replaceNodes m poses) := by
  have hloop := h.loop
  unfold LoopClosureSystem.replaceNodes
  dsimp only
  rw [← hloop.inner.nodes, ← h.scans]
  refine ⟨⟨⟨rfl, hloop.inner.edges, hloop.inner.lastOdom⟩, hloop.loopEdges, ?_, hloop.attempts,
    hloop.successes, rfl, fun hd => Bool.noConfusion hd⟩, rfl, h.targets, ?_⟩
  · show s.loop.allNodesCache.map _ = t.loop.allNodesCache.map _
    rw [hloop.cache]
  · have hu : s.loop.inner.nodes.map (fun n => n.withPose (poses n.index)) ≠ [] →
        s.loop.inner.nodes ≠ [] := by
      intro hne hnil
      exact hne (by rw [hnil]; rfl)
    refine (h.provider.syncPoses fun hne => hu fun hnil => hne ?_).of_imp hu
    rw [hnil]
    rfl

omit [Field R] [LinearOrder R] in
theorem Similar.reset (h : s.Similar t) : s.reset.Similar t.reset where
  loop := ⟨⟨rfl, rfl, rfl⟩, rfl, rfl, rfl, rfl, rfl, fun hd => Bool.noConfusion hd⟩
  scans := rfl
  targets := rfl
  provider := h.provider.of_imp fun hne => absurd rfl hne

theorem Similar.run (h : s.Similar t) (inputs : List (BuilderInput R)) :
    (run m L inputs s).Similar (run m L inputs t) := by
  induction inputs generalizing s t with
  | nil => exact h
  | cons input rest ih =>
      cases input with
      | addScan scan odom => exact ih (h.addScan scan odom)
      | replaceNodes poses => exact ih (h.replaceNodes poses)
      | reset => exact ih h.reset

omit [Field R] [LinearOrder R] in
theorem Similar.sameGraph (h : s.Similar t) : s.SameGraph t :=
  ⟨h.loop.inner.nodes, h.loop.inner.edges, h.loop.loopEdges⟩

/-- The provider stays one of its kind. -/
theorem madeFor_run (inputs : List (BuilderInput R)) :
    (run m L inputs (new L)).provider.MadeFor L.reference := by
  induction inputs using List.reverseRecOn with
  | nil => exact ReferenceProvider.madeFor_new L.reference
  | append_singleton inputs input ih =>
      unfold LoopClosureSystem.run at ih ⊢
      rw [List.foldl_append]
      generalize inputs.foldl (step m L) (new L) = s at ih ⊢
      cases input with
      | addScan scan odom =>
          show (s.addScan m L scan odom).provider.MadeFor L.reference
          unfold LoopClosureSystem.addScan
          split
          · exact ih
          · dsimp only
            split
            · exact ih
            · dsimp only
              exact ih.update _
      | replaceNodes poses => exact ih.syncPoses _
      | reset => exact ih

omit [Field R] [LinearOrder R] in
/-- After a reset that leaves no points over, the builder is like a new one. -/
theorem similar_reset (hmade : s.provider.MadeFor L.reference) (h : s.provider.LeavesNoPoints) :
    s.reset.Similar (new L) where
  loop := ⟨⟨rfl, rfl, rfl⟩, rfl, rfl, rfl, rfl, rfl, fun hd => Bool.noConfusion hd⟩
  scans := rfl
  targets := rfl
  provider := (hmade.alike_new h).of_imp fun hne => absurd rfl hne

section Keeps

/-- The inner builder is no part of the search for loops. -/
theorem closeLoops_inner (scans : List (BeamScan R)) (scan : BeamScan R)
    (b : IndexedLoopBuilder R) (node : PoseNode R) :
    (closeLoops m L scans scan b node).inner = b.inner := by
  have hsubmap (b : IndexedLoopBuilder R) (c : PoseNode R) :
      (b.candidateSubmap L.submapRadius L.radiusSearch c).1.inner = b.inner := by
    unfold IndexedLoopBuilder.candidateSubmap
    split_ifs
    · rfl
    · dsimp only
      split <;> exact congrArg LoopClosureBuilder.inner b.ensureNodeKdtree_builder
  have htry (s : IndexedLoopBuilder R × LoopSearch R) (c : PoseNode R) :
      (tryCandidate m L scans scan node s c).1.inner = s.1.inner := by
    unfold tryCandidate IndexedLoopBuilder.tryAddLoopEdge
    dsimp only
    split_ifs
    · rfl
    · exact (LoopClosureBuilder.tryAddLoopEdge_kept ..).1.trans (hsubmap s.1 c)
  have hfold (cs : List (PoseNode R)) (s : IndexedLoopBuilder R × LoopSearch R) :
      (cs.foldl (tryCandidate m L scans scan node) s).1.inner = s.1.inner := by
    induction cs generalizing s with
    | nil => rfl
    | cons c rest ih => rw [List.foldl_cons, ih, htry]
  unfold closeLoops
  dsimp only
  rw [hfold]
  unfold IndexedLoopBuilder.findLoopCandidates
  split_ifs
  · rfl
  · dsimp only
    split <;> exact congrArg LoopClosureBuilder.inner b.ensureNodeKdtree_builder

/-- The first scan makes a node, and the provider gets it. -/
theorem addScan_first (hs : s.loop.inner.nodes = []) (data : ScanData R) (beams : BeamScan R)
    (odom : OdomData R) :
    let t := s.addScan m L (some (data, beams)) odom
    t.loop.inner.nodes = [firstNode data odom] ∧ t.loop.inner.lastOdom = some odom ∧
      t.loop.inner.edges = s.loop.inner.edges ∧
      t.provider = s.provider.update m (asScanNode m (firstNode data odom) (some beams)) := by
  have hadd (a : Matchers R) : s.loop.inner.addScan L.config.withoutLinks m a (some data) odom =
      ({ s.loop.inner with nodes := [firstNode data odom], lastOdom := some odom },
        some (firstNode data odom)) := by
    unfold ScanMatchingBuilder.addScan
    rw [hs]
    rfl
  have hlinks (scans : List (BeamScan R)) (nodes : List (PoseNode R)) :
      s.links m L scans beams nodes (firstNode data odom) = ([], s.targets) := by
    unfold links
    rw [hs]
    rfl
  unfold addScan
  dsimp only
  rw [hadd]
  dsimp only
  rw [closeLoops_inner, hlinks]
  exact ⟨rfl, rfl, List.append_nil _, rfl⟩

/-- A scan far enough on makes an edge, from a match if the provider has a reference. -/
theorem addScan_next {prev : PoseNode R} {last : OdomData R}
    (hp : s.loop.inner.nodes.getLast? = some prev) (hl : s.loop.inner.lastOdom = some last)
    (data : ScanData R) (beams : BeamScan R) {odom : OdomData R}
    (hk : ¬ belowKeyframe L.config m last odom) :
    let a := seqMatchers L (s.provider.getReferencePtsAndNormals m) beams
    ∃ guess e rest, (s.addScan m L (some (data, beams)) odom).loop.inner.edges =
        s.loop.inner.edges ++ e :: rest ∧
      e.information =
        (ScanMatchingBuilder.sequentialMatch L.config.withoutLinks m a guess).information ∧
      e.isOdomFallback =
        (ScanMatchingBuilder.sequentialMatch L.config.withoutLinks m a guess).isOdomFallback := by
  intro a
  obtain ⟨guess, b, node, e, rest, hadd, hedges, hinfo, hfallback⟩ :=
    ScanMatchingBuilder.addScan_next L.config.withoutLinks m a hp hl data hk
  unfold addScan
  dsimp only
  rw [hadd]
  dsimp only
  rw [closeLoops_inner]
  dsimp only
  rw [hedges, List.append_assoc, List.cons_append]
  exact ⟨guess, e, _, rfl, hinfo, hfallback⟩

end Keeps

section Probe

/-- How an edge shows that there was a reference: a match, or the weak information of a failure. -/
def FromReference (e : PoseEdge R) : Prop :=
  e.isOdomFallback = false ∨ e.information = makeOdomFallbackInformation

theorem sequentialMatch_reference {a : Matchers R} (guess : OdomData R) (h : a.reference = true) :
    (ScanMatchingBuilder.sequentialMatch cfg m a guess).isOdomFallback = false ∨
      (ScanMatchingBuilder.sequentialMatch cfg m a guess).information =
        makeOdomFallbackInformation := by
  have hclamp (dx dyaw : R) (sm : SeqMatch R) :
      (ScanMatchingBuilder.clampDrift cfg dx dyaw sm).isOdomFallback = sm.isOdomFallback := by
    unfold ScanMatchingBuilder.clampDrift
    dsimp only
    split_ifs <;> rfl
  unfold ScanMatchingBuilder.sequentialMatch
  rw [if_pos h]
  dsimp only
  split_ifs
  · exact Or.inl (hclamp _ _ _)
  · exact Or.inr rfl

theorem sequentialMatch_no_reference {a : Matchers R} (guess : OdomData R)
    (h : a.reference = false) :
    (ScanMatchingBuilder.sequentialMatch cfg m a guess).isOdomFallback = true ∧
      (ScanMatchingBuilder.sequentialMatch cfg m a guess).information = makeOdomInformation := by
  unfold ScanMatchingBuilder.sequentialMatch
  rw [h]
  exact ⟨rfl, rfl⟩

/-- A scan without beams. -/
def noBeams : BeamScan ℝ := ⟨[], 0, 0, 0, 0, 0, 0, []⟩

/-- Two scans without a single point, the first one taken at `q`. -/
noncomputable def probe (L : LoopSetup ℝ) (q : ℝ × ℝ) : List (BuilderInput ℝ) :=
  [.addScan (some (⟨0⟩, noBeams)) ⟨0, q.1, q.2, 0⟩,
    .addScan (some (⟨1⟩, noBeams)) ⟨1, q.1 + |L.config.keyframe.minTranslation|, q.2, 0⟩]

/-- The probe makes one sequential edge; it tells whether there was a reference at `q`. -/
theorem run_probe {m : Numerics ℝ} (hm : m.Exact) {L : LoopSetup ℝ} {s : LoopClosureSystem ℝ}
    (hs : s.loop.inner.nodes = []) (he : s.loop.inner.edges = []) (q : ℝ × ℝ) :
    let p := s.provider.update m
      (asScanNode m (firstNode ⟨0⟩ ⟨0, q.1, q.2, 0⟩) (some noBeams))
    ∃ e rest, (run m L (probe L q) s).loop.inner.edges = e :: rest ∧
      (p.getReferencePtsAndNormals m ≠ none → FromReference e) ∧
      (p.getReferencePtsAndNormals m = none → ¬ FromReference e) := by
  intro p
  obtain ⟨hnodes, hlast, hedges, hprovider⟩ := addScan_first (m := m) (L := L) hs ⟨0⟩ noBeams
    ⟨0, q.1, q.2, 0⟩
  have hfar : ¬ belowKeyframe L.config m ⟨0, q.1, q.2, 0⟩
      ⟨1, q.1 + |L.config.keyframe.minTranslation|, q.2, 0⟩ := by
    intro hbelow
    have hlt := hbelow.1
    rw [hm.hypot] at hlt
    simp only [add_sub_cancel_left, sub_self, mul_zero, add_zero, Real.sqrt_mul_self_eq_abs,
      abs_abs] at hlt
    exact absurd (le_abs_self _) hlt.not_ge
  obtain ⟨guess, e, rest, hrun, hinfo, hfallback⟩ := addScan_next (m := m) (L := L)
    (by rw [hnodes]; rfl) hlast ⟨1⟩ noBeams hfar
  rw [hedges, he, List.nil_append] at hrun
  rw [hprovider] at hinfo hfallback
  refine ⟨e, rest, hrun, fun href => ?_, fun href hfrom => ?_⟩
  · unfold FromReference
    rw [hinfo, hfallback]
    exact sequentialMatch_reference guess (Option.isSome_iff_ne_none.mpr href)
  · have hnone : (seqMatchers L (p.getReferencePtsAndNormals m) noBeams).reference = false := by
      show (p.getReferencePtsAndNormals m).isSome = false
      rw [href]
      rfl
    obtain ⟨hf, hi⟩ := sequentialMatch_no_reference (m := m) guess
      hnone
    rcases hfrom with hfrom | hfrom
    · rw [hfallback, hf] at hfrom
      cases hfrom
    · rw [hinfo, hi] at hfrom
      have hentry : (100 : ℝ) = 10 := by
        simpa [makeOdomInformation, makeOdomFallbackInformation, diag3, setDiag] using
          congrFun (congrFun hfrom 0) 0
      norm_num at hentry

/-- A new provider has nothing to see in the first scan of a probe. -/
theorem reference_probe_new {m : Numerics ℝ} (reference : ScanReference ℝ) (n : PoseNode ℝ) :
    ((ReferenceProvider.new reference).update m
      (asScanNode m n (some noBeams))).getReferencePtsAndNormals m = none := by
  cases reference with
  | scanToScan => rfl
  | scanToLocalMap window radius =>
      have hkept : (LocalMapProvider.new window radius : LocalMapProvider ℝ).kept = [] := by
        unfold LocalMapProvider.kept
        split_ifs <;> rfl
      show ((LocalMapProvider.new window radius).update m
        (asScanNode m n (some noBeams))).getReferencePtsAndNormals m = none
      rw [LocalMapProvider.update_some rfl, hkept]
      rfl

/-- The point of a keyframe that stays is seen from a node that stands on it. -/
theorem reference_probe_kept {m : Numerics ℝ} {p : LocalMapProvider ℝ} {kf : CachedKeyframe ℝ}
    (hkf : kf ∈ p.kept) {q : ℝ × ℝ} (hq : q ∈ pointsLocalToWorld m kf.node.pose kf.pts)
    (data : ScanData ℝ) :
    (p.update m (asScanNode m (firstNode data ⟨0, q.1, q.2, 0⟩)
      (some noBeams))).getReferencePtsAndNormals m ≠ none := by
  rw [LocalMapProvider.update_some rfl]
  obtain ⟨i, hi⟩ := List.mem_iff_getElem?.mp hq
  have hseen (last : ScanNode ℝ) (hx : last.x = q.1) (hy : last.y = q.2) :
      p.nearPoints m last kf ≠ [] := by
    refine List.ne_nil_of_mem
      (a := (q, (normalsLocalToWorld m kf.node.yaw kf.normals).getD i (0, 1)))
      (List.mem_filterMap.mpr ⟨(q, i), List.mem_zipIdx_iff_getElem?.mpr hi, ?_⟩)
    dsimp only
    rw [hx, hy, sub_self, sub_self, mul_zero, add_zero, if_pos (mul_self_nonneg _)]
  unfold LocalMapProvider.getReferencePtsAndNormals
  dsimp only
  rw [if_neg]
  · exact Option.some_ne_none _
  · rw [List.isEmpty_iff, List.flatMap_eq_nil_iff]
    intro hall
    exact hseen _ rfl rfl (hall kf (List.mem_append_left _ hkf))

/-- A keyframe with a point that stays after the reset makes a difference. -/
theorem not_sameGraph_of_point {m : Numerics ℝ} (hm : m.Exact) {L : LoopSetup ℝ}
    {s : LoopClosureSystem ℝ} {p : LocalMapProvider ℝ} (hp : s.provider = .localMap p)
    {kf : CachedKeyframe ℝ} (hkf : kf ∈ p.kept) {q : ℝ × ℝ}
    (hq : q ∈ pointsLocalToWorld m kf.node.pose kf.pts) :
    ¬ SameGraph (run m L (probe L q) s.reset) (run m L (probe L q) (new L)) := by
  intro hsame
  obtain ⟨e, rest, hedges, hfrom, -⟩ := run_probe (L := L) (s := s.reset) hm rfl rfl q
  obtain ⟨e', rest', hedges', -, hnot⟩ := run_probe (L := L) (s := new L) hm rfl rfl q
  have heq := hsame.2.1
  rw [hedges, hedges'] at heq
  obtain ⟨rfl, -⟩ := List.cons.inj heq
  refine hnot (reference_probe_new L.reference _) (hfrom ?_)
  show (s.provider.update m _).getReferencePtsAndNormals m ≠ none
  rw [hp]
  exact reference_probe_kept hkf hq _

end Probe

section WallAhead

/-- A wall a metre ahead. -/
noncomputable def wallAhead : BeamScan ℝ := ⟨[1], 0, 0, 1 / 10, 30, 0, 0, []⟩

/-- The default configuration with a local map; every match agrees with its guess. -/
noncomputable def agreeingSetup (window : Int) : LoopSetup ℝ where
  config := .defaults
  reference := .scanToLocalMap window 30
  submapRadius := 5
  matcher := ⟨true, fun _ _ guess => ⟨guess.x, guess.y, guess.yaw, true, diag3 100 100 100, 0⟩⟩
  loopMatch _ _ _ guess := ⟨guess.x, guess.y, guess.yaw, true, diag3 100 100 100, 0⟩
  radiusSearch built _ q := places (withinSq q) built
  sortRank _ := id

/-- One scan at the origin. -/
noncomputable def oneScan : List (BuilderInput ℝ) :=
  [.addScan (some (⟨0⟩, wallAhead)) ⟨0, 0, 0, 0⟩]

/-- The keyframe of the one scan. -/
noncomputable def wallKeyframe : CachedKeyframe ℝ :=
  LocalMapProvider.keyframe .exact
    (asScanNode .exact (firstNode ⟨0⟩ ⟨0, 0, 0, 0⟩) (some wallAhead)) wallAhead

theorem provider_oneScan (window : Int) :
    (run .exact (agreeingSetup window) oneScan (new (agreeingSetup window))).provider = .localMap
      ⟨window, 30, [wallKeyframe],
        some (asScanNode .exact (firstNode ⟨0⟩ ⟨0, 0, 0, 0⟩) (some wallAhead))⟩ := by
  obtain ⟨-, -, -, hprovider⟩ := addScan_first (m := .exact) (L := agreeingSetup window)
    (s := new (agreeingSetup window)) rfl ⟨0⟩ wallAhead ⟨0, 0, 0, 0⟩
  have hkept : (LocalMapProvider.new window 30 : LocalMapProvider ℝ).kept = [] := by
    unfold LocalMapProvider.kept
    split_ifs <;> rfl
  refine hprovider.trans ?_
  show ReferenceProvider.localMap ((LocalMapProvider.new window 30).update .exact _) = _
  rw [LocalMapProvider.update_some rfl, hkept]
  rfl

/-- With the default window, the wall is still there after the reset. -/
theorem not_sameGraph_after_oneScan :
    ¬ SameGraph
      (run .exact (agreeingSetup 30) (probe (agreeingSetup 30) (1, 0))
        (run .exact (agreeingSetup 30) oneScan (new (agreeingSetup 30))).reset)
      (run .exact (agreeingSetup 30) (probe (agreeingSetup 30) (1, 0))
        (new (agreeingSetup 30))) := by
  refine not_sameGraph_of_point Numerics.exact_exact (provider_oneScan 30)
    (show wallKeyframe ∈ LocalMapProvider.kept _ by simp [LocalMapProvider.kept]) ?_
  have hpts : wallKeyframe.pts = [(1, 0)] := by
    have hpoints : scanToPoints .exact wallAhead = [(1, 0)] := by
      have hlimits : wallAhead.inLimits 1 := by
        unfold BeamScan.inLimits wallAhead
        norm_num
      unfold scanToPoints BeamScan.validBeams
      rw [show wallAhead.ranges.zipIdx = [(1, 0)] from rfl]
      rw [List.filterMap_cons, if_pos hlimits]
      simp [BeamScan.beamPoint, beamAngle, Numerics.exact, wallAhead]
    rw [wallKeyframe, LocalMapProvider.keyframe, scanCloud_fst, hpoints]
  rw [hpts]
  simp [pointsLocalToWorld, wallKeyframe, LocalMapProvider.keyframe, asScanNode, firstNode,
    ScanNode.pose, Numerics.exact]

end WallAhead

/-- A reset makes the builder as good as new exactly if no keyframe with points stays in the
reference provider. -/
theorem sameGraph_after_reset_iff {m : Numerics ℝ} (hm : m.Exact) (L : LoopSetup ℝ)
    (history : List (BuilderInput ℝ)) :
    (∀ later, SameGraph (run m L later (run m L history (new L)).reset)
        (run m L later (new L))) ↔
      (run m L history (new L)).provider.LeavesNoPoints := by
  constructor
  · intro h
    cases hp : (run m L history (new L)).provider with
    | scanToScan last => trivial
    | localMap p =>
        intro kf hkf
        by_contra hpts
        obtain ⟨pt, hpt⟩ := List.exists_mem_of_ne_nil _ hpts
        have hq : _ ∈ pointsLocalToWorld m kf.node.pose kf.pts := List.mem_map_of_mem hpt
        exact not_sameGraph_of_point hm hp hkf hq (h _)
  · intro h later
    exact ((similar_reset (madeFor_run history) h).run later).sameGraph

/-- With a window of one keyframe the wall is gone. -/
theorem sameGraph_after_reset_iff_oneScan :
    SameGraph
      (run .exact (agreeingSetup 1) (probe (agreeingSetup 1) (1, 0))
        (run .exact (agreeingSetup 1) oneScan (new (agreeingSetup 1))).reset)
      (run .exact (agreeingSetup 1) (probe (agreeingSetup 1) (1, 0)) (new (agreeingSetup 1))) := by
  refine (sameGraph_after_reset_iff Numerics.exact_exact (agreeingSetup 1) oneScan).mpr ?_ _
  rw [provider_oneScan]
  simp [ReferenceProvider.LeavesNoPoints, LocalMapProvider.kept]

end LoopClosureSystem

end MgRobot.Slam

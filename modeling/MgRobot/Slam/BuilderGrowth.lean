import MgRobot.Slam.Builders

/-!
# How a keyframe grows the pose graph

`add_scan` either leaves the builder as it is or adds one node under the next
index: the sequential edge to it, near-keyframe links and loop edges to it. The
indices of nodes and edges stay in step with the places in the lists.
-/

namespace MgRobot.Slam

set_option autoImplicit false

variable {R : Type*}

/-- Every node stands at the place of its index. -/
def Indexed (nodes : List (PoseNode R)) : Prop :=
  nodes.map (·.index) = List.range nodes.length

theorem Indexed.getElem? {nodes : List (PoseNode R)} (h : Indexed nodes) {j : Nat}
    {n : PoseNode R} (hn : nodes[j]? = some n) : n.index = j := by
  have hj := (List.getElem?_eq_some_iff.mp hn).1
  have hm : (nodes.map (·.index))[j]? = some n.index := by rw [List.getElem?_map, hn]; rfl
  rw [h, List.getElem?_range hj] at hm
  exact (Option.some.inj hm).symm

theorem Indexed.getLast? {nodes : List (PoseNode R)} (h : Indexed nodes) {n : PoseNode R}
    (hn : nodes.getLast? = some n) : n.index = nodes.length - 1 := by
  rw [List.getLast?_eq_getElem?] at hn
  exact h.getElem? hn

theorem Indexed.lt {nodes : List (PoseNode R)} (h : Indexed nodes) {n : PoseNode R}
    (hn : n ∈ nodes) : n.index < nodes.length := by
  have hm : n.index ∈ nodes.map (·.index) := List.mem_map_of_mem hn
  rw [h] at hm
  exact List.mem_range.mp hm

theorem Indexed.nodup {nodes : List (PoseNode R)} (h : Indexed nodes) :
    (nodes.map (·.index)).Nodup := by
  rw [h]
  exact List.nodup_range

theorem Indexed.append {nodes : List (PoseNode R)} (h : Indexed nodes) {n : PoseNode R}
    (hn : n.index = nodes.length) : Indexed (nodes ++ [n]) := by
  unfold Indexed at *
  rw [List.map_append, h, List.length_append, List.length_singleton, List.range_succ,
    List.map_singleton, hn]

theorem Indexed.of_map {nodes nodes' : List (PoseNode R)} (h : Indexed nodes)
    (hm : nodes'.map (·.index) = nodes.map (·.index)) : Indexed nodes' := by
  have hl : nodes'.length = nodes.length := by
    simpa using congrArg List.length hm
  unfold Indexed at *
  rw [hm, h, hl]

variable (cfg : SlamConfig R)

/-- What node `i` brings: the sequential edge to it (none to the first node) and the
near-keyframe links to it. -/
structure Keyframe (i : Nat) (node : PoseNode R) (seq near : List (PoseEdge R)) : Prop where
  index : node.index = i
  first : i = 0 → seq = [] ∧ near = []
  seqEdge : 0 < i → ∃ e, seq = [e] ∧ e.ends = (i - 1, i)
  links : ∀ e ∈ near, e.toIndex = i ∧
    (e.fromIndex : Int) ≤ i - cfg.scanMatching.nearLinks.minIndexDiff
  /-- A negative `min_index_diff` turns the links off. -/
  diff : near ≠ [] → 0 ≤ cfg.scanMatching.nearLinks.minIndexDiff

theorem keyframe_first (scan : ScanData R) (odom : OdomData R) :
    Keyframe cfg 0 (firstNode scan odom) [] [] where
  index := rfl
  first _ := ⟨rfl, rfl⟩
  seqEdge h := absurd h (lt_irrefl 0)
  links _ he := absurd he List.not_mem_nil
  diff h := absurd rfl h

theorem keyframe_next {nodes : List (PoseNode R)} {prev node : PoseNode R} {edge : PoseEdge R}
    {near : List (PoseEdge R)} (h : Indexed nodes) (hp : nodes.getLast? = some prev)
    (hi : node.index = nodes.length) (he : edge.ends = (prev.index, nodes.length))
    (hn : ∀ e ∈ near, e.toIndex = node.index ∧
      (e.fromIndex : Int) ≤ node.index - cfg.scanMatching.nearLinks.minIndexDiff ∧
      0 ≤ cfg.scanMatching.nearLinks.minIndexDiff) :
    Keyframe cfg nodes.length node [edge] near where
  index := hi
  first h0 := by
    rw [List.length_eq_zero_iff.mp h0] at hp
    cases hp
  seqEdge _ := ⟨edge, rfl, by rw [he, h.getLast? hp]⟩
  links e he := by
    have hl := hn e he
    rw [hi] at hl
    exact ⟨hl.1, hl.2.1⟩
  diff hne := by
    obtain ⟨e, he⟩ := List.exists_mem_of_ne_nil near hne
    exact (hn e he).2.2

/-- The loop edges of node `i` come from nodes at least `min_node_gap` back. -/
def LoopsTo (i : Nat) (loops : List (PoseEdge R)) : Prop :=
  ∀ e ∈ loops, e.toIndex = i ∧ e.fromIndex ≤ i ∧
    cfg.loopClosure.minNodeGap ≤ (i : Int) - e.fromIndex

namespace PoseGraphBuilder

/-- The nodes of the loop closure's cache; the other builders have no cache of their own. -/
def cache : PoseGraphBuilder R → List (PoseNode R)
  | .loopClosure b => b.allNodesCache
  | b => b.getNodes

/-- Nodes stand at their indices, and edges lead forward between nodes that exist. -/
structure WellIndexed (b : PoseGraphBuilder R) : Prop where
  nodes : Indexed b.getNodes
  cache : Indexed b.cache
  length : b.cache.length = b.getNodes.length
  edges : ∀ e ∈ b.getEdges, e.fromIndex ≤ e.toIndex ∧ e.toIndex < b.getNodes.length

/-- What a keyframe adds to a builder. -/
structure Grows (b b' : PoseGraphBuilder R) (node : PoseNode R)
    (seq near loops : List (PoseEdge R)) : Prop where
  getNodes : b'.getNodes = b.getNodes ++ [node]
  innerEdges : b'.innerEdges = b.innerEdges ++ (seq ++ near)
  getLoopEdges : b'.getLoopEdges = b.getLoopEdges ++ loops
  cache : b'.cache.map (·.index) = b.cache.map (·.index) ++ [node.index]
  keyframe : Keyframe cfg b.getNodes.length node seq near
  loopsTo : LoopsTo cfg node.index loops

variable {cfg}

/-- Every new edge leads forward to the new node. -/
theorem Grows.mem {b b' : PoseGraphBuilder R} {node : PoseNode R}
    {seq near loops : List (PoseEdge R)} (g : Grows cfg b b' node seq near loops)
    {e : PoseEdge R} (he : e ∈ seq ++ near ++ loops) :
    e.fromIndex ≤ e.toIndex ∧ e.toIndex = node.index := by
  have hk := g.keyframe
  rcases List.mem_append.mp he with he | he
  · rcases List.mem_append.mp he with he | he
    · rcases Nat.eq_zero_or_pos b.getNodes.length with h0 | hpos
      · rw [(hk.first h0).1] at he
        exact absurd he List.not_mem_nil
      · obtain ⟨d, rfl, hd⟩ := hk.seqEdge hpos
        obtain rfl := List.mem_singleton.mp he
        obtain ⟨hf, ht⟩ := Prod.mk.inj hd
        have hi := hk.index
        omega
    · have hl := hk.links e he
      have hd := hk.diff (List.ne_nil_of_mem he)
      have hi := hk.index
      omega
  · have hl := g.loopsTo e he
    omega

theorem Grows.getEdges_perm {b b' : PoseGraphBuilder R} {node : PoseNode R}
    {seq near loops : List (PoseEdge R)} (g : Grows cfg b b' node seq near loops) :
    b'.getEdges.Perm (b.getEdges ++ (seq ++ near ++ loops)) := by
  unfold getEdges
  rw [g.innerEdges, g.getLoopEdges, List.append_assoc, List.append_assoc b.innerEdges]
  apply List.Perm.append_left
  rw [← List.append_assoc, ← List.append_assoc]
  exact List.perm_append_comm.append_right loops

theorem WellIndexed.grow {b b' : PoseGraphBuilder R} {node : PoseNode R}
    {seq near loops : List (PoseEdge R)} (h : b.WellIndexed)
    (g : Grows cfg b b' node seq near loops) : b'.WellIndexed := by
  have hi := g.keyframe.index
  have hlen : b'.cache.length = b.cache.length + 1 := by
    simpa using congrArg List.length g.cache
  refine ⟨?_, ?_, ?_, ?_⟩
  · rw [g.getNodes]
    exact h.nodes.append hi
  · unfold Indexed
    rw [g.cache, h.cache, hlen, List.range_succ, hi, h.length]
  · rw [hlen, g.getNodes, List.length_append, List.length_singleton, h.length]
  · intro e he
    rw [g.getNodes, List.length_append, List.length_singleton]
    rcases List.mem_append.mp (g.getEdges_perm.mem_iff.mp he) with he | he
    · have hb := h.edges e he
      omega
    · have hn := g.mem he
      omega

/-- `replace_nodes` is called with the nodes of the builder, at new poses. -/
theorem WellIndexed.replaceNodes {b : PoseGraphBuilder R} (h : b.WellIndexed)
    {nodes : List (PoseNode R)} (hn : nodes.map (·.index) = b.getNodes.map (·.index)) :
    (b.replaceNodes nodes).WellIndexed := by
  have hlen : nodes.length = b.getNodes.length := by simpa using congrArg List.length hn
  have hcache : (b.replaceNodes nodes).cache.map (·.index) = b.cache.map (·.index) := by
    cases b with
    | odomOnly b => exact hn
    | scanMatching b => exact hn
    | loopClosure b =>
        show (b.replaceNodes nodes).allNodesCache.map _ = b.allNodesCache.map _
        unfold LoopClosureBuilder.replaceNodes
        rw [List.map_map]
        apply List.map_congr_left
        intro c _
        dsimp only [Function.comp_apply]
        split
        · rfl
        · rfl
  refine ⟨?_, h.cache.of_map hcache, ?_, ?_⟩
  · rw [replaceNodes_getNodes]
    exact h.nodes.of_map hn
  · rw [replaceNodes_getNodes, hlen, ← h.length]
    simpa using congrArg List.length hcache
  · rw [replaceNodes_getEdges, replaceNodes_getNodes, hlen]
    exact h.edges

theorem wellIndexed_new : (new cfg).WellIndexed := by
  have hrange : Indexed ([] : List (PoseNode R)) := rfl
  unfold new
  split
  · exact ⟨hrange, hrange, rfl, fun e he => absurd he List.not_mem_nil⟩
  · split
    · exact ⟨hrange, hrange, rfl, fun e he => absurd he List.not_mem_nil⟩
    · exact ⟨hrange, hrange, rfl, fun e he => absurd he List.not_mem_nil⟩

end PoseGraphBuilder

variable [Field R] [LinearOrder R] (m : Numerics R) (a : Matchers R)

namespace OdomOnlyBuilder

/-- A scan is dropped, makes the first node, or makes a node and the odometry's edge to it. -/
theorem addScan_cases (b : OdomOnlyBuilder R) (scan : Option (ScanData R)) (odom : OdomData R) :
    b.addScan cfg m scan odom = (b, none) ∨
      (∃ data, b.nodes = [] ∧ b.addScan cfg m scan odom =
        ({ b with nodes := [firstNode data odom], lastOdom := some odom },
          some (firstNode data odom))) ∨
      ∃ data prev last, b.nodes.getLast? = some prev ∧ b.lastOdom = some last ∧
        let d := m.worldDeltaToLocal (odom.x - last.x) (odom.y - last.y) last.yaw
        let dyaw := m.angleDiff odom.yaw last.yaw
        let node := nextNode m b.nodes.length data prev d.1 d.2 dyaw
        b.addScan cfg m scan odom = (⟨b.nodes ++ [node],
          b.edges ++ [⟨prev.index, node.index, d.1, d.2, dyaw, makeOdomInformation, 0, false⟩],
          some odom⟩, some node) := by
  unfold addScan
  cases scan with
  | none => exact Or.inl rfl
  | some data =>
      rcases hp : b.nodes.getLast? with _ | prev
      · exact Or.inr (Or.inl ⟨data, List.getLast?_eq_none_iff.mp hp, rfl⟩)
      · cases hl : b.lastOdom with
        | none => exact Or.inl rfl
        | some last =>
            by_cases hk : belowKeyframe cfg m last odom
            · exact Or.inl (if_pos hk)
            · exact Or.inr (Or.inr ⟨data, prev, last, rfl, rfl, if_neg hk⟩)

theorem addScan_spec (b : OdomOnlyBuilder R) (scan : Option (ScanData R)) (odom : OdomData R)
    (h : Indexed b.nodes) : b.addScan cfg m scan odom = (b, none) ∨ ∃ b' node seq,
      b.addScan cfg m scan odom = (b', some node) ∧ b'.nodes = b.nodes ++ [node] ∧
      b'.edges = b.edges ++ seq ∧ Keyframe cfg b.nodes.length node seq [] := by
  rcases b.addScan_cases cfg m scan odom with hs | ⟨data, hn, hs⟩ | ⟨data, prev, last, hp, -, hs⟩
  · exact Or.inl hs
  · refine Or.inr ⟨_, _, [], hs, ?_, (List.append_nil _).symm, ?_⟩
    · rw [hn, List.nil_append]
    · rw [hn]
      exact keyframe_first cfg data odom
  · exact Or.inr ⟨_, _, [_], hs, rfl, rfl,
      keyframe_next cfg h hp rfl rfl fun e he => absurd he List.not_mem_nil⟩

end OdomOnlyBuilder

namespace ScanMatchingBuilder

theorem mem_linkCandidates {nodes : List (PoseNode R)} {current : PoseNode R}
    {c : LinkCandidate R} (hi : Indexed nodes) (hc : c ∈ linkCandidates cfg m a nodes current) :
    (c.node.index : Int) ≤ current.index - cfg.scanMatching.nearLinks.minIndexDiff := by
  simp only [linkCandidates, List.mem_insertionSort, List.mem_filterMap] at hc
  obtain ⟨⟨n, j⟩, hj, hc⟩ := hc
  split at hc
  case isTrue hg =>
    obtain rfl := Option.some.inj hc
    have hn : nodes[j]? = some n := List.mem_zipIdx_iff_getElem?.mp hj
    rw [hi.getElem? hn]
    exact hg.2.1
  case isFalse => cases hc

theorem nearLink_ends {t : R} {current candidate : PoseNode R} {e : PoseEdge R}
    (h : nearLink cfg m a t current candidate = some e) :
    e.ends = (candidate.index, current.index) := by
  dsimp only [nearLink] at h
  split at h
  · obtain rfl := Option.some.inj h
    rfl
  · cases h

theorem mem_acceptLinks {t : R} {current : PoseNode R} {e : PoseEdge R}
    {cs : List (LinkCandidate R)} {added : Int}
    (h : e ∈ acceptLinks cfg m a t current added cs) :
    ∃ c ∈ cs, nearLink cfg m a t current c.node = some e := by
  induction cs generalizing added with
  | nil => exact absurd h List.not_mem_nil
  | cons c rest ih =>
      unfold acceptLinks at h
      split at h
      · cases hl : nearLink cfg m a t current c.node with
        | none =>
            rw [hl] at h
            obtain ⟨d, hd, he⟩ := ih h
            exact ⟨d, List.mem_cons_of_mem c hd, he⟩
        | some e' =>
            rw [hl] at h
            cases h with
            | head => exact ⟨c, List.mem_cons_self, hl⟩
            | tail _ h =>
                obtain ⟨d, hd, he⟩ := ih h
                exact ⟨d, List.mem_cons_of_mem c hd, he⟩
      · exact absurd h List.not_mem_nil

theorem mem_nearLinks {nodes : List (PoseNode R)} {current : PoseNode R} {e : PoseEdge R}
    (hi : Indexed nodes) (he : e ∈ nearLinks cfg m a nodes current) :
    e.toIndex = current.index ∧
      (e.fromIndex : Int) ≤ current.index - cfg.scanMatching.nearLinks.minIndexDiff ∧
      0 ≤ cfg.scanMatching.nearLinks.minIndexDiff := by
  dsimp only [nearLinks] at he
  split at he
  · exact absurd he List.not_mem_nil
  · split at he
    case h_2.isTrue hg =>
      obtain ⟨c, hc, he⟩ := mem_acceptLinks cfg m a he
      obtain ⟨hfrom, hto⟩ := Prod.mk.inj (nearLink_ends cfg m a he)
      rw [hfrom, hto]
      exact ⟨rfl, mem_linkCandidates cfg m a hi hc, hg.2.1⟩
    case h_2.isFalse => exact absurd he List.not_mem_nil

/-- What a scan far enough on adds: a node where the sequential match puts it, the edge of that
match, and the links of the node. -/
structure Matched (b b' : ScanMatchingBuilder R) (odom : OdomData R) (data : ScanData R)
    (prev : PoseNode R) (last : OdomData R) (node : PoseNode R) : Prop where
  back : b.nodes.getLast? = some prev
  lastOdom : b.lastOdom = some last
  index : node.index = b.nodes.length
  nodes : b'.nodes = b.nodes ++ [node]
  edges :
    let d := m.worldDeltaToLocal (odom.x - last.x) (odom.y - last.y) last.yaw
    let s := sequentialMatch cfg m a
      ⟨data.timestamp, d.1, d.2, m.angleDiff odom.yaw last.yaw⟩
    b'.edges = b.edges ++ ⟨prev.index, node.index, s.dx, s.dy, s.dyaw, s.information, s.score,
      s.isOdomFallback⟩ :: nearLinks cfg m a b'.nodes node
  nextOdom : b'.lastOdom = some odom

/-- A scan is dropped, makes the first node, or makes a node after the last. -/
theorem addScan_cases (b : ScanMatchingBuilder R) (scan : Option (ScanData R))
    (odom : OdomData R) :
    b.addScan cfg m a scan odom = (b, none) ∨
      (∃ data, b.nodes = [] ∧ b.addScan cfg m a scan odom =
        ({ b with nodes := [firstNode data odom], lastOdom := some odom },
          some (firstNode data odom))) ∨
      ∃ b' data prev last node, b.addScan cfg m a scan odom = (b', some node) ∧
        Matched cfg m a b b' odom data prev last node := by
  unfold addScan
  cases scan with
  | none => exact Or.inl rfl
  | some data =>
      rcases hp : b.nodes.getLast? with _ | prev
      · exact Or.inr (Or.inl ⟨data, List.getLast?_eq_none_iff.mp hp, rfl⟩)
      · cases hl : b.lastOdom with
        | none => exact Or.inl rfl
        | some last =>
            by_cases hk : belowKeyframe cfg m last odom
            · exact Or.inl (if_pos hk)
            · exact Or.inr (Or.inr ⟨_, data, prev, last, _, if_neg hk,
                ⟨hp, hl, rfl, rfl, rfl, rfl⟩⟩)

theorem addScan_spec (b : ScanMatchingBuilder R) (scan : Option (ScanData R)) (odom : OdomData R)
    (h : Indexed b.nodes) : b.addScan cfg m a scan odom = (b, none) ∨ ∃ b' node seq near,
      b.addScan cfg m a scan odom = (b', some node) ∧ b'.nodes = b.nodes ++ [node] ∧
      b'.edges = b.edges ++ (seq ++ near) ∧ Keyframe cfg b.nodes.length node seq near := by
  rcases b.addScan_cases cfg m a scan odom with hs | ⟨data, hn, hs⟩ |
    ⟨b', data, prev, last, node, hs, hm⟩
  · exact Or.inl hs
  · refine Or.inr ⟨_, _, [], [], hs, ?_, (List.append_nil _).symm, ?_⟩
    · rw [hn, List.nil_append]
    · rw [hn]
      exact keyframe_first cfg data odom
  · refine Or.inr ⟨b', node, [_], nearLinks cfg m a b'.nodes node, hs, hm.nodes, hm.edges, ?_⟩
    refine keyframe_next cfg h hm.back hm.index (Prod.ext rfl hm.index) fun e => ?_
    rw [hm.nodes]
    exact mem_nearLinks cfg m a (h.append hm.index)

end ScanMatchingBuilder

namespace LoopClosureBuilder

/-- What stays the same while loop edges to `node` are tried. -/
structure LoopsTried (b b' : LoopClosureBuilder R) (node : PoseNode R) : Prop where
  inner : b'.inner = b.inner
  cache : b'.allNodesCache = b.allNodesCache
  loops : ∃ loops, b'.loopEdges = b.loopEdges ++ loops ∧ LoopsTo cfg node.index loops

theorem tryAddLoopEdge_spec (b : LoopClosureBuilder R) (node candidate : PoseNode R)
    (hle : candidate.index ≤ node.index)
    (hgap : cfg.loopClosure.minNodeGap ≤ (node.index : Int) - candidate.index) :
    LoopsTried cfg b (b.tryAddLoopEdge cfg m a node candidate) node := by
  have hsame : ∀ b' : LoopClosureBuilder R, b'.inner = b.inner →
      b'.allNodesCache = b.allNodesCache → b'.loopEdges = b.loopEdges →
      LoopsTried cfg b b' node := by
    intro b' hi hc hl
    refine ⟨hi, hc, [], ?_, fun e he => absurd he List.not_mem_nil⟩
    rw [hl, List.append_nil]
  dsimp only [tryAddLoopEdge]
  split
  · exact hsame b rfl rfl rfl
  · split
    · refine ⟨rfl, rfl, _, rfl, ?_⟩
      intro e he
      obtain rfl := List.mem_singleton.mp he
      exact ⟨rfl, hle, hgap⟩
    · exact hsame _ rfl rfl rfl

theorem foldl_tryAddLoopEdge_spec (node : PoseNode R) (candidates : List (PoseNode R))
    (hc : ∀ c ∈ candidates, c.index ≤ node.index ∧
      cfg.loopClosure.minNodeGap ≤ (node.index : Int) - c.index) (b : LoopClosureBuilder R) :
    LoopsTried cfg b (candidates.foldl (fun b c => b.tryAddLoopEdge cfg m a node c) b) node := by
  induction candidates generalizing b with
  | nil => exact ⟨rfl, rfl, [], (List.append_nil _).symm, fun e he => absurd he List.not_mem_nil⟩
  | cons c rest ih =>
      obtain ⟨hle, hgap⟩ := hc c List.mem_cons_self
      obtain ⟨hi, hca, l, hl, hto⟩ := tryAddLoopEdge_spec cfg m a b node c hle hgap
      obtain ⟨hi', hca', l', hl', hto'⟩ := ih (fun d hd => hc d (List.mem_cons_of_mem c hd))
        (b.tryAddLoopEdge cfg m a node c)
      refine ⟨hi'.trans hi, hca'.trans hca, l ++ l', ?_, ?_⟩
      · rw [List.foldl_cons, hl', hl, List.append_assoc]
      · intro e he
        rcases List.mem_append.mp he with h | h
        · exact hto e h
        · exact hto' e h

theorem addScan_spec (b : LoopClosureBuilder R) (scan : Option (ScanData R)) (odom : OdomData R)
    (h : Indexed b.inner.nodes) (hc : Indexed b.allNodesCache)
    (hlen : b.allNodesCache.length = b.inner.nodes.length) :
    b.addScan cfg m a scan odom = (b, none) ∨ ∃ b' node seq near loops,
      b.addScan cfg m a scan odom = (b', some node) ∧ b'.inner.nodes = b.inner.nodes ++ [node] ∧
      b'.inner.edges = b.inner.edges ++ (seq ++ near) ∧ b'.loopEdges = b.loopEdges ++ loops ∧
      b'.allNodesCache = b.allNodesCache ++ [node] ∧
      Keyframe cfg b.inner.nodes.length node seq near ∧ LoopsTo cfg node.index loops := by
  rcases b.inner.addScan_spec cfg m a scan odom h with hn | ⟨i', node, seq, near, hs, hno, he, hk⟩
  · refine Or.inl ?_
    unfold addScan
    rw [hn]
  · have hidx : node.index = b.allNodesCache.length := hk.index.trans hlen.symm
    have hcand : ∀ c ∈ findLoopCandidates cfg (b.allNodesCache ++ [node]) node,
        c.index ≤ node.index ∧ cfg.loopClosure.minNodeGap ≤ (node.index : Int) - c.index := by
      intro c hm
      obtain ⟨hmem, hg⟩ := List.mem_filter.mp hm
      have hlt := (hc.append hidx).lt hmem
      rw [List.length_append, List.length_singleton, ← hidx] at hlt
      have hgap := (of_decide_eq_true hg).2.2
      omega
    obtain ⟨hi, hca, loops, hl, hto⟩ := foldl_tryAddLoopEdge_spec cfg m a node
      (findLoopCandidates cfg (b.allNodesCache ++ [node]) node) hcand
      { b with inner := i', allNodesCache := b.allNodesCache ++ [node] }
    refine Or.inr ⟨_, node, seq, near, loops, ?_, ?_, ?_, hl, hca, hk, hto⟩
    · unfold addScan
      rw [hs]
    · rw [hi, hno]
    · rw [hi, he]

end LoopClosureBuilder

namespace PoseGraphBuilder

theorem addScan_spec (b : PoseGraphBuilder R) (scan : Option (ScanData R)) (odom : OdomData R)
    (h : b.WellIndexed) : b.addScan cfg m a scan odom = (b, none) ∨ ∃ b' node seq near loops,
      b.addScan cfg m a scan odom = (b', some node) ∧ Grows cfg b b' node seq near loops := by
  have hno : ∀ i, LoopsTo cfg i ([] : List (PoseEdge R)) := fun i e he => absurd he List.not_mem_nil
  cases b with
  | odomOnly b =>
      rcases b.addScan_spec cfg m scan odom h.nodes with hn | ⟨b', node, seq, hs, hn, he, hk⟩
      · refine Or.inl ?_
        rw [addScan, hn]
        rfl
      · refine Or.inr ⟨.odomOnly b', node, seq, [], [], ?_, ?_⟩
        · rw [addScan, hs]
          rfl
        · refine ⟨hn, ?_, rfl, ?_, hk, hno _⟩
          · rw [List.append_nil]
            exact he
          · show b'.nodes.map _ = b.nodes.map _ ++ _
            rw [hn, List.map_append, List.map_singleton]
  | scanMatching b =>
      rcases b.addScan_spec cfg m a scan odom h.nodes with
        hn | ⟨b', node, seq, near, hs, hn, he, hk⟩
      · refine Or.inl ?_
        rw [addScan, hn]
        rfl
      · refine Or.inr ⟨.scanMatching b', node, seq, near, [], ?_, ?_⟩
        · rw [addScan, hs]
          rfl
        · refine ⟨hn, he, rfl, ?_, hk, hno _⟩
          show b'.nodes.map _ = b.nodes.map _ ++ _
          rw [hn, List.map_append, List.map_singleton]
  | loopClosure b =>
      rcases b.addScan_spec cfg m a scan odom h.nodes h.cache h.length with
        hn | ⟨b', node, seq, near, loops, hs, hn, he, hl, hc, hk, hto⟩
      · refine Or.inl ?_
        rw [addScan, hn]
        rfl
      · refine Or.inr ⟨.loopClosure b', node, seq, near, loops, ?_, ?_⟩
        · rw [addScan, hs]
          rfl
        · refine ⟨hn, he, hl, ?_, hk, hto⟩
          show b'.allNodesCache.map _ = b.allNodesCache.map _ ++ _
          rw [hc, List.map_append, List.map_singleton]

end PoseGraphBuilder

end MgRobot.Slam

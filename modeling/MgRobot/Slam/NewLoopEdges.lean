import MgRobot.Lib.FirstPerKey
import MgRobot.Slam.PoseGraphFile

/-!
# New loop edges of a saved graph

`tools/reoptimize_loop_search.cpp` tries every ordered pair of nodes of an optimized graph,
`tools/reoptimize_geometry.cpp` builds the submaps it matches against.
-/

namespace MgRobot.Slam

set_option autoImplicit false

open MgRobot.Lib.FirstPerKey

variable {R : Type*} [Field R] [LinearOrder R] (m : Numerics R)

/-- What the search is given: the scans by node index, their points, and `loop_matcher`. -/
structure LoopMatching (R : Type*) where
  nodeScans : Nat → Option (ScanData R)
  scanToPoints : ScanData R → List (R × R)
  loopMatch : List (R × R) → ScanData R → OdomData R → MatchResult R

variable (w : LoopMatching R)

def buildSubmapPoints (centerNodeIdx : Nat) (nodes : List (PoseNode R)) (radius : R) :
    Option (List (R × R)) :=
  nodes[centerNodeIdx]?.bind fun centerNode =>
    let worldPts := nodes.flatMap fun node =>
      match w.nodeScans node.index with
      | none => []
      | some scan =>
          let dx := node.x - centerNode.x
          let dy := node.y - centerNode.y
          if dx * dx + dy * dy ≤ radius * radius then
            pointsLocalToWorld m node.pose (w.scanToPoints scan)
          else []
    if worldPts.isEmpty then none
    else some (pointsWorldToLocal m centerNode.pose worldPts)

/-- The smaller index first. -/
def orderedPair (a b : Nat) : Nat × Nat := (min a b, max a b)

def PoseEdge.pair (e : PoseEdge R) : Nat × Nat := orderedPair e.fromIndex e.toIndex

section

variable (cfg : LoopClosureConfig R) (submapRadius : R) (optimizedNodes : List (PoseNode R))

def sourcePoints (candidate : PoseNode R) : List (R × R) :=
  if 0 < submapRadius then
    (buildSubmapPoints m w candidate.index optimizedNodes submapRadius).getD []
  else ((w.nodeScans candidate.index).map w.scanToPoints).getD []

/-- The gates on the result of a match. -/
def newLoopGates (result : MatchResult R) : Prop :=
  let crossingRad := cfg.crossingRejectDeg * m.pi / 180
  result.converged = true ∧ ¬ (0 < cfg.maxScore ∧ cfg.maxScore < result.score) ∧
    ¬ cfg.maxDyawDeg * m.pi / 180 < |result.dyaw| ∧
    ¬ (0 < crossingRad ∧ crossingRad ≤ |result.dyaw| ∧ |result.dyaw| ≤ m.pi - crossingRad)

instance (result : MatchResult R) : Decidable (newLoopGates m cfg result) :=
  inferInstanceAs (Decidable (_ ∧ _ ∧ _ ∧ _))

/-- A pair of nodes from the check of their distance on. -/
def matchPair (node candidate : PoseNode R) : Option (PoseEdge R) :=
  let dx := node.x - candidate.x
  let dy := node.y - candidate.y
  if cfg.searchRadius * cfg.searchRadius < dx * dx + dy * dy then none
  else
    let srcPts := sourcePoints m w submapRadius optimizedNodes candidate
    if srcPts.isEmpty then none
    else
      let (dxLocal, dyLocal) := m.worldDeltaToLocal dx dy candidate.yaw
      let initialGuess : OdomData R :=
        ⟨node.timestamp, dxLocal, dyLocal, m.angleDiff node.yaw candidate.yaw⟩
      (w.nodeScans node.index).bind fun nodeScan =>
        let result := w.loopMatch srcPts nodeScan initialGuess
        if newLoopGates m cfg result then
          some ⟨candidate.index, node.index, result.dx, result.dy, result.dyaw,
            result.information, result.score, false⟩
        else none

/-- The body of the two loops, with the pairs and the edges so far. -/
def searchPair (s : List (Nat × Nat) × List (PoseEdge R)) (p : PoseNode R × PoseNode R) :
    List (Nat × Nat) × List (PoseEdge R) :=
  let (node, candidate) := p
  if |(node.index : Int) - candidate.index| < cfg.minNodeGap then s
  else
    let pair := orderedPair node.index candidate.index
    if s.1.contains pair then s
    else
      match matchPair m w cfg submapRadius optimizedNodes node candidate with
      | none => s
      | some edge => (pair :: s.1, s.2 ++ [edge])

/-- The pairs in the order of the loops. -/
def orderedPairs {α : Type*} (l : List α) : List (α × α) :=
  l.zipIdx.flatMap fun (a, i) => l.zipIdx.filterMap fun (b, j) =>
    if i = j then none else some (a, b)

def searchNewLoopEdges (existingLoopEdges : List (PoseEdge R)) : List (PoseEdge R) :=
  let existingPairs := existingLoopEdges.map PoseEdge.pair
  let validNodes := optimizedNodes.filter fun n => (w.nodeScans n.index).isSome
  ((orderedPairs validNodes).foldl (searchPair m w cfg submapRadius optimizedNodes)
    (existingPairs, [])).2

/-! ## Which edges are found -/

/-- A pair that gives an edge: far enough apart along the path, near enough in place, with points to
match against, and with a match that passes the gates. -/
structure Accepted (node candidate : PoseNode R) (e : PoseEdge R) : Prop where
  gap : cfg.minNodeGap ≤ |(node.index : Int) - candidate.index|
  near : (node.x - candidate.x) * (node.x - candidate.x) +
    (node.y - candidate.y) * (node.y - candidate.y) ≤ cfg.searchRadius * cfg.searchRadius
  points : sourcePoints m w submapRadius optimizedNodes candidate ≠ []
  matched : ∃ scan result, w.nodeScans node.index = some scan ∧
    result = w.loopMatch (sourcePoints m w submapRadius optimizedNodes candidate) scan
      ⟨node.timestamp,
        (m.worldDeltaToLocal (node.x - candidate.x) (node.y - candidate.y) candidate.yaw).1,
        (m.worldDeltaToLocal (node.x - candidate.x) (node.y - candidate.y) candidate.yaw).2,
        m.angleDiff node.yaw candidate.yaw⟩ ∧
    newLoopGates m cfg result ∧
    e = ⟨candidate.index, node.index, result.dx, result.dy, result.dyaw, result.information,
      result.score, false⟩

/-- The attempt at one pair, whatever was found before. -/
def attemptPair (p : PoseNode R × PoseNode R) : Option (PoseEdge R) :=
  if |(p.1.index : Int) - p.2.index| < cfg.minNodeGap then none
  else matchPair m w cfg submapRadius optimizedNodes p.1 p.2

end

variable {m w} {cfg : LoopClosureConfig R} {submapRadius : R} {optimizedNodes : List (PoseNode R)}

theorem searchPair_eq : searchPair m w cfg submapRadius optimizedNodes =
    step (fun p => orderedPair p.1.index p.2.index)
      (attemptPair m w cfg submapRadius optimizedNodes) := by
  funext s p
  rw [searchPair, step, attemptPair]
  simp only [List.contains_iff_mem]
  split
  · split <;> rfl
  · by_cases hpair : orderedPair p.1.index p.2.index ∈ s.1
    · simp only [if_pos hpair]
    · simp only [if_neg hpair]
      cases matchPair m w cfg submapRadius optimizedNodes p.1 p.2 <;> rfl

theorem attemptPair_eq_some {node candidate : PoseNode R} {e : PoseEdge R} :
    attemptPair m w cfg submapRadius optimizedNodes (node, candidate) = some e ↔
      Accepted m w cfg submapRadius optimizedNodes node candidate e := by
  rw [attemptPair]
  constructor
  · intro h
    split at h <;> rename_i hgap
    · cases h
    · rw [matchPair] at h
      dsimp only at h
      split at h <;> rename_i hfar
      · cases h
      · split at h <;> rename_i hempty
        · cases h
        · obtain ⟨scan, hscan, h⟩ := Option.bind_eq_some_iff.mp h
          split at h <;> rename_i hgates
          · refine ⟨not_lt.mp hgap, not_lt.mp hfar, fun hnil => hempty (by rw [hnil]; rfl),
              scan, _, hscan, rfl, hgates, (Option.some.inj h).symm⟩
          · cases h
  · rintro ⟨hgap, hnear, hpoints, scan, result, hscan, rfl, hgates, rfl⟩
    have hnonempty : (sourcePoints m w submapRadius optimizedNodes candidate).isEmpty = false :=
      List.isEmpty_eq_false_iff.mpr hpoints
    rw [if_neg (not_lt.mpr hgap), matchPair]
    simp only [if_neg (not_lt.mpr hnear), hnonempty, hscan, Option.bind_some]
    exact if_pos hgates

theorem mem_orderedPairs {α : Type*} {l : List α} {a b : α} :
    (a, b) ∈ orderedPairs l ↔ ∃ i j : Nat, i ≠ j ∧ l[i]? = some a ∧ l[j]? = some b := by
  simp only [orderedPairs, List.mem_flatMap, List.mem_filterMap, Prod.exists,
    List.mem_zipIdx_iff_getElem?, Option.ite_none_left_eq_some, Option.some.injEq, Prod.mk.injEq]
  constructor
  · rintro ⟨a', i, hi, b', j, hj, hij, rfl, rfl⟩
    exact ⟨i, j, hij, hi, hj⟩
  · rintro ⟨i, j, hij, hi, hj⟩
    exact ⟨a, i, hi, b, j, hj, hij, rfl, rfl⟩

theorem attemptPair_pair (p : PoseNode R × PoseNode R) (e : PoseEdge R)
    (h : attemptPair m w cfg submapRadius optimizedNodes p = some e) :
    e.pair = orderedPair p.1.index p.2.index := by
  obtain ⟨scan, result, _, _, _, rfl⟩ := (attemptPair_eq_some.mp h).matched
  rw [PoseEdge.pair, orderedPair, orderedPair, min_comm, max_comm]

variable (m w cfg submapRadius optimizedNodes) in
/-- The new edges: two nodes that no loop edge joins yet get one edge if a match between them, one
way or the other, is accepted, and it is the first match that is accepted in the order of the
loops. -/
theorem new_loop_edges (existingLoopEdges : List (PoseEdge R)) :
    ∃ new validNodes,
      new = searchNewLoopEdges m w cfg submapRadius optimizedNodes existingLoopEdges ∧
      validNodes = optimizedNodes.filter (fun n => (w.nodeScans n.index).isSome) ∧
      (new.map PoseEdge.pair).Nodup ∧
      (∀ e ∈ new, e.pair ∉ existingLoopEdges.map PoseEdge.pair) ∧
      (∀ e, e ∈ new ↔ ∃ pre node candidate post,
        orderedPairs validNodes = pre ++ (node, candidate) :: post ∧
        e.pair ∉ existingLoopEdges.map PoseEdge.pair ∧
        Accepted m w cfg submapRadius optimizedNodes node candidate e ∧
        ∀ q ∈ pre, orderedPair q.1.index q.2.index = e.pair →
          ∀ e', ¬ Accepted m w cfg submapRadius optimizedNodes q.1 q.2 e') ∧
      ∀ (i j : Nat) node candidate e, i ≠ j → validNodes[i]? = some node →
        validNodes[j]? = some candidate →
        Accepted m w cfg submapRadius optimizedNodes node candidate e →
        e.pair ∈ existingLoopEdges.map PoseEdge.pair ∨ ∃ e' ∈ new, e'.pair = e.pair := by
  have hsearch : searchNewLoopEdges m w cfg submapRadius optimizedNodes existingLoopEdges =
      (collect (fun p => orderedPair p.1.index p.2.index)
        (attemptPair m w cfg submapRadius optimizedNodes)
        (existingLoopEdges.map PoseEdge.pair) (orderedPairs
          (optimizedNodes.filter fun n => (w.nodeScans n.index).isSome))).2 := by
    rw [searchNewLoopEdges, searchPair_eq]
    rfl
  refine ⟨_, _, hsearch.symm, rfl, (collect_nodup attemptPair_pair).1,
    (collect_nodup attemptPair_pair).2, fun e => ?_, ?_⟩
  · rw [mem_collect]
    constructor
    · rintro ⟨pre, ⟨node, candidate⟩, post, hsplit, hnew, he, hfirst⟩
      have hpair := attemptPair_pair _ e he
      rw [← hpair] at hnew
      refine ⟨pre, node, candidate, post, hsplit, hnew, attemptPair_eq_some.mp he,
        fun q hq hsame e' haccepted => ?_⟩
      have hnone := hfirst q hq (hsame.trans hpair)
      rw [attemptPair_eq_some.mpr haccepted] at hnone
      cases hnone
    · rintro ⟨pre, node, candidate, post, hsplit, hnew, haccepted, hfirst⟩
      have he := attemptPair_eq_some.mpr haccepted
      have hpair := attemptPair_pair _ e he
      rw [hpair] at hnew hfirst
      refine ⟨pre, (node, candidate), post, hsplit, hnew, he, fun q hq hsame => ?_⟩
      refine Option.eq_none_iff_forall_ne_some.mpr fun e' he' => ?_
      exact hfirst q hq hsame e' (attemptPair_eq_some.mp he')
  · intro i j node candidate e hij hi hj haccepted
    have he := attemptPair_eq_some.mpr haccepted
    have hpair := attemptPair_pair _ e he
    rw [hpair]
    exact exists_mem_collect attemptPair_pair (mem_orderedPairs.mpr ⟨i, j, hij, hi, hj⟩) he

end MgRobot.Slam

import Mathlib.Algebra.BigOperators.Ring.Finset
import MgRobot.ObstacleDetection.FrameState

/-!
# The clusters of a frame

The loop over the seeds is the sweep of the flood fill, with a cluster for every component that
is kept. The points that are put out are those of the kept components, and each one is counted
in its cluster.
-/

namespace MgRobot.ObstacleDetection

set_option autoImplicit false

open MgRobot.Lib MgRobot.Lib.FloodFill

variable {R : Type*} [Field R] [LinearOrder R] [FloorRing R]

namespace ObstacleDetector

/-- Large enough for a cluster. -/
def keeps (p : ObstacleDetectionParams R) (component : List Int) : Bool :=
  decide (p.minClusterCells ≤ (component.length : Int))

/-- The labels and the components of `clusterCells`. -/
def sweep (d : ObstacleDetector R) (s : Sweep Int Int) (seeds : List Int) : Sweep Int Int :=
  seeds.foldl (sweepStep d.params.neighbours kUnvisited kNone (fun k => (k : Int))
    (keeps d.params) d.candidateCells.length) s

/-- The cluster of a component before its points are counted. -/
def clusterOfCells (d : ObstacleDetector R) (component : List Int) : ObstacleCluster R :=
  { component.foldl (fun c idx => c.cover (d.grid idx)) ObstacleCluster.start with
    numCells := component.length }

/-- The state of the loop for a state of the sweep. -/
def ofSweep (d : ObstacleDetector R) (s : Sweep Int Int) : ClusterState R :=
  ⟨s.labels, s.kept.map d.clusterOfCells, s.visited⟩

/-- A round of the loop is a step of the sweep. -/
theorem clusterSeed_ofSweep (d : ObstacleDetector R) (s : Sweep Int Int) (seed : Int) :
    d.clusterSeed (d.ofSweep s) seed = d.ofSweep (d.sweep s [seed]) := by
  have hlabels : (d.ofSweep s).labels = s.labels := rfl
  have hnumber : ((d.ofSweep s).clusters.length : Int) = (s.kept.length : Int) :=
    congrArg Nat.cast (List.length_map _)
  unfold clusterSeed sweep
  rw [List.foldl_cons, List.foldl_nil, hnumber, hlabels]
  unfold sweepStep
  by_cases hseed : s.labels seed = kUnvisited
  · rw [if_neg (not_not.mpr hseed), if_pos hseed]
    dsimp only
    generalize fill d.params.neighbours kUnvisited (s.kept.length : Int) d.candidateCells.length
      (start (s.kept.length : Int) s.labels seed) = t
    by_cases hkeep : d.params.minClusterCells ≤ (t.popped.length : Int)
    · have hkeeps : keeps d.params t.popped = true := decide_eq_true hkeep
      rw [if_neg hkeep.not_gt, if_pos hkeeps]
      unfold ofSweep
      rw [List.map_append]
      rfl
    · have hkeeps : ¬ keeps d.params t.popped = true := fun h => hkeep (of_decide_eq_true h)
      rw [if_pos (not_le.mp hkeep), if_neg hkeeps]
      rfl
  · rw [if_pos hseed, if_neg hseed]

theorem clusterLoop_eq {d : ObstacleDetector R} (hclusters : d.clusters = []) :
    d.clusterLoop = d.ofSweep (d.sweep ⟨d.labels, [], []⟩ d.candidateCells) := by
  have hfold (l : List Int) (s : Sweep Int Int) :
      l.foldl d.clusterSeed (d.ofSweep s) = d.ofSweep (d.sweep s l) := by
    induction l generalizing s with
    | nil => rfl
    | cons seed rest ih =>
        rw [List.foldl_cons, clusterSeed_ofSweep, ih]
        rfl
  unfold clusterLoop
  rw [hclusters]
  exact hfold d.candidateCells ⟨d.labels, [], []⟩

section Sweep

variable [IsStrictOrderedRing R] {p : ObstacleDetectionParams R} {pts : List (Point3 R)}
  {d : ObstacleDetector R}

omit [IsStrictOrderedRing R] in
theorem JudgedCells.fresh_iff (h : JudgedCells p pts d) (idx : Int) :
    d.labels idx = kUnvisited ↔ idx ∈ d.candidateCells := by
  rw [h.labels]
  split_ifs with hidx
  · exact iff_of_true rfl hidx
  · exact iff_of_false (by decide) hidx

/-- The candidate cells are in the grid, and the neighbours of one have it as a neighbour. -/
theorem JudgedCells.neighbours_symm (hp : p.Valid) (hpts : ∀ q ∈ pts, p.inCropbox q = true)
    (h : JudgedCells p pts d) (x y : Int) (hx : d.labels x = kUnvisited)
    (hxy : y ∈ p.neighbours x) : x ∈ p.neighbours y := by
  have hjudged := (h.mem_candidates x).mp ((h.fresh_iff x).mp hx)
  obtain ⟨q, hq, rfl⟩ := cellPoints_ne_nil.mp (Judged.ne_nil hp hjudged)
  have hin := hp.cellOf_inGrid (hpts q hq)
  rw [← hp.coords_cellIndex (hpts q hq)] at hin
  exact p.mem_neighbours.mpr ⟨hin, (p.mem_neighbours.mp hxy).2.symm⟩

/-- The components and the labels that `clusterCells` ends with. -/
theorem JudgedCells.sweepInv (hp : p.Valid) (hpts : ∀ q ∈ pts, p.inCropbox q = true)
    (h : JudgedCells p pts d) :
    SweepInv p.neighbours kUnvisited kNone (fun k => (k : Int)) (keeps p) d.labels
      d.candidateCells (d.sweep ⟨d.labels, [], []⟩ d.candidateCells) := by
  unfold sweep
  rw [h.params]
  refine sweepInv_foldl (by decide) (fun k => ?_) (fun x y hx _ => h.neighbours_symm hp hpts x y hx)
    (fun y hy => (h.fresh_iff y).mp hy) le_rfl d.candidateCells
  unfold kUnvisited
  omega

/-- A label is the number of a kept component, or negative. -/
theorem JudgedCells.sweep_labels_iff (hp : p.Valid) (hpts : ∀ q ∈ pts, p.inCropbox q = true)
    (h : JudgedCells p pts d) (idx : Int) (k : Nat) :
    (d.sweep ⟨d.labels, [], []⟩ d.candidateCells).labels idx = (k : Int) ↔
      ∃ C, (d.sweep ⟨d.labels, [], []⟩ d.candidateCells).kept[k]? = some C ∧ idx ∈ C := by
  refine (h.sweepInv hp hpts).labels_eq_number_iff Nat.cast_injective (fun i => ?_) fun y i => ?_
  · unfold kNone
    omega
  · rw [h.labels]
    unfold kUnvisited kNone
    split_ifs
    · omega
    · omega

end Sweep

section Extraction

/-- `n` points more. -/
def addCount (n : Nat) (cluster : ObstacleCluster R) : ObstacleCluster R :=
  { cluster with numPoints := cluster.numPoints + n }

omit [Field R] [LinearOrder R] [FloorRing R] in
/-- The points of a component are put out, and each is counted for its cluster. -/
theorem foldl_extractPoint (l : List (CroppedPoint R)) (d : ObstacleDetector R) :
    l.foldl extractPoint d =
      { d with
        obstaclePoints :=
          d.obstaclePoints ++ (l.filter fun cp => 0 ≤ d.labels cp.cell).map CroppedPoint.p
        clusters := d.clusters.mapIdx fun k c =>
          addCount (l.countP fun cp => d.labels cp.cell = (k : Int)) c } := by
  induction l generalizing d with
  | nil =>
      have hsame : (d.clusters.mapIdx fun k c => addCount (([] : List (CroppedPoint R)).countP
          fun cp => d.labels cp.cell = (k : Int)) c) = d.clusters := by
        refine List.ext_getElem? fun k => ?_
        rw [List.getElem?_mapIdx]
        cases d.clusters[k]? with
        | none => rfl
        | some c => simp [addCount]
      rw [List.foldl_nil, hsame]
      simp
  | cons cp rest ih =>
      rw [List.foldl_cons, ih]
      unfold extractPoint
      by_cases hlabel : d.labels cp.cell < 0
      · have hcount (k : Nat) :
            (cp :: rest).countP (fun cp => d.labels cp.cell = (k : Int)) =
              rest.countP fun cp => d.labels cp.cell = (k : Int) := by
          refine List.countP_cons_of_neg ?_
          rw [decide_eq_true_eq]
          omega
        rw [if_pos hlabel, List.filter_cons_of_neg (by simpa using hlabel)]
        simp only [hcount]
      · obtain ⟨n, hn⟩ := Int.eq_ofNat_of_zero_le (not_lt.mp hlabel)
        -- the cluster of the point, and the others
        have hclusters :
            ((d.clusters.modify n fun c => { c with numPoints := c.numPoints + 1 }).mapIdx
              fun k c => addCount (rest.countP fun cp => d.labels cp.cell = (k : Int)) c) =
            d.clusters.mapIdx fun k c =>
              addCount ((cp :: rest).countP fun cp => d.labels cp.cell = (k : Int)) c := by
          refine List.ext_getElem? fun k => ?_
          rw [List.getElem?_mapIdx, List.getElem?_mapIdx, List.getElem?_modify, List.countP_cons,
            hn]
          by_cases hk : n = k
          · subst hk
            cases d.clusters[n]? with
            | none => rfl
            | some c => simp [addCount, add_assoc, add_comm]
          · cases d.clusters[k]? with
            | none => simp [hk]
            | some c => simp [hk]
        rw [if_neg hlabel, List.filter_cons_of_pos (by simpa using hlabel), List.map_cons]
        dsimp only
        rw [hn, Int.toNat_natCast, hclusters, List.append_assoc]
        rfl

end Extraction

section Output

variable [IsStrictOrderedRing R] {p : ObstacleDetectionParams R} {pts : List (Point3 R)}
  {d : ObstacleDetector R}

/-- The components that are large enough. -/
def keptCells (d : ObstacleDetector R) : List (List Int) :=
  (d.sweep ⟨d.labels, [], []⟩ d.candidateCells).kept

/-- The points and the clusters that a frame ends with, from the components. -/
structure Extracted (p : ObstacleDetectionParams R) (pts : List (Point3 R))
    (j d : ObstacleDetector R) : Prop where
  params : d.params = p
  points : d.obstaclePoints = pts.filter fun q => ∃ C ∈ j.keptCells, p.cellIndex q ∈ C
  clusters : d.clusters = j.keptCells.map fun C =>
    addCount (pts.countP fun q => p.cellIndex q ∈ C) (j.clusterOfCells C)
  cropped : d.cropped = pts.map fun q => ⟨q, p.cellIndex q⟩
  labels : d.labels = (j.sweep ⟨j.labels, [], []⟩ j.candidateCells).labels
  grid : d.grid = j.grid
  touched : d.touchedCells = j.touchedCells

theorem JudgedCells.extract (hp : p.Valid) (hpts : ∀ q ∈ pts, p.inCropbox q = true)
    (h : JudgedCells p pts d) : Extracted p pts d d.clusterCells.extractPoints := by
  have hlabel := fun idx k => h.sweep_labels_iff hp hpts idx k
  have hkept (idx : Int) : 0 ≤ (d.sweep ⟨d.labels, [], []⟩ d.candidateCells).labels idx ↔
      ∃ C ∈ d.keptCells, idx ∈ C := by
    constructor
    · intro hnonneg
      obtain ⟨k, hk⟩ := Int.eq_ofNat_of_zero_le hnonneg
      obtain ⟨C, hC, hidx⟩ := (hlabel idx k).mp hk
      exact ⟨C, List.mem_of_getElem? hC, hidx⟩
    · intro hex
      obtain ⟨C, hC, hidx⟩ := hex
      obtain ⟨k, hk⟩ := List.mem_iff_getElem?.mp hC
      rw [(hlabel idx k).mpr ⟨C, hk, hidx⟩]
      exact Int.natCast_nonneg k
  have hclusters : ((d.keptCells.map d.clusterOfCells).mapIdx fun k c =>
        addCount ((pts.map fun q => (⟨q, p.cellIndex q⟩ : CroppedPoint R)).countP fun cp =>
          (d.sweep ⟨d.labels, [], []⟩ d.candidateCells).labels cp.cell = (k : Int)) c) =
      d.keptCells.map fun C =>
        addCount (pts.countP fun q => p.cellIndex q ∈ C) (d.clusterOfCells C) := by
    refine List.ext_getElem? fun k => ?_
    rw [List.getElem?_mapIdx, List.getElem?_map, List.getElem?_map, List.countP_map]
    cases hk : d.keptCells[k]? with
    | none => rfl
    | some C =>
        refine congrArg (fun n => some (addCount n (d.clusterOfCells C))) ?_
        refine List.countP_congr fun q _ => ?_
        simp only [Function.comp_apply, decide_eq_true_eq]
        rw [hlabel]
        constructor
        · intro hex
          obtain ⟨D, hD, hq⟩ := hex
          obtain rfl := Option.some.inj (hk.symm.trans hD)
          exact hq
        · exact fun hq => ⟨C, hk, hq⟩
  have hpoints : ((pts.map fun q => (⟨q, p.cellIndex q⟩ : CroppedPoint R)).filter fun cp =>
        0 ≤ (d.sweep ⟨d.labels, [], []⟩ d.candidateCells).labels cp.cell).map CroppedPoint.p =
      pts.filter fun q => ∃ C ∈ d.keptCells, p.cellIndex q ∈ C := by
    rw [List.filter_map, List.map_map]
    simp only [Function.comp_def, hkept]
    exact List.map_id _
  unfold extractPoints
  rw [foldl_extractPoint]
  unfold clusterCells
  rw [clusterLoop_eq h.clusters]
  dsimp only
  rw [h.cropped, h.points, List.nil_append]
  exact ⟨h.params, hpoints, hclusters, rfl, rfl, rfl, rfl⟩

omit [Field R] [FloorRing R] [IsStrictOrderedRing R] in
/-- No point is counted before the extraction. -/
theorem clusterOfCells_numPoints (d : ObstacleDetector R) (C : List Int) :
    (d.clusterOfCells C).numPoints = 0 := by
  unfold clusterOfCells
  dsimp only
  induction C using List.reverseRecOn with
  | nil => rfl
  | append_singleton rest idx ih =>
      rw [List.foldl_concat]
      exact ih

omit [IsStrictOrderedRing R] in
/-- The points of the clusters are all the points that are put out. -/
theorem Extracted.sum_numPoints {j : ObstacleDetector R} (h : Extracted p pts j d)
    (hdisjoint : j.keptCells.Pairwise List.Disjoint) :
    (d.clusters.map ObstacleCluster.numPoints).sum = d.obstaclePoints.length := by
  have hnum : (ObstacleCluster.numPoints ∘ fun C =>
        addCount (pts.countP fun q => p.cellIndex q ∈ C) (j.clusterOfCells C)) =
      fun C => ((pts.countP fun q => p.cellIndex q ∈ C : Nat) : Int) := by
    funext C
    simp only [Function.comp_apply, addCount]
    rw [clusterOfCells_numPoints, zero_add]
  rw [h.clusters, h.points, List.map_map, hnum, ← List.countP_eq_length_filter,
    ← countP_disjoint p.cellIndex hdisjoint, Nat.cast_list_sum, List.map_map]
  rfl

end Output

end ObstacleDetector

end MgRobot.ObstacleDetection

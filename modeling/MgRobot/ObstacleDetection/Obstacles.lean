import MgRobot.ObstacleDetection.Clusters

/-!
# Obstacles

What the detector is for, on the cells of the grid: the cells whose points stand high enough, the
connected components of these, and the clusters of the components that are large enough. The
components that the sweep keeps are these.
-/

namespace MgRobot.ObstacleDetection

set_option autoImplicit false

open MgRobot.Lib MgRobot.Lib.FloodFill MgRobot.Lib.OrderStatistics
open MgRobot.Slam (INT32_MAX)

variable {R : Type*} [Field R] [LinearOrder R] [FloorRing R]

namespace ObstacleDetectionParams

section Definitions

open scoped Classical

variable (p : ObstacleDetectionParams R) (pts : List (Point3 R))

/-- The cells with enough points and a large enough height difference. -/
noncomputable def candidates : Finset Cell :=
  (pts.map p.cellOf).toFinset.filter fun c => p.Judged (pts.filter fun q => p.cellOf q = c)

/-- The connected component of a cell. -/
noncomputable def component (c : Cell) : Finset Cell :=
  (p.candidates pts).filter
    (Relation.ReflTransGen (fun a b => b ∈ p.candidates pts ∧ p.Linked a b) c)

/-- The cells whose component is large enough. -/
noncomputable def obstacleCells : Finset Cell :=
  (p.candidates pts).filter fun c => p.minClusterCells ≤ ((p.component pts c).card : Int)

noncomputable def components : Finset (Finset Cell) :=
  (p.obstacleCells pts).image (p.component pts)

variable {p pts}

theorem mem_candidates {c : Cell} : c ∈ p.candidates pts ↔
    (∃ q ∈ pts, p.cellOf q = c) ∧ p.Judged (pts.filter fun q => p.cellOf q = c) := by
  unfold candidates
  rw [Finset.mem_filter, List.mem_toFinset, List.mem_map]

theorem mem_component {b c : Cell} : b ∈ p.component pts c ↔ b ∈ p.candidates pts ∧
    Relation.ReflTransGen (fun a b => b ∈ p.candidates pts ∧ p.Linked a b) c b :=
  Finset.mem_filter

theorem mem_obstacleCells {c : Cell} : c ∈ p.obstacleCells pts ↔
    c ∈ p.candidates pts ∧ p.minClusterCells ≤ ((p.component pts c).card : Int) :=
  Finset.mem_filter

variable (p pts)

/-- The points in some cells. -/
def pointsIn (C : Finset Cell) : List (Point3 R) := pts.filter fun q => p.cellOf q ∈ C

/-- The cluster of a component: its cells, its points and their bounding box. -/
def clusterOf (C : Finset Cell) : ObstacleCluster R where
  numCells := C.card
  numPoints := (p.pointsIn pts C).length
  minX := ((p.pointsIn pts C).map Point3.x).minimum
  maxX := ((p.pointsIn pts C).map Point3.x).maximum
  minY := ((p.pointsIn pts C).map Point3.y).minimum
  maxY := ((p.pointsIn pts C).map Point3.y).maximum
  minZ := ((p.pointsIn pts C).map Point3.z).minimum
  maxZ := ((p.pointsIn pts C).map Point3.z).maximum

/-- The points of every cell and of every cluster can be counted, and so can the columns and the
rows that are linked to an obstacle candidate. -/
structure CountsFit : Prop where
  cells : ∀ c, ((pts.filter fun q => p.cellOf q = c).length : Int) ≤ INT32_MAX
  reach : ∀ c ∈ p.candidates pts,
    c.1 + p.linkRadius ≤ INT32_MAX ∧ c.2 + p.linkRadius ≤ INT32_MAX
  clusters : ∀ C ∈ p.components pts, ((p.pointsIn pts C).length : Int) ≤ INT32_MAX

/-- The condition on parameters and frames. -/
def Fits (frames : List (Frame R)) : Prop :=
  p.toleranceCells ≤ INT32_MAX ∧ ∀ f ∈ frames,
    (p.gridSize = none → p.croppedPoints f = []) ∧ p.CountsFit (p.croppedPoints f)

end Definitions

section Order

variable {p : ObstacleDetectionParams R} {pts pts' : List (Point3 R)} (h : pts.Perm pts')
include h

/-- The order of the points does not matter. -/
theorem candidates_perm : p.candidates pts = p.candidates pts' := by
  refine Finset.ext fun c => ?_
  rw [mem_candidates, mem_candidates]
  refine and_congr ?_ ⟨Judged.perm (h.filter _), Judged.perm (h.symm.filter _)⟩
  simp only [h.mem_iff]

theorem obstacleCells_perm : p.obstacleCells pts = p.obstacleCells pts' := by
  unfold obstacleCells component
  rw [candidates_perm h]

theorem components_perm : p.components pts = p.components pts' := by
  unfold components obstacleCells component
  rw [candidates_perm h]

theorem clusterOf_perm (C : Finset Cell) : p.clusterOf pts C = p.clusterOf pts' C := by
  have hin : (p.pointsIn pts C).Perm (p.pointsIn pts' C) := h.filter _
  have hmin (coord : Point3 R → R) : ((p.pointsIn pts C).map coord).minimum =
      ((p.pointsIn pts' C).map coord).minimum := (hin.map coord).minimum_eq
  have hmax (coord : Point3 R → R) : ((p.pointsIn pts C).map coord).maximum =
      ((p.pointsIn pts' C).map coord).maximum := (hin.map coord).maximum_eq
  unfold clusterOf
  rw [hin.length_eq, hmin, hmin, hmin, hmax, hmax, hmax]

end Order

end ObstacleDetectionParams

open ObstacleDetectionParams ObstacleDetector

section Cells

variable [IsStrictOrderedRing R] {p : ObstacleDetectionParams R} {pts : List (Point3 R)}
  {j : ObstacleDetector R}

/-- The cells of a list of indices. -/
def toCells (p : ObstacleDetectionParams R) (C : List Int) : Finset Cell :=
  (C.map p.coords).toFinset

omit [IsStrictOrderedRing R] in
theorem mem_toCells {C : List Int} {c : Cell} : c ∈ toCells p C ↔ ∃ i ∈ C, p.coords i = c := by
  unfold toCells
  rw [List.mem_toFinset, List.mem_map]

omit [IsStrictOrderedRing R] in
theorem coords_mem_toCells {C : List Int} {idx : Int} : p.coords idx ∈ toCells p C ↔ idx ∈ C := by
  rw [mem_toCells]
  constructor
  · intro h
    obtain ⟨i, hi, heq⟩ := h
    rwa [← p.coords_injective heq]
  · exact fun h => ⟨idx, h, rfl⟩

omit [IsStrictOrderedRing R] in
theorem card_toCells {C : List Int} (h : C.Nodup) : (toCells p C).card = C.length := by
  unfold toCells
  rw [List.toFinset_card_of_nodup (h.map p.coords_injective), List.length_map]

variable (hp : p.Valid) (hpts : ∀ q ∈ pts, p.inCropbox q = true)
include hp hpts

/-- The points of a cell are those of its index. -/
theorem cellPoints_eq (idx : Int) :
    cellPoints p pts idx = pts.filter fun q => p.cellOf q = p.coords idx := by
  refine List.filter_congr fun q hq => decide_eq_decide.mpr ?_
  rw [← hp.coords_cellIndex (hpts q hq)]
  exact p.coords_injective.eq_iff.symm

theorem coords_mem_candidates (h : JudgedCells p pts j) (idx : Int) :
    p.coords idx ∈ p.candidates pts ↔ idx ∈ j.candidateCells := by
  rw [h.mem_candidates, mem_candidates, cellPoints_eq hp hpts]
  refine and_iff_right_of_imp fun hj => ?_
  obtain ⟨q, hq⟩ := List.exists_mem_of_ne_nil _ (Judged.ne_nil hp hj)
  obtain ⟨hq, hcell⟩ := List.mem_filter.mp hq
  exact ⟨q, hq, of_decide_eq_true hcell⟩

/-- A candidate is the cell of an index. -/
theorem exists_coords {c : Cell} (hc : c ∈ p.candidates pts) : ∃ idx, p.coords idx = c := by
  obtain ⟨⟨q, hq, rfl⟩, -⟩ := mem_candidates.mp hc
  exact ⟨p.cellIndex q, hp.coords_cellIndex (hpts q hq)⟩

theorem inGrid_of_mem_candidates {c : Cell} (hc : c ∈ p.candidates pts) : p.InGrid c := by
  obtain ⟨⟨q, hq, rfl⟩, -⟩ := mem_candidates.mp hc
  exact hp.cellOf_inGrid (hpts q hq)

/-- The chains of neighbours are the chains of linked cells. -/
theorem reach_iff (h : JudgedCells p pts j) {i k : Int} (hi : i ∈ j.candidateCells) :
    Reach p.neighbours (fun z => z ∈ j.candidateCells) i k ↔
      p.coords k ∈ p.component pts (p.coords i) := by
  have hmem := coords_mem_candidates hp hpts h
  rw [mem_component]
  constructor
  · intro hreach
    refine ⟨(hmem k).mpr (Reach.mem (F := fun z => z ∈ j.candidateCells) hreach hi), ?_⟩
    refine Relation.ReflTransGen.lift p.coords (fun a b hab => ?_) _ _ hreach
    exact ⟨(hmem b).mpr hab.1, (p.mem_neighbours.mp hab.2).2⟩
  · intro hand
    have hchain : ∀ c, Relation.ReflTransGen
        (fun a b => b ∈ p.candidates pts ∧ p.Linked a b) (p.coords i) c →
        ∃ n, p.coords n = c ∧ Reach p.neighbours (fun z => z ∈ j.candidateCells) i n := by
      intro c hc
      induction hc with
      | refl => exact ⟨i, rfl, .refl⟩
      | tail _ hstep ih =>
          obtain ⟨a, rfl, ha⟩ := ih
          obtain ⟨b, rfl⟩ := exists_coords hp hpts hstep.1
          have hb := (hmem b).mp hstep.1
          exact ⟨b, rfl, ha.tail ⟨hb, p.mem_neighbours.mpr
            ⟨inGrid_of_mem_candidates hp hpts hstep.1, hstep.2⟩⟩⟩
    obtain ⟨n, hn, hreach⟩ := hchain (p.coords k) hand.2
    rwa [p.coords_injective hn] at hreach

/-- The components of the sweep. -/
theorem toCells_eq (h : JudgedCells p pts j) {C : List Int}
    (hC : C ∈ (j.sweep ⟨j.labels, [], []⟩ j.candidateCells).visited) {x : Int} (hx : x ∈ C) :
    toCells p C = p.component pts (p.coords x) := by
  have hinv := h.sweepInv hp hpts
  have hxcand := (h.fresh_iff x).mp (hinv.fresh_of_mem hC hx)
  have hmem (y : Int) : y ∈ C ↔ p.coords y ∈ p.component pts (p.coords x) := by
    rw [hinv.mem_iff_reach (fun x y hx _ => h.neighbours_symm hp hpts x y hx) hC hx,
      ← reach_iff hp hpts h hxcand]
    simp only [h.fresh_iff]
  refine Finset.ext fun c => ⟨fun hc => ?_, fun hc => ?_⟩
  · obtain ⟨i, hi, rfl⟩ := mem_toCells.mp hc
    exact (hmem i).mp hi
  · obtain ⟨i, rfl⟩ := exists_coords hp hpts (mem_component.mp hc).1
    exact coords_mem_toCells.mpr ((hmem i).mpr hc)

theorem mem_keptCells (h : JudgedCells p pts j) {C : List Int} : C ∈ j.keptCells ↔
    C ∈ (j.sweep ⟨j.labels, [], []⟩ j.candidateCells).visited ∧
      p.minClusterCells ≤ (C.length : Int) := by
  unfold keptCells
  rw [(h.sweepInv hp hpts).kept_eq, List.mem_filter]
  exact and_congr_right fun _ => decide_eq_true_iff

/-- The kept component of an obstacle cell. -/
theorem exists_keptCells_iff (h : JudgedCells p pts j) {idx : Int} :
    (∃ C ∈ j.keptCells, idx ∈ C) ↔ p.coords idx ∈ p.obstacleCells pts := by
  have hinv := h.sweepInv hp hpts
  rw [mem_obstacleCells, coords_mem_candidates hp hpts h]
  constructor
  · intro hex
    obtain ⟨C, hC, hidx⟩ := hex
    obtain ⟨hvisited, hlen⟩ := (mem_keptCells hp hpts h).mp hC
    refine ⟨(h.fresh_iff idx).mp (hinv.fresh_of_mem hvisited hidx), ?_⟩
    rw [← toCells_eq hp hpts h hvisited hidx, card_toCells (hinv.nodup C hvisited)]
    exact hlen
  · intro hand
    obtain ⟨hcand, hcard⟩ := hand
    obtain ⟨C, hvisited, hidx⟩ := hinv.covered idx hcand ((h.fresh_iff idx).mpr hcand)
    rw [← toCells_eq hp hpts h hvisited hidx, card_toCells (hinv.nodup C hvisited)] at hcard
    exact ⟨C, (mem_keptCells hp hpts h).mpr ⟨hvisited, hcard⟩, hidx⟩

theorem keptCells_disjoint (h : JudgedCells p pts j) : j.keptCells.Pairwise List.Disjoint := by
  have hinv := h.sweepInv hp hpts
  unfold keptCells
  rw [hinv.kept_eq]
  exact hinv.disjoint.filter _

theorem exists_mem_keptCells (h : JudgedCells p pts j) {C : List Int} (hC : C ∈ j.keptCells) :
    ∃ x ∈ C, toCells p C = p.component pts (p.coords x) := by
  have hvisited := ((mem_keptCells hp hpts h).mp hC).1
  obtain ⟨x, hx, -⟩ := (h.sweepInv hp hpts).component C hvisited
  exact ⟨x, hx, toCells_eq hp hpts h hvisited hx⟩

/-- The kept components are those that are large enough, each one once. -/
theorem components_eq (h : JudgedCells p pts j) :
    (j.keptCells.map (toCells p) : Multiset (Finset Cell)) = (p.components pts).val := by
  have hnodup : (j.keptCells.map (toCells p)).Nodup := by
    rw [List.Nodup, List.pairwise_map]
    refine (keptCells_disjoint hp hpts h).imp_of_mem fun {C D} hC _ hdisj heq => ?_
    obtain ⟨x, hx, -⟩ := exists_mem_keptCells hp hpts h hC
    have hxD : p.coords x ∈ toCells p C := coords_mem_toCells.mpr hx
    rw [heq, coords_mem_toCells] at hxD
    exact hdisj hx hxD
  refine (Multiset.Nodup.ext (Multiset.coe_nodup.mpr hnodup) (p.components pts).nodup).mpr ?_
  intro K
  rw [Multiset.mem_coe, List.mem_map, Finset.mem_val]
  unfold components
  rw [Finset.mem_image]
  constructor
  · intro hex
    obtain ⟨C, hC, rfl⟩ := hex
    obtain ⟨x, hx, heq⟩ := exists_mem_keptCells hp hpts h hC
    exact ⟨p.coords x, (exists_keptCells_iff hp hpts h).mp ⟨C, hC, hx⟩, heq.symm⟩
  · intro hex
    obtain ⟨c, hc, rfl⟩ := hex
    obtain ⟨i, rfl⟩ := exists_coords hp hpts (mem_obstacleCells.mp hc).1
    obtain ⟨C, hC, hi⟩ := (exists_keptCells_iff hp hpts h).mpr hc
    exact ⟨C, hC, toCells_eq hp hpts h ((mem_keptCells hp hpts h).mp hC).1 hi⟩

end Cells

section Extents

/-- The extents of some cells. -/
def extents (grid : Int → GridCell R) (C : List Int) : ObstacleCluster R :=
  C.foldl (fun c idx => c.cover (grid idx)) ObstacleCluster.start

omit [Field R] [FloorRing R] in
theorem le_extents_iff {get : ObstacleCluster R → WithTop R} {cellGet : GridCell R → R}
    (hstart : get ObstacleCluster.start = ⊤)
    (hcover : ∀ c cell, get (ObstacleCluster.cover c cell) = min (get c) (cellGet cell))
    (grid : Int → GridCell R) (C : List Int) {b : WithTop R} :
    b ≤ get (extents grid C) ↔ ∀ idx ∈ C, b ≤ cellGet (grid idx) := by
  unfold extents
  induction C using List.reverseRecOn with
  | nil =>
      rw [List.foldl_nil, hstart]
      simp
  | append_singleton rest idx ih =>
      rw [List.foldl_concat, hcover, le_min_iff, ih]
      simp [or_imp, forall_and]

omit [Field R] [FloorRing R] in
theorem extents_le_iff {get : ObstacleCluster R → WithBot R} {cellGet : GridCell R → R}
    (hstart : get ObstacleCluster.start = ⊥)
    (hcover : ∀ c cell, get (ObstacleCluster.cover c cell) = max (get c) (cellGet cell))
    (grid : Int → GridCell R) (C : List Int) {b : WithBot R} :
    get (extents grid C) ≤ b ↔ ∀ idx ∈ C, (cellGet (grid idx) : WithBot R) ≤ b := by
  unfold extents
  induction C using List.reverseRecOn with
  | nil =>
      rw [List.foldl_nil, hstart]
      simp
  | append_singleton rest idx ih =>
      rw [List.foldl_concat, hcover, max_le_iff, ih]
      simp [or_imp, forall_and]

variable [IsStrictOrderedRing R] {p : ObstacleDetectionParams R} {pts : List (Point3 R)}
  {j : ObstacleDetector R} (hp : p.Valid) (hpts : ∀ q ∈ pts, p.inCropbox q = true)
  (h : JudgedCells p pts j) {C : List Int} (hC : ∀ idx ∈ C, idx ∈ j.candidateCells)
include hp h hC

omit [IsStrictOrderedRing R] in
theorem holds_of_mem {idx : Int} (hidx : idx ∈ C) :
    GridCell.Holds (cellPoints p pts idx) (j.grid idx) := by
  rw [h.grid]
  exact GridCell.holds_ofPoints (Judged.ne_nil hp ((h.mem_candidates idx).mp (hC idx hidx)))

include hpts

omit h hC in
/-- The points of the cells of a list of indices. -/
theorem mem_pointsIn_toCells {q : Point3 R} :
    q ∈ p.pointsIn pts (toCells p C) ↔ ∃ idx ∈ C, q ∈ cellPoints p pts idx := by
  have hcell (hq : q ∈ pts) : p.cellOf q ∈ toCells p C ↔ p.cellIndex q ∈ C := by
    rw [← hp.coords_cellIndex (hpts q hq)]
    exact coords_mem_toCells
  unfold pointsIn cellPoints
  simp only [List.mem_filter, decide_eq_true_eq]
  constructor
  · intro hand
    exact ⟨p.cellIndex q, (hcell hand.1).mp hand.2, hand.1, rfl⟩
  · intro hex
    obtain ⟨idx, hidx, hq, rfl⟩ := hex
    exact ⟨hq, (hcell hq).mpr hidx⟩

/-- A lower end of the box of a cluster is that of its points. -/
theorem min_extent (get : ObstacleCluster R → WithTop R) (cellGet : GridCell R → R)
    (coord : Point3 R → R) (hstart : get ObstacleCluster.start = ⊤)
    (hcover : ∀ c cell, get (ObstacleCluster.cover c cell) = min (get c) (cellGet cell))
    (hcell : ∀ l cell, GridCell.Holds l cell →
      (cellGet cell : WithTop R) = (l.map coord).minimum) :
    get (extents j.grid C) = ((p.pointsIn pts (toCells p C)).map coord).minimum := by
  refine eq_of_forall_le_iff fun b => ?_
  rw [le_extents_iff hstart hcover, le_minimum_iff]
  simp only [List.forall_mem_map, mem_pointsIn_toCells hp hpts]
  constructor
  · intro hall q hq
    obtain ⟨idx, hidx, hq⟩ := hq
    have hle := hall idx hidx
    rw [hcell _ _ (holds_of_mem hp h hC hidx), le_minimum_iff, List.forall_mem_map] at hle
    exact hle q hq
  · intro hall idx hidx
    rw [hcell _ _ (holds_of_mem hp h hC hidx), le_minimum_iff, List.forall_mem_map]
    exact fun q hq => hall q ⟨idx, hidx, hq⟩

/-- An upper end of the box of a cluster is that of its points. -/
theorem max_extent (get : ObstacleCluster R → WithBot R) (cellGet : GridCell R → R)
    (coord : Point3 R → R) (hstart : get ObstacleCluster.start = ⊥)
    (hcover : ∀ c cell, get (ObstacleCluster.cover c cell) = max (get c) (cellGet cell))
    (hcell : ∀ l cell, GridCell.Holds l cell →
      (cellGet cell : WithBot R) = (l.map coord).maximum) :
    get (extents j.grid C) = ((p.pointsIn pts (toCells p C)).map coord).maximum := by
  refine eq_of_forall_ge_iff fun b => ?_
  rw [extents_le_iff hstart hcover, maximum_le_iff]
  simp only [List.forall_mem_map, mem_pointsIn_toCells hp hpts]
  constructor
  · intro hall q hq
    obtain ⟨idx, hidx, hq⟩ := hq
    have hle := hall idx hidx
    rw [hcell _ _ (holds_of_mem hp h hC hidx), maximum_le_iff, List.forall_mem_map] at hle
    exact hle q hq
  · intro hall idx hidx
    rw [hcell _ _ (holds_of_mem hp h hC hidx), maximum_le_iff, List.forall_mem_map]
    exact fun q hq => hall q ⟨idx, hidx, hq⟩

/-- The cluster of a component has the points of its cells and their bounding box. -/
theorem clusterOfCells_eq (hnodup : C.Nodup) :
    addCount (pts.countP fun q => p.cellIndex q ∈ C) (j.clusterOfCells C) =
      p.clusterOf pts (toCells p C) := by
  have hpoints : (pts.countP fun q => p.cellIndex q ∈ C) =
      (p.pointsIn pts (toCells p C)).length := by
    unfold pointsIn
    rw [← List.countP_eq_length_filter]
    refine List.countP_congr fun q hq => ?_
    rw [decide_eq_true_eq, decide_eq_true_eq, ← hp.coords_cellIndex (hpts q hq)]
    exact coords_mem_toCells.symm
  apply ObstacleCluster.ext
  case numCells => exact congrArg Nat.cast (card_toCells hnodup).symm
  case numPoints =>
    change (j.clusterOfCells C).numPoints + _ = _
    rw [clusterOfCells_numPoints, zero_add, hpoints]
    rfl
  case minX =>
    exact min_extent hp hpts h hC ObstacleCluster.minX GridCell.xMin Point3.x rfl
      (fun _ _ => rfl) fun _ _ hl => hl.minX
  case maxX =>
    exact max_extent hp hpts h hC ObstacleCluster.maxX GridCell.xMax Point3.x rfl
      (fun _ _ => rfl) fun _ _ hl => hl.maxX
  case minY =>
    exact min_extent hp hpts h hC ObstacleCluster.minY GridCell.yMin Point3.y rfl
      (fun _ _ => rfl) fun _ _ hl => hl.minY
  case maxY =>
    exact max_extent hp hpts h hC ObstacleCluster.maxY GridCell.yMax Point3.y rfl
      (fun _ _ => rfl) fun _ _ hl => hl.maxY
  case minZ =>
    exact min_extent hp hpts h hC ObstacleCluster.minZ GridCell.zMin1 Point3.z rfl
      (fun _ _ => rfl) fun _ _ hl => hl.minZ
  case maxZ =>
    exact max_extent hp hpts h hC ObstacleCluster.maxZ GridCell.zMax1 Point3.z rfl
      (fun _ _ => rfl) fun _ _ hl => hl.maxZ

end Extents

end MgRobot.ObstacleDetection

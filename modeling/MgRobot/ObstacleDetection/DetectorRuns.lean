import Mathlib.Data.Rat.Floor
import MgRobot.ObstacleDetection.Obstacles

/-!
# Runs of the detector

A frame finds the obstacles of its own points, whatever the frames before it were, and in any
order of its points.
-/

namespace MgRobot.ObstacleDetection

set_option autoImplicit false

open MgRobot.Lib MgRobot.Lib.FloodFill ObstacleDetectionParams
open MgRobot.Slam (INT32_MAX InInt32)

variable {R : Type*} [Field R] [LinearOrder R] [FloorRing R]

namespace ObstacleDetector

/-- The points in the obstacle cells are put out in the order of the input, with one cluster for
each large component. -/
structure Detects (p : ObstacleDetectionParams R) (f : Frame R) (d : ObstacleDetector R) :
    Prop where
  points : d.obstaclePoints =
    (p.croppedPoints f).filter fun q => p.cellOf q ∈ p.obstacleCells (p.croppedPoints f)
  clusters : (d.clusters : Multiset (ObstacleCluster R)) =
    (p.components (p.croppedPoints f)).val.map (p.clusterOf (p.croppedPoints f))
  numPoints : (d.clusters.map ObstacleCluster.numPoints).sum = d.obstaclePoints.length

/-- Between two frames the cells that were not touched are empty, and the others are in range. -/
structure Ready (p : ObstacleDetectionParams R) (d : ObstacleDetector R) : Prop where
  params : d.params = p
  clean : d.Clean
  inGrid : ∀ idx ∈ d.touchedCells, p.InGrid (p.coords idx)

section Frames

variable [IsStrictOrderedRing R] {p : ObstacleDetectionParams R} {d j e : ObstacleDetector R}
  {f : Frame R} {pts : List (Point3 R)}

omit [FloorRing R] [IsStrictOrderedRing R] in
theorem inCropbox_of_mem {q : Point3 R} (hq : q ∈ p.croppedPoints f) : p.inCropbox q = true :=
  (List.mem_filter.mp hq).2

theorem inGrid_cellIndex (hp : p.Valid) {q : Point3 R} (hq : p.inCropbox q = true) :
    p.InGrid (p.coords (p.cellIndex q)) := by
  rw [hp.coords_cellIndex hq]
  exact hp.cellOf_inGrid hq

theorem Extracted.detects (hp : p.Valid) (h : JudgedCells p (p.croppedPoints f) j)
    (he : Extracted p (p.croppedPoints f) j e) : Detects p f e := by
  have hpts : ∀ q ∈ p.croppedPoints f, p.inCropbox q = true := fun q hq => inCropbox_of_mem hq
  refine ⟨?_, ?_, he.sum_numPoints (keptCells_disjoint hp hpts h)⟩
  · rw [he.points]
    refine List.filter_congr fun q hq => decide_eq_decide.mpr ?_
    rw [exists_keptCells_iff hp hpts h, hp.coords_cellIndex (hpts q hq)]
  · have hinv := h.sweepInv hp hpts
    have hmap : j.keptCells.map (fun C => addCount ((p.croppedPoints f).countP fun q =>
          p.cellIndex q ∈ C) (j.clusterOfCells C)) =
        (j.keptCells.map (toCells p)).map (p.clusterOf (p.croppedPoints f)) := by
      rw [List.map_map]
      refine List.map_congr_left fun C hC => ?_
      have hvisited := ((mem_keptCells hp hpts h).mp hC).1
      exact clusterOfCells_eq hp hpts h
        (fun idx hidx => (h.fresh_iff idx).mp (hinv.fresh_of_mem hvisited hidx))
        (hinv.nodup C hvisited)
    rw [he.clusters, hmap, ← components_eq hp hpts h]
    exact (Multiset.map_coe _ _).symm

/-- What a frame leaves behind. -/
theorem Extracted.ready (hp : p.Valid) (hpts : ∀ q ∈ pts, p.inCropbox q = true)
    (h : JudgedCells p pts j) (he : Extracted p pts j e) : Ready p e := by
  have htouched (idx : Int) : idx ∈ e.touchedCells ↔ cellPoints p pts idx ≠ [] := by
    rw [he.touched, h.mem_touched, cellPoints_ne_nil]
  refine ⟨he.params, fun idx hidx => ?_, fun idx hidx => ?_⟩
  · have hnil : cellPoints p pts idx = [] := not_not.mp (mt (htouched idx).mpr hidx)
    have hcand : idx ∉ j.candidateCells := fun hmem =>
      Judged.ne_nil hp ((h.mem_candidates idx).mp hmem) hnil
    have hinv := h.sweepInv hp hpts
    have hout : ∀ C ∈ (j.sweep ⟨j.labels, [], []⟩ j.candidateCells).visited, idx ∉ C :=
      fun C hC hmem => hcand ((h.fresh_iff idx).mp (hinv.fresh_of_mem hC hmem))
    constructor
    · rw [he.grid, h.grid, hnil]
      rfl
    · rw [he.labels, hinv.untouched idx hout, h.labels, if_neg hcand]
  · obtain ⟨q, hq, rfl⟩ := cellPoints_ne_nil.mp ((htouched idx).mp hidx)
    exact inGrid_cellIndex hp (hpts q hq)

/-- A label of a point is the number of a cluster. -/
theorem Extracted.label_lt (hp : p.Valid) (hpts : ∀ q ∈ pts, p.inCropbox q = true)
    (h : JudgedCells p pts j) (he : Extracted p pts j e) {idx : Int} (hidx : 0 ≤ e.labels idx) :
    e.labels idx < e.clusters.length := by
  obtain ⟨k, hk⟩ := Int.eq_ofNat_of_zero_le hidx
  have hlabel := hk
  rw [he.labels, h.sweep_labels_iff hp hpts] at hlabel
  obtain ⟨C, hC, -⟩ := hlabel
  obtain ⟨hlt, -⟩ := List.getElem?_eq_some_iff.mp hC
  rw [hk, he.clusters, List.length_map]
  exact Int.ofNat_lt.mpr hlt

variable (hp : p.Valid) (hd : Ready p d)
include hp hd

omit [IsStrictOrderedRing R] in
theorem Ready.judged (f : Frame R) :
    JudgedCells p (p.croppedPoints f) ((d.beginFrame f).accumulate f).judgeCells := by
  have hacc := hd.clean.accumulated f
  rw [hd.params] at hacc
  exact hacc.judgeCells hp

theorem Ready.extracted (f : Frame R) :
    Extracted p (p.croppedPoints f) ((d.beginFrame f).accumulate f).judgeCells (d.process f) := by
  have he := (hd.judged hp f).extract hp fun _ hq => inCropbox_of_mem hq
  exact ⟨he.params, he.points, he.clusters, he.cropped, he.labels, he.grid, he.touched⟩

theorem Ready.process (f : Frame R) : Ready p (d.process f) :=
  (hd.extracted hp f).ready hp (fun _ hq => inCropbox_of_mem hq) (hd.judged hp f)

theorem Ready.detects (f : Frame R) : Detects p f (d.process f) :=
  (hd.extracted hp f).detects hp (hd.judged hp f)

/-- The indices of a frame are those of cells of the grid. -/
theorem Ready.gridIndices_inGrid (f : Frame R) :
    ∀ idx ∈ d.gridIndices f, p.InGrid (p.coords idx) := by
  have hpts : ∀ q ∈ p.croppedPoints f, p.inCropbox q = true := fun q hq => inCropbox_of_mem hq
  have hj := hd.judged hp f
  have hacc := hd.clean.accumulated f
  rw [hd.params] at hacc
  have hcand {idx : Int} (hidx : idx ∈ ((d.beginFrame f).accumulate f).judgeCells.candidateCells) :
      p.InGrid (p.coords idx) :=
    inGrid_of_mem_candidates hp hpts ((coords_mem_candidates hp hpts hj idx).mpr hidx)
  intro idx hidx
  unfold gridIndices at hidx
  simp only [List.mem_append] at hidx
  rcases hidx with (((htouched | hcropped) | htouched) | hseed) | hcomponents
  · exact hd.inGrid idx htouched
  · rw [hacc.cropped, List.map_map, List.mem_map] at hcropped
    obtain ⟨q, hq, rfl⟩ := hcropped
    exact inGrid_cellIndex hp (hpts q hq)
  · obtain ⟨q, hq, rfl⟩ := (hacc.mem_touched idx).mp htouched
    exact inGrid_cellIndex hp (hpts q hq)
  · exact hcand hseed
  · rw [clusterLoop_eq hj.clusters, List.mem_flatMap] at hcomponents
    obtain ⟨C, hC, hidx⟩ := hcomponents
    rw [hj.params, List.mem_append, List.mem_flatMap] at hidx
    rcases hidx with hidx | hidx
    · exact hcand ((hj.fresh_iff idx).mp ((hj.sweepInv hp hpts).fresh_of_mem hC hidx))
    · obtain ⟨n, -, hn⟩ := hidx
      exact (p.mem_neighbours.mp hn).1

/-- The components of a frame have the obstacle candidates. -/
theorem Ready.mem_components (f : Frame R) (idx : Int) :
    (∃ C ∈ ((d.beginFrame f).accumulate f).judgeCells.clusterLoop.components, idx ∈ C) ↔
      p.coords idx ∈ p.candidates (p.croppedPoints f) := by
  have hpts : ∀ q ∈ p.croppedPoints f, p.inCropbox q = true := fun q hq => inCropbox_of_mem hq
  have hj := hd.judged hp f
  have hinv := hj.sweepInv hp hpts
  rw [clusterLoop_eq hj.clusters, coords_mem_candidates hp hpts hj]
  constructor
  · rintro ⟨C, hC, hidx⟩
    exact (hj.fresh_iff idx).mp (hinv.fresh_of_mem hC hidx)
  · intro hcand
    exact hinv.covered idx hcand ((hj.fresh_iff idx).mpr hcand)

/-- The counts of the cells of a frame. -/
theorem Ready.count_eq (f : Frame R) (idx : Int) :
    (((d.beginFrame f).accumulate f).grid idx).count =
      ((p.croppedPoints f).filter fun q => p.cellOf q = p.coords idx).length := by
  have hpts : ∀ q ∈ p.croppedPoints f, p.inCropbox q = true := fun q hq => inCropbox_of_mem hq
  have hacc := hd.clean.accumulated f
  rw [hd.params] at hacc
  rw [hacc.grid, GridCell.ofPoints_count, cellPoints_eq hp hpts]

theorem Ready.ints_iff (f : Frame R) (hr : p.toleranceCells ≤ INT32_MAX) :
    (∀ n ∈ d.ints f, InInt32 n) ↔ p.CountsFit (p.croppedPoints f) := by
  have hpts : ∀ q ∈ p.croppedPoints f, p.inCropbox q = true := fun q hq => inCropbox_of_mem hq
  have hacc := hd.clean.accumulated f
  rw [hd.params] at hacc
  have hdetects := hd.detects hp f
  have hparams : (((d.beginFrame f).accumulate f).judgeCells).params = p :=
    (hd.judged hp f).params
  have hradius : 1 ≤ p.linkRadius ∧ p.linkRadius ≤ INT32_MAX :=
    ⟨le_max_left _ _, max_le (by decide) hr⟩
  have hcluster (c : ObstacleCluster R) : c ∈ (d.process f).clusters ↔
      ∃ C ∈ p.components (p.croppedPoints f), p.clusterOf (p.croppedPoints f) C = c := by
    rw [← Multiset.mem_coe, hdetects.clusters, Multiset.mem_map]
    rfl
  unfold ints
  simp only [List.mem_append, List.mem_map, List.mem_flatMap, hparams]
  constructor
  · intro hall
    refine ⟨fun c => ?_, fun c hc => ?_, fun C hC => ?_⟩
    · by_cases hnil : (p.croppedPoints f).filter (fun q => p.cellOf q = c) = []
      · rw [hnil]
        exact Int.natCast_nonneg INT32_MAX
      · obtain ⟨q, hq⟩ := List.exists_mem_of_ne_nil _ hnil
        obtain ⟨hq, hcell⟩ := List.mem_filter.mp hq
        have hcount := hd.count_eq hp f (p.cellIndex q)
        rw [hp.coords_cellIndex (hpts q hq), of_decide_eq_true hcell] at hcount
        rw [← hcount]
        exact (hall _ (Or.inl (Or.inl
          ⟨_, (hacc.mem_touched _).mpr ⟨q, hq, rfl⟩, rfl⟩))).2
    · obtain ⟨idx, rfl⟩ := exists_coords hp hpts hc
      obtain ⟨C, hC, hidx⟩ := (hd.mem_components hp f idx).mpr hc
      exact ⟨(hall _ (Or.inl (Or.inr ⟨C, hC, idx, hidx,
          List.mem_cons_of_mem _ List.mem_cons_self⟩))).2,
        (hall _ (Or.inl (Or.inr ⟨C, hC, idx, hidx,
          List.mem_cons_of_mem _ (List.mem_cons_of_mem _ (List.mem_cons_of_mem _
            List.mem_cons_self))⟩))).2⟩
    · exact (hall _ (Or.inr ⟨_, (hcluster _).mpr ⟨C, hC, rfl⟩, rfl⟩)).2
  · rintro hfit n ((⟨idx, -, rfl⟩ | ⟨C, hC, idx, hidx, hn⟩) | ⟨c, hc, rfl⟩)
    · rw [hd.count_eq hp f]
      exact ⟨by omega, hfit.cells _⟩
    · have hcand := (hd.mem_components hp f idx).mp ⟨C, hC, hidx⟩
      obtain ⟨hx, -, hy, -⟩ := inGrid_of_mem_candidates hp hpts hcand
      obtain ⟨hxr, hyr⟩ := hfit.reach _ hcand
      have hcases : n = (p.coords idx).1 - p.linkRadius ∨ n = (p.coords idx).1 + p.linkRadius ∨
          n = (p.coords idx).2 - p.linkRadius ∨ n = (p.coords idx).2 + p.linkRadius := by
        simpa [reach, coords] using hn
      unfold InInt32
      rcases hcases with rfl | rfl | rfl | rfl <;> omega
    · obtain ⟨C, hC, rfl⟩ := (hcluster c).mp hc
      have hlen := hfit.clusters C hC
      unfold InInt32 clusterOf
      dsimp only
      omega

/-- The frames of a run are defined exactly if their counts fit. -/
theorem Ready.runDefined_iff (frames : List (Frame R)) (hr : p.toleranceCells ≤ INT32_MAX) :
    d.RunDefined frames ↔ ∀ f ∈ frames, p.CountsFit (p.croppedPoints f) := by
  induction frames generalizing d with
  | nil => exact iff_of_true trivial fun f hf => absurd hf List.not_mem_nil
  | cons f rest ih =>
      have hindices : ∀ idx ∈ d.gridIndices f,
          0 ≤ idx ∧ idx < d.params.gridWidth * d.params.gridHeight := by
        rw [hd.params]
        exact fun idx hidx => p.index_inRange (hd.gridIndices_inGrid hp f idx hidx)
      rw [List.forall_mem_cons, ← ih (hd.process hp f), ← hd.ints_iff hp f hr]
      exact and_congr_left fun _ => and_iff_right hindices

/-- A run of frames. -/
theorem Ready.foldl_process (frames : List (Frame R)) :
    Ready p (frames.foldl ObstacleDetector.process d) := by
  induction frames generalizing d with
  | nil => exact hd
  | cons f rest ih => exact ih (hd.process hp f)

end Frames

section Order

variable {p : ObstacleDetectionParams R} {d d' : ObstacleDetector R} {f f' : Frame R}

theorem strided_one {α : Type*} (l : List α) : strided 1 l = l := by
  unfold strided
  rw [List.filter_eq_self.mpr fun e _ => decide_eq_true (Int.emod_one _)]
  exact List.zipIdx_map_fst 0 l

omit [FloorRing R] in
theorem croppedPoints_perm (hstride : p.stride = 1) (hT : f'.sensorToBase = f.sensorToBase)
    (hperm : f'.points.Perm f.points) : (p.croppedPoints f').Perm (p.croppedPoints f) := by
  unfold croppedPoints
  rw [hstride, strided_one, strided_one, hT]
  exact (hperm.filterMap _).filter _

/-- What is detected does not depend on the order of the points. -/
theorem Detects.perm (h : Detects p f d) (h' : Detects p f' d')
    (hperm : (p.croppedPoints f').Perm (p.croppedPoints f)) :
    d'.obstaclePoints.Perm d.obstaclePoints ∧ d'.clusters.Perm d.clusters := by
  constructor
  · rw [h.points, h'.points, obstacleCells_perm hperm]
    exact hperm.filter _
  · rw [← Multiset.coe_eq_coe, h.clusters, h'.clusters, components_perm hperm]
    exact Multiset.map_congr rfl fun C _ => clusterOf_perm hperm C

end Order

section InfiniteCells

variable {p : ObstacleDetectionParams R} {f : Frame R}

/-- The detector before it has seen a point. -/
def Idle (p : ObstacleDetectionParams R) (d : ObstacleDetector R) : Prop :=
  ∃ stats, d = { fresh p with stats := stats }

variable {d : ObstacleDetector R}

theorem Idle.accumulate (h : Idle p d) (hnil : p.croppedPoints f = []) :
    (d.beginFrame f).accumulate f = { fresh p with stats := ⟨f.points.length, 0, 0, 0, 0⟩ } := by
  obtain ⟨stats, rfl⟩ := h
  rw [accumulate_eq]
  change (p.croppedPoints f).foldl addPoint _ = _
  rw [hnil]
  rfl

/-- A frame without a point in the ROI leaves it so. -/
theorem Idle.process (h : Idle p d) (hnil : p.croppedPoints f = []) :
    d.process f = { fresh p with stats := ⟨f.points.length, 0, 0, 0, 0⟩ } := by
  unfold ObstacleDetector.process
  rw [h.accumulate hnil]
  rfl

theorem Idle.detects (h : Idle p d) (hnil : p.croppedPoints f = []) :
    Detects p f (d.process f) := by
  have hcandidates : p.candidates [] = ∅ := by
    refine Finset.eq_empty_of_forall_notMem fun c hc => ?_
    obtain ⟨⟨q, hq, -⟩, -⟩ := mem_candidates.mp hc
    exact absurd hq List.not_mem_nil
  have hcomponents : p.components [] = ∅ := by
    unfold components obstacleCells
    rw [hcandidates]
    rfl
  rw [h.process hnil]
  refine ⟨?_, ?_, rfl⟩
  · rw [hnil]
    rfl
  · rw [hnil, hcomponents]
    rfl

theorem Idle.foldl_process (h : Idle p d) {frames : List (Frame R)}
    (hnil : ∀ f ∈ frames, p.croppedPoints f = []) :
    Idle p (frames.foldl ObstacleDetector.process d) := by
  induction frames generalizing d with
  | nil => exact h
  | cons f rest ih =>
      obtain ⟨hf, hrest⟩ := List.forall_mem_cons.mp hnil
      exact ih ⟨_, h.process hf⟩ hrest

/-- In a grid without cells the index of a point is out of range. -/
theorem cellIndex_of_none [IsStrictOrderedRing R] (hnone : p.gridSize = none) (q : Point3 R) :
    p.cellIndex q = -1 := by
  have hzero (v : R) : p.perGridSize v = 0 := by
    unfold perGridSize
    rw [hnone]
  unfold cellIndex gridWidth gridHeight
  simp [hzero, Slam.truncToInt_of_nonneg]

theorem Idle.defined_iff [IsStrictOrderedRing R] (h : Idle p d) (hnone : p.gridSize = none) :
    d.Defined f ↔ p.croppedPoints f = [] := by
  constructor
  · intro hdefined
    by_contra hne
    obtain ⟨q, hq⟩ := List.exists_mem_of_ne_nil _ hne
    have hclean : d.Clean := by
      obtain ⟨stats, rfl⟩ := h
      exact clean_fresh p
    have hparams : d.params = p := by
      obtain ⟨stats, rfl⟩ := h
      rfl
    have hacc := hclean.accumulated f
    rw [hparams] at hacc
    have hmem : p.cellIndex q ∈ d.gridIndices f := by
      unfold gridIndices
      dsimp only
      rw [hacc.cropped]
      simp only [List.mem_append, List.mem_map]
      exact Or.inl (Or.inl (Or.inl (Or.inr ⟨_, ⟨q, hq, rfl⟩, rfl⟩)))
    have hneg := (hdefined.1 _ hmem).1
    rw [cellIndex_of_none hnone] at hneg
    omega
  · intro hnil
    have hindices : d.gridIndices f = [] := by
      unfold gridIndices
      rw [h.accumulate hnil]
      obtain ⟨stats, rfl⟩ := h
      rfl
    have hints : d.ints f = [] := by
      unfold ints
      rw [h.accumulate hnil, h.process hnil]
      rfl
    unfold Defined
    rw [hindices, hints]
    exact ⟨fun _ hidx => absurd hidx List.not_mem_nil, fun _ hn => absurd hn List.not_mem_nil⟩

theorem Idle.runDefined_iff [IsStrictOrderedRing R] (h : Idle p d) (hnone : p.gridSize = none)
    (frames : List (Frame R)) : d.RunDefined frames ↔ ∀ f ∈ frames, p.croppedPoints f = [] := by
  induction frames generalizing d with
  | nil => exact iff_of_true trivial fun f hf => absurd hf List.not_mem_nil
  | cons f rest ih =>
      rw [List.forall_mem_cons, ← h.defined_iff hnone]
      refine and_congr_right fun hdefined => ?_
      exact ih ⟨_, h.process ((h.defined_iff hnone).mp hdefined)⟩

theorem countsFit_nil (p : ObstacleDetectionParams R) : p.CountsFit [] := by
  refine ⟨fun c => by simp, fun c hc => ?_, fun C _ => by simp [pointsIn]⟩
  obtain ⟨⟨q, hq, -⟩, -⟩ := mem_candidates.mp hc
  exact absurd hq List.not_mem_nil

end InfiniteCells

theorem create_ok_iff {p : ObstacleDetectionParams R} {d : ObstacleDetector R} :
    create p = .ok d ↔ p.Accepted ∧ d = fresh p := by
  unfold create
  rw [← p.validate_ok_iff]
  cases p.validate with
  | error message => simp
  | ok u => simp [eq_comm]

/-- What the detector promises of a frame after others: it runs without an overflow or an index
out of range, it finds exactly the obstacles of the points, and neither the earlier frames nor,
without a stride, the order of the points matter. -/
structure Delivers (p : ObstacleDetectionParams R) (d : ObstacleDetector R)
    (frames : List (Frame R)) (f : Frame R) : Prop where
  conversions : ∀ n ∈ p.conversions, InInt32 n
  defined : d.RunDefined (frames ++ [f])
  detects : Detects p f ((frames.foldl process d).process f)
  alone : (frames.foldl process d).process f = d.process f
  unordered : p.stride = 1 → ∀ f' : Frame R, f'.sensorToBase = f.sensorToBase →
    f'.points.Perm f.points →
    ((frames.foldl process d).process f').obstaclePoints.Perm
        ((frames.foldl process d).process f).obstaclePoints ∧
      ((frames.foldl process d).process f').clusters.Perm
        ((frames.foldl process d).process f).clusters
  labelled : ∀ cp ∈ ((frames.foldl process d).process f).cropped,
    0 ≤ ((frames.foldl process d).process f).labels cp.cell →
      ((frames.foldl process d).process f).labels cp.cell <
        ((frames.foldl process d).process f).clusters.length

section Delivery

variable [IsStrictOrderedRing R] {p : ObstacleDetectionParams R} {frames : List (Frame R)}
  {f : Frame R}

theorem conversions_of_none (hnone : p.gridSize = none) : p.conversions = [0, 0, 0] := by
  have hfloor : ⌊(1 / 1000000 : R)⌋ = 0 :=
    Int.floor_eq_zero_iff.mpr ⟨by norm_num, by norm_num⟩
  unfold ObstacleDetectionParams.conversions gridWidth gridHeight toleranceCells perGridSize
  simp only [hnone, Int.ceil_zero, zero_add, hfloor]

/-- The numbers of columns and rows are those of few cells. -/
theorem Valid.dimensions (hp : p.Valid) : 0 < p.gridWidth ∧ 0 < p.gridHeight ∧
    p.gridWidth ≤ kMaxGridCells ∧ p.gridHeight ≤ kMaxGridCells := by
  obtain ⟨size, hpos, hdiv⟩ := hp.perGridSize_eq
  have hw : 0 < p.gridWidth := by
    unfold gridWidth
    rw [hdiv, Int.ceil_pos]
    exact div_pos (sub_pos.mpr hp.x_lt) hpos
  have hh : 0 < p.gridHeight := by
    unfold gridHeight
    rw [hdiv, Int.ceil_pos]
    exact div_pos (sub_pos.mpr hp.y_lt) hpos
  have hcells := hp.cells_le
  exact ⟨hw, hh, (le_mul_of_one_le_right hw.le hh).trans hcells,
    (le_mul_of_one_le_left hh.le hw).trans hcells⟩

theorem Valid.conversions_iff (hp : p.Valid) :
    (∀ n ∈ p.conversions, InInt32 n) ↔ p.toleranceCells ≤ INT32_MAX := by
  obtain ⟨size, hpos, hdiv⟩ := hp.perGridSize_eq
  have hnonneg : 0 ≤ p.toleranceCells := by
    unfold toleranceCells
    rw [hdiv, Int.floor_nonneg]
    have hratio : 0 < p.clusterTolerance / size := div_pos hp.tolerance_pos hpos
    positivity
  obtain ⟨hw, hh, hwle, hhle⟩ := Valid.dimensions hp
  have hmax : kMaxGridCells ≤ INT32_MAX := by decide
  unfold ObstacleDetectionParams.conversions InInt32
  simp only [List.forall_mem_cons, List.not_mem_nil, false_implies, implies_true, and_true]
  omega

/-- A frame of a run finds exactly the obstacles of its points and nothing overflows, if and only
if the link radius is an `int` and, in every frame so far, the counts and the reach of the
obstacle candidates are, and there are cells for the points. -/
theorem process_detects_iff {d : ObstacleDetector R} (hd : create p = .ok d)
    (frames : List (Frame R)) (f : Frame R) :
    Delivers p d frames f ↔ p.Fits (frames ++ [f]) := by
  obtain ⟨haccepted, rfl⟩ := create_ok_iff.mp hd
  unfold Fits
  cases hsize : p.gridSize with
  | some size =>
      have hp : p.Valid := ⟨haccepted, by rw [hsize]; rfl⟩
      have hready : Ready p (fresh p) :=
        ⟨rfl, clean_fresh p, fun _ h => absurd h List.not_mem_nil⟩
      have hbefore := hready.foldl_process hp frames
      have hafter := hbefore.detects hp f
      constructor
      · intro h
        have hr := (Valid.conversions_iff hp).mp h.conversions
        exact ⟨hr, fun g hg => ⟨nofun, (hready.runDefined_iff hp _ hr).mp h.defined g hg⟩⟩
      · rintro ⟨hr, hfit⟩
        refine ⟨(Valid.conversions_iff hp).mpr hr,
          (hready.runDefined_iff hp _ hr).mpr fun g hg => (hfit g hg).2, hafter, ?_, ?_, ?_⟩
        · rw [hbefore.clean.process_eq, hbefore.params]
        · exact fun hstride f' hT hperm =>
            hafter.perm (hbefore.detects hp f') (croppedPoints_perm hstride hT hperm)
        · exact fun cp _ hlabel => (hbefore.extracted hp f).label_lt hp
            (fun q hq => inCropbox_of_mem hq) (hbefore.judged hp f) hlabel
  | none =>
      have hidle : Idle p (fresh p) := ⟨_, rfl⟩
      have hzero := conversions_of_none hsize
      constructor
      · intro h
        have hnil := (hidle.runDefined_iff hsize _).mp h.defined
        refine ⟨(h.conversions _ (by simp [ObstacleDetectionParams.conversions])).2, ?_⟩
        intro g hg
        rw [hnil g hg]
        exact ⟨fun _ => rfl, countsFit_nil p⟩
      · rintro ⟨-, hfit⟩
        have hnil : ∀ g ∈ frames ++ [f], p.croppedPoints g = [] := fun g hg => (hfit g hg).1 rfl
        have hf := hnil f (List.mem_append_right _ (List.mem_singleton_self f))
        have hbefore := hidle.foldl_process fun g hg => hnil g (List.mem_append_left _ hg)
        have hafter := hbefore.detects hf
        refine ⟨?_, (hidle.runDefined_iff hsize _).mpr hnil, hafter, ?_, ?_, ?_⟩
        · rw [hzero]
          decide
        · rw [hbefore.process hf, hidle.process hf]
        · intro hstride f' hT hperm
          have hperm' := croppedPoints_perm (p := p) hstride hT hperm
          have hf' : p.croppedPoints f' = [] := by
            rw [hf] at hperm'
            exact hperm'.eq_nil
          exact hafter.perm (hbefore.detects hf') hperm'
        · intro cp hcp
          rw [hbefore.process hf] at hcp
          exact absurd hcp List.not_mem_nil

/-- The grid and the link radius together are counted, and so are the points. -/
theorem fits_of_le (hp : p.Valid) (hwidth : p.gridWidth + p.linkRadius ≤ INT32_MAX)
    (hheight : p.gridHeight + p.linkRadius ≤ INT32_MAX)
    (hpts : ∀ g ∈ frames, ((p.croppedPoints g).length : Int) ≤ INT32_MAX) : p.Fits frames := by
  obtain ⟨hw, -, -, -⟩ := Valid.dimensions hp
  have hradius : p.toleranceCells ≤ p.linkRadius := le_max_right _ _
  refine ⟨by omega, fun g hg => ⟨fun hnone => ?_, ⟨fun c => ?_, fun c hc => ?_, fun C _ => ?_⟩⟩⟩
  · have hfinite := hp.finite
    rw [hnone] at hfinite
    exact nomatch hfinite
  · exact (Int.ofNat_le.mpr (List.length_filter_le _ _)).trans (hpts g hg)
  · obtain ⟨-, hx, -, hy⟩ :=
      inGrid_of_mem_candidates hp (fun q hq => inCropbox_of_mem (f := g) hq) hc
    omega
  · exact (Int.ofNat_le.mpr (List.length_filter_le _ _)).trans (hpts g hg)

end Delivery

/-- Two cells side by side with points half a metre high, and a point on the floor. -/
def twoCells : Frame ℚ where
  points := [some ⟨1 / 10, 0, 0⟩, none, some ⟨2, 0, 0⟩, some ⟨4 / 25, 0, 1 / 2⟩,
    some ⟨1 / 10, 0, 1 / 2⟩, some ⟨4 / 25, 0, 0⟩]
  sensorToBase := ⟨fun i k => if i = k then 1 else 0, fun _ => 0⟩

theorem create_default : create (ObstacleDetectionParams.default : ObstacleDetectionParams ℚ) =
    .ok (fresh ObstacleDetectionParams.default) := by
  unfold create
  rw [validate_default]

theorem process_detects_twoCells :
    Delivers ObstacleDetectionParams.default (fresh ObstacleDetectionParams.default) [twoCells]
        twoCells ∧
      (((fresh ObstacleDetectionParams.default).process twoCells).process
        twoCells).obstaclePoints.length = 4 := by
  have hp : (ObstacleDetectionParams.default : ObstacleDetectionParams ℚ).Valid :=
    ⟨(create_ok_iff.mp create_default).1, rfl⟩
  refine ⟨(process_detects_iff create_default [twoCells] twoCells).mpr ?_, by decide +kernel⟩
  exact fits_of_le hp (by decide +kernel) (by decide +kernel) (by decide +kernel)

/-- A tolerance of four thousand million cells, and cells of an infinite size. -/
def wideTolerance : ObstacleDetectionParams ℚ :=
  { ObstacleDetectionParams.default with clusterTolerance := 200000000 }

def infiniteCells : ObstacleDetectionParams ℚ :=
  { ObstacleDetectionParams.default with gridSize := none }

/-- Both are accepted; the conversion of the tolerance overflows, and a point has no cell. -/
theorem accepted_and_undefined :
    (wideTolerance.validate = .ok () ∧
      ¬ Delivers wideTolerance (fresh wideTolerance) [] twoCells) ∧
    infiniteCells.validate = .ok () ∧
      ¬ Delivers infiniteCells (fresh infiniteCells) [] twoCells := by
  refine ⟨⟨?_, fun h => ?_⟩, ?_, fun h => ?_⟩
  · exact wideTolerance.validate_ok_iff.mpr ⟨by decide +kernel, by decide +kernel,
      by decide +kernel, by decide +kernel, by decide +kernel, by decide +kernel,
      by decide +kernel, by decide +kernel, by decide +kernel, by decide +kernel,
      by decide +kernel, by decide +kernel⟩
  · exact absurd h.conversions (by decide +kernel)
  · exact infiniteCells.validate_ok_iff.mpr ⟨by decide +kernel, by decide +kernel,
      by decide +kernel, by decide +kernel, by decide +kernel, by decide +kernel,
      by decide +kernel, by decide +kernel, by decide +kernel, by decide +kernel,
      by decide +kernel, by decide +kernel⟩
  · have hidle : Idle infiniteCells (fresh infiniteCells) := ⟨_, rfl⟩
    exact absurd ((hidle.runDefined_iff rfl _).mp h.defined twoCells List.mem_cons_self)
      (by decide +kernel)

end ObstacleDetector

end MgRobot.ObstacleDetection

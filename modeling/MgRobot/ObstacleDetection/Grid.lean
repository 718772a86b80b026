import Mathlib.Tactic.Linarith
import Mathlib.Tactic.NormNum
import Mathlib.Tactic.Ring
import MgRobot.ObstacleDetection.ObstacleDetector

/-!
# The grid of the detector

The cells are pairs of integers here, and the index of a cell of the detector is one of them.
The index of a point in the ROI is in range, and so are the neighbours of a cell.
-/

namespace MgRobot.ObstacleDetection

set_option autoImplicit false

open MgRobot.Slam (truncToInt truncToInt_of_nonneg)

abbrev Cell := Int × Int

theorem mem_intsFromTo {first last n : Int} :
    n ∈ intsFromTo first last ↔ first ≤ n ∧ n ≤ last := by
  unfold intsFromTo
  rw [List.mem_map]
  constructor
  · intro h
    obtain ⟨k, hk, rfl⟩ := h
    have hlt := List.mem_range.mp hk
    omega
  · intro h
    refine ⟨(n - first).toNat, List.mem_range.mpr ?_, ?_⟩
    · omega
    · omega

namespace ObstacleDetectionParams

variable {R : Type*} [Field R] [LinearOrder R] [FloorRing R] (p : ObstacleDetectionParams R)

/-- What `validate` promises. -/
structure Accepted : Prop where
  stride_pos : 1 ≤ p.stride
  x_lt : p.cropboxXMin < p.cropboxXMax
  y_lt : p.cropboxYMin < p.cropboxYMax
  z_lt : p.cropboxZMin < p.cropboxZMax
  gridSize_pos : ∀ size ∈ p.gridSize, 0 < size
  threshold_nonneg : 0 ≤ p.deltaZThreshold
  minPoints_pos : 1 ≤ p.minPointsPerCell
  trim_nonneg : 0 ≤ p.zOutlierTrim
  trim_le : p.zOutlierTrim ≤ 1
  tolerance_pos : 0 < p.clusterTolerance
  minCells_pos : 1 ≤ p.minClusterCells
  cells_le : p.gridWidth * p.gridHeight ≤ kMaxGridCells

/-- Accepted parameters with cells of a finite size. -/
structure Valid : Prop extends p.Accepted where
  finite : p.gridSize.isSome = true

theorem failIf_ok_iff {bad : Prop} [Decidable bad] {message : String} :
    failIf bad message = .ok () ↔ ¬ bad := by
  unfold failIf
  by_cases h : bad
  · simp [h]
  · simp [h]

theorem failIf_bind_ok_iff {bad : Prop} [Decidable bad] {message : String}
    {rest : Except String Unit} :
    (failIf bad message >>= fun _ => rest) = .ok () ↔ ¬ bad ∧ rest = .ok () := by
  unfold failIf
  by_cases h : bad
  · simp [h, bind, Except.bind]
  · simp [h, bind, Except.bind]

theorem validate_ok_iff : p.validate = .ok () ↔ p.Accepted := by
  unfold validate
  simp only [failIf_bind_ok_iff, failIf_ok_iff, not_lt, not_le, not_or, not_exists, not_and,
    ge_iff_le, gt_iff_lt]
  constructor
  · intro h
    obtain ⟨h1, h2, h3, h4, h5, h6, h7, ⟨h8, h9⟩, h10, h11, h12⟩ := h
    exact ⟨h1, h2, h3, h4, h5, h6, h7, h8, h9, h10, h11, h12⟩
  · intro h
    exact ⟨h.stride_pos, h.x_lt, h.y_lt, h.z_lt, h.gridSize_pos, h.threshold_nonneg,
      h.minPoints_pos, ⟨h.trim_nonneg, h.trim_le⟩, h.tolerance_pos, h.minCells_pos, h.cells_le⟩

/-- The cell of a point. -/
def cellOf (q : Point3 R) : Cell :=
  (⌊p.perGridSize (q.x - p.cropboxXMin)⌋, ⌊p.perGridSize (q.y - p.cropboxYMin)⌋)

def InGrid (c : Cell) : Prop :=
  0 ≤ c.1 ∧ c.1 < p.gridWidth ∧ 0 ≤ c.2 ∧ c.2 < p.gridHeight

/-- The Chebyshev distance of the two cells is at most the link radius. -/
def Linked (a b : Cell) : Prop :=
  |a.1 - b.1| ≤ p.linkRadius ∧ |a.2 - b.2| ≤ p.linkRadius

theorem Linked.symm {p : ObstacleDetectionParams R} {a b : Cell} (h : p.Linked a b) :
    p.Linked b a := by
  unfold Linked
  rw [abs_sub_comm b.1, abs_sub_comm b.2]
  exact h

/-- The cell of an index. -/
def coords (idx : Int) : Cell := (idx % p.gridWidth, idx / p.gridWidth)

theorem coords_injective : Function.Injective p.coords := by
  intro i j h
  obtain ⟨hmod, hdiv⟩ := Prod.mk.inj h
  rw [← Int.emod_add_mul_ediv i p.gridWidth, hmod, hdiv, Int.emod_add_mul_ediv]

theorem coords_index {c : Cell} (h : 0 ≤ c.1 ∧ c.1 < p.gridWidth) :
    p.coords (c.1 + c.2 * p.gridWidth) = c := by
  have hw : p.gridWidth ≠ 0 := by omega
  unfold coords
  rw [Int.add_mul_emod_self_right, Int.add_mul_ediv_right _ _ hw, Int.emod_eq_of_lt h.1 h.2,
    Int.ediv_eq_zero_of_lt h.1 h.2, zero_add]

theorem index_coords (idx : Int) :
    (p.coords idx).1 + (p.coords idx).2 * p.gridWidth = idx := by
  rw [mul_comm]
  exact Int.emod_add_mul_ediv idx p.gridWidth

/-- The index of a cell of the grid is in range. -/
theorem index_inRange {idx : Int} (h : p.InGrid (p.coords idx)) :
    0 ≤ idx ∧ idx < p.gridWidth * p.gridHeight := by
  obtain ⟨hx0, hx1, hy0, hy1⟩ := h
  have hindex := p.index_coords idx
  generalize p.coords idx = c at hx0 hx1 hy0 hy1 hindex
  constructor
  · rw [← hindex]
    exact add_nonneg hx0 (mul_nonneg hy0 (hx0.trans hx1.le))
  · calc idx = c.1 + c.2 * p.gridWidth := hindex.symm
      _ < p.gridWidth + c.2 * p.gridWidth := by omega
      _ = p.gridWidth * (c.2 + 1) := by ring
      _ ≤ p.gridWidth * p.gridHeight :=
          mul_le_mul_of_nonneg_left (by omega) (hx0.trans hx1.le)

/-- The neighbours of a cell are the cells of the grid that it is linked to. -/
theorem mem_neighbours {idx n : Int} :
    n ∈ p.neighbours idx ↔ p.InGrid (p.coords n) ∧ p.Linked (p.coords idx) (p.coords n) := by
  have hrange (a b n w r : Int) (hb : b = w) :
      (max 0 (a - r) ≤ n ∧ n ≤ min (b - 1) (a + r)) ↔ 0 ≤ n ∧ n < w ∧ |a - n| ≤ r := by
    rw [abs_le]
    omega
  unfold neighbours
  simp only [List.mem_flatMap, List.mem_map, mem_intsFromTo, hrange _ _ _ _ _ rfl]
  constructor
  · intro h
    obtain ⟨ny, ⟨hy0, hy1, hylink⟩, nx, ⟨hx0, hx1, hxlink⟩, rfl⟩ := h
    have hcoords : p.coords (nx + ny * p.gridWidth) = (nx, ny) :=
      p.coords_index (c := (nx, ny)) ⟨hx0, hx1⟩
    rw [hcoords]
    exact ⟨⟨hx0, hx1, hy0, hy1⟩, hxlink, hylink⟩
  · intro h
    obtain ⟨⟨hx0, hx1, hy0, hy1⟩, hxlink, hylink⟩ := h
    exact ⟨(p.coords n).2, ⟨hy0, hy1, hylink⟩, (p.coords n).1, ⟨hx0, hx1, hxlink⟩,
      p.index_coords n⟩

section ROI

variable [IsStrictOrderedRing R] {p} (hp : p.Valid)
include hp

omit [IsStrictOrderedRing R] in
theorem Valid.perGridSize_eq : ∃ size, 0 < size ∧ ∀ v, p.perGridSize v = v / size := by
  obtain ⟨size, hsize⟩ := Option.isSome_iff_exists.mp hp.finite
  refine ⟨size, hp.gridSize_pos size hsize, fun v => ?_⟩
  unfold perGridSize
  rw [hsize]

omit [IsStrictOrderedRing R] in
theorem Valid.mul_perGridSize_one (v : R) : v * p.perGridSize 1 = p.perGridSize v := by
  obtain ⟨size, -, hdiv⟩ := hp.perGridSize_eq
  rw [hdiv, hdiv, mul_one_div]

theorem Valid.floor_mem {v lo hi : R} (hlo : lo ≤ v) (hhi : v < hi) :
    0 ≤ p.perGridSize (v - lo) ∧ 0 ≤ ⌊p.perGridSize (v - lo)⌋ ∧
      ⌊p.perGridSize (v - lo)⌋ < ⌈p.perGridSize (hi - lo)⌉ := by
  obtain ⟨size, hpos, hdiv⟩ := hp.perGridSize_eq
  simp only [hdiv]
  have hnonneg : 0 ≤ (v - lo) / size := div_nonneg (sub_nonneg.mpr hlo) hpos.le
  have hlt : (v - lo) / size < (hi - lo) / size :=
    div_lt_div_of_pos_right (by linarith) hpos
  refine ⟨hnonneg, Int.floor_nonneg.mpr hnonneg, ?_⟩
  rw [Int.floor_lt]
  exact hlt.trans_le (Int.le_ceil _)

variable {q : Point3 R} (hq : p.inCropbox q = true)
include hq

theorem Valid.cellOf_inGrid : p.InGrid (p.cellOf q) := by
  obtain ⟨hx0, hx1, hy0, hy1, -⟩ := of_decide_eq_true hq
  obtain ⟨-, hxn, hxw⟩ := hp.floor_mem hx0 hx1
  obtain ⟨-, hyn, hyw⟩ := hp.floor_mem hy0 hy1
  exact ⟨hxn, hxw, hyn, hyw⟩

/-- The truncation and the clamp give the cell of the point. -/
theorem Valid.cellIndex_eq :
    p.cellIndex q = (p.cellOf q).1 + (p.cellOf q).2 * p.gridWidth := by
  have hin := hp.cellOf_inGrid hq
  obtain ⟨hx0, hx1, hy0, hy1, -⟩ := of_decide_eq_true hq
  obtain ⟨hxn, -, -⟩ := hp.floor_mem hx0 hx1
  obtain ⟨hyn, -, -⟩ := hp.floor_mem hy0 hy1
  unfold cellIndex
  dsimp only
  rw [hp.mul_perGridSize_one, hp.mul_perGridSize_one, truncToInt_of_nonneg hxn,
    truncToInt_of_nonneg hyn]
  change min (p.cellOf q).1 (p.gridWidth - 1) +
    min (p.cellOf q).2 (p.gridHeight - 1) * p.gridWidth = _
  obtain ⟨-, hxw, -, hyw⟩ := hin
  rw [min_eq_left (by omega), min_eq_left (by omega)]

theorem Valid.coords_cellIndex : p.coords (p.cellIndex q) = p.cellOf q := by
  have hin := hp.cellOf_inGrid hq
  rw [hp.cellIndex_eq hq]
  exact p.coords_index ⟨hin.1, hin.2.1⟩

end ROI

/-- The default parameters are valid. -/
theorem validate_default [IsStrictOrderedRing R] :
    (default : ObstacleDetectionParams R).validate = .ok () := by
  have hw : (default : ObstacleDetectionParams R).gridWidth = 60 := by
    have h : ((3 : R) - 0) / (1 / 20) = ((60 : Int) : R) := by norm_num
    exact (congrArg Int.ceil h).trans (Int.ceil_intCast 60)
  have hh : (default : ObstacleDetectionParams R).gridHeight = 30 := by
    have h : ((3 : R) / 4 - -(3 / 4)) / (1 / 20) = ((30 : Int) : R) := by norm_num
    exact (congrArg Int.ceil h).trans (Int.ceil_intCast 30)
  rw [validate_ok_iff]
  refine ⟨?_, ?_, ?_, ?_, ?_, ?_, ?_, ?_, ?_, ?_, ?_, ?_⟩
  any_goals (rw [hw, hh]; decide)
  all_goals norm_num [default]

end ObstacleDetectionParams

end MgRobot.ObstacleDetection

/-!
# The points of a cell

What a cell of the grid holds after some points were added to it: their number, the two lowest
and the two highest ones, and their extents. The test of a cell compares the heights that are
left when the outliers are taken from a sorted list.
-/

namespace MgRobot.ObstacleDetection

set_option autoImplicit false

open MgRobot.Lib.OrderStatistics

variable {R : Type*} [Field R] [LinearOrder R] [FloorRing R]

/-- The highest and the lowest of the points differ by more than the threshold, without the points
that are trimmed at either end. -/
def ObstacleDetectionParams.Tall (p : ObstacleDetectionParams R) (l : List (Point3 R)) : Prop :=
  ∃ low high : R,
    ((l.map Point3.z).insertionSort (· ≤ ·))[p.zOutlierTrim.toNat]? = some low ∧
    ((l.map Point3.z).insertionSort (· ≥ ·))[p.zOutlierTrim.toNat]? = some high ∧
    p.deltaZThreshold < high - low

/-- The points make their cell a part of an obstacle. -/
def ObstacleDetectionParams.Judged (p : ObstacleDetectionParams R) (l : List (Point3 R)) : Prop :=
  p.minPointsNeeded ≤ l.length ∧ p.Tall l

namespace GridCell

/-- The cell is that of the points `l`. -/
structure Holds (l : List (Point3 R)) (cell : GridCell R) : Prop where
  count : cell.count = l.length
  low : TwoFirst (· ≤ ·) (l.map Point3.z) (cell.zMin1, cell.zMin2)
  high : TwoFirst (· ≥ ·) (l.map Point3.z) (cell.zMax1, cell.zMax2)
  minX : (cell.xMin : WithTop R) = (l.map Point3.x).minimum
  maxX : (cell.xMax : WithBot R) = (l.map Point3.x).maximum
  minY : (cell.yMin : WithTop R) = (l.map Point3.y).minimum
  maxY : (cell.yMax : WithBot R) = (l.map Point3.y).maximum
  minZ : (cell.zMin1 : WithTop R) = (l.map Point3.z).minimum
  maxZ : (cell.zMax1 : WithBot R) = (l.map Point3.z).maximum

omit [Field R] [FloorRing R] in
theorem holds_first (cell : GridCell R) (hcount : cell.count = 0) (q : Point3 R) :
    Holds [q] (cell.add q) := by
  unfold add
  rw [if_pos hcount, hcount]
  exact ⟨rfl, twoFirst_singleton _ _, twoFirst_singleton _ _, rfl, rfl, rfl, rfl, rfl, rfl⟩

variable {l : List (Point3 R)} {cell : GridCell R}

omit [Field R] [FloorRing R] in
/-- One point more. -/
theorem Holds.add (h : Holds l cell) (hl : l ≠ []) (q : Point3 R) :
    Holds (l ++ [q]) (cell.add q) := by
  have hlen := List.length_pos_iff.mpr hl
  have hcount : cell.count ≠ 0 := by
    rw [h.count]
    omega
  unfold GridCell.add
  rw [if_neg hcount]
  constructor
  case count => rw [h.count, List.length_append, List.length_singleton, Nat.cast_succ]
  case low =>
    rw [List.map_append]
    exact h.low.push (fun _ _ => not_le.symm) q.z
  case high =>
    rw [List.map_append]
    exact h.high.push (fun _ _ => not_le.symm) q.z
  case minX => rw [List.map_append, List.map_singleton, List.minimum_concat, ← h.minX]; rfl
  case maxX => rw [List.map_append, List.map_singleton, List.maximum_concat, ← h.maxX]; rfl
  case minY => rw [List.map_append, List.map_singleton, List.minimum_concat, ← h.minY]; rfl
  case maxY => rw [List.map_append, List.map_singleton, List.maximum_concat, ← h.maxY]; rfl
  case minZ =>
    rw [List.map_append, List.map_singleton, List.minimum_concat, ← h.minZ]
    exact congrArg _ (pushTwo_lt_fst q.z _)
  case maxZ =>
    rw [List.map_append, List.map_singleton, List.maximum_concat, ← h.maxZ]
    exact congrArg _ (pushTwo_gt_fst q.z _)

/-- The cell that some points were added to. -/
def ofPoints (l : List (Point3 R)) : GridCell R := l.foldl GridCell.add GridCell.empty

omit [FloorRing R] in
theorem ofPoints_concat (l : List (Point3 R)) (q : Point3 R) :
    ofPoints (l ++ [q]) = (ofPoints l).add q :=
  List.foldl_concat ..

omit [FloorRing R] in
theorem holds_ofPoints (hl : l ≠ []) : Holds l (ofPoints l) := by
  induction l using List.reverseRecOn with
  | nil => exact absurd rfl hl
  | append_singleton rest q ih =>
      rw [ofPoints_concat]
      rcases eq_or_ne rest [] with rfl | hne
      · exact holds_first GridCell.empty rfl q
      · exact (ih hne).add hne q

omit [FloorRing R] in
theorem ofPoints_count (l : List (Point3 R)) : (ofPoints l).count = l.length := by
  rcases eq_or_ne l [] with rfl | hne
  · rfl
  · exact (holds_ofPoints hne).count

omit [FloorRing R] in
theorem exceeds_iff {threshold : R} {zLow zHigh : Option R} :
    exceeds threshold zLow zHigh = true ↔
      ∃ low high, zLow = some low ∧ zHigh = some high ∧ threshold < high - low := by
  cases zLow with
  | none => simp [exceeds]
  | some low =>
      cases zHigh with
      | none => simp [exceeds]
      | some high => simp [exceeds]

/-- The two lowest and the two highest points are all that the test needs. -/
theorem Holds.isCandidate_iff {p : ObstacleDetectionParams R} (hp : p.Valid) (h : Holds l cell) :
    cell.isCandidate p = true ↔ p.Judged l := by
  have hlow := h.low
  have hhigh := h.high
  have hstats : (if p.zOutlierTrim > 0 then cell.zMin2 else some cell.zMin1) =
        ((l.map Point3.z).insertionSort (· ≤ ·))[p.zOutlierTrim.toNat]? ∧
      (if p.zOutlierTrim > 0 then cell.zMax2 else some cell.zMax1) =
        ((l.map Point3.z).insertionSort (· ≥ ·))[p.zOutlierTrim.toNat]? := by
    have htrim : p.zOutlierTrim = 0 ∨ p.zOutlierTrim = 1 := by
      have h0 := hp.trim_nonneg
      have h1 := hp.trim_le
      omega
    rcases htrim with htrim | htrim
    · rw [htrim]
      exact ⟨hlow.getElem?_zero.symm, hhigh.getElem?_zero.symm⟩
    · rw [htrim]
      exact ⟨hlow.getElem?_one.symm, hhigh.getElem?_one.symm⟩
  unfold isCandidate ObstacleDetectionParams.Judged
  rw [h.count, hstats.1, hstats.2]
  by_cases hcount : (l.length : Int) < p.minPointsNeeded
  · rw [if_pos hcount]
    exact iff_of_false Bool.false_ne_true fun hj => hj.1.not_gt hcount
  · rw [if_neg hcount, exceeds_iff]
    exact (and_iff_right (not_lt.mp hcount)).symm

end GridCell

omit [FloorRing R] in
/-- The order of the points in a cell does not matter. -/
theorem ObstacleDetectionParams.Judged.perm {p : ObstacleDetectionParams R}
    {l l' : List (Point3 R)} (hperm : l.Perm l') (h : p.Judged l) : p.Judged l' := by
  obtain ⟨hcount, low, high, hlow, hhigh, hdiff⟩ := h
  rw [insertionSort_congr _ (hperm.map Point3.z)] at hlow hhigh
  rw [hperm.length_eq] at hcount
  exact ⟨hcount, low, high, hlow, hhigh, hdiff⟩

end MgRobot.ObstacleDetection

import MgRobot.ObstacleDetection.Grid

/-!
# The stages of a frame

What each stage of `process` makes of the state that the stage before it left. The first one
starts from a grid that is empty off the touched cells, which every frame leaves behind, so
nothing of the frames before is seen.
-/

namespace MgRobot.ObstacleDetection

set_option autoImplicit false

open MgRobot.Lib MgRobot.Lib.FloodFill

variable {R : Type*} [Field R] [LinearOrder R] [FloorRing R]

/-- The points of a frame that are in the ROI, in the frame of the base. -/
def ObstacleDetectionParams.croppedPoints (p : ObstacleDetectionParams R) (f : Frame R) :
    List (Point3 R) :=
  ((strided p.stride f.points).filterMap fun s => s.map f.sensorToBase.apply).filter p.inCropbox

namespace ObstacleDetector

section Clearing

/-- The cells that were not touched are as at the construction. -/
def Clean (d : ObstacleDetector R) : Prop :=
  ∀ idx, idx ∉ d.touchedCells → d.grid idx = GridCell.empty ∧ d.labels idx = kNone

omit [LinearOrder R] [FloorRing R] in
theorem clean_fresh (p : ObstacleDetectionParams R) : (fresh p).Clean := fun _ _ => ⟨rfl, rfl⟩

omit [LinearOrder R] [FloorRing R] in
theorem foldl_clearCell (l : List Int) (d : ObstacleDetector R) :
    l.foldl clearCell d =
      { d with
        grid := relabel GridCell.empty l d.grid
        labels := relabel kNone l d.labels } := by
  induction l generalizing d with
  | nil => rfl
  | cons i rest ih =>
      rw [List.foldl_cons, ih]
      rfl

omit [LinearOrder R] [FloorRing R] in
/-- Nothing is left of the frame before. -/
theorem Clean.clearTouched_eq {d : ObstacleDetector R} (h : d.Clean) :
    d.clearTouched =
      { fresh d.params with
        obstaclePoints := d.obstaclePoints, clusters := d.clusters, stats := d.stats } := by
  have hgrid : relabel GridCell.empty d.touchedCells d.grid = fun _ => GridCell.empty := by
    funext idx
    rw [relabel_apply]
    split_ifs with hidx
    · rfl
    · exact (h idx hidx).1
  have hlabels : relabel kNone d.touchedCells d.labels = fun _ => kNone := by
    funext idx
    rw [relabel_apply]
    split_ifs with hidx
    · rfl
    · exact (h idx hidx).2
  unfold clearTouched
  rw [foldl_clearCell, hgrid, hlabels]
  rfl

/-- The frame does not see the ones before. -/
theorem Clean.process_eq {d : ObstacleDetector R} (h : d.Clean) (f : Frame R) :
    d.process f = (fresh d.params).process f := by
  have hbegin : (d.beginFrame f).Clean := h
  have hfresh : ((fresh d.params).beginFrame f).Clean := clean_fresh d.params
  have hclear : (d.beginFrame f).clearTouched = ((fresh d.params).beginFrame f).clearTouched := by
    rw [hbegin.clearTouched_eq, hfresh.clearTouched_eq]
    rfl
  have haccumulate :
      (d.beginFrame f).accumulate f = ((fresh d.params).beginFrame f).accumulate f := by
    unfold accumulate
    rw [hclear]
    rfl
  unfold process
  rw [haccumulate]

end Clearing

section Accumulation

theorem foldl_readPoint (T : Isometry3 R) (l : List (Option (Point3 R))) (d : ObstacleDetector R) :
    l.foldl (fun d s => d.readPoint T s) d =
      ((l.filterMap fun s => s.map T.apply).filter d.params.inCropbox).foldl addPoint d := by
  induction l generalizing d with
  | nil => rfl
  | cons s rest ih =>
      rw [List.foldl_cons, ih]
      cases s with
      | none => rfl
      | some s =>
          rw [List.filterMap_cons]
          dsimp only [Option.map_some]
          rw [List.filter_cons]
          unfold readPoint
          dsimp only
          split_ifs with hin
          · rfl
          · rfl

theorem accumulate_eq (d : ObstacleDetector R) (f : Frame R) :
    d.accumulate f = (d.params.croppedPoints f).foldl addPoint d.clearTouched := by
  have hparams : d.clearTouched.params = d.params := by
    unfold clearTouched
    rw [foldl_clearCell]
  unfold accumulate ObstacleDetectionParams.croppedPoints
  rw [foldl_readPoint, hparams]

/-- The points of a cell. -/
def cellPoints (p : ObstacleDetectionParams R) (pts : List (Point3 R)) (idx : Int) :
    List (Point3 R) :=
  pts.filter fun q => p.cellIndex q = idx

theorem cellPoints_concat (p : ObstacleDetectionParams R) (pts : List (Point3 R)) (q : Point3 R)
    (idx : Int) :
    cellPoints p (pts ++ [q]) idx =
      if p.cellIndex q = idx then cellPoints p pts idx ++ [q] else cellPoints p pts idx := by
  unfold cellPoints
  rw [List.filter_append, List.filter_singleton]
  by_cases h : p.cellIndex q = idx
  · simp [h]
  · simp [h]

theorem cellPoints_ne_nil {p : ObstacleDetectionParams R} {pts : List (Point3 R)} {idx : Int} :
    cellPoints p pts idx ≠ [] ↔ ∃ q ∈ pts, p.cellIndex q = idx := by
  unfold cellPoints
  rw [Ne, List.filter_eq_nil_iff]
  simp

/-- The state after the points `pts` were added. -/
structure Accumulated (p : ObstacleDetectionParams R) (pts : List (Point3 R))
    (d : ObstacleDetector R) : Prop where
  params : d.params = p
  grid : ∀ idx, d.grid idx = GridCell.ofPoints (cellPoints p pts idx)
  labels : d.labels = fun _ => kNone
  nodup : d.touchedCells.Nodup
  mem_touched : ∀ idx, idx ∈ d.touchedCells ↔ ∃ q ∈ pts, p.cellIndex q = idx
  candidates : d.candidateCells = []
  cropped : d.cropped = pts.map fun q => ⟨q, p.cellIndex q⟩
  points : d.obstaclePoints = []
  clusters : d.clusters = []

variable {p : ObstacleDetectionParams R} {pts : List (Point3 R)} {d : ObstacleDetector R}

/-- One point more. -/
theorem Accumulated.addPoint (h : Accumulated p pts d) (q : Point3 R) :
    Accumulated p (pts ++ [q]) (d.addPoint q) := by
  have hcount : (d.grid (p.cellIndex q)).count = 0 ↔ p.cellIndex q ∉ d.touchedCells := by
    rw [h.grid, GridCell.ofPoints_count, h.mem_touched, ← cellPoints_ne_nil, not_not,
      Int.natCast_eq_zero, List.length_eq_zero_iff]
  unfold ObstacleDetector.addPoint
  rw [h.params]
  refine ⟨rfl, fun idx => ?_, h.labels, ?_, fun idx => ?_, h.candidates, ?_, h.points,
    h.clusters⟩
  · rw [cellPoints_concat]
    by_cases hidx : p.cellIndex q = idx
    · subst hidx
      rw [if_pos rfl, GridCell.ofPoints_concat, ← h.grid]
      exact Function.update_self ..
    · rw [if_neg hidx, ← h.grid]
      exact Function.update_of_ne (Ne.symm hidx) ..
  · dsimp only
    split_ifs with hzero
    · rw [List.nodup_append_comm]
      exact List.nodup_cons.mpr ⟨hcount.mp hzero, h.nodup⟩
    · exact h.nodup
  · have hsplit : (∃ r ∈ pts ++ [q], p.cellIndex r = idx) ↔
        idx ∈ d.touchedCells ∨ idx = p.cellIndex q := by
      rw [h.mem_touched]
      simp [or_and_right, exists_or, eq_comm]
    rw [hsplit]
    dsimp only
    split_ifs with hzero
    · rw [List.mem_append, List.mem_singleton]
    · have hmem := not_not.mp (mt hcount.mpr hzero)
      constructor
      · exact Or.inl
      · intro hor
        rcases hor with hor | rfl
        · exact hor
        · exact hmem
  · rw [List.map_append, ← h.cropped]
    rfl

theorem accumulated_foldl (hstart : Accumulated p [] d) (pts : List (Point3 R)) :
    Accumulated p pts (pts.foldl ObstacleDetector.addPoint d) := by
  induction pts using List.reverseRecOn with
  | nil => exact hstart
  | append_singleton rest q ih =>
      rw [List.foldl_concat]
      exact ih.addPoint q

/-- The state after `accumulate`. -/
theorem Clean.accumulated (h : d.Clean) (f : Frame R) :
    Accumulated d.params (d.params.croppedPoints f) ((d.beginFrame f).accumulate f) := by
  have hbegin : (d.beginFrame f).Clean := h
  rw [accumulate_eq]
  refine accumulated_foldl ?_ _
  rw [hbegin.clearTouched_eq]
  exact ⟨rfl, fun _ => rfl, rfl, List.nodup_nil, by simp [fresh], rfl, rfl, rfl, rfl⟩

end Accumulation

section Judging

omit [FloorRing R] in
theorem foldl_judgeCell (l : List Int) (d : ObstacleDetector R) :
    l.foldl judgeCell d =
      { d with
        labels := relabel kUnvisited (l.filter fun idx => (d.grid idx).isCandidate d.params) d.labels
        candidateCells :=
          d.candidateCells ++ l.filter fun idx => (d.grid idx).isCandidate d.params } := by
  induction l generalizing d with
  | nil =>
      rw [List.foldl_nil, List.filter_nil, List.append_nil]
      rfl
  | cons i rest ih =>
      rw [List.foldl_cons, ih, List.filter_cons]
      unfold judgeCell
      split_ifs with hcand
      · dsimp only
        rw [List.append_assoc]
        rfl
      · rfl

/-- The state after the cells were judged. -/
structure JudgedCells (p : ObstacleDetectionParams R) (pts : List (Point3 R))
    (d : ObstacleDetector R) : Prop where
  params : d.params = p
  grid : ∀ idx, d.grid idx = GridCell.ofPoints (cellPoints p pts idx)
  mem_touched : ∀ idx, idx ∈ d.touchedCells ↔ ∃ q ∈ pts, p.cellIndex q = idx
  mem_candidates : ∀ idx, idx ∈ d.candidateCells ↔ p.Judged (cellPoints p pts idx)
  labels : ∀ idx, d.labels idx = if idx ∈ d.candidateCells then kUnvisited else kNone
  cropped : d.cropped = pts.map fun q => ⟨q, p.cellIndex q⟩
  points : d.obstaclePoints = []
  clusters : d.clusters = []

theorem Judged.ne_nil {p : ObstacleDetectionParams R} (hp : p.Valid) {l : List (Point3 R)}
    (h : p.Judged l) : l ≠ [] := by
  have hneeded : 1 ≤ p.minPointsNeeded := hp.minPoints_pos.trans (le_max_left _ _)
  have hlen := hneeded.trans h.1
  rw [← List.length_pos_iff]
  omega

variable {p : ObstacleDetectionParams R} {pts : List (Point3 R)} {d : ObstacleDetector R}

theorem Accumulated.judgeCells (hp : p.Valid) (h : Accumulated p pts d) :
    JudgedCells p pts d.judgeCells := by
  have hcand (idx : Int) : idx ∈ (d.touchedCells.filter fun idx =>
      (d.grid idx).isCandidate d.params) ↔ p.Judged (cellPoints p pts idx) := by
    rw [List.mem_filter, h.mem_touched, ← cellPoints_ne_nil, h.params, h.grid]
    constructor
    · intro hand
      exact ((GridCell.holds_ofPoints hand.1).isCandidate_iff hp).mp hand.2
    · intro hj
      have hne := Judged.ne_nil hp hj
      exact ⟨hne, ((GridCell.holds_ofPoints hne).isCandidate_iff hp).mpr hj⟩
  have hlabels (l : List Int) (idx : Int) :
      relabel kUnvisited l d.labels idx = if idx ∈ l then kUnvisited else kNone := by
    rw [relabel_apply, h.labels]
  unfold ObstacleDetector.judgeCells
  rw [foldl_judgeCell, h.candidates, List.nil_append]
  exact ⟨h.params, h.grid, h.mem_touched, hcand, hlabels _, h.cropped, h.points, h.clusters⟩

end Judging

end ObstacleDetector

end MgRobot.ObstacleDetection

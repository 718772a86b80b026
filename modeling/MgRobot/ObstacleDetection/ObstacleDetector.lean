import Mathlib.Order.WithBot
import MgRobot.Lib.FloodFill
import MgRobot.Lib.OrderStatistics
import MgRobot.Slam.GridUtils

/-!
# The obstacle detector

`obstacle_detection/obstacle_detector.cpp`: the points of a cloud are counted into the cells of a
grid, the cells with a large height difference are grown to clusters, and the points of the
clusters that are large enough are put out. The grid and the labels are kept from frame to frame;
only the cells that were touched are cleared.
-/

namespace MgRobot.ObstacleDetection

set_option autoImplicit false

open MgRobot.Lib
open MgRobot.Slam (truncToInt InInt32)

structure Point3 (R : Type*) where
  x : R
  y : R
  z : R
  deriving DecidableEq, Repr

/-- The parameters; a `double` is a number, or `+inf` for the size of the cells. -/
structure ObstacleDetectionParams (R : Type*) where
  stride : Int
  cropboxXMin : R
  cropboxXMax : R
  cropboxYMin : R
  cropboxYMax : R
  cropboxZMin : R
  cropboxZMax : R
  /-- `none` is `+inf`. -/
  gridSize : Option R
  deltaZThreshold : R
  minPointsPerCell : Int
  zOutlierTrim : Int
  clusterTolerance : R
  minClusterCells : Int

/-- `Eigen::Isometry3f` -/
structure Isometry3 (R : Type*) where
  linear : Fin 3 → Fin 3 → R
  translation : Fin 3 → R

/-- The arguments of `process`. A point with a coordinate that is not finite is `none`: each of its
coordinates is not finite after the transformation, and no comparison holds of it. -/
structure Frame (R : Type*) where
  points : List (Option (Point3 R))
  sensorToBase : Isometry3 R

structure GridCell (R : Type*) where
  count : Int
  zMin1 : R
  /-- `none` is `+inf`. -/
  zMin2 : Option R
  zMax1 : R
  /-- `none` is `-inf`. -/
  zMax2 : Option R
  xMin : R
  xMax : R
  yMin : R
  yMax : R
  deriving DecidableEq, Repr

structure CroppedPoint (R : Type*) where
  p : Point3 R
  cell : Int
  deriving DecidableEq, Repr

/-- The largest `float` is `⊤`, and the lowest one is `⊥`. -/
@[ext]
structure ObstacleCluster (R : Type*) where
  numCells : Int
  numPoints : Int
  minX : WithTop R
  maxX : WithBot R
  minY : WithTop R
  maxY : WithBot R
  minZ : WithTop R
  maxZ : WithBot R

structure FrameStats where
  inputPoints : Nat
  croppedPoints : Nat
  candidateCells : Nat
  outputPoints : Nat
  numClusters : Nat
  deriving DecidableEq, Repr

def kUnvisited : Int := -1

def kNone : Int := -2

def kMaxGridCells : Int := 4000000

/-- The detector. `grid` and `labels` are vectors of `gridWidth * gridHeight` entries. -/
structure ObstacleDetector (R : Type*) where
  params : ObstacleDetectionParams R
  grid : Int → GridCell R
  labels : Int → Int
  touchedCells : List Int
  candidateCells : List Int
  cropped : List (CroppedPoint R)
  obstaclePoints : List (Point3 R)
  clusters : List (ObstacleCluster R)
  stats : FrameStats

/-- The integers of `for (n = begin; n <= end; ++n)`. -/
def intsFromTo (first last : Int) : List Int :=
  (List.range (last + 1 - first).toNat).map fun (k : Nat) => first + (k : Int)

/-- The points of `for (i = 0; i < num_points; i += stride)`. -/
def strided {α : Type*} (stride : Int) (points : List α) : List α :=
  (points.zipIdx.filter fun e => (e.2 : Int) % stride = 0).map Prod.fst

section Model

variable {R : Type*} [Field R] [LinearOrder R] [FloorRing R]

namespace ObstacleDetectionParams

def default : ObstacleDetectionParams R where
  stride := 1
  cropboxXMin := 0
  cropboxXMax := 3
  cropboxYMin := -(3 / 4)
  cropboxYMax := 3 / 4
  cropboxZMin := -(1 / 10)
  cropboxZMax := 1
  gridSize := some (1 / 20)
  deltaZThreshold := 3 / 20
  minPointsPerCell := 2
  zOutlierTrim := 0
  clusterTolerance := 3 / 20
  minClusterCells := 2

variable (p : ObstacleDetectionParams R)

/-- `v / grid_size` -/
def perGridSize (v : R) : R :=
  match p.gridSize with
  | none => 0
  | some size => v / size

def gridWidth : Int := ⌈p.perGridSize (p.cropboxXMax - p.cropboxXMin)⌉

def gridHeight : Int := ⌈p.perGridSize (p.cropboxYMax - p.cropboxYMin)⌉

/-- What is converted for the link radius. -/
def toleranceCells : Int := ⌊p.perGridSize p.clusterTolerance + 1 / 1000000⌋

def linkRadius : Int := max 1 p.toleranceCells

def minPointsNeeded : Int := max p.minPointsPerCell (2 * p.zOutlierTrim + 2)

/-- `if (bad) fail(message)` -/
def failIf (bad : Prop) [Decidable bad] (message : String) : Except String Unit :=
  if bad then .error ("obstacle_detection params: " ++ message) else .ok ()

def validate : Except String Unit := do
  failIf (p.stride < 1) "stride must be >= 1"
  failIf (p.cropboxXMin ≥ p.cropboxXMax) "cropbox_x_min must be < cropbox_x_max"
  failIf (p.cropboxYMin ≥ p.cropboxYMax) "cropbox_y_min must be < cropbox_y_max"
  failIf (p.cropboxZMin ≥ p.cropboxZMax) "cropbox_z_min must be < cropbox_z_max"
  failIf (∃ size ∈ p.gridSize, size ≤ 0) "grid_size must be > 0"
  failIf (p.deltaZThreshold < 0) "delta_z_threshold must be >= 0"
  failIf (p.minPointsPerCell < 1) "min_points_per_cell must be >= 1"
  failIf (p.zOutlierTrim < 0 ∨ p.zOutlierTrim > 1) "z_outlier_trim must be 0 or 1"
  failIf (p.clusterTolerance ≤ 0) "cluster_tolerance must be > 0"
  failIf (p.minClusterCells < 1) "min_cluster_cells must be >= 1"
  let cells := p.gridWidth * p.gridHeight
  -- the cells are a `double`, which `std::to_string` writes with six decimals
  failIf (cells > kMaxGridCells)
    ("grid is too large (" ++ toString cells ++ ".000000 cells); increase grid_size")

/-- The ROI of `accumulate`. -/
def inCropbox (q : Point3 R) : Bool :=
  decide (q.x ≥ p.cropboxXMin ∧ q.x < p.cropboxXMax ∧ q.y ≥ p.cropboxYMin ∧
    q.y < p.cropboxYMax ∧ q.z ≥ p.cropboxZMin ∧ q.z ≤ p.cropboxZMax)

/-- `idx` of `accumulate`. -/
def cellIndex (q : Point3 R) : Int :=
  let invGrid := p.perGridSize 1
  let ix := min (truncToInt ((q.x - p.cropboxXMin) * invGrid)) (p.gridWidth - 1)
  let iy := min (truncToInt ((q.y - p.cropboxYMin) * invGrid)) (p.gridHeight - 1)
  ix + iy * p.gridWidth

/-- The cells of the loops over `ny` and `nx`. -/
def neighbours (idx : Int) : List Int :=
  let ix := idx % p.gridWidth
  let iy := idx / p.gridWidth
  let xBegin := max 0 (ix - p.linkRadius)
  let xEnd := min (p.gridWidth - 1) (ix + p.linkRadius)
  let yBegin := max 0 (iy - p.linkRadius)
  let yEnd := min (p.gridHeight - 1) (iy + p.linkRadius)
  (intsFromTo yBegin yEnd).flatMap fun ny =>
    (intsFromTo xBegin xEnd).map fun nx => nx + ny * p.gridWidth

/-- The values that the constructor converts to `int`. -/
def conversions : List Int := [p.gridWidth, p.gridHeight, p.toleranceCells]

/-- The `int`s of the loops over the neighbours of a cell. -/
def reach (idx : Int) : List Int :=
  let ix := idx % p.gridWidth
  let iy := idx / p.gridWidth
  [ix - p.linkRadius, ix + p.linkRadius, iy - p.linkRadius, iy + p.linkRadius]

end ObstacleDetectionParams

/-- The point in the frame of the base. -/
def Isometry3.apply (T : Isometry3 R) (s : Point3 R) : Point3 R where
  x := T.linear 0 0 * s.x + T.linear 0 1 * s.y + T.linear 0 2 * s.z + T.translation 0
  y := T.linear 1 0 * s.x + T.linear 1 1 * s.y + T.linear 1 2 * s.z + T.translation 1
  z := T.linear 2 0 * s.x + T.linear 2 1 * s.y + T.linear 2 2 * s.z + T.translation 2

namespace GridCell

/-- `GridCell{}` -/
def empty : GridCell R := ⟨0, 0, some 0, 0, some 0, 0, 0, 0, 0⟩

/-- One point more. -/
def add (cell : GridCell R) (q : Point3 R) : GridCell R :=
  if cell.count = 0 then
    { count := cell.count + 1, zMin1 := q.z, zMin2 := none, zMax1 := q.z, zMax2 := none,
      xMin := q.x, xMax := q.x, yMin := q.y, yMax := q.y }
  else
    let low := OrderStatistics.pushTwo (· < ·) q.z (cell.zMin1, cell.zMin2)
    let high := OrderStatistics.pushTwo (· > ·) q.z (cell.zMax1, cell.zMax2)
    { count := cell.count + 1, zMin1 := low.1, zMin2 := low.2, zMax1 := high.1, zMax2 := high.2,
      xMin := min cell.xMin q.x, xMax := max cell.xMax q.x,
      yMin := min cell.yMin q.y, yMax := max cell.yMax q.y }

/-- `z_high - z_low > threshold`. The difference is `-inf` when one of the two is missing. -/
def exceeds (threshold : R) : Option R → Option R → Bool
  | some zLow, some zHigh => decide (zHigh - zLow > threshold)
  | _, _ => false

/-- The test of `judgeCells`. -/
def isCandidate (p : ObstacleDetectionParams R) (cell : GridCell R) : Bool :=
  if cell.count < p.minPointsNeeded then false
  else
    let zLow := if p.zOutlierTrim > 0 then cell.zMin2 else some cell.zMin1
    let zHigh := if p.zOutlierTrim > 0 then cell.zMax2 else some cell.zMax1
    exceeds p.deltaZThreshold zLow zHigh

end GridCell

namespace ObstacleCluster

/-- The cluster of `clusterCells` before its first cell. -/
def start : ObstacleCluster R := ⟨0, 0, ⊤, ⊥, ⊤, ⊥, ⊤, ⊥⟩

/-- The extents with one cell more. -/
def cover (cluster : ObstacleCluster R) (cell : GridCell R) : ObstacleCluster R :=
  { cluster with
    minX := min cluster.minX cell.xMin, maxX := max cluster.maxX cell.xMax
    minY := min cluster.minY cell.yMin, maxY := max cluster.maxY cell.yMax
    minZ := min cluster.minZ cell.zMin1, maxZ := max cluster.maxZ cell.zMax1 }

end ObstacleCluster

/-- What the loop of `clusterCells` changes, and `component_` at the end of each of its rounds. -/
structure ClusterState (R : Type*) where
  labels : Int → Int
  clusters : List (ObstacleCluster R)
  components : List (List Int)

namespace ObstacleDetector

/-- The members after the construction. -/
def fresh (p : ObstacleDetectionParams R) : ObstacleDetector R where
  params := p
  grid := fun _ => GridCell.empty
  labels := fun _ => kNone
  touchedCells := []
  candidateCells := []
  cropped := []
  obstaclePoints := []
  clusters := []
  stats := ⟨0, 0, 0, 0, 0⟩

/-- The constructor. -/
def create (p : ObstacleDetectionParams R) : Except String (ObstacleDetector R) :=
  match p.validate with
  | .error e => .error e
  | .ok () => .ok (fresh p)

variable (d : ObstacleDetector R)

/-- `process` before `accumulate`. -/
def beginFrame (f : Frame R) : ObstacleDetector R :=
  { d with stats := ⟨f.points.length, 0, 0, 0, 0⟩, obstaclePoints := [], clusters := [] }

def clearCell (idx : Int) : ObstacleDetector R :=
  { d with
    grid := Function.update d.grid idx GridCell.empty
    labels := Function.update d.labels idx kNone }

/-- Only the cells that the frame before used are cleared. -/
def clearTouched : ObstacleDetector R :=
  { d.touchedCells.foldl clearCell d with touchedCells := [], candidateCells := [], cropped := [] }

/-- A point inside of the ROI. -/
def addPoint (q : Point3 R) : ObstacleDetector R :=
  let idx := d.params.cellIndex q
  let cell := d.grid idx
  { d with
    grid := Function.update d.grid idx (cell.add q)
    touchedCells := if cell.count = 0 then d.touchedCells ++ [idx] else d.touchedCells
    cropped := d.cropped ++ [⟨q, idx⟩] }

/-- The round of the loop of `accumulate` for a point of the cloud. -/
def readPoint (T : Isometry3 R) (s : Option (Point3 R)) : ObstacleDetector R :=
  match s with
  | none => d
  | some s => if d.params.inCropbox (T.apply s) then d.addPoint (T.apply s) else d

def accumulate (f : Frame R) : ObstacleDetector R :=
  (strided d.params.stride f.points).foldl (fun d s => d.readPoint f.sensorToBase s) d.clearTouched

def judgeCell (idx : Int) : ObstacleDetector R :=
  if (d.grid idx).isCandidate d.params then
    { d with
      labels := Function.update d.labels idx kUnvisited
      candidateCells := d.candidateCells ++ [idx] }
  else d

def judgeCells : ObstacleDetector R :=
  let d := d.touchedCells.foldl judgeCell d
  { d with stats := { d.stats with candidateCells := d.candidateCells.length } }

/-- The round of the loop of `clusterCells` for a seed. The `while` loop pops every candidate cell
at most once; the extents are those of the cells in the order in which they are popped. -/
def clusterSeed (s : ClusterState R) (seed : Int) : ClusterState R :=
  if s.labels seed ≠ kUnvisited then s
  else
    let clusterId : Int := s.clusters.length
    let filled := FloodFill.fill d.params.neighbours kUnvisited clusterId d.candidateCells.length
      (FloodFill.start clusterId s.labels seed)
    let component := filled.popped
    let cluster := component.foldl (fun c idx => c.cover (d.grid idx)) ObstacleCluster.start
    if (component.length : Int) < d.params.minClusterCells then
      { s with
        labels := FloodFill.relabel kNone component filled.labels
        components := s.components ++ [component] }
    else
      { labels := filled.labels
        clusters := s.clusters ++ [{ cluster with numCells := component.length }]
        components := s.components ++ [component] }

def clusterLoop : ClusterState R :=
  d.candidateCells.foldl d.clusterSeed ⟨d.labels, d.clusters, []⟩

def clusterCells : ObstacleDetector R :=
  { d with labels := d.clusterLoop.labels, clusters := d.clusterLoop.clusters }

def extractPoint (cp : CroppedPoint R) : ObstacleDetector R :=
  let label := d.labels cp.cell
  if label < 0 then d
  else
    { d with
      obstaclePoints := d.obstaclePoints ++ [cp.p]
      clusters := d.clusters.modify label.toNat fun c => { c with numPoints := c.numPoints + 1 } }

def extractPoints : ObstacleDetector R := d.cropped.foldl extractPoint d

def process (f : Frame R) : ObstacleDetector R :=
  let d := ((((d.beginFrame f).accumulate f).judgeCells).clusterCells).extractPoints
  { d with
    stats :=
      { d.stats with
        croppedPoints := d.cropped.length
        outputPoints := d.obstaclePoints.length
        numClusters := d.clusters.length } }

/-- The indices at which a call of `process` reads or writes `grid_` and `labels_`. -/
def gridIndices (f : Frame R) : List Int :=
  let a := (d.beginFrame f).accumulate f
  let j := a.judgeCells
  d.touchedCells ++ a.cropped.map CroppedPoint.cell ++ a.touchedCells ++ j.candidateCells ++
    j.clusterLoop.components.flatMap fun component =>
      component ++ component.flatMap j.params.neighbours

/-- The `int`s of a call of `process` that are not bounded by the number of cells: the counts of
points, and the ends of the loops over neighbours. -/
def ints (f : Frame R) : List Int :=
  let a := (d.beginFrame f).accumulate f
  let j := a.judgeCells
  (a.touchedCells.map fun idx => (a.grid idx).count) ++
    (j.clusterLoop.components.flatMap fun component => component.flatMap j.params.reach) ++
    (d.process f).clusters.map ObstacleCluster.numPoints

/-- The call indexes inside of the grid, and no `int` of it overflows. -/
def Defined (f : Frame R) : Prop :=
  (∀ idx ∈ d.gridIndices f, 0 ≤ idx ∧ idx < d.params.gridWidth * d.params.gridHeight) ∧
    ∀ n ∈ d.ints f, InInt32 n

/-- Every call of a run is defined. -/
def RunDefined : ObstacleDetector R → List (Frame R) → Prop
  | _, [] => True
  | d, f :: rest => d.Defined f ∧ RunDefined (d.process f) rest

end ObstacleDetector

end Model

end MgRobot.ObstacleDetection

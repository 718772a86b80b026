import MgRobot.Lib.ParallelFor
import MgRobot.Slam.GridUtils

/-!
# The counting renderer

`map_manager/counting_renderer.cpp`. What a node adds to the two count maps is a list of
writes; `rerender_all` shares the nodes among threads with maps of their own. The lines
and discs of OpenCV are a parameter.
-/

namespace MgRobot.Slam

set_option autoImplicit false

open MgRobot.Lib.ParallelFor

structure CountingConfig (R : Type*) where
  resolution : R
  expansionMargin : R
  hitThreshold : R
  minHits : Int
  hitWeight : R
  missWeight : R
  missClearanceMargin : R
  maxMissRatio : R

/-- A `CV_8UC1` matrix, by row and column. -/
abbrev Mask := Int → Int → UInt8

/-- `cv::polylines` in colour 1 with thickness 1, and `cv::circle` filled with 0. -/
structure Drawing where
  polylines : (rows cols : Int) → Mask → List (List Pixel) → Mask
  circle : (rows cols : Int) → Mask → Pixel → Int → Mask

/-- A `CV_32SC1` matrix, by pixel. -/
abbrev Counts := Pixel → Int

/-- `at<int32_t>(y, x) += v` for every write in turn. -/
def Counts.apply (c : Counts) (writes : List (Pixel × Int)) : Counts :=
  writes.foldl (fun c w => Function.update c w.1 (c w.1 + w.2)) c

/-- What a node adds to the hit map and to the miss map, and whether it counts as rendered. -/
structure NodeWrites where
  hits : List (Pixel × Int)
  misses : List (Pixel × Int)
  rendered : Bool

/-- The box of pixels around the sensor and its hits. -/
structure PixelBox where
  minPx : Int
  minPy : Int
  maxPx : Int
  maxPy : Int
  deriving DecidableEq, Repr

namespace PixelBox

def rows (b : PixelBox) : Int := b.maxPy - b.minPy + 1

def cols (b : PixelBox) : Int := b.maxPx - b.minPx + 1

def around (s : ScanHitsPixels) : PixelBox where
  minPx := (s.hits.map Prod.fst).foldl min s.robot.1
  minPy := (s.hits.map Prod.snd).foldl min s.robot.2
  maxPx := (s.hits.map Prod.fst).foldl max s.robot.1
  maxPy := (s.hits.map Prod.snd).foldl max s.robot.2

/-- A pixel of the map in the box. -/
def toLocal (b : PixelBox) (p : Pixel) : Pixel := (p.1 - b.minPx, p.2 - b.minPy)

end PixelBox

/-- The renderer; `hit_map_` and `miss_map_` have the size of the frame. -/
structure CountingRenderer (R : Type*) where
  frame : MapFrame R
  initialized : Bool
  hitMap : Counts
  missMap : Counts
  renderCount : Nat

/-- A `CV_8SC1` matrix of `-1`, `0` and `100`, by pixel; `none` where a conversion is undefined. -/
structure OccupancyGridData (R : Type*) where
  data : Pixel → Option Int
  originX : R
  originY : R
  resolution : R

/-- What the threads of a parallel redraw do, and the order in which their maps are merged. -/
structure Workers (n : Nat) {α : Type*} (items : List α) extends Schedule n items where
  mergeOrder : List (Fin n)
  merged : mergeOrder.Perm (List.finRange n)

variable {R : Type*} [Field R] [LinearOrder R] [FloorRing R]
variable (cfg : CountingConfig R) (m : Numerics R) (draw : Drawing) (f : MapFrame R)

/-- The ray to a hit, shortened by the clearance margin. -/
def missCurve (marginPx : R) (start stop : Pixel) : List Pixel :=
  let dx : R := (stop.1 - start.1 : Int)
  let dy : R := (stop.2 - start.2 : Int)
  let dist := m.hypot dx dy
  if marginPx < dist ∧ 0 < marginPx then
    let scale := (dist - marginPx) / dist
    [start, (start.1 + roundToInt (dx * scale), start.2 + roundToInt (dy * scale))]
  else [start, stop]

/-- The cells of the box that the rays go through, except around the hits. -/
def missMask (s : ScanHitsPixels) : Mask :=
  let box := PixelBox.around s
  let start := box.toLocal s.robot
  let marginPx := cfg.missClearanceMargin / cfg.resolution
  let maskClearRadius := roundToInt marginPx
  let drawn := draw.polylines box.rows box.cols (fun _ _ => 0)
    (s.hits.map fun p => missCurve m marginPx start (box.toLocal p))
  s.hits.foldl (fun mask p =>
    let l := box.toLocal p
    if 0 < maskClearRadius then draw.circle box.rows box.cols mask l maskClearRadius
    else Function.update mask l.2 (Function.update (mask l.2) l.1 0)) drawn

/-- The pixels of the map under the mask. -/
def missPixels (s : ScanHitsPixels) : List Pixel :=
  let box := PixelBox.around s
  let mask := missMask cfg m draw s
  (List.range box.rows.toNat).flatMap fun (r : Nat) =>
    (List.range box.cols.toNat).filterMap fun (c : Nat) =>
      if 0 < mask r c then some (box.minPx + c, box.minPy + r) else none

/-- The cells of a submap patch that fall on the map, with their counts. -/
def patchCells (node : MapNode R) (patch : SubmapPatch R) : List (Pixel × Int × Int) :=
  (List.range patch.height).flatMap fun (r : Nat) =>
    (List.range patch.width).filterMap fun (c : Nat) =>
      let hit := patch.hitPatch r c
      let miss := patch.missPatch r c
      if hit = 0 ∧ miss = 0 then none
      else
        let p := f.worldToPixel (node.toWorld m (patch.originX + c * patch.resolution)
          (patch.originY + r * patch.resolution))
        if f.inBounds p then some (p, hit, miss) else none

def nodeWrites (node : MapNode R) : NodeWrites :=
  match node.submapPatch, node.scan with
  | some patch, _ =>
      let cells := patchCells m f node patch
      { hits := cells.filterMap fun c => if 0 < c.2.1 then some (c.1, c.2.1) else none
        misses := cells.filterMap fun c => if 0 < c.2.2 then some (c.1, c.2.2) else none
        rendered := true }
  | none, none => ⟨[], [], true⟩
  | none, some _ =>
      let s := scanHitsToPixels m f node
      if ¬ f.inBounds s.robot then ⟨[], [], false⟩
      else if s.hits.isEmpty then ⟨[], [], true⟩
      else
        { hits := s.hits.map fun p => (p, 1)
          misses := (missPixels cfg m draw s).map fun p => (p, 1)
          rendered := true }

/-- The hit map, the miss map and the answer. -/
def renderNodeImpl (node : MapNode R) (hit miss : Counts) : Counts × Counts × Bool :=
  let w := nodeWrites cfg m draw f node
  (hit.apply w.hits, miss.apply w.misses, w.rendered)

/-- A node that has something to draw. -/
def MapNode.drawable {R : Type*} (node : MapNode R) : Bool :=
  node.scan.isSome || node.submapPatch.isSome

/-- Maps that are drawn on, and the number of rendered nodes. -/
structure Drawn where
  hit : Counts
  miss : Counts
  count : Nat

def Drawn.empty : Drawn := ⟨fun _ => 0, fun _ => 0, 0⟩

/-- The body of the loops of `rerender_all`. -/
def drawNode (d : Drawn) (node : MapNode R) : Drawn :=
  if node.drawable then
    let r := renderNodeImpl cfg m draw f node d.hit d.miss
    ⟨r.1, r.2.1, d.count + if r.2.2 then 1 else 0⟩
  else d

def drawSequential (nodes : List (MapNode R)) : Drawn :=
  nodes.foldl (drawNode cfg m draw f) .empty

/-- The maps of the threads are added up row by row. -/
def mergeDrawn {n : Nat} (order : List (Fin n)) (parts : Fin n → Drawn) : Drawn where
  hit p := if f.inBounds p then (order.map fun t => (parts t).hit p).sum else 0
  miss p := if f.inBounds p then (order.map fun t => (parts t).miss p).sum else 0
  count := (order.map fun t => (parts t).count).sum

namespace CountingRenderer

def new : CountingRenderer R where
  frame := ⟨0, 0, cfg.resolution, 1, 1⟩
  initialized := false
  hitMap := fun _ => 0
  missMap := fun _ => 0
  renderCount := 0

variable (r : CountingRenderer R)

def renderNode (node : MapNode R) : CountingRenderer R × Bool :=
  let d := renderNodeImpl cfg m draw r.frame node r.hitMap r.missMap
  ({ r with
      hitMap := d.1
      missMap := d.2.1
      renderCount := r.renderCount + if d.2.2 then 1 else 0 }, d.2.2)

def addNode (node : MapNode R) : CountingRenderer R × Bool :=
  if !node.drawable then (r, true)
  else if !r.initialized || decide (r.frame.width ≤ 1) || decide (r.frame.height ≤ 1) then (r, false)
  else if ¬ r.frame.inBounds (r.frame.worldToPixel (node.x, node.y)) then (r, false)
  else r.renderNode cfg m draw node

/-- `maxThreads` is `omp_get_max_threads()`. -/
def rerenderAll (nodes : List (MapNode R)) (maxThreads : Nat)
    (workers : Workers (min 4 maxThreads) nodes) : CountingRenderer R :=
  if nodes.isEmpty then r
  else
    let frame := computeBounds nodes cfg.resolution cfg.expansionMargin
    let d :=
      if min 4 maxThreads ≤ 1 ∨ nodes.length ≤ 4 then drawSequential cfg m draw frame nodes
      else
        mergeDrawn frame workers.mergeOrder
          (run (drawNode cfg m draw frame) (fun _ => .empty) workers.steps)
    ⟨frame, true, d.hit, d.miss, d.count⟩

/-- The misses of a cell that count: confirmed walls have a cap. -/
def effMisses (hits misses : Int) : Option Int :=
  if cfg.minHits ≤ hits ∧ 0 < cfg.maxMissRatio then
    (toInt32 (hits * cfg.maxMissRatio)).map fun maxAllowedMiss => min misses maxAllowedMiss
  else some misses

/-- What `to_occupancy_array` makes of the counts of a cell. -/
def occupancy (hits misses : Int) : Option Int :=
  if hits = 0 ∧ misses = 0 then some (-1)
  else
    (effMisses cfg hits misses).map fun (effMisses : Int) =>
      let weightedHits := hits * cfg.hitWeight
      let weightedMisses := effMisses * cfg.missWeight
      let weightedTotal := weightedHits + weightedMisses
      if weightedTotal ≤ 0 then -1
      else
        let ratio := weightedHits / weightedTotal
        if cfg.minHits ≤ hits ∧ cfg.hitThreshold ≤ ratio then 100 else 0

def toOccupancyArray : OccupancyGridData R where
  data p := occupancy cfg (r.hitMap p) (r.missMap p)
  originX := r.frame.originX
  originY := r.frame.originY
  resolution := r.frame.resolution

end CountingRenderer

end MgRobot.Slam

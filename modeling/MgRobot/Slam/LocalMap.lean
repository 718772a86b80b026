import MgRobot.Slam.GridUtils
import MgRobot.Lib.Runs
import MgRobot.Slam.RelativePoses

/-!
# Points of a scan

`core/geometry.cpp`: the points and normals of a scan in the frame of the robot, and
the change between that frame and the world.
-/

namespace MgRobot.Slam

set_option autoImplicit false

/-- A `PoseNode` as the reference provider reads it. -/
structure ScanNode (R : Type*) where
  index : Int
  x : R
  y : R
  yaw : R
  scan : Option (BeamScan R)
  normals : Option (List (R × R))

def ScanNode.pose {R : Type*} (n : ScanNode R) : Pose R := ⟨n.x, n.y, n.yaw⟩

def ScanNode.withPose {R : Type*} (n : ScanNode R) (p : Pose R) : ScanNode R :=
  { n with x := p.x, y := p.y, yaw := p.yaw }

variable {R : Type*} [Field R] [LinearOrder R] (m : Numerics R)

namespace BeamScan

variable (scan : BeamScan R)

/-- The range check of a beam, with both limits valid. -/
def inLimits (r : R) : Prop := scan.rangeMin ≤ r ∧ r ≤ scan.rangeMax

instance (r : R) : Decidable (scan.inLimits r) := inferInstanceAs (Decidable (_ ∧ _))

/-- The end of a beam of the length `r` at the angle `angle`. -/
def beamPoint (angle r : R) : R × R :=
  (r * m.cos angle + scan.lidarX, r * m.sin angle + scan.lidarY)

/-- The valid beams, with their numbers. -/
def validBeams : List ((R × R) × Nat) :=
  scan.ranges.zipIdx.filterMap fun p =>
    if scan.inLimits p.1 then some (scan.beamPoint m (beamAngle scan p.2) p.1, p.2) else none

end BeamScan

/-- `scan_to_points`. -/
def scanToPoints (scan : BeamScan R) : List (R × R) := (scan.validBeams m).map Prod.fst

section Normals

variable (scan : BeamScan R)

def squaredNorm (v : R × R) : R := v.1 * v.1 + v.2 * v.2

/-- Whether the points `i` and `j`, `step` places apart, lie on one surface. -/
def onSurface (beams : List ((R × R) × Nat)) (i j step : Nat) : Prop :=
  match beams[i]?, beams[j]? with
  | some a, some b =>
      b.2 - a.2 ≤ step + 1 ∧
        squaredNorm (b.1 - a.1) < 1 / 4 * (1 / 4) * (step : R) * (step : R)
  | _, _ => False

instance (beams : List ((R × R) × Nat)) (i j step : Nat) : Decidable (onSurface beams i j step) := by
  unfold onSurface
  split <;> infer_instance

/-- `prev_idx`. -/
def prevIdx (beams : List ((R × R) × Nat)) (i : Nat) : Option Nat :=
  [1, 2].findSome? fun step =>
    if step ≤ i ∧ onSurface beams (i - step) i step then some (i - step) else none

/-- `next_idx`. -/
def nextIdx (beams : List ((R × R) × Nat)) (i : Nat) : Option Nat :=
  [1, 2].findSome? fun step => if onSurface beams i (i + step) step then some (i + step) else none

/-- The direction of the surface at point `i`, from its neighbours. -/
def tangentAt (beams : List ((R × R) × Nat)) (i : Nat) : Option (R × R) :=
  let pt := fun k => (beams.getD k ((0, 0), 0)).1
  match prevIdx beams i, nextIdx beams i with
  | some p, some n => some (pt n - pt p)
  | none, some n => some (pt n - pt i)
  | some p, none => some (pt i - pt p)
  | none, none => none

/-- The normal of point `i`, towards the sensor. -/
def normalAt (beams : List ((R × R) × Nat)) (i : Nat) : R × R :=
  let pt := (beams.getD i ((0, 0), 0)).1
  let view := (scan.lidarX - pt.1, scan.lidarY - pt.2)
  let fallback :=
    let norm := m.sqrt (squaredNorm view)
    if 1 / 10000 < norm then (view.1 / norm, view.2 / norm) else (0, 1)
  match tangentAt beams i with
  | some tangent =>
      if 1 / 100000000 < squaredNorm tangent then
        let norm := m.sqrt (squaredNorm tangent)
        let normal := (-tangent.2 / norm, tangent.1 / norm)
        if normal.1 * view.1 + normal.2 * view.2 < 0 then (-normal.1, -normal.2) else normal
      else fallback
  | none => fallback

/-- `scan_to_points_and_normals`. -/
def scanToPointsAndNormals : List (R × R) × List (R × R) :=
  let beams := scan.validBeams m
  (beams.map Prod.fst, (List.range beams.length).map (normalAt m scan beams))

theorem scanToPointsAndNormals_fst : (scanToPointsAndNormals m scan).1 = scanToPoints m scan := rfl

/-- Every point gets a normal. -/
theorem length_scanToPointsAndNormals : (scanToPointsAndNormals m scan).2.length =
    (scanToPoints m scan).length := by
  simp [scanToPointsAndNormals, scanToPoints]

/-- The stored normals of a node, else the estimated ones: the points and normals of its scan. -/
def scanCloud (normals : Option (List (R × R))) : List (R × R) × List (R × R) :=
  match normals with
  | some ns =>
      if ns.isEmpty then scanToPointsAndNormals m scan else (scanToPoints m scan, ns)
  | none => scanToPointsAndNormals m scan

theorem scanCloud_fst (normals : Option (List (R × R))) :
    (scanCloud m scan normals).1 = scanToPoints m scan := by
  unfold scanCloud
  split
  · split_ifs
    · exact scanToPointsAndNormals_fst m scan
    · rfl
  · exact scanToPointsAndNormals_fst m scan

theorem length_scanCloud {normals : Option (List (R × R))}
    (h : ∀ ns, normals = some ns → ns.length = (scanToPoints m scan).length) :
    (scanCloud m scan normals).2.length = (scanCloud m scan normals).1.length := by
  rw [scanCloud_fst]
  unfold scanCloud
  split
  next ns =>
    split_ifs
    · exact length_scanToPointsAndNormals m scan
    · exact h ns rfl
  next => exact length_scanToPointsAndNormals m scan

end Normals

section Frames

variable (p : Pose R)

/-- `points_local_to_world`. -/
def pointsLocalToWorld (pts : List (R × R)) : List (R × R) :=
  pts.map fun pt =>
    (m.cos p.yaw * pt.1 - m.sin p.yaw * pt.2 + p.x, m.sin p.yaw * pt.1 + m.cos p.yaw * pt.2 + p.y)

/-- `points_world_to_local`. -/
def pointsWorldToLocal (pts : List (R × R)) : List (R × R) :=
  pts.map fun pt =>
    let dx := pt.1 - p.x
    let dy := pt.2 - p.y
    (m.cos p.yaw * dx + m.sin p.yaw * dy, -m.sin p.yaw * dx + m.cos p.yaw * dy)

/-- `normals_local_to_world`. -/
def normalsLocalToWorld (yaw : R) (normals : List (R × R)) : List (R × R) :=
  normals.map fun n => (m.cos yaw * n.1 - m.sin yaw * n.2, m.sin yaw * n.1 + m.cos yaw * n.2)

/-- `normals_world_to_local`. -/
def normalsWorldToLocal (yaw : R) (normals : List (R × R)) : List (R × R) :=
  normals.map fun n => (m.cos yaw * n.1 + m.sin yaw * n.2, -m.sin yaw * n.1 + m.cos yaw * n.2)

end Frames

end MgRobot.Slam

/-!
# LocalMapProvider

The reference cloud of the scan matching: the points of the last keyframes, near the
latest node and in its frame. The provider keeps its own copies of the poses, which
`sync_poses` brings up to date.
-/

namespace MgRobot.Slam

set_option autoImplicit false

structure CachedKeyframe (R : Type*) where
  node : ScanNode R
  pts : List (R × R)
  normals : List (R × R)

structure LocalMapProvider (R : Type*) where
  window : Int
  radius : R
  nodes : List (CachedKeyframe R)
  lastNode : Option (ScanNode R)

namespace LocalMapProvider

section Definitions

variable {R : Type*} [Field R] [LinearOrder R] (m : Numerics R)

def new (window : Int) (radius : R) : LocalMapProvider R := ⟨window, radius, [], none⟩

variable (p : LocalMapProvider R)

/-- The keyframe that `update` caches of a node with a scan. -/
def keyframe (node : ScanNode R) (scan : BeamScan R) : CachedKeyframe R :=
  let cloud := scanCloud m scan node.normals
  ⟨node, cloud.1, cloud.2⟩

def update (node : ScanNode R) : LocalMapProvider R :=
  match node.scan with
  | some scan =>
      let kept := if p.window ≤ p.nodes.length then p.nodes.tail else p.nodes
      { p with nodes := kept ++ [keyframe m node scan], lastNode := some node }
  | none => { p with lastNode := some node }

/-- The node list of a `sync_poses` has the node with index `i` at place `i`, by its ends. -/
def isSequential (nodes : List (ScanNode R)) : Bool :=
  nodes.head?.any (fun n => n.index = 0) &&
    nodes.getLast?.any (fun n => n.index = (nodes.length : Int) - 1)

/-- `nodes[idx]` behind its range check. -/
def nodeAt (nodes : List (ScanNode R)) (idx : Int) : Option (ScanNode R) :=
  if 0 ≤ idx then nodes[idx.toNat]? else none

/-- `node_map.find(idx)`; a later node with the index replaces an earlier one. -/
def nodeMapped (nodes : List (ScanNode R)) (idx : Int) : Option (ScanNode R) :=
  nodes.reverse.find? fun n => n.index = idx

/-- A loop over the keyframes that takes over the poses `find` answers. -/
def takePoses (find : Int → Option (ScanNode R)) (kf : CachedKeyframe R) : CachedKeyframe R :=
  match find kf.node.index with
  | some n => { kf with node := kf.node.withPose n.pose }
  | none => kf

def takeLast (find : Int → Option (ScanNode R)) (last : ScanNode R) : ScanNode R :=
  (find last.index).getD last

def syncPoses (nodes : List (ScanNode R)) : LocalMapProvider R :=
  if nodes.isEmpty || p.nodes.isEmpty then p
  else if isSequential nodes then
    { p with
      nodes := p.nodes.map (takePoses (nodeAt nodes))
      lastNode := p.lastNode.map (takeLast (nodeAt nodes)) }
  else
    { p with
      nodes := p.nodes.map (takePoses (nodeMapped nodes))
      lastNode := p.lastNode.map (takeLast (nodeMapped nodes)) }

/-- The points and normals of a keyframe in the world that are near `last`. A point without a
normal gets `(0, 1)`. -/
def nearPoints (last : ScanNode R) (kf : CachedKeyframe R) : List ((R × R) × (R × R)) :=
  let worldPts := pointsLocalToWorld m kf.node.pose kf.pts
  let worldNormals := normalsLocalToWorld m kf.node.yaw kf.normals
  worldPts.zipIdx.filterMap fun w =>
    let dx := w.1.1 - last.x
    let dy := w.1.2 - last.y
    if dx * dx + dy * dy ≤ p.radius * p.radius then some (w.1, worldNormals.getD w.2 (0, 1))
    else none

def getReferencePtsAndNormals : Option (List (R × R) × List (R × R)) :=
  match p.lastNode with
  | none => none
  | some last =>
      let world := p.nodes.flatMap (p.nearPoints m last)
      if world.isEmpty then none
      else some (pointsWorldToLocal m last.pose (world.map Prod.fst),
        normalsWorldToLocal m last.yaw (world.map Prod.snd))

def getReferencePts : Option (List (R × R)) := (p.getReferencePtsAndNormals m).map Prod.fst

end Definitions

end LocalMapProvider

end MgRobot.Slam

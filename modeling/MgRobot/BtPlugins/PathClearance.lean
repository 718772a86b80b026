import MgRobot.Lib.Numerals
import Mathlib.Algebra.Order.Floor.Defs
import Mathlib.Algebra.Order.Ring.Defs
import Mathlib.Algebra.Field.Defs
import Mathlib.Algebra.Order.Group.Unbundled.Abs

/-!
# Costmap2D and FootprintCollisionChecker

The costmap and the footprint checker of `nav2_costmap_2d`. The cells that its
line iterator visits between two cells are a parameter; costs are the numbers
that the bytes of the map stand for.
-/

namespace MgRobot.BtPlugins

set_option autoImplicit false

def NO_INFORMATION : Nat := 255
def LETHAL_OBSTACLE : Nat := 254

/-- `<cmath>`. -/
structure Cmath (R : Type*) where
  sqrt : R → R
  sin : R → R
  cos : R → R
  /-- `std::atan2(y, x)`. -/
  atan2 : R → R → R
  hypot : R → R → R

abbrev Cell := Nat × Nat

/-- The cells that `nav2_util::LineIterator` visits, in order. -/
abbrev LineIterator := Cell → Cell → List Cell

variable {R : Type*}

structure Costmap2D (R : Type*) where
  sizeX : Nat
  sizeY : Nat
  resolution : R
  originX : R
  originY : R
  cost : Cell → UInt8

structure Point (R : Type*) where
  x : R
  y : R
  deriving DecidableEq, Repr

/-- A footprint is read with at least three points, or made from a radius with sixteen. -/
structure Footprint (R : Type*) where
  points : List (Point R)
  three : 3 ≤ points.length

namespace Costmap2D

variable (costmap : Costmap2D R)

def worldToMap [Field R] [LinearOrder R] [FloorRing R] (wx wy : R) : Option Cell :=
  if wx < costmap.originX ∨ wy < costmap.originY then none
  else
    let mx := ⌊(wx - costmap.originX) / costmap.resolution⌋.toNat
    let my := ⌊(wy - costmap.originY) / costmap.resolution⌋.toNat
    if mx < costmap.sizeX ∧ my < costmap.sizeY then some (mx, my) else none

def pointCost (cell : Cell) : Nat := (costmap.cost cell).toNat

/-- The loop of `lineCost`. -/
def costAlong (lineCost : Nat) : List Cell → Nat
  | [] => lineCost
  | cell :: rest =>
      if costmap.pointCost cell = LETHAL_OBSTACLE then LETHAL_OBSTACLE
      else costAlong (max lineCost (costmap.pointCost cell)) rest

def lineCost (line : LineIterator) (c₀ c₁ : Cell) : Nat := costmap.costAlong 0 (line c₀ c₁)

section Footprint

variable [Field R] [LinearOrder R] [FloorRing R]

/-- The loop of `footprintCost` from the cell of a point on, and the line back to the start. -/
def outlineCost (line : LineIterator) (start : Cell) :
    Cell → Nat → List (Point R) → Nat
  | c₀, footprintCost, [] => max (costmap.lineCost line start c₀) footprintCost
  | c₀, footprintCost, p :: rest =>
      match costmap.worldToMap p.x p.y with
      | none => LETHAL_OBSTACLE
      | some c₁ =>
          let footprintCost := max (costmap.lineCost line c₀ c₁) footprintCost
          if footprintCost = LETHAL_OBSTACLE then footprintCost
          else outlineCost line start c₁ footprintCost rest

def footprintCost (line : LineIterator) : List (Point R) → Nat
  | [] => LETHAL_OBSTACLE  -- a footprint has points
  | p :: rest =>
      match costmap.worldToMap p.x p.y with
      | none => LETHAL_OBSTACLE
      | some start => costmap.outlineCost line start start 0 rest

end Footprint

end Costmap2D

/-- The points of a footprint at a pose. -/
def orient [Ring R] (m : Cmath R) (x y theta : R) (points : List (Point R)) : List (Point R) :=
  points.map fun p =>
    ⟨x + (p.x * m.cos theta - p.y * m.sin theta), y + (p.x * m.sin theta + p.y * m.cos theta)⟩

def footprintCostAtPose [Field R] [LinearOrder R] [FloorRing R] (m : Cmath R) (line : LineIterator)
    (costmap : Costmap2D R) (footprint : Footprint R) (x y theta : R) : Nat :=
  costmap.footprintCost line (orient m x y theta footprint.points)

end MgRobot.BtPlugins

/-!
# PathClearanceChecker

The checker of `path_clearance.cpp`. Its loop along the pure-pursuit arc has no
bound of its own: it runs on fuel, and `none` is a run that has not ended yet.
-/

namespace MgRobot.BtPlugins

set_option autoImplicit false

variable {R : Type*}

structure Pose2D (R : Type*) where
  x : R
  y : R
  theta : R
  deriving DecidableEq, Repr

structure PathClearanceParams (R : Type*) where
  useVelocityScaledLookaheadDist : Bool
  lookaheadDist : R
  minLookaheadDist : R
  maxLookaheadDist : R
  useRotateToHeading : Bool
  rotateToHeadingMinAngle : R
  maxRobotPoseSearchDist : R
  trackUnknownSpace : Bool
  margin : R

structure PathClearanceChecker (R : Type*) where
  costmap : Costmap2D R
  footprint : Footprint R
  params : PathClearanceParams R

section

variable [Field R] [LinearOrder R] [FloorRing R]

def kRotationStep : R := 5 / 100

/-- A segment shorter than this is skipped. -/
def kMinSegment : R := 1 / 10 ^ 6

variable (m : Cmath R) (line : LineIterator)

omit [LinearOrder R] [FloorRing R] in
def distance (a b : Pose2D R) : R := m.hypot (a.x - b.x) (a.y - b.y)

namespace PathClearanceChecker

variable (c : PathClearanceChecker R)

def inCollision (p : Pose2D R) : Bool :=
  match c.costmap.worldToMap p.x p.y with
  | none => false
  | some _ =>
      let footprintCost := footprintCostAtPose m line c.costmap c.footprint p.x p.y p.theta
      if footprintCost = NO_INFORMATION ∧ c.params.trackUnknownSpace then false
      else LETHAL_OBSTACLE ≤ footprintCost

/-! ### resamplePathAhead -/

omit [FloorRing R] in
/-- The loop that looks for the closest point, from point `i` on; `previous` is the point before,
`integrated` the length up to there. -/
def closestFrom (robotPose : Pose2D R) (searchDist : R) :
    Nat → Option (Pose2D R) → R → Nat × Option R → List (Pose2D R) → Nat
  | _, _, _, (closest, _), [] => closest
  | i, previous, integrated, (closest, closestDist), p :: rest =>
      let integrated :=
        match previous with
        | some a => integrated + distance m a p
        | none => integrated
      if previous.isSome ∧ searchDist < integrated then closest
      else
        let d := distance m p robotPose
        let best :=
          match closestDist with
          | none => (i, some d)
          | some best => if d < best then (i, some d) else (closest, some best)
        closestFrom robotPose searchDist (i + 1) (some p) integrated best rest

omit [FloorRing R] in
def closestIndex (robotPose : Pose2D R) (path : List (Pose2D R)) : Nat :=
  closestFrom m robotPose c.params.maxRobotPoseSearchDist 0 none 0 (0, none) path

omit [FloorRing R] in
/-- The offsets of the inner loop: `s`, `s + step`, .. while they are on the segment and within
the length. -/
def offsets (step seg length travelled : R) : Nat → R → List R
  | 0, _ => []
  | n + 1, s =>
      if s < seg ∧ travelled + s ≤ length then
        s :: offsets step seg length travelled n (s + step)
      else []

/-- The samples of one segment. The inner loop makes at most `⌈seg / step⌉` rounds. -/
def sampleSegment (step length travelled : R) (a b : Pose2D R) : List (Pose2D R) :=
  let seg := distance m a b
  let heading := m.atan2 (b.y - a.y) (b.x - a.x)
  (offsets step seg length travelled ⌈seg / step⌉.toNat 0).map fun s =>
    ⟨a.x + (b.x - a.x) * s / seg, a.y + (b.y - a.y) * s / seg, heading⟩

/-- The loop over the segments: the samples, and the length that has been travelled. -/
def resampleSegments (step length : R) : R → List (Pose2D R) → List (Pose2D R) × R
  | travelled, a :: b :: rest =>
      if travelled ≤ length then
        if distance m a b < kMinSegment then resampleSegments step length travelled (b :: rest)
        else
          let (samples, total) :=
            resampleSegments step length (travelled + distance m a b) (b :: rest)
          (sampleSegment m step length travelled a b ++ samples, total)
      else ([], travelled)
  | travelled, _ => ([], travelled)

omit [FloorRing R] in
/-- The end of the path, headed like its last segment. -/
def lastPose (path : List (Pose2D R)) (last : Pose2D R) : Pose2D R :=
  match path.dropLast.getLast? with
  | none => last
  | some prev =>
      if kMinSegment < distance m prev last then
        { last with theta := m.atan2 (last.y - prev.y) (last.x - prev.x) }
      else last

def resamplePathAhead (robotPose : Pose2D R) (path : List (Pose2D R)) (length : R) :
    List (Pose2D R) :=
  match path.getLast? with
  | none => []
  | some last =>
      let (resampled, travelled) := resampleSegments m c.costmap.resolution length 0
        (path.drop (c.closestIndex m robotPose path))
      if travelled ≤ length ∨ resampled = [] then resampled ++ [lastPose m path last]
      else resampled

/-! ### isMotionToCarrotBlocked -/

omit [FloorRing R] [LinearOrder R] in
/-- One round of the loop along the arc. -/
def advance (step curvature : R) (pose : Pose2D R) : Pose2D R :=
  ⟨pose.x + step * m.cos pose.theta, pose.y + step * m.sin pose.theta,
    pose.theta + step * curvature⟩

/-- The loop along the arc from the robot. -/
def arcBlocked (robotPose : Pose2D R) (step curvature carrotDist : R) :
    Nat → Pose2D R → Option Bool
  | 0, _ => none
  | fuel + 1, pose =>
      let pose := advance m step curvature pose
      if carrotDist < distance m pose robotPose then some false
      else if c.inCollision m line pose then some true
      else arcBlocked robotPose step curvature carrotDist fuel pose

omit [FloorRing R] in
/-- The headings of the rotation in place. -/
def rotationPoses (robotPose : Pose2D R) (angle : R) (steps : Nat) : List (Pose2D R) :=
  (List.range steps).map fun i =>
    { robotPose with theta := robotPose.theta + angle * ((i + 1 : Nat) : R) / (steps : R) }

omit [LinearOrder R] [FloorRing R] in
/-- The carrot in the frame of the robot. -/
def carrotInRobotFrame (robotPose carrot : Pose2D R) : R × R :=
  let dx := carrot.x - robotPose.x
  let dy := carrot.y - robotPose.y
  let cos := m.cos robotPose.theta
  let sin := m.sin robotPose.theta
  (cos * dx + sin * dy, -sin * dx + cos * dy)

omit [FloorRing R] in
def curvatureTo (carrotX carrotY : R) : R :=
  let carrotDist2 := carrotX * carrotX + carrotY * carrotY
  if 1 / 1000 < carrotDist2 then 2 * carrotY / carrotDist2 else 0

def isMotionToCarrotBlocked (fuel : Nat) (robotPose carrot : Pose2D R) : Option Bool :=
  let (carrotX, carrotY) := carrotInRobotFrame m robotPose carrot
  let carrotDist := m.sqrt (carrotX * carrotX + carrotY * carrotY)
  let angleToCarrot := m.atan2 carrotY carrotX
  if c.params.useRotateToHeading ∧ c.params.rotateToHeadingMinAngle < |angleToCarrot| then
    let steps := ⌈|angleToCarrot| / kRotationStep⌉.toNat
    some ((rotationPoses robotPose angleToCarrot steps).any (c.inCollision m line))
  else
    c.arcBlocked m line robotPose c.costmap.resolution (curvatureTo carrotX carrotY) carrotDist
      fuel robotPose

/-! ### isBlocked -/

omit [Field R] [LinearOrder R] [FloorRing R] in
def lookaheads : List R :=
  if c.params.useVelocityScaledLookaheadDist then
    [c.params.minLookaheadDist, c.params.maxLookaheadDist]
  else [c.params.lookaheadDist]

omit [FloorRing R] in
def bandLength : R :=
  (if c.params.useVelocityScaledLookaheadDist then
    max c.params.minLookaheadDist c.params.maxLookaheadDist
  else c.params.lookaheadDist) + c.params.margin

omit [FloorRing R] in
/-- The first point that is a lookahead away from the robot, else the last. -/
def carrotFor (robotPose : Pose2D R) (ahead : List (Pose2D R)) (lookahead : R) :
    Option (Pose2D R) :=
  (ahead.find? fun p => lookahead ≤ distance m p robotPose).or ahead.getLast?

/-- The loop over the lookaheads. -/
def anyMotionBlocked (fuel : Nat) (robotPose : Pose2D R) : List (Pose2D R) → Option Bool
  | [] => some false
  | carrot :: rest =>
      match c.isMotionToCarrotBlocked m line fuel robotPose carrot with
      | none => none
      | some true => some true
      | some false => anyMotionBlocked fuel robotPose rest

def isBlocked (fuel : Nat) (robotPose : Pose2D R) (path : List (Pose2D R)) : Option Bool :=
  if c.inCollision m line robotPose then some true
  else
    let ahead := c.resamplePathAhead m robotPose path c.bandLength
    if ahead = [] then some true
    else if ahead.any (c.inCollision m line) then some true
    else c.anyMotionBlocked m line fuel robotPose
      (c.lookaheads.filterMap (carrotFor m robotPose ahead))

end PathClearanceChecker

end

end MgRobot.BtPlugins

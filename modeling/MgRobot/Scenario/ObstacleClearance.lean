import MgRobot.Scenario.Geometry
import MgRobot.Scenario.RunPlan

/-!
# The monitor obstacle_clearance

`ObstacleClearanceMonitor` of `builtin/monitors.py`: one callback for each odometry
message, the verdict after the run. What the callback reads besides the message (the
poses of the robot and of the obstacles, the time) comes with the message.
-/

namespace MgRobot.Scenario

set_option autoImplicit false

inductive ModelType where
  | fuel
  | localFile
  | primitive
  deriving DecidableEq, Repr

inductive ModelShape where
  | unset
  | box
  | cylinder
  | sphere
  deriving DecidableEq, Repr

/-- `ModelSpec`, as far as the shape of an obstacle depends on it. -/
structure ModelSpec (R : Type*) where
  type : ModelType
  shape : ModelShape
  size : String → Option R

structure ObstacleClearanceSpec (R : Type*) [Field R] where
  obstacles : List String
  minClearance : R := 0
  speedThreshold : R := 1 / 10
  angularThreshold : R := 1 / 5
  radius : Option R := none
  topic : String := "/odom"
  requireWithin : Option R := none
  poseSource : String := "tf"

inductive Shape (R : Type*) where
  | circle (radius : R)
  | box (size : R × R)
  deriving DecidableEq, Repr

/-- What the monitor is given: the profile, the obstacles of the scenario, and the answer of the
backend when it is asked for the true pose of the robot. -/
structure ClearanceContext (R : Type*) where
  footprint : List (Point R)
  models : String → Option (ModelSpec R)
  mapInWorld : Pose R
  entityPose : Except String Unit

structure Twist (R : Type*) where
  linearX : R
  linearY : R
  angularZ : R
  deriving DecidableEq, Repr

/-- An odometry message, with what its callback reads elsewhere. -/
structure Reception (R : Type*) where
  twist : Twist R
  /-- `ctx.poses.robot.get()`; `none` is its `ScenarioError`. -/
  tfPose : Option (Pose R)
  /-- The pose of the robot in the simulator. -/
  truePose : Option (Pose R)
  entityPoses : String → Option (Pose R)
  elapsed : R

structure Previous (R : Type*) where
  robot : Pose R
  obstacle : Pose R
  distance : R
  deriving DecidableEq, Repr

structure CausedInfo (R : Type*) where
  name : String
  time : R
  speed : R
  position : R × R
  deriving DecidableEq, Repr

structure ClearanceState (R : Type*) where
  received : Nat
  observed : Bool
  minAll : Option R
  minCaused : Option R
  minCausedInfo : CausedInfo R
  previous : String → Option (Previous R)

/-- How Python prints numbers and lists of names. -/
structure PyFormat (R : Type*) where
  fixed : Nat → R → String
  str : R → String
  names : List String → String

variable {R : Type*} [Field R] [LinearOrder R]

section Construction

def ObstacleClearanceSpec.validate (spec : ObstacleClearanceSpec R) (place : String) :
    Except String Unit :=
  if spec.obstacles = [] then .error (place ++ ": 'obstacles' must not be empty")
  else if spec.poseSource ∉ ["tf", "sim"] then
    .error (place ++ ": 'pose_source' must be 'tf' or 'sim'")
  else if ∃ required ∈ spec.requireWithin, required ≤ 0 then
    .error (place ++ ": 'require_within' must be > 0")
  else .ok ()

def obstacleShape (model : ModelSpec R) (radius : Option R) (name : String) :
    Except String (Shape R) :=
  if model.type = .primitive ∧ (model.shape = .cylinder ∨ model.shape = .sphere) then
    .ok (.circle ((model.size "radius").getD (1 / 2)))
  else if model.type = .primitive ∧ model.shape = .box then
    .ok (.box ((model.size "x").getD 1, (model.size "y").getD 1))
  else
    match radius with
    | some radius => .ok (.circle radius)
    | none => .error ("obstacle_clearance: obstacle '" ++ name ++
        "' has no known shape; set 'radius'")

def shapeOf (ctx : ClearanceContext R) (radius : Option R) (name : String) :
    Except String (Shape R) :=
  match ctx.models name with
  | none => .error ("obstacle_clearance: obstacle '" ++ name ++ "' is not defined")
  | some model => obstacleShape model radius name

/-- The entries of `_shapes`, in the order of the names. -/
def shapes (ctx : ClearanceContext R) (radius : Option R) :
    List String → Except String (List (String × Shape R))
  | [] => .ok []
  | name :: rest => do
      let shape ← shapeOf ctx radius name
      let entries ← shapes ctx radius rest
      return (name, shape) :: entries

/-- A monitor whose construction went through. -/
structure ClearanceMonitor (R : Type*) [Field R] [LinearOrder R] where
  spec : ObstacleClearanceSpec R
  footprint : List (Point R)
  watched : List (String × Shape R)
  worldInMap : Pose R
  footprint_ne : footprint ≠ []
  names : watched.map Prod.fst = spec.obstacles
  /-- `_shapes` has one shape for a name, also where the name is listed twice. -/
  functional : ∀ o ∈ watched, ∀ o' ∈ watched, o.1 = o'.1 → o = o'

omit [LinearOrder R] in
theorem shapes_ok {ctx : ClearanceContext R} {radius : Option R} {obstacles : List String}
    {entries : List (String × Shape R)} (h : shapes ctx radius obstacles = .ok entries) :
    entries.map Prod.fst = obstacles ∧ ∀ o ∈ entries, shapeOf ctx radius o.1 = .ok o.2 := by
  induction obstacles generalizing entries with
  | nil =>
      obtain rfl := Except.ok.inj h
      exact ⟨rfl, nofun⟩
  | cons name rest ih =>
      rw [shapes] at h
      cases hs : shapeOf ctx radius name with
      | error e => simp [hs, bind, Except.bind] at h
      | ok shape =>
          cases hr : shapes ctx radius rest with
          | error e => simp [hs, hr, bind, Except.bind] at h
          | ok more =>
              simp only [hs, hr, bind, Except.bind, pure, Except.pure, Except.ok.injEq] at h
              subst h
              obtain ⟨hnames, hshapes⟩ := ih hr
              refine ⟨by rw [List.map_cons, hnames], ?_⟩
              intro o ho
              rcases List.mem_cons.mp ho with rfl | ho
              · exact hs
              · exact hshapes o ho

omit [LinearOrder R] in
theorem functional_of_shapes {ctx : ClearanceContext R} {radius : Option R}
    {obstacles : List String} {entries : List (String × Shape R)}
    (h : shapes ctx radius obstacles = .ok entries) :
    ∀ o ∈ entries, ∀ o' ∈ entries, o.1 = o'.1 → o = o' := by
  intro o ho o' ho' hname
  have hshape := (shapes_ok h).2 o ho
  rw [hname, (shapes_ok h).2 o' ho'] at hshape
  exact Prod.ext hname (Except.ok.inj hshape).symm

/-- `__init__`. -/
def ClearanceMonitor.create (m : PyMath R) (ctx : ClearanceContext R)
    (spec : ObstacleClearanceSpec R) : Except String (ClearanceMonitor R) :=
  if hfootprint : ctx.footprint = [] then
    .error "obstacle_clearance: profile.robot.footprint is not defined"
  else
    match h : shapes ctx spec.radius spec.obstacles with
    | .error message => .error message
    | .ok watched =>
        let monitor : ClearanceMonitor R :=
          ⟨spec, ctx.footprint, watched, ctx.mapInWorld.inverse m, hfootprint, (shapes_ok h).1,
            functional_of_shapes h⟩
        if spec.poseSource = "sim" then ctx.entityPose.map fun _ => monitor else .ok monitor

end Construction

def ClearanceState.init : ClearanceState R where
  received := 0
  observed := false
  minAll := none
  minCaused := none
  minCausedInfo := ⟨"", 0, 0, (0, 0)⟩
  previous := fun _ => none

/-- The least change of the distance that counts as the robot coming closer. -/
def CLOSING_EPSILON : R := 1 / 10000

namespace ClearanceMonitor

variable (m : PyMath R) (monitor : ClearanceMonitor R)

section Callback

variable (msg : Reception R)

/-- `ctx.poses.to_map` of a pose in the world. -/
def toMap (world : Pose R) : Pose R := monitor.worldInMap.compose m world

def obstaclePose (name : String) : Option (Pose R) := (msg.entityPoses name).map (monitor.toMap m)

def robotPose : Option (Pose R) :=
  if monitor.spec.poseSource = "sim" then msg.truePose.map (monitor.toMap m) else msg.tfPose

theorem robotPolygon_ne_nil (robot : Pose R) : transformPolygon m monitor.footprint robot ≠ [] :=
  transformPolygon_ne_nil robot monitor.footprint_ne

/-- Always a number: the footprint of a monitor has vertices. -/
def distance (shape : Shape R) (obstacle robot : Pose R) : R :=
  let robotPolygon := transformPolygon m monitor.footprint robot
  match shape with
  | .box size =>
      (polygonPolygonDistance m robotPolygon
        (transformPolygon m (rectangleVertices size) obstacle)).get
        (polygonPolygonDistance_isSome (monitor.robotPolygon_ne_nil m robot)
          (transformPolygon_ne_nil obstacle (rectangleVertices_ne_nil size)))
  | .circle radius =>
      (polygonCircleDistance m robotPolygon (obstacle.x, obstacle.y) radius).get
        (polygonCircleDistance_isSome (monitor.robotPolygon_ne_nil m robot) _ radius)

def speed : R := m.hypot msg.twist.linearX msg.twist.linearY

def moving : Bool :=
  decide (monitor.spec.speedThreshold < speed m msg) ||
    decide (monitor.spec.angularThreshold < |msg.twist.angularZ|)

/-- The end of the loop of `_on_msg`: the distance `caused` by the motion of the robot alone. -/
def count (robot : Pose R) (o : String × Shape R) (s : ClearanceState R) (before : Previous R) :
    ClearanceState R :=
  let caused := monitor.distance m o.2 before.obstacle robot
  if !monitor.moving m msg || decide (before.distance - CLOSING_EPSILON ≤ caused) then s
  else if s.minCaused.all fun least => decide (caused < least) then
    let relative := (robot.inverse m).compose m before.obstacle
    { s with
      minCaused := some caused
      minCausedInfo := ⟨o.1, msg.elapsed, speed m msg, (relative.x, relative.y)⟩ }
  else s

/-- The body of the loop over the obstacles. -/
def watch (robot : Pose R) (s : ClearanceState R) (o : String × Shape R) : ClearanceState R :=
  match monitor.obstaclePose m msg o.1 with
  | none => { s with previous := Function.update s.previous o.1 none }
  | some obstacle =>
      let distance := monitor.distance m o.2 obstacle robot
      let seen : ClearanceState R :=
        { s with
          observed := true
          minAll := some ((s.minAll.map fun least => min least distance).getD distance)
          previous := Function.update s.previous o.1 (some ⟨robot, obstacle, distance⟩) }
      match s.previous o.1 with
      | none => seen
      | some before => monitor.count m msg robot o seen before

def onMsg (s : ClearanceState R) (msg : Reception R) : ClearanceState R :=
  let s := { s with received := s.received + 1 }
  match monitor.robotPose m msg with
  | none => s
  | some robot => monitor.watched.foldl (monitor.watch m msg robot) s

end Callback

/-- The state after the messages of a run. -/
def run (msgs : List (Reception R)) : ClearanceState R :=
  msgs.foldl (monitor.onMsg m) ClearanceState.init

/-- `_evaluate`. The least distance is there as soon as an obstacle was observed. -/
def evaluate (fmt : PyFormat R) (s : ClearanceState R) : CheckResult :=
  if s.received = 0 then ⟨"", .error, "no odometry on " ++ monitor.spec.topic⟩
  else
    match s.observed, s.minAll with
    | true, some minAll =>
        let reference := "overall min " ++ fmt.fixed 2 minAll ++ " m"
        match monitor.spec.requireWithin.filter fun required => decide (required < minAll) with
        | some required =>
            ⟨"", .failed, "obstacles never came within " ++ fmt.str required ++
              " m of the robot (" ++ reference ++ "): the scenario did not meet the obstacle"⟩
        | none =>
            match s.minCaused with
            | none => ⟨"", .passed, "robot never approached obstacles (" ++ reference ++ ")"⟩
            | some caused =>
                let info := s.minCausedInfo
                ⟨"", if caused ≤ monitor.spec.minClearance then .failed else .passed,
                  "min clearance by robot motion " ++ fmt.fixed 2 caused ++ " m (limit " ++
                    fmt.str monitor.spec.minClearance ++ " m, '" ++ info.name ++ "' at t=" ++
                    fmt.fixed 1 info.time ++ "s, robot speed " ++ fmt.fixed 2 info.speed ++
                    " m/s, position in robot frame (" ++ fmt.fixed 2 info.position.1 ++ ", " ++
                    fmt.fixed 2 info.position.2 ++ "); " ++ reference ++ ")"⟩
    | _, _ => ⟨"", .error, "obstacle(s) " ++ fmt.names monitor.spec.obstacles ++
        " were never observed"⟩

/-- `result()` after the messages of a run. -/
def result (fmt : PyFormat R) (msgs : List (Reception R)) : CheckResult :=
  monitor.evaluate fmt (monitor.run m msgs)

end ClearanceMonitor

end MgRobot.Scenario

import MgRobot.Lib.PlainValue
import Mathlib.Data.List.Sort

/-!
# Waypoint

The data classes of `waypoint.py` with `to_dict`, `from_dict` and `validate`. The
fields hold whatever the file had. `importlib`, the message classes and the float
arithmetic of a distance are parameters.
-/

namespace MgRobot.WaypointFile

set_option autoImplicit false

open MgRobot.Lib.Plain

/-- `geometry_msgs.msg.Point`. -/
structure Point where
  x : PyFloat
  y : PyFloat
  z : PyFloat
  deriving DecidableEq, Repr

/-- `geometry_msgs.msg.Quaternion`. -/
structure Quaternion where
  x : PyFloat
  y : PyFloat
  z : PyFloat
  w : PyFloat
  deriving DecidableEq, Repr

structure Pose where
  position : Point
  orientation : Quaternion
  deriving DecidableEq, Repr

/-- How the import of a module and the lookup of a class in it end. -/
inductive Import where
  | found
  | noModule
  | noClass
  /-- Anything raised that is not a `ModuleNotFoundError`. -/
  | raised
  deriving DecidableEq, Repr

/-- What the program gets from outside: the constructors of the messages (`none` where they
raise), the import of a class by module and name, `float`, and the distance of two points. -/
structure Runtime where
  point : List (Value × Value) → Option Point
  quaternion : List (Value × Value) → Option Quaternion
  importClass : Value → Value → Import
  toFloat : Value → Option PyFloat
  distance : PyFloat × PyFloat → PyFloat × PyFloat → PyFloat

/-- The fields of a point, as they are saved. -/
def Point.toDict (p : Point) : List (Value × Value) :=
  [(.str "x", .float p.x), (.str "y", .float p.y), (.str "z", .float p.z)]

def Quaternion.toDict (q : Quaternion) : List (Value × Value) :=
  [(.str "x", .float q.x), (.str "y", .float q.y), (.str "z", .float q.z), (.str "w", .float q.w)]

/-- A message is what it is constructed from, and a float is itself. -/
structure Runtime.Documented (rt : Runtime) : Prop where
  point_toDict : ∀ p : Point, rt.point p.toDict = some p
  quaternion_toDict : ∀ q : Quaternion, rt.quaternion q.toDict = some q
  toFloat_float : ∀ x, rt.toFloat (.float x) = some x

inductive ActionType where
  | service
  | publish
  | loadMap
  | amclReset
  | wait
  | waitTrigger
  | setNavigationMode
  /-- Not one of `ACTION_TYPES`. -/
  | other (type : Value)

def ActionType.value : ActionType → Value
  | .service => .str "service"
  | .publish => .str "publish"
  | .loadMap => .str "load_map"
  | .amclReset => .str "amcl_reset"
  | .wait => .str "wait"
  | .waitTrigger => .str "wait_trigger"
  | .setNavigationMode => .str "set_navigation_mode"
  | .other type => type

def ActionType.ofValue (v : Value) : ActionType :=
  if v.isStr "service" then .service
  else if v.isStr "publish" then .publish
  else if v.isStr "load_map" then .loadMap
  else if v.isStr "amcl_reset" then .amclReset
  else if v.isStr "wait" then .wait
  else if v.isStr "wait_trigger" then .waitTrigger
  else if v.isStr "set_navigation_mode" then .setNavigationMode
  else .other v

/-- The `ValueError`s. -/
inductive FormatError where
  | unsupportedFormat
  | unknownActionType (type : Value)
  | requires (type : ActionType) (name : String)
  | cannotImport (type : ActionType) (module : Value)
  | notFound (type : ActionType) (className module : Value)
  | loadMapRequires
  | countdownMs (value : Value)
  | mode (value : Value)
  /-- An action's error, with the index of its waypoint. -/
  | waypoint (index : Value) (e : FormatError)
  | indices (indices : List Value)

abbrev Result := Except (PyError FormatError)

structure NavigationConfig where
  reachTolerance : Value := .float (.finite (1 / 2))
  throughTolerance : Value := .float (.finite 3)
  isThroughPoint : Value := .bool true

structure ActionConfig where
  type : ActionType
  service : Value := .str ""
  srvModule : Value := .str ""
  srvClass : Value := .str ""
  request : Value := .map []
  topic : Value := .str ""
  msgModule : Value := .str ""
  msgClass : Value := .str ""
  data : Value := .map []
  localization : Value := .str ""
  planning : Value := .str ""
  countdownMs : Value := .int 3000
  mode : Value := .str "normal"

namespace ActionConfig

def toDict (a : ActionConfig) : Value :=
  .map ((.str "type", a.type.value) ::
    match a.type with
    | .service =>
        [(.str "service", a.service), (.str "srv_module", a.srvModule),
          (.str "srv_class", a.srvClass)] ++
          if a.request.truthy then [(.str "request", a.request)] else []
    | .publish =>
        [(.str "topic", a.topic), (.str "msg_module", a.msgModule),
          (.str "msg_class", a.msgClass)] ++
          if a.data.truthy then [(.str "data", a.data)] else []
    | .loadMap => [(.str "localization", a.localization), (.str "planning", a.planning)]
    | .wait => [(.str "countdown_ms", a.countdownMs)]
    | .setNavigationMode => [(.str "mode", a.mode)]
    | .amclReset | .waitTrigger | .other _ => [])

def fromDict (d : Value) : Result ActionConfig := do
  let type := ActionType.ofValue (← d.subscript "type")
  match type with
  | .service =>
      return { type, service := ← d.get "service" (.str ""),
               srvModule := ← d.get "srv_module" (.str ""),
               srvClass := ← d.get "srv_class" (.str ""), request := ← d.get "request" (.map []) }
  | .publish =>
      return { type, topic := ← d.get "topic" (.str ""),
               msgModule := ← d.get "msg_module" (.str ""),
               msgClass := ← d.get "msg_class" (.str ""), data := ← d.get "data" (.map []) }
  | .loadMap =>
      return { type, localization := ← d.get "localization" (.str ""),
               planning := ← d.get "planning" (.str "") }
  | .wait => return { type, countdownMs := ← d.get "countdown_ms" (.int 3000) }
  | .setNavigationMode => return { type, mode := ← d.get "mode" (.str "normal") }
  | .amclReset | .waitTrigger | .other _ => return { type }

/-- One name of `_require`. -/
def require (a : ActionConfig) (name : String) (value : Value) : Result Unit :=
  if value.truthy then .ok () else .error (.raised (.requires a.type name))

def requireImportable (rt : Runtime) (a : ActionConfig) (moduleName className : Value) :
    Result Unit :=
  match rt.importClass moduleName className with
  | .found => .ok ()
  | .noModule => .error (.raised (.cannotImport a.type moduleName))
  | .noClass => .error (.raised (.notFound a.type className moduleName))
  | .raised => .error .typeError

/-- `isinstance(v, int)` and not negative; a bool is an int. -/
def isCountdown : Value → Bool
  | .int n => 0 ≤ n
  | .bool _ => true
  | _ => false

def isMode (v : Value) : Bool := v.isStr "normal" || v.isStr "queue_wait"

def validate (rt : Runtime) (a : ActionConfig) : Result Unit :=
  match a.type with
  | .other type => .error (.raised (.unknownActionType type))
  | .service => do
      a.require "service" a.service
      a.require "srv_module" a.srvModule
      a.require "srv_class" a.srvClass
      a.requireImportable rt a.srvModule a.srvClass
  | .publish => do
      a.require "topic" a.topic
      a.require "msg_module" a.msgModule
      a.require "msg_class" a.msgClass
      a.requireImportable rt a.msgModule a.msgClass
  | .loadMap =>
      if a.localization.truthy || a.planning.truthy then .ok ()
      else .error (.raised .loadMapRequires)
  | .wait => if isCountdown a.countdownMs then .ok ()
      else .error (.raised (.countdownMs a.countdownMs))
  | .setNavigationMode => if isMode a.mode then .ok () else .error (.raised (.mode a.mode))
  | .amclReset | .waitTrigger => .ok ()

end ActionConfig

structure Waypoint where
  index : Value
  pose : Pose
  navigation : NavigationConfig := {}
  onReachedActions : List ActionConfig := []

def Waypoint.toDict (w : Waypoint) : Value :=
  .map
    [(.str "index", w.index),
      (.str "pose", .map
        [(.str "position", .map w.pose.position.toDict),
          (.str "orientation", .map w.pose.orientation.toDict)]),
      (.str "navigation", .map
        [(.str "reach_tolerance", w.navigation.reachTolerance),
          (.str "through_tolerance", w.navigation.throughTolerance),
          (.str "is_through_point", w.navigation.isThroughPoint)]),
      (.str "on_reached_actions", .list (w.onReachedActions.map ActionConfig.toDict))]

end MgRobot.WaypointFile

/-!
# WaypointsLoader and WaypointsSaver

A file is the plain value that is read from it and written to it.
-/

namespace MgRobot.WaypointFile

set_option autoImplicit false

open MgRobot.Lib.Plain

/-- The warnings of a list, with what their texts name. -/
inductive Warning where
  | close (index : Value) (distance : PyFloat) (previous : Value) (tolerance : Value)
  | actions (index : Value) (tolerance : Value)
  | last (index : Value) (tolerance : Value)

structure WaypointList where
  waypoints : List Waypoint := []
  warnings : List Warning := []

abbrev Position := PyFloat × PyFloat

namespace WaypointList

/-! ### sort_by_index -/

/-- `a < b` of the indices is defined. -/
def Comparable (a b : Waypoint) : Prop := (a.index.lt? b.index).isSome

instance (a b : Waypoint) : Decidable (Comparable a b) :=
  inferInstanceAs (Decidable ((a.index.lt? b.index).isSome = true))

/-- Sorting leaves `a` before `b` unless `b < a`. -/
def Before (a b : Waypoint) : Prop := b.index.lt? a.index ≠ some true

instance (a b : Waypoint) : Decidable (Before a b) :=
  inferInstanceAs (Decidable (b.index.lt? a.index ≠ some true))

def sortByIndex (waypoints : List Waypoint) : Result (List Waypoint) :=
  if waypoints.Pairwise Comparable then .ok (waypoints.insertionSort Before)
  else .error .typeError

end WaypointList

namespace WaypointsLoader

variable (rt : Runtime)

def point (position : Value) : Result Point := do
  match rt.point (← position.kwargs) with
  | some p => return p
  | none => .error .typeError

def quaternion (orientation : Value) : Result Quaternion := do
  match rt.quaternion (← orientation.kwargs) with
  | some q => return q
  | none => .error .typeError

def toFloat (v : Value) : Result PyFloat :=
  match rt.toFloat v with
  | some x => .ok x
  | none => .error .typeError

def parsePose (poseRaw : Value) : Result Pose := do
  let position ← point rt (← poseRaw.subscript "position")
  let orientation ← quaternion rt (← poseRaw.subscript "orientation")
  return { position := { position with z := .finite 1 }, orientation }

def defaultNav (raw : Value) : Result NavigationConfig := do
  let defaultsRaw ← raw.get "defaults" (.map [])
  return { reachTolerance := ← defaultsRaw.get "reach_tolerance" (.float (.finite (1 / 2))),
           throughTolerance := ← defaultsRaw.get "through_tolerance" (.float (.finite 3)),
           isThroughPoint := ← defaultsRaw.get "is_through_point" (.bool true) }

def parseNavigation (default : NavigationConfig) (wpRaw : Value) : Result NavigationConfig := do
  let navRaw ← wpRaw.get "navigation" (.map [])
  return { reachTolerance := ← navRaw.get "reach_tolerance" default.reachTolerance,
           throughTolerance := ← navRaw.get "through_tolerance" default.throughTolerance,
           isThroughPoint := ← navRaw.get "is_through_point" default.isThroughPoint }

/-- The entry of `positions`: the key and the coordinates. -/
def parsePosition (wpRaw : Value) : Result (Value.Key × Position) := do
  let positionRaw ← (← wpRaw.subscript "pose").subscript "position"
  let x ← toFloat rt (← positionRaw.subscript "x")
  let y ← toFloat rt (← positionRaw.subscript "y")
  match (← wpRaw.subscript "index").key? with
  | some key => return (key, x, y)
  | none => .error .typeError

/-- `validate`, with the index of the waypoint in a `ValueError`. -/
def validateAction (index : Value) (a : ActionConfig) : Result Unit :=
  match a.validate rt with
  | .error (.raised e) => .error (.raised (.waypoint index e))
  | other => other

def parseActions (wpRaw : Value) : Result (List ActionConfig) := do
  let actionsRaw ← (← wpRaw.get "on_reached_actions" (.list [])).iter
  let actions ← actionsRaw.mapM ActionConfig.fromDict
  let index ← wpRaw.subscript "index"
  let _ ← actions.mapM (validateAction rt index)
  return actions

/-- One round of the loop of `_load_v2`. -/
def parseWaypoint (default : NavigationConfig) (wpRaw : Value) :
    Result (Waypoint × (Value.Key × Position)) := do
  let navigation ← parseNavigation default wpRaw
  let pose ← parsePose rt (← wpRaw.subscript "pose")
  let position ← parsePosition rt wpRaw
  let onReachedActions ← parseActions rt wpRaw
  let index ← wpRaw.subscript "index"
  return ({ index, pose, navigation, onReachedActions }, position)

def validateIndices (waypoints : List Waypoint) : Result Unit :=
  if waypoints.map (·.index.key?) =
      (List.range waypoints.length).map fun i => some (.num (i : ℚ)) then .ok ()
  else .error (.raised (.indices (waypoints.map (·.index))))

/-- The last entry of a key is the one that stays. -/
def positionOf (positions : List (Value.Key × Position)) (index : Value) : Result Position :=
  match positions.reverse.find? fun p => index.key? = some p.1 with
  | some (_, position) => .ok position
  | none => .error (.keyError "index")

/-- The warning of a through point that is close to the waypoint before it. -/
def closeWarnings (positions : List (Value.Key × Position)) (wp : Waypoint) :
    Option Waypoint → Result (List Warning)
  | none => .ok []
  | some previous => do
      let p ← positionOf positions previous.index
      let q ← positionOf positions wp.index
      let tolerance := wp.navigation.throughTolerance
      match (Value.float (rt.distance p q)).lt? tolerance with
      | none => .error .typeError
      | some true => return [.close wp.index (rt.distance p q) previous.index tolerance]
      | some false => return []

/-- One round of the loop of `_collect_warnings`. -/
def warningsOf (positions : List (Value.Key × Position)) (previous : Option Waypoint)
    (wp : Waypoint) (isLast : Bool) : Result (List Warning) :=
  if wp.navigation.isThroughPoint.truthy then do
    let close ← closeWarnings rt positions wp previous
    let tolerance := wp.navigation.throughTolerance
    return close ++ (if wp.onReachedActions.isEmpty then [] else [.actions wp.index tolerance]) ++
      if isLast then [.last wp.index tolerance] else []
  else .ok []

/-- The loop from the waypoint after `previous` on. -/
def collectWarnings (positions : List (Value.Key × Position)) :
    Option Waypoint → List Waypoint → Result (List Warning)
  | _, [] => .ok []
  | previous, wp :: rest => do
      let here ← warningsOf rt positions previous wp rest.isEmpty
      let others ← collectWarnings positions (some wp) rest
      return here ++ others

def loadV2 (raw : Value) : Result WaypointList := do
  let default ← defaultNav raw
  let parsed ← (← (← raw.get "waypoints" (.list [])).iter).mapM (parseWaypoint rt default)
  let waypoints ← WaypointList.sortByIndex (parsed.map (·.1))
  validateIndices waypoints
  let warnings ← collectWarnings rt (parsed.map (·.2)) none waypoints
  return { waypoints, warnings }

def load (raw : Value) : Result WaypointList :=
  match raw with
  | .map entries =>
      if (Value.entryAt? "version" entries).any (Value.isStr "2.0") then loadV2 rt raw
      else .error (.raised .unsupportedFormat)
  | _ => .error (.raised .unsupportedFormat)

end WaypointsLoader

/-- `WaypointsSaver.save`. -/
def WaypointList.save (l : WaypointList) : Value :=
  .map [(.str "version", .str "2.0"), (.str "waypoints", .list (l.waypoints.map Waypoint.toDict))]

end MgRobot.WaypointFile

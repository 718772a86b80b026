import Mathlib.Logic.Function.Basic
import MgRobot.WaypointFile.Loader

/-!
# Waypoint editor

`waypoint_editor_node.py`: the list of waypoints with their interactive markers, the
menu of a marker and the callbacks. The marker server, the texts of values and the
float arithmetic are parameters. A callback that raises has no result.
-/

namespace MgRobot.WaypointFile

set_option autoImplicit false

open MgRobot.Lib.Plain

/-- `id` tells the objects apart: the server keeps a bound method of the object, so a marker
that has been dragged is not looked up by its name. -/
structure InteractiveWaypointMarker where
  id : Nat
  waypoint : Waypoint

/-- `InteractiveMarkerServer`, as far as the editor uses it: the markers with their names and
the objects that they move. -/
structure MarkerServer (S : Type) where
  initial : S
  insert : S → String → Nat → S
  clear : S → S
  applyChanges : S → S
  /-- What can be clicked on under a name. -/
  shown : S → String → Option Nat

/-- What is shown once the changes so far have been applied. -/
def MarkerServer.applied {S : Type} (server : MarkerServer S) (s : S) : String → Option Nat :=
  server.shown (server.applyChanges s)

/-- Changes take effect when they are applied. -/
structure MarkerServer.Documented {S : Type} (server : MarkerServer S) : Prop where
  shown_initial : server.shown server.initial = fun _ => none
  applied_initial : server.applied server.initial = fun _ => none
  applied_insert : ∀ s name id,
    server.applied (server.insert s name id) = Function.update (server.applied s) name (some id)
  shown_clear : ∀ s, server.shown (server.clear s) = server.shown s
  applied_clear : ∀ s, server.applied (server.clear s) = fun _ => none
  applied_applyChanges : ∀ s, server.applied (server.applyChanges s) = server.applied s

structure EditorRuntime (S : Type) extends MarkerServer S where
  str : Value → String
  addOne : PyFloat → PyFloat
  subOne : PyFloat → PyFloat

/-- An integer is printed in decimal; the text of a float has a point or an exponent, or is
not a number. -/
structure EditorRuntime.Documented {S : Type} (rt : EditorRuntime S) : Prop
    extends rt.toMarkerServer.Documented where
  str_int : ∀ n : Int, rt.str (.int n) = toString n
  str_bool : ∀ b : Bool, rt.str (.bool b) = if b then "True" else "False"
  str_float : ∀ x, '_' ∉ (rt.str (.float x)).toList ∧ (rt.str (.float x)).toInt? = none

structure Editor (S : Type) where
  iWaypoints : List InteractiveWaypointMarker
  server : S
  /-- The next object. -/
  nextId : Nat

/-! ### Lists -/

/-- The position of `l[i]` in a list of length `n`. -/
def pyIndex (n : Nat) (i : Int) : Option Nat :=
  if 0 ≤ i then if i < n then some i.toNat else none
  else if 0 ≤ i + n then some (i + n).toNat else none

/-- `l.insert(i, x)` clips the position. -/
def pyInsert {α : Type} (l : List α) (i : Int) (x : α) : List α :=
  l.insertIdx (if 0 ≤ i then min i.toNat l.length else (i + l.length).toNat) x

/-- `index >= k`. -/
def atLeast? (k : Int) : Value → Option Bool
  | .bool b => some (decide (k ≤ if b then 1 else 0))
  | .int n => some (decide (k ≤ n))
  | .float (.finite q) => some (decide ((k : ℚ) ≤ q))
  | .float (.inf negative) => some !negative
  | .float .nan => some false
  | _ => none

/-- `index + 1`. -/
def succ? (addOne : PyFloat → PyFloat) : Value → Option Value
  | .bool b => some (.int ((if b then 1 else 0) + 1))
  | .int n => some (.int (n + 1))
  | .float x => some (.float (addOne x))
  | _ => none

/-! ### Names -/

/-- The part behind the first underscore. It has no blanks, so that `int` is `toInt?`. -/
def getIndexFromWaypointName (name : String) : Option Int := do
  let piece ← (name.toList.splitOn '_')[1]?
  (String.ofList piece).toInt?

namespace InteractiveWaypointMarker

def setIndex (iw : InteractiveWaypointMarker) (index : Value) : InteractiveWaypointMarker :=
  { iw with waypoint := { iw.waypoint with index } }

def setThroughPoint (isThroughPoint : Bool) (iw : InteractiveWaypointMarker) :
    InteractiveWaypointMarker :=
  { iw with
    waypoint.navigation := { iw.waypoint.navigation with isThroughPoint := .bool isThroughPoint } }

def setPose (pose : Pose) (iw : InteractiveWaypointMarker) : InteractiveWaypointMarker :=
  { iw with waypoint := { iw.waypoint with pose } }

end InteractiveWaypointMarker

/-- The waypoint that the editor makes for a pose. -/
def defaultWaypoint (index : Value) (pose : Pose) : Waypoint :=
  { index, pose,
    navigation := { reachTolerance := .float (.finite 1), isThroughPoint := .bool true } }

namespace Editor

variable {S : Type} (rt : EditorRuntime S)

def markerName (iw : InteractiveWaypointMarker) : String :=
  "waypoint_" ++ rt.str iw.waypoint.index

/-- `_insert_server`; the menu goes to the same marker. -/
def insertServer (server : S) (iw : InteractiveWaypointMarker) : S :=
  rt.applyChanges (rt.insert server (markerName rt iw) iw.id)

def add (e : Editor S) (waypoint : Waypoint) : Editor S :=
  let iw := ⟨e.nextId, waypoint⟩
  { iWaypoints := e.iWaypoints ++ [iw],
    server := insertServer rt e.server iw,
    nextId := e.nextId + 1 }

def addDefault (e : Editor S) (pose : Pose) : Editor S :=
  e.add rt (defaultWaypoint (.int e.iWaypoints.length) pose)

/-- `refresh` with the list that the editor has by now. -/
def refresh (e : Editor S) (iWaypoints : List InteractiveWaypointMarker) : Editor S :=
  { e with iWaypoints, server := iWaypoints.foldl (insertServer rt) (rt.clear e.server) }

def sortByIndex (iWaypoints : List InteractiveWaypointMarker) :
    Option (List InteractiveWaypointMarker) :=
  if iWaypoints.Pairwise fun a b => WaypointList.Comparable a.waypoint b.waypoint then
    some (iWaypoints.insertionSort fun a b => WaypointList.Before a.waypoint b.waypoint)
  else none

def reindex (iWaypoints : List InteractiveWaypointMarker) :
    Option (List InteractiveWaypointMarker) := do
  let sorted ← sortByIndex iWaypoints
  return sorted.mapIdx fun i iw => iw.setIndex (.int i)

def shiftIndex (index : Int) (iw : InteractiveWaypointMarker) :
    Option InteractiveWaypointMarker := do
  if ← atLeast? index iw.waypoint.index then
    return iw.setIndex (← succ? rt.addOne iw.waypoint.index)
  else return iw

def insertIndex (iWaypoints : List InteractiveWaypointMarker) (index : Int) :
    Option (List InteractiveWaypointMarker) := do
  let sorted ← sortByIndex iWaypoints
  sorted.mapM (shiftIndex rt index)

def remove (e : Editor S) (index : Int) : Option (Editor S) := do
  let i ← pyIndex e.iWaypoints.length index
  return e.refresh rt (← reindex (e.iWaypoints.eraseIdx i))

/-- `insert` of an object that has just been made. -/
def insert (e : Editor S) (index : Int) (waypoint : Waypoint) : Option (Editor S) := do
  let shifted ← insertIndex rt e.iWaypoints index
  let inserted := pyInsert shifted index ⟨e.nextId, waypoint⟩
  return { e with nextId := e.nextId + 1 }.refresh rt inserted

def get (e : Editor S) (index : Int) : Option InteractiveWaypointMarker := do
  e.iWaypoints[← pyIndex e.iWaypoints.length index]?

/-- `convert_waypoint_list`, which is what is saved. -/
def convertWaypointList (e : Editor S) : WaypointList where
  waypoints := e.iWaypoints.map (·.waypoint)

def initial : Editor S := ⟨[], rt.initial, 0⟩

def fromWaypointList (waypointList : WaypointList) : Editor S :=
  waypointList.waypoints.foldl (add rt) (initial rt)

/-! ### Callbacks -/

inductive MenuEntry where
  | copyNext
  | copyNextPoseOnly
  | approach
  | delete
  | dummy
  | setThroughPoint
  | setTargetPoint
  deriving DecidableEq

/-- What reaches the node: a goal pose, an entry of the menu of a marker, a drag. -/
inductive EditorEvent where
  | goalPose (pose : Pose)
  | menu (entry : MenuEntry) (markerName : String)
  | drag (markerName : String) (mouseUp : Bool) (pose : Pose)

def setThrough (e : Editor S) (isThroughPoint : Bool) (index : Int) : Option (Editor S) := do
  let i ← pyIndex e.iWaypoints.length index
  return e.refresh rt (e.iWaypoints.modify i (·.setThroughPoint isThroughPoint))

def menuCallback (e : Editor S) (entry : MenuEntry) (markerName : String) :
    Option (Editor S) :=
  match entry with
  | .copyNext => do
      let index ← getIndexFromWaypointName markerName
      let iw ← e.get index
      e.insert rt (index + 1) { iw.waypoint with index := .int (index + 1) }
  | .copyNextPoseOnly => do
      let index ← getIndexFromWaypointName markerName
      let iw ← e.get index
      e.insert rt (index + 1) (defaultWaypoint (.int (index + 1)) iw.waypoint.pose)
  | .delete => do e.remove rt (← getIndexFromWaypointName markerName)
  | .setThroughPoint => do e.setThrough rt true (← getIndexFromWaypointName markerName)
  | .setTargetPoint => do e.setThrough rt false (← getIndexFromWaypointName markerName)
  | .approach | .dummy => some e

/-- The marker is drawn one metre above its waypoint. -/
def lowered (pose : Pose) : Pose :=
  { pose with position.z := rt.subOne pose.position.z }

/-- `update_pose` of the object that the server calls. -/
def updatePose (e : Editor S) (id : Nat) (mouseUp : Bool) (pose : Pose) : Editor S :=
  if mouseUp then
    { e with
      iWaypoints := e.iWaypoints.map fun iw =>
        if iw.id = id then iw.setPose (lowered rt pose) else iw }
  else e

/-- The server drops the feedback of a marker that it does not show. -/
def step (e : Editor S) : EditorEvent → Option (Editor S)
  | .goalPose pose => some (e.addDefault rt pose)
  | .menu entry markerName =>
      match rt.shown e.server markerName with
      | some _ => e.menuCallback rt entry markerName
      | none => some e
  | .drag markerName mouseUp pose =>
      match rt.shown e.server markerName with
      | some id => some (e.updatePose rt id mouseUp pose)
      | none => some e

end Editor

end MgRobot.WaypointFile

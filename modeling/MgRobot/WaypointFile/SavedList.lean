import MgRobot.WaypointFile.Loader

/-!
# Loading a saved list

What the loader makes of the file that the saver has written for a list: every
waypoint as it was, but for arguments of a service or of a message that count as
empty.
-/

namespace MgRobot.WaypointFile

set_option autoImplicit false

open MgRobot.Lib.Plain

variable {rt : Runtime}

/-! ### Actions -/

/-- Arguments after a save and a load: what counts as empty is left out and comes back as `{}`. -/
def orEmpty (v : Value) : Value := if v.truthy then v else .map []

namespace ActionConfig

/-- The fields of the action's type, the others at their defaults. -/
def relevant (a : ActionConfig) : ActionConfig :=
  match a.type with
  | .service =>
      { type := .service, service := a.service, srvModule := a.srvModule, srvClass := a.srvClass,
        request := a.request }
  | .publish =>
      { type := .publish, topic := a.topic, msgModule := a.msgModule, msgClass := a.msgClass,
        data := a.data }
  | .loadMap => { type := .loadMap, localization := a.localization, planning := a.planning }
  | .wait => { type := .wait, countdownMs := a.countdownMs }
  | .setNavigationMode => { type := .setNavigationMode, mode := a.mode }
  | .amclReset => { type := .amclReset }
  | .waitTrigger => { type := .waitTrigger }
  | .other type => { type := .other type }

/-- The action that is loaded back. -/
def kept (a : ActionConfig) : ActionConfig :=
  match a.type with
  | .service => { a with request := orEmpty a.request }
  | .publish => { a with data := orEmpty a.data }
  | _ => a

theorem fromDict_relevant {d : Value} {a : ActionConfig} (h : fromDict d = .ok a) :
    a.relevant = a := by
  obtain ⟨t, _, h⟩ := Value.ok_of_bind h
  dsimp only at h
  generalize ActionType.ofValue t = type at h
  cases type with
  | service =>
      obtain ⟨_, _, h⟩ := Value.ok_of_bind h
      obtain ⟨_, _, h⟩ := Value.ok_of_bind h
      obtain ⟨_, _, h⟩ := Value.ok_of_bind h
      obtain ⟨_, _, h⟩ := Value.ok_of_bind h
      obtain rfl := Except.ok.inj h
      rfl
  | publish =>
      obtain ⟨_, _, h⟩ := Value.ok_of_bind h
      obtain ⟨_, _, h⟩ := Value.ok_of_bind h
      obtain ⟨_, _, h⟩ := Value.ok_of_bind h
      obtain ⟨_, _, h⟩ := Value.ok_of_bind h
      obtain rfl := Except.ok.inj h
      rfl
  | loadMap =>
      obtain ⟨_, _, h⟩ := Value.ok_of_bind h
      obtain ⟨_, _, h⟩ := Value.ok_of_bind h
      obtain rfl := Except.ok.inj h
      rfl
  | wait =>
      obtain ⟨_, _, h⟩ := Value.ok_of_bind h
      obtain rfl := Except.ok.inj h
      rfl
  | setNavigationMode =>
      obtain ⟨_, _, h⟩ := Value.ok_of_bind h
      obtain rfl := Except.ok.inj h
      rfl
  | amclReset =>
      obtain rfl := Except.ok.inj h
      rfl
  | waitTrigger =>
      obtain rfl := Except.ok.inj h
      rfl
  | other type =>
      obtain rfl := Except.ok.inj h
      rfl

theorem fromDict_toDict {a : ActionConfig} (hrelevant : a.relevant = a)
    (hknown : ∀ type, a.type ≠ .other type) : fromDict a.toDict = .ok a.kept := by
  rw [← hrelevant]
  obtain ⟨type, service, srvModule, srvClass, request, topic, msgModule, msgClass, data,
    localization, planning, countdownMs, mode⟩ := a
  cases type with
  | service =>
      cases hrequest : request.isFalsy with
      | true => simp [relevant, kept, orEmpty, toDict, fromDict, ActionType.value, hrequest,
          ActionType.ofValue, Value.subscript, Value.get, Value.entryAt?, Value.isStr, pure,
          Except.pure, bind, Except.bind]
      | false => simp [relevant, kept, orEmpty, toDict, fromDict, ActionType.value, hrequest,
          ActionType.ofValue, Value.subscript, Value.get, Value.entryAt?, Value.isStr, pure,
          Except.pure, bind, Except.bind]
  | publish =>
      cases hdata : data.isFalsy with
      | true => simp [relevant, kept, orEmpty, toDict, fromDict, ActionType.value, hdata,
          ActionType.ofValue, Value.subscript, Value.get, Value.entryAt?, Value.isStr, pure,
          Except.pure, bind, Except.bind]
      | false => simp [relevant, kept, orEmpty, toDict, fromDict, ActionType.value, hdata,
          ActionType.ofValue, Value.subscript, Value.get, Value.entryAt?, Value.isStr, pure,
          Except.pure, bind, Except.bind]
  | loadMap => rfl
  | amclReset => rfl
  | wait => rfl
  | waitTrigger => rfl
  | setNavigationMode => rfl
  | other type => exact absurd rfl (hknown type)

theorem validate_kept (a : ActionConfig) : a.kept.validate rt = a.validate rt := by
  obtain ⟨type, service, srvModule, srvClass, request, topic, msgModule, msgClass, data,
    localization, planning, countdownMs, mode⟩ := a
  cases type with
  | service => rfl
  | publish => rfl
  | loadMap => rfl
  | amclReset => rfl
  | wait => rfl
  | waitTrigger => rfl
  | setNavigationMode => rfl
  | other type => rfl

/-- A type that is not known fails the validation. -/
theorem known_of_validate {a : ActionConfig} (h : a.validate rt = .ok ()) (type : Value) :
    a.type ≠ .other type := by
  intro htype
  unfold validate at h
  rw [htype] at h
  exact absurd h nofun

end ActionConfig

/-! ### One waypoint -/

/-- What the loader makes sure of before it validates the actions, and the migration too. -/
structure Waypoint.Plain (w : Waypoint) : Prop where
  z : w.pose.position.z = .finite 1
  hashable : ∃ key, w.index.key? = some key
  relevant : ∀ a ∈ w.onReachedActions, a.relevant = a

/-- The waypoint that is loaded back. -/
def Waypoint.kept (w : Waypoint) : Waypoint :=
  { w with onReachedActions := w.onReachedActions.map ActionConfig.kept }

namespace WaypointsLoader

theorem validateAction_ok {index : Value} {a : ActionConfig} :
    validateAction rt index a = .ok () ↔ a.validate rt = .ok () := by
  unfold validateAction
  split
  next e h => simp [h]
  next => exact Iff.rfl

theorem parsePose_z {poseRaw : Value} {pose : Pose} (h : parsePose rt poseRaw = .ok pose) :
    pose.position.z = .finite 1 := by
  obtain ⟨_, _, h⟩ := Value.ok_of_bind h
  obtain ⟨_, _, h⟩ := Value.ok_of_bind h
  obtain ⟨_, _, h⟩ := Value.ok_of_bind h
  obtain ⟨_, _, h⟩ := Value.ok_of_bind h
  obtain rfl := Except.ok.inj h
  rfl

theorem parsePosition_key {wpRaw index : Value} {position : Value.Key × Position}
    (h : parsePosition rt wpRaw = .ok position)
    (hindex : wpRaw.subscript "index" = (.ok index : Result Value)) :
    index.key? = some position.1 := by
  obtain ⟨_, _, h⟩ := Value.ok_of_bind h
  obtain ⟨_, _, h⟩ := Value.ok_of_bind h
  obtain ⟨_, _, h⟩ := Value.ok_of_bind h
  obtain ⟨_, _, h⟩ := Value.ok_of_bind h
  obtain ⟨_, _, h⟩ := Value.ok_of_bind h
  obtain ⟨_, _, h⟩ := Value.ok_of_bind h
  obtain ⟨index', hindex', h⟩ := Value.ok_of_bind h
  obtain rfl : index' = index := Except.ok.inj (hindex'.symm.trans hindex)
  split at h
  next key hkey =>
    obtain rfl := Except.ok.inj h
    exact hkey
  next => exact absurd h nofun

theorem parseActions_valid {wpRaw : Value} {actions : List ActionConfig}
    (h : parseActions rt wpRaw = .ok actions) :
    ∀ a ∈ actions, a.relevant = a ∧ a.validate rt = .ok () := by
  obtain ⟨_, _, h⟩ := Value.ok_of_bind h
  obtain ⟨_, _, h⟩ := Value.ok_of_bind h
  obtain ⟨actions', hparsed, h⟩ := Value.ok_of_bind h
  obtain ⟨_, _, h⟩ := Value.ok_of_bind h
  obtain ⟨_, hvalid, h⟩ := Value.ok_of_bind h
  obtain rfl := Except.ok.inj h
  intro a ha
  obtain ⟨d, _, hd⟩ := Value.mem_of_mapM_ok hparsed ha
  obtain ⟨_, _, hok⟩ := Value.ok_of_mem_mapM hvalid ha
  exact ⟨ActionConfig.fromDict_relevant hd, validateAction_ok.mp hok⟩

/-- A waypoint that has been loaded is plain, and its actions are valid. -/
theorem parseWaypoint_plain {default : NavigationConfig} {wpRaw : Value} {w : Waypoint}
    {position : Value.Key × Position} (h : parseWaypoint rt default wpRaw = .ok (w, position)) :
    w.Plain ∧ ∀ a ∈ w.onReachedActions, a.validate rt = .ok () := by
  obtain ⟨navigation, _, h⟩ := Value.ok_of_bind h
  obtain ⟨poseRaw, _, h⟩ := Value.ok_of_bind h
  obtain ⟨pose, hpose, h⟩ := Value.ok_of_bind h
  obtain ⟨position', hposition, h⟩ := Value.ok_of_bind h
  obtain ⟨actions, hactions, h⟩ := Value.ok_of_bind h
  obtain ⟨index, hindex, h⟩ := Value.ok_of_bind h
  obtain ⟨rfl, rfl⟩ := Prod.mk.inj (Except.ok.inj h)
  have hvalid := parseActions_valid hactions
  exact ⟨⟨parsePose_z hpose, ⟨_, parsePosition_key hposition hindex⟩, fun a ha => (hvalid a ha).1⟩,
    fun a ha => (hvalid a ha).2⟩

/-! ### The file of a waypoint -/

theorem point_map {entries : List (Value × Value)} {p : Point} (h : rt.point entries = some p) :
    point rt (.map entries) = .ok p := by
  simp only [point, Value.kwargs, bind, Except.bind, h]
  rfl

theorem quaternion_map {entries : List (Value × Value)} {q : Quaternion}
    (h : rt.quaternion entries = some q) : quaternion rt (.map entries) = .ok q := by
  simp only [quaternion, Value.kwargs, bind, Except.bind, h]
  rfl

theorem toFloat_float (hrt : rt.Documented) (x : PyFloat) : toFloat rt (.float x) = .ok x := by
  simp only [toFloat, hrt.toFloat_float]

/-- The pose of a saved waypoint. -/
def poseDict (pose : Pose) : Value :=
  .map [(.str "position", .map pose.position.toDict),
    (.str "orientation", .map pose.orientation.toDict)]

theorem parsePose_poseDict (hrt : rt.Documented) {pose : Pose}
    (hz : pose.position.z = .finite 1) : parsePose rt (poseDict pose) = .ok pose := by
  unfold parsePose poseDict
  rw [Value.subscript_map rfl, Value.subscript_map rfl]
  simp only [bind, Except.bind, point_map (hrt.point_toDict _),
    quaternion_map (hrt.quaternion_toDict _)]
  rw [← hz]
  rfl

variable {w : Waypoint}

theorem parseNavigation_toDict (default : NavigationConfig) :
    parseNavigation default w.toDict = .ok w.navigation := rfl

theorem parsePosition_toDict (hrt : rt.Documented) {key : Value.Key}
    (hkey : w.index.key? = some key) :
    parsePosition rt w.toDict = .ok (key, w.pose.position.x, w.pose.position.y) := by
  have hpose : w.toDict.subscript "pose" = (.ok (poseDict w.pose) : Result Value) := rfl
  have hposition : (poseDict w.pose).subscript "position" =
    (.ok (.map w.pose.position.toDict) : Result Value) := rfl
  have hx : (Value.map w.pose.position.toDict).subscript "x" =
    (.ok (.float w.pose.position.x) : Result Value) := rfl
  have hy : (Value.map w.pose.position.toDict).subscript "y" =
    (.ok (.float w.pose.position.y) : Result Value) := rfl
  have hindex : w.toDict.subscript "index" = (.ok w.index : Result Value) := rfl
  simp only [parsePosition, bind, Except.bind, hpose, hposition, hx, hy, hindex,
    toFloat_float hrt, hkey]
  rfl

/-- The actions are validated as they were before they were saved. -/
theorem parseActions_toDict (hrelevant : ∀ a ∈ w.onReachedActions, a.relevant = a)
    (hvalid : ∀ a ∈ w.onReachedActions, a.validate rt = .ok ()) :
    parseActions rt w.toDict = .ok (w.onReachedActions.map ActionConfig.kept) := by
  have hactions : w.toDict.get "on_reached_actions" (.list []) =
    (.ok (.list (w.onReachedActions.map ActionConfig.toDict)) : Result Value) := rfl
  have hindex : w.toDict.subscript "index" = (.ok w.index : Result Value) := rfl
  have hfrom : (w.onReachedActions.map ActionConfig.toDict).mapM ActionConfig.fromDict =
      .ok (w.onReachedActions.map ActionConfig.kept) := by
    refine (Value.mapM_ok_iff _ _ _).mpr ?_
    rw [List.forall₂_map_left_iff, List.forall₂_map_right_iff]
    refine List.forall₂_same.mpr fun a ha => ?_
    exact ActionConfig.fromDict_toDict (hrelevant a ha)
      (ActionConfig.known_of_validate (hvalid a ha))
  have hvalidKept : ∀ a ∈ w.onReachedActions.map ActionConfig.kept,
      ∃ u, validateAction rt w.index a = .ok u := by
    intro a ha
    obtain ⟨b, hb, rfl⟩ := List.mem_map.mp ha
    exact ⟨(), validateAction_ok.mpr (b.validate_kept.trans (hvalid b hb))⟩
  obtain ⟨units, hunits⟩ := Value.exists_mapM_ok hvalidKept
  simp only [parseActions, bind, Except.bind, hactions, Value.iter, hfrom, hindex, hunits]
  rfl

theorem parseWaypoint_toDict (hrt : rt.Documented) (hplain : w.Plain) {key : Value.Key}
    (hkey : w.index.key? = some key) (hvalid : ∀ a ∈ w.onReachedActions, a.validate rt = .ok ())
    (default : NavigationConfig) :
    parseWaypoint rt default w.toDict =
      .ok (w.kept, key, w.pose.position.x, w.pose.position.y) := by
  have hpose : w.toDict.subscript "pose" = (.ok (poseDict w.pose) : Result Value) := rfl
  have hindex : w.toDict.subscript "index" = (.ok w.index : Result Value) := rfl
  simp only [parseWaypoint, bind, Except.bind, parseNavigation_toDict, hpose, hindex,
    parsePose_poseDict hrt hplain.z, parsePosition_toDict hrt hkey,
    parseActions_toDict hplain.relevant hvalid]
  rfl

/-- Conversely a file that is accepted has valid actions. -/
theorem validate_of_parseWaypoint_toDict (hknown : ∀ a ∈ w.onReachedActions, ∀ type,
      a.type ≠ .other type) (hrelevant : ∀ a ∈ w.onReachedActions, a.relevant = a)
    {default : NavigationConfig} {w' : Waypoint} {position : Value.Key × Position}
    (h : parseWaypoint rt default w.toDict = .ok (w', position)) :
    ∀ a ∈ w.onReachedActions, a.validate rt = .ok () := by
  obtain ⟨_, _, h⟩ := Value.ok_of_bind h
  obtain ⟨_, _, h⟩ := Value.ok_of_bind h
  obtain ⟨_, _, h⟩ := Value.ok_of_bind h
  obtain ⟨_, _, h⟩ := Value.ok_of_bind h
  obtain ⟨actions, hactions, _⟩ := Value.ok_of_bind h
  have hvalid := parseActions_valid hactions
  obtain ⟨_, hget, hactions⟩ := Value.ok_of_bind hactions
  obtain rfl := Except.ok.inj hget
  obtain ⟨_, hiter, hactions⟩ := Value.ok_of_bind hactions
  obtain rfl := Except.ok.inj hiter
  obtain ⟨actions', hparsed, hactions⟩ := Value.ok_of_bind hactions
  obtain ⟨_, _, hactions⟩ := Value.ok_of_bind hactions
  obtain ⟨_, _, hactions⟩ := Value.ok_of_bind hactions
  obtain rfl := Except.ok.inj hactions
  intro a ha
  obtain ⟨b, hb, hfrom⟩ := Value.ok_of_mem_mapM hparsed (List.mem_map_of_mem ha)
  rw [ActionConfig.fromDict_toDict (hrelevant a ha) (hknown a ha)] at hfrom
  obtain rfl := Except.ok.inj hfrom
  exact a.validate_kept.symm.trans (hvalid _ hb).2

end WaypointsLoader

end MgRobot.WaypointFile

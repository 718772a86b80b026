import Mathlib.Data.List.Perm.Basic
import Mathlib.Data.List.ReduceOption
import MgRobot.WaypointFile.RoundTrip

/-!
# Migration of v1 files

`convert_v1_waypoint` of `waypoint_v1_compat.py` and the `main` of
`migrate_waypoints.py`. The converter does not ask the validation of the loader:
an action `reload_map` becomes a `load_map` even where the waypoint names no map,
and that file is not accepted.
-/

namespace MgRobot.WaypointFile

set_option autoImplicit false

open MgRobot.Lib.Plain

variable (rt : Runtime)

/-! ### The converter -/

/-- A call of a `std_srvs.srv.SetBool` service. -/
def setBoolAction (service : String) (data : Bool) : ActionConfig where
  type := .service
  service := .str service
  srvModule := .str "std_srvs.srv"
  srvClass := .str "SetBool"
  request := .map [(.str "data", .bool data)]

/-- `_V1_ACTION_MAP`. -/
def v1Action (name : Value) : Option ActionConfig :=
  if name.isStr "amcl_on" then
    some (setBoolAction "/amcl_gate_arbiter/waypoint/change_publish_state" true)
  else if name.isStr "amcl_off" then
    some (setBoolAction "/amcl_gate_arbiter/waypoint/change_publish_state" false)
  else if name.isStr "gps_on" then
    some (setBoolAction "/slam_gnss_nav_bridge/change_publish_state" true)
  else if name.isStr "gps_off" then
    some (setBoolAction "/slam_gnss_nav_bridge/change_publish_state" false)
  else if name.isStr "wait_trigger" then some { type := .waitTrigger }
  else if name.isStr "reload_map" then some { type := .loadMap }
  else if name.isStr "wait_all_action_done" then some { type := .wait, countdownMs := .int 0 }
  else none

/-- One round of the loop over the actions; `none` for a name that is not in the map. -/
def convertV1Action (wpRaw name : Value) : Result (Option ActionConfig) :=
  match name.key? with
  | none => .error .typeError
  | some _ =>
      match v1Action name with
      | none => .ok none
      | some action =>
          match action.type with
          | .loadMap => do
              let localization ← wpRaw.get "localization_map_yaml" (.str "")
              let planning ← wpRaw.get "planning_map_yaml" (.str "")
              return some { action with localization, planning }
          | _ => .ok (some action)

def v1ActionNames (wpRaw : Value) : Result (List Value) := do
  (← wpRaw.get "on_reached_action" (.list [])).iter

def v1Navigation (wpRaw : Value) : Result NavigationConfig := do
  return { reachTolerance := ← wpRaw.get "reach_tolerance" (.float (.finite (1 / 2))),
           throughTolerance := ← wpRaw.get "through_tolerance" (.float (.finite 3)),
           isThroughPoint := ← wpRaw.get "is_through_point" (.bool true) }

def convertV1Waypoint (wpRaw : Value) : Result Waypoint := do
  let pose ← WaypointsLoader.parsePose rt (← wpRaw.subscript "pose")
  let navigation ← v1Navigation wpRaw
  let actions ← (← v1ActionNames wpRaw).mapM (convertV1Action wpRaw)
  let index ← wpRaw.subscript "index"
  return { index, pose, navigation, onReachedActions := actions.reduceOption }

/-- `main`: the file that is written; `none` where it exits without writing one. -/
def migrate (raw : Value) : Result (Option Value) :=
  match raw with
  | .list items => do
      let waypoints ← items.mapM (convertV1Waypoint rt)
      return some (WaypointList.save { waypoints })
  | _ => .ok none

/-! ### What a v1 waypoint says -/

/-- The index of a v1 waypoint, as the numbers of all types are compared. -/
def v1Index (wpRaw : Value) : Option Value.Key :=
  match (wpRaw.subscript "index" : Result Value) with
  | .ok index => index.key?
  | .error _ => none

/-- The indices are `0`, .., `n - 1` in some order. -/
def V1Indexed (items : List Value) : Prop :=
  (items.map v1Index).Perm ((List.range items.length).map fun i : Nat => some (.num (i : ℚ)))

/-- A waypoint has the index, coordinates, orientation and navigation settings of a v1 waypoint,
and its actions are those that the names map to. -/
structure MigratedFrom (wpRaw : Value) (w : Waypoint) : Prop where
  index : wpRaw.subscript "index" = (.ok w.index : Result Value)
  pose : ∃ poseRaw, wpRaw.subscript "pose" = (.ok poseRaw : Result Value) ∧
    (∃ position p, poseRaw.subscript "position" = (.ok position : Result Value) ∧
      WaypointsLoader.point rt position = .ok p ∧
      w.pose.position.x = p.x ∧ w.pose.position.y = p.y) ∧
    ∃ orientation, poseRaw.subscript "orientation" = (.ok orientation : Result Value) ∧
      WaypointsLoader.quaternion rt orientation = .ok w.pose.orientation
  navigation : v1Navigation wpRaw = .ok w.navigation
  actions : ∃ names mapped, v1ActionNames wpRaw = .ok names ∧
    List.Forall₂ (fun name a => convertV1Action wpRaw name = .ok a) names mapped ∧
    w.onReachedActions = mapped.reduceOption

/-- A waypoint that reloads the map names a map. -/
def MapGiven (wpRaw : Value) : Prop :=
  ∀ names, v1ActionNames wpRaw = .ok names → (∃ name ∈ names, name.isStr "reload_map" = true) →
    ∃ key ∈ ["localization_map_yaml", "planning_map_yaml"], ∃ v,
      wpRaw.get key (.str "") = (.ok v : Result Value) ∧ v.truthy = true

/-- The tolerance of a through point that is not the first waypoint is a number. -/
def ToleranceGiven (wpRaw : Value) : Prop :=
  v1Index wpRaw ≠ some (.num 0) → ∀ navigation, v1Navigation wpRaw = .ok navigation →
    navigation.isThroughPoint.truthy = true → navigation.throughTolerance.isNumber = true

variable {rt}

/-! ### What the converter makes of it -/

theorem convertV1Waypoint_migratedFrom {wpRaw : Value} {w : Waypoint}
    (h : convertV1Waypoint rt wpRaw = .ok w) :
    MigratedFrom rt wpRaw w ∧ w.pose.position.z = .finite 1 := by
  obtain ⟨poseRaw, hposeRaw, h⟩ := Value.ok_of_bind h
  obtain ⟨pose, hpose, h⟩ := Value.ok_of_bind h
  obtain ⟨navigation, hnavigation, h⟩ := Value.ok_of_bind h
  obtain ⟨names, hnames, h⟩ := Value.ok_of_bind h
  obtain ⟨actions, hactions, h⟩ := Value.ok_of_bind h
  obtain ⟨index, hindex, h⟩ := Value.ok_of_bind h
  obtain rfl := Except.ok.inj h
  refine ⟨⟨hindex, ⟨poseRaw, hposeRaw, ?_⟩, hnavigation, names, actions, hnames,
    (Value.mapM_ok_iff _ _ _).mp hactions, rfl⟩, WaypointsLoader.parsePose_z hpose⟩
  obtain ⟨position, hposition, hpose⟩ := Value.ok_of_bind hpose
  obtain ⟨p, hp, hpose⟩ := Value.ok_of_bind hpose
  obtain ⟨orientation, horientation, hpose⟩ := Value.ok_of_bind hpose
  obtain ⟨q, hq, hpose⟩ := Value.ok_of_bind hpose
  obtain rfl := Except.ok.inj hpose
  exact ⟨⟨position, p, hposition, hp, rfl, rfl⟩, orientation, horientation, hq⟩

/-- The actions that the converter makes: services and waits that are valid anywhere, and
`load_map`. -/
inductive V1Made (wpRaw : Value) : Value → ActionConfig → Prop where
  | setBool (name : Value) (service : String) (hservice : service ≠ "") (data : Bool) :
      V1Made wpRaw name (setBoolAction service data)
  | waitTrigger (name : Value) : V1Made wpRaw name { type := .waitTrigger }
  | wait (name : Value) : V1Made wpRaw name { type := .wait, countdownMs := .int 0 }
  | loadMap (name : Value) (hname : name.isStr "reload_map" = true) (localization planning : Value)
      (hlocalization : wpRaw.get "localization_map_yaml" (.str "") =
        (.ok localization : Result Value))
      (hplanning : wpRaw.get "planning_map_yaml" (.str "") = (.ok planning : Result Value)) :
      V1Made wpRaw name { type := .loadMap, localization, planning }

theorem convertV1Action_made {wpRaw name : Value} {a : ActionConfig}
    (h : convertV1Action wpRaw name = .ok (some a)) : V1Made wpRaw name a := by
  unfold convertV1Action at h
  split at h
  next => cases h
  next =>
    split at h
    next => cases Except.ok.inj h
    next action haction =>
      unfold v1Action at haction
      split_ifs at haction with h1 h2 h3 h4 h5 h6 h7
      -- The first four names are those of services that take a boolean.
      iterate 4
        · obtain rfl := Option.some.inj haction
          obtain rfl := Option.some.inj (Except.ok.inj h)
          exact .setBool _ _ (by decide) _
      · obtain rfl := Option.some.inj haction
        obtain rfl := Option.some.inj (Except.ok.inj h)
        exact .waitTrigger _
      · obtain rfl := Option.some.inj haction
        obtain ⟨localization, hlocalization, h⟩ := Value.ok_of_bind h
        obtain ⟨planning, hplanning, h⟩ := Value.ok_of_bind h
        obtain rfl := Option.some.inj (Except.ok.inj h)
        exact .loadMap _ h6 _ _ hlocalization hplanning
      · obtain rfl := Option.some.inj haction
        obtain rfl := Option.some.inj (Except.ok.inj h)
        exact .wait _

section Made

variable {wpRaw name : Value} {a : ActionConfig}

theorem V1Made.relevant (h : V1Made wpRaw name a) : a.relevant = a := by
  cases h with
  | setBool => rfl
  | waitTrigger => rfl
  | wait => rfl
  | loadMap => rfl

theorem V1Made.known (h : V1Made wpRaw name a) (type : Value) : a.type ≠ .other type := by
  cases h with
  | setBool => intro h; cases h
  | waitTrigger => intro h; cases h
  | wait => intro h; cases h
  | loadMap => intro h; cases h

theorem V1Made.kept (h : V1Made wpRaw name a) : a.kept = a := by
  cases h with
  | setBool => rfl
  | waitTrigger => rfl
  | wait => rfl
  | loadMap => rfl

/-- Of the actions that the converter makes, a `load_map` can be invalid. -/
theorem V1Made.validate (h : V1Made wpRaw name a)
    (hsetBool : rt.importClass (.str "std_srvs.srv") (.str "SetBool") = .found) :
    a.validate rt = .ok () ↔
      (a.type = .loadMap → a.localization.truthy = true ∨ a.planning.truthy = true) := by
  cases h with
  | setBool service hservice data =>
      refine iff_of_true ?_ fun htype => by cases htype
      have hnonempty : (Value.str service).truthy = true := by
        simpa [Value.truthy, Value.isFalsy] using hservice
      simp only [ActionConfig.validate, setBoolAction, ActionConfig.require, hnonempty,
        ActionConfig.requireImportable, hsetBool]
      rfl
  | waitTrigger => exact iff_of_true rfl fun htype => by cases htype
  | wait => exact iff_of_true rfl fun htype => by cases htype
  | loadMap hname localization planning =>
      simp only [ActionConfig.validate, true_implies, ← Bool.or_eq_true]
      split
      next hgiven => exact iff_of_true rfl hgiven
      next hgiven => exact iff_of_false (by simp) hgiven

end Made

/-- The actions of a converted waypoint, by the names they were made from. -/
theorem MigratedFrom.made {wpRaw : Value} {w : Waypoint} (h : MigratedFrom rt wpRaw w) :
    ∃ names, v1ActionNames wpRaw = .ok names ∧
      (∀ a ∈ w.onReachedActions, ∃ name ∈ names, V1Made wpRaw name a) ∧
      ∀ name ∈ names, name.isStr "reload_map" = true →
        ∃ a ∈ w.onReachedActions, a.type = .loadMap := by
  obtain ⟨names, mapped, hnames, hmapped, hactions⟩ := h.actions
  have hok := (Value.mapM_ok_iff (convertV1Action wpRaw) names mapped).mpr hmapped
  refine ⟨names, hnames, fun a ha => ?_, fun name hname hreload => ?_⟩
  · rw [hactions] at ha
    obtain ⟨name, hname, hconvert⟩ := Value.mem_of_mapM_ok hok (List.reduceOption_mem_iff.mp ha)
    exact ⟨name, hname, convertV1Action_made hconvert⟩
  · obtain ⟨a, ha, hconvert⟩ := Value.ok_of_mem_mapM hok hname
    cases name with
    | str s =>
        obtain rfl : s = "reload_map" := of_decide_eq_true hreload
        obtain ⟨localization, _, hconvert⟩ := Value.ok_of_bind hconvert
        obtain ⟨planning, _, hconvert⟩ := Value.ok_of_bind hconvert
        obtain rfl := Except.ok.inj hconvert
        rw [hactions]
        exact ⟨_, List.reduceOption_mem_iff.mpr ha, rfl⟩
    | null => cases hreload
    | bool b => cases hreload
    | int n => cases hreload
    | float x => cases hreload
    | list items => cases hreload
    | map entries => cases hreload

/-- The actions of a waypoint are valid exactly when it names the map that it reloads. -/
theorem MigratedFrom.valid_iff {wpRaw : Value} {w : Waypoint} (h : MigratedFrom rt wpRaw w)
    (hsetBool : rt.importClass (.str "std_srvs.srv") (.str "SetBool") = .found) :
    (∀ a ∈ w.onReachedActions, a.validate rt = .ok ()) ↔ MapGiven wpRaw := by
  obtain ⟨names, hnames, hmade, hreloads⟩ := h.made
  constructor
  · rintro hvalid names' hnames' ⟨name, hname, hreload⟩
    obtain rfl : names = names' := Except.ok.inj (hnames.symm.trans hnames')
    obtain ⟨a, ha, htype⟩ := hreloads name hname hreload
    obtain ⟨name', _, hmadeA⟩ := hmade a ha
    have hgiven := (hmadeA.validate hsetBool).mp (hvalid a ha) htype
    cases hmadeA with
    | setBool => cases htype
    | waitTrigger => cases htype
    | wait => cases htype
    | loadMap _ localization planning hlocalization hplanning =>
        rcases hgiven with hgiven | hgiven
        · exact ⟨_, List.mem_cons_self, localization, hlocalization, hgiven⟩
        · exact ⟨_, List.mem_cons_of_mem _ (List.mem_singleton_self _), planning, hplanning, hgiven⟩
  · intro hgiven a ha
    obtain ⟨name, hname, hmadeA⟩ := hmade a ha
    refine (hmadeA.validate hsetBool).mpr fun htype => ?_
    cases hmadeA with
    | setBool => cases htype
    | waitTrigger => cases htype
    | wait => cases htype
    | loadMap hreload localization planning hlocalization hplanning =>
        obtain ⟨key, hkey, v, hv, htruthy⟩ := hgiven names hnames ⟨name, hname, hreload⟩
        rcases List.mem_cons.mp hkey with rfl | hkey
        · obtain rfl : localization = v := Except.ok.inj (hlocalization.symm.trans hv)
          exact .inl htruthy
        · obtain rfl := List.mem_singleton.mp hkey
          obtain rfl : planning = v := Except.ok.inj (hplanning.symm.trans hv)
          exact .inr htruthy

theorem MigratedFrom.plain {wpRaw : Value} {w : Waypoint} (h : MigratedFrom rt wpRaw w)
    (hz : w.pose.position.z = .finite 1) (hindex : ∃ key, v1Index wpRaw = some key) : w.Plain := by
  obtain ⟨key, hkey⟩ := hindex
  unfold v1Index at hkey
  rw [h.index] at hkey
  refine ⟨hz, ⟨key, hkey⟩, fun a ha => ?_⟩
  obtain ⟨_, _, hmade, _⟩ := h.made
  obtain ⟨_, _, hmadeA⟩ := hmade a ha
  exact hmadeA.relevant

/-! ### The migrated file -/

section File

variable {items : List Value} {waypoints : List Waypoint}

/-- The waypoints of the written file, against those of the v1 file. -/
theorem migratedFrom_of_convert
    (h : items.mapM (convertV1Waypoint rt) = .ok waypoints) :
    List.Forall₂ (MigratedFrom rt) items waypoints :=
  ((Value.mapM_ok_iff _ _ _).mp h).imp fun _ _ hw => (convertV1Waypoint_migratedFrom hw).1

theorem MigratedFrom.key? {wpRaw : Value} {w : Waypoint} (h : MigratedFrom rt wpRaw w) :
    w.index.key? = v1Index wpRaw := by
  unfold v1Index
  rw [h.index]

theorem map_key?_of_migrated (h : List.Forall₂ (MigratedFrom rt) items waypoints) :
    waypoints.map (·.index.key?) = items.map v1Index := by
  induction h with
  | nil => rfl
  | cons hfirst hrest ih => rw [List.map_cons, List.map_cons, hfirst.key?, ih]

theorem exists_v1Index (hindices : V1Indexed items) {wpRaw : Value} (h : wpRaw ∈ items) :
    ∃ key, v1Index wpRaw = some key := by
  obtain ⟨i, _, hi⟩ := List.mem_map.mp (hindices.mem_iff.mp (List.mem_map_of_mem h))
  exact ⟨_, hi.symm⟩

theorem plain_of_convert (h : items.mapM (convertV1Waypoint rt) = .ok waypoints)
    (hindices : V1Indexed items) : ∀ w ∈ waypoints, w.Plain := by
  intro w hw
  obtain ⟨wpRaw, hraw, hconvert⟩ := Value.mem_of_mapM_ok h hw
  obtain ⟨hmigrated, hz⟩ := convertV1Waypoint_migratedFrom hconvert
  exact hmigrated.plain hz (exists_v1Index hindices hraw)

theorem made_of_convert (h : items.mapM (convertV1Waypoint rt) = .ok waypoints) :
    ∀ w ∈ waypoints, ∀ a ∈ w.onReachedActions, ∃ wpRaw name, V1Made wpRaw name a := by
  intro w hw a ha
  obtain ⟨wpRaw, _, hconvert⟩ := Value.mem_of_mapM_ok h hw
  obtain ⟨_, _, hmade, _⟩ := (convertV1Waypoint_migratedFrom hconvert).1.made
  obtain ⟨name, _, hmadeA⟩ := hmade a ha
  exact ⟨wpRaw, name, hmadeA⟩

/-- Nothing that the converter makes is lost when it is saved. -/
theorem kept_of_convert (h : items.mapM (convertV1Waypoint rt) = .ok waypoints) :
    waypoints.map Waypoint.kept = waypoints := by
  refine map_eq_self.mpr fun w hw => Waypoint.kept_eq_self.mpr fun a ha => ?_
  obtain ⟨_, _, hmade⟩ := made_of_convert h w hw a ha
  exact hmade.kept

end File

/-- The file that the migration writes is accepted, and gives the waypoints of the v1 file,
exactly when every waypoint that reloads the map names one and the tolerances are numbers. -/
theorem migrate_accepted_iff (rt : Runtime) (hrt : rt.Documented)
    (hsetBool : rt.importClass (.str "std_srvs.srv") (.str "SetBool") = .found)
    (items : List Value) (file : Value) (hmigrate : migrate rt (.list items) = .ok (some file))
    (hindices : V1Indexed items) :
    (∃ wl, WaypointsLoader.load rt file = .ok wl ∧
      ∃ order, order.Perm items ∧ List.Forall₂ (MigratedFrom rt) order wl.waypoints) ↔
      ∀ wpRaw ∈ items, MapGiven wpRaw ∧ ToleranceGiven wpRaw := by
  obtain ⟨waypoints, hconvert, hfile⟩ := Value.ok_of_bind hmigrate
  obtain rfl := Option.some.inj (Except.ok.inj hfile)
  have hmigrated := migratedFrom_of_convert hconvert
  have hplain := plain_of_convert hconvert hindices
  have hkept := kept_of_convert hconvert
  constructor
  · rintro ⟨wl, hload, _⟩
    obtain ⟨hvalid, hsorted, hindexed, htolerable⟩ :=
      WaypointsLoader.of_load_save_ok hrt hplain (fun w hw a ha => by
        obtain ⟨_, _, hmade⟩ := made_of_convert hconvert w hw a ha
        exact hmade.known) hload
    intro wpRaw hraw
    obtain ⟨w, hw, hconvertW⟩ := Value.ok_of_mem_mapM hconvert hraw
    obtain ⟨hfrom, _⟩ := convertV1Waypoint_migratedFrom hconvertW
    refine ⟨(hfrom.valid_iff hsetBool).mp (hvalid w hw), fun hne navigation hnavigation => ?_⟩
    obtain rfl : w.navigation = navigation :=
      Except.ok.inj (hfrom.navigation.symm.trans hnavigation)
    have hmem : w ∈ wl.waypoints := by
      rw [hkept] at hsorted
      exact (sortByIndex_perm hsorted).mem_iff.mpr hw
    refine htolerable w ((hindexed.mem_tail_iff hmem).mpr ?_)
    rwa [hfrom.key?]
  · intro hgiven
    have hkeys : (waypoints.map (·.index.key?)).Perm
        ((List.range items.length).map fun i => some (.num (i : ℚ))) := by
      rw [map_key?_of_migrated hmigrated]
      exact hindices
    obtain ⟨sorted, hsorted, hindexed⟩ := sortByIndex_of_perm hkeys
    have hperm := sortByIndex_perm hsorted
    have hvalid : ∀ w ∈ waypoints, ∀ a ∈ w.onReachedActions, a.validate rt = .ok () := by
      intro w hw
      obtain ⟨wpRaw, hraw, hconvertW⟩ := Value.mem_of_mapM_ok hconvert hw
      obtain ⟨hfrom, _⟩ := convertV1Waypoint_migratedFrom hconvertW
      exact (hfrom.valid_iff hsetBool).mpr (hgiven wpRaw hraw).1
    have htolerable : Tolerable sorted := by
      intro w hw
      have hmem := List.mem_of_mem_tail hw
      obtain ⟨wpRaw, hraw, hconvertW⟩ := Value.mem_of_mapM_ok hconvert (hperm.mem_iff.mp hmem)
      obtain ⟨hfrom, _⟩ := convertV1Waypoint_migratedFrom hconvertW
      refine (hgiven wpRaw hraw).2 ?_ _ hfrom.navigation
      rw [← hfrom.key?]
      exact (hindexed.mem_tail_iff hmem).mp hw
    rw [← hkept] at hsorted
    obtain ⟨warnings, hload⟩ := WaypointsLoader.load_save_ok hrt { waypoints } hplain hvalid hsorted
      hindexed htolerable
    obtain ⟨order, horder, hpermOrder⟩ := List.perm_comp_forall₂ hperm hmigrated.flip
    exact ⟨_, hload, order, hpermOrder, horder.flip⟩

/-- Three v1 waypoints, the last one first. It reloads the planning map, and the second has an
action that no v1 program knew. -/
def v1Tour : List Value :=
  [waypointAt 2 20
      [(.str "on_reached_action", .list [.str "wait_trigger", .str "reload_map"]),
        (.str "planning_map_yaml", .str "plan.yaml")],
    waypointAt 0 0
      [(.str "is_through_point", .bool false),
        (.str "on_reached_action", .list [.str "amcl_off", .str "gps_on"])],
    waypointAt 1 10
      [(.str "through_tolerance", .int 2),
        (.str "on_reached_action", .list [.str "beep", .str "wait_all_action_done"])]]

def v2TourFile : Value :=
  WaypointList.save { waypoints := [
    { index := .int 2
      pose := poseAt 20
      onReachedActions := [{ type := .waitTrigger },
        { type := .loadMap, planning := .str "plan.yaml" }] },
    { index := .int 0
      pose := poseAt 0
      navigation := { isThroughPoint := .bool false }
      onReachedActions := [setBoolAction "/amcl_gate_arbiter/waypoint/change_publish_state" false,
        setBoolAction "/slam_gnss_nav_bridge/change_publish_state" true] },
    { index := .int 1
      pose := poseAt 10
      navigation := { throughTolerance := .int 2 }
      onReachedActions := [{ type := .wait, countdownMs := .int 0 }] }] }

theorem migrate_v1Tour : migrate ros (.list v1Tour) = .ok (some v2TourFile) := rfl

theorem v1Indexed_tour : V1Indexed v1Tour := by
  unfold V1Indexed
  decide +kernel

theorem mapGiven_of_names {wpRaw : Value} {names : List Value}
    (hnames : v1ActionNames wpRaw = .ok names)
    (h : ∀ name ∈ names, name.isStr "reload_map" = false) : MapGiven wpRaw := by
  rintro names' hnames' ⟨name, hname, hreload⟩
  obtain rfl := Except.ok.inj (hnames.symm.trans hnames')
  exact absurd hreload (Bool.eq_false_iff.mp (h name hname))

theorem toleranceGiven_of_navigation {wpRaw : Value} {navigation : NavigationConfig}
    (hnavigation : v1Navigation wpRaw = .ok navigation)
    (h : navigation.throughTolerance.isNumber = true) : ToleranceGiven wpRaw := by
  intro _ navigation' hnavigation' _
  obtain rfl := Except.ok.inj (hnavigation.symm.trans hnavigation')
  exact h

/-- The map is named, and the waypoints come in the order of their indices. -/
theorem migrate_tour :
    migrate ros (.list v1Tour) = .ok (some v2TourFile) ∧
    ∃ wl, WaypointsLoader.load ros v2TourFile = .ok wl ∧
      ∃ order, order.Perm v1Tour ∧ List.Forall₂ (MigratedFrom ros) order wl.waypoints := by
  refine ⟨migrate_v1Tour, (migrate_accepted_iff ros ros_documented rfl _ _ migrate_v1Tour
    v1Indexed_tour).mpr ?_⟩
  intro wpRaw hraw
  simp only [v1Tour, List.mem_cons, List.not_mem_nil, or_false] at hraw
  rcases hraw with rfl | rfl | rfl
  · refine ⟨fun _ _ _ => ?_, toleranceGiven_of_navigation rfl rfl⟩
    exact ⟨"planning_map_yaml", by simp, .str "plan.yaml", rfl, rfl⟩
  · refine ⟨mapGiven_of_names rfl ?_, toleranceGiven_of_navigation rfl rfl⟩
    decide
  · refine ⟨mapGiven_of_names rfl ?_, toleranceGiven_of_navigation rfl rfl⟩
    decide

/-- A v1 waypoint that reloads the map, with further entries. -/
def reloadWaypoint (more : List (Value × Value)) : Value :=
  .map ([(.str "index", .int 0),
    (.str "pose", .map
      [(.str "position", .map [(.str "x", .float (.finite 1)), (.str "y", .float (.finite 2)),
          (.str "z", .float (.finite 0))]),
        (.str "orientation", .map [(.str "w", .float (.finite 1))])]),
    (.str "on_reached_action", .list [.str "amcl_off", .str "reload_map"])] ++ more)

def reloadFile (localization : Value) : Value :=
  WaypointList.save { waypoints := [{
    index := .int 0
    pose := ⟨⟨.finite 1, .finite 2, .finite 1⟩, ⟨.finite 0, .finite 0, .finite 0, .finite 1⟩⟩
    onReachedActions := [setBoolAction "/amcl_gate_arbiter/waypoint/change_publish_state" false,
      { type := .loadMap, localization }] }] }

theorem v1Indexed_reload (more : List (Value × Value)) : V1Indexed [reloadWaypoint more] :=
  List.Perm.refl _

/-- Without a map the migrated file is refused. -/
theorem migrate_reload_map :
    V1Indexed [reloadWaypoint []] ∧
      migrate ros (.list [reloadWaypoint []]) = .ok (some (reloadFile (.str ""))) ∧
      WaypointsLoader.load ros (reloadFile (.str "")) =
        .error (.raised (.waypoint (.int 0) .loadMapRequires)) :=
  ⟨v1Indexed_reload [], rfl, rfl⟩

end MgRobot.WaypointFile

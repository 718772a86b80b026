import MgRobot.Lib.Runs
import MgRobot.WaypointFile.EditorMarkers

/-!
# Runs of the editor

What is shown and the items are the same thing, unless the last waypoint is deleted: its
marker stays, since nothing is left whose insertion applies the change.
-/

namespace MgRobot.WaypointFile

set_option autoImplicit false

open MgRobot.Lib.Plain
open MgRobot.Lib.Runs

variable {S : Type} {rt : EditorRuntime S}

/-- The index check, made on what is read back from a saved list. -/
def PassesIndexCheck (waypointList : WaypointList) : Prop :=
  ∀ (rt : Runtime) (parsed : List (Waypoint × (Value.Key × Position))),
    (waypointList.waypoints.map Waypoint.toDict).mapM (WaypointsLoader.parseWaypoint rt {}) =
        .ok parsed →
      ∃ sorted, WaypointList.sortByIndex (parsed.map (·.1)) = .ok sorted ∧
        WaypointsLoader.validateIndices sorted = .ok ()

/-- A waypoint that the editor makes, without its number. -/
def defaultItem (id : Nat) (pose : Pose) : Item :=
  (InteractiveWaypointMarker.mk id (defaultWaypoint .null pose)).item

namespace Editor

/-- The positions are the indices, and the names lead to the objects that are shown. -/
structure Sound (rt : EditorRuntime S) (e : Editor S) : Prop where
  indexed : Indexed e.convertWaypointList.waypoints
  saved : PassesIndexCheck e.convertWaypointList
  shown : ∀ iw ∈ e.iWaypoints, rt.shown e.server (markerName rt iw) = some iw.id
  resolves : ∀ name id, rt.shown e.server name = some id →
    ∃ index iw, getIndexFromWaypointName name = some index ∧ e.get index = some iw ∧ iw.id = id

def items (e : Editor S) : List Item := e.iWaypoints.map (·.item)

/-- What an entry of the menu of an object is for. -/
def menuOperation (e : Editor S) (id : Nat) : MenuEntry → Operation
  | .copyNext => .copyAfter id fun it => { it with id := e.nextId }
  | .copyNextPoseOnly => .copyAfter id fun it => defaultItem e.nextId it.pose
  | .delete => .remove id
  | .setThroughPoint => .change id (·.setThroughPoint true)
  | .setTargetPoint => .change id (·.setThroughPoint false)
  | .approach | .dummy => .nothing

/-- What an event is for, by the object that is shown under its name. -/
def operation (rt : EditorRuntime S) (e : Editor S) : EditorEvent → Operation
  | .goalPose pose => .append (defaultItem e.nextId pose)
  | .menu entry markerName =>
      match rt.shown e.server markerName with
      | some id => e.menuOperation id entry
      | none => .nothing
  | .drag markerName mouseUp pose =>
      match rt.shown e.server markerName with
      | some id => if mouseUp then .change id fun it => { it with pose := lowered rt pose }
          else .nothing
      | none => .nothing

/-- A waypoint is not deleted when it is the only one. -/
def KeepsOne (rt : EditorRuntime S) (e : Editor S) : EditorEvent → Prop
  | .menu .delete markerName => (rt.shown e.server markerName).isSome → e.iWaypoints.length ≠ 1
  | _ => True

/-- What is shown has been applied. -/
def Current (rt : EditorRuntime S) (e : Editor S) : Prop :=
  rt.shown e.server = rt.applied e.server

structure Inv (rt : EditorRuntime S) (e : Editor S) : Prop where
  numbers : e.iWaypoints = numbered e.items
  nodup : (e.items.map (·.id)).Nodup
  fresh : ∀ it ∈ e.items, it.id < e.nextId
  applied : rt.applied e.server = displayed rt e.iWaypoints
  current : e.iWaypoints = [] ∨ e.Current rt

/-! ## Indices -/

theorem indexed_numbered (items : List Item) :
    Indexed ((numbered items).map (·.waypoint)) := by
  unfold Indexed
  refine List.ext_getElem? fun i => ?_
  rw [List.length_map, length_numbered, List.map_map, List.getElem?_map, getElem?_numbered,
    Option.map_map, List.getElem?_map]
  by_cases hi : i < items.length
  · rw [List.getElem?_range hi, List.getElem?_eq_getElem hi]
    rfl
  · rw [List.getElem?_eq_none (by omega), List.getElem?_eq_none (by simpa using hi)]
    rfl

theorem index_of_parseWaypoint_toDict {rt : Runtime} {w w' : Waypoint}
    {position : Value.Key × Position}
    (h : WaypointsLoader.parseWaypoint rt {} w.toDict = .ok (w', position)) :
    w'.index = w.index := by
  obtain ⟨_, _, h⟩ := Value.ok_of_bind h
  obtain ⟨_, _, h⟩ := Value.ok_of_bind h
  obtain ⟨_, _, h⟩ := Value.ok_of_bind h
  obtain ⟨_, _, h⟩ := Value.ok_of_bind h
  obtain ⟨_, _, h⟩ := Value.ok_of_bind h
  obtain ⟨index, hindex, h⟩ := Value.ok_of_bind h
  have hw : index = w.index := (Except.ok.inj hindex).symm
  rw [← hw]
  exact congrArg (fun p => p.1.index) (Except.ok.inj h).symm

theorem PassesIndexCheck_of_indexed {waypointList : WaypointList}
    (h : Indexed waypointList.waypoints) : PassesIndexCheck waypointList := by
  intro rt parsed hparsed
  have hall := (Value.mapM_ok_iff _ _ _).mp hparsed
  rw [List.forall₂_map_left_iff] at hall
  have hkeys : (parsed.map (·.1)).map (·.index.key?) =
      waypointList.waypoints.map (·.index.key?) := by
    rw [List.map_map]
    refine (List.forall₂_eq_eq_eq ▸ List.forall₂_map_left_iff.mpr
      (List.forall₂_map_right_iff.mpr (hall.flip.imp fun p w hp => ?_)) : _ = _)
    exact congrArg Value.key? (index_of_parseWaypoint_toDict hp)
  have hindexed : Indexed (parsed.map (·.1)) := by
    unfold Indexed
    rw [hkeys, List.length_map, ← hall.length_eq]
    exact h
  exact ⟨_, hindexed.sortByIndex, validateIndices_ok.mpr hindexed⟩

/-! ## What is shown -/

section Shown

variable {e : Editor S}

/-- An item that is shown, with the place at which it stands. -/
theorem Inv.exists_shown (hrt : rt.Documented) (hj : e.Inv rt) (hcurrent : e.Current rt)
    {name : String} {id : Nat} (hshown : rt.shown e.server name = some id) :
    ∃ pre it post, e.items = pre ++ it :: post ∧ it.id = id ∧ name = nameAt rt pre.length := by
  rw [hcurrent, hj.applied, hj.numbers, displayed_numbered hrt] at hshown
  obtain ⟨i, hi, hname⟩ := hshown
  rw [List.getElem?_map, Option.map_eq_some_iff] at hi
  obtain ⟨it, hit, hid⟩ := hi
  obtain ⟨hlt, hget⟩ := List.getElem?_eq_some_iff.mp hit
  refine ⟨e.items.take i, it, e.items.drop (i + 1), ?_, hid, ?_⟩
  · rw [← hget, List.cons_getElem_drop_succ, List.take_append_drop]
  · rw [List.length_take, Nat.min_eq_left hlt.le, hname]

theorem Inv.sound_of_current (hrt : rt.Documented) (hj : e.Inv rt) (hcurrent : e.Current rt) :
    e.Sound rt := by
  have hindexed : Indexed e.convertWaypointList.waypoints := by
    rw [convertWaypointList, hj.numbers]
    exact indexed_numbered e.items
  refine ⟨hindexed, PassesIndexCheck_of_indexed hindexed, fun iw hiw => ?_,
    fun name id hshown => ?_⟩
  · rw [hj.numbers] at hiw
    obtain ⟨i, hi⟩ := List.mem_iff_getElem?.mp hiw
    rw [getElem?_numbered, Option.map_eq_some_iff] at hi
    obtain ⟨it, hit, rfl⟩ := hi
    rw [hcurrent, hj.applied, hj.numbers, displayed_numbered hrt]
    refine ⟨i, ?_, rfl⟩
    rw [List.getElem?_map, hit]
    rfl
  · obtain ⟨pre, it, post, hitems, hid, rfl⟩ := hj.exists_shown hrt hcurrent hshown
    exact ⟨pre.length, it.numbered pre.length, getIndex_nameAt hrt _,
      get_numbered (hitems ▸ hj.numbers), hid⟩

/-- With the numbers in order, all is well exactly if what is shown is what has been applied. -/
theorem Inv.sound_iff (hrt : rt.Documented) (hj : e.Inv rt) : e.Sound rt ↔ e.Current rt := by
  refine ⟨fun hsound => ?_, hj.sound_of_current hrt⟩
  rcases hj.current with hnil | hcurrent
  · funext name
    have hnone : rt.shown e.server name = none := by
      refine Option.eq_none_iff_forall_ne_some.mpr fun id hshown => ?_
      obtain ⟨index, iw, _, hget, _⟩ := hsound.resolves name id hshown
      rw [get, hnil] at hget
      simp [pyIndex] at hget
    rw [hnone, hj.applied, hnil]
    rfl
  · exact hcurrent

end Shown

/-! ## One step -/

section Step

variable {e : Editor S}

theorem items_refresh (e : Editor S) (items : List Item) :
    (e.refresh rt (numbered items)).items = items :=
  map_item_numbered

theorem inv_refresh (hrt : rt.Documented) (e : Editor S) {items : List Item}
    (hnodup : (items.map (·.id)).Nodup) (hfresh : ∀ it ∈ items, it.id < e.nextId) :
    (e.refresh rt (numbered items)).Inv rt := by
  refine ⟨?_, ?_, ?_, applied_refresh hrt e _, ?_⟩
  · rw [items_refresh]
    rfl
  · rwa [items_refresh]
  · rwa [items_refresh]
  · by_cases hnil : (e.refresh rt (numbered items)).iWaypoints = []
    · exact .inl hnil
    · exact .inr (shown_refresh hrt e hnil)

theorem current_refresh (hrt : rt.Documented) (e : Editor S) {items : List Item}
    (h : items ≠ []) : (e.refresh rt (numbered items)).Current rt := by
  refine shown_refresh hrt e fun hnil => h ?_
  rw [← List.length_eq_zero_iff, ← length_numbered, hnil]
  rfl

/-- What a step from a state in which all is well comes to: the items are those of the
operation, and the numbers are in order again. -/
structure Follows (rt : EditorRuntime S) (e : Editor S) (event : EditorEvent) (t : Editor S) :
    Prop where
  inv : t.Inv rt
  items : t.items = (e.operation rt event).apply e.items
  current : t.Current rt ↔ e.KeepsOne rt event

/-- The new list has been refreshed and is not empty. -/
theorem Follows.of_refresh (hrt : rt.Documented) {event : EditorEvent} {items : List Item}
    {nextId : Nat} (hitems : items = (e.operation rt event).apply e.items)
    (hnodup : (items.map (·.id)).Nodup) (hfresh : ∀ it ∈ items, it.id < nextId)
    (hne : items ≠ []) (hkeeps : e.KeepsOne rt event) :
    Follows rt e event ({ e with nextId }.refresh rt (numbered items)) where
  inv := inv_refresh hrt { e with nextId } hnodup hfresh
  items := (items_refresh _ items).trans hitems
  current := iff_of_true (current_refresh hrt _ hne) hkeeps

variable {pre post : List Item} {it : Item}

/-- An item of the next object, after the one at which the menu was opened. -/
theorem Inv.copy (hj : e.Inv rt) (hitems : e.items = pre ++ it :: post) (new : Item)
    (hnew : new.id = e.nextId) :
    ((pre ++ it :: new :: post).map (·.id)).Nodup ∧
      ∀ x ∈ pre ++ it :: new :: post, x.id < e.nextId + 1 := by
  have hold : ∀ x ∈ pre ++ it :: post, x.id < e.nextId := hitems ▸ hj.fresh
  have hperm : (pre ++ it :: new :: post).Perm (new :: (pre ++ it :: post)) := by
    have hswap : (pre ++ it :: new :: post).Perm (pre ++ new :: it :: post) :=
      (List.Perm.swap new it post).append_left pre
    exact hswap.trans List.perm_middle
  constructor
  · rw [(hperm.map _).nodup_iff, List.map_cons, List.nodup_cons, hnew]
    refine ⟨fun hmem => ?_, hitems ▸ hj.nodup⟩
    obtain ⟨x, hx, hid⟩ := List.mem_map.mp hmem
    have := hold x hx
    omega
  · intro x hx
    rcases List.mem_cons.mp (hperm.mem_iff.mp hx) with rfl | hx
    · omega
    · have := hold x hx
      omega

/-- Items with the ids that were there before. -/
theorem Inv.same_ids (hj : e.Inv rt) {items : List Item}
    (hids : (items.map (·.id)).Sublist (e.items.map (·.id))) :
    (items.map (·.id)).Nodup ∧ ∀ x ∈ items, x.id < e.nextId := by
  refine ⟨hj.nodup.sublist hids, fun x hx => ?_⟩
  obtain ⟨y, hy, hid⟩ := List.mem_map.mp (hids.subset (List.mem_map_of_mem hx))
  rw [← hid]
  exact hj.fresh y hy

theorem operation_menu {name : String} {id : Nat} (hshown : rt.shown e.server name = some id)
    (entry : MenuEntry) : e.operation rt (.menu entry name) = e.menuOperation id entry := by
  rw [operation, hshown]

/-- Deleting the waypoint of a marker. -/
theorem Inv.delete (hrt : rt.Documented) (hj : e.Inv rt)
    (hitems : e.items = pre ++ it :: post) {name : String}
    (hshown : rt.shown e.server name = some it.id) :
    Follows rt e (.menu .delete name) (e.refresh rt (numbered (pre ++ post))) := by
  have hnodup : ((pre ++ it :: post).map (·.id)).Nodup := hitems ▸ hj.nodup
  have hids : ((pre ++ post).map (·.id)).Sublist (e.items.map (·.id)) := by
    rw [hitems]
    exact ((List.sublist_cons_self it post).append_left pre).map _
  obtain ⟨hnodup', hfresh⟩ := hj.same_ids hids
  refine ⟨inv_refresh hrt e hnodup' hfresh, ?_, ?_⟩
  · rw [items_refresh, operation_menu hshown, menuOperation, hitems, apply_remove hnodup]
  · have hlength : e.iWaypoints.length = pre.length + post.length + 1 := by
      rw [hj.numbers, length_numbered, hitems, List.length_append, List.length_cons]
      omega
    by_cases hnil : pre ++ post = []
    · -- the marker of the last waypoint is not among those that have been applied
      refine iff_of_false (fun h => ?_) fun h => ?_
      · rw [hnil, Current, applied_refresh hrt] at h
        have hname := congrFun h name
        rw [show numbered [] = [] from rfl, shown_refresh_nil hrt, hshown] at hname
        cases hname
      · have hzero := congrArg List.length hnil
        rw [List.length_append] at hzero
        exact h (hshown ▸ rfl) (by rw [hlength, hzero]; rfl)
    · refine iff_of_true (current_refresh hrt e hnil) fun _ => ?_
      have hpos := List.length_pos_iff.mpr hnil
      rw [List.length_append] at hpos
      omega

/-- One of the entries that set a flag of the waypoint of a marker. -/
theorem Inv.setThrough (hrt : rt.Documented) (hj : e.Inv rt)
    (hitems : e.items = pre ++ it :: post) {b : Bool} {event : EditorEvent}
    (hoperation : e.operation rt event = .change it.id (·.setThroughPoint b))
    (hkeeps : e.KeepsOne rt event) :
    Follows rt e event (e.refresh rt (numbered (pre ++ it.setThroughPoint b :: post))) := by
  have hnodup : ((pre ++ it :: post).map (·.id)).Nodup := hitems ▸ hj.nodup
  have hids : (pre ++ it.setThroughPoint b :: post).map (·.id) = e.items.map (·.id) := by
    rw [hitems, List.map_append, List.map_append]
    rfl
  obtain ⟨hnodup', hfresh⟩ := hj.same_ids (by rw [hids])
  refine Follows.of_refresh hrt ?_ hnodup' hfresh (by simp) hkeeps
  rw [hoperation, hitems, apply_change hnodup]

theorem Inv.menuCallback (hrt : rt.Documented) (hj : e.Inv rt) (hcurrent : e.Current rt)
    {name : String} {id : Nat} (hshown : rt.shown e.server name = some id) (entry : MenuEntry) :
    ∃ t, e.menuCallback rt entry name = some t ∧ Follows rt e (.menu entry name) t := by
  obtain ⟨pre, it, post, hitems, rfl, rfl⟩ := hj.exists_shown hrt hcurrent hshown
  have hnumbered : e.iWaypoints = numbered (pre ++ it :: post) := hitems ▸ hj.numbers
  have hnodup : ((pre ++ it :: post).map (·.id)).Nodup := hitems ▸ hj.nodup
  have hindex := getIndex_nameAt hrt pre.length
  have hoperation := operation_menu hshown
  cases entry with
  | copyNext =>
      obtain ⟨hnodup', hfresh⟩ := hj.copy hitems { it with id := e.nextId } rfl
      refine ⟨_, ?_, Follows.of_refresh hrt ?_ hnodup' hfresh (by simp) trivial⟩
      · simp only [Editor.menuCallback, hindex, get_numbered hnumbered, Option.bind_eq_bind,
          Option.bind_some]
        exact insert_numbered hnumbered rfl
      · rw [hoperation, menuOperation, hitems, apply_copyAfter hnodup]
  | copyNextPoseOnly =>
      obtain ⟨hnodup', hfresh⟩ := hj.copy hitems (defaultItem e.nextId it.pose) rfl
      refine ⟨_, ?_, Follows.of_refresh hrt ?_ hnodup' hfresh (by simp) trivial⟩
      · simp only [Editor.menuCallback, hindex, get_numbered hnumbered, Option.bind_eq_bind,
          Option.bind_some]
        exact insert_numbered hnumbered rfl
      · rw [hoperation, menuOperation, hitems, apply_copyAfter hnodup]
  | approach => exact ⟨e, rfl, hj, by rw [hoperation]; rfl, iff_of_true hcurrent trivial⟩
  | delete =>
      refine ⟨_, ?_, hj.delete hrt hitems hshown⟩
      simp only [Editor.menuCallback, hindex, Option.bind_eq_bind, Option.bind_some]
      exact remove_numbered hnumbered
  | dummy => exact ⟨e, rfl, hj, by rw [hoperation]; rfl, iff_of_true hcurrent trivial⟩
  | setThroughPoint =>
      refine ⟨_, ?_, hj.setThrough hrt hitems (hoperation _) trivial⟩
      simp only [Editor.menuCallback, hindex, Option.bind_eq_bind, Option.bind_some]
      exact setThrough_numbered hnumbered true
  | setTargetPoint =>
      refine ⟨_, ?_, hj.setThrough hrt hitems (hoperation _) trivial⟩
      simp only [Editor.menuCallback, hindex, Option.bind_eq_bind, Option.bind_some]
      exact setThrough_numbered hnumbered false

/-- The new waypoint gets the next number, whatever is shown. -/
theorem Inv.goalPose (hrt : rt.Documented) (hj : e.Inv rt) (pose : Pose) :
    Follows rt e (.goalPose pose) (e.addDefault rt pose) := by
  have hnew : (⟨e.nextId, defaultWaypoint (.int e.iWaypoints.length) pose⟩ :
      InteractiveWaypointMarker) = (defaultItem e.nextId pose).numbered e.items.length := by
    rw [items, List.length_map]
    rfl
  have hlist : (e.addDefault rt pose).iWaypoints =
      numbered (e.items ++ [defaultItem e.nextId pose]) := by
    rw [numbered_append, ← hj.numbers, List.mapIdx_cons, List.mapIdx_nil, Nat.zero_add, ← hnew]
    rfl
  have hitems : (e.addDefault rt pose).items = e.items ++ [defaultItem e.nextId pose] := by
    rw [items, hlist, map_item_numbered]
  have hcurrent : (e.addDefault rt pose).Current rt := shown_insertServer hrt _ _
  refine ⟨⟨?_, ?_, ?_, ?_, .inr hcurrent⟩, hitems, iff_of_true hcurrent trivial⟩
  · rw [hlist, hitems]
  · rw [hitems, List.map_append, List.map_singleton, List.nodup_append]
    refine ⟨hj.nodup, List.nodup_singleton _, fun a ha b hb => ?_⟩
    obtain ⟨it, hit, rfl⟩ := List.mem_map.mp ha
    rw [List.mem_singleton.mp hb]
    exact (hj.fresh it hit).ne
  · intro it hit
    rw [hitems] at hit
    rcases List.mem_append.mp hit with hit | hit
    · exact Nat.lt_succ_of_lt (hj.fresh it hit)
    · rw [List.mem_singleton.mp hit]
      exact Nat.lt_succ_self _
  · exact applied_add hrt hj.applied _

/-- A drag leaves the markers alone. -/
theorem Inv.updatePose (hrt : rt.Documented) (hj : e.Inv rt) {name : String} {id : Nat}
    (hshown : rt.shown e.server name = some id) (mouseUp : Bool) (pose : Pose) :
    (e.updatePose rt id mouseUp pose).Inv rt ∧
      (e.updatePose rt id mouseUp pose).items =
        (e.operation rt (.drag name mouseUp pose)).apply e.items ∧
      ((e.updatePose rt id mouseUp pose).Current rt ↔ e.Current rt) := by
  have hoperation : e.operation rt (.drag name mouseUp pose) =
      if mouseUp then .change id fun it => { it with pose := lowered rt pose } else .nothing := by
    rw [operation, hshown]
  cases mouseUp with
  | false => exact ⟨hj, by rw [hoperation]; rfl, Iff.rfl⟩
  | true =>
      have hlist : (e.updatePose rt id true pose).iWaypoints =
          numbered ((e.operation rt (.drag name true pose)).apply e.items) := by
        rw [hoperation]
        refine Eq.trans ?_ (map_setPose_numbered id (lowered rt pose))
        rw [← hj.numbers]
        rfl
      have hitems : (e.updatePose rt id true pose).items =
          (e.operation rt (.drag name true pose)).apply e.items := by
        rw [items, hlist, map_item_numbered]
      have hids : ((e.operation rt (.drag name true pose)).apply e.items).map (·.id) =
          e.items.map (·.id) := by
        rw [hoperation]
        refine (List.map_map ..).trans (List.map_congr_left fun it _ => ?_)
        dsimp only [Function.comp_apply]
        split
        · rfl
        · rfl
      obtain ⟨hnodup, hfresh⟩ := hj.same_ids (by rw [hids])
      refine ⟨⟨?_, ?_, ?_, ?_, ?_⟩, hitems, Iff.rfl⟩
      · rw [hlist, hitems]
      · rwa [hitems]
      · rwa [hitems]
      · rw [hlist, displayed_congr hrt hids, ← hj.numbers]
        exact hj.applied
      · refine hj.current.imp_left fun hnil => ?_
        rw [Editor.updatePose, if_pos rfl, hnil]
        rfl

/-- In a state in which all is well, no callback raises, and each does what it is for. -/
theorem Inv.step (hrt : rt.Documented) (hj : e.Inv rt) (hcurrent : e.Current rt)
    (event : EditorEvent) : ∃ t, e.step rt event = some t ∧ Follows rt e event t := by
  cases event with
  | goalPose pose => exact ⟨_, rfl, hj.goalPose hrt pose⟩
  | menu entry name =>
      cases hshown : rt.shown e.server name with
      | none =>
          refine ⟨e, by rw [Editor.step, hshown], hj, by rw [operation, hshown]; rfl,
            iff_of_true hcurrent ?_⟩
          cases entry with
          | delete => exact fun h => absurd h (by rw [hshown]; simp)
          | _ => trivial
      | some id =>
          obtain ⟨t, ht, hfollows⟩ := hj.menuCallback hrt hcurrent hshown entry
          exact ⟨t, by rw [Editor.step, hshown]; exact ht, hfollows⟩
  | drag name mouseUp pose =>
      cases hshown : rt.shown e.server name with
      | none =>
          exact ⟨e, by rw [Editor.step, hshown], hj, by rw [operation, hshown]; rfl,
            iff_of_true hcurrent trivial⟩
      | some id =>
          obtain ⟨hinv, hitems, hiff⟩ := hj.updatePose hrt hshown mouseUp pose
          exact ⟨_, by rw [Editor.step, hshown], hinv, hitems,
            iff_of_true (hiff.mpr hcurrent) trivial⟩

/-- On an empty list the entries of a marker that has stayed do nothing or raise. -/
theorem menuCallback_nil {entry : MenuEntry} {name : String} {t : Editor S}
    (hnil : e.iWaypoints = []) (h : e.menuCallback rt entry name = some t) : t = e := by
  have hindex : ∀ i, pyIndex e.iWaypoints.length i = none := by
    intro i
    rw [hnil, pyIndex, List.length_nil]
    split_ifs with hi hlt hge
    · omega
    · rfl
    · omega
    · rfl
  have hget : ∀ i, e.get i = none := fun i => by rw [get, hindex]; rfl
  have hremove : ∀ i, e.remove rt i = none := fun i => by rw [remove, hindex]; rfl
  have hset : ∀ b i, e.setThrough rt b i = none := fun b i => by
    rw [Editor.setThrough, hindex]
    rfl
  cases entry with
  | approach => exact (Option.some.inj h).symm
  | dummy => exact (Option.some.inj h).symm
  | copyNext | copyNextPoseOnly | delete | setThroughPoint | setTargetPoint =>
      cases hname : getIndexFromWaypointName name with
      | none => simp [Editor.menuCallback, hname] at h
      | some i => simp [Editor.menuCallback, hname, hget, hremove, hset] at h

theorem Inv.of_step (hrt : rt.Documented) (hj : e.Inv rt) {event : EditorEvent} {t : Editor S}
    (h : e.step rt event = some t) : t.Inv rt := by
  rcases hj.current with hnil | hcurrent
  · cases event with
    | goalPose pose =>
        obtain rfl := Option.some.inj h
        exact (hj.goalPose hrt pose).inv
    | menu entry name =>
        cases hshown : rt.shown e.server name with
        | none =>
            rw [Editor.step, hshown] at h
            obtain rfl := Option.some.inj h
            exact hj
        | some id =>
            rw [Editor.step, hshown] at h
            obtain rfl := menuCallback_nil hnil h
            exact hj
    | drag name mouseUp pose =>
        cases hshown : rt.shown e.server name with
        | none =>
            rw [Editor.step, hshown] at h
            obtain rfl := Option.some.inj h
            exact hj
        | some id =>
            rw [Editor.step, hshown] at h
            obtain rfl := Option.some.inj h
            exact (hj.updatePose hrt hshown mouseUp pose).1
  · obtain ⟨t', ht', hfollows⟩ := hj.step hrt hcurrent event
    obtain rfl := Option.some.inj (ht'.symm.trans h)
    exact hfollows.inv

end Step

/-! ## The list that is loaded -/

theorem fromWaypointList_concat (waypoints : List Waypoint) (w : Waypoint)
    (warnings : List Warning) :
    fromWaypointList rt ⟨waypoints ++ [w], warnings⟩ =
      (fromWaypointList rt ⟨waypoints, warnings⟩).add rt w :=
  List.foldl_concat ..

/-- The objects are numbered as they come. -/
theorem fromWaypointList_eq (rt : EditorRuntime S) (waypoints : List Waypoint) (warnings : List Warning) :
    (fromWaypointList rt ⟨waypoints, warnings⟩).iWaypoints =
        waypoints.mapIdx (fun i w => ⟨i, w⟩) ∧
      (fromWaypointList rt ⟨waypoints, warnings⟩).nextId = waypoints.length := by
  induction waypoints using List.reverseRecOn with
  | nil => exact ⟨rfl, rfl⟩
  | append_singleton waypoints w ih =>
      rw [fromWaypointList_concat]
      constructor
      · rw [List.mapIdx_append, ← ih.1, List.mapIdx_cons, List.mapIdx_nil, Nat.zero_add, ← ih.2]
        rfl
      · rw [List.length_append, ← ih.2]
        rfl

theorem fromWaypointList_server (hrt : rt.Documented) (waypoints : List Waypoint)
    (warnings : List Warning) :
    rt.applied (fromWaypointList rt ⟨waypoints, warnings⟩).server =
        displayed rt (fromWaypointList rt ⟨waypoints, warnings⟩).iWaypoints ∧
      (fromWaypointList rt ⟨waypoints, warnings⟩).Current rt := by
  induction waypoints using List.reverseRecOn with
  | nil => exact ⟨hrt.applied_initial, hrt.shown_initial.trans hrt.applied_initial.symm⟩
  | append_singleton waypoints w ih =>
      rw [fromWaypointList_concat]
      exact ⟨applied_add hrt ih.1 w, shown_insertServer hrt _ _⟩

/-- The indices of the file are integers. -/
def IntegerIndices (waypointList : WaypointList) : Prop :=
  ∀ w ∈ waypointList.waypoints, ∃ n, w.index = .int n

theorem index_of_integer {waypoints : List Waypoint} (hindexed : Indexed waypoints)
    {i : Nat} (hi : i < waypoints.length) (hint : ∃ n, waypoints[i].index = .int n) :
    waypoints[i].index = .int i := by
  obtain ⟨n, hn⟩ := hint
  have hkey := hindexed.key? hi
  rw [hn, Value.key?, Option.some_inj, Value.Key.num.injEq] at hkey
  have hcast : (n : ℚ) = ((i : Int) : ℚ) := by rw [hkey, Int.cast_natCast]
  rw [hn, Int.cast_injective hcast]

theorem fromWaypointList_inv (hrt : rt.Documented) {waypointList : WaypointList}
    (hindexed : Indexed waypointList.waypoints) (hint : IntegerIndices waypointList) :
    (fromWaypointList rt waypointList).Inv rt := by
  obtain ⟨waypoints, warnings⟩ := waypointList
  obtain ⟨hlist, hnext⟩ := fromWaypointList_eq rt waypoints warnings
  obtain ⟨happlied, hcurrent⟩ := fromWaypointList_server hrt waypoints warnings
  have hids : (fromWaypointList rt ⟨waypoints, warnings⟩).items.map (·.id) =
      List.range waypoints.length := by
    refine List.ext_getElem? fun i => ?_
    rw [items, hlist, List.map_map, List.getElem?_map, List.getElem?_mapIdx]
    by_cases hi : i < waypoints.length
    · rw [List.getElem?_range hi, List.getElem?_eq_getElem hi]
      rfl
    · rw [List.getElem?_eq_none (by omega), List.getElem?_eq_none (by simpa using hi)]
      rfl
  refine ⟨?_, ?_, ?_, happlied, .inr hcurrent⟩
  · rw [items, ← mapIdx_setIndex, hlist, List.mapIdx_mapIdx]
    refine List.mapIdx_eq_mapIdx_iff.mpr fun i hi => ?_
    have hindex := index_of_integer hindexed hi (hint _ (List.getElem_mem hi))
    rw [Function.comp_apply, InteractiveWaypointMarker.setIndex, ← hindex]
  · rw [hids]
    exact List.nodup_range
  · intro it hit
    have hmem : it.id ∈ List.range waypoints.length := hids ▸ List.mem_map_of_mem hit
    rw [hnext]
    exact List.mem_range.mp hmem

/-- A name with an index that is not an integer leads nowhere. -/
theorem not_sound_of_not_integer (hrt : rt.Documented) {waypointList : WaypointList}
    (hindexed : Indexed waypointList.waypoints) (hint : ¬ IntegerIndices waypointList) :
    ¬ (fromWaypointList rt waypointList).Sound rt := by
  intro hsound
  obtain ⟨waypoints, warnings⟩ := waypointList
  refine hint fun w hw => ?_
  obtain ⟨i, hi, rfl⟩ := List.mem_iff_getElem.mp hw
  have hmem : (⟨i, waypoints[i]⟩ : InteractiveWaypointMarker) ∈
      (fromWaypointList rt ⟨waypoints, warnings⟩).iWaypoints := by
    rw [(fromWaypointList_eq rt waypoints warnings).1]
    exact List.mem_mapIdx.mpr ⟨i, hi, rfl⟩
  obtain ⟨index, _, hindex, _⟩ := hsound.resolves _ _ (hsound.shown _ hmem)
  have hkey := hindexed.key? hi
  rw [markerName] at hindex
  dsimp only at hindex hkey
  generalize waypoints[i].index = v at hindex hkey ⊢
  cases v with
  | int n => exact ⟨n, rfl⟩
  | bool b =>
      rw [hrt.str_bool] at hindex
      cases b with
      | true =>
          rw [if_pos rfl, getIndex_waypoint (by decide),
            toInt?_eq_none_of_mem (c := 'T') (by decide) (by decide) (by decide)] at hindex
          cases hindex
      | false =>
          rw [if_neg (by decide), getIndex_waypoint (by decide),
            toInt?_eq_none_of_mem (c := 'F') (by decide) (by decide) (by decide)] at hindex
          cases hindex
  | float x =>
      obtain ⟨hunderscore, hnone⟩ := hrt.str_float x
      rw [getIndex_waypoint hunderscore, hnone] at hindex
      cases hindex
  | null => cases hkey
  | str s => cases hkey
  | list items => cases hkey
  | map entries => cases hkey

/-! ## Every run -/

/-- The callback does not raise, and the items become those of the operation that it is for. -/
def Handles (rt : EditorRuntime S) (e : Editor S) (event : EditorEvent) : Prop :=
  ∃ t, e.step rt event = some t ∧ t.items = (e.operation rt event).apply e.items

end Editor

/-- From every loaded or empty list: the indices are the positions, the saved list passes the
index check, the names lead to the objects that are shown and every operation does to the items
just what it is for, all through a run, exactly if the indices of the file are integers and no
operation deletes the only waypoint. -/
theorem editor_sound_iff (hrt : rt.Documented) (waypointList : WaypointList)
    (hload : waypointList.waypoints = [] ∨
      ∃ loader file, WaypointsLoader.load loader file = .ok waypointList)
    (events : List Editor.EditorEvent) :
    Always (Editor.step rt) (Editor.Sound rt) (Editor.fromWaypointList rt waypointList) events ∧
        Meets (Editor.step rt) (Editor.Handles rt) (Editor.fromWaypointList rt waypointList) events ↔
      Editor.IntegerIndices waypointList ∧
        Meets (Editor.step rt) (Editor.KeepsOne rt) (Editor.fromWaypointList rt waypointList)
          events := by
  have hindexed : Indexed waypointList.waypoints := by
    rcases hload with hnil | ⟨loader, file, hload⟩
    · rw [hnil]
      rfl
    · obtain ⟨_, _, _, _, _, hindexed, _⟩ := WaypointsLoader.load_ok hload
      exact hindexed
  by_cases hint : Editor.IntegerIndices waypointList
  · have hinv := Editor.fromWaypointList_inv hrt hindexed hint
    have hcurrent := (Editor.fromWaypointList_server hrt waypointList.waypoints
      waypointList.warnings).2
    have hstep : ∀ (e : Editor S) event, e.Inv rt → e.Sound rt →
        ∃ t, e.step rt event = some t ∧ t.Inv rt ∧ (t.Sound rt ↔ e.KeepsOne rt event) := by
      intro e event hj hsound
      obtain ⟨t, ht, hfollows⟩ := hj.step hrt ((hj.sound_iff hrt).mp hsound) event
      exact ⟨t, ht, hfollows.inv, (hfollows.inv.sound_iff hrt).trans hfollows.current⟩
    have hsound := (hinv.sound_iff hrt).mpr hcurrent
    rw [always_iff_meets_of_enabled hstep hinv hsound, and_iff_right hint, and_iff_left_iff_imp]
    refine meets_of_invariant (I := fun e => Editor.Inv rt e ∧ Editor.Current rt e) ?_ ?_
      ⟨hinv, hcurrent⟩
    · rintro e event t ⟨hj, hcur⟩ hkeeps ht
      obtain ⟨t', ht', hfollows⟩ := hj.step hrt hcur event
      obtain rfl := Option.some.inj (ht'.symm.trans ht)
      exact ⟨hfollows.inv, hfollows.current.mpr hkeeps⟩
    · rintro e event ⟨hj, hcur⟩ _
      obtain ⟨t, ht, hfollows⟩ := hj.step hrt hcur event
      exact ⟨t, ht, hfollows.items⟩
  · refine iff_of_false (fun h => ?_) fun h => hint h.1
    exact Editor.not_sound_of_not_integer hrt hindexed hint h.1.head

/-- A server with the markers that are shown and those that will be. -/
def rviz : EditorRuntime ((String → Option Nat) × (String → Option Nat)) where
  initial := (fun _ => none, fun _ => none)
  insert s name id := (s.1, Function.update s.2 name (some id))
  clear s := (s.1, fun _ => none)
  applyChanges s := (s.2, s.2)
  shown := Prod.fst
  str
    | .int n => toString n
    | .bool b => if b then "True" else "False"
    | _ => "0.0"
  addOne
    | .finite q => .finite (q + 1)
    | x => x
  subOne
    | .finite q => .finite (q - 1)
    | x => x

theorem rviz_documented : rviz.Documented where
  shown_initial := rfl
  applied_initial := rfl
  applied_insert _ _ _ := rfl
  shown_clear _ := rfl
  applied_clear _ := rfl
  applied_applyChanges _ := rfl
  str_int _ := rfl
  str_bool _ := rfl
  str_float _ := by
    change '_' ∉ "0.0".toList ∧ "0.0".toInt? = none
    exact ⟨by decide, toInt?_eq_none_of_mem (c := '.') (by decide) (by decide) (by decide)⟩

def origin : Pose :=
  ⟨⟨.finite 0, .finite 0, .finite 0⟩, ⟨.finite 0, .finite 0, .finite 0, .finite 1⟩⟩

/-- Two waypoints are added and the first is deleted. -/
theorem editor_sound_delete_first :
    Always (Editor.step rviz) (Editor.Sound rviz) (Editor.fromWaypointList rviz {})
        [.goalPose origin, .goalPose origin, .menu .delete "waypoint_0"] ∧
      Meets (Editor.step rviz) (Editor.Handles rviz) (Editor.fromWaypointList rviz {})
        [.goalPose origin, .goalPose origin, .menu .delete "waypoint_0"] := by
  refine (editor_sound_iff rviz_documented {} (.inl rfl) _).mpr
    ⟨fun w hw => absurd hw List.not_mem_nil, ?_⟩
  exact Meets.cons trivial rfl (Meets.cons trivial rfl ⟨fun _ => by decide, fun _ _ => trivial⟩)

/-- A waypoint is added and deleted. -/
theorem deleted_waypoint_stays_shown :
    ¬ Always (Editor.step rviz) (Editor.Sound rviz) (Editor.fromWaypointList rviz {})
      [.goalPose origin, .menu .delete "waypoint_0"] := by
  have hempty : (Editor.fromWaypointList rviz {}).Inv rviz :=
    Editor.fromWaypointList_inv rviz_documented rfl fun w hw => absurd hw List.not_mem_nil
  have hone := hempty.goalPose rviz_documented origin
  obtain ⟨t, ht, hfollows⟩ := hone.inv.step rviz_documented (hone.current.mpr trivial)
    (.menu .delete "waypoint_0")
  intro h
  have hsound : t.Sound rviz := ((h.2 _ rfl).2 t ht).head
  have hkeeps := hfollows.current.mp ((hfollows.inv.sound_iff rviz_documented).mp hsound)
  exact hkeeps rfl rfl

end MgRobot.WaypointFile

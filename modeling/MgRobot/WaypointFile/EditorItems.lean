import Mathlib.Data.List.InsertIdx
import Mathlib.Data.List.Nodup
import MgRobot.WaypointFile.Editor
import MgRobot.WaypointFile.RoundTrip

/-!
# What the operations of the editor do to its list

The list of the editor is a list of items with their positions written on them. On
such a list each method of the manager is one operation on the items, and the numbers
come out right.
-/

namespace MgRobot.WaypointFile

set_option autoImplicit false

open MgRobot.Lib.Plain

/-- A waypoint of the editor without its number. -/
structure Item where
  id : Nat
  pose : Pose
  navigation : NavigationConfig := {}
  onReachedActions : List ActionConfig := []

def InteractiveWaypointMarker.item (iw : InteractiveWaypointMarker) : Item :=
  ⟨iw.id, iw.waypoint.pose, iw.waypoint.navigation, iw.waypoint.onReachedActions⟩

def Item.setThroughPoint (isThroughPoint : Bool) (it : Item) : Item :=
  { it with navigation := { it.navigation with isThroughPoint := .bool isThroughPoint } }

def Item.numbered (i : Nat) (it : Item) : InteractiveWaypointMarker :=
  ⟨it.id, { index := .int i, pose := it.pose, navigation := it.navigation,
            onReachedActions := it.onReachedActions }⟩

/-- The items with their positions written on them. -/
def numbered (items : List Item) : List InteractiveWaypointMarker := items.mapIdx Item.numbered

/-- An operation on a list of items; the object of an item says which one is meant. -/
inductive Operation where
  | append (item : Item)
  | copyAfter (id : Nat) (copy : Item → Item)
  | remove (id : Nat)
  | change (id : Nat) (f : Item → Item)
  | nothing

def Operation.apply : Operation → List Item → List Item
  | .append item, items => items ++ [item]
  | .copyAfter id copy, items => items.flatMap fun it => if it.id = id then [it, copy it] else [it]
  | .remove id, items => items.filter fun it => it.id ≠ id
  | .change id f, items => items.map fun it => if it.id = id then f it else it
  | .nothing, items => items

/-! ## Numbers -/

variable {items pre post : List Item} {it : Item} {i : Nat}

@[simp] theorem Item.item_numbered (it : Item) (i : Nat) : (it.numbered i).item = it := rfl

@[simp] theorem length_numbered : (numbered items).length = items.length :=
  List.length_mapIdx

@[simp] theorem map_item_numbered : (numbered items).map (·.item) = items := by
  refine List.ext_getElem? fun i => ?_
  simp [numbered, Function.comp_def]

theorem getElem?_numbered : (numbered items)[i]? = items[i]?.map (Item.numbered i) :=
  List.getElem?_mapIdx

theorem numbered_append :
    numbered (pre ++ post) = numbered pre ++ post.mapIdx fun i => Item.numbered (i + pre.length) :=
  List.mapIdx_append

/-- Writing the positions on a list makes it the numbered list of its items. -/
theorem mapIdx_setIndex (l : List InteractiveWaypointMarker) :
    l.mapIdx (fun i iw => iw.setIndex (.int i)) = numbered (l.map (·.item)) := by
  refine List.ext_getElem? fun i => ?_
  rw [numbered, List.getElem?_mapIdx, List.getElem?_mapIdx, List.getElem?_map, Option.map_map]
  rfl

/-- The indices are integers in order. -/
def Ascending (l : List InteractiveWaypointMarker) : Prop :=
  l.Pairwise fun a b => ∃ m n : Int,
    a.waypoint.index = .int m ∧ b.waypoint.index = .int n ∧ m ≤ n

theorem numbered_ascending : Ascending (numbered items) := by
  refine List.pairwise_iff_getElem.mpr fun i j hi hj hij => ⟨i, j, ?_, ?_, by omega⟩
  · simp [numbered, Item.numbered]
  · simp [numbered, Item.numbered]

theorem lt?_int (m n : Int) : (Value.int m).lt? (.int n) = some (decide ((m : ℚ) < n)) := rfl

theorem Ascending.sortByIndex {l : List InteractiveWaypointMarker} (h : Ascending l) :
    Editor.sortByIndex l = some l := by
  have hcomparable : l.Pairwise fun a b => WaypointList.Comparable a.waypoint b.waypoint := by
    refine List.Pairwise.imp ?_ h
    rintro a b ⟨m, n, ha, hb, _⟩
    rw [WaypointList.Comparable, ha, hb, lt?_int]
    rfl
  have hbefore : l.Pairwise fun a b => WaypointList.Before a.waypoint b.waypoint := by
    refine List.Pairwise.imp ?_ h
    rintro a b ⟨m, n, ha, hb, hmn⟩
    rw [WaypointList.Before, ha, hb, lt?_int,
      decide_eq_false (not_lt.mpr (Rat.intCast_le_intCast.mpr hmn))]
    exact nofun
  rw [Editor.sortByIndex, if_pos hcomparable, hbefore.insertionSort_eq]

/-! ## The methods of the manager -/

section Manager

variable {S : Type} {rt : EditorRuntime S}

theorem pyIndex_nat {n : Nat} : pyIndex n (i : Int) = if i < n then some i else none := by
  simp [pyIndex]

theorem reindex_eraseIdx :
    Editor.reindex ((numbered items).eraseIdx i) = some (numbered (items.eraseIdx i)) := by
  have hsorted : Ascending ((numbered items).eraseIdx i) :=
    List.Pairwise.sublist (List.eraseIdx_sublist _ _) numbered_ascending
  rw [Editor.reindex, hsorted.sortByIndex]
  refine congrArg some ?_
  rw [mapIdx_setIndex, ← List.eraseIdx_map, map_item_numbered]

/-- Python's list comprehension that never raises. -/
theorem mapM_eq_some {α β : Type} {f : α → Option β} {g : α → β} {l : List α}
    (h : ∀ a ∈ l, f a = some (g a)) : l.mapM f = some (l.map g) := by
  induction l with
  | nil => rfl
  | cons a l ih =>
      rw [List.mapM_cons, h a List.mem_cons_self, ih fun b hb => h b (List.mem_cons_of_mem a hb)]
      rfl

theorem shiftIndex_int {iw : InteractiveWaypointMarker} {n k : Int}
    (hn : iw.waypoint.index = .int n) :
    Editor.shiftIndex rt k iw = some (if k ≤ n then iw.setIndex (.int (n + 1)) else iw) := by
  by_cases hk : k ≤ n
  · simp [Editor.shiftIndex, atLeast?, succ?, hn, hk]
  · simp [Editor.shiftIndex, atLeast?, hn, hk]

/-- The numbers from the position of the new waypoint on go up by one. -/
theorem insertIndex_numbered :
    Editor.insertIndex rt (numbered (pre ++ post)) pre.length =
      some (numbered pre ++ post.mapIdx fun i => Item.numbered (i + (pre.length + 1))) := by
  rw [Editor.insertIndex, numbered_ascending.sortByIndex]
  refine (mapM_eq_some (g := fun iw => match iw.waypoint.index with
    | .int n => if (pre.length : Int) ≤ n then iw.setIndex (.int (n + 1)) else iw
    | _ => iw) ?_).trans (congrArg some ?_)
  · intro iw hiw
    obtain ⟨i, hi, rfl⟩ := List.mem_iff_getElem.mp hiw
    rw [shiftIndex_int (n := i) (by simp [numbered, Item.numbered])]
    simp [numbered, Item.numbered]
  · rw [numbered_append, List.map_append]
    refine congrArg₂ _ (List.ext_getElem? fun i => ?_) (List.ext_getElem? fun i => ?_)
    · rw [List.getElem?_map, getElem?_numbered, Option.map_map]
      refine Option.map_congr fun it hit => ?_
      have hi : ¬ (pre.length : Int) ≤ i := by
        have := (List.getElem?_eq_some_iff.mp hit).1
        omega
      simp [Item.numbered, hi]
    · rw [List.getElem?_map, List.getElem?_mapIdx, List.getElem?_mapIdx, Option.map_map]
      refine Option.map_congr fun it _ => ?_
      simp [Item.numbered, InteractiveWaypointMarker.setIndex]
      omega

theorem insertIdx_append {α : Type} (l₁ l₂ : List α) (x : α) :
    (l₁ ++ l₂).insertIdx l₁.length x = l₁ ++ x :: l₂ := by
  induction l₁ with
  | nil => rfl
  | cons a l₁ ih => exact congrArg (a :: ·) ih

theorem pyInsert_numbered :
    pyInsert (numbered pre ++ post.mapIdx fun i => Item.numbered (i + (pre.length + 1)))
      pre.length (it.numbered pre.length) = numbered (pre ++ it :: post) := by
  rw [pyInsert, if_pos (Int.natCast_nonneg _), Int.toNat_natCast,
    Nat.min_eq_left (by rw [List.length_append, length_numbered]; omega)]
  have hlength : (numbered pre).length = pre.length := length_numbered
  rw [← hlength, insertIdx_append, hlength, numbered_append, List.mapIdx_cons]
  refine congrArg₂ _ rfl (congrArg₂ _ (by rw [Nat.zero_add]) ?_)
  exact List.mapIdx_eq_mapIdx_iff.mpr fun i hi => by rw [Nat.add_right_comm, Nat.add_assoc]

variable {e : Editor S}

theorem get_numbered (he : e.iWaypoints = numbered (pre ++ it :: post)) :
    e.get pre.length = some (it.numbered pre.length) := by
  have hi : pre.length < (pre ++ it :: post).length := by simp
  rw [Editor.get, he, length_numbered, pyIndex_nat, if_pos hi]
  simp [getElem?_numbered]

theorem remove_numbered (he : e.iWaypoints = numbered (pre ++ it :: post)) :
    e.remove rt pre.length = some (e.refresh rt (numbered (pre ++ post))) := by
  have hi : pre.length < (pre ++ it :: post).length := by simp
  have herase : (pre ++ it :: post).eraseIdx pre.length = pre ++ post := by
    rw [List.eraseIdx_append_of_length_le (Nat.le_refl _), Nat.sub_self]
    rfl
  rw [Editor.remove, he, length_numbered, pyIndex_nat, if_pos hi]
  simp only [Option.bind_eq_bind, Option.bind_some, reindex_eraseIdx, herase]
  rfl

/-- A waypoint that is inserted with the number of its position. -/
theorem insert_numbered (he : e.iWaypoints = numbered (pre ++ it :: post)) {waypoint : Waypoint}
    {new : Item} (hnew : (⟨e.nextId, waypoint⟩ : InteractiveWaypointMarker) =
      new.numbered (pre.length + 1)) :
    e.insert rt (pre.length + 1) waypoint =
      some ({ e with nextId := e.nextId + 1 }.refresh rt
        (numbered (pre ++ it :: new :: post))) := by
  have hlength : (pre.length : Int) + 1 = ((pre ++ [it]).length : Nat) := by simp
  have hlist : pre ++ it :: post = (pre ++ [it]) ++ post := by simp
  have hlist' : pre ++ it :: new :: post = (pre ++ [it]) ++ new :: post := by simp
  have hnew' : (⟨e.nextId, waypoint⟩ : InteractiveWaypointMarker) =
      new.numbered (pre ++ [it]).length := by simpa using hnew
  rw [Editor.insert, he, hlength, hlist, insertIndex_numbered, hlist']
  simp only [Option.bind_eq_bind, Option.bind_some, hnew', pyInsert_numbered]
  rfl

theorem setThrough_numbered (he : e.iWaypoints = numbered (pre ++ it :: post)) (b : Bool) :
    e.setThrough rt b pre.length =
      some (e.refresh rt (numbered (pre ++ it.setThroughPoint b :: post))) := by
  have hi : pre.length < (pre ++ it :: post).length := by simp
  rw [Editor.setThrough, he, length_numbered, pyIndex_nat, if_pos hi]
  refine congrArg (fun l => some (e.refresh rt l)) (List.ext_getElem? fun i => ?_)
  rw [List.getElem?_modify, getElem?_numbered, getElem?_numbered]
  rcases Nat.lt_trichotomy i pre.length with hlt | rfl | hgt
  · simp [List.getElem?_append_left hlt, hlt.ne']
  · simp [Item.numbered, Item.setThroughPoint, InteractiveWaypointMarker.setThroughPoint]
  · obtain ⟨k, rfl⟩ := Nat.exists_eq_add_of_lt hgt
    simp [List.getElem?_append_right, Nat.add_assoc]

/-- A drag changes the item of the object, wherever it stands. -/
theorem map_setPose_numbered (id : Nat) (pose : Pose) :
    (numbered items).map (fun iw => if iw.id = id then iw.setPose pose else iw) =
      numbered (items.map fun it => if it.id = id then { it with pose } else it) := by
  refine List.ext_getElem? fun i => ?_
  rw [List.getElem?_map, getElem?_numbered, getElem?_numbered, List.getElem?_map, Option.map_map,
    Option.map_map]
  refine Option.map_congr fun it _ => ?_
  by_cases hid : it.id = id
  · simp [Item.numbered, InteractiveWaypointMarker.setPose, hid]
  · simp [Item.numbered, hid]

end Manager

/-! ## The operations on items -/

theorem ids_ne (hnodup : ((pre ++ it :: post).map (·.id)).Nodup) :
    (∀ x ∈ pre, x.id ≠ it.id) ∧ ∀ x ∈ post, x.id ≠ it.id := by
  rw [List.map_append, List.map_cons] at hnodup
  obtain ⟨_, hpost, hdisjoint⟩ := List.nodup_append.mp hnodup
  constructor
  · exact fun x hx => hdisjoint _ (List.mem_map_of_mem hx) _ List.mem_cons_self
  · intro x hx heq
    exact (List.nodup_cons.mp hpost).1 (heq ▸ List.mem_map_of_mem hx)

theorem flatMap_singleton_of_ne {f : Item → List Item} (h : ∀ x ∈ items, f x = [x]) :
    items.flatMap f = items := by
  rw [List.flatMap_congr h, List.flatMap_singleton']

theorem apply_copyAfter (hnodup : ((pre ++ it :: post).map (·.id)).Nodup) (copy : Item → Item) :
    (Operation.copyAfter it.id copy).apply (pre ++ it :: post) = pre ++ it :: copy it :: post := by
  obtain ⟨hpre, hpost⟩ := ids_ne hnodup
  rw [Operation.apply, List.flatMap_append, List.flatMap_cons, if_pos rfl,
    flatMap_singleton_of_ne fun x hx => if_neg (hpre x hx),
    flatMap_singleton_of_ne fun x hx => if_neg (hpost x hx)]
  rfl

theorem apply_remove (hnodup : ((pre ++ it :: post).map (·.id)).Nodup) :
    (Operation.remove it.id).apply (pre ++ it :: post) = pre ++ post := by
  obtain ⟨hpre, hpost⟩ := ids_ne hnodup
  rw [Operation.apply, List.filter_append,
    List.filter_eq_self.mpr fun x hx => decide_eq_true (hpre x hx),
    List.filter_cons_of_neg (by simp),
    List.filter_eq_self.mpr fun x hx => decide_eq_true (hpost x hx)]

theorem apply_change (hnodup : ((pre ++ it :: post).map (·.id)).Nodup) (f : Item → Item) :
    (Operation.change it.id f).apply (pre ++ it :: post) = pre ++ f it :: post := by
  obtain ⟨hpre, hpost⟩ := ids_ne hnodup
  rw [Operation.apply, List.map_append, List.map_cons, if_pos rfl,
    List.map_congr_left fun x hx => if_neg (hpre x hx),
    List.map_congr_left fun x hx => if_neg (hpost x hx), List.map_id', List.map_id']

end MgRobot.WaypointFile

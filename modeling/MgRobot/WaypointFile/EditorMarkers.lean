import Mathlib
import MgRobot.WaypointFile.EditorItems

/-!
# Names and markers of the editor

The name of a marker leads back to its number, and a refreshed server displays each item
under its number and nothing else.
-/

namespace MgRobot.WaypointFile

set_option autoImplicit false

open MgRobot.Lib.Plain

/-! ## Names -/

theorem getIndex_waypoint {text : String} (h : '_' ∉ text.toList) :
    getIndexFromWaypointName ("waypoint_" ++ text) = text.toInt? := by
  have hsplit : ("waypoint_" ++ text).toList = "waypoint".toList ++ '_' :: text.toList := by simp
  rw [getIndexFromWaypointName, hsplit, List.splitOn_append_cons_self_of_not_mem (by decide),
    List.splitOn_eq_singleton h]
  simp

theorem underscore_notMem_toString (i : Nat) : '_' ∉ (toString (i : Int)).toList := by
  change '_' ∉ i.repr.toList
  rw [Nat.toList_repr]
  exact Nat.underscore_not_in_toDigits

theorem toInt?_toString (i : Nat) : (toString (i : Int)).toInt? = some (i : Int) :=
  Int.toInt?_repr i

/-- A text with a character that no integer has. -/
theorem toInt?_eq_none_of_mem {text : String} {c : Char} (hc : c ∈ text.toList)
    (hdigit : c.isDigit = false) (hchar : c ≠ '_' ∧ c ≠ '-') : text.toInt? = none := by
  have hnat : ∀ s : String, c ∈ s.toList → s.isNat ≠ true := by
    intro s hs h
    rcases (String.isNat_iff.mp h).2.1 c hs with hd | hu
    · rw [hdigit] at hd
      exact absurd hd nofun
    · exact hchar.1 hu
  rw [String.toInt?_eq_none_iff, ← Bool.not_eq_true, String.isInt_iff]
  rintro (h | ⟨rest, rfl, h⟩)
  · exact hnat text hc h
  · rw [String.toList_append] at hc
    rcases List.mem_append.mp hc with hminus | hrest
    · exact hchar.2 (List.mem_singleton.mp hminus)
    · exact hnat rest hrest h

variable {S : Type} {rt : EditorRuntime S}

/-- The name of the marker at a position. -/
def nameAt (rt : EditorRuntime S) (i : Nat) : String := "waypoint_" ++ rt.str (.int i)

theorem getIndex_nameAt (hrt : rt.Documented) (i : Nat) :
    getIndexFromWaypointName (nameAt rt i) = some (i : Int) := by
  rw [nameAt, hrt.str_int, getIndex_waypoint (underscore_notMem_toString i), toInt?_toString]

theorem nameAt_injective (hrt : rt.Documented) : Function.Injective (nameAt rt) := by
  intro i j h
  have hindex := congrArg getIndexFromWaypointName h
  rw [getIndex_nameAt hrt, getIndex_nameAt hrt] at hindex
  exact Int.ofNat_inj.mp (Option.some.inj hindex)

/-! ## Markers -/

/-- The markers of a list, on top of those that are there. -/
def displayedOn (rt : EditorRuntime S) (l : List InteractiveWaypointMarker)
    (shown : String → Option Nat) : String → Option Nat :=
  l.foldl (fun shown iw => Function.update shown (Editor.markerName rt iw) (some iw.id)) shown

abbrev displayed (rt : EditorRuntime S) (l : List InteractiveWaypointMarker) :
    String → Option Nat :=
  displayedOn rt l fun _ => none

theorem displayed_concat (l : List InteractiveWaypointMarker) (iw : InteractiveWaypointMarker) :
    displayed rt (l ++ [iw]) =
      Function.update (displayed rt l) (Editor.markerName rt iw) (some iw.id) := by
  rw [displayed, displayedOn, List.foldl_append]
  rfl

/-- A numbered list displays each item under its number, and nothing else. -/
theorem displayed_numbered (hrt : rt.Documented) (items : List Item) {name : String} {id : Nat} :
    displayed rt (numbered items) name = some id ↔
      ∃ i, (items.map (·.id))[i]? = some id ∧ name = nameAt rt i := by
  induction items using List.reverseRecOn with
  | nil => simp [displayedOn, numbered]
  | append_singleton items it ih =>
      have hnumbered : numbered (items ++ [it]) = numbered items ++ [it.numbered items.length] := by
        rw [numbered_append, List.mapIdx_cons, List.mapIdx_nil, Nat.zero_add]
      have hdisplayed : displayed rt (numbered (items ++ [it])) =
          Function.update (displayed rt (numbered items)) (nameAt rt items.length)
            (some it.id) := by
        rw [hnumbered, displayed_concat]
        rfl
      rw [hdisplayed]
      by_cases hname : name = nameAt rt items.length
      · rw [hname, Function.update_self, Option.some_inj]
        constructor
        · rintro rfl
          exact ⟨items.length, by simp, rfl⟩
        · rintro ⟨i, hi, heq⟩
          obtain rfl := nameAt_injective hrt heq
          simpa using hi
      · rw [Function.update_of_ne hname, ih]
        refine exists_congr fun i => and_congr_left fun heq => ?_
        have hi : i ≠ items.length := by
          rintro rfl
          exact hname heq
        rcases Nat.lt_or_gt_of_ne hi with hlt | hgt
        · rw [List.map_append, List.getElem?_append_left (by simpa using hlt)]
        · rw [List.getElem?_eq_none (by simp; omega), List.getElem?_eq_none (by simp; omega)]

theorem displayed_congr (hrt : rt.Documented) {items items' : List Item}
    (h : items.map (·.id) = items'.map (·.id)) :
    displayed rt (numbered items) = displayed rt (numbered items') := by
  funext name
  refine Option.ext fun id => ?_
  rw [displayed_numbered hrt, displayed_numbered hrt, h]

section Server

variable (hrt : rt.Documented)
include hrt

theorem applied_insertServer (s : S) (iw : InteractiveWaypointMarker) :
    rt.applied (Editor.insertServer rt s iw) =
      Function.update (rt.applied s) (Editor.markerName rt iw) (some iw.id) := by
  rw [Editor.insertServer, hrt.applied_applyChanges, hrt.applied_insert]

theorem shown_insertServer (s : S) (iw : InteractiveWaypointMarker) :
    rt.shown (Editor.insertServer rt s iw) = rt.applied (Editor.insertServer rt s iw) := by
  rw [Editor.insertServer, hrt.applied_applyChanges]
  rfl

theorem applied_foldl (l : List InteractiveWaypointMarker) (s : S) :
    rt.applied (l.foldl (Editor.insertServer rt) s) = displayedOn rt l (rt.applied s) := by
  induction l generalizing s with
  | nil => rfl
  | cons iw l ih => rw [List.foldl_cons, ih, applied_insertServer hrt, displayedOn, displayedOn,
      List.foldl_cons]

theorem shown_foldl {l : List InteractiveWaypointMarker} (h : l ≠ []) (s : S) :
    rt.shown (l.foldl (Editor.insertServer rt) s) =
      rt.applied (l.foldl (Editor.insertServer rt) s) := by
  obtain rfl | ⟨front, iw, rfl⟩ := List.eq_nil_or_concat' l
  · exact absurd rfl h
  · rw [List.foldl_append]
    exact shown_insertServer hrt _ iw

/-- A list that grows by one is displayed with one more marker. -/
theorem applied_add {e : Editor S} (h : rt.applied e.server = displayed rt e.iWaypoints)
    (w : Waypoint) : rt.applied (e.add rt w).server = displayed rt (e.add rt w).iWaypoints := by
  have hserver : (e.add rt w).server = Editor.insertServer rt e.server ⟨e.nextId, w⟩ := rfl
  have hlist : (e.add rt w).iWaypoints = e.iWaypoints ++ [⟨e.nextId, w⟩] := rfl
  rw [hserver, hlist, applied_insertServer hrt, h, displayed_concat]

theorem applied_refresh (e : Editor S) (l : List InteractiveWaypointMarker) :
    rt.applied (e.refresh rt l).server = displayed rt l := by
  rw [Editor.refresh, applied_foldl hrt, hrt.applied_clear]

theorem shown_refresh (e : Editor S) {l : List InteractiveWaypointMarker} (h : l ≠ []) :
    rt.shown (e.refresh rt l).server = rt.applied (e.refresh rt l).server :=
  shown_foldl hrt h _

/-- An empty list leaves the markers where they are. -/
theorem shown_refresh_nil (e : Editor S) : rt.shown (e.refresh rt []).server = rt.shown e.server :=
  hrt.shown_clear e.server

end Server

end MgRobot.WaypointFile

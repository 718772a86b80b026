import MgRobot.WaypointFile.SavedList
import MgRobot.Lib.Numerals

/-!
# Saving and loading

Which lists the loader accepts after they have been saved, and what it makes of
them. A list that has been loaded is always accepted again.
-/

namespace MgRobot.WaypointFile

set_option autoImplicit false

open MgRobot.Lib.Plain

variable {rt : Runtime} {waypoints : List Waypoint}

/-! ### Indices in order -/

/-- The indices are `0`, `1`, .. in order. -/
def Indexed (waypoints : List Waypoint) : Prop :=
  waypoints.map (·.index.key?) =
    (List.range waypoints.length).map fun i => some (.num (i : ℚ))

theorem validateIndices_ok {u : Unit} :
    WaypointsLoader.validateIndices waypoints = .ok u ↔ Indexed waypoints := by
  unfold WaypointsLoader.validateIndices
  split
  next h => exact iff_of_true rfl h
  next h => exact iff_of_false nofun h

theorem Indexed.key? (h : Indexed waypoints) {i : Nat} (hi : i < waypoints.length) :
    waypoints[i].index.key? = some (.num (i : ℚ)) := by
  have hi' : i < (waypoints.map (·.index.key?)).length := by rwa [List.length_map]
  have hget : (waypoints.map (·.index.key?))[i] = _ := List.getElem_of_eq h hi'
  rwa [List.getElem_map, List.getElem_map, List.getElem_range] at hget

theorem Indexed.lt? (h : Indexed waypoints) {i j : Nat} (hi : i < waypoints.length)
    (hj : j < waypoints.length) :
    waypoints[i].index.lt? waypoints[j].index = some (decide (i < j)) := by
  unfold Value.lt?
  rw [h.key? hi, h.key? hj]
  show some (decide ((i : ℚ) < j)) = _
  rw [decide_eq_decide.mpr Nat.cast_lt]

/-- The waypoints after the first are those with another index than zero. -/
theorem Indexed.mem_tail_iff (h : Indexed waypoints) {w : Waypoint} (hw : w ∈ waypoints) :
    w ∈ waypoints.tail ↔ w.index.key? ≠ some (.num 0) := by
  constructor
  · intro htail
    obtain ⟨i, hi, rfl⟩ := List.getElem_of_mem htail
    rw [List.length_tail] at hi
    rw [List.getElem_tail, h.key? (by omega)]
    intro hzero
    have hcast : ((i + 1 : Nat) : ℚ) = 0 := by
      injection hzero with hzero
      injection hzero
    exact absurd (Nat.cast_eq_zero.mp hcast) (Nat.succ_ne_zero i)
  · intro hne
    obtain ⟨i, hi, rfl⟩ := List.getElem_of_mem hw
    cases i with
    | zero =>
        rw [h.key? hi] at hne
        exact absurd rfl hne
    | succ i =>
        have htail : i < waypoints.tail.length := by
          rw [List.length_tail]
          omega
        rw [← List.getElem_tail htail]
        exact List.getElem_mem htail

/-- Sorting leaves such a list as it is. -/
theorem Indexed.sortByIndex (h : Indexed waypoints) :
    WaypointList.sortByIndex waypoints = .ok waypoints := by
  have hcomparable : waypoints.Pairwise WaypointList.Comparable := by
    refine List.pairwise_iff_getElem.mpr fun i j hi hj _ => ?_
    unfold WaypointList.Comparable
    rw [h.lt? hi hj]
    rfl
  have hbefore : waypoints.Pairwise WaypointList.Before := by
    refine List.pairwise_iff_getElem.mpr fun i j hi hj hij => ?_
    unfold WaypointList.Before
    rw [h.lt? hj hi, decide_eq_false (not_lt.mpr hij.le)]
    exact nofun
  unfold WaypointList.sortByIndex
  rw [if_pos hcomparable, hbefore.insertionSort_eq]

theorem sortByIndex_perm {sorted : List Waypoint}
    (h : WaypointList.sortByIndex waypoints = .ok sorted) : sorted.Perm waypoints := by
  unfold WaypointList.sortByIndex at h
  split at h
  next =>
    obtain rfl := Except.ok.inj h
    exact List.perm_insertionSort _ _
  next => exact absurd h nofun

/-- The number that an index stands for. -/
def rank (key : Option Value.Key) : ℚ :=
  match key with
  | some (.num q) => q
  | _ => 0

theorem lt?_of_num {a b : Value} {p q : ℚ} (ha : a.key? = some (.num p))
    (hb : b.key? = some (.num q)) : a.lt? b = some (decide (p < q)) := by
  unfold Value.lt?
  rw [ha, hb]
  rfl

/-- Indices that are `0`, .., `n - 1` in any order are sorted into this order. -/
theorem sortByIndex_of_perm {n : Nat} (h : (waypoints.map (·.index.key?)).Perm
      ((List.range n).map fun i => some (.num (i : ℚ)))) :
    ∃ sorted, WaypointList.sortByIndex waypoints = .ok sorted ∧ Indexed sorted := by
  have hnum : ∀ w ∈ waypoints, w.index.key? = some (.num (rank w.index.key?)) := by
    intro w hw
    obtain ⟨i, _, hi⟩ := List.mem_map.mp (h.mem_iff.mp (List.mem_map_of_mem hw))
    rw [← hi]
    rfl
  have hcomparable : waypoints.Pairwise WaypointList.Comparable := by
    refine List.pairwise_iff_getElem.mpr fun i j hi hj _ => ?_
    unfold WaypointList.Comparable
    rw [lt?_of_num (hnum _ (List.getElem_mem hi)) (hnum _ (List.getElem_mem hj))]
    rfl
  have hbefore : ∀ a ∈ waypoints, ∀ b ∈ waypoints,
      WaypointList.Before a b ↔ rank a.index.key? ≤ rank b.index.key? := by
    intro a ha b hb
    unfold WaypointList.Before
    rw [lt?_of_num (hnum b hb) (hnum a ha), ne_eq, Option.some_inj, decide_eq_true_iff, not_lt]
  have hrange : ((List.range n).map fun i => ((i : Nat) : ℚ)).Pairwise (· ≤ ·) :=
    List.pairwise_lt_range.map _ fun i j hij => Nat.cast_le.mpr hij.le
  have hranks : (waypoints.map fun w => rank w.index.key?).Perm
      ((List.range n).map fun i => ((i : Nat) : ℚ)) := by
    have hmap := h.map rank
    rwa [List.map_map, List.map_map] at hmap
  have hsorted : (waypoints.insertionSort WaypointList.Before).map (fun w => rank w.index.key?) =
      (List.range n).map fun i => ((i : Nat) : ℚ) := by
    rw [List.map_insertionSort WaypointList.Before (· ≤ ·) _ _ hbefore]
    exact ((List.perm_insertionSort _ _).trans hranks).eq_of_pairwise'
      (List.pairwise_insertionSort _ _) hrange
  refine ⟨_, if_pos hcomparable, ?_⟩
  have hlength := congrArg List.length hsorted
  rw [List.length_map, List.length_map, List.length_range] at hlength
  unfold Indexed
  rw [hlength]
  calc (waypoints.insertionSort WaypointList.Before).map (·.index.key?)
      = ((waypoints.insertionSort WaypointList.Before).map fun w => rank w.index.key?).map
          fun q => some (.num q) := by
        rw [List.map_map]
        refine List.map_congr_left fun w hw => ?_
        exact hnum w ((List.perm_insertionSort _ _).mem_iff.mp hw)
    _ = (List.range n).map fun i => some (.num (i : ℚ)) := by
        rw [hsorted, List.map_map]
        rfl

/-! ### Tolerances -/

/-- The tolerance of every through point but the first waypoint can be compared with a distance. -/
def Tolerable (waypoints : List Waypoint) : Prop :=
  ∀ w ∈ waypoints.tail, w.navigation.isThroughPoint.truthy = true →
    w.navigation.throughTolerance.isNumber = true

namespace WaypointsLoader

variable {positions : List (Value.Key × Position)}

theorem warningsOf_number {previous w : Waypoint} {isLast : Bool} {warnings : List Warning}
    (h : warningsOf rt positions (some previous) w isLast = .ok warnings)
    (hthrough : w.navigation.isThroughPoint.truthy = true) :
    w.navigation.throughTolerance.isNumber = true := by
  unfold warningsOf at h
  rw [if_pos hthrough] at h
  obtain ⟨close, hclose, _⟩ := Value.ok_of_bind h
  obtain ⟨p, _, hclose⟩ := Value.ok_of_bind hclose
  obtain ⟨q, _, hclose⟩ := Value.ok_of_bind hclose
  rw [← Value.lt?_float_isSome (rt.distance p q)]
  dsimp only at hclose
  split at hclose
  next => exact absurd hclose nofun
  next heq =>
    rw [heq]
    rfl
  next heq =>
    rw [heq]
    rfl

theorem closeWarnings_ok (rt : Runtime) {w : Waypoint} {previous : Option Waypoint}
    (hprevious : ∀ p ∈ previous, ∃ position, positionOf positions p.index = .ok position)
    (hw : ∃ position, positionOf positions w.index = .ok position)
    (hnumber : previous.isSome = true → w.navigation.throughTolerance.isNumber = true) :
    ∃ warnings, closeWarnings rt positions w previous = .ok warnings := by
  cases previous with
  | none => exact ⟨[], rfl⟩
  | some previous =>
      obtain ⟨p, hp⟩ := hprevious previous rfl
      obtain ⟨q, hq⟩ := hw
      have hcomparable := hnumber rfl
      rw [← Value.lt?_float_isSome (rt.distance p q)] at hcomparable
      obtain ⟨close, hclose⟩ := Option.isSome_iff_exists.mp hcomparable
      simp only [closeWarnings, bind, Except.bind, hp, hq, hclose]
      cases close with
      | true => exact ⟨_, rfl⟩
      | false => exact ⟨_, rfl⟩

theorem warningsOf_ok (rt : Runtime) {w : Waypoint} {previous : Option Waypoint}
    (hprevious : ∀ p ∈ previous, ∃ position, positionOf positions p.index = .ok position)
    (hw : ∃ position, positionOf positions w.index = .ok position)
    (hnumber : previous.isSome = true → w.navigation.isThroughPoint.truthy = true →
      w.navigation.throughTolerance.isNumber = true) (isLast : Bool) :
    ∃ warnings, warningsOf rt positions previous w isLast = .ok warnings := by
  unfold warningsOf
  split
  next hthrough =>
    obtain ⟨close, hclose⟩ := closeWarnings_ok rt hprevious hw fun h => hnumber h hthrough
    rw [hclose]
    exact ⟨_, rfl⟩
  next => exact ⟨[], rfl⟩

theorem collectWarnings_number : ∀ {waypoints : List Waypoint} {previous : Waypoint}
    {warnings : List Warning},
    collectWarnings rt positions (some previous) waypoints = .ok warnings →
    ∀ w ∈ waypoints, w.navigation.isThroughPoint.truthy = true →
      w.navigation.throughTolerance.isNumber = true
  | [], _, _, _ => fun w hw => absurd hw List.not_mem_nil
  | wp :: rest, previous, warnings, h => by
      unfold collectWarnings at h
      obtain ⟨here, hhere, h⟩ := Value.ok_of_bind h
      obtain ⟨_, hrest, _⟩ := Value.ok_of_bind h
      intro w hw hthrough
      rcases List.mem_cons.mp hw with rfl | hw
      · exact warningsOf_number hhere hthrough
      · exact collectWarnings_number hrest w hw hthrough

theorem collectWarnings_tolerable {warnings : List Warning}
    (h : collectWarnings rt positions none waypoints = .ok warnings) : Tolerable waypoints := by
  cases waypoints with
  | nil => exact fun w hw => absurd hw List.not_mem_nil
  | cons wp rest =>
      unfold collectWarnings at h
      obtain ⟨_, _, h⟩ := Value.ok_of_bind h
      obtain ⟨_, hrest, _⟩ := Value.ok_of_bind h
      exact collectWarnings_number hrest

theorem collectWarnings_ok (rt : Runtime) : ∀ {waypoints : List Waypoint}
    (previous : Option Waypoint),
    (∀ p ∈ previous, ∃ position, positionOf positions p.index = .ok position) →
    (∀ w ∈ waypoints, ∃ position, positionOf positions w.index = .ok position) →
    (∀ w ∈ waypoints, previous.isSome = true ∨ w ∈ waypoints.tail →
      w.navigation.isThroughPoint.truthy = true →
        w.navigation.throughTolerance.isNumber = true) →
    ∃ warnings, collectWarnings rt positions previous waypoints = .ok warnings
  | [], _, _, _, _ => ⟨[], rfl⟩
  | wp :: rest, previous, hprevious, hpositions, hnumber => by
      have hwp := hpositions wp List.mem_cons_self
      have hnext : ∀ p ∈ some wp, ∃ position, positionOf positions p.index = .ok position := by
        intro p hp
        rw [← Option.some.inj hp]
        exact hwp
      obtain ⟨here, hhere⟩ := warningsOf_ok rt hprevious hwp
        (fun h => hnumber wp List.mem_cons_self (.inl h)) rest.isEmpty
      obtain ⟨others, hothers⟩ := collectWarnings_ok rt (some wp) hnext
        (fun w hw => hpositions w (List.mem_cons_of_mem _ hw))
        (fun w hw _ => hnumber w (List.mem_cons_of_mem _ hw) (.inr hw))
      unfold collectWarnings
      rw [hhere, hothers]
      exact ⟨_, rfl⟩

theorem positionOf_ok {index : Value} {key : Value.Key} (hkey : index.key? = some key)
    {p : Value.Key × Position} (hp : p ∈ positions) (hpkey : p.1 = key) :
    ∃ position, positionOf positions index = .ok position := by
  unfold positionOf
  cases hfind : positions.reverse.find? fun p => index.key? = some p.1 with
  | none =>
      have hnone := List.find?_eq_none.mp hfind p (List.mem_reverse.mpr hp)
      rw [hkey, hpkey] at hnone
      exact absurd (decide_eq_true rfl) hnone
  | some found => exact ⟨found.2, rfl⟩

/-! ### The loader -/

/-- What a file that is accepted has gone through. -/
theorem load_ok {file : Value} {wl : WaypointList} (h : load rt file = .ok wl) :
    ∃ items default parsed,
      List.mapM (parseWaypoint rt default) items = .ok parsed ∧
      WaypointList.sortByIndex (parsed.map (·.1)) = .ok wl.waypoints ∧
      Indexed wl.waypoints ∧ Tolerable wl.waypoints := by
  unfold load at h
  split at h
  next entries =>
    split at h
    next =>
      obtain ⟨default, _, h⟩ := Value.ok_of_bind h
      obtain ⟨_, _, h⟩ := Value.ok_of_bind h
      obtain ⟨items, _, h⟩ := Value.ok_of_bind h
      obtain ⟨parsed, hparsed, h⟩ := Value.ok_of_bind h
      obtain ⟨sorted, hsorted, h⟩ := Value.ok_of_bind h
      obtain ⟨_, hindices, h⟩ := Value.ok_of_bind h
      obtain ⟨warnings, hwarnings, h⟩ := Value.ok_of_bind h
      obtain rfl := Except.ok.inj h
      exact ⟨items, default, parsed, hparsed, hsorted, validateIndices_ok.mp hindices,
        collectWarnings_tolerable hwarnings⟩
    next => exact absurd h nofun
  next => exact absurd h nofun

theorem load_plain {file : Value} {wl : WaypointList} (h : load rt file = .ok wl) :
    ∀ w ∈ wl.waypoints, w.Plain ∧ ∀ a ∈ w.onReachedActions, a.validate rt = .ok () := by
  obtain ⟨items, default, parsed, hparsed, hsorted, _⟩ := load_ok h
  intro w hw
  obtain ⟨⟨w, position⟩, hmem, rfl⟩ := List.mem_map.mp ((sortByIndex_perm hsorted).mem_iff.mp hw)
  obtain ⟨item, _, hitem⟩ := Value.mem_of_mapM_ok hparsed hmem
  exact parseWaypoint_plain hitem

/-- The file of the saver names no defaults. -/
theorem load_save (rt : Runtime) (wl : WaypointList) :
    load rt wl.save = (do
      let parsed ← (wl.waypoints.map Waypoint.toDict).mapM (parseWaypoint rt {})
      let waypoints ← WaypointList.sortByIndex (parsed.map (·.1))
      validateIndices waypoints
      let warnings ← collectWarnings rt (parsed.map (·.2)) none waypoints
      return { waypoints, warnings }) := rfl

/-- The entry of a waypoint in `positions`, once it has been saved. -/
def savedEntry (w : Waypoint) : Value.Key × Position :=
  (w.index.key?.getD .null, w.pose.position.x, w.pose.position.y)

theorem parse_saved (hrt : rt.Documented) (hplain : ∀ w ∈ waypoints, w.Plain)
    (hvalid : ∀ w ∈ waypoints, ∀ a ∈ w.onReachedActions, a.validate rt = .ok ()) :
    (waypoints.map Waypoint.toDict).mapM (parseWaypoint rt {}) =
      .ok (waypoints.map fun w => (w.kept, savedEntry w)) := by
  refine (Value.mapM_ok_iff _ _ _).mpr ?_
  rw [List.forall₂_map_left_iff, List.forall₂_map_right_iff]
  refine List.forall₂_same.mpr fun w hw => ?_
  obtain ⟨key, hkey⟩ := (hplain w hw).hashable
  rw [parseWaypoint_toDict hrt (hplain w hw) hkey (hvalid w hw), savedEntry, hkey]
  rfl

/-- A saved list is accepted when its actions are valid, it sorts to the indices `0`, `1`, ..,
and the tolerances are numbers. -/
theorem load_save_ok (hrt : rt.Documented) (wl : WaypointList) {sorted : List Waypoint}
    (hplain : ∀ w ∈ wl.waypoints, w.Plain)
    (hvalid : ∀ w ∈ wl.waypoints, ∀ a ∈ w.onReachedActions, a.validate rt = .ok ())
    (hsorted : WaypointList.sortByIndex (wl.waypoints.map Waypoint.kept) = .ok sorted)
    (hindexed : Indexed sorted) (htolerable : Tolerable sorted) :
    ∃ warnings, load rt wl.save = .ok ⟨sorted, warnings⟩ := by
  have hpositions : ∀ w ∈ sorted,
      ∃ position, positionOf (wl.waypoints.map savedEntry) w.index = .ok position := by
    intro w hw
    obtain ⟨saved, hsaved, rfl⟩ := List.mem_map.mp ((sortByIndex_perm hsorted).mem_iff.mp hw)
    obtain ⟨key, hkey⟩ := (hplain saved hsaved).hashable
    refine positionOf_ok hkey (List.mem_map_of_mem hsaved) ?_
    rw [savedEntry, hkey]
    rfl
  obtain ⟨warnings, hwarnings⟩ := collectWarnings_ok rt none
    (fun p hp => absurd hp nofun) hpositions
    (fun w _ hw => htolerable w (hw.resolve_left nofun))
  refine ⟨warnings, ?_⟩
  have hfst : (wl.waypoints.map fun w => (w.kept, savedEntry w)).map (·.1) =
      wl.waypoints.map Waypoint.kept := by
    rw [List.map_map]
    rfl
  have hsnd : (wl.waypoints.map fun w => (w.kept, savedEntry w)).map (·.2) =
      wl.waypoints.map savedEntry := by
    rw [List.map_map]
    rfl
  have hindices : validateIndices sorted = .ok () := validateIndices_ok.mpr hindexed
  rw [load_save, parse_saved hrt hplain hvalid]
  simp only [bind, Except.bind, hfst, hsnd, hsorted, hindices, hwarnings]
  rfl

/-- Conversely. -/
theorem of_load_save_ok (hrt : rt.Documented) {wl wl' : WaypointList}
    (hplain : ∀ w ∈ wl.waypoints, w.Plain)
    (hknown : ∀ w ∈ wl.waypoints, ∀ a ∈ w.onReachedActions, ∀ type, a.type ≠ .other type)
    (h : load rt wl.save = .ok wl') :
    (∀ w ∈ wl.waypoints, ∀ a ∈ w.onReachedActions, a.validate rt = .ok ()) ∧
      WaypointList.sortByIndex (wl.waypoints.map Waypoint.kept) = .ok wl'.waypoints ∧
      Indexed wl'.waypoints ∧ Tolerable wl'.waypoints := by
  rw [load_save] at h
  obtain ⟨parsed, hparsed, h⟩ := Value.ok_of_bind h
  obtain ⟨sorted, hsorted, h⟩ := Value.ok_of_bind h
  obtain ⟨_, hindices, h⟩ := Value.ok_of_bind h
  obtain ⟨warnings, hwarnings, h⟩ := Value.ok_of_bind h
  obtain rfl := Except.ok.inj h
  have hvalid : ∀ w ∈ wl.waypoints, ∀ a ∈ w.onReachedActions, a.validate rt = .ok () := by
    intro w hw
    obtain ⟨⟨w', position⟩, _, hw'⟩ := Value.ok_of_mem_mapM hparsed (List.mem_map_of_mem hw)
    exact validate_of_parseWaypoint_toDict (hknown w hw) (hplain w hw).relevant hw'
  rw [parse_saved hrt hplain hvalid] at hparsed
  obtain rfl := Except.ok.inj hparsed
  rw [List.map_map] at hsorted
  exact ⟨hvalid, hsorted, validateIndices_ok.mp hindices, collectWarnings_tolerable hwarnings⟩

end WaypointsLoader

/-! ### The round trip -/

theorem kept_index (waypoints : List Waypoint) (h : Indexed waypoints) :
    Indexed (waypoints.map Waypoint.kept) := by
  unfold Indexed
  rw [List.map_map, List.length_map]
  exact h

/-- What has been loaded is accepted again, with the arguments that count as empty replaced. -/
theorem load_save_of_loaded (hrt : rt.Documented) {file : Value} {wl : WaypointList}
    (h : WaypointsLoader.load rt file = .ok wl) :
    ∃ warnings, WaypointsLoader.load rt wl.save =
      .ok ⟨wl.waypoints.map Waypoint.kept, warnings⟩ := by
  have hloaded := WaypointsLoader.load_plain h
  obtain ⟨_, _, _, _, _, hindexed, htolerable⟩ := WaypointsLoader.load_ok h
  have hkept := kept_index _ hindexed
  refine WaypointsLoader.load_save_ok hrt wl (fun w hw => (hloaded w hw).1)
    (fun w hw => (hloaded w hw).2) hkept.sortByIndex hkept fun w hw => ?_
  rw [← List.map_tail] at hw
  obtain ⟨loaded, hloaded, rfl⟩ := List.mem_map.mp hw
  exact htolerable loaded hloaded

/-- Counts as empty but is not the empty mapping: `null`, `false`, a zero, `""` or `[]`. -/
def LostWhenSaved (v : Value) : Prop := v.isFalsy = true ∧ v ≠ .map []

theorem orEmpty_eq_self {v : Value} : orEmpty v = v ↔ ¬ LostWhenSaved v := by
  unfold orEmpty LostWhenSaved Value.truthy
  cases hfalsy : v.isFalsy with
  | true =>
      rw [if_neg (by decide)]
      constructor
      · rintro rfl
        exact fun h => h.2 rfl
      · intro h
        by_contra hne
        exact h ⟨rfl, fun heq => hne heq.symm⟩
  | false => exact iff_of_true (if_pos rfl) fun h => absurd h.1 nofun

theorem ActionConfig.kept_eq_self {a : ActionConfig} :
    a.kept = a ↔ (a.type = .service → ¬ LostWhenSaved a.request) ∧
      (a.type = .publish → ¬ LostWhenSaved a.data) := by
  rw [← orEmpty_eq_self, ← orEmpty_eq_self]
  obtain ⟨type, service, srvModule, srvClass, request, topic, msgModule, msgClass, data,
    localization, planning, countdownMs, mode⟩ := a
  cases type with
  | service => simp [ActionConfig.kept]
  | publish => simp [ActionConfig.kept]
  | loadMap => simp [ActionConfig.kept]
  | amclReset => simp [ActionConfig.kept]
  | wait => simp [ActionConfig.kept]
  | waitTrigger => simp [ActionConfig.kept]
  | setNavigationMode => simp [ActionConfig.kept]
  | other type => simp [ActionConfig.kept]

theorem map_eq_self {α : Type} {f : α → α} {xs : List α} :
    xs.map f = xs ↔ ∀ x ∈ xs, f x = x := by
  induction xs with
  | nil => exact iff_of_true rfl fun x hx => absurd hx List.not_mem_nil
  | cons x xs ih => rw [List.map_cons, List.cons_eq_cons, ih, List.forall_mem_cons]

theorem Waypoint.kept_eq_self {w : Waypoint} :
    w.kept = w ↔ ∀ a ∈ w.onReachedActions, a.kept = a := by
  rw [← map_eq_self]
  obtain ⟨index, pose, navigation, actions⟩ := w
  simp [Waypoint.kept]

/-- A loaded list comes back from a save as it was exactly when no service has a request, and no
message data, that counts as empty without being the empty mapping. -/
theorem save_load_iff (rt : Runtime) (hrt : rt.Documented) (file : Value) (wl : WaypointList)
    (h : WaypointsLoader.load rt file = .ok wl) :
    (∃ wl', WaypointsLoader.load rt wl.save = .ok wl' ∧ wl'.waypoints = wl.waypoints) ↔
      ∀ w ∈ wl.waypoints, ∀ a ∈ w.onReachedActions,
        (a.type = .service → ¬ LostWhenSaved a.request) ∧
          (a.type = .publish → ¬ LostWhenSaved a.data) := by
  obtain ⟨warnings, hsaved⟩ := load_save_of_loaded hrt h
  have hsame : (∃ wl', WaypointsLoader.load rt wl.save = .ok wl' ∧
      wl'.waypoints = wl.waypoints) ↔ wl.waypoints.map Waypoint.kept = wl.waypoints := by
    rw [hsaved]
    constructor
    · rintro ⟨wl', hwl', hwaypoints⟩
      rw [← Except.ok.inj hwl'] at hwaypoints
      exact hwaypoints
    · exact fun hkept => ⟨_, rfl, hkept⟩
  rw [hsame, map_eq_self]
  simp only [Waypoint.kept_eq_self, ActionConfig.kept_eq_self]

/-! ### A service without a request -/

/-- A float field of a message: zero where it is missing, and only floats are taken. -/
def floatField (entries : List (Value × Value)) (name : String) (default : PyFloat) :
    Option PyFloat :=
  match Value.entryAt? name entries with
  | none => some default
  | some (.float x) => some x
  | some _ => none

/-- `std_srvs` is installed; distances are those along an axis. -/
def ros : Runtime where
  point entries := do
    guard (entries.all fun e => e.1.isStr "x" || e.1.isStr "y" || e.1.isStr "z")
    return ⟨← floatField entries "x" (.finite 0), ← floatField entries "y" (.finite 0),
      ← floatField entries "z" (.finite 0)⟩
  quaternion entries := do
    guard (entries.all fun e =>
      e.1.isStr "x" || e.1.isStr "y" || e.1.isStr "z" || e.1.isStr "w")
    return ⟨← floatField entries "x" (.finite 0), ← floatField entries "y" (.finite 0),
      ← floatField entries "z" (.finite 0), ← floatField entries "w" (.finite 1)⟩
  importClass moduleName className :=
    if moduleName.isStr "std_srvs.srv" then
      if className.isStr "SetBool" then .found else .noClass
    else .noModule
  toFloat
    | .float x => some x
    | _ => none
  distance
    | (.finite x, .finite y), (.finite x', .finite y') => .finite (|x' - x| + |y' - y|)
    | _, _ => .nan

theorem ros_documented : ros.Documented where
  point_toDict _ := rfl
  quaternion_toDict _ := rfl
  toFloat_float _ := rfl

/-- An entry of a file, `x` metres along the axis. -/
def waypointAt (index : Int) (x : ℚ) (more : List (Value × Value)) : Value :=
  .map ([(.str "index", .int index),
    (.str "pose", .map
      [(.str "position", .map [(.str "x", .float (.finite x)), (.str "y", .float (.finite 0)),
          (.str "z", .float (.finite 0))]),
        (.str "orientation", .map [(.str "w", .float (.finite 1))])])] ++ more)

def actionEntry (type : String) (more : List (Value × Value)) : Value :=
  .map ((.str "type", .str type) :: more)

/-- Three waypoints, the last one first. -/
def tourFile : Value :=
  .map
    [(.str "version", .str "2.0"),
      (.str "defaults", .map [(.str "is_through_point", .bool false)]),
      (.str "waypoints", .list
        [waypointAt 2 20
            [(.str "on_reached_actions", .list
              [actionEntry "service"
                  [(.str "service", .str "/pause"), (.str "srv_module", .str "std_srvs.srv"),
                    (.str "srv_class", .str "SetBool"),
                    (.str "request", .map [(.str "data", .bool true)])],
                actionEntry "wait" [(.str "countdown_ms", .int 500)]])],
          waypointAt 0 0
            [(.str "navigation", .map [(.str "is_through_point", .bool true)]),
              (.str "on_reached_actions", .list
              [actionEntry "load_map" [(.str "localization", .str "map.yaml")],
                actionEntry "amcl_reset" []])],
          waypointAt 1 10
            [(.str "on_reached_actions", .list
              [actionEntry "set_navigation_mode" [(.str "mode", .str "queue_wait")],
                actionEntry "wait_trigger" []])]])]

def poseAt (x : ℚ) : Pose :=
  ⟨⟨.finite x, .finite 0, .finite 1⟩, ⟨.finite 0, .finite 0, .finite 0, .finite 1⟩⟩

def tourList : WaypointList where
  waypoints := [
    { index := .int 0
      pose := poseAt 0
      onReachedActions := [{ type := .loadMap, localization := .str "map.yaml" },
        { type := .amclReset }] },
    { index := .int 1
      pose := poseAt 10
      navigation := { isThroughPoint := .bool false }
      onReachedActions := [{ type := .setNavigationMode, mode := .str "queue_wait" },
        { type := .waitTrigger }] },
    { index := .int 2
      pose := poseAt 20
      navigation := { isThroughPoint := .bool false }
      onReachedActions := [
        { type := .service, service := .str "/pause", srvModule := .str "std_srvs.srv"
          srvClass := .str "SetBool", request := .map [(.str "data", .bool true)] },
        { type := .wait, countdownMs := .int 500 }] }]
  warnings := [.actions (.int 0) (.float (.finite 3))]

theorem load_tourFile : WaypointsLoader.load ros tourFile = .ok tourList := rfl

/-- The list comes back in the order of the indices; its one request is not empty. -/
theorem save_load_tour : WaypointsLoader.load ros tourFile = .ok tourList ∧
    ∃ wl', WaypointsLoader.load ros tourList.save = .ok wl' ∧
      wl'.waypoints = tourList.waypoints := by
  refine ⟨load_tourFile, (save_load_iff ros ros_documented _ _ load_tourFile).mpr ?_⟩
  simp [tourList, LostWhenSaved, Value.isFalsy]

/-- One waypoint, which calls a service. -/
def serviceFile (request : Value) : Value :=
  .map
    [(.str "version", .str "2.0"),
      (.str "waypoints", .list [.map
        [(.str "index", .int 0),
          (.str "pose", .map
            [(.str "position", .map [(.str "x", .float (.finite 1)), (.str "y", .float (.finite 2)),
                (.str "z", .float (.finite 0))]),
              (.str "orientation", .map [(.str "w", .float (.finite 1))])]),
          (.str "on_reached_actions", .list [.map
            [(.str "type", .str "service"), (.str "service", .str "/pause"),
              (.str "srv_module", .str "std_srvs.srv"), (.str "srv_class", .str "SetBool"),
              (.str "request", request)]])]])]

def serviceList (request : Value) : WaypointList where
  waypoints := [{
    index := .int 0
    pose := ⟨⟨.finite 1, .finite 2, .finite 1⟩, ⟨.finite 0, .finite 0, .finite 0, .finite 1⟩⟩
    onReachedActions := [{
      type := .service, service := .str "/pause", srvModule := .str "std_srvs.srv"
      srvClass := .str "SetBool", request }] }]
  warnings := [.actions (.int 0) (.float (.finite 3)), .last (.int 0) (.float (.finite 3))]

theorem load_serviceFile (request : Value) :
    WaypointsLoader.load ros (serviceFile request) = .ok (serviceList request) := rfl

/-- `request:` with nothing after it. -/
theorem save_load_null_request :
    WaypointsLoader.load ros (serviceFile .null) = .ok (serviceList .null) ∧
      ¬ ∃ wl', WaypointsLoader.load ros (serviceList .null).save = .ok wl' ∧
        wl'.waypoints = (serviceList .null).waypoints := by
  refine ⟨load_serviceFile .null, ?_⟩
  rintro ⟨wl', hload, hwaypoints⟩
  obtain ⟨warnings, hkept⟩ := load_save_of_loaded ros_documented (load_serviceFile .null)
  rw [hkept] at hload
  rw [← Except.ok.inj hload] at hwaypoints
  simp [serviceList, Waypoint.kept, ActionConfig.kept, orEmpty, Value.isFalsy] at hwaypoints

end MgRobot.WaypointFile

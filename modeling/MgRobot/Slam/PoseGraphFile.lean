import Mathlib.Data.List.FinRange
import Mathlib.Data.List.Perm.Basic
import MgRobot.Slam.LocalMap

/-!
# The file of a pose graph

`core/slam_data_saver.cpp` writes `pose_graph.json`, and `nodes/reoptimize_node.cpp`
reads it again and looks for the scans of its nodes.
-/

namespace MgRobot.Slam

set_option autoImplicit false

/-- A JSON document; `R` is the type of the doubles. -/
inductive Json (R : Type*) where
  | null
  | bool (b : Bool)
  | int (n : Int)
  | float (x : R)
  | str (s : String)
  | arr (items : List (Json R))
  | obj (members : List (String × Json R))

namespace Json

variable {R : Type*} [Field R] [LinearOrder R] [FloorRing R]

/-- `j[key]` of an object that has the key. -/
def at? (key : String) : Json R → Option (Json R)
  | obj members => members.lookup key
  | _ => none

/-- `j[key]` as a value of some type. -/
def get {α : Type*} (key : String) (read : Json R → Option α) (j : Json R) : Option α :=
  (j.at? key).bind read

/-- `j[key]` of a document that may be changed, as a loop goes through it: what is missing becomes
`null`, a single value counts as one item. -/
def items (key : String) : Json R → Option (List (Json R))
  | null => some []
  | obj members =>
      match members.lookup key with
      | none | some null => some []
      | some (arr items) => some items
      | some (obj members) => some (members.map Prod.snd)
      | some v => some [v]
  | _ => none

def getDouble : Json R → Option R
  | int n => some n
  | float x => some x
  | _ => none

def getInt : Json R → Option Int
  | int n => some n
  | float x => some (truncToInt x)
  | bool b => some (if b then 1 else 0)
  | _ => none

/-- A node index. A file with a negative one is not modelled. -/
def getIndex (j : Json R) : Option Nat :=
  match j.getInt with
  | some (.ofNat n) => some n
  | _ => none

def getBool : Json R → Option Bool
  | bool b => some b
  | _ => none

def getStr : Json R → Option String
  | str s => some s
  | _ => none

def contains (key : String) : Json R → Bool
  | obj members => (members.lookup key).isSome
  | _ => false

/-- `j.value(key, fallback)`. -/
def value {α : Type*} (key : String) (read : Json R → Option α) (fallback : α) :
    Json R → Option α
  | obj members =>
      match members.lookup key with
      | none => some fallback
      | some v => read v
  | _ => none

end Json

section

variable {R : Type*}

/-! ## Writing -/

def nodeJson (n : PoseNode R) : Json R :=
  .obj [("index", .int n.index), ("timestamp", .float n.timestamp), ("x", .float n.x),
    ("y", .float n.y), ("yaw", .float n.yaw)]

/-- The rows of the information matrix, one after the other. -/
def infoVec (information : Matrix (Fin 3) (Fin 3) R) : List R :=
  (List.finRange 3).flatMap fun r => (List.finRange 3).map fun c => information r c

def edgeJson (e : PoseEdge R) : Json R :=
  .obj [("from", .int e.fromIndex), ("to", .int e.toIndex), ("dx", .float e.dx),
    ("dy", .float e.dy), ("dyaw", .float e.dyaw), ("score", .float e.score),
    ("is_odom_fallback", .bool e.isOdomFallback),
    ("information", .arr ((infoVec e.information).map .float))]

def savePoseGraph (createdAt : String) (nodes : List (PoseNode R)) (edges : List (PoseEdge R))
    (bagPath : Option String) : Json R :=
  let seqEdgesJson := (edges.filter fun e => e.span = 1).map edgeJson
  let loopEdgesJson := (edges.filter fun e => ¬ e.span = 1).map edgeJson
  .obj [
    ("metadata", .obj [("created_at", .str createdAt), ("num_nodes", .int nodes.length),
      ("num_sequential_edges", .int seqEdgesJson.length),
      ("num_loop_edges", .int loopEdgesJson.length), ("bag_path", .str (bagPath.getD ""))]),
    ("nodes", .arr (nodes.map nodeJson)),
    ("sequential_edges", .arr seqEdgesJson),
    ("loop_edges", .arr loopEdgesJson),
    ("gnss_priors", .arr [])]

/-! ## Reading -/

variable [Field R] [LinearOrder R]

/-- The scan nearest in time, the first one of several, at most `maxDiff` away. -/
def findNearestScan (scans : List (ScanData R)) (timestamp maxDiff : R) : Option (ScanData R) :=
  let (best, minDt) := scans.foldl
    (fun s scan =>
      let dt := |scan.timestamp - timestamp|
      if dt < s.2 then (some scan, dt) else s)
    ((none : Option (ScanData R)), maxDiff + 1)
  if minDt ≤ maxDiff then best else none

/-- `bag_path`, which may be missing from the file. -/
def resolveBagPath (configuredBagPath : String) (present : String → Bool) (poseGraphData : Json R) :
    Option String := do
  let bagPath ←
    if configuredBagPath = "" ∧ poseGraphData.contains "metadata" = true then
      (poseGraphData.at? "metadata").bind (Json.value "bag_path" Json.getStr "")
    else some configuredBagPath
  if bagPath = "" ∨ present bagPath = false then none else some bagPath

variable [FloorRing R]

def parseNode (allScans : List (ScanData R)) (j : Json R) : Option (PoseNode R) :=
  (j.get "index" Json.getIndex).bind fun idx =>
  (j.get "timestamp" Json.getDouble).bind fun ts =>
  (j.get "x" Json.getDouble).bind fun x =>
  (j.get "y" Json.getDouble).bind fun y =>
  (j.get "yaw" Json.getDouble).bind fun yaw =>
  some ⟨idx, ts, x, y, yaw, findNearestScan allScans ts (1 / 10)⟩

/-- The nine numbers of an information matrix. -/
def parseInformation : Json R → Option (Matrix (Fin 3) (Fin 3) R)
  | .arr items =>
      ((List.range 9).mapM fun i => items[i]?.bind Json.getDouble).map fun info =>
        fun r c => info.getD (r * 3 + c) 0
  | _ => none

def parseEdge (j : Json R) : Option (PoseEdge R) :=
  (j.get "information" parseInformation).bind fun info =>
  (j.get "from" Json.getIndex).bind fun fromIndex =>
  (j.get "to" Json.getIndex).bind fun toIndex =>
  (j.get "dx" Json.getDouble).bind fun dx =>
  (j.get "dy" Json.getDouble).bind fun dy =>
  (j.get "dyaw" Json.getDouble).bind fun dyaw =>
  (j.value "score" Json.getDouble 0).bind fun score =>
  (j.value "is_odom_fallback" Json.getBool false).bind fun isOdomFallback =>
  some ⟨fromIndex, toIndex, dx, dy, dyaw, info, score, isOdomFallback⟩

def loadNodes (allScans : List (ScanData R)) (pgData : Json R) : Option (List (PoseNode R)) :=
  (pgData.items "nodes").bind (·.mapM (parseNode allScans))

/-- The sequential edges and the loop edges, without matching the scans again. -/
def loadEdges (pgData : Json R) : Option (List (PoseEdge R) × List (PoseEdge R)) := do
  let seqEdges ← (← pgData.items "sequential_edges").mapM parseEdge
  let loopEdges ← (← pgData.items "loop_edges").mapM parseEdge
  some (seqEdges, loopEdges)

/-! ## What is written is read -/

variable [IsStrictOrderedRing R]

omit [FloorRing R] in
/-- The loop over the scans finds a nearest one, unless all are too far off. -/
theorem findNearestScan_spec (scans : List (ScanData R)) (timestamp maxDiff : R) :
    (∀ scan, findNearestScan scans timestamp maxDiff = some scan →
      scan ∈ scans ∧ |scan.timestamp - timestamp| ≤ maxDiff ∧
        ∀ other ∈ scans, |scan.timestamp - timestamp| ≤ |other.timestamp - timestamp|) ∧
      (findNearestScan scans timestamp maxDiff = none →
        ∀ scan ∈ scans, maxDiff < |scan.timestamp - timestamp|) := by
  have hloop : ∀ (rest seen : List (ScanData R)) (s : Option (ScanData R) × R),
      (∀ scan ∈ seen, s.2 ≤ |scan.timestamp - timestamp|) →
      (∀ scan, s.1 = some scan → scan ∈ seen ∧ s.2 = |scan.timestamp - timestamp|) →
      (s.1 = none → s.2 = maxDiff + 1) →
      ∃ t, t = rest.foldl (fun s scan =>
          if |scan.timestamp - timestamp| < s.2 then (some scan, |scan.timestamp - timestamp|)
          else s) s ∧
        (∀ scan ∈ seen ++ rest, t.2 ≤ |scan.timestamp - timestamp|) ∧
        (∀ scan, t.1 = some scan →
          scan ∈ seen ++ rest ∧ t.2 = |scan.timestamp - timestamp|) ∧
        (t.1 = none → t.2 = maxDiff + 1) := by
    intro rest
    induction rest with
    | nil =>
        intro seen s hall hsome hnone
        rw [List.append_nil]
        exact ⟨s, rfl, hall, hsome, hnone⟩
    | cons scan rest ih =>
        intro seen s hall hsome hnone
        rw [List.foldl_cons, List.append_cons]
        refine ih (seen ++ [scan]) _ ?_ ?_ ?_
        · intro other hother
          rcases List.mem_append.mp hother with hold | hnew
          · split <;> rename_i hless
            · exact hless.le.trans (hall other hold)
            · exact hall other hold
          · obtain rfl := List.mem_singleton.mp hnew
            split <;> rename_i hless
            · exact le_rfl
            · exact not_lt.mp hless
        · split
          · rintro other heq
            obtain rfl := Option.some.inj heq
            exact ⟨List.mem_append_right _ (List.mem_singleton_self scan), rfl⟩
          · intro other heq
            obtain ⟨hmem, hdt⟩ := hsome other heq
            exact ⟨List.mem_append_left _ hmem, hdt⟩
        · split
          · intro heq
            cases heq
          · exact hnone
  obtain ⟨t, ht, hall, hsome, hnone⟩ := hloop scans [] (none, maxDiff + 1)
    (fun scan h => absurd h List.not_mem_nil) (fun scan h => by cases h) fun _ => rfl
  have hfind : findNearestScan scans timestamp maxDiff = if t.2 ≤ maxDiff then t.1 else none := by
    rw [ht]
    rfl
  rw [List.nil_append] at hall hsome
  rw [hfind]
  split <;> rename_i hnear
  · refine ⟨fun scan heq => ?_, fun heq => ?_⟩
    · obtain ⟨hmem, hdt⟩ := hsome scan heq
      rw [hdt] at hnear hall
      exact ⟨hmem, hnear, hall⟩
    · have hfar := hnone heq
      rw [hfar] at hnear
      exact absurd hnear (not_le.mpr (lt_add_one maxDiff))
  · refine ⟨fun scan heq => ?_, fun _ scan hmem => ?_⟩
    · cases heq
    · exact (not_le.mp hnear).trans_le (hall scan hmem)

omit [IsStrictOrderedRing R] in
theorem parseNode_nodeJson (allScans : List (ScanData R)) (n : PoseNode R) :
    parseNode allScans (nodeJson n) =
      some { n with scan := findNearestScan allScans n.timestamp (1 / 10) } := rfl

omit [LinearOrder R] [FloorRing R] [IsStrictOrderedRing R] in
theorem parseInformation_infoVec (information : Matrix (Fin 3) (Fin 3) R) :
    parseInformation (.arr ((infoVec information).map .float)) = some information := by
  have hrows : parseInformation (.arr ((infoVec information).map .float)) =
      some fun (r c : Fin 3) => (infoVec information).getD ((r : ℕ) * 3 + c) 0 := rfl
  rw [hrows]
  refine congrArg some (funext fun r => funext fun c => ?_)
  fin_cases r <;> fin_cases c <;> rfl

omit [IsStrictOrderedRing R] in
theorem parseEdge_edgeJson (e : PoseEdge R) : parseEdge (edgeJson e) = some e := by
  have hinfo : (edgeJson e).get "information" parseInformation = some e.information :=
    parseInformation_infoVec e.information
  rw [parseEdge, hinfo]
  rfl

omit [IsStrictOrderedRing R] in
/-- Items that are read back one by one are read back as a list. -/
theorem mapM_map_some {α β γ : Type*} {f : α → β} {g : β → Option γ} {h : α → γ}
    (hread : ∀ a, g (f a) = some (h a)) (l : List α) : (l.map f).mapM g = some (l.map h) := by
  induction l with
  | nil => rfl
  | cons a rest ih => simp [hread, ih]

/-- What is saved is read back: the nodes in order, each with a nearest scan within a tenth of a
second if there is one, and all edges with all their data, those between neighbours first and the
order kept among them and among the others. Saved again, it is the same file, whatever scans were
found. -/
theorem pose_graph_round_trip (createdAt : String) (nodes : List (PoseNode R))
    (edges : List (PoseEdge R)) (bagPath : Option String) (allScans : List (ScanData R)) :
    ∃ nodes' seqEdges loopEdges,
      loadNodes allScans (savePoseGraph createdAt nodes edges bagPath) = some nodes' ∧
      loadEdges (savePoseGraph createdAt nodes edges bagPath) = some (seqEdges, loopEdges) ∧
      nodes' = nodes.map (fun n => { n with scan := findNearestScan allScans n.timestamp (1 / 10) }) ∧
      (∀ n ∈ nodes',
        (∀ scan, n.scan = some scan → scan ∈ allScans ∧ |scan.timestamp - n.timestamp| ≤ 1 / 10 ∧
          ∀ other ∈ allScans, |scan.timestamp - n.timestamp| ≤ |other.timestamp - n.timestamp|) ∧
        (n.scan = none → ∀ scan ∈ allScans, 1 / 10 < |scan.timestamp - n.timestamp|)) ∧
      (seqEdges ++ loopEdges).Perm edges ∧ (∀ e ∈ seqEdges, e.span = 1) ∧
      (∀ e ∈ loopEdges, e.span ≠ 1) ∧ seqEdges.Sublist edges ∧ loopEdges.Sublist edges ∧
      savePoseGraph createdAt nodes' (seqEdges ++ loopEdges) bagPath =
        savePoseGraph createdAt nodes edges bagPath := by
  have hseq : ∀ e ∈ edges.filter (fun e => e.span = 1), e.span = 1 := by
    intro e he
    exact of_decide_eq_true (List.mem_filter.mp he).2
  have hloop : ∀ e ∈ edges.filter (fun e => ¬ e.span = 1), ¬ e.span = 1 := by
    intro e he
    exact of_decide_eq_true (List.mem_filter.mp he).2
  refine ⟨nodes.map (fun n => { n with scan := findNearestScan allScans n.timestamp (1 / 10) }),
    edges.filter (fun e => e.span = 1), edges.filter (fun e => ¬ e.span = 1), ?_, ?_, rfl, ?_, ?_,
    hseq, hloop, List.filter_sublist, List.filter_sublist, ?_⟩
  · exact mapM_map_some (parseNode_nodeJson allScans) nodes
  · have hread : ∀ l : List (PoseEdge R), (l.map edgeJson).mapM parseEdge = some l := by
      intro l
      rw [mapM_map_some parseEdge_edgeJson l, List.map_id']
    show (((edges.filter fun e => e.span = 1).map edgeJson).mapM parseEdge).bind _ = _
    rw [hread]
    show (((edges.filter fun e => ¬ e.span = 1).map edgeJson).mapM parseEdge).bind _ = _
    rw [hread]
    rfl
  · intro n hn
    obtain ⟨n, _, rfl⟩ := List.mem_map.mp hn
    exact findNearestScan_spec allScans n.timestamp (1 / 10)
  · simp only [decide_not]
    exact List.filter_append_perm _ edges
  · have hkeep : ∀ p : PoseEdge R → Bool, ∀ l : List (PoseEdge R), (∀ e ∈ l, p e = true) →
        l.filter p = l := fun p l h => List.filter_eq_self.mpr h
    have hdrop : ∀ p : PoseEdge R → Bool, ∀ l : List (PoseEdge R), (∀ e ∈ l, p e = false) →
        l.filter p = [] := by
      intro p l h
      exact List.filter_eq_nil_iff.mpr fun e he => by rw [h e he]; exact Bool.false_ne_true
    simp only [savePoseGraph, List.filter_append]
    rw [hkeep (fun e => decide (e.span = 1)) _ fun e he => decide_eq_true (hseq e he),
      hdrop (fun e => decide (e.span = 1)) _ fun e he => decide_eq_false (hloop e he),
      hdrop (fun e => decide (¬ e.span = 1)) _ fun e he =>
        decide_eq_false (not_not.mpr (hseq e he)),
      hkeep (fun e => decide (¬ e.span = 1)) _ fun e he => decide_eq_true (hloop e he),
      List.append_nil, List.nil_append, List.map_map, List.length_map]
    rfl

end

/-- Three nodes and a loop edge that stands before the sequential ones. -/
def triangle : List (PoseNode ℚ) × List (PoseEdge ℚ) :=
  let node (i : Nat) (x y : ℚ) : PoseNode ℚ := ⟨i, i, x, y, 0, none⟩
  let edge (i j : Nat) (dx dy : ℚ) : PoseEdge ℚ := ⟨i, j, dx, dy, 0, diag3 1 1 1, 0, false⟩
  ([node 0 0 0, node 1 1 0, node 2 1 1], [edge 0 2 1 1, edge 0 1 1 0, edge 1 2 0 1])

theorem pose_graph_round_trip_triangle :
    ∃ nodes seqEdges loopEdges,
      loadNodes [⟨1 / 20⟩, ⟨1 / 5⟩] (savePoseGraph "now" triangle.1 triangle.2 none) = some nodes ∧
      loadEdges (savePoseGraph "now" triangle.1 triangle.2 none) = some (seqEdges, loopEdges) ∧
      nodes.map PoseNode.scan = [some ⟨1 / 20⟩, none, none] ∧
      (seqEdges ++ loopEdges).Perm triangle.2 ∧
      savePoseGraph "now" nodes (seqEdges ++ loopEdges) none =
        savePoseGraph "now" triangle.1 triangle.2 none := by
  obtain ⟨nodes, seqEdges, loopEdges, hnodes, hedges, rfl, _, hperm, _, _, _, _, hsame⟩ :=
    pose_graph_round_trip "now" triangle.1 triangle.2 none [⟨1 / 20⟩, ⟨1 / 5⟩]
  refine ⟨_, seqEdges, loopEdges, hnodes, hedges, ?_, hperm, hsame⟩
  decide +kernel

end MgRobot.Slam

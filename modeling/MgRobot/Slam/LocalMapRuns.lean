import Mathlib.Data.List.DropRight
import Mathlib.Data.List.Induction
import MgRobot.Slam.LocalMap

/-!
# The reference cloud from scratch

What the provider answers after any updates and syncs, from the history alone: the
last keyframes at the poses that are known of them, seen from the latest node.
-/

namespace MgRobot.Slam

set_option autoImplicit false

open MgRobot.Lib.Plane

/-- A call of the builder on its reference provider. -/
inductive ProviderEvent (R : Type*) where
  | update (node : ScanNode R)
  | syncPoses (nodes : List (ScanNode R))

namespace ProviderEvent

variable {R : Type*}

section History

/-- The pose that a list of nodes gives to an index. -/
def poseIn (nodes : List (ScanNode R)) (i : Int) (p : Pose R) : Pose R :=
  ((nodes.find? fun n => n.index = i).map ScanNode.pose).getD p

/-- What the later events say of the pose of a node that was added at `p`. -/
def latestPose (i : Int) (p : Pose R) (later : List (ProviderEvent R)) : Pose R :=
  later.foldl (fun p e => match e with
    | .update _ => p
    | .syncPoses nodes => poseIn nodes i p) p

/-- The nodes with a scan that a history adds, at the latest poses that are known of them. -/
def keyframes : List (ProviderEvent R) → List (ScanNode R)
  | [] => []
  | .update n :: later =>
      if n.scan.isSome then n.withPose (latestPose n.index n.pose later) :: keyframes later
      else keyframes later
  | .syncPoses _ :: later => keyframes later

/-- The node that a history adds last, at the latest pose that is known of it. -/
def latestNode : List (ProviderEvent R) → Option (ScanNode R)
  | [] => none
  | .update n :: later =>
      (latestNode later).or (some (n.withPose (latestPose n.index n.pose later)))
  | .syncPoses _ :: later => latestNode later

/-- The node, moved to the pose that the list gives to it. -/
def movedBy (nodes : List (ScanNode R)) (n : ScanNode R) : ScanNode R :=
  n.withPose (poseIn nodes n.index n.pose)

variable {es : List (ProviderEvent R)} {n : ScanNode R} {nodes : List (ScanNode R)}

theorem keyframes_snoc_update : keyframes (es ++ [.update n]) =
    keyframes es ++ if n.scan.isSome then [n] else [] := by
  induction es with
  | nil =>
      simp only [List.nil_append, keyframes]
      split_ifs <;> rfl
  | cons e rest ih =>
      cases e with
      | update n' =>
          rw [List.cons_append, keyframes, keyframes, latestPose, List.foldl_append, ih]
          split_ifs <;> rfl
      | syncPoses nodes => exact ih

theorem keyframes_snoc_sync : keyframes (es ++ [.syncPoses nodes]) =
    (keyframes es).map (movedBy nodes) := by
  induction es with
  | nil => rfl
  | cons e rest ih =>
      cases e with
      | update n' =>
          rw [List.cons_append, keyframes, keyframes, latestPose, List.foldl_append, ih]
          split_ifs <;> rfl
      | syncPoses nodes' => exact ih

theorem latestNode_snoc_update : latestNode (es ++ [.update n]) = some n := by
  induction es with
  | nil => rfl
  | cons e rest ih =>
      cases e with
      | update n' =>
          rw [List.cons_append, latestNode, ih]
          rfl
      | syncPoses nodes => exact ih

theorem latestNode_snoc_sync : latestNode (es ++ [.syncPoses nodes]) =
    (latestNode es).map (movedBy nodes) := by
  induction es with
  | nil => rfl
  | cons e rest ih =>
      cases e with
      | update n' =>
          rw [List.cons_append, latestNode, latestNode, latestPose, List.foldl_append, ih]
          cases latestNode rest <;> rfl
      | syncPoses nodes' => exact ih

end History

section Window

variable [Field R] [LinearOrder R] (m : Numerics R)

/-- Stored normals are one for every valid point, and a list of nodes is in index order. -/
def Valid : ProviderEvent R → Prop
  | .update n => ∀ scan, n.scan = some scan → ∀ ns, n.normals = some ns →
      ns.length = (scanToPoints m scan).length
  | .syncPoses nodes => (nodes.map ScanNode.index).Pairwise (· < ·)

/-- The call itself. -/
def apply (p : LocalMapProvider R) : ProviderEvent R → LocalMapProvider R
  | .update n => p.update m n
  | .syncPoses nodes => p.syncPoses nodes

end Window

end ProviderEvent

namespace LocalMapProvider

open ProviderEvent

section Sync

variable {R : Type*} {nodes : List (ScanNode R)}

/-- Increasing integers are at least as far apart as their places. -/
theorem add_le_of_increasing {l : List Int} (h : l.Pairwise (· < ·)) {k d : Nat} {a b : Int}
    (ha : l[k]? = some a) (hb : l[k + d]? = some b) : a + d ≤ b := by
  induction d generalizing b with
  | zero =>
      obtain rfl := Option.some.inj (ha.symm.trans hb)
      simp
  | succ d ih =>
      obtain ⟨hlt, hget⟩ := List.getElem?_eq_some_iff.mp hb
      have hprev := ih (List.getElem?_eq_getElem (show k + d < l.length by omega))
      have hstep := List.pairwise_iff_getElem.mp h (k + d) (k + d + 1) (by omega) hlt (by omega)
      rw [← hget]
      push_cast
      have hget' : l[k + (d + 1)] = l[k + d + 1] := rfl
      omega

/-- A list that passes the test for a sequential one has the index `k` at place `k`. -/
theorem index_of_isSequential (h : (nodes.map ScanNode.index).Pairwise (· < ·))
    (hs : isSequential nodes = true) {k : Nat} {n : ScanNode R} (hk : nodes[k]? = some n) :
    n.index = k := by
  rw [isSequential, Bool.and_eq_true, Option.any_eq_true, Option.any_eq_true] at hs
  obtain ⟨⟨first, hfirst, hfirst0⟩, last, hlast, hlastn⟩ := hs
  rw [decide_eq_true_iff] at hfirst0 hlastn
  rw [List.head?_eq_getElem?] at hfirst
  rw [List.getLast?_eq_getElem?] at hlast
  have hlt := (List.getElem?_eq_some_iff.mp hk).1
  have hget {j : Nat} {x : ScanNode R} (hj : nodes[j]? = some x) :
      (nodes.map ScanNode.index)[j]? = some x.index := by
    rw [List.getElem?_map, hj]
    rfl
  have hlow : first.index + k ≤ n.index :=
    add_le_of_increasing h (hget hfirst) (by rw [Nat.zero_add]; exact hget hk)
  have hhigh : n.index + (nodes.length - 1 - k : Nat) ≤ last.index :=
    add_le_of_increasing h (hget hk)
      (by rw [show k + (nodes.length - 1 - k) = nodes.length - 1 by omega]; exact hget hlast)
  omega

theorem find?_index_eq_some (h : (nodes.map ScanNode.index).Pairwise (· < ·)) {n : ScanNode R}
    (hn : n ∈ nodes) : (nodes.find? fun x => x.index = n.index) = some n := by
  induction nodes with
  | nil => cases hn
  | cons x rest ih =>
      rw [List.map_cons, List.pairwise_cons] at h
      rcases List.mem_cons.mp hn with rfl | hn
      · simp
      · have hlt : x.index < n.index := h.1 _ (List.mem_map_of_mem hn)
        rw [List.find?_cons_of_neg (by simpa using hlt.ne), ih h.2 hn]

/-- Both ways of looking up an index find the node that has it. -/
theorem nodeMapped_eq (h : (nodes.map ScanNode.index).Pairwise (· < ·)) (i : Int) :
    nodeMapped nodes i = nodes.find? fun n => n.index = i := by
  unfold nodeMapped
  cases hf : nodes.reverse.find? fun n => n.index = i with
  | none =>
      refine (List.find?_eq_none.mpr fun n hn => ?_).symm
      exact List.find?_eq_none.mp hf n (List.mem_reverse.mpr hn)
  | some n =>
      have hi : n.index = i := by simpa using List.find?_some hf
      rw [← hi]
      exact (find?_index_eq_some h (List.mem_reverse.mp (List.mem_of_find?_eq_some hf))).symm

theorem nodeAt_eq (h : (nodes.map ScanNode.index).Pairwise (· < ·))
    (hs : isSequential nodes = true) (i : Int) :
    nodeAt nodes i = nodes.find? fun n => n.index = i := by
  unfold nodeAt
  cases hf : nodes.find? fun n => n.index = i with
  | none =>
      split_ifs with hi
      · rw [Option.eq_none_iff_forall_ne_some]
        intro n hn
        have hidx := index_of_isSequential h hs hn
        have hne := List.find?_eq_none.mp hf n (List.mem_of_getElem? hn)
        rw [decide_eq_true_iff] at hne
        omega
      · rfl
  | some n =>
      have hi : n.index = i := by simpa using List.find?_some hf
      obtain ⟨k, hk⟩ := List.mem_iff_getElem?.mp (List.mem_of_find?_eq_some hf)
      have hidx := index_of_isSequential h hs hk
      have hki : i.toNat = k := by omega
      rw [if_pos (by omega), hki, hk]

/-- What a sync does to a cached keyframe and to the last node, on either path. -/
theorem takePoses_find? (kf : CachedKeyframe R) :
    takePoses (fun i => nodes.find? fun n => n.index = i) kf =
      { kf with node := movedBy nodes kf.node } := by
  unfold takePoses movedBy poseIn
  dsimp only
  cases nodes.find? fun n => n.index = kf.node.index <;> rfl

variable (nodes) in
theorem takeLast_find? (last : ScanNode R) :
    (takeLast (fun i => nodes.find? fun n => n.index = i) last).index = last.index ∧
      (takeLast (fun i => nodes.find? fun n => n.index = i) last).pose =
        (movedBy nodes last).pose := by
  unfold takeLast movedBy poseIn
  dsimp only
  cases hf : nodes.find? fun n => n.index = last.index with
  | none => exact ⟨rfl, rfl⟩
  | some n => exact ⟨by simpa using List.find?_some hf, rfl⟩

theorem syncPoses_eq {p : LocalMapProvider R} (h : (nodes.map ScanNode.index).Pairwise (· < ·)) :
    (p.syncPoses nodes).window = p.window ∧ (p.syncPoses nodes).radius = p.radius ∧
      (p.syncPoses nodes).nodes =
        p.nodes.map (fun kf => { kf with node := movedBy nodes kf.node }) ∧
      (p.nodes ≠ [] → (p.syncPoses nodes).lastNode.map (fun n => (n.index, n.pose)) =
        p.lastNode.map fun n => (n.index, (movedBy nodes n).pose)) := by
  have hpath {find : Int → Option (ScanNode R)}
      (hfind : find = fun i => nodes.find? fun n => n.index = i) :
      p.nodes.map (takePoses find) =
        p.nodes.map (fun kf => { kf with node := movedBy nodes kf.node }) ∧
      (p.lastNode.map (takeLast find)).map (fun n => (n.index, n.pose)) =
        p.lastNode.map fun n => (n.index, (movedBy nodes n).pose) := by
    subst hfind
    refine ⟨List.map_congr_left fun kf _ => takePoses_find? kf, ?_⟩
    cases p.lastNode with
    | none => rfl
    | some last =>
        obtain ⟨hindex, hpose⟩ := takeLast_find? nodes last
        simp only [Option.map_some, hindex, hpose]
  unfold syncPoses
  split_ifs with hempty hseq
  · refine ⟨rfl, rfl, ?_, fun hne => ?_⟩
    · rcases Bool.or_eq_true_iff.mp hempty with hn | hn
      · rw [List.isEmpty_iff.mp hn]
        exact (List.map_id _).symm
      · rw [List.isEmpty_iff.mp hn]
        rfl
    · rcases Bool.or_eq_true_iff.mp hempty with hn | hn
      · rw [List.isEmpty_iff.mp hn]
        rfl
      · exact absurd (List.isEmpty_iff.mp hn) hne
  · obtain ⟨hnodes, hlast⟩ := hpath (funext fun i => nodeAt_eq h hseq i)
    exact ⟨rfl, rfl, hnodes, fun _ => hlast⟩
  · obtain ⟨hnodes, hlast⟩ := hpath (funext fun i => nodeMapped_eq h i)
    exact ⟨rfl, rfl, hnodes, fun _ => hlast⟩

end Sync

section Run

variable {R : Type*} [Field R] [LinearOrder R] (m : Numerics R)

/-- The keyframe that is cached of a node with a scan. -/
def asKeyframe (n : ScanNode R) : Option (CachedKeyframe R) := n.scan.map (keyframe m n)

def run (window : Int) (radius : R) (es : List (ProviderEvent R)) : LocalMapProvider R :=
  es.foldl (ProviderEvent.apply m) (new window radius)

/-- What a history leaves in the provider. -/
structure Caches (window : Int) (radius : R) (es : List (ProviderEvent R))
    (p : LocalMapProvider R) : Prop where
  window_eq : p.window = window
  radius_eq : p.radius = radius
  nodes : p.nodes = ((keyframes es).rtake window.toNat).filterMap (asKeyframe m)
  last : p.nodes ≠ [] → p.lastNode.map (fun n => (n.index, n.pose)) =
    (latestNode es).map fun n => (n.index, n.pose)

variable {m} {window : Int} {radius : R} {es : List (ProviderEvent R)} {p : LocalMapProvider R}

omit [Field R] [LinearOrder R] in
theorem scan_of_mem_keyframes {n : ScanNode R} (h : n ∈ keyframes es) : n.scan.isSome = true := by
  induction es with
  | nil => cases h
  | cons e rest ih =>
      cases e with
      | update n' =>
          rw [keyframes] at h
          split_ifs at h with hs
          · rcases List.mem_cons.mp h with rfl | h
            · exact hs
            · exact ih h
          · exact ih h
      | syncPoses nodes => exact ih h

/-- The cache has as many keyframes as there are, up to the window. -/
theorem length_filterMap_asKeyframe {l : List (ScanNode R)} (h : ∀ n ∈ l, n.scan.isSome = true) :
    (l.filterMap (asKeyframe m)).length = l.length := by
  induction l with
  | nil => rfl
  | cons n rest ih =>
      obtain ⟨scan, hscan⟩ := Option.isSome_iff_exists.mp (h n List.mem_cons_self)
      rw [List.filterMap_cons_some (b := keyframe m n scan) (by rw [asKeyframe, hscan]; rfl),
        List.length_cons, List.length_cons, ih fun x hx => h x (List.mem_cons_of_mem n hx)]

theorem rtake_concat {α : Type*} {l : List α} {k : Nat} (hk : 0 < k) (x : α) :
    (l ++ [x]).rtake k = (if k ≤ (l.rtake k).length then (l.rtake k).tail else l.rtake k) ++ [x] := by
  obtain ⟨k, rfl⟩ := Nat.exists_eq_succ_of_ne_zero hk.ne'
  rw [Nat.succ_eq_add_one, List.rtake_concat_succ]
  congr 1
  unfold List.rtake
  rw [List.length_drop, List.tail_drop]
  split_ifs
  · congr 1
    omega
  · congr 1
    omega

theorem rtake_map {α β : Type*} (f : α → β) (l : List α) (k : Nat) :
    (l.map f).rtake k = (l.rtake k).map f := by
  unfold List.rtake
  rw [List.length_map, List.map_drop]

theorem asKeyframe_movedBy {nodes : List (ScanNode R)} (n : ScanNode R) :
    asKeyframe m (movedBy nodes n) =
      (asKeyframe m n).map fun kf => { kf with node := movedBy nodes kf.node } := by
  have hscan : (movedBy nodes n).scan = n.scan := rfl
  unfold asKeyframe
  rw [hscan]
  cases n.scan <;> rfl

theorem caches_new : Caches m window radius [] (new window radius) where
  window_eq := rfl
  radius_eq := rfl
  nodes := by simp [new, keyframes]
  last h := absurd rfl h

theorem Caches.snoc (hw : 1 ≤ window) (h : Caches m window radius es p) {e : ProviderEvent R}
    (hv : e.Valid m) : Caches m window radius (es ++ [e]) (e.apply m p) := by
  cases e with
  | update n =>
      show Caches m window radius (es ++ [.update n]) (p.update m n)
      unfold update
      cases hscan : n.scan with
      | none =>
          refine ⟨h.window_eq, h.radius_eq, ?_, fun _ => ?_⟩
          · rw [keyframes_snoc_update, hscan]
            simpa using h.nodes
          · rw [latestNode_snoc_update]
      | some scan =>
          refine ⟨h.window_eq, h.radius_eq, ?_, fun _ => ?_⟩
          · have hmem : ∀ x ∈ (keyframes es).rtake window.toNat, x.scan.isSome = true :=
              fun x hx => scan_of_mem_keyframes (List.mem_of_mem_drop hx)
            have hlen : p.nodes.length = ((keyframes es).rtake window.toNat).length := by
              rw [h.nodes, length_filterMap_asKeyframe hmem]
            have hnew : [n].filterMap (asKeyframe m) = [keyframe m n scan] := by
              rw [List.filterMap_cons_some (b := keyframe m n scan) (by rw [asKeyframe, hscan]; rfl)]
              rfl
            have htail {l : List (ScanNode R)} (hl : ∀ x ∈ l, x.scan.isSome = true) :
                l.tail.filterMap (asKeyframe m) = (l.filterMap (asKeyframe m)).tail := by
              cases l with
              | nil => rfl
              | cons x rest =>
                  obtain ⟨sc, hsc⟩ := Option.isSome_iff_exists.mp (hl x List.mem_cons_self)
                  rw [List.filterMap_cons_some (b := keyframe m x sc)
                    (by rw [asKeyframe, hsc]; rfl)]
                  rfl
            have hcond : p.window ≤ p.nodes.length ↔
                window.toNat ≤ ((keyframes es).rtake window.toNat).length := by
              rw [h.window_eq, hlen]
              omega
            show (if p.window ≤ p.nodes.length then p.nodes.tail else p.nodes) ++
              [keyframe m n scan] = _
            rw [keyframes_snoc_update, hscan, Option.isSome_some, if_pos rfl,
              rtake_concat (by omega), List.filterMap_append, hnew,
              apply_ite (List.filterMap (asKeyframe m)), htail hmem, ← h.nodes]
            congr 1
            exact if_congr hcond rfl rfl
          · rw [latestNode_snoc_update]
  | syncPoses nodes =>
      show Caches m window radius (es ++ [.syncPoses nodes]) (p.syncPoses nodes)
      obtain ⟨hwin, hrad, hnodes, hlast⟩ := syncPoses_eq (p := p) hv
      refine ⟨hwin.trans h.window_eq, hrad.trans h.radius_eq, ?_, fun hne => ?_⟩
      · have hcomp : asKeyframe m ∘ movedBy nodes = fun n => (asKeyframe m n).map
            fun kf => { kf with node := movedBy nodes kf.node } := funext asKeyframe_movedBy
        rw [hnodes, h.nodes, keyframes_snoc_sync, rtake_map, List.filterMap_map, hcomp,
          List.map_filterMap]
      · have hp : p.nodes ≠ [] := by
          rw [hnodes] at hne
          exact fun hnil => hne (by rw [hnil]; rfl)
        rw [hlast hp, latestNode_snoc_sync, Option.map_map]
        have hboth := h.last hp
        cases hln : p.lastNode <;> cases hle : latestNode es <;> rw [hln, hle] at hboth
        · rfl
        · cases hboth
        · cases hboth
        · obtain ⟨hi, hpose⟩ := Prod.mk.inj (Option.some.inj hboth)
          simp only [Option.map_some, Function.comp, movedBy, hi, hpose]
          rfl

theorem caches_run (hw : 1 ≤ window) (hv : ∀ e ∈ es, e.Valid m) :
    Caches m window radius es (run m window radius es) := by
  induction es using List.reverseRecOn with
  | nil => exact caches_new
  | append_singleton es e ih =>
      rw [run, List.foldl_append]
      refine (ih fun x hx => hv x (List.mem_append_left _ hx)).snoc hw (hv e ?_)
      exact List.mem_append_right _ List.mem_cons_self

end Run

end LocalMapProvider

end MgRobot.Slam

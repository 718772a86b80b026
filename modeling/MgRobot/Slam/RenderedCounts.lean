import Mathlib.Algebra.BigOperators.Pi
import Mathlib.Algebra.Order.BigOperators.Group.List
import Mathlib.Data.Rat.Floor
import MgRobot.Lib.ParallelFor
import MgRobot.Slam.CountingRenderer

/-!
# The counts of a map

Every node adds its own counts to the maps, inside the map, whatever they hold. A redraw
by threads and one node after another give the same counts.
-/

namespace MgRobot.Slam

set_option autoImplicit false

open MgRobot.Lib.FirstBest MgRobot.Lib.ParallelFor

namespace Counts

variable (c : Counts) (ws : List (Pixel × Int)) (p : Pixel)

/-- Writing adds what is written. -/
theorem apply_eq_add : c.apply ws = c + Counts.apply 0 ws := by
  induction ws generalizing c with
  | nil => exact (add_zero c).symm
  | cons w rest ih =>
      have hone : Function.update c w.1 (c w.1 + w.2) =
          c + Function.update (0 : Counts) w.1 ((0 : Counts) w.1 + w.2) := by
        funext p
        by_cases hp : p = w.1
        · subst hp
          simp
        · simp [Function.update_of_ne hp]
      show apply (Function.update c w.1 (c w.1 + w.2)) rest =
        c + apply (Function.update 0 w.1 ((0 : Counts) w.1 + w.2)) rest
      rw [ih, hone, ih (Function.update 0 w.1 ((0 : Counts) w.1 + w.2)), add_assoc]

/-- What is not written to stays. -/
theorem apply_of_forall_ne (h : ∀ w ∈ ws, w.1 ≠ p) : c.apply ws p = c p := by
  induction ws generalizing c with
  | nil => rfl
  | cons w rest ih =>
      have hw := h w List.mem_cons_self
      show apply (Function.update c w.1 (c w.1 + w.2)) rest p = c p
      rw [ih _ fun v hv => h v (List.mem_cons_of_mem w hv), Function.update_of_ne hw.symm]

end Counts

variable {R : Type*} [Field R] [LinearOrder R] [FloorRing R]
variable (cfg : CountingConfig R) (m : Numerics R) (draw : Drawing) (f : MapFrame R)

section Writes

variable {f}

omit [Field R] [LinearOrder R] [FloorRing R] in
/-- The box around pixels of the map lies in the map. -/
theorem PixelBox.around_inBounds {s : ScanHitsPixels} (hr : f.inBounds s.robot)
    (hh : ∀ p ∈ s.hits, f.inBounds p) :
    0 ≤ (around s).minPx ∧ (around s).maxPx < f.width ∧
      0 ≤ (around s).minPy ∧ (around s).maxPy < f.height := by
  refine ⟨?_, ?_, ?_, ?_⟩
  · refine foldl_select (P := fun x => 0 ≤ x) min_choice hr.1 ?_
    exact List.forall_mem_map.mpr fun p hp => (hh p hp).1
  · refine foldl_select (P := fun x => x < f.width) max_choice hr.2.1 ?_
    exact List.forall_mem_map.mpr fun p hp => (hh p hp).2.1
  · refine foldl_select (P := fun x => 0 ≤ x) min_choice hr.2.2.1 ?_
    exact List.forall_mem_map.mpr fun p hp => (hh p hp).2.2.1
  · refine foldl_select (P := fun x => x < f.height) max_choice hr.2.2.2 ?_
    exact List.forall_mem_map.mpr fun p hp => (hh p hp).2.2.2

theorem mem_scanHitsToPixels_hits {node : MapNode R} {p : Pixel}
    (hp : p ∈ (scanHitsToPixels m f node).hits) : f.inBounds p := by
  unfold scanHitsToPixels at hp
  split at hp
  · exact absurd hp List.not_mem_nil
  · exact of_decide_eq_true (List.mem_filter.mp hp).2

theorem mem_missPixels {s : ScanHitsPixels} {p : Pixel} (hr : f.inBounds s.robot)
    (hh : ∀ p ∈ s.hits, f.inBounds p) (hp : p ∈ missPixels cfg m draw s) : f.inBounds p := by
  simp only [missPixels, List.mem_flatMap, List.mem_filterMap, List.mem_range] at hp
  obtain ⟨row, hrow, col, hcol, hp⟩ := hp
  split at hp
  · obtain rfl := Option.some.inj hp
    obtain ⟨hx, hw, hy, hh⟩ := PixelBox.around_inBounds hr hh
    unfold PixelBox.rows at hrow
    unfold PixelBox.cols at hcol
    refine ⟨?_, ?_, ?_, ?_⟩ <;> dsimp only <;> omega
  · cases hp

theorem mem_patchCells {node : MapNode R} {patch : SubmapPatch R} {c : Pixel × Int × Int}
    (hc : c ∈ patchCells m f node patch) : f.inBounds c.1 := by
  simp only [patchCells, List.mem_flatMap, List.mem_filterMap, List.mem_range] at hc
  obtain ⟨row, _, col, _, hc⟩ := hc
  split at hc
  · cases hc
  · split at hc
    · obtain rfl := Option.some.inj hc
      assumption
    · cases hc

/-- Every write is a positive count inside the map. -/
theorem mem_nodeWrites {node : MapNode R} {w : Pixel × Int}
    (hw : w ∈ (nodeWrites cfg m draw f node).hits ++ (nodeWrites cfg m draw f node).misses) :
    f.inBounds w.1 ∧ 0 < w.2 := by
  unfold nodeWrites at hw
  split at hw
  · rename_i patch _ _
    simp only [List.mem_append, List.mem_filterMap] at hw
    rcases hw with ⟨c, hc, hw⟩ | ⟨c, hc, hw⟩
    · split at hw
      · obtain rfl := Option.some.inj hw
        exact ⟨mem_patchCells m hc, by assumption⟩
      · cases hw
    · split at hw
      · obtain rfl := Option.some.inj hw
        exact ⟨mem_patchCells m hc, by assumption⟩
      · cases hw
  · exact absurd hw List.not_mem_nil
  · dsimp only at hw
    split at hw
    · exact absurd hw List.not_mem_nil
    · rename_i hr
      split at hw
      · exact absurd hw List.not_mem_nil
      · have hh : ∀ p ∈ (scanHitsToPixels m f node).hits, f.inBounds p :=
          fun p hp => mem_scanHitsToPixels_hits m hp
        rcases List.mem_append.mp hw with hw | hw
        · obtain ⟨p, hp, rfl⟩ := List.mem_map.mp hw
          exact ⟨hh p hp, Int.one_pos⟩
        · obtain ⟨p, hp, rfl⟩ := List.mem_map.mp hw
          exact ⟨mem_missPixels cfg m draw (not_not.mp hr) hh hp, Int.one_pos⟩

end Writes

/-- The hits and the misses that a node adds to the maps. -/
def hitCounts (node : MapNode R) : Counts := Counts.apply 0 (nodeWrites cfg m draw f node).hits

def missCounts (node : MapNode R) : Counts := Counts.apply 0 (nodeWrites cfg m draw f node).misses

variable {f} in
theorem hitCounts_outside {node : MapNode R} {p : Pixel} (hp : ¬ f.inBounds p) :
    hitCounts cfg m draw f node p = 0 ∧ missCounts cfg m draw f node p = 0 := by
  have hne : ∀ w ∈ (nodeWrites cfg m draw f node).hits ++ (nodeWrites cfg m draw f node).misses,
      w.1 ≠ p := by
    rintro w hw rfl
    exact hp (mem_nodeWrites cfg m draw hw).1
  exact ⟨Counts.apply_of_forall_ne 0 _ p fun w hw => hne w (List.mem_append_left _ hw),
    Counts.apply_of_forall_ne 0 _ p fun w hw => hne w (List.mem_append_right _ hw)⟩

/-- Drawing a node adds its counts. -/
theorem drawNode_eq_add (d : Drawn) (node : MapNode R) :
    (drawNode cfg m draw f d node).hit = d.hit + hitCounts cfg m draw f node ∧
      (drawNode cfg m draw f d node).miss = d.miss + missCounts cfg m draw f node := by
  unfold drawNode hitCounts missCounts
  by_cases hd : node.drawable = true
  · rw [if_pos hd]
    exact ⟨Counts.apply_eq_add _ _, Counts.apply_eq_add _ _⟩
  · have hw : nodeWrites cfg m draw f node = ⟨[], [], true⟩ := by
      unfold MapNode.drawable at hd
      unfold nodeWrites
      cases hp : node.submapPatch with
      | some patch =>
          rw [hp] at hd
          simp at hd
      | none =>
          cases hs : node.scan with
          | some scan =>
              rw [hs] at hd
              simp at hd
          | none => rfl
    rw [if_neg hd, hw]
    exact ⟨(add_zero _).symm, (add_zero _).symm⟩

theorem foldl_drawNode (d : Drawn) (nodes : List (MapNode R)) :
    (nodes.foldl (drawNode cfg m draw f) d).hit =
        d.hit + (nodes.map (hitCounts cfg m draw f)).sum ∧
      (nodes.foldl (drawNode cfg m draw f) d).miss =
        d.miss + (nodes.map (missCounts cfg m draw f)).sum := by
  induction nodes generalizing d with
  | nil => exact ⟨(add_zero _).symm, (add_zero _).symm⟩
  | cons node rest ih =>
      obtain ⟨hh, hm⟩ := ih (drawNode cfg m draw f d node)
      obtain ⟨hh', hm'⟩ := drawNode_eq_add cfg m draw f d node
      rw [List.foldl_cons, hh, hm, hh', hm', List.map_cons, List.map_cons, List.sum_cons,
        List.sum_cons, add_assoc, add_assoc]
      exact ⟨rfl, rfl⟩

omit [Field R] [LinearOrder R] [FloorRing R] in
/-- Merging the parts of the threads gives what all nodes add, as no node adds anything outside. -/
theorem mergeOrder_sum {f : MapFrame R} {n : Nat} {nodes : List (MapNode R)}
    (workers : Workers n nodes) {g : MapNode R → Counts} {part : Fin n → Counts}
    (hpart : ∀ t, part t = ((own workers.steps t).map g).sum)
    (hout : ∀ node ∈ nodes, ∀ q, ¬ f.inBounds q → g node q = 0) :
    (fun q => if f.inBounds q then (workers.mergeOrder.map fun t => part t q).sum else 0) =
      (nodes.map g).sum := by
  funext q
  rw [Pi.list_sum_apply, List.map_map]
  by_cases hq : f.inBounds q
  · rw [if_pos hq, ← List.map_map, ← Pi.list_sum_apply,
      ← workers.toSchedule.sum_own g workers.merged, Pi.list_sum_apply, List.map_map]
    simp only [hpart]
    rfl
  · rw [if_neg hq]
    refine (List.sum_eq_zero ?_).symm
    intro x hx
    obtain ⟨node, hnode, rfl⟩ := List.mem_map.mp hx
    exact hout node hnode q hq

/-- The maps of a redraw hold the counts of all nodes, however the threads share them. -/
theorem rerenderAll_counts (r : CountingRenderer R) {nodes : List (MapNode R)} (hne : nodes ≠ [])
    (maxThreads : Nat) (workers : Workers (min 4 maxThreads) nodes) :
    (r.rerenderAll cfg m draw nodes maxThreads workers).frame =
        computeBounds nodes cfg.resolution cfg.expansionMargin ∧
      (r.rerenderAll cfg m draw nodes maxThreads workers).hitMap = (nodes.map
        (hitCounts cfg m draw (computeBounds nodes cfg.resolution cfg.expansionMargin))).sum ∧
      (r.rerenderAll cfg m draw nodes maxThreads workers).missMap = (nodes.map
        (missCounts cfg m draw (computeBounds nodes cfg.resolution cfg.expansionMargin))).sum := by
  unfold CountingRenderer.rerenderAll
  rw [if_neg (by simpa using hne)]
  refine ⟨rfl, ?_⟩
  generalize computeBounds nodes cfg.resolution cfg.expansionMargin = f
  dsimp only
  by_cases hseq : min 4 maxThreads ≤ 1 ∨ nodes.length ≤ 4
  · rw [if_pos hseq]
    obtain ⟨hh, hm⟩ := foldl_drawNode cfg m draw f .empty nodes
    exact ⟨hh.trans (zero_add _), hm.trans (zero_add _)⟩
  · rw [if_neg hseq]
    have hparts : ∀ t : Fin (min 4 maxThreads),
        (run (drawNode cfg m draw f) (fun _ => .empty) workers.steps t).hit =
            ((own workers.steps t).map (hitCounts cfg m draw f)).sum ∧
          (run (drawNode cfg m draw f) (fun _ => .empty) workers.steps t).miss =
            ((own workers.steps t).map (missCounts cfg m draw f)).sum := by
      intro t
      rw [run_eq_foldl]
      obtain ⟨hh, hm⟩ := foldl_drawNode cfg m draw f .empty (own workers.steps t)
      exact ⟨hh.trans (zero_add _), hm.trans (zero_add _)⟩
    exact ⟨mergeOrder_sum workers (fun t => (hparts t).1)
        fun n _ q hq => (hitCounts_outside cfg m draw hq).1,
      mergeOrder_sum workers (fun t => (hparts t).2)
        fun n _ q hq => (hitCounts_outside cfg m draw hq).2⟩

/-- A node that is taken adds its counts. -/
theorem addNode_counts (r : CountingRenderer R) {node : MapNode R}
    (h : (r.addNode cfg m draw node).2 = true) :
    (r.addNode cfg m draw node).1.hitMap = (drawNode cfg m draw r.frame
        ⟨r.hitMap, r.missMap, r.renderCount⟩ node).hit ∧
      (r.addNode cfg m draw node).1.missMap = (drawNode cfg m draw r.frame
        ⟨r.hitMap, r.missMap, r.renderCount⟩ node).miss := by
  unfold CountingRenderer.addNode at h ⊢
  unfold drawNode
  by_cases hd : node.drawable = true
  · rw [if_neg (by simp [hd])] at h ⊢
    rw [if_pos hd]
    split at h
    · cases h
    · rename_i hinit
      rw [if_neg hinit]
      split at h
      · cases h
      · rename_i hin
        rw [if_neg hin]
        exact ⟨rfl, rfl⟩
  · rw [if_pos (by simpa using hd), if_neg hd]
    exact ⟨rfl, rfl⟩

/-- A redraw of some nodes gives the counts of all of them in the bounds of all of them,
whatever thread draws which, and a node that is then taken gives the counts of one redraw
after another in these bounds. Counts are only written inside the map. -/
theorem redraw_then_add (r : CountingRenderer R) {nodes : List (MapNode R)} (hne : nodes ≠ [])
    (maxThreads : Nat) (workers : Workers (min 4 maxThreads) nodes) :
    let f := computeBounds nodes cfg.resolution cfg.expansionMargin
    let drawn := r.rerenderAll cfg m draw nodes maxThreads workers
    drawn.frame = f ∧ drawn.hitMap = (nodes.map (hitCounts cfg m draw f)).sum ∧
      drawn.missMap = (nodes.map (missCounts cfg m draw f)).sum ∧
      (∀ n, (drawn.addNode cfg m draw n).2 = true →
        (drawn.addNode cfg m draw n).1.hitMap =
            (drawSequential cfg m draw f (nodes ++ [n])).hit ∧
          (drawn.addNode cfg m draw n).1.missMap =
            (drawSequential cfg m draw f (nodes ++ [n])).miss) ∧
      ∀ n, ∀ w ∈ (nodeWrites cfg m draw f n).hits ++ (nodeWrites cfg m draw f n).misses,
        f.inBounds w.1 ∧ 0 < w.2 := by
  intro f drawn
  obtain ⟨hframe, hhit, hmiss⟩ := rerenderAll_counts cfg m draw r hne maxThreads workers
  refine ⟨hframe, hhit, hmiss, ?_, fun n w hw => mem_nodeWrites cfg m draw hw⟩
  intro n hn
  obtain ⟨hh, hm⟩ := addNode_counts cfg m draw drawn hn
  obtain ⟨hh', hm'⟩ := drawNode_eq_add cfg m draw drawn.frame
    ⟨drawn.hitMap, drawn.missMap, drawn.renderCount⟩ n
  obtain ⟨hs, hs'⟩ := foldl_drawNode cfg m draw f .empty (nodes ++ [n])
  have hzero : Drawn.empty.hit = 0 ∧ Drawn.empty.miss = 0 := ⟨rfl, rfl⟩
  rw [hzero.1, zero_add, List.map_append, List.sum_append, List.map_singleton,
    List.sum_singleton] at hs
  rw [hzero.2, zero_add, List.map_append, List.sum_append, List.map_singleton,
    List.sum_singleton] at hs'
  constructor
  · rw [hh, hh', hframe]
    exact (congrArg (· + hitCounts cfg m draw f n) hhit).trans hs.symm
  · rw [hm, hm', hframe]
    exact (congrArg (· + missCounts cfg m draw f n) hmiss).trans hs'.symm

section Corridor

/-- Cells of one metre. -/
def metreCells : CountingConfig ℚ := ⟨1, 1, 1 / 2, 1, 1, 1, 0, 0⟩

/-- No ray marks a cell. -/
def blankDrawing : Drawing := ⟨fun _ _ mask _ => mask, fun _ _ mask _ _ => mask⟩

/-- Rays along one row mark all of it. -/
def rowDrawing : Drawing := ⟨fun _ _ _ _ _ _ => 1, fun _ _ mask _ _ => mask⟩

/-- A patch of one cell with one hit, where the robot stands. -/
def oneHitNode : MapNode ℚ where
  x := 0
  y := 0
  yaw := 0
  scan := none
  submapPatch := some ⟨1, 1, 1, 0, 0, fun _ _ => 1, fun _ _ => 0⟩

/-- A beam of two metres ahead and one that meets nothing. -/
def corridorNode (x : ℚ) : MapNode ℚ where
  x := x
  y := 0
  yaw := 0
  scan := some ⟨[2, 30], 0, 0, 0, 30, 0, 0, []⟩
  submapPatch := none

def corridor : List (MapNode ℚ) :=
  [oneHitNode, corridorNode 0, corridorNode 1, corridorNode 2, corridorNode 4]

def oneWorker (nodes : List (MapNode ℚ)) : Workers (min 4 1) nodes where
  toSchedule := .serial ⟨0, by decide⟩ nodes
  mergeOrder := List.finRange _
  merged := List.Perm.refl _

/-- Two threads take the nodes by turns, the last one first, and the second thread is merged
first. -/
def turnAbout (nodes : List (MapNode ℚ)) : Workers (min 4 2) nodes where
  steps := nodes.reverse.zipIdx.map fun p => (⟨p.2 % 2, Nat.mod_lt p.2 two_pos⟩, p.1)
  covers := by
    rw [List.map_map]
    show ((nodes.reverse.zipIdx).map Prod.fst).Perm nodes
    rw [List.zipIdx_map_fst]
    exact List.reverse_perm nodes
  mergeOrder := [⟨1, by decide⟩, ⟨0, by decide⟩]
  merged := by decide

def oneHitRenderer : CountingRenderer ℚ :=
  (CountingRenderer.new metreCells).rerenderAll metreCells .axis blankDrawing [oneHitNode] 1
    (oneWorker _)

/-- The map of the corridor, drawn over an older one. -/
def corridorRenderer : CountingRenderer ℚ :=
  oneHitRenderer.rerenderAll metreCells .axis rowDrawing corridor 2 (turnAbout _)

/-- Two beams have gone through the cell that a third one hits, and a node that has come back adds
a hit and two misses more. -/
theorem redraw_then_add_corridor :
    (corridor ≠ [] ∧ corridorRenderer.hitMap (3, 1) = 1 ∧ corridorRenderer.missMap (3, 1) = 2 ∧
      (corridorRenderer.addNode metreCells .axis rowDrawing (corridorNode 2)).2 = true) ∧
    (corridorRenderer.addNode metreCells .axis rowDrawing (corridorNode 2)).1.hitMap =
        (drawSequential metreCells .axis rowDrawing
          (computeBounds corridor 1 1) (corridor ++ [corridorNode 2])).hit ∧
      (corridorRenderer.addNode metreCells .axis rowDrawing (corridorNode 2)).1.missMap =
        (drawSequential metreCells .axis rowDrawing
          (computeBounds corridor 1 1) (corridor ++ [corridorNode 2])).miss := by
  have hadd : (corridorRenderer.addNode metreCells .axis rowDrawing (corridorNode 2)).2 = true := by
    decide +kernel
  have hne : corridor ≠ [] := List.cons_ne_nil _ _
  refine ⟨⟨hne, by decide +kernel, by decide +kernel, hadd⟩, ?_⟩
  exact (redraw_then_add metreCells .axis rowDrawing oneHitRenderer hne 2
    (turnAbout _)).2.2.2.1 (corridorNode 2) hadd

/-- A redraw of no nodes keeps the counts of the map before. -/
theorem redraw_of_none_keeps :
    ∃ (r : CountingRenderer ℚ) (nodes : List (MapNode ℚ)) (workers : Workers (min 4 1) nodes),
      r = oneHitRenderer ∧ (r.rerenderAll metreCells .axis blankDrawing nodes 1 workers).hitMap ≠
        (nodes.map (hitCounts metreCells .axis blankDrawing
          (computeBounds nodes metreCells.resolution metreCells.expansionMargin))).sum := by
  refine ⟨oneHitRenderer, [], oneWorker [], rfl, fun h => ?_⟩
  have hcount : oneHitRenderer.hitMap (1, 1) = 0 := congrFun h (1, 1)
  exact absurd hcount (by decide +kernel)

end Corridor

end MgRobot.Slam

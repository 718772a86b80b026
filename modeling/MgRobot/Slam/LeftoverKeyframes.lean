import MgRobot.Slam.LoopClosureSystem

/-!
# Keyframes left over from before

A provider that still has keyframes of an earlier map, next to one without them. As
long as those that stay have no points, the two answer the same.
-/

namespace MgRobot.Slam

set_option autoImplicit false

section Definitions

variable {R : Type*}

/-- The keyframes that stay when `update` adds the next one. -/
def LocalMapProvider.kept (p : LocalMapProvider R) : List (CachedKeyframe R) :=
  if p.window ≤ p.nodes.length then p.nodes.tail else p.nodes

/-- No keyframe of the provider that stays for the next one has a point. -/
def ReferenceProvider.LeavesNoPoints : ReferenceProvider R → Prop
  | .scanToScan _ => True
  | .localMap p => ∀ kf ∈ p.kept, kf.pts = []

/-- A provider made for `reference`, after any calls. -/
def ReferenceProvider.MadeFor : ScanReference R → ReferenceProvider R → Prop
  | .scanToScan, .scanToScan _ => True
  | .scanToLocalMap window radius, .localMap p =>
      p.window = window ∧ p.radius = radius ∧ (p.nodes.length : Int) ≤ max window 1
  | _, _ => False

/-- `p` has the keyframes of `q` behind others, which have no points as far as they stay. In use,
nothing of the others is left to see. -/
structure LocalMapProvider.LeftoverIn (inUse : Prop) (p q : LocalMapProvider R)
    (old : List (CachedKeyframe R)) : Prop where
  window : p.window = q.window
  radius : p.radius = q.radius
  nodes : p.nodes = old ++ q.nodes
  length : (p.nodes.length : Int) ≤ max p.window 1
  kept : ∀ kf ∈ (if p.window ≤ p.nodes.length then old.tail else old), kf.pts = []
  pointless : inUse → ∀ kf ∈ old, kf.pts = []
  last : inUse → q.nodes ≠ [] ∧ p.lastNode = q.lastNode

/-- Two providers that no builder can tell apart. -/
def ReferenceProvider.Alike (inUse : Prop) : ReferenceProvider R → ReferenceProvider R → Prop
  | .scanToScan _, .scanToScan _ => True
  | .localMap p, .localMap q => ∃ old, p.LeftoverIn inUse q old
  | _, _ => False

end Definitions

variable {R : Type*} [Field R] [LinearOrder R] {m : Numerics R}

namespace LocalMapProvider

variable {p q : LocalMapProvider R} {old : List (CachedKeyframe R)} {inUse : Prop}

theorem update_some {node : ScanNode R} {scan : BeamScan R} (h : node.scan = some scan) :
    p.update m node =
      { p with nodes := p.kept ++ [keyframe m node scan], lastNode := some node } := by
  unfold update
  rw [h]
  rfl

omit [Field R] [LinearOrder R] in
theorem length_kept (h : (p.nodes.length : Int) ≤ max p.window 1) :
    ((p.kept.length : Int) + 1 ≤ max p.window 1) := by
  unfold kept
  split_ifs
  · rw [List.length_tail]
    omega
  · omega

omit [Field R] [LinearOrder R] in
/-- What stays of `p` is what stays of the others, and what stays of `q`. -/
theorem LeftoverIn.kept_eq (h : p.LeftoverIn inUse q old) :
    p.kept = (if p.window ≤ p.nodes.length then old.tail else old) ++ q.kept := by
  have hlen := h.length
  have hsum : p.nodes.length = old.length + q.nodes.length := by
    rw [h.nodes, List.length_append]
  unfold LocalMapProvider.kept
  rw [← h.window]
  by_cases hfull : p.window ≤ p.nodes.length
  · rw [if_pos hfull, if_pos hfull]
    cases old with
    | nil =>
        rw [h.nodes, List.nil_append] at hfull ⊢
        rw [if_pos hfull]
        rfl
    | cons o rest =>
        have htail : (if p.window ≤ q.nodes.length then q.nodes.tail else q.nodes) = q.nodes := by
          split_ifs with hq
          · have hnil : q.nodes = [] := by
              rw [List.length_cons] at hsum
              exact List.length_eq_zero_iff.mp (by omega)
            rw [hnil]
            rfl
          · rfl
        rw [htail, h.nodes]
        rfl
  · rw [if_neg hfull, if_neg hfull, if_neg (by omega), h.nodes]

theorem LeftoverIn.update (h : p.LeftoverIn inUse q old) {node : ScanNode R} {scan : BeamScan R}
    (hscan : node.scan = some scan) :
    (p.update m node).LeftoverIn True (q.update m node)
      (if p.window ≤ p.nodes.length then old.tail else old) := by
  have hlen := length_kept h.length
  have hkept := h.kept
  rw [h.kept_eq] at hlen
  rw [update_some hscan, update_some hscan, h.kept_eq]
  generalize (if p.window ≤ p.nodes.length then old.tail else old) = left at hlen hkept ⊢
  refine ⟨h.window, h.radius, ?_, ?_, fun kf hkf => ?_, fun _ => hkept, fun _ => ⟨?_, rfl⟩⟩
  · rw [List.append_assoc]
  · rw [List.length_append, List.length_singleton]
    push_cast
    exact hlen
  · split_ifs at hkf
    · exact hkept kf (List.mem_of_mem_tail hkf)
    · exact hkept kf hkf
  · exact List.append_ne_nil_of_right_ne_nil _ (List.cons_ne_nil _ _)

theorem nearPoints_of_pts_nil {kf : CachedKeyframe R} (h : kf.pts = []) (last : ScanNode R) :
    p.nearPoints m last kf = [] := by
  unfold nearPoints pointsLocalToWorld
  rw [h]
  rfl

/-- In use, the keyframes that are left over are not seen. -/
theorem LeftoverIn.reference (h : p.LeftoverIn inUse q old) (hu : inUse) :
    p.getReferencePtsAndNormals m = q.getReferencePtsAndNormals m := by
  obtain ⟨-, hlast⟩ := h.last hu
  have hnear (last : ScanNode R) : p.nearPoints m last = q.nearPoints m last := by
    unfold nearPoints
    rw [h.radius]
  have hold (last : ScanNode R) : old.flatMap (p.nearPoints m last) = [] :=
    List.flatMap_eq_nil_iff.mpr fun kf hkf => nearPoints_of_pts_nil (h.pointless hu kf hkf) last
  have hworld (last : ScanNode R) :
      p.nodes.flatMap (p.nearPoints m last) = q.nodes.flatMap (q.nearPoints m last) := by
    rw [h.nodes, List.flatMap_append, hold, List.nil_append, hnear]
  unfold getReferencePtsAndNormals
  rw [hlast]
  simp only [hworld]

omit [Field R] [LinearOrder R] in
theorem takePoses_pts (find : Int → Option (ScanNode R)) (kf : CachedKeyframe R) :
    (takePoses find kf).pts = kf.pts := by
  unfold takePoses
  split <;> rfl

omit [Field R] [LinearOrder R] in
/-- A builder in use has nodes to sync. -/
theorem LeftoverIn.syncPoses (h : p.LeftoverIn inUse q old) {nodes : List (ScanNode R)}
    (hu : nodes ≠ [] → inUse) :
    ∃ old', (p.syncPoses nodes).LeftoverIn inUse (q.syncPoses nodes) old' := by
  rcases eq_or_ne nodes [] with rfl | hne
  · exact ⟨old, h⟩
  · obtain ⟨hq, hlast⟩ := h.last (hu hne)
    have hp : p.nodes ≠ [] := by
      rw [h.nodes]
      exact List.append_ne_nil_of_right_ne_nil _ hq
    have hboth (find : Int → Option (ScanNode R)) :
        LeftoverIn inUse
          { p with nodes := p.nodes.map (takePoses find), lastNode := p.lastNode.map (takeLast find) }
          { q with nodes := q.nodes.map (takePoses find), lastNode := q.lastNode.map (takeLast find) }
          (old.map (takePoses find)) := by
      have hpts {l : List (CachedKeyframe R)} (hl : ∀ kf ∈ l, kf.pts = []) :
          ∀ kf ∈ l.map (takePoses find), kf.pts = [] := by
        intro kf hkf
        obtain ⟨kf', hkf', rfl⟩ := List.mem_map.mp hkf
        rw [takePoses_pts]
        exact hl kf' hkf'
      refine ⟨h.window, h.radius, ?_, ?_, ?_, fun hu => hpts (h.pointless hu), fun _ => ⟨?_, ?_⟩⟩
      · rw [h.nodes, List.map_append]
      · rw [List.length_map]
        exact h.length
      · dsimp only
        rw [List.length_map, ← List.map_tail, ← apply_ite (List.map (takePoses find))]
        exact hpts h.kept
      · simpa using hq
      · rw [hlast]
    have hpe : p.nodes.isEmpty = false := by simpa using hp
    have hqe : q.nodes.isEmpty = false := by simpa using hq
    have hne' : nodes.isEmpty = false := by simpa using hne
    unfold LocalMapProvider.syncPoses
    rw [hpe, hqe, hne']
    by_cases hseq : isSequential nodes = true
    · simp only [hseq, Bool.or_self, Bool.false_eq_true, if_false, if_true]
      exact ⟨_, hboth _⟩
    · simp only [hseq, Bool.or_self, Bool.false_eq_true, if_false]
      exact ⟨_, hboth _⟩

end LocalMapProvider

namespace ReferenceProvider

variable {p q : ReferenceProvider R} {inUse : Prop} {reference : ScanReference R}

section Structure

omit [Field R] [LinearOrder R]

theorem Alike.syncPoses (h : p.Alike inUse q) {nodes : List (ScanNode R)}
    (hu : nodes ≠ [] → inUse) : (p.syncPoses nodes).Alike inUse (q.syncPoses nodes) := by
  cases p <;> cases q
  · trivial
  · exact h
  · exact h
  · obtain ⟨old, h⟩ := h
    exact h.syncPoses hu

/-- Out of use, less is asked. -/
theorem Alike.of_imp (h : p.Alike inUse q) {inUse' : Prop} (hi : inUse' → inUse) :
    p.Alike inUse' q := by
  cases p <;> cases q
  · trivial
  · exact h
  · exact h
  · obtain ⟨old, h⟩ := h
    exact ⟨old, h.window, h.radius, h.nodes, h.length, h.kept, fun hu => h.pointless (hi hu),
      fun hu => h.last (hi hu)⟩

theorem madeFor_new (reference : ScanReference R) :
    (new reference).MadeFor reference := by
  cases reference with
  | scanToScan => trivial
  | scanToLocalMap window radius =>
      refine ⟨rfl, rfl, ?_⟩
      show ((0 : Nat) : Int) ≤ max window 1
      omega

theorem MadeFor.syncPoses (h : p.MadeFor reference) (nodes : List (ScanNode R)) :
    (p.syncPoses nodes).MadeFor reference := by
  cases reference <;> cases p
  · trivial
  · exact h
  · exact h
  · rename_i window radius p
    obtain ⟨hw, hr, hlen⟩ := h
    show MadeFor _ (.localMap (p.syncPoses nodes))
    unfold LocalMapProvider.syncPoses
    split_ifs
    · exact ⟨hw, hr, hlen⟩
    · exact ⟨hw, hr, by rw [List.length_map]; exact hlen⟩
    · exact ⟨hw, hr, by rw [List.length_map]; exact hlen⟩

/-- What is left over without points is as good as a new provider. -/
theorem MadeFor.alike_new (h : p.MadeFor reference) (hp : p.LeavesNoPoints) :
    p.Alike False (new reference) := by
  cases reference <;> cases p
  · trivial
  · exact h
  · exact h
  · rename_i window radius p
    obtain ⟨hw, hr, hlen⟩ := h
    exact ⟨p.nodes, hw, hr, (List.append_nil _).symm, by rw [hw]; exact hlen, hp,
      False.elim, False.elim⟩

end Structure

theorem Alike.update (h : p.Alike inUse q) {node : ScanNode R} {scan : BeamScan R}
    (hscan : node.scan = some scan) : (p.update m node).Alike True (q.update m node) := by
  cases p <;> cases q
  · trivial
  · exact h
  · exact h
  · obtain ⟨old, h⟩ := h
    exact ⟨_, h.update hscan⟩

theorem Alike.getReference (h : p.Alike inUse q) (hu : inUse) :
    p.getReferencePtsAndNormals m = q.getReferencePtsAndNormals m := by
  cases p <;> cases q
  · rfl
  · exact h.elim
  · exact h.elim
  · obtain ⟨old, h⟩ := h
    exact h.reference hu

theorem MadeFor.update (h : p.MadeFor reference) (node : ScanNode R) :
    (p.update m node).MadeFor reference := by
  cases reference <;> cases p
  · trivial
  · exact h
  · exact h
  · rename_i window radius p
    obtain ⟨hw, hr, hlen⟩ := h
    cases hscan : node.scan with
    | none =>
        show MadeFor _ (.localMap (p.update m node))
        rw [LocalMapProvider.update, hscan]
        exact ⟨hw, hr, hlen⟩
    | some scan =>
        have hkept := LocalMapProvider.length_kept (p := p) (by rw [hw]; exact hlen)
        show MadeFor _ (.localMap (p.update m node))
        rw [LocalMapProvider.update_some hscan]
        refine ⟨hw, hr, ?_⟩
        rw [List.length_append, List.length_singleton, ← hw]
        push_cast
        exact hkept

end ReferenceProvider

end MgRobot.Slam

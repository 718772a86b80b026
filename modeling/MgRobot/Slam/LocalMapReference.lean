import MgRobot.Slam.LocalMapRuns

/-!
# The reference seen from the latest node

Over the reals the two changes of frame of the provider are one motion, from the
keyframe to the latest node. A rigid motion of the whole plane leaves it as it is.
-/

namespace MgRobot.Slam

set_option autoImplicit false

open MgRobot.Lib.Plane

/-- A point with its normal. -/
abbrev OrientedPoint := (ℝ × ℝ) × (ℝ × ℝ)

namespace OrientedPoint

/-- An oriented point of the frame that `p` is the pose of. -/
noncomputable def movedBy (p : Motion) (c : OrientedPoint) : OrientedPoint :=
  (p.act c.1, turnBy p.angle c.2)

theorem movedBy_mul (p q : Motion) (c : OrientedPoint) :
    movedBy (p * q) c = movedBy p (movedBy q c) := by
  unfold movedBy
  rw [Motion.mul_act, Motion.mul_angle, turnBy_turnBy]

end OrientedPoint

/-- The points and normals of the scan of a node, in its own frame. -/
noncomputable def ScanNode.cloud (n : ScanNode ℝ) : List OrientedPoint :=
  match n.scan with
  | none => []
  | some scan => (scanCloud .exact scan n.normals).1.zip (scanCloud .exact scan n.normals).2

/-- The clouds of the keyframes as they are seen from `last`, up to `radius`. -/
noncomputable def seenFrom (last : Motion) (radius : ℝ) (keyframes : List (ScanNode ℝ)) :
    List OrientedPoint :=
  (keyframes.flatMap fun n => n.cloud.map (OrientedPoint.movedBy (last⁻¹ * n.pose.motion))).filter
    fun c => dot c.1 c.1 ≤ radius * radius

namespace ProviderEvent

/-- The reference of a history: the last `window` keyframes at their latest poses, seen from the
latest node. -/
noncomputable def reference (window : Int) (radius : ℝ) (es : List (ProviderEvent ℝ)) :
    Option (List (ℝ × ℝ) × List (ℝ × ℝ)) :=
  (latestNode es).bind fun last =>
    let seen := seenFrom last.pose.motion radius ((keyframes es).rtake window.toNat)
    if seen.isEmpty then none else some (seen.map Prod.fst, seen.map Prod.snd)

end ProviderEvent

section Frames

theorem pointsLocalToWorld_eq (p : Pose ℝ) (pts : List (ℝ × ℝ)) :
    pointsLocalToWorld .exact p pts = pts.map p.motion.act :=
  List.map_congr_left fun v _ => (act_motion p v).symm

theorem pointsWorldToLocal_eq (p : Pose ℝ) (pts : List (ℝ × ℝ)) :
    pointsWorldToLocal .exact p pts = pts.map p.motion⁻¹.act :=
  List.map_congr_left fun v _ => (inv_act_motion p v).symm

theorem normalsLocalToWorld_eq (p : Pose ℝ) (normals : List (ℝ × ℝ)) :
    normalsLocalToWorld .exact p.yaw normals = normals.map (turnBy p.motion.angle) := by
  refine List.map_congr_left fun v _ => ?_
  unfold Pose.motion
  rw [turnBy_coe]
  rfl

theorem normalsWorldToLocal_eq (p : Pose ℝ) (normals : List (ℝ × ℝ)) :
    normalsWorldToLocal .exact p.yaw normals = normals.map (turnBy p.motion⁻¹.angle) := by
  refine List.map_congr_left fun v _ => ?_
  unfold Pose.motion
  rw [Motion.inv_angle, ← Real.Angle.coe_neg, turnBy_coe, turn, Real.cos_neg, Real.sin_neg]
  ext
  · show Real.cos p.yaw * v.1 + Real.sin p.yaw * v.2 =
      Real.cos p.yaw * v.1 - -Real.sin p.yaw * v.2
    ring
  · rfl

/-- The distance to a point does not depend on the frame. -/
theorem dot_inv_act (p : Motion) (v : ℝ × ℝ) :
    dot (p⁻¹.act v) (p⁻¹.act v) = dot (v - p.shift) (v - p.shift) := by
  induction hα : p.angle using Real.Angle.induction_on with
  | _ θ => rw [Motion.inv_act, hα, ← Real.Angle.coe_neg, turnBy_coe, dot_turn]

end Frames

namespace LocalMapProvider

open ProviderEvent

/-- Points that are each looked up a normal go with the normals in order. -/
theorem filterMap_zipIdx_getD {α β : Type*} (P : α → Prop) [DecidablePred P] (d : β)
    (front : List β) (pts : List α) (normals : List β) (h : normals.length = pts.length) :
    (pts.zipIdx front.length).filterMap
        (fun w => if P w.1 then some (w.1, (front ++ normals).getD w.2 d) else none) =
      (pts.zip normals).filter fun c => P c.1 := by
  induction pts generalizing front normals with
  | nil => rfl
  | cons pt rest ih =>
      cases normals with
      | nil => cases h
      | cons n ns =>
          have hrest := ih (front ++ [n]) ns (Nat.succ.inj h)
          rw [List.length_append, List.length_singleton, List.append_assoc] at hrest
          have hget : (front ++ n :: ns).getD front.length d = n := by simp
          rw [List.zipIdx_cons, List.zip_cons_cons, List.filterMap_cons, List.filter_cons]
          simp only [hget]
          by_cases hp : P pt
          · simp only [if_pos hp]
            rw [if_pos (decide_eq_true hp)]
            exact congrArg _ hrest
          · simp only [if_neg hp]
            rw [decide_eq_false hp, if_neg Bool.false_ne_true]
            exact hrest

variable {window : Int} {radius : ℝ} {es : List (ProviderEvent ℝ)}

/-- What a keyframe adds to the reference, in the frame of `last`. -/
theorem nearPoints_eq {p : LocalMapProvider ℝ} (last n : ScanNode ℝ) {scan : BeamScan ℝ}
    (hscan : n.scan = some scan) (hv : (ProviderEvent.update n).Valid .exact) :
    (p.nearPoints .exact last (keyframe .exact n scan)).map
        (OrientedPoint.movedBy last.pose.motion⁻¹) =
      (n.cloud.map (OrientedPoint.movedBy (last.pose.motion⁻¹ * n.pose.motion))).filter
        fun c => dot c.1 c.1 ≤ p.radius * p.radius := by
  have hlen : (scanCloud .exact scan n.normals).2.length =
      (scanCloud .exact scan n.normals).1.length := length_scanCloud _ _ (hv scan hscan)
  have hcloud : n.cloud =
      (scanCloud .exact scan n.normals).1.zip (scanCloud .exact scan n.normals).2 := by
    rw [ScanNode.cloud, hscan]
  have hnear : p.nearPoints .exact last (keyframe .exact n scan) =
      (n.cloud.map (OrientedPoint.movedBy n.pose.motion)).filter
        fun c => dot (c.1 - last.pose.pos) (c.1 - last.pose.pos) ≤ p.radius * p.radius := by
    unfold nearPoints keyframe
    dsimp only
    rw [pointsLocalToWorld_eq, show n.yaw = n.pose.yaw from rfl, normalsLocalToWorld_eq]
    have hzip := filterMap_zipIdx_getD
      (fun v : ℝ × ℝ => dot (v - last.pose.pos) (v - last.pose.pos) ≤ p.radius * p.radius) (0, 1) []
      ((scanCloud .exact scan n.normals).1.map n.pose.motion.act)
      ((scanCloud .exact scan n.normals).2.map (turnBy n.pose.motion.angle))
      (by rw [List.length_map, List.length_map, hlen])
    rw [List.zip_map, ← hcloud] at hzip
    exact hzip
  have hboth : n.cloud.map (OrientedPoint.movedBy (last.pose.motion⁻¹ * n.pose.motion)) =
      (n.cloud.map (OrientedPoint.movedBy n.pose.motion)).map
        (OrientedPoint.movedBy last.pose.motion⁻¹) := by
    rw [List.map_map]
    exact List.map_congr_left fun c _ => OrientedPoint.movedBy_mul _ _ c
  rw [hnear, hboth]
  conv_rhs => rw [List.filter_map]
  congr 1
  refine List.filter_congr fun c _ => ?_
  rw [Function.comp_apply, OrientedPoint.movedBy, dot_inv_act]
  rfl

/-- What is near in the world is what is seen from the last node. -/
theorem Caches.seenFrom_eq {p : LocalMapProvider ℝ} (h : Caches .exact window radius es p)
    (hv : ∀ n ∈ keyframes es, (ProviderEvent.update n).Valid .exact) (last : ScanNode ℝ) :
    (p.nodes.flatMap (p.nearPoints .exact last)).map (OrientedPoint.movedBy last.pose.motion⁻¹) =
      seenFrom last.pose.motion radius ((keyframes es).rtake window.toNat) := by
  have hmem : ∀ n ∈ (keyframes es).rtake window.toNat, n ∈ keyframes es :=
    fun n hn => List.mem_of_mem_drop hn
  rw [h.nodes]
  unfold seenFrom
  generalize (keyframes es).rtake window.toNat = l at hmem ⊢
  induction l with
  | nil => rfl
  | cons n rest ih =>
      have hn := hmem n List.mem_cons_self
      obtain ⟨scan, hscan⟩ := Option.isSome_iff_exists.mp (scan_of_mem_keyframes hn)
      rw [List.filterMap_cons_some (b := keyframe .exact n scan) (by rw [asKeyframe, hscan]; rfl),
        List.flatMap_cons, List.flatMap_cons, List.map_append, List.filter_append,
        nearPoints_eq last n hscan (hv n hn), h.radius_eq,
        ih fun x hx => hmem x (List.mem_cons_of_mem n hx)]

/-- The provider's answer is the reference of its history. -/
theorem Caches.reference {p : LocalMapProvider ℝ} (h : Caches .exact window radius es p)
    (hv : ∀ n ∈ keyframes es, (ProviderEvent.update n).Valid .exact) :
    p.getReferencePtsAndNormals .exact = ProviderEvent.reference window radius es := by
  have hseen := h.seenFrom_eq hv
  unfold getReferencePtsAndNormals ProviderEvent.reference
  by_cases hnil : p.nodes = []
  · have hempty (last : ScanNode ℝ) :
        seenFrom last.pose.motion radius ((keyframes es).rtake window.toNat) = [] := by
      rw [← hseen last, hnil]
      rfl
    simp only [hnil, hempty]
    cases p.lastNode <;> cases latestNode es <;> rfl
  · have hlast := h.last hnil
    cases hp : p.lastNode <;> cases hl : latestNode es <;> rw [hp, hl] at hlast
    · rfl
    · cases hlast
    · cases hlast
    · rename_i last latest
      have hpose : last.pose = latest.pose := (Prod.mk.inj (Option.some.inj hlast)).2
      have hlocal := hseen last
      rw [hpose] at hlocal
      simp only [Option.bind_some, ← hlocal, List.isEmpty_map]
      split_ifs
      · rfl
      · rw [pointsWorldToLocal_eq, show last.yaw = last.pose.yaw from rfl, normalsWorldToLocal_eq,
          hpose]
        simp only [List.map_map]
        rfl

/-- Moving the whole plane leaves what is seen as it is. -/
theorem seenFrom_moved {g : Motion} {last : Motion} {l : List (ScanNode ℝ)}
    {f : ScanNode ℝ → ScanNode ℝ} (hcloud : ∀ n, (f n).cloud = n.cloud)
    (hf : ∀ n ∈ l, (f n).pose.motion = g * n.pose.motion) :
    seenFrom (g * last) radius (l.map f) = seenFrom last radius l := by
  unfold seenFrom
  rw [List.flatMap_map]
  congr 1
  refine List.flatMap_congr fun n hn => ?_
  rw [hcloud, hf n hn, Motion.inv_mul_of_mul_left]

theorem valid_of_mem_keyframes (hv : ∀ e ∈ es, e.Valid .exact) {n : ScanNode ℝ}
    (hn : n ∈ keyframes es) : (ProviderEvent.update n).Valid .exact := by
  induction es with
  | nil => cases hn
  | cons e rest ih =>
      have hrest := ih fun x hx => hv x (List.mem_cons_of_mem e hx)
      cases e with
      | update n' =>
          rw [keyframes] at hn
          split_ifs at hn with hs
          · rcases List.mem_cons.mp hn with rfl | hn
            · have hadded : (ProviderEvent.update n').Valid .exact := hv _ List.mem_cons_self
              exact hadded
            · exact hrest hn
          · exact hrest hn
      | syncPoses nodes => exact hrest hn

theorem reference_run (hw : 1 ≤ window) (hv : ∀ e ∈ es, e.Valid .exact) :
    (run .exact window radius es).getReferencePtsAndNormals .exact =
      ProviderEvent.reference window radius es :=
  (caches_run hw hv).reference fun _ hn => valid_of_mem_keyframes hv hn

/-- A sync that moves the whole plane leaves the reference of a history as it is. -/
theorem reference_snoc_moved {g : Motion} {nodes : List (ScanNode ℝ)}
    (h : (nodes.map ScanNode.index).Pairwise (· < ·))
    (hmoved : ∀ n ∈ (keyframes es).rtake window.toNat ++ (latestNode es).toList,
      ∃ n' ∈ nodes, n'.index = n.index ∧ n'.pose.motion = g * n.pose.motion) :
    ProviderEvent.reference window radius (es ++ [.syncPoses nodes]) =
      ProviderEvent.reference window radius es := by
  have hmotion (n : ScanNode ℝ)
      (hn : n ∈ (keyframes es).rtake window.toNat ++ (latestNode es).toList) :
      (movedBy nodes n).pose.motion = g * n.pose.motion := by
    obtain ⟨n', hn', hindex, hpose⟩ := hmoved n hn
    unfold movedBy poseIn
    rw [← hindex, find?_index_eq_some h hn']
    exact hpose
  unfold ProviderEvent.reference
  rw [latestNode_snoc_sync, keyframes_snoc_sync, rtake_map]
  cases hlast : latestNode es with
  | none => rfl
  | some last =>
      have hseen : seenFrom (movedBy nodes last).pose.motion radius
          (((keyframes es).rtake window.toNat).map (movedBy nodes)) =
          seenFrom last.pose.motion radius ((keyframes es).rtake window.toNat) := by
        rw [hmotion last (by rw [hlast]; simp)]
        exact seenFrom_moved (fun _ => rfl) fun n hn => hmotion n (List.mem_append_left _ hn)
      simp only [Option.map_some, Option.bind_some, hseen]

/-- After any updates and syncs the reference is the one from scratch, and a sync that moves all
nodes by one rigid motion does not change it. -/
theorem reference_from_scratch (window : Int) (radius : ℝ) (es : List (ProviderEvent ℝ))
    (hw : 1 ≤ window) (hv : ∀ e ∈ es, e.Valid .exact) :
    (run .exact window radius es).getReferencePtsAndNormals .exact =
        ProviderEvent.reference window radius es ∧
      ∀ (g : Motion) (nodes : List (ScanNode ℝ)), (nodes.map ScanNode.index).Pairwise (· < ·) →
        (∀ n ∈ (keyframes es).rtake window.toNat ++ (latestNode es).toList,
          ∃ n' ∈ nodes, n'.index = n.index ∧ n'.pose.motion = g * n.pose.motion) →
        ((run .exact window radius es).syncPoses nodes).getReferencePtsAndNormals .exact =
          (run .exact window radius es).getReferencePtsAndNormals .exact := by
  refine ⟨reference_run hw hv, fun g nodes h hmoved => ?_⟩
  have hv' : ∀ e ∈ es ++ [.syncPoses nodes], e.Valid .exact := by
    intro e he
    rcases List.mem_append.mp he with he | he
    · exact hv e he
    · obtain rfl := List.mem_singleton.mp he
      exact h
  have hrun : run .exact window radius (es ++ [.syncPoses nodes]) =
      (run .exact window radius es).syncPoses nodes := by
    rw [run, List.foldl_append]
    rfl
  rw [← hrun, reference_run hw hv', reference_run hw hv, reference_snoc_moved h hmoved]

section Hall

/-- A single beam of a metre, straight ahead. -/
noncomputable def oneBeam : BeamScan ℝ := ⟨[1], 0, 0, 1 / 10, 30, 0, 0, []⟩

noncomputable def hallNode (i : Int) (x : ℝ) (scan : Option (BeamScan ℝ)) : ScanNode ℝ :=
  ⟨i, x, 0, 0, scan, none⟩

/-- Four nodes ahead of each other, the second without a scan; before the last one is added, the
second and the third are half a metre further. -/
noncomputable def hallEvents : List (ProviderEvent ℝ) :=
  [.update (hallNode 0 0 (some oneBeam)), .update (hallNode 1 1 none),
    .update (hallNode 2 2 (some oneBeam)),
    .syncPoses [hallNode 0 0 none, hallNode 1 (3 / 2) none, hallNode 2 (5 / 2) none],
    .update (hallNode 3 3 (some oneBeam))]

/-- A metre ahead and a quarter turn. -/
noncomputable def quarterTurn : Motion := ⟨(1, 0), (Real.pi / 2 : ℝ)⟩

noncomputable def turnedNode (i : Int) (x : ℝ) : ScanNode ℝ :=
  ⟨i, 1, x, Real.pi / 2, none, none⟩

theorem turnedNode_motion (i j : Int) (x : ℝ) (scan : Option (BeamScan ℝ)) :
    (turnedNode i x).pose.motion = quarterTurn * (hallNode j x scan).pose.motion := by
  apply Motion.ext
  · rw [Motion.mul_shift, quarterTurn, turnBy_coe]
    simp [Pose.motion, ScanNode.pose, turnedNode, hallNode, turn]
  · rw [Motion.mul_angle]
    simp [Pose.motion, ScanNode.pose, turnedNode, hallNode, quarterTurn]

theorem oneBeam_validBeams : oneBeam.validBeams .exact = [((1, 0), 0)] := by
  have hin : oneBeam.inLimits 1 := by
    show (1 / 10 : ℝ) ≤ 1 ∧ (1 : ℝ) ≤ 30
    norm_num
  have hpoint : oneBeam.beamPoint .exact (beamAngle oneBeam 0) 1 = (1, 0) := by
    show (1 * Real.cos (0 + (0 : ℕ) * 0) + 0, 1 * Real.sin (0 + (0 : ℕ) * 0) + 0) = ((1, 0) : ℝ × ℝ)
    simp
  have hranges : oneBeam.ranges.zipIdx = [(1, 0)] := rfl
  unfold BeamScan.validBeams
  rw [hranges]
  simp only [List.filterMap_cons, List.filterMap_nil, if_pos hin, hpoint]

theorem hallNode_cloud (i : Int) (x : ℝ) :
    ∃ normal, (hallNode i x (some oneBeam)).cloud = [((1, 0), normal)] := by
  refine ⟨normalAt .exact oneBeam (oneBeam.validBeams .exact) 0, ?_⟩
  show (scanToPointsAndNormals .exact oneBeam).1.zip (scanToPointsAndNormals .exact oneBeam).2 = _
  unfold scanToPointsAndNormals
  rw [oneBeam_validBeams]
  rfl

theorem hall_kept : (keyframes hallEvents).rtake (2 : Int).toNat =
    [hallNode 2 (5 / 2) (some oneBeam), hallNode 3 3 (some oneBeam)] := rfl

theorem hall_latest : latestNode hallEvents = some (hallNode 3 3 (some oneBeam)) := rfl

theorem hall_reference : ∃ reference, ProviderEvent.reference 2 10 hallEvents = some reference := by
  obtain ⟨normal, hcloud⟩ := hallNode_cloud 3 3
  have hmem : ((1, 0), normal) ∈ seenFrom (hallNode 3 3 (some oneBeam)).pose.motion 10
      [hallNode 2 (5 / 2) (some oneBeam), hallNode 3 3 (some oneBeam)] := by
    unfold seenFrom
    rw [List.mem_filter]
    constructor
    · rw [List.mem_flatMap]
      refine ⟨hallNode 3 3 (some oneBeam), by simp, ?_⟩
      rw [hcloud, inv_mul_cancel]
      simp [OrientedPoint.movedBy]
    · norm_num [dot]
  unfold ProviderEvent.reference
  rw [hall_latest, hall_kept]
  refine ⟨_, if_neg ?_⟩
  rw [List.isEmpty_iff]
  exact List.ne_nil_of_mem hmem

/-- The last two of three keyframes are kept, and the whole hall is turned. -/
theorem reference_from_scratch_hall :
    let p := run .exact 2 10 hallEvents
    p.nodes.length = 2 ∧ (∃ reference, ProviderEvent.reference 2 10 hallEvents = some reference) ∧
      p.getReferencePtsAndNormals .exact = ProviderEvent.reference 2 10 hallEvents ∧
      (p.syncPoses [turnedNode 0 0, turnedNode 1 (3 / 2), turnedNode 2 (5 / 2),
          turnedNode 3 3]).getReferencePtsAndNormals .exact =
        p.getReferencePtsAndNormals .exact := by
  have hv : ∀ e ∈ hallEvents, e.Valid .exact := by
    simp [hallEvents, Valid, hallNode]
  obtain ⟨href, hmoved⟩ := reference_from_scratch 2 10 hallEvents one_le_two hv
  refine ⟨rfl, hall_reference, href, hmoved quarterTurn _ (by simp [turnedNode]) ?_⟩
  rw [hall_kept, hall_latest]
  intro n hn
  simp only [Option.toList_some, List.cons_append, List.nil_append, List.mem_cons,
    List.not_mem_nil, or_false, or_self] at hn
  rcases hn with rfl | rfl
  · exact ⟨turnedNode 2 (5 / 2), by simp, rfl, turnedNode_motion ..⟩
  · exact ⟨turnedNode 3 3, by simp, rfl, turnedNode_motion ..⟩

end Hall

end LocalMapProvider

end MgRobot.Slam

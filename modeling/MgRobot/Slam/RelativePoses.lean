import MgRobot.Lib.RigidMotion
import MgRobot.Slam.BuilderRuns
import MgRobot.Slam.ExactHeading

/-!
# Relative poses

With exact functions, `compose_pose` and `delta_pose` are the product and the quotient
of rigid motions, and turning the graph about its first node is a motion of the whole
plane: what the edges measure stays as it is.
-/

namespace MgRobot.Slam

set_option autoImplicit false

open MgRobot.Lib.Plane

noncomputable def Pose.motion (p : Pose ℝ) : Motion := ⟨(p.x, p.y), p.yaw⟩

theorem act_motion (p : Pose ℝ) (v : ℝ × ℝ) : p.motion.act v =
    (Real.cos p.yaw * v.1 - Real.sin p.yaw * v.2 + p.x,
      Real.sin p.yaw * v.1 + Real.cos p.yaw * v.2 + p.y) := by
  unfold Motion.act Pose.motion
  rw [turnBy_coe, turn]
  ext
  · exact add_comm _ _
  · exact add_comm _ _

theorem inv_act_motion (p : Pose ℝ) (v : ℝ × ℝ) : p.motion⁻¹.act v =
    (Real.cos p.yaw * (v.1 - p.x) + Real.sin p.yaw * (v.2 - p.y),
      -Real.sin p.yaw * (v.1 - p.x) + Real.cos p.yaw * (v.2 - p.y)) := by
  unfold Pose.motion
  rw [Motion.inv_act, ← Real.Angle.coe_neg, turnBy_coe, turn, Real.cos_neg, Real.sin_neg]
  ext
  · simp only [Prod.fst_sub, Prod.snd_sub]
    ring
  · simp only [Prod.fst_sub, Prod.snd_sub]

namespace Numerics.Exact

variable {m : Numerics ℝ} (h : m.Exact)

include h

theorem normalizeAngle (a : ℝ) : (m.normalizeAngle a : Real.Angle) = a := by
  unfold Numerics.normalizeAngle
  rw [h.atan2, h.sin, h.cos, heading_cos_sin]

theorem composePose (p d : Pose ℝ) : (m.composePose p d).motion = p.motion * d.motion := by
  apply Motion.ext
  · unfold Pose.motion Numerics.composePose
    rw [Motion.mul_shift, turnBy_coe, h.sin, h.cos]
    ext
    · exact add_sub_assoc _ _ _
    · exact add_assoc _ _ _
  · unfold Pose.motion Numerics.composePose
    rw [Motion.mul_angle, ← Real.Angle.coe_add]
    exact h.normalizeAngle _

theorem deltaPose (p q : Pose ℝ) : (m.deltaPose p q).motion = p.motion⁻¹ * q.motion := by
  apply Motion.ext
  · unfold Pose.motion Numerics.deltaPose
    rw [Motion.inv_mul_shift, ← Real.Angle.coe_neg, turnBy_coe, turn, Real.cos_neg, Real.sin_neg,
      h.sin, h.cos]
    ext
    · simp only [Prod.fst_sub, Prod.snd_sub]
      ring
    · rfl
  · unfold Pose.motion Numerics.deltaPose
    rw [Motion.inv_mul_angle, ← Real.Angle.coe_sub]
    exact h.normalizeAngle _

/-- The odometry's motion in its own frame, as the builders compute it. -/
theorem worldDeltaToLocal (p q : OdomData ℝ) (yaw : ℝ) (hyaw : (yaw : Real.Angle) = q.yaw - p.yaw) :
    Pose.motion ⟨(m.worldDeltaToLocal (q.x - p.x) (q.y - p.y) p.yaw).1,
      (m.worldDeltaToLocal (q.x - p.x) (q.y - p.y) p.yaw).2, yaw⟩ =
      p.pose.motion⁻¹ * q.pose.motion := by
  apply Motion.ext
  · unfold Pose.motion OdomData.pose Numerics.worldDeltaToLocal
    rw [Motion.inv_mul_shift, ← Real.Angle.coe_neg, turnBy_coe, turn, h.sin, h.cos]
    rfl
  · unfold Pose.motion OdomData.pose
    rw [Motion.inv_mul_angle]
    exact hyaw

end Numerics.Exact

section Rebase

/-- The edge measures its second node from its first, the turn modulo `2 * π`. -/
def PoseEdge.Fits (m : Numerics ℝ) (e : PoseEdge ℝ) (nodes : List (PoseNode ℝ)) : Prop :=
  ∀ a ∈ nodes, ∀ b ∈ nodes, a.index = e.fromIndex → b.index = e.toIndex →
    e.delta.motion = (m.deltaPose a.pose b.pose).motion

/-- The motion of the plane that takes `front` to the origin and turns by `rot`. -/
noncomputable def rebaseMotion (front : PoseNode ℝ) (rot : ℝ) : Motion :=
  ⟨-turn rot front.pos, rot⟩

/-- A node after the plane has moved. -/
noncomputable def PoseNode.rebased (n front : PoseNode ℝ) (rot : ℝ) : PoseNode ℝ :=
  n.withPose ⟨(turn rot (n.pos - front.pos)).1, (turn rot (n.pos - front.pos)).2, n.yaw + rot⟩

theorem PoseNode.rebased_motion (n front : PoseNode ℝ) (rot : ℝ) :
    (n.rebased front rot).pose.motion = rebaseMotion front rot * n.pose.motion := by
  apply Motion.ext
  · rw [Motion.mul_shift]
    unfold rebaseMotion
    rw [turnBy_coe, neg_add_eq_sub]
    exact turn_sub _ _ _
  · rw [Motion.mul_angle]
    exact (Real.Angle.coe_add n.yaw rot).trans (add_comm _ _)

variable {m : Numerics ℝ} (h : m.Exact)

include h

theorem rebaseAndRotateNodes_eq {front : PoseNode ℝ} {nodes : List (PoseNode ℝ)} (rot : ℝ)
    (hf : nodes.head? = some front) :
    m.rebaseAndRotateNodes nodes rot = nodes.map fun n => n.rebased front rot := by
  rw [m.rebaseAndRotateNodes_of_head hf]
  simp only [h.rotate]
  rfl

/-- Seen from another node, a node stays where it was. -/
theorem deltaPose_rebased (front a b : PoseNode ℝ) (rot : ℝ) :
    m.deltaPose (a.rebased front rot).pose (b.rebased front rot).pose =
      m.deltaPose a.pose b.pose := by
  have hm : (m.deltaPose (a.rebased front rot).pose (b.rebased front rot).pose).motion =
      (m.deltaPose a.pose b.pose).motion := by
    rw [h.deltaPose, h.deltaPose, a.rebased_motion, b.rebased_motion, Motion.inv_mul_of_mul_left]
  have hyaw : (b.yaw + rot) - (a.yaw + rot) = b.yaw - a.yaw := add_sub_add_right_eq_sub _ _ _
  obtain ⟨hx, hy⟩ := Prod.mk.inj (congrArg Motion.shift hm)
  have ht : (m.deltaPose (a.rebased front rot).pose (b.rebased front rot).pose).yaw =
      (m.deltaPose a.pose b.pose).yaw := congrArg m.normalizeAngle hyaw
  exact (Pose.mk.injEq ..).mpr ⟨hx, hy, ht⟩

/-- The rebase takes the first node to the origin, turns every heading by the same angle and
keeps every relative pose. The graph that is aligned at the GNSS initialisation keeps its edges,
and they fit the nodes as before. -/
theorem rebase_keeps_relative_poses (nodes : List (PoseNode ℝ)) (rot : ℝ) :
    (∀ n, (m.rebaseAndRotateNodes nodes rot).head? = some n → n.pos = (0, 0)) ∧
      (m.rebaseAndRotateNodes nodes rot).map (fun n => (n.index, n.yaw)) =
        nodes.map (fun n => (n.index, n.yaw + rot)) ∧
      (∀ (i j : Nat) (a b a' b' : PoseNode ℝ), nodes[i]? = some a → nodes[j]? = some b →
        (m.rebaseAndRotateNodes nodes rot)[i]? = some a' →
        (m.rebaseAndRotateNodes nodes rot)[j]? = some b' →
        m.deltaPose a'.pose b'.pose = m.deltaPose a.pose b.pose) ∧
      (∀ e : PoseEdge ℝ, e.Fits m (m.rebaseAndRotateNodes nodes rot) ↔ e.Fits m nodes) ∧
      ∀ (cfg : SlamConfig ℝ) (o : GraphOrchestrator ℝ) (front curr : PoseNode ℝ),
        o.poseGraph.getNodes = nodes →
          (o.alignGraph cfg m rot front curr).poseGraph.getNodes =
              m.rebaseAndRotateNodes nodes rot ∧
            (o.alignGraph cfg m rot front curr).poseGraph.getEdges = o.poseGraph.getEdges := by
  have halign : ∀ (cfg : SlamConfig ℝ) (o : GraphOrchestrator ℝ) (front curr : PoseNode ℝ),
      o.poseGraph.getNodes = nodes →
        (o.alignGraph cfg m rot front curr).poseGraph.getNodes =
            m.rebaseAndRotateNodes nodes rot ∧
          (o.alignGraph cfg m rot front curr).poseGraph.getEdges = o.poseGraph.getEdges := by
    rintro cfg o front curr rfl
    unfold GraphOrchestrator.alignGraph
    exact ⟨PoseGraphBuilder.replaceNodes_getNodes _ _, PoseGraphBuilder.replaceNodes_getEdges _ _⟩
  rcases hf : nodes.head? with _ | front
  · obtain rfl := List.head?_eq_none_iff.mp hf
    exact ⟨fun n hn => absurd hn nofun, rfl, fun i j a b a' b' ha => absurd ha nofun,
      fun e => Iff.rfl, halign⟩
  · rw [rebaseAndRotateNodes_eq h rot hf] at halign ⊢
    refine ⟨?_, ?_, ?_, ?_, halign⟩
    · intro n hn
      rw [List.head?_map, hf] at hn
      obtain rfl := Option.some.inj hn
      show turn rot (front.pos - front.pos) = 0
      rw [sub_self, turn_zero]
    · rw [List.map_map]
      rfl
    · intro i j a b a' b' ha hb ha' hb'
      rw [List.getElem?_map, ha] at ha'
      rw [List.getElem?_map, hb] at hb'
      obtain rfl := Option.some.inj ha'
      obtain rfl := Option.some.inj hb'
      exact deltaPose_rebased h front a b rot
    · intro e
      unfold PoseEdge.Fits
      simp only [List.forall_mem_map, deltaPose_rebased h]
      rfl

omit h

/-- Two nodes a metre apart and the edge between them, turned by a right angle. -/
theorem rebase_keeps_relative_poses_pair :
    (PoseEdge.mk 0 1 1 0 0 (diag3 1 1 1) 0 false).Fits .exact
      (Numerics.exact.rebaseAndRotateNodes [⟨0, 0, 2, 3, 0, none⟩, ⟨1, 1, 3, 3, 0, none⟩]
        (Real.pi / 2)) := by
  refine ((rebase_keeps_relative_poses Numerics.exact_exact _ _).2.2.2.1 _).mpr ?_
  intro a ha b hb hfrom hto
  simp only [List.mem_cons, List.not_mem_nil, or_false] at ha hb
  rcases ha with rfl | rfl
  · rcases hb with rfl | rfl
    · cases hto
    · rw [Numerics.exact_exact.deltaPose]
      apply Motion.ext
      · rw [Motion.inv_mul_shift]
        norm_num [Pose.motion, PoseNode.pose, PoseEdge.delta]
      · rw [Motion.inv_mul_angle]
        exact (sub_self _).symm
  · cases hfrom

end Rebase

end MgRobot.Slam

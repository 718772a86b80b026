import Mathlib.Analysis.Real.Sqrt
import MgRobot.Lib.PrincipalAxis
import MgRobot.Slam.Orchestrator

/-!
# Headings from exact data

Over the reals, with exact functions and an exact eigen solver: the rotation that
`initialize_with_gnss_if_ready` finds for a GNSS track that is the rotated odometry
track.
-/

namespace MgRobot.Slam

set_option autoImplicit false

open MgRobot.Lib.Plane MgRobot.Lib.Covariance

/-- `<cmath>` is exact, and so is the solver on symmetric matrices; which of the two unit
eigenvectors it answers is left open. -/
structure Numerics.Exact (m : Numerics ℝ) : Prop where
  sin : m.sin = Real.sin
  cos : m.cos = Real.cos
  atan2 : ∀ y x, m.atan2 y x = heading (x, y)
  hypot : ∀ x y, m.hypot x y = Real.sqrt (x * x + y * y)
  selfAdjointEigen : ∀ c : Matrix (Fin 2) (Fin 2) ℝ, c 1 0 = c 0 1 →
    ∃ e, m.selfAdjointEigen c = some e ∧
      IsPrincipal (c 0 0) (c 0 1) (c 1 1) e.lambdaMax e.majorAxis ∧
      e.lambdaMin = c 0 0 + c 1 1 - e.lambdaMax

/-- Exact numerics with the eigenvectors in closed form; the two decompositions that no alignment
calls are left without an answer. -/
noncomputable def Numerics.exact : Numerics ℝ where
  pi := Real.pi
  sqrt := Real.sqrt
  sin := Real.sin
  cos := Real.cos
  atan2 y x := heading (x, y)
  hypot x y := Real.sqrt (x * x + y * y)
  smallestEigenvalue _ := none
  selfAdjointEigen c := some
    ⟨c 0 0 + c 1 1 - largerEigenvalue (c 0 0) (c 0 1) (c 1 1),
      largerEigenvalue (c 0 0) (c 0 1) (c 1 1), principalAxis (c 0 0) (c 0 1) (c 1 1)⟩
  jacobiSvd _ := ⟨diag2 1 1, diag2 1 1⟩

theorem Numerics.exact_exact : Numerics.exact.Exact where
  sin := rfl
  cos := rfl
  atan2 _ _ := rfl
  hypot _ _ := rfl
  selfAdjointEigen _ _ := ⟨_, rfl, isPrincipal_principalAxis .., rfl⟩

variable {m : Numerics ℝ}

theorem Numerics.Exact.angleDiff (h : m.Exact) (a b : ℝ) :
    (m.angleDiff a b : Real.Angle) = a - b := by
  unfold Numerics.angleDiff
  rw [h.atan2, h.sin, h.cos, heading_cos_sin, Real.Angle.coe_sub]

theorem Numerics.Exact.rotate (h : m.Exact) (rot dx dy : ℝ) :
    m.rotate rot dx dy = turn rot (dx, dy) := by
  unfold Numerics.rotate turn
  rw [h.sin, h.cos]

section Covariance

theorem pcaCovariance_eq (pts : List (ℝ × ℝ)) :
    pcaCovariance pts = Matrix.of
      ![![covariance pts Prod.fst Prod.fst, covariance pts Prod.fst Prod.snd],
        ![covariance pts Prod.fst Prod.snd, covariance pts Prod.snd Prod.snd]] := by
  unfold pcaCovariance covariance average mean
  simp only [List.length_map]

theorem covariance_map (pts : List (ℝ × ℝ)) (t : ℝ × ℝ → ℝ × ℝ) (f g : ℝ × ℝ → ℝ) :
    covariance (pts.map t) f g = covariance pts (fun p => f (t p)) (fun p => g (t p)) := by
  unfold covariance average
  simp only [List.map_map, List.length_map]
  rfl

/-- The covariances of a rotated track. -/
theorem covariance_turn {pts : List (ℝ × ℝ)} (hne : pts ≠ []) (θ : ℝ) (o : ℝ × ℝ) :
    covariance (pts.map fun p => turn θ (p - o)) Prod.fst Prod.fst =
        Real.cos θ * Real.cos θ * covariance pts Prod.fst Prod.fst -
          2 * (Real.cos θ * Real.sin θ) * covariance pts Prod.fst Prod.snd +
          Real.sin θ * Real.sin θ * covariance pts Prod.snd Prod.snd ∧
      covariance (pts.map fun p => turn θ (p - o)) Prod.fst Prod.snd =
        Real.cos θ * Real.sin θ *
            (covariance pts Prod.fst Prod.fst - covariance pts Prod.snd Prod.snd) +
          (Real.cos θ * Real.cos θ - Real.sin θ * Real.sin θ) *
            covariance pts Prod.fst Prod.snd ∧
      covariance (pts.map fun p => turn θ (p - o)) Prod.snd Prod.snd =
        Real.sin θ * Real.sin θ * covariance pts Prod.fst Prod.fst +
          2 * (Real.cos θ * Real.sin θ) * covariance pts Prod.fst Prod.snd +
          Real.cos θ * Real.cos θ * covariance pts Prod.snd Prod.snd := by
  have hfst : (fun p : ℝ × ℝ => (turn θ (p - o)).1) = fun p =>
      Real.cos θ * p.1 + -Real.sin θ * p.2 + (Real.sin θ * o.2 - Real.cos θ * o.1) := by
    funext p
    simp only [turn, Prod.fst_sub, Prod.snd_sub]
    ring
  have hsnd : (fun p : ℝ × ℝ => (turn θ (p - o)).2) = fun p =>
      Real.sin θ * p.1 + Real.cos θ * p.2 + -(Real.sin θ * o.1 + Real.cos θ * o.2) := by
    funext p
    simp only [turn, Prod.fst_sub, Prod.snd_sub]
    ring
  refine ⟨?_, ?_, ?_⟩
  · rw [covariance_map, hfst, covariance_combo_combo hne]
    ring
  · rw [covariance_map, hfst, hsnd, covariance_combo_combo hne]
    ring
  · rw [covariance_map, hsnd, covariance_combo_combo hne]
    ring

end Covariance

section Pca

variable {θ : ℝ} {pts : List (ℝ × ℝ)} {first last : ℝ × ℝ}

/-- The estimate of a track of at least two points. -/
theorem Numerics.Exact.estimateHeadingPca (h : m.Exact) (h2 : 2 ≤ pts.length)
    (hf : pts.head? = some first) (hl : pts.getLast? = some last) :
    ∃ e, m.selfAdjointEigen (pcaCovariance pts) = some e ∧
      IsPrincipal (covariance pts Prod.fst Prod.fst) (covariance pts Prod.fst Prod.snd)
        (covariance pts Prod.snd Prod.snd) e.lambdaMax e.majorAxis ∧
      Slam.estimateHeadingPca m pts = some (heading (towards (last - first) e.majorAxis),
        e.lambdaMax / max (covariance pts Prod.fst Prod.fst + covariance pts Prod.snd Prod.snd)
          (1 / 10 ^ 9)) := by
  obtain ⟨e, he, hp, hmin⟩ := h.selfAdjointEigen (pcaCovariance pts) (by
    rw [pcaCovariance_eq]
    rfl)
  rw [pcaCovariance_eq] at hp hmin
  refine ⟨e, he, hp, ?_⟩
  have hsum : e.lambdaMax + e.lambdaMin =
      covariance pts Prod.fst Prod.fst + covariance pts Prod.snd Prod.snd := by
    rw [hmin]
    show e.lambdaMax + (covariance pts Prod.fst Prod.fst + covariance pts Prod.snd Prod.snd -
      e.lambdaMax) = _
    ring
  unfold Slam.estimateHeadingPca
  rw [if_neg (by omega), he, hf, hl]
  dsimp only
  rw [hsum, h.atan2]
  rfl

/-- A track that is linear enough has one principal axis. -/
theorem lt_of_linearity {t l : ℝ} (h : 17 / 20 ≤ l / max t (1 / 10 ^ 9)) : t < 2 * l := by
  have hpos : (0 : ℝ) < max t (1 / 10 ^ 9) := lt_max_of_lt_right (by norm_num)
  rw [le_div_iff₀ hpos] at h
  have ht := le_max_left t (1 / 10 ^ 9)
  linarith

/-- The major axis of the odometry track is not across its displacement, or the two signs of the
solver happen to agree. -/
def AxisDecided (m : Numerics ℝ) (θ : ℝ) (gnssPts odomPts : List (ℝ × ℝ)) (d : ℝ × ℝ) : Prop :=
  ∀ eg eo, m.selfAdjointEigen (pcaCovariance gnssPts) = some eg →
    m.selfAdjointEigen (pcaCovariance odomPts) = some eo →
    dot eo.majorAxis d ≠ 0 ∨ eg.majorAxis = turn θ eo.majorAxis

/-- The two headings differ by the rotation between the tracks exactly if their signs are
decided alike. -/
theorem Numerics.Exact.pca_diff (h : m.Exact) (h2 : 2 ≤ pts.length)
    (hf : pts.head? = some first) (hl : pts.getLast? = some last) {g o : ℝ × ℝ}
    (hg : Slam.estimateHeadingPca m (pts.map fun p => turn θ (p - first)) = some g)
    (ho : Slam.estimateHeadingPca m pts = some o) (hlin : 17 / 20 ≤ g.2) :
    (m.angleDiff g.1 o.1 : Real.Angle) = θ ↔
      AxisDecided m θ (pts.map fun p => turn θ (p - first)) pts (last - first) := by
  have hne : pts ≠ [] := by
    rintro rfl
    cases hf
  obtain ⟨eo, heo, hpo, hesto⟩ := h.estimateHeadingPca h2 hf hl
  have hf' : (pts.map fun p => turn θ (p - first)).head? = some (turn θ (first - first)) := by
    rw [List.head?_map, hf]
    rfl
  have hl' : (pts.map fun p => turn θ (p - first)).getLast? = some (turn θ (last - first)) := by
    rw [List.getLast?_map, hl]
    rfl
  obtain ⟨eg, heg, hpg, hestg⟩ := h.estimateHeadingPca (by rwa [List.length_map]) hf' hl'
  obtain rfl := Option.some.inj (hesto.symm.trans ho)
  obtain rfl := Option.some.inj (hestg.symm.trans hg)
  have hlt := lt_of_linearity hlin
  obtain ⟨h00, h01, h11⟩ := covariance_turn hne θ first
  have hturn := hpo.turn θ
  rw [← h00, ← h01, ← h11] at hturn
  have hsign : eg.majorAxis = turn θ eo.majorAxis ∨ eg.majorAxis = -turn θ eo.majorAxis := by
    rcases hpg.eq_or_neg hturn hlt with hs | hs
    · exact Or.inl hs.symm
    · right
      rw [hs, neg_neg]
  have hd : turn θ (last - first) - turn θ (first - first) = turn θ (last - first) := by
    rw [sub_self, turn_zero, sub_zero]
  rw [h.angleDiff, hd, sub_eq_iff_eq_add, heading_towards_iff hpo.ne_zero hsign]
  constructor
  · intro hor eg' eo' hg' ho'
    obtain rfl := Option.some.inj (heg.symm.trans hg')
    obtain rfl := Option.some.inj (heo.symm.trans ho')
    exact hor
  · exact fun hall => hall eg eo heg heo

end Pca

section TwoPoints

variable {θ : ℝ} {front curr : PoseNode ℝ}

/-- The last node is more than half a metre from the first, or the yaw of the first node is the
heading of the motion. -/
def TwoPointsDecided (m : Numerics ℝ) (θ : ℝ) (l : ℝ × ℝ) (front curr : PoseNode ℝ) : Prop :=
  1 / 2 < m.hypot (curr.x - front.x) (curr.y - front.y) ∨
    ((m.atan2 l.2 l.1 - front.yaw : ℝ) : Real.Angle) = θ

/-- The condition on the samples and the first and the last node. -/
def HeadingDecided (m : Numerics ℝ) (θ : ℝ) (gnssPts odomPts : List (ℝ × ℝ)) (l : ℝ × ℝ)
    (front curr : PoseNode ℝ) : Prop :=
  match estimateHeadingPca m gnssPts, estimateHeadingPca m odomPts with
  | some gnssPca, some _ =>
      if 17 / 20 ≤ gnssPca.2 then AxisDecided m θ gnssPts odomPts (curr.pos - front.pos)
      else TwoPointsDecided m θ l front curr
  | _, _ => TwoPointsDecided m θ l front curr

theorem Numerics.Exact.twoPoints (h : m.Exact) :
    (((if 1 / 2 < m.hypot (curr.x - front.x) (curr.y - front.y) then
        m.angleDiff (m.atan2 (turn θ (curr.pos - front.pos)).2 (turn θ (curr.pos - front.pos)).1)
          (m.atan2 (curr.y - front.y) (curr.x - front.x))
      else m.angleDiff
        (m.atan2 (turn θ (curr.pos - front.pos)).2 (turn θ (curr.pos - front.pos)).1) front.yaw :
        ℝ) : Real.Angle)) = θ ↔
      TwoPointsDecided m θ (turn θ (curr.pos - front.pos)) front curr := by
  unfold TwoPointsDecided
  by_cases hfar : 1 / 2 < m.hypot (curr.x - front.x) (curr.y - front.y)
  · rw [if_pos hfar]
    refine iff_of_true ?_ (Or.inl hfar)
    have hne : curr.pos - front.pos ≠ 0 := by
      intro hz
      obtain ⟨hx, hy⟩ := Prod.mk.inj hz
      rw [show curr.x - front.x = 0 from hx, show curr.y - front.y = 0 from hy, h.hypot] at hfar
      norm_num at hfar
    rw [h.angleDiff, h.atan2, h.atan2, heading_turn hne]
    exact add_sub_cancel_right _ _
  · rw [if_neg hfar, or_iff_right hfar, h.angleDiff, Real.Angle.coe_sub]

/-- On a GNSS track that is the odometry track turned by `θ` about the first node, the rotation
found is `θ` exactly if the heading is decided. -/
theorem Numerics.Exact.headingRotation (h : m.Exact) {pts : List (ℝ × ℝ)}
    (hf : pts.head? = some front.pos) (hl : pts.getLast? = some curr.pos) :
    ((Slam.headingRotation m (pts.map fun p => turn θ (p - front.pos)) pts
        (turn θ (curr.pos - front.pos)) front curr : ℝ) : Real.Angle) = θ ↔
      HeadingDecided m θ (pts.map fun p => turn θ (p - front.pos)) pts
        (turn θ (curr.pos - front.pos)) front curr := by
  unfold Slam.headingRotation HeadingDecided
  cases hg : Slam.estimateHeadingPca m (pts.map fun p => turn θ (p - front.pos)) with
  | none => exact h.twoPoints
  | some g =>
      cases ho : Slam.estimateHeadingPca m pts with
      | none => exact h.twoPoints
      | some o =>
          dsimp only
          by_cases hlin : 17 / 20 ≤ g.2
          · rw [if_pos hlin, if_pos hlin]
            have h2 : 2 ≤ pts.length := by
              by_contra hlt
              unfold Slam.estimateHeadingPca at ho
              rw [if_pos (by omega)] at ho
              cases ho
            exact h.pca_diff h2 hf hl hg ho hlin
          · rw [if_neg hlin, if_neg hlin]
            exact h.twoPoints

end TwoPoints

end MgRobot.Slam

import MgRobot.Lib.PositiveDefinite
import MgRobot.Slam.BuilderRuns

/-!
# The information of the edges

Fusion with the odometry and the floor of the links raise diagonal entries, so definite
matches give definite edges. The clamp of a slip lowers one entry and keeps the others.
-/

namespace MgRobot.Slam

set_option autoImplicit false

open MgRobot.Lib.PositiveDefinite MgRobot.Lib.Runs

variable {R : Type*} [Field R] [LinearOrder R]

/-- Every converged match is symmetric and positive definite. -/
structure Matchers.Definite (a : Matchers R) : Prop where
  seqMatch : ∀ guess, (a.seqMatch guess).converged = true → PosDef (a.seqMatch guess).information
  nearMatch : ∀ i guess, (a.nearMatch i guess).converged = true →
    PosDef (a.nearMatch i guess).information

def BuilderCall.Definite : BuilderCall R → Prop
  | .addScan a _ _ => a.Definite
  | .replaceNodes _ => True

/-- No fusion weight is negative. -/
structure OdomFusionConfig.Nonneg (f : OdomFusionConfig R) : Prop where
  x : 0 ≤ f.informationX
  y : 0 ≤ f.informationY
  yaw : 0 ≤ f.informationYaw

/-- The weights are added to the diagonal. -/
def OdomFusionConfig.addTo (f : OdomFusionConfig R) (A : Matrix (Fin 3) (Fin 3) R) :
    Matrix (Fin 3) (Fin 3) R :=
  fun i j => if i = j then A i i + ![f.informationX, f.informationY, f.informationYaw] i else A i j

namespace ScanMatchingBuilder

variable (cfg : SlamConfig R) (m : Numerics R) (a : Matchers R)

def step (b : ScanMatchingBuilder R) : BuilderCall R → Option (ScanMatchingBuilder R)
  | .addScan a scan odom => some (b.addScan cfg m a scan odom).1
  | .replaceNodes nodes => some { b with nodes := nodes }

/-- The guess for a scan that makes a keyframe after the first. -/
def keyframeGuess (b : ScanMatchingBuilder R) (scan : ScanData R) (odom : OdomData R) :
    Option (OdomData R) :=
  match b.nodes.getLast?, b.lastOdom with
  | some _, some last =>
      if belowKeyframe cfg m last odom then none
      else
        let d := m.worldDeltaToLocal (odom.x - last.x) (odom.y - last.y) last.yaw
        some ⟨scan.timestamp, d.1, d.2, m.angleDiff odom.yaw last.yaw⟩
  | _, _ => none

/-- A match along a straight that is too far from the odometry. -/
def Slips (guess : OdomData R) (result : MatchResult R) : Prop :=
  let d := cfg.scanMatching.maxTranslationDrift
  |guess.yaw| < 1 / 20 ∧ |result.dyaw| < 1 / 20 ∧ 0 < d ∧ d < |result.dx - guess.x|

instance (guess : OdomData R) (result : MatchResult R) : Decidable (Slips cfg guess result) :=
  inferInstanceAs (Decidable (_ ∧ _))

/-- The first entry, clamped and fused, is above what the rest of its row takes. -/
def ClampFits (A : Matrix (Fin 3) (Fin 3) R) : Prop :=
  let f := cfg.scanMatching.odomFusion
  A 0 1 * A 0 1 * (A 2 2 + f.informationYaw) - 2 * (A 0 1 * A 0 2 * A 1 2) +
      A 0 2 * A 0 2 * (A 1 1 + f.informationY) <
    (min (A 0 0) 20 + f.informationX) *
      ((A 1 1 + f.informationY) * (A 2 2 + f.informationYaw) - A 1 2 * A 1 2)

instance (A : Matrix (Fin 3) (Fin 3) R) : Decidable (ClampFits cfg A) :=
  inferInstanceAs (Decidable (_ < _))

/-- A match that slips has an information that the clamp leaves definite. -/
def ClampsFit (b : ScanMatchingBuilder R) : BuilderCall R → Prop
  | .addScan a (some scan) odom =>
      ∀ guess ∈ keyframeGuess cfg m b scan odom, a.reference = true →
        (a.seqMatch guess).converged = true → Slips cfg guess (a.seqMatch guess) →
          ClampFits cfg (a.seqMatch guess).information
  | _ => True

instance : ∀ b call, Decidable (ClampsFit cfg m b call)
  | b, .addScan a (some scan) odom =>
      inferInstanceAs (Decidable (∀ guess ∈ keyframeGuess cfg m b scan odom,
        a.reference = true → (a.seqMatch guess).converged = true →
          Slips cfg guess (a.seqMatch guess) → ClampFits cfg (a.seqMatch guess).information))
  | _, .addScan _ none _ => isTrue trivial
  | _, .replaceNodes _ => isTrue trivial

section Matrices

omit [Field R] [LinearOrder R] in
theorem setDiag_self {n : Nat} (A : Matrix (Fin n) (Fin n) R) (i : Fin n) :
    setDiag A i (A i i) = A := by
  funext r c
  unfold setDiag
  split
  · rename_i h
    rw [h.1, h.2]
  · rfl

omit [Field R] [LinearOrder R] in
theorem setDiag_of_ne {n : Nat} (A : Matrix (Fin n) (Fin n) R) (i : Fin n) (x : R) :
    ∀ r c, ¬ (r = i ∧ c = i) → setDiag A i x r c = A r c :=
  fun _ _ h => if_neg h

omit [Field R] [LinearOrder R] in
theorem setDiag_same {n : Nat} (A : Matrix (Fin n) (Fin n) R) (i : Fin n) (x : R) :
    setDiag A i x i i = x := if_pos ⟨rfl, rfl⟩

/-- An axis without a weight is left out, which adds nothing. -/
theorem fuseAxis_information {w : R} (hw : 0 ≤ w) (i : Fin 3) (delta value : R)
    (A : Matrix (Fin 3) (Fin 3) R) : (fuseAxis i w delta value A).2 = setDiag A i (A i i + w) := by
  unfold fuseAxis
  by_cases h : w ≤ 0
  · rw [if_pos h, le_antisymm h hw, add_zero, setDiag_self]
  · rw [if_neg h]

theorem fuseWithOdometry_information (hf : cfg.scanMatching.odomFusion.Nonneg) (dx dy dyaw : R)
    (s : SeqMatch R) : (fuseWithOdometry cfg m dx dy dyaw s).information =
      cfg.scanMatching.odomFusion.addTo s.information := by
  unfold fuseWithOdometry
  dsimp only
  rw [fuseAxis_information hf.yaw, fuseAxis_information hf.y, fuseAxis_information hf.x]
  funext i j
  fin_cases i <;> fin_cases j <;> simp [setDiag, OdomFusionConfig.addTo]

variable [IsStrictOrderedRing R]

theorem posDef_setDiag {n : Nat} {A : Matrix (Fin n) (Fin n) R} (hA : PosDef A) {i : Fin n}
    {x : R} (h : A i i ≤ x) : PosDef (setDiag A i x) :=
  hA.of_le (setDiag_of_ne A i x) (by rwa [setDiag_same])

theorem posDef_addTo {f : OdomFusionConfig R} (hf : f.Nonneg) {A : Matrix (Fin 3) (Fin 3) R}
    (hA : PosDef A) : PosDef (f.addTo A) := by
  have hx := posDef_setDiag hA (i := 0) (le_add_of_nonneg_right hf.x)
  have hy := posDef_setDiag hx (i := 1) (le_add_of_nonneg_right hf.y)
  have hyaw := posDef_setDiag hy (i := 2) (le_add_of_nonneg_right hf.yaw)
  refine cast (congrArg PosDef ?_) hyaw
  funext i j
  fin_cases i <;> fin_cases j <;> simp [setDiag, OdomFusionConfig.addTo]

theorem posDef_diag3 {x y z : R} (hx : 0 < x) (hy : 0 < y) (hz : 0 < z) :
    PosDef (diag3 x y z) := by
  refine posDef_of_diagonal ?_ ?_
  · intro i j hij
    fin_cases i <;> fin_cases j <;> simp_all [diag3, setDiag]
  · intro i
    fin_cases i <;> simp [diag3, setDiag, hx, hy, hz]

/-- The clamp of the first entry, and then the fusion. -/
theorem posDef_clamped_iff (hf : cfg.scanMatching.odomFusion.Nonneg)
    {A : Matrix (Fin 3) (Fin 3) R} (hA : PosDef A) :
    PosDef (cfg.scanMatching.odomFusion.addTo (setDiag A 0 (min (A 0 0) 20))) ↔
      ClampFits cfg A := by
  have hoff : ∀ i j, ¬ (i = 0 ∧ j = 0) →
      cfg.scanMatching.odomFusion.addTo (setDiag A 0 (min (A 0 0) 20)) i j =
        cfg.scanMatching.odomFusion.addTo A i j := by
    intro i j hij
    by_cases h : i = j
    · subst h
      have hi : ¬ (i = 0 ∧ i = 0) := hij
      simp only [OdomFusionConfig.addTo, if_pos, setDiag_of_ne A 0 _ i i hi]
    · simp only [OdomFusionConfig.addTo, if_neg h, setDiag_of_ne A 0 _ i j hij]
  rw [(posDef_addTo hf hA).first_entry_iff hoff]
  simp [OdomFusionConfig.addTo, setDiag, ClampFits]

/-- The sequential edge is definite, if and only if a slipped match leaves it so. -/
theorem posDef_sequentialMatch_iff (hf : cfg.scanMatching.odomFusion.Nonneg) (ha : a.Definite)
    (guess : OdomData R) : PosDef (sequentialMatch cfg m a guess).information ↔
      (a.reference = true → (a.seqMatch guess).converged = true →
        Slips cfg guess (a.seqMatch guess) → ClampFits cfg (a.seqMatch guess).information) := by
  unfold sequentialMatch
  by_cases href : a.reference = true
  · rw [if_pos href]
    dsimp only
    by_cases hconv : (a.seqMatch guess).converged = true
    · have hA := ha.seqMatch guess hconv
      simp only [hconv, href, forall_const, if_true, fuseWithOdometry_information cfg m hf]
      by_cases hslip : Slips cfg guess (a.seqMatch guess)
      · have hclamp : clampDrift cfg guess.x guess.yaw ⟨(a.seqMatch guess).dx,
            (a.seqMatch guess).dy, (a.seqMatch guess).dyaw, (a.seqMatch guess).information,
            (a.seqMatch guess).score, false⟩ = ⟨guess.x, (a.seqMatch guess).dy,
              (a.seqMatch guess).dyaw, setDiag (a.seqMatch guess).information 0
                (min ((a.seqMatch guess).information 0 0) 20), (a.seqMatch guess).score, false⟩ :=
          if_pos hslip
        rw [hclamp, posDef_clamped_iff cfg hf hA]
        exact ⟨fun h _ => h, fun h => h hslip⟩
      · have hclamp : clampDrift cfg guess.x guess.yaw ⟨(a.seqMatch guess).dx,
            (a.seqMatch guess).dy, (a.seqMatch guess).dyaw, (a.seqMatch guess).information,
            (a.seqMatch guess).score, false⟩ = ⟨(a.seqMatch guess).dx, (a.seqMatch guess).dy,
              (a.seqMatch guess).dyaw, (a.seqMatch guess).information, (a.seqMatch guess).score,
              false⟩ :=
          if_neg hslip
        rw [hclamp]
        exact iff_of_true (posDef_addTo hf hA) fun h => absurd h hslip
    · rw [if_neg hconv]
      refine iff_of_true ?_ fun _ h => absurd h hconv
      exact posDef_diag3 (by norm_num) (by norm_num) (by norm_num)
  · rw [if_neg href]
    refine iff_of_true ?_ fun h => absurd h href
    exact posDef_diag3 (by norm_num) (by norm_num) (by norm_num)

/-- A link is as definite as its match. -/
theorem posDef_nearLink (ha : a.Definite) {t : R} {current candidate : PoseNode R}
    {e : PoseEdge R} (h : nearLink cfg m a t current candidate = some e) :
    PosDef e.information := by
  dsimp only [nearLink] at h
  split at h
  · rename_i hg
    obtain rfl := Option.some.inj h
    exact posDef_setDiag (ha.nearMatch _ _ hg.2.1) (le_max_left _ _)
  · cases h

theorem posDef_nearLinks (ha : a.Definite) {nodes : List (PoseNode R)} {current : PoseNode R}
    {e : PoseEdge R} (he : e ∈ nearLinks cfg m a nodes current) : PosDef e.information := by
  dsimp only [nearLinks] at he
  split at he
  · exact absurd he List.not_mem_nil
  · split at he
    · obtain ⟨c, _, hc⟩ := mem_acceptLinks cfg m a he
      exact posDef_nearLink cfg m a ha hc
    · exact absurd he List.not_mem_nil

end Matrices

section Runs

variable [IsStrictOrderedRing R]

/-- Every stored edge has a symmetric positive definite information. -/
def EdgesDefinite (b : ScanMatchingBuilder R) : Prop := ∀ e ∈ b.edges, PosDef e.information

/-- A step from definite edges leads to definite edges, if and only if its clamp fits. -/
theorem edgesDefinite_step_iff (hf : cfg.scanMatching.odomFusion.Nonneg)
    {call : BuilderCall R} (hcall : call.Definite) {b : ScanMatchingBuilder R}
    (hb : EdgesDefinite b) : ∃ b', step cfg m b call = some b' ∧ True ∧
      (EdgesDefinite b' ↔ ClampsFit cfg m b call) := by
  cases call with
  | replaceNodes nodes => exact ⟨_, rfl, trivial, iff_of_true hb trivial⟩
  | addScan a scan odom =>
      refine ⟨_, rfl, trivial, ?_⟩
      unfold addScan
      cases scan with
      | none => exact iff_of_true hb trivial
      | some scan =>
          unfold ClampsFit keyframeGuess
          rcases hp : b.nodes.getLast? with _ | prev
          · exact iff_of_true hb fun _ h => nomatch h
          · cases hl : b.lastOdom with
            | none => exact iff_of_true hb fun _ h => nomatch h
            | some last =>
                dsimp only
                by_cases hk : belowKeyframe cfg m last odom
                · simp only [if_pos hk]
                  exact iff_of_true hb fun _ h => nomatch h
                · simp only [if_neg hk, Option.mem_def, Option.some.injEq, forall_eq']
                  rw [← posDef_sequentialMatch_iff cfg m a hf hcall]
                  unfold EdgesDefinite
                  simp only [List.forall_mem_append, List.forall_mem_cons]
                  constructor
                  · exact fun h => h.2.1
                  · exact fun h => ⟨hb, h, fun e he => posDef_nearLinks cfg m a hcall he⟩

/-- From definite matches, all edges of a run stay definite if and only if every match that slips
along a straight keeps its information definite under the clamp. -/
theorem edges_definite_iff (hf : cfg.scanMatching.odomFusion.Nonneg)
    {calls : List (BuilderCall R)} (hcalls : ∀ call ∈ calls, call.Definite) :
    Always (step cfg m) EdgesDefinite .new calls ↔ Meets (step cfg m) (ClampsFit cfg m) .new calls :=
  always_iff_meets_of_mem (J := fun _ => True)
    (fun _ call hmem _ hb => edgesDefinite_step_iff cfg m hf (hcalls call hmem) hb) trivial
    fun _ he => absurd he List.not_mem_nil

section SlippedMatch

/-- A slip of more than half a metre is clamped, without a fusion. -/
def slipConfig : SlamConfig ℚ :=
  let d : SlamConfig ℚ := .defaults
  { d with
    scanMatching := { d.scanMatching with
      maxTranslationDrift := 1 / 2
      odomFusion := ⟨0, 0, 0⟩
      nearLinks := { d.scanMatching.nearLinks with enabled := false } } }

/-- A converged match a metre behind the odometry. -/
def slippedMatch (information : Matrix (Fin 3) (Fin 3) ℚ) : Matchers ℚ where
  reference := true
  seqMatch := fun guess => ⟨guess.x - 1, guess.y, guess.yaw, true, information, 1⟩
  targetCloud := fun _ => false
  nearMatch := fun _ guess => ⟨guess.x, guess.y, guess.yaw, false, diag3 0 0 0, 0⟩
  sortRank := id
  submap := fun _ => false
  loopMatch := fun _ guess => ⟨guess.x, guess.y, guess.yaw, false, diag3 0 0 0, 0⟩

def twoScans (information : Matrix (Fin 3) (Fin 3) ℚ) : List (BuilderCall ℚ) :=
  (List.range 2).map fun i : Nat => .addScan (slippedMatch information) (some ⟨i⟩) ⟨i, i, 0, 0⟩

theorem slippedMatch_definite {information : Matrix (Fin 3) (Fin 3) ℚ} (h : PosDef information) :
    ∀ call ∈ twoScans information, call.Definite := by
  intro call hcall
  obtain ⟨i, _, rfl⟩ := List.mem_map.mp hcall
  exact ⟨fun _ _ => h, fun _ _ hconv => absurd hconv Bool.false_ne_true⟩

theorem edges_definite_diagonal :
    slipConfig.scanMatching.odomFusion.Nonneg ∧
      Always (step slipConfig .axis) EdgesDefinite .new (twoScans (diag3 100 100 100)) := by
  have hf : slipConfig.scanMatching.odomFusion.Nonneg :=
    ⟨by decide +kernel, by decide +kernel, by decide +kernel⟩
  have hdiag : PosDef (diag3 100 100 100 : Matrix (Fin 3) (Fin 3) ℚ) :=
    posDef_diag3 (by norm_num) (by norm_num) (by norm_num)
  exact ⟨hf, (edges_definite_iff slipConfig .axis hf (slippedMatch_definite hdiag)).mpr
    (by decide +kernel)⟩

/-- A match of a scan along a diagonal wall: information `1000` across it and `20` along it. -/
def diagonalWall : Matrix (Fin 3) (Fin 3) ℚ := ![![510, 490, 0], ![490, 510, 0], ![0, 0, 100]]

theorem diagonalWall_posDef : PosDef diagonalWall := by
  have hdiag : PosDef (diag3 (20 : ℚ) 20 100) :=
    posDef_diag3 (by norm_num) (by norm_num) (by norm_num)
  have hsymm : ∀ i j, diagonalWall i j = diagonalWall j i := by
    intro i j
    fin_cases i <;> fin_cases j <;> rfl
  refine ⟨hsymm, fun v hv => ?_⟩
  have hpos := hdiag.pos v hv
  rw [quad_three hdiag.symm] at hpos
  rw [quad_three hsymm]
  simp [diag3, setDiag, diagonalWall] at hpos ⊢
  linarith [mul_self_nonneg (v 0 + v 1)]

/-- The clamp leaves `20` and `510` on the diagonal and `490` beside it. -/
theorem clamp_breaks_definite :
    (∀ call ∈ twoScans diagonalWall, call.Definite) ∧
      ¬ Always (step slipConfig .axis) EdgesDefinite .new (twoScans diagonalWall) := by
  have hcalls := slippedMatch_definite diagonalWall_posDef
  refine ⟨hcalls, fun h => ?_⟩
  have hf : slipConfig.scanMatching.odomFusion.Nonneg :=
    ⟨by decide +kernel, by decide +kernel, by decide +kernel⟩
  rw [always_iff_meets_of_mem (J := fun _ => True) (fun _ call hmem _ hb =>
    edgesDefinite_step_iff slipConfig .axis hf (hcalls call hmem) hb) trivial
    fun _ he => absurd he List.not_mem_nil] at h
  exact absurd h (by decide +kernel)

end SlippedMatch

end Runs

end ScanMatchingBuilder

end MgRobot.Slam

import MgRobot.Lib.RigidAlignment
import MgRobot.Slam.ExactAlignment
import MgRobot.Slam.FrameInvariant

/-!
# What the residual of a re-anchoring measures

Once a re-anchoring has been accepted, the anchor in force is the one that the samples
asked for, and the samples are kept with it, over every run. The residual that is
checked belongs to a turn and a shift, the best there are for the samples. The shift
becomes the anchor and the turn is dropped, so the positions that `to_local` gives from
then on are off by the turn as well.
-/

namespace MgRobot.Slam.GraphOrchestrator

set_option autoImplicit false

open MgRobot.Lib.Runs

variable {R : Type*}

/-- What the re-anchoring reads and sets is the same. -/
structure SameAnchoring (o o' : GraphOrchestrator R) : Prop where
  state : o'.state = o.state
  anchor : o'.anchor = o.anchor
  samples : o'.reanchorSamples = o.reanchorSamples
  reanchored : o'.dynamicReanchored = o.dynamicReanchored

theorem SameAnchoring.refl (o : GraphOrchestrator R) : SameAnchoring o o := ⟨rfl, rfl, rfl, rfl⟩

theorem SameAnchoring.trans {o o' o'' : GraphOrchestrator R} (h : SameAnchoring o o')
    (h' : SameAnchoring o' o'') : SameAnchoring o o'' :=
  ⟨h'.state.trans h.state, h'.anchor.trans h.anchor, h'.samples.trans h.samples,
    h'.reanchored.trans h.reanchored⟩

variable [Field R] [LinearOrder R] {cfg : SlamConfig R} {m : Numerics R}
variable {o o' : GraphOrchestrator R} {f : Frame R} {node : PoseNode R}

/-! ## The stages of a frame -/

omit [LinearOrder R] in
theorem addLatestSeqEdge_sameAnchoring (m : Numerics R) (o : GraphOrchestrator R)
    (node : PoseNode R) (es : List (PoseEdge R)) :
    SameAnchoring o (o.addLatestSeqEdge m node es).1 := by
  obtain ⟨opt, i, heq⟩ := addLatestSeqEdge_fst m o node es
  rw [heq]
  exact ⟨rfl, rfl, rfl, rfl⟩

omit [Field R] [LinearOrder R] in
theorem addNewLoopEdges_sameAnchoring (o : GraphOrchestrator R) (es : List (PoseEdge R)) :
    SameAnchoring o (o.addNewLoopEdges es).1 := by
  obtain ⟨opt, n, heq⟩ := addNewLoopEdges_fst o es
  rw [heq]
  exact ⟨rfl, rfl, rfl, rfl⟩

theorem addGnssPrior_sameAnchoring (cfg : SlamConfig R) (m : Numerics R)
    (o : GraphOrchestrator R) (node : PoseNode R) (frame : SensorFrame R) :
    SameAnchoring o (o.addGnssPrior cfg m frame node).1 := by
  unfold addGnssPrior
  split
  · split
    · exact ⟨rfl, rfl, rfl, rfl⟩
    · exact .refl o
  · exact .refl o

omit [LinearOrder R] in
theorem initializeOptimizerIfNeeded_sameAnchoring {isam2 : Isam2 R}
    (h : o.initializeOptimizerIfNeeded isam2 node = some o') : SameAnchoring o o' := by
  unfold initializeOptimizerIfNeeded at h
  split at h
  · obtain rfl := Option.some.inj h
    exact .refl o
  · obtain ⟨opt, _, rfl⟩ := Option.map_eq_some_iff.mp h
    exact ⟨rfl, rfl, rfl, rfl⟩

/-- In a started orchestrator the GNSS initialisation has nothing to do. -/
theorem initializeWithGnssIfReady_running (frame : SensorFrame R) (h : o.state = .running) :
    initializeWithGnssIfReady cfg m o frame = o := by
  rcases initializeWithGnssIfReady_cases (m := m) (o := o) frame with
    ⟨_, _, _, _, hsame⟩ | ⟨_, _, _, _, _, _, hinit, _⟩
  · exact hsame h
  · exact absurd (hinit.symm.trans h) nofun

theorem initializeWithGnssIfReady_reanchored (frame : SensorFrame R) :
    (initializeWithGnssIfReady cfg m o frame).dynamicReanchored = o.dynamicReanchored := by
  rcases initializeWithGnssIfReady_cases (m := m) (o := o) frame with
    ⟨_, _, _, heq, _⟩ | ⟨_, _, _, _, _, _, _, _, _, _, heq⟩
  · rw [heq]
  · rw [heq]
    rfl

/-- The stages of a frame after the initialisation, apart from the re-anchoring. -/
theorem processNode_sameAnchoring {r : ScanProcessResult R}
    (h : o.processNode cfg m f node = some (o', r)) :
    ∃ o₁, SameAnchoring o o₁ ∧ SameAnchoring (o₁.tryDynamicReanchor cfg m node f.sensor).1 o' := by
  unfold processNode at h
  obtain ⟨opt, _, heq⟩ := Option.map_eq_some_iff.mp h
  obtain ⟨rfl, _⟩ := Prod.mk.inj heq
  refine ⟨_, (addLatestSeqEdge_sameAnchoring m o node o.poseGraph.getEdges).trans
    (addNewLoopEdges_sameAnchoring _ o.poseGraph.getEdges), ?_⟩
  exact (addGnssPrior_sameAnchoring cfg m _ _ f.sensor).trans ⟨rfl, rfl, rfl, rfl⟩

/-- A frame that gets past the initialisation. -/
theorem processFrame_of_entry {o₁ : GraphOrchestrator R} {r : ScanProcessResult R}
    (he : o.entry cfg m f = some (o₁, node)) (hn : o₁.processNode cfg m f node = some (o', r)) :
    o.processFrame cfg m f = some (o', r) := by
  unfold entry at he
  unfold processFrame
  rcases hadd : o.poseGraph.addScan cfg m f.matchers f.sensor.scan f.sensor.odom with
    ⟨poseGraph, _ | entered⟩
  · simp only [hadd] at he
    exact absurd he nofun
  · simp only [hadd] at he ⊢
    cases hstate :
        (initializeWithGnssIfReady cfg m { o with poseGraph := poseGraph } f.sensor).state with
    | initializing =>
      simp only [hstate] at he
      exact absurd he nofun
    | running =>
      simp only [hstate] at he ⊢
      obtain ⟨o₂, hopt, heq⟩ := Option.map_eq_some_iff.mp he
      obtain ⟨rfl, rfl⟩ := Prod.mk.inj heq
      exact Option.bind_eq_some_iff.mpr ⟨o₂, hopt, hn⟩

omit [Field R] [LinearOrder R] in
/-- Keeping the values never fails. -/
theorem exists_update_keepValues (o : ISAM2Optimizer R) : ∃ o', o.update keepValues = some o' := by
  unfold ISAM2Optimizer.update
  split
  · exact ⟨o, rfl⟩
  · exact ⟨_, rfl⟩

/-- Nor does a frame whose node got past the initialisation. -/
theorem exists_processNode (cfg : SlamConfig R) (m : Numerics R) (o : GraphOrchestrator R)
    (node : PoseNode R) (hf : f.isam2 = keepValues) :
    ∃ o' r, o.processNode cfg m f node = some (o', r) := by
  unfold processNode
  rw [hf]
  obtain ⟨opt, hopt⟩ := exists_update_keepValues (R := R) _
  exact ⟨_, _, Option.map_eq_some_iff.mpr ⟨opt, hopt, rfl⟩⟩

/-- A running orchestrator gets a node past the initialisation. -/
theorem exists_entry_of_running {b : PoseGraphBuilder R}
    (hadd : o.poseGraph.addScan cfg m f.matchers f.sensor.scan f.sensor.odom = (b, some node))
    (hrun : o.state = .running) (hf : f.isam2 = keepValues) :
    ∃ o', o.entry cfg m f = some (o', node) ∧ SameAnchoring o o' := by
  have hstay : initializeWithGnssIfReady cfg m { o with poseGraph := b } f.sensor =
      { o with poseGraph := b } := initializeWithGnssIfReady_running f.sensor hrun
  obtain ⟨o', ho'⟩ : ∃ o', initializeOptimizerIfNeeded { o with poseGraph := b } f.isam2 node =
      some o' := by
    unfold initializeOptimizerIfNeeded
    split
    · exact ⟨_, rfl⟩
    · obtain ⟨opt, hopt⟩ := exists_update_keepValues
        (ISAM2Optimizer.initializeAt node.index node.pose (1 / 20) 10)
      rw [hf, hopt]
      exact ⟨_, rfl⟩
  have hsame := initializeOptimizerIfNeeded_sameAnchoring ho'
  refine ⟨o', ?_, hsame.state, hsame.anchor, hsame.samples, hsame.reanchored⟩
  unfold entry
  rw [hadd]
  dsimp only
  rw [hstay]
  rw [hrun] at ho' ⊢
  dsimp only
  rw [ho']
  rfl

/-! ## Runs -/

/-- A re-anchoring that has been accepted is in force. -/
def Installed (cfg : SlamConfig R) (m : Numerics R) (o : GraphOrchestrator R) : Prop :=
  o.dynamicReanchored = true →
    o.state = .running ∧ ∃ anchor, o.anchor = some anchor ∧
      reanchorTarget cfg m o.reanchorSamples = some anchor

omit [Field R] in
theorem Installed.of_same [Field R] (h : Installed cfg m o) (hs : SameAnchoring o o') :
    Installed cfg m o' := by
  intro hre
  rw [hs.reanchored] at hre
  rw [hs.state, hs.anchor, hs.samples]
  exact h hre

theorem Installed.tryDynamicReanchor (h : Installed cfg m o) (hrun : o.state = .running)
    (frame : SensorFrame R) : Installed cfg m (o.tryDynamicReanchor cfg m node frame).1 := by
  by_cases hre : o.dynamicReanchored = true
  · have hfix : o.reanchorFix cfg m frame = none := by
      unfold reanchorFix
      rw [if_neg]
      rintro ⟨_, _, hfalse, _⟩
      rw [hre] at hfalse
      exact absurd hfalse nofun
    unfold GraphOrchestrator.tryDynamicReanchor
    rw [hfix]
    exact h
  · unfold GraphOrchestrator.tryDynamicReanchor
    split
    · exact h
    · dsimp only
      split
      · exact fun hafter => absurd hafter hre
      · rename_i g _ anchor htarget
        exact fun _ => ⟨hrun, anchor, rfl, htarget⟩

theorem Installed.step (h : Installed cfg m o) (hs : o.step cfg m f = some o') :
    Installed cfg m o' := by
  obtain ⟨⟨v, r⟩, hf, rfl⟩ := Option.map_eq_some_iff.mp hs
  dsimp only
  unfold processFrame at hf
  split at hf
  · obtain ⟨rfl, _⟩ := Prod.mk.inj (Option.some.inj hf)
    exact h.of_same ⟨rfl, rfl, rfl, rfl⟩
  · rename_i poseGraph entered _
    have hgraph : Installed cfg m { o with poseGraph := poseGraph } :=
      h.of_same ⟨rfl, rfl, rfl, rfl⟩
    have hinit : Installed cfg m
        ({ o with poseGraph := poseGraph }.initializeWithGnssIfReady cfg m f.sensor) := by
      intro hre
      rw [initializeWithGnssIfReady_reanchored] at hre
      rw [initializeWithGnssIfReady_running f.sensor (hgraph hre).1]
      exact hgraph hre
    dsimp only at hf
    split at hf
    · obtain ⟨rfl, _⟩ := Prod.mk.inj (Option.some.inj hf)
      exact hinit
    · rename_i hrun
      obtain ⟨o₁, ho₁, hnode⟩ := Option.bind_eq_some_iff.mp hf
      have hsame := initializeOptimizerIfNeeded_sameAnchoring ho₁
      obtain ⟨o₂, hto, hfrom⟩ := processNode_sameAnchoring hnode
      have hinstalled := (hinit.of_same hsame).of_same hto
      have hrunning : o₂.state = .running := hto.state.trans (hsame.state.trans hrun)
      exact (hinstalled.tryDynamicReanchor hrunning f.sensor).of_same hfrom

/-- Over every run, an accepted re-anchoring is in force with its samples. -/
theorem installed_of_run {fs : List (Frame R)} (hr : exec (step cfg m) (new cfg) fs = some o) :
    Installed cfg m o :=
  invariant_of_step (fun _ _ _ h hs => h.step hs) (fun h => Bool.noConfusion h) hr

end MgRobot.Slam.GraphOrchestrator

namespace MgRobot.Slam

set_option autoImplicit false

open MgRobot.Lib.Runs MgRobot.Lib.Plane GraphOrchestrator

/-- The square root and the singular value decomposition are exact. -/
structure Numerics.ExactSvd (m : Numerics ℝ) : Prop where
  sqrt : m.sqrt = Real.sqrt
  jacobiSvd : ∀ h, IsSvd (m.jacobiSvd h).matrixU (m.jacobiSvd h).matrixV h

section Samples

variable {R : Type*} [Field R]

/-- What is between the position of a sample's fix after the re-anchoring and its SLAM position. -/
def installedResidual (anchor : R × R) (s : ReanchorSample R) : R × R :=
  (s.utmPos - anchor) - s.slamPos

def meanPoint (ps : List (R × R)) : R × R := (mean (ps.map (·.1)), mean (ps.map (·.2)))

abbrev slamMean (samples : List (ReanchorSample R)) : R × R :=
  meanPoint (samples.map (·.slamPos))

abbrev utmMean (samples : List (ReanchorSample R)) : R × R :=
  meanPoint (samples.map (·.utmPos))

/-- `H`. -/
def crossCovariance (samples : List (ReanchorSample R)) (p₀ q₀ : R × R) :
    Matrix (Fin 2) (Fin 2) R :=
  let h i j := (samples.map fun s => i (s.slamPos - p₀) * j (s.utmPos - q₀)).sum
  Matrix.of
    ![![h Prod.fst Prod.fst, h Prod.fst Prod.snd], ![h Prod.snd Prod.fst, h Prod.snd Prod.snd]]

end Samples

/-- The same, from the SLAM position turned by `θ`. -/
noncomputable def turnedResidual (θ : ℝ) (anchor : ℝ × ℝ) (s : ReanchorSample ℝ) : ℝ × ℝ :=
  (s.utmPos - anchor) - turn θ s.slamPos

/-- The pairs that the alignment takes to each other. -/
def pairs (samples : List (ReanchorSample ℝ)) : List ((ℝ × ℝ) × (ℝ × ℝ)) :=
  samples.map fun s => (s.slamPos, s.utmPos)

variable {cfg : SlamConfig ℝ} {m : Numerics ℝ} {samples : List (ReanchorSample ℝ)}

/-! ## The matrices of the alignment -/

theorem mul2_eq (s t : Matrix (Fin 2) (Fin 2) ℝ) : mul2 s t = s * t := by
  ext i j
  rw [Matrix.mul_apply, Fin.sum_univ_two]
  rfl

theorem diag2_eq (a b : ℝ) : diag2 a b = Matrix.diagonal ![a, b] := by
  ext i j
  fin_cases i <;> fin_cases j
  · simp [diag2, setDiag]
  · simp [diag2, setDiag]
  · simp [diag2, setDiag]
  · simp [diag2, setDiag]

theorem apply2_turnMatrix (θ : ℝ) (p : ℝ × ℝ) : apply2 (turnMatrix θ) p = turn θ p := by
  simp [apply2, turnMatrix, turn, sub_eq_add_neg]

theorem alignmentRotation_eq (m : Numerics ℝ) (samples : List (ReanchorSample ℝ))
    (p₀ q₀ : ℝ × ℝ) : alignmentRotation m samples p₀ q₀ =
    nearestRotation (m.jacobiSvd (crossCovariance samples p₀ q₀)).matrixU
      (m.jacobiSvd (crossCovariance samples p₀ q₀)).matrixV := by
  unfold alignmentRotation nearestRotation
  dsimp only
  rw [mul2_eq, mul2_eq, mul2_eq, diag2_eq, Matrix.det_fin_two]
  rfl

theorem inPhase_eq (p₀ q₀ : ℝ × ℝ) : inPhase (pairs samples) p₀ q₀ =
    crossCovariance samples p₀ q₀ 0 0 + crossCovariance samples p₀ q₀ 1 1 := by
  simp [inPhase, pairs, crossCovariance, dot, Function.comp_def, List.sum_map_add]

theorem quadrature_eq (p₀ q₀ : ℝ × ℝ) : quadrature (pairs samples) p₀ q₀ =
    crossCovariance samples p₀ q₀ 0 1 - crossCovariance samples p₀ q₀ 1 0 := by
  rw [quadrature, sum_map_sub]
  simp [pairs, crossCovariance, Function.comp_def]

/-! ## Means -/

theorem sum_sub_mean (xs : List ℝ) : (xs.map fun x => x - mean xs).sum = 0 := by
  rw [sum_map_sub, List.map_id', List.map_const', List.sum_replicate, nsmul_eq_mul, mean]
  cases xs with
  | nil => simp
  | cons x xs =>
      have hne : (((x :: xs).length : ℕ) : ℝ) ≠ 0 := Nat.cast_ne_zero.mpr (by simp)
      field_simp
      ring

theorem sum_sub_meanPoint (ps : List (ℝ × ℝ)) : (ps.map fun p => p - meanPoint ps).sum = 0 := by
  have hfst := sum_sub_mean (ps.map (·.1))
  have hsnd := sum_sub_mean (ps.map (·.2))
  rw [List.map_map] at hfst hsnd
  ext
  · exact (map_list_sum (AddMonoidHom.fst ℝ ℝ) _).trans ((congrArg List.sum (List.map_map ..)).trans hfst)
  · exact (map_list_sum (AddMonoidHom.snd ℝ ℝ) _).trans ((congrArg List.sum (List.map_map ..)).trans hsnd)

/-! ## The target -/

/-- The target by the turn that is fitted. -/
theorem reanchorTarget_eq {θ : ℝ} (hm : m.ExactSvd)
    (hθ : alignmentRotation m samples (slamMean samples) (utmMean samples) = turnMatrix θ) :
    reanchorTarget cfg m samples =
      if (samples.length : Int) < cfg.gnss.dynamicReanchor.minSamples ∨
          maxSpan m samples < cfg.gnss.dynamicReanchor.minDistanceM then none
      else if cfg.gnss.dynamicReanchor.maxResidualRmsM < rms ((pairs samples).map
          (misfit θ (utmMean samples - turn θ (slamMean samples)))) then none
      else some (utmMean samples - turn θ (slamMean samples)) := by
  have hslam : (mean (samples.map (·.slamPos.1)), mean (samples.map (·.slamPos.2))) =
      slamMean samples := by simp [slamMean, meanPoint, Function.comp_def]
  have hutm : (mean (samples.map (·.utmPos.1)), mean (samples.map (·.utmPos.2))) =
      utmMean samples := by simp [utmMean, meanPoint, Function.comp_def]
  unfold reanchorTarget
  dsimp only
  rw [hslam, hutm, hθ, hm.sqrt]
  simp only [rms, sumSq, pairs, List.map_map, List.length_map, misfit, dot, Function.comp_def,
    apply2_turnMatrix]

theorem reanchorTarget_eq_some {anchor : ℝ × ℝ} {θ : ℝ} (hm : m.ExactSvd)
    (hθ : alignmentRotation m samples (slamMean samples) (utmMean samples) = turnMatrix θ)
    (h : reanchorTarget cfg m samples = some anchor) :
    anchor = utmMean samples - turn θ (slamMean samples) ∧
      rms ((pairs samples).map (misfit θ anchor)) ≤ cfg.gnss.dynamicReanchor.maxResidualRmsM := by
  rw [reanchorTarget_eq hm hθ] at h
  split at h
  · exact absurd h nofun
  · split at h
    · exact absurd h nofun
    · rename_i hle
      obtain rfl := Option.some.inj h
      exact ⟨rfl, not_lt.mp hle⟩

/-! ## The residuals -/

/-- The fitted rotation is a turn, and no turn and shift fit better. -/
theorem exists_best_turn (hm : m.ExactSvd) (samples : List (ReanchorSample ℝ)) :
    ∃ θ, alignmentRotation m samples (slamMean samples) (utmMean samples) = turnMatrix θ ∧
      ∀ θ' shift, rms ((pairs samples).map (misfit θ (utmMean samples - turn θ (slamMean samples)))) ≤
        rms ((pairs samples).map (misfit θ' shift)) := by
  have hsvd := hm.jacobiSvd (crossCovariance samples (slamMean samples) (utmMean samples))
  have hr := alignmentRotation_eq m samples (slamMean samples) (utmMean samples)
  have hturn := eq_turnMatrix (nearestRotation_orthogonal hsvd.left hsvd.right)
    (det_nearestRotation hsvd.left hsvd.right)
  obtain ⟨hphase, hnonneg⟩ := hsvd.inPhase hturn
  rw [← inPhase_eq, ← quadrature_eq] at hphase hnonneg
  refine ⟨_, hr.trans hturn, rms_misfit_le ?_ ?_ hphase hnonneg⟩
  · have h := sum_sub_meanPoint (samples.map (·.slamPos))
    rw [List.map_map] at h
    rw [pairs, List.map_map]
    exact h
  · have h := sum_sub_meanPoint (samples.map (·.utmPos))
    rw [List.map_map] at h
    rw [pairs, List.map_map]
    exact h

/-- Enough samples, far enough apart, that some turn and shift fit within the bound. -/
theorem exists_reanchorTarget (hm : m.ExactSvd) {θ : ℝ} {shift : ℝ × ℝ}
    (hmany : cfg.gnss.dynamicReanchor.minSamples ≤ samples.length)
    (hfar : cfg.gnss.dynamicReanchor.minDistanceM ≤ maxSpan m samples)
    (hfit : rms ((pairs samples).map (misfit θ shift)) ≤
      cfg.gnss.dynamicReanchor.maxResidualRmsM) :
    ∃ anchor, reanchorTarget cfg m samples = some anchor := by
  obtain ⟨θ₀, hθ₀, hbest⟩ := exists_best_turn hm samples
  rw [reanchorTarget_eq hm hθ₀, if_neg (not_or.mpr ⟨not_lt.mpr hmany, not_lt.mpr hfar⟩),
    if_neg (not_lt.mpr ((hbest θ shift).trans hfit))]
  exact ⟨_, rfl⟩

theorem rms_turnedResidual (θ : ℝ) (anchor : ℝ × ℝ) :
    rms (samples.map (turnedResidual θ anchor)) = rms ((pairs samples).map (misfit θ anchor)) := by
  rw [pairs, List.map_map]
  refine (rms_of_dot samples _ _ zero_le_one fun s _ => ?_).trans (one_mul _)
  simp only [turnedResidual, misfit, dot, Function.comp_apply, Prod.fst_sub, Prod.snd_sub,
    Prod.fst_add, Prod.snd_add]
  ring

/-- Dropping the turn costs at most what it moves the samples. -/
theorem rms_installedResidual_le (samples : List (ReanchorSample ℝ)) (θ : ℝ)
    (anchor : ℝ × ℝ) :
    rms (samples.map (installedResidual anchor)) ≤ rms (samples.map (turnedResidual θ anchor)) +
      2 * |Real.sin (θ / 2)| * rms (samples.map (·.slamPos)) := by
  have hsplit : samples.map (installedResidual anchor) =
      samples.map fun s => turnedResidual θ anchor s + (turn θ s.slamPos - s.slamPos) := by
    refine List.map_congr_left fun s _ => ?_
    rw [installedResidual, turnedResidual]
    abel
  rw [hsplit, ← rms_turn_sub samples (·.slamPos) θ]
  exact rms_add_le samples _ _

/-- Over every run, when a re-anchoring has been accepted: the residual within the bound is that
of the new anchor together with the fitted turn `θ`, the best alignment of the samples that there
is. The positions that `to_local` gives for the samples from then on are within the bound up to what the
turn moves them by. -/
theorem reanchor_residual (hm : m.ExactSvd) {fs : List (Frame ℝ)} {o : GraphOrchestrator ℝ}
    (hr : exec (step cfg m) (new cfg) fs = some o) (hre : o.dynamicReanchored = true) :
    ∃ anchor θ, o.anchor = some anchor ∧
      alignmentRotation m o.reanchorSamples (slamMean o.reanchorSamples)
        (utmMean o.reanchorSamples) = turnMatrix θ ∧
      rms (o.reanchorSamples.map (turnedResidual θ anchor)) ≤
        cfg.gnss.dynamicReanchor.maxResidualRmsM ∧
      (∀ θ' anchor', rms (o.reanchorSamples.map (turnedResidual θ anchor)) ≤
        rms (o.reanchorSamples.map (turnedResidual θ' anchor'))) ∧
      rms (o.reanchorSamples.map (installedResidual anchor)) ≤
        cfg.gnss.dynamicReanchor.maxResidualRmsM +
          2 * |Real.sin (θ / 2)| * rms (o.reanchorSamples.map (·.slamPos)) := by
  obtain ⟨_, anchor, hanchor, htarget⟩ := installed_of_run hr hre
  obtain ⟨θ, hθ, hbest⟩ := exists_best_turn hm o.reanchorSamples
  obtain ⟨heq, hle⟩ := reanchorTarget_eq_some hm hθ htarget
  rw [← heq] at hbest
  have hturned : rms (o.reanchorSamples.map (turnedResidual θ anchor)) ≤
      cfg.gnss.dynamicReanchor.maxResidualRmsM := by
    rw [rms_turnedResidual]
    exact hle
  refine ⟨anchor, θ, hanchor, hθ, hturned, fun θ' anchor' => ?_, ?_⟩
  · rw [rms_turnedResidual, rms_turnedResidual]
    exact hbest θ' anchor'
  · have hdrop := rms_installedResidual_le o.reanchorSamples θ anchor
    linarith

/-! ## Two fixes across the graph -/

noncomputable def Numerics.exactSvd : Numerics ℝ :=
  { Numerics.exact with
    jacobiSvd := fun h => ⟨(exists_isSvd h).choose, (exists_isSvd h).choose_spec.choose⟩ }

theorem Numerics.exactSvd_exactSvd : Numerics.exactSvd.ExactSvd where
  sqrt := rfl
  jacobiSvd h := (exists_isSvd h).choose_spec.choose_spec

/-- The first fix turns the graph, by nothing; two samples two metres apart are enough for a
re-anchoring. -/
noncomputable def acrossConfig : SlamConfig ℝ :=
  { lineConfig with
    gnss := { lineConfig.gnss with
      anchor := { lineConfig.gnss.anchor with initDistanceM := 0 }
      dynamicReanchor := ⟨true, 2, 2, 2, 1⟩ } }

noncomputable def acrossFrame (x y : ℝ) : Frame ℝ := lineFrame x (some (fixAt (0, y) 2))

/-- Three metres along the first axis, and fixes three metres apart along the second. -/
noncomputable def acrossFrames : List (Frame ℝ) := [acrossFrame 0 0, acrossFrame 3 3]

noncomputable def acrossSamples : List (ReanchorSample ℝ) := [⟨(0, 0), (0, 0)⟩, ⟨(3, 0), (0, 3)⟩]

noncomputable def firstGraph : PoseGraphBuilder ℝ :=
  .odomOnly ⟨[lineNode 0 0], [], some ⟨0, 0, 0, 0⟩⟩

/-- The orchestrator whose graph the first fix has turned. -/
noncomputable def acrossStart : GraphOrchestrator ℝ :=
  alignedAt acrossConfig .exactSvd { new acrossConfig with poseGraph := firstGraph }
    (fixAt (0, 0) 2) (0, 0) (lineNode 0 0) (lineNode 0 0)

theorem across_entry : (new acrossConfig).entry acrossConfig .exactSvd (acrossFrame 0 0) =
    some (acrossStart, lineNode 0 0) := by
  apply entry_of_alignFix rfl rfl rfl rfl rfl
  -- every fix is at least 0 metres from the anchor
  have hfar : ¬ Numerics.exactSvd.hypot ((fixAt (0, 0) 2).toLocal (0, 0)).1
      ((fixAt (0, 0) 2).toLocal (0, 0)).2 < acrossConfig.gnss.anchor.initDistanceM :=
    not_lt.mpr (Real.sqrt_nonneg _)
  exact if_neg hfar

/-- One point gives no heading, and a robot that has not moved keeps its own. -/
theorem headingRotation_across :
    headingRotation .exactSvd [(fixAt (0, 0) 2).toLocal (0, 0)] [(0, 0)]
      ((fixAt (0, 0) 2).toLocal (0, 0)) (lineNode 0 0) (lineNode 0 0) = 0 := by
  have hnear : ¬ 1 / 2 < Numerics.exactSvd.hypot ((lineNode 0 0).x - (lineNode 0 0).x)
      ((lineNode 0 0).y - (lineNode 0 0).y) := by
    show ¬ 1 / 2 < Real.sqrt ((0 - 0) * (0 - 0) + (0 - 0) * (0 - 0))
    norm_num
  have htheta : heading ((0 : ℝ) - 0, (0 : ℝ) - 0) = 0 := by
    rw [sub_self]
    exact Complex.arg_zero
  refine (if_neg hnear).trans ?_
  show heading (Real.cos (heading (0 - 0, 0 - 0) - 0), Real.sin (heading (0 - 0, 0 - 0) - 0)) = 0
  rw [htheta, sub_zero, Real.cos_zero, Real.sin_zero, heading_one]

theorem acrossStart_poseGraph : acrossStart.poseGraph = firstGraph := by
  show PoseGraphBuilder.replaceNodes (Numerics.exactSvd.rebaseAndRotateNodes [lineNode 0 0]
    (headingRotation .exactSvd [(fixAt (0, 0) 2).toLocal (0, 0)] [(0, 0)]
      ((fixAt (0, 0) 2).toLocal (0, 0)) (lineNode 0 0) (lineNode 0 0))) firstGraph = firstGraph
  rw [headingRotation_across]
  simp [Numerics.rebaseAndRotateNodes, Numerics.rotate, PoseGraphBuilder.replaceNodes, firstGraph,
    lineNode]

theorem acrossStart_pendingValues :
    acrossStart.optimizer.pendingValues = [(0, (lineNode 0 0).pose)] := by
  show [(0, (⟨0, 0, 0 + headingRotation .exactSvd [(fixAt (0, 0) 2).toLocal (0, 0)] [(0, 0)]
      ((fixAt (0, 0) 2).toLocal (0, 0)) (lineNode 0 0) (lineNode 0 0)⟩ : Pose ℝ))] = _
  rw [headingRotation_across, add_zero]
  rfl

section Single

variable {R : Type*} [Field R] [LinearOrder R] {cfg : SlamConfig R} {m : Numerics R}
variable {o o' : GraphOrchestrator R} {node : PoseNode R}

/-- What a frame without edges reads of the orchestrator before it is solved. -/
structure SamePending (o o' : GraphOrchestrator R) : Prop where
  poseGraph : o'.poseGraph = o.poseGraph
  initialized : o'.optimizer.initialized = o.optimizer.initialized
  pendingValues : o'.optimizer.pendingValues = o.optimizer.pendingValues

theorem tryDynamicReanchor_samePending (cfg : SlamConfig R) (m : Numerics R)
    (o : GraphOrchestrator R) (node : PoseNode R) (frame : SensorFrame R) :
    SamePending o (o.tryDynamicReanchor cfg m node frame).1 := by
  unfold tryDynamicReanchor
  split
  · exact ⟨rfl, rfl, rfl⟩
  · dsimp only
    split
    · exact ⟨rfl, rfl, rfl⟩
    · exact ⟨rfl, rfl, rfl⟩

theorem addGnssPrior_samePending (cfg : SlamConfig R) (m : Numerics R)
    (o : GraphOrchestrator R) (node : PoseNode R) (frame : SensorFrame R) :
    SamePending o (o.addGnssPrior cfg m frame node).1 := by
  unfold addGnssPrior
  split
  · split
    · unfold ISAM2Optimizer.addGnssPrior
      split
      · exact ⟨rfl, rfl, rfl⟩
      · exact ⟨rfl, rfl, rfl⟩
    · exact ⟨rfl, rfl, rfl⟩
  · exact ⟨rfl, rfl, rfl⟩

/-- A solver that keeps the values leaves a single node where the initialisation put it. -/
theorem processNode_single {f : Frame R} {n : PoseNode R} {od : Option (OdomData R)}
    {r : ScanProcessResult R} (hg : o.poseGraph = .odomOnly ⟨[n], [], od⟩)
    (hi : o.optimizer.initialized = true) (hv : o.optimizer.pendingValues = [(n.index, n.pose)])
    (hf : f.isam2 = keepValues) (h : o.processNode cfg m f node = some (o', r)) :
    o'.poseGraph = o.poseGraph := by
  unfold processNode at h
  obtain ⟨opt, hopt, heq⟩ := Option.map_eq_some_iff.mp h
  obtain ⟨rfl, _⟩ := Prod.mk.inj heq
  have hseq : (o.addLatestSeqEdge m node o.poseGraph.getEdges).1 = o := by
    rw [hg]
    rfl
  have hloop : (o.addNewLoopEdges o.poseGraph.getEdges).1 = o := by
    unfold addNewLoopEdges
    rw [hg]
    exact congrArg Prod.fst (if_neg (Nat.not_lt_zero o.lastLoopEdgeCount))
  rw [hseq, hloop] at hopt ⊢
  set re := o.tryDynamicReanchor cfg m node f.sensor
  set last := if re.2 then re.1.poseGraph.getNodes.getLast?.getD node else node
  have hre : SamePending o re.1 := tryDynamicReanchor_samePending cfg m o node f.sensor
  have hprior := addGnssPrior_samePending cfg m re.1 last f.sensor
  set p := (re.1.addGnssPrior cfg m f.sensor last).1
  have hgraph : p.poseGraph = .odomOnly ⟨[n], [], od⟩ :=
    hprior.poseGraph.trans (hre.poseGraph.trans hg)
  have hpose : opt.getPose n.index = some n.pose := by
    have hvalues : p.optimizer.pendingValues = [(n.index, n.pose)] :=
      hprior.pendingValues.trans (hre.pendingValues.trans hv)
    have hinit : p.optimizer.initialized = true :=
      hprior.initialized.trans (hre.initialized.trans hi)
    rw [hf] at hopt
    unfold ISAM2Optimizer.update at hopt
    rw [if_neg (by simp [hinit, hvalues])] at hopt
    obtain rfl := Option.some.inj hopt
    unfold ISAM2Optimizer.getPose
    rw [if_pos hinit, hvalues]
    simp
  have hkeep : optimizedNode { p with optimizer := opt } n = n := by
    unfold optimizedNode
    dsimp only
    rw [hpose]
    rfl
  show p.poseGraph.replaceNodes (p.poseGraph.getNodes.map
    (optimizedNode { p with optimizer := opt })) = o.poseGraph
  rw [hgraph, hg]
  show PoseGraphBuilder.odomOnly ⟨[optimizedNode { p with optimizer := opt } n], [], od⟩ = _
  rw [hkeep]

end Single

variable {o : GraphOrchestrator ℝ}

theorem reanchorFix_across (x y : ℝ) (ha : o.anchor = some (0, 0))
    (hre : o.dynamicReanchored = false) :
    o.reanchorFix acrossConfig .exactSvd (acrossFrame x y).sensor = some (fixAt (0, y) 2) := by
  have hstatus : (2 : Int) ≤ (fixAt (0, y) 2).fixStatus := le_refl 2
  have hsigma : (fixAt (0, y) 2).sigma acrossConfig .exactSvd = 2 / 100 :=
    (if_neg (lt_irrefl (0 : ℝ))).trans (if_pos hstatus)
  unfold reanchorFix
  rw [if_pos ⟨rfl, rfl, hre, by rw [ha]; rfl⟩]
  refine Option.filter_eq_some_iff.mpr ⟨rfl, ?_⟩
  rw [decide_eq_true_eq, hsigma]
  exact ⟨hstatus, by norm_num, by norm_num⟩

/-- One sample is not enough. -/
theorem tryDynamicReanchor_first (ha : o.anchor = some (0, 0)) (hs : o.reanchorSamples = [])
    (hre : o.dynamicReanchored = false) :
    o.tryDynamicReanchor acrossConfig .exactSvd (lineNode 0 0) (acrossFrame 0 0).sensor =
      ({ o with reanchorSamples := [⟨(0, 0), (0, 0)⟩] }, false) := by
  have hcollect : collectSample acrossConfig .exactSvd [] (lineNode 0 0) (fixAt (0, 0) 2) =
      [⟨(0, 0), (0, 0)⟩] := rfl
  have hfew : reanchorTarget acrossConfig .exactSvd [⟨(0, 0), (0, 0)⟩] = none := by
    unfold reanchorTarget
    exact if_pos (Or.inl (by decide : (1 : Int) < 2))
  unfold tryDynamicReanchor
  rw [reanchorFix_across 0 0 ha hre, hs]
  dsimp only
  rw [hcollect, hfew]

theorem norm_across (x y : ℝ) : Numerics.exactSvd.norm (x, 0) (y, 0) = |x - y| := by
  show Real.sqrt ((x - y) * (x - y) + (0 - 0) * (0 - 0)) = |x - y|
  rw [sub_self, mul_zero, add_zero]
  exact Real.sqrt_mul_self_eq_abs (x - y)

/-- The second sample is far from the first, and not too far. -/
theorem collectSample_across : collectSample acrossConfig .exactSvd [⟨(0, 0), (0, 0)⟩]
    (lineNode 1 3) (fixAt (0, 3) 2) = acrossSamples := by
  have hfar : 1 / 2 < Numerics.exactSvd.norm ((lineNode 1 3).x, (lineNode 1 3).y) (0, 0) := by
    show 1 / 2 < Numerics.exactSvd.norm (3, 0) (0, 0)
    rw [norm_across]
    norm_num
  have hnear : ¬ 25 < Numerics.exactSvd.norm (3, 0) (0, 0) := by
    rw [norm_across]
    norm_num
  have happend : collectSample acrossConfig .exactSvd [⟨(0, 0), (0, 0)⟩] (lineNode 1 3)
      (fixAt (0, 3) 2) = trimSpan .exactSvd (3, 0) acrossSamples := by
    unfold collectSample
    dsimp only [List.getLast?_singleton]
    rw [if_pos (decide_eq_true hfar)]
    rfl
  rw [happend]
  exact if_neg hnear

/-- A quarter turn fits the samples exactly. -/
theorem rms_across : rms ((pairs acrossSamples).map (misfit (Real.pi / 2) 0)) = 0 := by
  simp [rms, sumSq, pairs, acrossSamples, misfit, turn, dot]

theorem exists_reanchorTarget_across :
    ∃ anchor, reanchorTarget acrossConfig .exactSvd acrossSamples = some anchor := by
  have hspan : (2 : ℝ) ≤ maxSpan .exactSvd acrossSamples := by
    show 2 ≤ max 0 (Numerics.exactSvd.norm (0, 0) (3, 0))
    rw [norm_across]
    norm_num
  exact exists_reanchorTarget Numerics.exactSvd_exactSvd (le_refl (2 : Int)) hspan
    (rms_across.le.trans zero_le_one)

theorem tryDynamicReanchor_second (ha : o.anchor = some (0, 0))
    (hs : o.reanchorSamples = [⟨(0, 0), (0, 0)⟩]) (hre : o.dynamicReanchored = false) :
    let o' := (o.tryDynamicReanchor acrossConfig .exactSvd (lineNode 1 3)
      (acrossFrame 3 3).sensor).1
    o'.dynamicReanchored = true ∧ o'.reanchorSamples = acrossSamples := by
  obtain ⟨anchor, htarget⟩ := exists_reanchorTarget_across
  unfold tryDynamicReanchor
  rw [reanchorFix_across 3 3 ha hre, hs]
  dsimp only
  rw [collectSample_across, htarget]
  exact ⟨rfl, rfl⟩

theorem step_across_first : ∃ o,
    step acrossConfig .exactSvd (new acrossConfig) (acrossFrame 0 0) = some o ∧
      SameAnchoring { acrossStart with reanchorSamples := [⟨(0, 0), (0, 0)⟩] } o ∧
      o.poseGraph = firstGraph := by
  obtain ⟨o, r, hnode⟩ := exists_processNode acrossConfig .exactSvd acrossStart (lineNode 0 0)
    (rfl : (acrossFrame 0 0).isam2 = keepValues)
  obtain ⟨o₁, hto, hfrom⟩ := processNode_sameAnchoring hnode
  have hgraph := processNode_single acrossStart_poseGraph rfl acrossStart_pendingValues rfl hnode
  refine ⟨o, Option.map_eq_some_iff.mpr ⟨(o, r), processFrame_of_entry across_entry hnode, rfl⟩,
    ?_, hgraph.trans acrossStart_poseGraph⟩
  rw [tryDynamicReanchor_first hto.anchor hto.samples hto.reanchored] at hfrom
  exact ⟨hfrom.state.trans hto.state, hfrom.anchor.trans hto.anchor, hfrom.samples,
    hfrom.reanchored.trans hto.reanchored⟩

/-- The second fix re-anchors. -/
theorem exec_across : ∃ o, exec (step acrossConfig .exactSvd) (new acrossConfig) acrossFrames =
    some o ∧ o.dynamicReanchored = true ∧ o.reanchorSamples = acrossSamples := by
  obtain ⟨o₁, hfirst, hsame, hgraph⟩ := step_across_first
  obtain ⟨es, hadd⟩ : ∃ es, o₁.poseGraph.addScan acrossConfig .exactSvd
      (acrossFrame 3 3).matchers (acrossFrame 3 3).sensor.scan (acrossFrame 3 3).sensor.odom =
        (.odomOnly ⟨[lineNode 0 0, lineNode 1 3], es, some ⟨3, 3, 0, 0⟩⟩, some (lineNode 1 3)) := by
    rw [hgraph]
    exact lineFrame_addScan (some (fixAt (0, 3) 2)) (b := ⟨[lineNode 0 0], [], some ⟨0, 0, 0, 0⟩⟩)
      (k := 0) rfl rfl (by norm_num)
  obtain ⟨o₂, hentry, hkept⟩ := exists_entry_of_running hadd hsame.state rfl
  obtain ⟨o, r, hnode⟩ := exists_processNode acrossConfig .exactSvd o₂ (lineNode 1 3)
    (rfl : (acrossFrame 3 3).isam2 = keepValues)
  have hsecond : step acrossConfig .exactSvd o₁ (acrossFrame 3 3) = some o :=
    Option.map_eq_some_iff.mpr ⟨(o, r), processFrame_of_entry hentry hnode, rfl⟩
  obtain ⟨o₃, hto, hfrom⟩ := processNode_sameAnchoring hnode
  have hall := hsame.trans (hkept.trans hto)
  obtain ⟨hre, hsamples⟩ := tryDynamicReanchor_second hall.anchor hall.samples hall.reanchored
  exact ⟨o, exec_cons_iff.mpr ⟨o₁, hfirst, exec_single hsecond⟩, hfrom.reanchored.trans hre,
    hfrom.samples.trans hsamples⟩

/-- The fit has nothing left over, and turns the graph's three metres onto the fixes'. -/
theorem turn_of_rms_across {θ : ℝ} {anchor : ℝ × ℝ}
    (h : rms (acrossSamples.map (turnedResidual θ anchor)) = 0) :
    anchor = 0 ∧ turn θ (3, 0) = (0, 3) := by
  have hall := eq_zero_of_rms h
  have hfirst : ((0, 0) - anchor) - turn θ (0, 0) = 0 := hall _ List.mem_cons_self
  have hsecond : ((0, 3) - anchor) - turn θ (3, 0) = 0 :=
    hall _ (List.mem_cons_of_mem _ List.mem_cons_self)
  have horigin : turn θ (0, 0) = 0 := by simp [turn]
  have hanchor : anchor = 0 := by
    rw [horigin, sub_zero] at hfirst
    exact (sub_eq_zero.mp hfirst).symm
  rw [hanchor, sub_zero] at hsecond
  exact ⟨hanchor, (sub_eq_zero.mp hsecond).symm⟩

/-- The second fix is re-anchored upon with a quarter turn: nothing is left over in the fit, and
three metres of each sample past the first once the turn is dropped. -/
theorem reanchor_residual_across :
    ∃ o, exec (step acrossConfig .exactSvd) (new acrossConfig) acrossFrames = some o ∧
      o.reanchorSamples = acrossSamples ∧
      ∃ anchor θ, o.anchor = some anchor ∧
        alignmentRotation .exactSvd acrossSamples (slamMean acrossSamples)
          (utmMean acrossSamples) = turnMatrix θ ∧
        anchor = 0 ∧ turn θ (3, 0) = (0, 3) ∧
        rms (acrossSamples.map (turnedResidual θ anchor)) = 0 ∧
        rms (acrossSamples.map (installedResidual anchor)) ≤
          1 + 2 * |Real.sin (θ / 2)| * rms (acrossSamples.map (·.slamPos)) := by
  obtain ⟨o, hr, hre, hsamples⟩ := exec_across
  obtain ⟨anchor, θ, hanchor, hθ, _, hbest, hinstalled⟩ :=
    reanchor_residual Numerics.exactSvd_exactSvd hr hre
  rw [hsamples] at hθ hbest hinstalled
  have hzero : rms (acrossSamples.map (turnedResidual θ anchor)) = 0 := by
    refine le_antisymm ((hbest (Real.pi / 2) 0).trans (le_of_eq ?_)) (Real.sqrt_nonneg _)
    rw [rms_turnedResidual, rms_across]
  obtain ⟨hzeroAnchor, hturn⟩ := turn_of_rms_across hzero
  exact ⟨o, hr, hsamples, anchor, θ, hanchor, hθ, hzeroAnchor, hturn, hzero, hinstalled⟩

/-! ## Fixes that are turned against the graph -/

/-- Rational numerics for a matrix whose points and fixes are a quarter turn apart. -/
def Numerics.quarterTurn : Numerics ℚ :=
  { Numerics.axis with
    jacobiSvd := fun h => ⟨diag2 1 1,
      if h 0 0 = 0 ∧ h 1 1 = 0 then Matrix.of ![![0, -1], ![1, 0]] else diag2 1 1⟩ }

/-- The first fix turns the graph, by nothing; two samples are enough for a re-anchoring. -/
def turnedConfig : SlamConfig ℚ :=
  let d : SlamConfig ℚ := .defaults
  { d with
    scanMatching := { d.scanMatching with enabled := false }
    loopClosure := { d.loopClosure with enabled := false }
    gnss := { d.gnss with
      anchor := { d.gnss.anchor with initDistanceM := 0 }
      dynamicReanchor := ⟨true, 2, 2, 10, 1⟩ } }

/-- Ten metres along the first axis, and fixes ten metres apart along the second. -/
def turnedFrames : List (Frame ℚ) :=
  [⟨⟨some ⟨0⟩, ⟨0, 0, 0, 0⟩, some ⟨0, 0, 0, fun _ _ => 0, 2⟩⟩, .agreeing [] [], keepValues⟩,
    ⟨⟨some ⟨10⟩, ⟨10, 10, 0, 0⟩, some ⟨10, 0, 10, fun _ _ => 0, 2⟩⟩, .agreeing [] [], keepValues⟩]

/-- The root mean square of what remains between the positions from the anchor and the SLAM
positions. -/
def Numerics.installedRms {R : Type*} [Field R] (m : Numerics R) (anchor : R × R)
    (samples : List (ReanchorSample R)) : R :=
  m.sqrt (((samples.map (installedResidual anchor)).map fun e => e.1 * e.1 + e.2 * e.2).sum /
    samples.length)

def turnedSamples : List (ReanchorSample ℚ) := [⟨(0, 0), (0, 0)⟩, ⟨(10, 0), (0, 10)⟩]

theorem turnedSamples_svd :
    IsSvd (Numerics.quarterTurn.jacobiSvd (crossCovariance turnedSamples (slamMean turnedSamples)
        (utmMean turnedSamples))).matrixU
      (Numerics.quarterTurn.jacobiSvd (crossCovariance turnedSamples (slamMean turnedSamples)
        (utmMean turnedSamples))).matrixV
      (crossCovariance turnedSamples (slamMean turnedSamples) (utmMean turnedSamples)) where
  left := by decide +kernel
  right := by decide +kernel
  values := ⟨50, 0, by decide +kernel, by decide +kernel, by decide +kernel⟩

/-- The fit is exact and the new anchor is accepted; ten metres remain between the positions that
it gives and the SLAM positions. -/
theorem turned_fixes_installed :
    ∃ o anchor, exec (step turnedConfig .quarterTurn) (new turnedConfig) turnedFrames = some o ∧
      o.dynamicReanchored = true ∧ o.anchor = some anchor ∧
      IsSvd (Numerics.quarterTurn.jacobiSvd (crossCovariance o.reanchorSamples
          (slamMean o.reanchorSamples) (utmMean o.reanchorSamples))).matrixU
        (Numerics.quarterTurn.jacobiSvd (crossCovariance o.reanchorSamples
          (slamMean o.reanchorSamples) (utmMean o.reanchorSamples))).matrixV
        (crossCovariance o.reanchorSamples (slamMean o.reanchorSamples)
          (utmMean o.reanchorSamples)) ∧
      Numerics.quarterTurn.installedRms anchor o.reanchorSamples = 10 ∧
      ¬ Numerics.quarterTurn.installedRms anchor o.reanchorSamples ≤
        turnedConfig.gnss.dynamicReanchor.maxResidualRmsM := by
  obtain ⟨o, ho, hre, hanchor, hsamples⟩ : ∃ o,
      exec (step turnedConfig .quarterTurn) (new turnedConfig) turnedFrames = some o ∧
        (o.dynamicReanchored = true ∧ o.anchor = some (0, 0) ∧ o.reanchorSamples = turnedSamples) :=
    exists_exec (by decide +kernel)
  have hrms : Numerics.quarterTurn.installedRms (0, 0) turnedSamples = 10 := by decide +kernel
  refine ⟨o, (0, 0), ho, hre, hanchor, ?_⟩
  rw [hsamples, hrms]
  exact ⟨turnedSamples_svd, rfl, by decide +kernel⟩

end MgRobot.Slam

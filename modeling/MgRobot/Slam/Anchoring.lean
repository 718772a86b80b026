import MgRobot.Slam.FrameInvariant

/-!
# GNSS factors and the anchor

Beside the orchestrator, a ghost list keeps the UTM positions of the fixes whose
priors have been added. The factors agree on one origin while no re-anchoring moves
the anchor away from factors that are already there.
-/

namespace MgRobot.Slam

set_option autoImplicit false

open MgRobot.Lib MgRobot.Lib.Runs GraphOrchestrator

variable {R : Type*}

/-- `fixes` is a ghost. -/
structure AnchoredRun (R : Type*) where
  orchestrator : GraphOrchestrator R
  /-- The UTM positions behind the GNSS factors, in order. -/
  fixes : List (R × R)

namespace AnchoredRun

/-- The fix behind the prior that a frame returns. -/
def priorFix (f : Frame R) (r : ScanProcessResult R) : List (R × R) :=
  match f.sensor.gnss, r.newGnssPrior with
  | some g, some _ => [g.pos]
  | _, _ => []

variable [Field R]

/-- Every GNSS factor measures the position of its fix minus the anchor now in force. -/
def FactorsAnchored (w : AnchoredRun R) : Prop :=
  w.orchestrator.optimizer.gnssFactors.map (fun g => some g.measured) =
    w.fixes.map fun u => w.orchestrator.anchor.map fun a => u - a

variable [LinearOrder R] (cfg : SlamConfig R) (m : Numerics R)

def init : AnchoredRun R := ⟨.new cfg, []⟩

def step (w : AnchoredRun R) (f : Frame R) : Option (AnchoredRun R) :=
  (w.orchestrator.processFrame cfg m f).map fun p => ⟨p.1, w.fixes ++ priorFix f p.2⟩

/-- A re-anchoring in this frame finds no GNSS factor yet, or leaves the anchor where it is. -/
def KeepsOrigin (w : AnchoredRun R) (f : Frame R) : Prop :=
  match w.orchestrator.entry cfg m f with
  | none => True
  | some (o, node) =>
      match o.reanchorsTo cfg m node f.sensor with
      | none => True
      | some anchorStar =>
          w.orchestrator.optimizer.gnssFactors = [] ∨ o.anchor = some anchorStar

instance (w : AnchoredRun R) (f : Frame R) : Decidable (KeepsOrigin cfg m w f) := by
  unfold KeepsOrigin
  split
  · infer_instance
  · split
    · infer_instance
    · infer_instance

variable {cfg m} {w w' : AnchoredRun R} {o₁ : GraphOrchestrator R} {f : Frame R}
variable {b : PoseGraphBuilder R} {node : PoseNode R}

omit [LinearOrder R] in
/-- No factor comes or goes before a node has entered, and an anchor with factors stays. -/
theorem entered_gnssFactors {o : GraphOrchestrator R} (h : WellFormed cfg o)
    (he : Entered cfg m o o₁ b node) :
    o₁.optimizer.gnssFactors = o.optimizer.gnssFactors ∧
      (o.optimizer.gnssFactors ≠ [] → o₁.anchor = o.anchor) := by
  cases he with
  | kept hi ho =>
      subst ho
      exact ⟨rfl, fun _ => rfl⟩
  | first opt hi hen hn ho hopt =>
      subst ho
      have hg := (h.gnssFactors hi).1
      exact ⟨hopt.2.2.trans hg.symm, fun hne => absurd hg hne⟩
  | turned a gp op rot front curr hst hi hf hc ho =>
      subst ho
      have hg := (h.gnssFactors hi).1
      exact ⟨(alignGraph_optimizer rot front curr).2.2.trans hg.symm, fun hne => absurd hg hne⟩

omit [LinearOrder R] in
/-- Factors that were measured from `a` are measured from `t` only if the two are the same. -/
theorem map_sub_eq_iff {us : List (R × R)} (hne : us ≠ []) (a t : R × R) :
    us.map (fun u => some (u - a)) = us.map (fun u => some (u - t)) ↔ a = t := by
  constructor
  · intro h
    cases us with
    | nil => exact absurd rfl hne
    | cons u rest =>
        rw [List.map_cons, List.map_cons] at h
        exact sub_right_inj.mp (Option.some.inj (List.cons.inj h).1)
  · rintro rfl
    rfl

omit [LinearOrder R] in
theorem FactorsAnchored.fixes_nil (h : w.FactorsAnchored)
    (hg : w.orchestrator.optimizer.gnssFactors = []) : w.fixes = [] := by
  unfold FactorsAnchored at h
  rw [hg, List.map_nil] at h
  exact List.map_eq_nil_iff.mp h.symm

omit [LinearOrder R] in
/-- With factors there is an anchor. -/
theorem FactorsAnchored.anchor_some (h : w.FactorsAnchored)
    (hg : w.orchestrator.optimizer.gnssFactors ≠ []) : ∃ a, w.orchestrator.anchor = some a := by
  unfold FactorsAnchored at h
  obtain ⟨g, gs, hgs⟩ := List.exists_cons_of_ne_nil hg
  rw [hgs, List.map_cons] at h
  obtain ⟨u, _, hu⟩ := List.mem_map.mp (h ▸ List.mem_cons_self)
  obtain ⟨a, ha, _⟩ := Option.map_eq_some_iff.mp hu
  exact ⟨a, ha⟩

omit [LinearOrder R] in
/-- The factor of this frame is measured from the anchor; what counts are the earlier ones. -/
theorem factorsAnchored_prior (o₁ : GraphOrchestrator R) {o' : GraphOrchestrator R}
    {r : ScanProcessResult R}
    (hg : (r.newGnssPrior = none ∧ o'.optimizer.gnssFactors = o₁.optimizer.gnssFactors) ∨
      ∃ g anchor factor, f.sensor.gnss = some g ∧ o'.anchor = some anchor ∧
        r.newGnssPrior.isSome = true ∧
        o'.optimizer.gnssFactors = o₁.optimizer.gnssFactors ++ [factor] ∧
        factor.measured = g.toLocal anchor) :
    FactorsAnchored ⟨o', w.fixes ++ priorFix f r⟩ ↔
      o₁.optimizer.gnssFactors.map (fun g => some g.measured) =
        w.fixes.map fun u => o'.anchor.map fun a => u - a := by
  unfold FactorsAnchored
  rcases hg with ⟨hr, hg⟩ | ⟨g, a, factor, hf, ha, hr, hg, hm⟩
  · have hp : priorFix f r = [] := by
      unfold priorFix
      rw [hr]
      cases f.sensor.gnss <;> rfl
    rw [hp, hg, List.append_nil]
  · obtain ⟨prior, hprior⟩ := Option.isSome_iff_exists.mp hr
    have hp : priorFix f r = [g.pos] := by
      unfold priorFix
      rw [hf, hprior]
    rw [hp, hg, List.map_append, List.map_append, ha, List.map_singleton, List.map_singleton, hm]
    exact List.append_left_inj _

/-- One frame: the factors stay anchored exactly if the frame keeps the origin. -/
theorem factorsAnchored_step (h : WellFormed cfg w.orchestrator) (hw : w.FactorsAnchored)
    (hs : w.step cfg m f = some w') : w'.FactorsAnchored ↔ KeepsOrigin cfg m w f := by
  obtain ⟨⟨o', r⟩, hf, rfl⟩ := Option.map_eq_some_iff.mp hs
  unfold KeepsOrigin
  rcases processFrame_cases h.builder hf with ⟨rfl, rfl, hn, _⟩ | hwait | ⟨o₁, node, he, hp⟩
  · rw [hn, factorsAnchored_prior w.orchestrator (Or.inl ⟨rfl, rfl⟩)]
    exact iff_of_true hw trivial
  · obtain ⟨b, node, seq, near, loops, g, _, ho, hst, hst', hn, rfl⟩ := hwait
    have hi := (h.initialized_eq hst).2
    have hopt : o'.optimizer = w.orchestrator.optimizer := by
      rcases initializeWithGnssIfReady_cases (m := m)
        (o := { w.orchestrator with poseGraph := b }) f.sensor with
        ⟨_, _, _, hc, _⟩ | ⟨_, _, _, _, _, _, _, _, _, _, ht⟩
      · rw [ho, hc]
      · rw [ho, ht] at hst'
        cases hst'
    have hg := (h.gnssFactors hi).1
    rw [hn, factorsAnchored_prior w.orchestrator (Or.inl ⟨rfl, by rw [hopt]⟩), hg,
      hw.fixes_nil hg]
    exact iff_of_true rfl trivial
  · obtain ⟨b, seq, near, loops, g, _, hent⟩ := entry_spec h he
    have hat := hent.atNode h g
    obtain ⟨p, last, s, l, prior, hpr, rfl, rfl⟩ := processNode_cases hat.optimizer hat.loopCount hp
    obtain ⟨hsame, hanchor⟩ := entered_gnssFactors h hent
    have ha := p.applyOptimizedPoses_spec cfg m last (o₁.closes cfg m f node)
    rw [he]
    dsimp only
    rw [factorsAnchored_prior o₁ (by
      rw [ha.optimizer, ha.anchor]
      exact hpr.gnssFactors), ha.anchor, hpr.anchor, hsame]
    by_cases hne : w.orchestrator.optimizer.gnssFactors = []
    · rw [hne, hw.fixes_nil hne]
      cases o₁.reanchorsTo cfg m node f.sensor with
      | none => exact iff_of_true rfl trivial
      | some t => exact iff_of_true rfl (Or.inl rfl)
    · rw [hanchor hne]
      cases o₁.reanchorsTo cfg m node f.sensor with
      | none => exact iff_of_true hw trivial
      | some t =>
          obtain ⟨a, ha⟩ := hw.anchor_some hne
          have hfix : w.fixes ≠ [] := by
            intro hnil
            unfold FactorsAnchored at hw
            rw [hnil, List.map_nil, List.map_eq_nil_iff] at hw
            exact hne hw
          have hold := hw
          unfold FactorsAnchored at hold
          rw [ha] at hold
          rw [hold, ha]
          dsimp only [Option.map_some, Option.orElse_some]
          rw [map_sub_eq_iff hfix, Option.some.injEq]
          exact (or_iff_right hne).symm

/-- In every run, the GNSS factors are measured from the anchor in force after every frame,
exactly if every re-anchoring keeps the origin. -/
theorem factors_anchored_iff {fs : List (Frame R)} (hr : exec (step cfg m) (init cfg) fs = some w) :
    Always (step cfg m) FactorsAnchored (init cfg) fs ↔
      Meets (step cfg m) (KeepsOrigin cfg m) (init cfg) fs := by
  refine always_iff_meets (J := fun w => WellFormed cfg w.orchestrator) ?_ ?_ (wellFormed_new cfg)
    rfl hr
  · intro s a t h hs
    obtain ⟨⟨o', r⟩, hf, rfl⟩ := Option.map_eq_some_iff.mp hs
    exact wellFormed_frame h hf
  · exact fun s a t h hw hs => factorsAnchored_step h hw hs

/-- Odometry only, and a dynamic re-anchoring from two samples a metre apart. -/
def reanchorConfig : SlamConfig ℚ :=
  let d : SlamConfig ℚ := .defaults
  { d with
    scanMatching := { d.scanMatching with enabled := false }
    loopClosure := { d.loopClosure with enabled := false }
    gnss := { d.gnss with
      maxInnovationM := 1 / 2
      dynamicReanchor := ⟨true, 2, 2, 1, 1⟩
      leverArm := ⟨0, 0⟩ } }

/-- A frame at `x` metres along the axis, with a fix there plus an offset. -/
def fixFrame (x : ℚ) (status : Int) (offset : ℚ) : Frame ℚ :=
  ⟨⟨some ⟨x⟩, ⟨x, x, 0, 0⟩, some ⟨x, x + offset, 0, fun _ _ => 0, status⟩⟩, .agreeing [] [],
    keepValues⟩

/-- Two RTK float fixes set the anchor and the first prior; the RTK fixes that follow are a metre
further on. -/
def reanchorFrames : List (Frame ℚ) :=
  [fixFrame 0 1 0, fixFrame 2 1 0, fixFrame 4 2 1, fixFrame 6 2 1]

/-- Before the re-anchoring the prior is measured from the anchor. -/
theorem factors_anchored_prefix :
    Always (step reanchorConfig .axis) FactorsAnchored (init reanchorConfig)
      (reanchorFrames.take 3) := by
  obtain ⟨w, hw, _⟩ : ∃ w, exec (step reanchorConfig .axis) (init reanchorConfig)
      (reanchorFrames.take 3) = some w ∧ w.fixes = [(2, 0)] := exists_exec (by decide +kernel)
  exact (factors_anchored_iff hw).mpr (by decide +kernel)

/-- The anchor moves to `(1, 0)`, and the first factor still measures `2 - 0`. -/
theorem factor_left_behind :
    ∃ w, exec (step reanchorConfig .axis) (init reanchorConfig) reanchorFrames = some w ∧
      w.orchestrator.anchor = some (1, 0) ∧ w.fixes = [(2, 0), (7, 0)] ∧
      w.orchestrator.optimizer.gnssFactors.map (·.measured) = [(2, 0), (6, 0)] ∧
      ¬ w.FactorsAnchored := by
  have hrun : ∃ w, exec (step reanchorConfig .axis) (init reanchorConfig) reanchorFrames = some w ∧
      (w.orchestrator.anchor = some (1, 0) ∧ w.fixes = [(2, 0), (7, 0)] ∧
        w.orchestrator.optimizer.gnssFactors.map (·.measured) = [(2, 0), (6, 0)] ∧
        w.orchestrator.optimizer.gnssFactors.map (fun g => some g.measured) ≠
          w.fixes.map fun u => w.orchestrator.anchor.map fun a => u - a) :=
    exists_exec (by decide +kernel)
  exact hrun

end AnchoredRun

end MgRobot.Slam

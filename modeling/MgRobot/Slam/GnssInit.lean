import MgRobot.Slam.FrameInvariant

/-!
# The GNSS initialisation of a frame

`initialize_with_gnss_if_ready` in a waiting orchestrator: the anchor it goes by, the
sample it collects, and the fix at which it turns the graph.
-/

namespace MgRobot.Slam.GraphOrchestrator

set_option autoImplicit false

variable {R : Type*} [Field R] [LinearOrder R]
variable (cfg : SlamConfig R) (m : Numerics R) (o : GraphOrchestrator R)

omit [Field R] [LinearOrder R] in
/-- The anchor after `try_set_anchor`: the first fix that is good enough. -/
def initAnchor (g : GnssData R) : Option (R × R) :=
  o.anchor.orElse fun _ => if g.fixStatus < cfg.gnss.anchor.minFixStatus then none else some g.pos

/-- The fix and the anchor at which the graph is turned: they are far enough apart. -/
def alignFix (frame : SensorFrame R) : Option (GnssData R × R × R) :=
  frame.gnss.bind fun g => (o.initAnchor cfg g).bind fun anchor =>
    if m.hypot (g.toLocal anchor).1 (g.toLocal anchor).2 < cfg.gnss.anchor.initDistanceM then none
    else some (g, anchor)

omit [LinearOrder R] in
/-- One more sample of a fix and of the node it was taken at. -/
def withSample (g : GnssData R) (anchor : R × R) (curr : PoseNode R) : GraphOrchestrator R :=
  { o with
    anchor := some anchor
    initGnssPts := o.initGnssPts ++ [g.toLocal anchor]
    initOdomPts := o.initOdomPts ++ [(curr.x, curr.y)] }

/-- The graph turned at a fix. -/
def alignedAt (g : GnssData R) (anchor : R × R) (front curr : PoseNode R) : GraphOrchestrator R :=
  let o := o.withSample g anchor curr
  o.alignGraph cfg m
    (headingRotation m o.initGnssPts o.initOdomPts (g.toLocal anchor) front curr) front curr

variable {cfg m o} {front curr : PoseNode R} {frame : SensorFrame R}

theorem alignFix_eq_some {g : GnssData R} {anchor : R × R}
    (h : o.alignFix cfg m frame = some (g, anchor)) :
    frame.gnss = some g ∧ o.initAnchor cfg g = some anchor ∧
      ¬ m.hypot (g.toLocal anchor).1 (g.toLocal anchor).2 < cfg.gnss.anchor.initDistanceM := by
  obtain ⟨g', hg, h⟩ := Option.bind_eq_some_iff.mp h
  obtain ⟨a, ha, h⟩ := Option.bind_eq_some_iff.mp h
  split at h
  · cases h
  · next hlt =>
    obtain ⟨rfl, rfl⟩ := Prod.mk.inj (Option.some.inj h)
    exact ⟨hg, ha, hlt⟩

/-- A waiting orchestrator turns the graph at its `alignFix`. -/
theorem initializeWithGnssIfReady_aligned (hst : o.state = .initializing)
    (hen : cfg.gnss.enabled = true) (hf : o.poseGraph.getNodes.head? = some front)
    (hc : o.poseGraph.getNodes.getLast? = some curr) {g : GnssData R} {anchor : R × R}
    (h : o.alignFix cfg m frame = some (g, anchor)) :
    initializeWithGnssIfReady cfg m o frame = o.alignedAt cfg m g anchor front curr := by
  obtain ⟨hg, ha, hlt⟩ := alignFix_eq_some h
  unfold initAnchor at ha
  unfold initializeWithGnssIfReady
  rw [hg, hst]
  dsimp only
  rw [hen, ha]
  simp only [Bool.not_true, Bool.false_eq_true, if_false]
  rw [hf, hc]
  exact if_neg hlt

/-- Without an `alignFix` it collects the sample of the frame, if there is one. -/
theorem initializeWithGnssIfReady_waits (hf : o.poseGraph.getNodes.head? = some front)
    (hc : o.poseGraph.getNodes.getLast? = some curr) (h : o.alignFix cfg m frame = none) :
    initializeWithGnssIfReady cfg m o frame = o ∨
      ∃ g anchor, frame.gnss = some g ∧ o.initAnchor cfg g = some anchor ∧
        initializeWithGnssIfReady cfg m o frame = o.withSample g anchor curr := by
  unfold initializeWithGnssIfReady
  split
  case h_1 g hg hst =>
    split
    · exact Or.inl rfl
    · cases ha : o.initAnchor cfg g with
      | none =>
          unfold initAnchor at ha
          rw [ha]
          exact Or.inl rfl
      | some anchor =>
          unfold alignFix at h
          rw [hg, Option.bind_some, ha, Option.bind_some] at h
          unfold initAnchor at ha
          rw [ha]
          dsimp only
          rw [hf, hc]
          dsimp only
          split at h
          · next hlt =>
            rw [if_pos hlt]
            exact Or.inr ⟨g, anchor, hg, ha, rfl⟩
          · cases h
  case h_2 => exact Or.inl rfl

/-- A fix near the anchor is a sample. -/
theorem initializeWithGnssIfReady_sample (hst : o.state = .initializing)
    (hen : cfg.gnss.enabled = true) (hf : o.poseGraph.getNodes.head? = some front)
    (hc : o.poseGraph.getNodes.getLast? = some curr) {g : GnssData R} {anchor : R × R}
    (hg : frame.gnss = some g) (ha : o.initAnchor cfg g = some anchor)
    (hlt : m.hypot (g.toLocal anchor).1 (g.toLocal anchor).2 < cfg.gnss.anchor.initDistanceM) :
    initializeWithGnssIfReady cfg m o frame = o.withSample g anchor curr := by
  unfold initAnchor at ha
  unfold initializeWithGnssIfReady
  rw [hg, hst]
  dsimp only
  rw [hen, ha]
  simp only [Bool.not_true, Bool.false_eq_true, if_false]
  rw [hf, hc]
  dsimp only
  rw [if_pos hlt, ← hst]
  rfl

theorem initializeWithGnssIfReady_of_none (hg : frame.gnss = none) :
    initializeWithGnssIfReady cfg m o frame = o := by
  unfold initializeWithGnssIfReady
  rw [hg]

/-- The phase after the initialisation step of a frame. -/
theorem initializeWithGnssIfReady_state (hst : o.state = .initializing)
    (hen : cfg.gnss.enabled = true) (hf : o.poseGraph.getNodes.head? = some front)
    (hc : o.poseGraph.getNodes.getLast? = some curr) :
    (initializeWithGnssIfReady cfg m o frame).state =
      if (o.alignFix cfg m frame).isSome then .running else .initializing := by
  cases h : o.alignFix cfg m frame with
  | none =>
      rcases initializeWithGnssIfReady_waits hf hc h with hw | ⟨g, a, _, _, hw⟩
      · rw [hw]
        exact hst
      · rw [hw]
        exact hst
  | some p =>
      rw [initializeWithGnssIfReady_aligned hst hen hf hc h]
      rfl

section Frame

variable {b : PoseGraphBuilder R} {node : PoseNode R} {seq near loops : List (PoseEdge R)}
variable {f : Frame R}

omit [Field R] [LinearOrder R] in
theorem front_and_last {b₀ : PoseGraphBuilder R}
    (g : PoseGraphBuilder.Grows cfg b₀ b node seq near loops) :
    ∃ front, b.getNodes.head? = some front ∧ b.getNodes.getLast? = some node := by
  rw [g.getNodes]
  cases b₀.getNodes with
  | nil => exact ⟨node, rfl, rfl⟩
  | cons front rest => exact ⟨front, rfl, List.getLast?_concat⟩

/-- Whether the frame of a waiting orchestrator waits or enters, told by its fix. -/
theorem state_after_init (h : WellFormed cfg o)
    (g : PoseGraphBuilder.Grows cfg o.poseGraph b node seq near loops)
    (hst : o.state = .initializing) :
    (initializeWithGnssIfReady cfg m { o with poseGraph := b } f.sensor).state =
      if (o.alignFix cfg m f.sensor).isSome then .running else .initializing := by
  obtain ⟨front, hf, hc⟩ := front_and_last g
  exact initializeWithGnssIfReady_state (o := { o with poseGraph := b }) hst
    (h.initialized_eq hst).1 hf hc

/-- A frame that waits keeps the graph of the builder. -/
theorem waiting_poseGraph {o' : GraphOrchestrator R} (h : WellFormed cfg o)
    (g : PoseGraphBuilder.Grows cfg o.poseGraph b node seq near loops)
    (hb : o' = initializeWithGnssIfReady cfg m { o with poseGraph := b } f.sensor)
    (hst : o.state = .initializing) (hst' : o'.state = .initializing) :
    o.alignFix cfg m f.sensor = none ∧ o'.poseGraph = b := by
  have hno : o.alignFix cfg m f.sensor = none := by
    have hs := state_after_init (m := m) (f := f) h g hst
    rw [← hb, hst'] at hs
    by_contra hal
    rw [if_pos (Option.isSome_iff_ne_none.mpr hal)] at hs
    cases hs
  obtain ⟨front, hf, hc⟩ := front_and_last g
  rw [hb]
  rcases initializeWithGnssIfReady_waits (m := m)
    (o := { o with poseGraph := b }) hf hc hno with hw | ⟨_, _, _, _, hw⟩
  · rw [hw]
    exact ⟨hno, rfl⟩
  · rw [hw]
    exact ⟨hno, rfl⟩

/-- The frame of a waiting orchestrator enters only with its fix. -/
theorem alignFix_of_entry (h : WellFormed cfg o) (hst : o.state = .initializing)
    {o₁ : GraphOrchestrator R} (he : o.entry cfg m f = some (o₁, node)) :
    (o.alignFix cfg m f.sensor).isSome = true := by
  obtain ⟨b, seq, near, loops, g, hadd, _⟩ := entry_spec h he
  have hs := state_after_init (m := m) (f := f) h g hst
  unfold entry at he
  rw [hadd] at he
  dsimp only at he
  rw [hs] at he
  by_contra hne
  rw [if_neg hne] at he
  cases he

/-- The inversion of the frame that turns the graph. -/
theorem entry_aligned (h : WellFormed cfg o) (hst : o.state = .initializing)
    {o₁ : GraphOrchestrator R} (he : o.entry cfg m f = some (o₁, node)) :
    ∃ b seq near loops g anchor front,
      PoseGraphBuilder.Grows cfg o.poseGraph b node seq near loops ∧
      o.poseGraph.addScan cfg m f.matchers f.sensor.scan f.sensor.odom = (b, some node) ∧
      o.alignFix cfg m f.sensor = some (g, anchor) ∧ b.getNodes.head? = some front ∧
      o₁ = alignedAt cfg m { o with poseGraph := b } g anchor front node := by
  obtain ⟨⟨g, anchor⟩, ha⟩ := Option.isSome_iff_exists.mp (alignFix_of_entry h hst he)
  obtain ⟨b, seq, near, loops, hg, hadd, _⟩ := entry_spec h he
  obtain ⟨front, hf, hc⟩ := front_and_last hg
  refine ⟨b, seq, near, loops, g, anchor, front, hg, hadd, ha, hf, ?_⟩
  have hal : initializeWithGnssIfReady cfg m { o with poseGraph := b } f.sensor =
      alignedAt cfg m { o with poseGraph := b } g anchor front node :=
    initializeWithGnssIfReady_aligned (o := { o with poseGraph := b }) hst
      (h.initialized_eq hst).1 hf hc ha
  unfold entry at he
  rw [hadd] at he
  dsimp only at he
  rw [hal] at he
  exact (Prod.mk.inj (Option.some.inj he)).1.symm

/-- A frame whose orchestrator is still waiting after its initialisation step. -/
theorem step_of_waiting {o' : GraphOrchestrator R}
    (hadd : o.poseGraph.addScan cfg m f.matchers f.sensor.scan f.sensor.odom = (b, some node))
    (ho : initializeWithGnssIfReady cfg m { o with poseGraph := b } f.sensor = o')
    (hst : o'.state = .initializing) : o.step cfg m f = some o' := by
  unfold step processFrame
  rw [hadd]
  dsimp only
  rw [ho, hst]
  rfl

/-- A frame whose fix turns the graph. -/
theorem entry_of_alignFix
    (hadd : o.poseGraph.addScan cfg m f.matchers f.sensor.scan f.sensor.odom = (b, some node))
    (hst : o.state = .initializing) (hen : cfg.gnss.enabled = true)
    (hf : b.getNodes.head? = some front) (hc : b.getNodes.getLast? = some curr)
    {g : GnssData R} {anchor : R × R} (h : o.alignFix cfg m f.sensor = some (g, anchor)) :
    o.entry cfg m f =
      some (alignedAt cfg m { o with poseGraph := b } g anchor front curr, node) := by
  have hal : initializeWithGnssIfReady cfg m { o with poseGraph := b } f.sensor =
      alignedAt cfg m { o with poseGraph := b } g anchor front curr :=
    initializeWithGnssIfReady_aligned (o := { o with poseGraph := b }) hst hen hf hc h
  unfold entry
  rw [hadd]
  dsimp only
  rw [hal]
  rfl

end Frame

end MgRobot.Slam.GraphOrchestrator

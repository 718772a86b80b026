import MgRobot.Scenario.ClearanceRuns
import MgRobot.Scenario.PolygonDistance

/-!
# When obstacle_clearance fails a run

The verdict in terms of the poses at the evaluations. A robot that comes within the limit
is reported unless its last step before that was from within the noise.
-/

namespace MgRobot.Scenario.ClearanceMonitor

set_option autoImplicit false

variable {R : Type*} [Field R] [LinearOrder R] {m : PyMath R} {monitor : ClearanceMonitor R}
  {msg msg' : Reception R} {msgs : List (Reception R)} {s : ClearanceState R}

section Verdict

variable {fmt : PyFormat R}

theorem evaluate_failed_iff (hs : s.observed = s.minAll.isSome) :
    (monitor.evaluate fmt s).status = .failed ↔ s.received ≠ 0 ∧ ∃ least ∈ s.minAll,
      (∃ required ∈ monitor.spec.requireWithin, required < least) ∨
        AtMost s.minCaused monitor.spec.minClearance := by
  unfold evaluate
  by_cases hreceived : s.received = 0
  · simp [hreceived]
  · rw [if_neg hreceived]
    cases hleast : s.minAll with
    | none => simp [hs, hleast]
    | some least =>
        simp only [hs, hleast, Option.isSome_some, ne_eq, hreceived, not_false_eq_true,
          Option.mem_some_iff, exists_eq_left', true_and]
        cases hfilter : monitor.spec.requireWithin.filter fun required =>
            decide (required < least) with
        | some required =>
            obtain ⟨hmem, hlt⟩ := Option.filter_eq_some_iff.mp hfilter
            exact iff_of_true rfl (Or.inl ⟨required, hmem, of_decide_eq_true hlt⟩)
        | none =>
            have hno : ¬∃ required ∈ monitor.spec.requireWithin, required < least := by
              intro h
              obtain ⟨required, hmem, hlt⟩ := h
              have := Option.filter_eq_none_iff.mp hfilter required hmem
              exact this (decide_eq_true hlt)
            cases hcaused : s.minCaused with
            | none =>
                refine iff_of_false (by simp) fun h => ?_
                rcases h with h | h
                · exact hno h
                · obtain ⟨d, hd, -⟩ := h
                  cases hd
            | some caused =>
                simp only [hno, false_or, AtMost, Option.mem_some_iff, exists_eq_left']
                split_ifs with hle
                · exact iff_of_true rfl hle
                · exact iff_of_false (by simp) hle

end Verdict

/-! ### When a run fails -/

section Failure

variable (m : PyMath R) (monitor : ClearanceMonitor R) (msgs : List (Reception R))

/-- Some motion of the robot alone takes it from beyond the limit to within it. -/
def Crosses : Prop := ∃ msg msg', [msg, msg'] <:+: msgs ∧ ∃ o ∈ monitor.watched,
  ∃ before ∈ seen m monitor msg o, ∃ p ∈ seen m monitor msg' o, monitor.moving m msg' = true ∧
    monitor.distance m o.2 before.obstacle p.robot ≤ monitor.spec.minClearance ∧
    monitor.spec.minClearance < before.distance

/-- Some motion of the robot alone takes it to within the limit, from further than that by more
than the noise. -/
def ClosesIn : Prop := ∃ msg msg', [msg, msg'] <:+: msgs ∧ ∃ o ∈ monitor.watched,
  ∃ before ∈ seen m monitor msg o, ∃ p ∈ seen m monitor msg' o,
    Counts m monitor msg' p.robot o before monitor.spec.minClearance

/-- Obstacles were observed, and never within the required distance. -/
def StaysOut : Prop := (∃ msg ∈ msgs, ∃ o ∈ monitor.watched, (seen m monitor msg o).isSome) ∧
  ∃ required ∈ monitor.spec.requireWithin, ∀ msg ∈ msgs, ∀ o ∈ monitor.watched,
    ∀ p ∈ seen m monitor msg o, required < p.distance

/-- The robot is at one pose at all evaluations. -/
def StandsStill : Prop := ∃ robot, ∀ msg ∈ msgs, monitor.robotPose m msg = some robot

variable {m monitor msgs} {fmt : PyFormat R}

theorem not_closesIn_of_standsStill [IsStrictOrderedRing R] (h : StandsStill m monitor msgs) :
    ¬ClosesIn m monitor msgs := by
  intro hclose
  obtain ⟨robot, hrobot⟩ := h
  obtain ⟨msg, msg', hpair, o, -, before, hbefore, p, hp, hcounts⟩ := hclose
  have hmem := hpair.subset
  have h1 := robot_of_mem_seen hbefore
  have h2 := robot_of_mem_seen hp
  rw [hrobot msg (hmem (by simp))] at h1
  rw [hrobot msg' (hmem (by simp)), h1] at h2
  have hlt := hcounts.2.1
  have hpos : (0 : R) < CLOSING_EPSILON := by
    unfold CLOSING_EPSILON
    positivity
  rw [← Option.some.inj h2, ← distance_of_mem_seen hbefore] at hlt
  linarith

theorem result_failed_iff [IsStrictOrderedRing R]
    (h : ∀ msg ∈ msgs, (monitor.robotPose m msg).isSome) :
    (monitor.result m fmt msgs).status = .failed ↔
      ClosesIn m monitor msgs ∨ StaysOut m monitor msgs := by
  have hrec := recorded_run h
  rw [result, evaluate_failed_iff hrec.observed, hrec.received]
  constructor
  · intro hfail
    obtain ⟨-, least, hleast, hout | hclose⟩ := hfail
    · obtain ⟨required, hrequired, hlt⟩ := hout
      right
      constructor
      · obtain ⟨msg, hmsg, o, ho, p, hp, -⟩ := (hrec.minAll least).mp ⟨least, hleast, le_rfl⟩
        exact ⟨msg, hmsg, o, ho, Option.isSome_iff_exists.mpr ⟨p, hp⟩⟩
      · refine ⟨required, hrequired, fun msg hmsg o ho p hp => ?_⟩
        obtain ⟨d, hd, hle⟩ := (hrec.minAll p.distance).mpr ⟨msg, hmsg, o, ho, p, hp, le_rfl⟩
        obtain rfl := Option.some.inj (hleast.symm.trans hd)
        exact hlt.trans_le hle
    · exact Or.inl ((hrec.minCaused _).mp hclose)
  · intro hcases
    obtain ⟨msg, hmsg, o, ho, p, hp⟩ : ∃ msg ∈ msgs, ∃ o ∈ monitor.watched,
        ∃ p, p ∈ seen m monitor msg o := by
      rcases hcases with hclose | hout
      · obtain ⟨msg, msg', hpair, o, ho, before, hbefore, -⟩ := hclose
        exact ⟨msg, hpair.subset (by simp), o, ho, before, hbefore⟩
      · obtain ⟨⟨msg, hmsg, o, ho, hsome⟩, -⟩ := hout
        exact ⟨msg, hmsg, o, ho, Option.isSome_iff_exists.mp hsome⟩
    refine ⟨(List.length_pos_of_mem hmsg).ne', ?_⟩
    obtain ⟨least, hleast, -⟩ := (hrec.minAll p.distance).mpr ⟨msg, hmsg, o, ho, p, hp, le_rfl⟩
    refine ⟨least, hleast, ?_⟩
    rcases hcases with hclose | hout
    · exact Or.inr ((hrec.minCaused _).mpr hclose)
    · obtain ⟨-, required, hrequired, hall⟩ := hout
      obtain ⟨msg', hmsg', o', ho', p', hp', hle⟩ :=
        (hrec.minAll least).mp ⟨least, hleast, le_rfl⟩
      exact Or.inl ⟨required, hrequired, (hall msg' hmsg' o' ho' p' hp').trans_le hle⟩

end Failure

section Reals

/-- A run meets the limit when every crossing of it is reported, and only the required distance
fails a robot that stands still. -/
theorem crossing_fails_iff (monitor : ClearanceMonitor ℝ) (fmt : PyFormat ℝ)
    (msgs : List (Reception ℝ)) (h : ∀ msg ∈ msgs, (monitor.robotPose realMath msg).isSome) :
    ((Crosses realMath monitor msgs → (monitor.result realMath fmt msgs).status = .failed) ∧
      (StandsStill realMath monitor msgs → (monitor.result realMath fmt msgs).status = .failed →
        StaysOut realMath monitor msgs)) ↔
    (Crosses realMath monitor msgs →
      ClosesIn realMath monitor msgs ∨ StaysOut realMath monitor msgs) := by
  rw [result_failed_iff h]
  constructor
  · intro hboth
    exact hboth.1
  · intro hcross
    exact ⟨hcross, fun hstill hfail => hfail.resolve_left (not_closesIn_of_standsStill hstill)⟩

theorem distance_circle (monitor : ClearanceMonitor ℝ) {radius : ℝ} (hradius : 0 ≤ radius)
    (obstacle robot : Pose ℝ) : ∃ d,
      IsLeast (distances {(obstacle.x, obstacle.y)}
        (Lib.EvenOdd.region (transformPolygon realMath monitor.footprint robot))) d ∧
      monitor.distance realMath (.circle radius) obstacle robot = max 0 (d - radius) := by
  obtain ⟨a, l, hal⟩ := List.exists_cons_of_ne_nil (monitor.robotPolygon_ne_nil realMath robot)
  obtain ⟨d, hleast, hzero, hd⟩ :=
    polygonCircleDistance_isLeast a l (obstacle.x, obstacle.y) radius
  rw [← hal] at hleast hzero hd
  refine ⟨d, hleast, ?_⟩
  simp only [distance, hd, Option.get_some]
  split_ifs with hin
  · rw [hzero hin, max_eq_left (by linarith)]
  · rfl

end Reals

section LastStep

/-- A footprint of 0.8 m by 0.6 m. -/
noncomputable def lastStepContext : ClearanceContext ℝ where
  footprint := [(2 / 5, 3 / 10), (-2 / 5, 3 / 10), (-2 / 5, -3 / 10), (2 / 5, -3 / 10)]
  models name := if name = "ped" then
      some ⟨.primitive, .cylinder, fun key => if key = "radius" then some (1 / 4) else none⟩
    else none
  mapInWorld := ⟨0, 0, 0, 0⟩
  entityPose := .ok ()

noncomputable def lastStepSpec : ObstacleClearanceSpec ℝ where
  obstacles := ["ped"]

noncomputable def lastStepMonitor : ClearanceMonitor ℝ where
  spec := lastStepSpec
  footprint := lastStepContext.footprint
  watched := [("ped", .circle (1 / 4))]
  worldInMap := lastStepContext.mapInWorld.inverse realMath
  footprint_ne := List.cons_ne_nil _ _
  names := rfl
  functional := by simp

/-- The constructor builds this monitor. -/
theorem create_lastStep :
    create realMath lastStepContext lastStepSpec = .ok lastStepMonitor := by
  simp [create, lastStepContext, lastStepSpec, lastStepMonitor, shapes, shapeOf, obstacleShape,
    bind, Except.bind, pure, Except.pure]

/-- The robot at `x`, driving at 0.5 m/s, the surface of the pedestrian at 0.40005 m. -/
noncomputable def lastStepAt (x : ℝ) : Reception ℝ where
  twist := ⟨1 / 2, 0, 0⟩
  tfPose := some ⟨x, 0, 0, 0⟩
  truePose := none
  entityPoses _ := some ⟨13 / 20 + 1 / 20000, 0, 0, 0⟩
  elapsed := x

theorem toMap_lastStep (pose : Pose ℝ) :
    (lastStepMonitor.toMap realMath pose).x = pose.x ∧
      (lastStepMonitor.toMap realMath pose).y = pose.y := by
  have harg : Complex.arg ⟨1, 0⟩ = 0 := Complex.arg_one
  simp [toMap, lastStepMonitor, lastStepContext, Pose.inverse, Pose.compose, normalizeAngle,
    realMath, harg]

theorem lastStep_polygon (x : ℝ) :
    transformPolygon realMath lastStepMonitor.footprint ⟨x, 0, 0, 0⟩ =
      [(x + 2 / 5, 3 / 10), (x - 2 / 5, 3 / 10), (x - 2 / 5, -(3 / 10)),
        (x + 2 / 5, -(3 / 10))] := by
  simp [transformPolygon, lastStepMonitor, lastStepContext, realMath, sub_eq_add_neg, neg_div]

theorem lastStep_distance {x : ℝ} (hle : x ≤ 1 / 4) {obstacle : Pose ℝ}
    (hx : obstacle.x = 13 / 20 + 1 / 20000) (hy : obstacle.y = 0) :
    lastStepMonitor.distance realMath (.circle (1 / 4)) obstacle ⟨x, 0, 0, 0⟩ =
      max 0 (1 / 20000 - x) := by
  obtain ⟨d, hleast, hd⟩ := lastStepMonitor.distance_circle
    (by norm_num : (0 : ℝ) ≤ 1 / 4) obstacle ⟨x, 0, 0, 0⟩
  rw [lastStep_polygon, hx, hy] at hleast
  have hfront : Lib.Segments.euclid (13 / 20 + 1 / 20000, 0) (x + 2 / 5, 0) =
      1 / 4 + 1 / 20000 - x := by
    unfold Lib.Segments.euclid
    rw [sub_self, zero_pow two_ne_zero, add_zero, Real.sqrt_sq (by linarith)]
    ring
  have hupper : d ≤ 1 / 4 + 1 / 20000 - x := by
    refine hfront ▸ hleast.2 ⟨_, rfl, (x + 2 / 5, 0), ?_, rfl⟩
    refine Lib.EvenOdd.mem_region_of_boundary ⟨((x + 2 / 5, -(3 / 10)), (x + 2 / 5, 3 / 10)),
      by simp [Lib.EvenOdd.outline, Lib.EvenOdd.walk], ?_⟩
    exact Lib.Segments.mem_segment_iff.mpr ⟨1 / 2, by norm_num, by norm_num, by
      norm_num [Lib.Polyline.between]⟩
  have hlower : 1 / 4 + 1 / 20000 - x ≤ d := by
    obtain ⟨p, hp, q, hq, rfl⟩ := hleast.1
    obtain rfl := Set.mem_singleton_iff.mp hp
    have hq1 : q.1 ≤ x + 2 / 5 := by
      refine Lib.EvenOdd.fst_le_of_mem_region ?_ hq
      intro v hv
      simp only [List.mem_cons, List.not_mem_nil, or_false] at hv
      rcases hv with rfl | rfl | rfl | rfl
      · exact le_rfl
      · linarith
      · linarith
      · exact le_rfl
    refine Real.le_sqrt_of_sq_le ?_
    dsimp only
    nlinarith [sq_nonneg (0 - q.2)]
  rw [hd, le_antisymm hupper hlower]
  ring_nf

theorem robotPose_lastStep (x : ℝ) :
    lastStepMonitor.robotPose realMath (lastStepAt x) = some ⟨x, 0, 0, 0⟩ := by
  simp [robotPose, lastStepMonitor, lastStepSpec, lastStepAt]

theorem seen_lastStep {x : ℝ} (hle : x ≤ 1 / 4) : ∃ obstacle : Pose ℝ,
    (obstacle.x = 13 / 20 + 1 / 20000 ∧ obstacle.y = 0) ∧
    seen realMath lastStepMonitor (lastStepAt x) ("ped", .circle (1 / 4)) =
      some ⟨⟨x, 0, 0, 0⟩, obstacle, max 0 (1 / 20000 - x)⟩ := by
  obtain ⟨hx, hy⟩ := toMap_lastStep ⟨13 / 20 + 1 / 20000, 0, 0, 0⟩
  refine ⟨_, ⟨hx, hy⟩, ?_⟩
  rw [seen_of_robotPose (robotPose_lastStep x)]
  simp only [current, obstaclePose, lastStepAt, Option.map_some, lastStep_distance hle hx hy]

theorem moving_lastStep (x : ℝ) : lastStepMonitor.moving realMath (lastStepAt x) = true := by
  have hspeed : √((1 / 2 : ℝ) ^ 2 + 0 ^ 2) = 1 / 2 := by
    rw [zero_pow two_ne_zero, add_zero, Real.sqrt_sq (by norm_num)]
  have hmoving : (1 / 10 : ℝ) < √((1 / 2 : ℝ) ^ 2 + 0 ^ 2) := by
    rw [hspeed]
    norm_num
  unfold moving
  rw [Bool.or_eq_true]
  exact Or.inl (decide_eq_true hmoving)

/-- Against the front of the pedestrian, 5 cm in one step. -/
noncomputable def lastStepRun : List (Reception ℝ) := [lastStepAt 0, lastStepAt (1 / 20)]

/-- What Python prints of the least distance of the run, which is `0`. -/
def lastStepFormat : PyFormat ℝ := ⟨fun _ _ => "0.00", fun _ => "0.0", fun _ => "['ped']"⟩

theorem robotPose_lastStepRun :
    ∀ msg ∈ lastStepRun, (lastStepMonitor.robotPose realMath msg).isSome := by
  intro msg hmsg
  simp only [lastStepRun, List.mem_cons, List.not_mem_nil, or_false] at hmsg
  rcases hmsg with rfl | rfl
  · rw [robotPose_lastStep]
    rfl
  · rw [robotPose_lastStep]
    rfl

theorem crossing_fails_iff_lastStep :
    ((Crosses realMath lastStepMonitor lastStepRun →
        (lastStepMonitor.result realMath lastStepFormat lastStepRun).status = .failed) ∧
      (StandsStill realMath lastStepMonitor lastStepRun →
        (lastStepMonitor.result realMath lastStepFormat lastStepRun).status = .failed →
          StaysOut realMath lastStepMonitor lastStepRun)) ↔
    (Crosses realMath lastStepMonitor lastStepRun →
      ClosesIn realMath lastStepMonitor lastStepRun ∨
        StaysOut realMath lastStepMonitor lastStepRun) :=
  crossing_fails_iff lastStepMonitor lastStepFormat lastStepRun robotPose_lastStepRun

theorem crosses_lastStepRun : Crosses realMath lastStepMonitor lastStepRun := by
  obtain ⟨obstacle, ⟨hx, hy⟩, hbefore⟩ := seen_lastStep (x := 0) (by norm_num)
  obtain ⟨_, -, hp⟩ := seen_lastStep (x := 1 / 20) (by norm_num)
  refine ⟨lastStepAt 0, lastStepAt (1 / 20), List.infix_refl _, _, List.mem_singleton.mpr rfl,
    _, hbefore, _, hp, moving_lastStep _, ?_, ?_⟩
  · dsimp only
    rw [lastStep_distance (by norm_num) hx hy]
    norm_num [lastStepMonitor, lastStepSpec]
  · norm_num [lastStepMonitor, lastStepSpec]

theorem not_closesIn_lastStepRun : ¬ClosesIn realMath lastStepMonitor lastStepRun := by
  intro h
  obtain ⟨msg, msg', hpair, o, ho, before, hbefore, p, hp, -, hlt, -⟩ := h
  obtain ⟨rfl, rfl⟩ : msg = lastStepAt 0 ∧ msg' = lastStepAt (1 / 20) := by
    have := hpair.eq_of_length rfl
    exact ⟨(List.cons.inj this).1, (List.cons.inj (List.cons.inj this).2).1⟩
  obtain rfl := List.mem_singleton.mp ho
  obtain ⟨obstacle, ⟨hx, hy⟩, heq⟩ := seen_lastStep (x := 0) (by norm_num)
  obtain ⟨_, -, heq'⟩ := seen_lastStep (x := 1 / 20) (by norm_num)
  obtain rfl := Option.some.inj (heq.symm.trans hbefore)
  obtain rfl := Option.some.inj (heq'.symm.trans hp)
  rw [lastStep_distance (by norm_num) hx hy] at hlt
  norm_num [CLOSING_EPSILON] at hlt

/-- The pedestrian is hit, and the run passes: the front was already within the noise. -/
theorem last_step_not_reported : ¬(Crosses realMath lastStepMonitor lastStepRun →
    (lastStepMonitor.result realMath lastStepFormat lastStepRun).status = .failed) := by
  intro h
  rcases (result_failed_iff robotPose_lastStepRun).mp (h crosses_lastStepRun) with hclose | hout
  · exact not_closesIn_lastStepRun hclose
  · obtain ⟨-, required, hrequired, -⟩ := hout
    cases hrequired

end LastStep

end MgRobot.Scenario.ClearanceMonitor

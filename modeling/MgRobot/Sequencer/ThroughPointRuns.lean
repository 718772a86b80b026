import MgRobot.Sequencer.ThroughPoints

/-!
# Through points over whole runs

A result `PASSED` goes back to feedback of its own goal, which a plan for that goal was received
for; and while a plan stays adopted the judgement only goes forward on it.
-/

namespace MgRobot.Sequencer

open MgRobot.Lib MgRobot.Lib.Polyline

set_option autoImplicit false

variable {κ R : Type*}

/-- The goal that the thread reports as passed. -/
def Thread.passing : Thread κ R → Option Nat
  | .finish goalId .passed _ | .runCallback goalId _ .passed _ => some goalId
  | _ => none

theorem passing_cancelCall {handle : Option Nat} {x : Thread κ R} (hx : x ∈ cancelCall handle) :
    x.passing = none := by
  cases handle with
  | none => exact absurd hx (Multiset.notMem_zero x)
  | some seq =>
      rw [Multiset.mem_singleton.mp hx]
      rfl

theorem passing_idleCall {onIdle : Option (Dispatch R)} {x : Thread κ R}
    (hx : x ∈ idleCall onIdle) : x.passing = none := by
  cases onIdle with
  | none => exact absurd hx (Multiset.notMem_zero x)
  | some d =>
      rw [Multiset.mem_singleton.mp hx]
      rfl

theorem passing_finish_of_ne {goalId : Nat} {result : NavigationResult}
    {onIdle : Option (Dispatch R)} (h : result ≠ .passed) :
    (Thread.finish goalId result onIdle : Thread κ R).passing = none := by
  cases result with
  | passed => exact absurd rfl h
  | succeeded | failed | canceled => rfl

namespace NavSystem

open LogicalGoal

variable [DecidableEq κ] [LinearOrder R] [Field R] {cfg : NavConfig R} {s t : NavSystem κ R}
  {e : NavEvent κ R} {es : List (NavEvent κ R)}

/-! ## The logical goal -/

/-- What an event can do to the record of the logical goal. -/
inductive LogicalStep (cfg : NavConfig R) (s : NavSystem κ R) :
    NavEvent κ R → LogicalGoal κ R → Prop
  | sendGoal {w : Waypoint R} {cb : κ} {mode : String} {now : Int} :
      LogicalStep cfg s (.sendGoal w cb mode now) (s.nav.logical.begin w cb now)
  | plan {msg : PathMsg R} : LogicalStep cfg s (.plan msg) (s.nav.logical.planCallback cfg msg)
  | feedback {q : Nat} {msg : FeedbackMsg R} {now : Int} :
      LogicalStep cfg s (.feedback q msg now)
        (s.nav.logical.feedbackCallback cfg (s.lane q).goalId msg now).1
  | other {e : NavEvent κ R} {active : Bool} (hsend : ¬ e.IsSend) (hplan : ∀ msg, e ≠ .plan msg)
      (hfeedback : ∀ q msg now, e ≠ .feedback q msg now) :
      LogicalStep cfg s e { s.nav.logical with active := active }

theorem Effect.logicalStep (he : Effect cfg s e t) : LogicalStep cfg s e t.nav.logical := by
  cases he with
  | sendGoal => exact .sendGoal
  | plan => exact .plan
  | feedback => exact .feedback
  | cancel => exact .other id nofun nofun
  | finishCurrent => exact .other id nofun nofun
  | dispatchStale hd | dispatchSend hd | dispatchDefer hd =>
      obtain ⟨rfl, -⟩ | ⟨rfl, -⟩ := hd
      · exact .other id nofun nofun
      · exact .other id nofun nofun
  | unavailable | sendGoalAsync | cancelGoalAsync | rejected | accepted | superseded | resultDone
  | finishStale | runCallback | accept | reject | terminate => exact .other id nofun nofun

/-- What the record of the logical goal says of the run so far. -/
structure Recorded (cfg : NavConfig R) (es : List (NavEvent κ R)) (g : LogicalGoal κ R) :
    Prop where
  sent : ∀ w, g.waypoint = some w → ∃ since, LastSent es w g.sendTimeNs since
  through : ∀ tolerance, g.throughTolerance = some tolerance → ∃ w, g.waypoint = some w ∧
    w.navigation.isThroughPoint = true ∧ w.navigation.throughTolerance = tolerance
  received : g.planPoints ≠ [] → ∃ w, g.waypoint = some w ∧ PlanReceived cfg es w g.planPoints
  read : PlanRead cfg g

omit [DecidableEq κ] in
theorem recorded_init (cfg : NavConfig R) (stallDistance : R) :
    Recorded cfg ([] : List (NavEvent κ R)) (.init stallDistance) :=
  ⟨nofun, nofun, fun h => absurd rfl h, ⟨rfl, fun h => absurd rfl h⟩⟩

omit [DecidableEq κ] in
theorem Recorded.advances {g g' : LogicalGoal κ R} (h : Recorded cfg es g)
    (ha : Advances cfg g g') (he : ¬ e.IsSend) : Recorded cfg (es ++ [e]) g' := by
  have hsame := ha.same
  refine ⟨fun w hw => ?_, fun tolerance htol => ?_, fun hne => ?_, h.read.of_advances ha⟩
  · rw [hsame.waypoint] at hw
    rw [hsame.sendTimeNs]
    obtain ⟨since, hlast⟩ := h.sent w hw
    exact ⟨_, hlast.snoc he⟩
  · rw [hsame.throughTolerance] at htol
    rw [hsame.waypoint]
    exact h.through tolerance htol
  · rw [hsame.planPoints] at hne ⊢
    rw [hsame.waypoint]
    obtain ⟨w, hw, hreceived⟩ := h.received hne
    exact ⟨w, hw, hreceived.snoc he⟩

variable [IsStrictOrderedRing R]

omit [DecidableEq κ] in
theorem Recorded.step {g : LogicalGoal κ R} (h : Recorded cfg es s.nav.logical)
    (hs : LogicalStep cfg s e g) : Recorded cfg (es ++ [e]) g := by
  cases hs with
  | @sendGoal w cb mode now =>
      refine ⟨fun v hv => ?_, fun tolerance htol => ?_, fun hne => absurd rfl hne,
        ⟨rfl, fun hne => absurd rfl hne⟩⟩
      · obtain rfl := Option.some.inj hv
        exact ⟨[], ⟨es, cb, mode, rfl⟩, nofun⟩
      · obtain ⟨hthrough, htol⟩ := Option.ite_none_right_eq_some.mp htol
        exact ⟨w, rfl, hthrough, Option.some.inj htol⟩
  | @plan msg =>
      rcases planCallback_cases cfg s.nav.logical msg with
        heq | ⟨w, tolerance, last, hw, _, hlast, hstamp, hnear, heq⟩
      · rw [heq]
        exact h.advances (h.read.advances (.refl _) rfl) id
      · rw [heq]
        obtain ⟨since, hsent⟩ := h.sent w hw
        have hsnoc := hsent.snoc (e := .plan msg) id
        refine ⟨fun v hv => ?_, h.through, fun _ => ⟨w, hw, s.nav.logical.sendTimeNs, since, msg, [],
          last, hsnoc, rfl, hstamp, hlast, hnear⟩, rfl, fun hne => List.length_pos_iff.mpr hne⟩
        obtain rfl := Option.some.inj (hw.symm.trans hv)
        exact ⟨_, hsnoc⟩
  | feedback => exact h.advances (h.read.feedbackCallback _ _ _) id
  | other hsend => exact h.advances (h.read.advances ⟨rfl, rfl, rfl, rfl, rfl, rfl⟩ rfl) hsend

/-! ## The threads -/

omit [IsStrictOrderedRing R] in
/-- A thread that reports a goal as passed was one already, or comes from feedback. -/
theorem Effect.passing (he : Effect cfg s e t) {x : Thread κ R} (hx : x ∈ t.threads) {goalId : Nat}
    (hp : x.passing = some goalId) : (∃ y ∈ s.threads, y.passing = some goalId) ∨
      ∃ q msg now, e = .feedback q msg now ∧ goalId = (s.lane q).goalId ∧
        (s.nav.logical.feedbackCallback cfg (s.lane q).goalId msg now).2 = true := by
  have hnone : ∀ {p : Prop}, x.passing = none → p :=
    fun h => absurd (h.symm.trans hp) nofun
  have hadvance : ∀ {old : Thread κ R} {new : Multiset (Thread κ R)},
      (∀ y ∈ new, y.passing = none) → x ∈ Pool.advance s.threads old new →
        ∃ y ∈ s.threads, y.passing = some goalId := by
    intro old new hnew hmem
    rcases Pool.mem_of_mem_advance hmem with hmem | hmem
    · exact hnone (hnew x hmem)
    · exact ⟨x, hmem, hp⟩
  have hcons : ∀ {y : Thread κ R}, y.passing = none → x ∈ y ::ₘ s.threads →
      ∃ y ∈ s.threads, y.passing = some goalId := by
    intro y hy hmem
    rcases Multiset.mem_cons.mp hmem with rfl | hmem
    · exact hnone hy
    · exact ⟨x, hmem, hp⟩
  have hcancel : ∀ {handle : Option Nat}, x ∈ cancelCall handle + s.threads →
      ∃ y ∈ s.threads, y.passing = some goalId := by
    intro handle hmem
    rcases Multiset.mem_add.mp hmem with hmem | hmem
    · exact hnone (passing_cancelCall hmem)
    · exact ⟨x, hmem, hp⟩
  cases he with
  | sendGoal => exact .inl (hcons rfl hx)
  | cancel | accepted => exact .inl (hcancel hx)
  | unavailable =>
      refine .inl (hadvance (fun y hy => ?_) hx)
      rw [Multiset.mem_singleton.mp hy]
      rfl
  | dispatchStale | dispatchSend | cancelGoalAsync =>
      exact .inl (hadvance (fun y hy => absurd hy (Multiset.notMem_zero y)) hx)
  | dispatchDefer => exact .inl (hadvance (fun y hy => passing_cancelCall hy) hx)
  | rejected => exact .inl (hcons rfl hx)
  | resultDone => exact .inl (hcons (passing_finish_of_ne (resultOf_ne_passed _)) hx)
  | finishStale | runCallback => exact .inl (hadvance (fun y hy => passing_idleCall hy) hx)
  | @finishCurrent g r o hm =>
      rcases Pool.mem_of_mem_advance hx with hmem | hmem
      · cases hcb : s.nav.logical.resultCallback with
        | none =>
            rw [hcb] at hmem
            exact hnone (passing_idleCall hmem)
        | some cb =>
            rw [hcb] at hmem
            obtain rfl := Multiset.mem_singleton.mp hmem
            refine .inl ⟨_, hm, ?_⟩
            cases r with
            | passed => exact hp
            | succeeded | failed | canceled => exact absurd hp nofun
      · exact .inl ⟨x, hmem, hp⟩
  | @feedback q msg now =>
      rcases Multiset.mem_add.mp hx with hmem | hmem
      · split at hmem
        · rename_i hpassed
          obtain rfl := Multiset.mem_singleton.mp hmem
          exact .inr ⟨q, msg, now, rfl, (Option.some.inj hp).symm, hpassed⟩
        · exact absurd hmem (Multiset.notMem_zero x)
      · exact .inl ⟨x, hmem, hp⟩
  | sendGoalAsync | superseded | plan | accept | reject | terminate => exact .inl ⟨x, hx, hp⟩

/-! ## Runs -/

omit [IsStrictOrderedRing R] in
/-- In the run there was feedback for the goal on which it was judged as passed, by a plan that was
received for it. -/
def Judged (cfg : NavConfig R) (stallDistance : R) (es : List (NavEvent κ R)) (goalId : Nat) :
    Prop :=
  ∃ before q msg now after u w, es = before ++ .feedback q msg now :: after ∧
    Runs.exec (NavSystem.step cfg) (.boot stallDistance) before = some u ∧
    u.nav.logical.goalId = goalId ∧ w.navigation.isThroughPoint = true ∧
    PlanReceived cfg before w u.nav.logical.planPoints ∧
    Passes cfg u.nav.logical w w.navigation.throughTolerance msg.x msg.y

omit [IsStrictOrderedRing R] in
theorem Judged.snoc {stallDistance : R} {goalId : Nat} (h : Judged cfg stallDistance es goalId)
    (e : NavEvent κ R) : Judged cfg stallDistance (es ++ [e]) goalId := by
  obtain ⟨before, q, msg, now, after, u, w, rfl, h⟩ := h
  exact ⟨before, q, msg, now, after ++ [e], u, w, by rw [List.append_assoc, List.cons_append], h⟩

/-- Over every run the record is right, and every report of a goal as passed has been judged. -/
theorem recorded_of_run {stallDistance : R}
    (hr : Runs.exec (NavSystem.step cfg) (.boot stallDistance) es = some s) :
    Recorded cfg es s.nav.logical ∧
      ∀ x ∈ s.threads, ∀ goalId, x.passing = some goalId → Judged cfg stallDistance es goalId := by
  have h := Runs.invariant_of_history (s := (.boot stallDistance : NavSystem κ R)) (t := s)
    (H := fun es s => Runs.exec (NavSystem.step cfg) (.boot stallDistance) es = some s ∧
      Recorded cfg es s.nav.logical ∧
      ∀ x ∈ s.threads, ∀ goalId, x.passing = some goalId → Judged cfg stallDistance es goalId)
    ?_ ⟨rfl, recorded_init cfg stallDistance, fun x hx => absurd hx (Multiset.notMem_zero x)⟩ hr
  · exact h.2
  · rintro es s e t ⟨hexec, hrecorded, hjudged⟩ hs
    have he := step_effect hs
    refine ⟨Runs.exec_snoc hexec hs, hrecorded.step he.logicalStep, fun x hx goalId hp => ?_⟩
    rcases he.passing hx hp with ⟨y, hy, hp⟩ | ⟨q, msg, now, rfl, rfl, hpassed⟩
    · exact (hjudged y hy goalId hp).snoc e
    · obtain ⟨hcurrent, w, tolerance, hpasses⟩ := (feedbackCallback_passes_iff ..).mp hpassed
      have hgoal := (LogicalGoal.isCurrent_iff.mp hcurrent).2
      obtain ⟨v, hv, hreceived⟩ := hrecorded.received hpasses.plan
      obtain ⟨v', hv', hthrough, rfl⟩ := hrecorded.through tolerance hpasses.through
      obtain rfl := Option.some.inj (hpasses.waypoint.symm.trans hv)
      obtain rfl := Option.some.inj (hpasses.waypoint.symm.trans hv')
      exact ⟨es, q, msg, now, [], s, w, rfl, hexec, hgoal.symm, hthrough, hreceived, hpasses⟩

omit [IsStrictOrderedRing R] in
/-- The event does not adopt a plan, or one that changes nothing. -/
def KeepsPlan (cfg : NavConfig R) (s : NavSystem κ R) : NavEvent κ R → Prop
  | .sendGoal .. => False
  | .plan msg => s.nav.logical.planCallback cfg msg = s.nav.logical
  | _ => True

omit [DecidableEq κ] in
theorem KeepsPlan.advances (hk : KeepsPlan cfg s e) (h : PlanRead cfg s.nav.logical)
    {g : LogicalGoal κ R} (hs : LogicalStep cfg s e g) : Advances cfg s.nav.logical g := by
  cases hs with
  | sendGoal => exact hk.elim
  | plan =>
      have hsame : s.nav.logical.planCallback cfg _ = s.nav.logical := hk
      rw [hsame]
      exact h.advances (.refl _) rfl
  | feedback => exact h.feedbackCallback _ _ _
  | other => exact h.advances ⟨rfl, rfl, rfl, rfl, rfl, rfl⟩ rfl

/-- While a plan stays adopted its index does not go back. -/
theorem forward_of_run (h : PlanRead cfg s.nav.logical)
    (hr : Runs.exec (NavSystem.step cfg) s es = some t)
    (hk : Runs.Meets (NavSystem.step cfg) (KeepsPlan cfg) s es) :
    t.nav.logical.planPoints = s.nav.logical.planPoints ∧
      s.nav.logical.planIndex ≤ t.nav.logical.planIndex := by
  have hrun := Runs.invariant (s := s) (t := t)
    (I := fun u => PlanRead cfg u.nav.logical ∧
      u.nav.logical.planPoints = s.nav.logical.planPoints ∧
      s.nav.logical.planIndex ≤ u.nav.logical.planIndex) ?_ ⟨h, rfl, le_rfl⟩ hk hr
  · exact hrun.2
  · rintro u e v ⟨hread, hpoints, hle⟩ hk hs
    have ha := hk.advances hread (step_effect hs).logicalStep
    exact ⟨hread.of_advances ha, ha.same.planPoints.trans hpoints, hle.trans ha.forward⟩

/-- **A through point is passed near its end of the plan.** After every run: a goal is reported
as passed only if it was judged so on a plan received for it; what `_remaining_plan_length`
returns is no shorter than the straight way to the plan's end; and while a plan stays adopted, the
judgement goes forward on it, past a stretch of the window's length at most in one feedback. -/
theorem through_points_passed {cfg : NavConfig ℝ} (hcfg : cfg.Euclidean) {stallDistance : ℝ}
    {es : List (NavEvent κ ℝ)} {s : NavSystem κ ℝ}
    (hr : Runs.exec (NavSystem.step cfg) (.boot stallDistance) es = some s) :
    (∀ goalId callback onIdle, .runCallback goalId callback .passed onIdle ∈ s.threads →
        Judged cfg stallDistance es goalId) ∧
      (∀ last, s.nav.logical.planPoints.getLast? = some last → ∀ x y, ∃ remaining,
        (s.nav.logical.remainingPlanLength cfg x y).2 = some remaining ∧
          cfg.dist (x, y) last ≤ remaining) ∧
      (∀ es' t, Runs.exec (NavSystem.step cfg) s es' = some t →
        Runs.Meets (NavSystem.step cfg) (KeepsPlan cfg) s es' →
        t.nav.logical.planPoints = s.nav.logical.planPoints ∧
          s.nav.logical.planIndex ≤ t.nav.logical.planIndex) ∧
      ∀ q msg now t, s.step cfg (.feedback q msg now) = some t →
        arcLength cfg.dist (stretch s.nav.logical.planPoints s.nav.logical.planIndex
          t.nav.logical.planIndex) ≤ planSearchWindowM := by
  obtain ⟨hrecorded, hjudged⟩ := recorded_of_run hr
  refine ⟨fun goalId callback onIdle hx => hjudged _ hx goalId rfl, fun last hlast x y => ?_,
    fun es' t hr' hk => forward_of_run hrecorded.read hr' hk, fun q msg now t hs => ?_⟩
  · exact hrecorded.read.straight_le hcfg.metric hlast x y
  · have hk : KeepsPlan cfg s (.feedback q msg now) := trivial
    exact (hk.advances hrecorded.read (step_effect hs).logicalStep).window

/-! ## A through point that is passed -/

noncomputable def exactConfig : NavConfig ℝ where
  btXmlNormal := "mg_navigate_to_pose.xml"
  btXmlQueueWait := "mg_navigate_to_pose_queue_wait.xml"
  planGoalMatchTolerance := 3 / 5
  hypot x y := Real.sqrt (x * x + y * y)

theorem exactConfig_euclidean : exactConfig.Euclidean := fun _ _ => rfl

noncomputable def throughAhead : Waypoint ℝ := ⟨0, ⟨4, 0⟩, ⟨3, true⟩, []⟩

noncomputable def aheadDispatch : Dispatch ℝ :=
  ⟨1, ⟨⟨4, 0⟩, behaviorTreeFor exactConfig "normal"⟩⟩

noncomputable def aheadPlan : List (ℝ × ℝ) := [(0, 0), (2, 0), (4, 0)]

/-- The goal is sent, Nav2 accepts it and plans a way of four metres, and the robot reports from its
start and from its middle. -/
noncomputable def throughRun : List (NavEvent Unit ℝ) :=
  [.sendGoal throughAhead () "normal" 0, .serverReady aheadDispatch, .sendGoalAsync 1, .accept 1,
    .plan ⟨0, aheadPlan⟩, .feedback 1 ⟨4, 0, 0, 0⟩ 1, .feedback 1 ⟨2, 2, 0, 0⟩ 2,
    .finish 1 .passed none]

/-- The record of the goal with its plan. -/
noncomputable def plannedAhead : LogicalGoal Unit ℝ :=
  { (LogicalGoal.init (1 / 2)).begin throughAhead () 0 with
    planPoints := aheadPlan
    planSuffix := suffixLengths exactConfig aheadPlan
    planIndex := 0 }

theorem exactConfig_axis (x : ℝ) : exactConfig.hypot x 0 = |x| := by
  show Real.sqrt (x * x + 0 * 0) = |x|
  rw [mul_zero, add_zero, Real.sqrt_mul_self_eq_abs]

theorem suffixLengths_ahead : suffixLengths exactConfig aheadPlan = [4, 2, 0] := by
  norm_num [suffixLengths, aheadPlan, exactConfig_axis]

theorem planCallback_ahead : ((LogicalGoal.init (1 / 2) : LogicalGoal Unit ℝ).begin throughAhead ()
    0).planCallback exactConfig ⟨0, aheadPlan⟩ = plannedAhead := by
  have hnear : ¬ exactConfig.planGoalMatchTolerance < exactConfig.hypot (4 - 4) (0 - 0) := by
    rw [sub_self, sub_self, exactConfig_axis, abs_zero]
    norm_num [exactConfig]
  exact if_neg hnear

/-- Along the plan there are two metres left from its middle. -/
theorem remaining_ahead {g : LogicalGoal Unit ℝ} (hp : g.planPoints = aheadPlan)
    (hs : g.planSuffix = [4, 2, 0]) (hi : g.planIndex ≤ 1) :
    (g.remainingPlanLength exactConfig 2 0).2 = some 2 := by
  have hindex : g.planIndex = 0 ∨ g.planIndex = 1 := by omega
  unfold LogicalGoal.remainingPlanLength
  rw [hp, hs]
  rcases hindex with h | h
  · norm_num [h, nearestPoint, aheadPlan, exactConfig_axis, planSearchWindowM, List.range_succ]
  · norm_num [h, nearestPoint, aheadPlan, exactConfig_axis, planSearchWindowM, List.range_succ]

theorem plannedAhead_read : PlanRead exactConfig plannedAhead :=
  ⟨rfl, fun _ => Nat.zero_lt_succ _⟩

/-- The judgement at the start of the plan does not come past its middle. -/
theorem planIndex_ahead (msg : FeedbackMsg ℝ) (now : Int) :
    (plannedAhead.feedbackCallback exactConfig 1 msg now).1.planIndex ≤ 1 := by
  have ha := plannedAhead_read.feedbackCallback 1 msg now
  have hlt := ha.inPlan (List.cons_ne_nil _ _)
  have hwindow := ha.window
  rw [arcLength_stretch exactConfig.dist ha.forward hlt, ← suffixLengths_getD,
    ← suffixLengths_getD, show plannedAhead.planPoints = aheadPlan from rfl,
    suffixLengths_ahead] at hwindow
  by_contra hpast
  have hlast : (plannedAhead.feedbackCallback exactConfig 1 msg now).1.planIndex = 2 := by
    have hlen : plannedAhead.planPoints.length = 3 := rfl
    omega
  rw [hlast, show plannedAhead.planIndex = 0 from rfl] at hwindow
  norm_num [planSearchWindowM] at hwindow

theorem passed_halfway (now now' : Int) :
    ((plannedAhead.feedbackCallback exactConfig 1 ⟨4, 0, 0, 0⟩ now).1.feedbackCallback exactConfig 1
      ⟨2, 2, 0, 0⟩ now').2 = true := by
  have ha := plannedAhead_read.feedbackCallback 1 ⟨4, 0, 0, 0⟩ now
  have hsame := ha.same
  obtain ⟨hgoal, hactive, _⟩ := plannedAhead.feedbackCallback_same exactConfig 1 ⟨4, 0, 0, 0⟩ now
  have hsuffix := hsame.planSuffix.trans suffixLengths_ahead
  refine (feedbackCallback_passes_iff ..).mpr ⟨isCurrent_iff.mpr ⟨hactive, hgoal.symm⟩,
    throughAhead, 3, hsame.waypoint, hsame.throughTolerance, ?_,
    ⟨2, remaining_ahead hsame.planPoints hsuffix (planIndex_ahead _ _), ?_⟩, ?_⟩
  · rw [hsame.planPoints]
    exact List.cons_ne_nil _ _
  · norm_num
  · show exactConfig.hypot (4 - 2) (0 - 0) ≤ 3
    rw [sub_self, exactConfig_axis]
    norm_num

theorem exec_throughRun : ∃ s : NavSystem Unit ℝ,
    Runs.exec (NavSystem.step exactConfig) (.boot (1 / 2)) throughRun = some s ∧
      .runCallback 1 () .passed none ∈ s.threads := by
  let s₁ : NavSystem Unit ℝ := (boot (1 / 2)).sendGoal exactConfig throughAhead () "normal" 0
  have hserver : Thread.waitServer aheadDispatch ∈ s₁.threads :=
    Multiset.mem_cons_self (Thread.waitServer aheadDispatch) 0
  have h₂ : s₁.step exactConfig (.serverReady aheadDispatch) =
      some (s₁.runDispatch aheadDispatch (.waitServer aheadDispatch)) := by
    rw [step, if_pos hserver]
  let s₂ := s₁.runDispatch aheadDispatch (.waitServer aheadDispatch)
  have hclaimed : (s₂.lane 1).client = .claimed := rfl
  have h₃ : s₂.step exactConfig (.sendGoalAsync 1) = some (s₂.sendGoalAsync 1) := by
    rw [step, if_pos hclaimed]
  have hrequested : ((s₂.sendGoalAsync 1).lane 1).server = .requested := rfl
  have h₄ : (s₂.sendGoalAsync 1).step exactConfig (.accept 1) =
      some ((s₂.sendGoalAsync 1).accept 1) := by
    rw [step, if_pos hrequested]
  let s₄ := (s₂.sendGoalAsync 1).accept 1
  let s₅ : NavSystem Unit ℝ := { s₄ with nav := { s₄.nav with logical := plannedAhead } }
  have h₅ : s₄.step exactConfig (.plan ⟨0, aheadPlan⟩) = some s₅ := by
    have hlogical : s₄.nav.logical = (LogicalGoal.init (1 / 2)).begin throughAhead () 0 := rfl
    rw [step, hlogical, planCallback_ahead]
  have hrunning : (s₅.lane 1).server = .running := rfl
  let s₆ := s₅.feedback exactConfig 1 ⟨4, 0, 0, 0⟩ 1
  have h₆ : s₅.step exactConfig (.feedback 1 ⟨4, 0, 0, 0⟩ 1) = some s₆ := by
    rw [step, hrunning]
  have hrunning' : (s₆.lane 1).server = .running := rfl
  let s₇ := s₆.feedback exactConfig 1 ⟨2, 2, 0, 0⟩ 2
  have h₇ : s₆.step exactConfig (.feedback 1 ⟨2, 2, 0, 0⟩ 2) = some s₇ := by
    rw [step, hrunning']
  let g₆ := (plannedAhead.feedbackCallback exactConfig 1 ⟨4, 0, 0, 0⟩ 1).1
  have hfinish : Thread.finish 1 .passed none ∈ s₇.threads := by
    have hthreads : s₇.threads = (if (g₆.feedbackCallback exactConfig 1 ⟨2, 2, 0, 0⟩ 2).2
        then {Thread.finish 1 .passed none} else 0) + s₆.threads := rfl
    rw [hthreads, if_pos (passed_halfway 1 2)]
    exact Multiset.mem_add.mpr (.inl (Multiset.mem_singleton_self _))
  have h₈ : s₇.step exactConfig (.finish 1 .passed none) = some (s₇.finish 1 .passed none) := by
    rw [step, if_pos hfinish]
  refine ⟨_, Runs.exec_cons_iff.mpr ⟨s₁, rfl, Runs.exec_cons_iff.mpr ⟨_, h₂,
    Runs.exec_cons_iff.mpr ⟨_, h₃, Runs.exec_cons_iff.mpr ⟨_, h₄, Runs.exec_cons_iff.mpr ⟨_, h₅,
      Runs.exec_cons_iff.mpr ⟨_, h₆, Runs.exec_cons_iff.mpr ⟨_, h₇, Runs.exec_single h₈⟩⟩⟩⟩⟩⟩⟩, ?_⟩
  obtain ⟨hgoal, hactive, hcallback⟩ :=
    plannedAhead.feedbackCallback_same exactConfig 1 ⟨4, 0, 0, 0⟩ 1
  obtain ⟨hgoal', hactive', hcallback'⟩ := g₆.feedbackCallback_same exactConfig 1 ⟨2, 2, 0, 0⟩ 2
  have hlogical : s₇.nav.logical = (g₆.feedbackCallback exactConfig 1 ⟨2, 2, 0, 0⟩ 2).1 := rfl
  have hcurrent : s₇.nav.logical.isCurrent 1 = true := by
    rw [hlogical]
    exact isCurrent_iff.mpr ⟨hactive'.trans hactive, (hgoal'.trans hgoal).symm⟩
  have hselected : s₇.nav.logical.resultCallback = some () := by
    rw [hlogical, hcallback', hcallback]
    rfl
  unfold finish
  rw [finish_of_current _ hcurrent, hselected]
  exact Pool.mem_advance_left (Multiset.mem_singleton_self _)

/-- The goal is passed halfway, and it was judged so. -/
theorem through_points_passed_halfway : ∃ s : NavSystem Unit ℝ,
    Runs.exec (NavSystem.step exactConfig) (.boot (1 / 2)) throughRun = some s ∧
      .runCallback 1 () .passed none ∈ s.threads ∧ Judged exactConfig (1 / 2) throughRun 1 := by
  obtain ⟨s, hr, hx⟩ := exec_throughRun
  exact ⟨s, hr, hx, (through_points_passed exactConfig_euclidean hr).1 1 () none hx⟩

end NavSystem

end MgRobot.Sequencer

import MgRobot.Sequencer.NavSystem
import MgRobot.Sequencer.PlanLength

/-!
# When a through point counts as passed

The plan that the judgement reads was received after the goal was sent and ends at the goal, and
a goal is reported as passed only on feedback that finds the robot near it, straight and along
that plan. Over every run of the navigator, its threads and Nav2.
-/

namespace MgRobot.Sequencer

open MgRobot.Lib MgRobot.Lib.Polyline

set_option autoImplicit false

variable {κ R : Type*}

def NavEvent.IsSend : NavEvent κ R → Prop
  | .sendGoal .. => True
  | _ => False

/-- The last `send_goal` was for `w`, at `sentNs`, and `since` has happened since. -/
structure LastSent (es : List (NavEvent κ R)) (w : Waypoint R) (sentNs : Int)
    (since : List (NavEvent κ R)) : Prop where
  split : ∃ before callback mode, es = before ++ .sendGoal w callback mode sentNs :: since
  last : ∀ e ∈ since, ¬ e.IsSend

/-- A plan with these points was received for the last goal, which is `w`. -/
def PlanReceived [LE R] [Sub R] (cfg : NavConfig R) (es : List (NavEvent κ R)) (w : Waypoint R)
    (points : List (R × R)) : Prop :=
  ∃ sentNs before msg after last, LastSent es w sentNs (before ++ .plan msg :: after) ∧
    msg.poses = points ∧ (msg.stampNs = 0 ∨ sentNs ≤ msg.stampNs) ∧
    points.getLast? = some last ∧
    cfg.dist (w.pose.x, w.pose.y) last ≤ cfg.planGoalMatchTolerance

theorem LastSent.snoc {es since : List (NavEvent κ R)} {w : Waypoint R} {sentNs : Int}
    {e : NavEvent κ R} (h : LastSent es w sentNs since) (he : ¬ e.IsSend) :
    LastSent (es ++ [e]) w sentNs (since ++ [e]) := by
  obtain ⟨⟨before, callback, mode, rfl⟩, hlast⟩ := h
  refine ⟨⟨before, callback, mode, by rw [List.append_assoc, List.cons_append]⟩, fun x hx => ?_⟩
  rcases List.mem_append.mp hx with hx | hx
  · exact hlast x hx
  · rw [List.mem_singleton.mp hx]
    exact he

theorem PlanReceived.snoc [LE R] [Sub R] {cfg : NavConfig R} {es : List (NavEvent κ R)}
    {w : Waypoint R} {points : List (R × R)} {e : NavEvent κ R} (h : PlanReceived cfg es w points)
    (he : ¬ e.IsSend) : PlanReceived cfg (es ++ [e]) w points := by
  obtain ⟨sentNs, before, msg, after, last, hsent, h⟩ := h
  refine ⟨sentNs, before, msg, after ++ [e], last, ?_, h⟩
  have hsnoc := hsent.snoc he
  rw [List.append_assoc, List.cons_append] at hsnoc
  exact hsnoc

namespace LogicalGoal

/-- The goal and its plan are the same; the index of the plan may be a different one. -/
structure SameRoute (g g' : LogicalGoal κ R) : Prop where
  goalId : g'.goalId = g.goalId
  waypoint : g'.waypoint = g.waypoint
  throughTolerance : g'.throughTolerance = g.throughTolerance
  sendTimeNs : g'.sendTimeNs = g.sendTimeNs
  planPoints : g'.planPoints = g.planPoints
  planSuffix : g'.planSuffix = g.planSuffix

theorem SameRoute.refl (g : LogicalGoal κ R) : SameRoute g g := ⟨rfl, rfl, rfl, rfl, rfl, rfl⟩

variable [Field R] [LinearOrder R] {cfg : NavConfig R} {g g' : LogicalGoal κ R}

/-- The way along the plan from one index to a later one. -/
structure Advances (cfg : NavConfig R) (g g' : LogicalGoal κ R) : Prop where
  same : SameRoute g g'
  forward : g.planIndex ≤ g'.planIndex
  inPlan : g.planPoints ≠ [] → g'.planIndex < g.planPoints.length
  window : arcLength cfg.dist (stretch g.planPoints g.planIndex g'.planIndex) ≤ planSearchWindowM

theorem PlanRead.of_advances (h : PlanRead cfg g) (ha : Advances cfg g g') : PlanRead cfg g' := by
  refine ⟨?_, fun hne => ?_⟩
  · rw [ha.same.planSuffix, ha.same.planPoints]
    exact h.suffix
  · rw [ha.same.planPoints] at hne ⊢
    exact ha.inPlan hne

/-- A step that leaves the plan alone. -/
theorem PlanRead.advances [IsStrictOrderedRing R] (h : PlanRead cfg g) (hs : SameRoute g g')
    (hi : g'.planIndex = g.planIndex) : Advances cfg g g' := by
  refine ⟨hs, hi.ge, fun hne => hi ▸ h.index hne, ?_⟩
  have hwindow : (0 : R) ≤ planSearchWindowM := zero_le_two
  rw [hi]
  cases hp : g.planPoints with
  | nil =>
      rw [stretch, List.take_nil, List.drop_nil]
      exact hwindow
  | cons p rest =>
      have hlt := h.index (hp ▸ List.cons_ne_nil p rest)
      rw [hp] at hlt
      rw [arcLength_stretch cfg.dist le_rfl hlt, sub_self]
      exact hwindow

/-! ## What the callbacks do -/

/-- `_plan_callback` adopts a plan for the goal, or nothing changes. -/
theorem planCallback_cases (cfg : NavConfig R) (g : LogicalGoal κ R) (msg : PathMsg R) :
    g.planCallback cfg msg = g ∨ ∃ w tolerance last, g.waypoint = some w ∧
      g.throughTolerance = some tolerance ∧ msg.poses.getLast? = some last ∧
      (msg.stampNs = 0 ∨ g.sendTimeNs ≤ msg.stampNs) ∧
      cfg.dist (w.pose.x, w.pose.y) last ≤ cfg.planGoalMatchTolerance ∧
      g.planCallback cfg msg =
        { g with
          planPoints := msg.poses
          planSuffix := suffixLengths cfg msg.poses
          planIndex := 0 } := by
  unfold planCallback
  split
  · rename_i tolerance w last _ htol hw hlast
    split
    · exact .inl rfl
    · rename_i hstamp
      split
      · exact .inl rfl
      · rename_i hnear
        refine .inr ⟨w, tolerance, last, hw, htol, hlast, ?_, not_lt.mp hnear, rfl⟩
        rw [not_and_or, not_not, not_lt] at hstamp
        exact hstamp
  · exact .inl rfl

/-- The judgement of a through point. -/
structure Passes (cfg : NavConfig R) (g : LogicalGoal κ R) (w : Waypoint R) (tolerance x y : R) :
    Prop where
  waypoint : g.waypoint = some w
  through : g.throughTolerance = some tolerance
  plan : g.planPoints ≠ []
  along : ∃ remaining, (g.remainingPlanLength cfg x y).2 = some remaining ∧ remaining ≤ tolerance
  straight : cfg.dist (x, y) (w.pose.x, w.pose.y) ≤ tolerance

theorem onFeedback_passes_iff (g : LogicalGoal κ R) (msg : FeedbackMsg R) (nowNs : Int) :
    (g.onFeedback cfg msg nowNs).2 = true ↔
      ∃ w tolerance, Passes cfg g w tolerance msg.x msg.y := by
  unfold LogicalGoal.onFeedback
  dsimp only
  split
  · rename_i tolerance w htol hw
    have hfound : ∀ {w' tolerance'}, Passes cfg g w' tolerance' msg.x msg.y →
        w' = w ∧ tolerance' = tolerance := fun hp =>
      ⟨Option.some.inj (hp.waypoint.symm.trans hw), Option.some.inj (hp.through.symm.trans htol)⟩
    split
    · rename_i hnil
      exact iff_of_false nofun fun ⟨_, _, hp⟩ => hp.plan hnil
    · rename_i hne
      -- the search reads nothing that the feedback has changed
      obtain ⟨g', remaining, hsearch⟩ : ∃ g' remaining, remainingPlanLength
          { g with
            distanceRemaining := msg.distanceRemaining
            progress := g.progress.update cfg msg.x msg.y msg.numberOfRecoveries (toSec nowNs) }
          cfg msg.x msg.y = (g', remaining) := ⟨_, _, rfl⟩
      have hremaining : (g.remainingPlanLength cfg msg.x msg.y).2 = remaining :=
        congrArg Prod.snd hsearch
      rw [hsearch]
      cases remaining with
      | none =>
          refine iff_of_false nofun ?_
          rintro ⟨_, _, hp⟩
          obtain ⟨r, hr, _⟩ := hp.along
          exact absurd (hremaining.symm.trans hr) nofun
      | some r =>
          dsimp only
          rw [decide_eq_true_eq]
          constructor
          · rintro ⟨halong, hstraight⟩
            exact ⟨w, tolerance, hw, htol, hne, ⟨r, hremaining, halong⟩, hstraight⟩
          · rintro ⟨w', tolerance', hp⟩
            obtain ⟨rfl, rfl⟩ := hfound hp
            obtain ⟨r', hr', halong⟩ := hp.along
            obtain rfl := Option.some.inj (hremaining.symm.trans hr')
            exact ⟨halong, hp.straight⟩
  · rename_i hnone
    exact iff_of_false nofun fun ⟨w, tolerance, hp⟩ => hnone tolerance w hp.through hp.waypoint

/-- `_feedback_callback` goes forward on the plan, by the window at most. -/
theorem PlanRead.onFeedback [IsStrictOrderedRing R] (h : PlanRead cfg g) (msg : FeedbackMsg R)
    (nowNs : Int) : Advances cfg g (g.onFeedback cfg msg nowNs).1 := by
  have hstay : ∀ progress, Advances cfg g
      { g with distanceRemaining := msg.distanceRemaining, progress := progress } :=
    fun progress => h.advances ⟨rfl, rfl, rfl, rfl, rfl, rfl⟩ rfl
  unfold LogicalGoal.onFeedback
  dsimp only
  split
  · split
    · exact hstay _
    · rename_i hne
      have hread : PlanRead cfg
          { g with
            distanceRemaining := msg.distanceRemaining
            progress := g.progress.update cfg msg.x msg.y msg.numberOfRecoveries (toSec nowNs) } :=
        ⟨h.suffix, h.index⟩
      obtain ⟨best, bestDist, hfound, heq⟩ := hread.remainingPlanLength hne msg.x msg.y
      rw [heq]
      exact ⟨⟨rfl, rfl, rfl, rfl, rfl, rfl⟩, hfound.forward, fun _ => hfound.inPlan, hfound.window⟩
  · exact hstay _

theorem PlanRead.feedbackCallback [IsStrictOrderedRing R] (h : PlanRead cfg g) (goalId : Nat)
    (msg : FeedbackMsg R) (nowNs : Int) :
    Advances cfg g (g.feedbackCallback cfg goalId msg nowNs).1 := by
  unfold LogicalGoal.feedbackCallback
  split
  · exact h.onFeedback msg nowNs
  · exact h.advances (.refl g) rfl

theorem feedbackCallback_passes_iff (g : LogicalGoal κ R) (goalId : Nat) (msg : FeedbackMsg R)
    (nowNs : Int) : (g.feedbackCallback cfg goalId msg nowNs).2 = true ↔
      g.isCurrent goalId = true ∧ ∃ w tolerance, Passes cfg g w tolerance msg.x msg.y := by
  unfold LogicalGoal.feedbackCallback
  split
  · rename_i hcurrent
    rw [onFeedback_passes_iff, and_iff_right hcurrent]
  · rename_i hcurrent
    exact iff_of_false nofun fun hp => hcurrent hp.1

end LogicalGoal

end MgRobot.Sequencer

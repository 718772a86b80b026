import MgRobot.Localization.SupervisorNode
import MgRobot.Lib.Numerals
import Mathlib.Algebra.Order.Floor.Ring
import Mathlib.Data.Rat.Floor
import Mathlib.Tactic.NormNum

/-!
# The poses a recovery starts from

`_on_timer` keeps the recent transforms from the map to the odometry frame while
the machine is NORMAL, and remembers when the suspicion began. At a REINIT the
last transform from before the suspicion, moved along with the odometry, is one
of the candidates.
-/

namespace MgRobot.Localization

set_option autoImplicit false

open MgRobot.Lib.Runs

/-- A pose `(x, y, yaw)`. -/
structure Pose2 (R : Type*) where
  x : R
  y : R
  yaw : R
  deriving DecidableEq, Repr

/-- The functions of `math` that the poses are computed with. -/
structure PlaneMath (R : Type*) where
  pi : R
  cos : R → R
  sin : R → R
  sqrt : R → R

namespace PlaneMath

variable {R : Type*} [Field R] [LinearOrder R] [FloorRing R] (m : PlaneMath R)

/-- `wrap_angle`; `%` of Python has the sign of its second operand. -/
def wrapAngle (angle : R) : R :=
  let full := 2 * m.pi
  angle + m.pi - ⌊(angle + m.pi) / full⌋ * full - m.pi

/-- `compose`. -/
def compose (a b : Pose2 R) : Pose2 R :=
  let c := m.cos a.yaw
  let s := m.sin a.yaw
  ⟨a.x + c * b.x - s * b.y, a.y + s * b.x + c * b.y, m.wrapAngle (a.yaw + b.yaw)⟩

end PlaneMath

/-- The parameters that only the recovery reads. -/
structure ReinitConfig (R : Type*) where
  historySec : R
  rollbackMarginSec : R
  reinitMinGain : R
  reinitGnssMaxSigmaM : R
  reinitPositionStdM : R
  gnssMaxAgeSec : R

/-- The defaults of `_declare_parameters`. -/
def ReinitConfig.defaults {R : Type*} [Field R] : ReinitConfig R where
  historySec := 60
  rollbackMarginSec := 3
  reinitMinGain := 5 / 100
  reinitGnssMaxSigmaM := 15 / 10
  reinitPositionStdM := 5 / 10
  gnssMaxAgeSec := 3

inductive CandidateName where
  | ekf | rollback | gnss
  deriving DecidableEq, Repr

def CandidateName.text : CandidateName → String
  | .ekf => "ekf"
  | .rollback => "rollback"
  | .gnss => "gnss"

structure Candidate (R : Type*) where
  name : CandidateName
  pose : Pose2 R
  std : R
  deriving DecidableEq, Repr

/-- What `_gps` keeps of a fix that the candidates read. -/
structure GpsFix (R : Type*) where
  t : R
  x : R
  y : R
  var : R

/-- What one call of `_on_timer` reads. -/
structure TimerInputs (R : Type*) where
  now : R
  checks : Checks := {}
  /-- `_lookup_pose(map_frame, base_frame)`. -/
  mapBase : Option (Pose2 R) := none
  /-- `_lookup_pose(map_frame, odom_frame)`. -/
  mapOdom : Option (Pose2 R) := none
  /-- `_lookup_pose(odom_frame, base_frame)`. -/
  odomBase : Option (Pose2 R) := none
  gps : Option (GpsFix R) := none
  /-- `_scan_ratio_at`. -/
  scanRatioAt : Pose2 R → Option R := fun _ => none
  gateReady : Bool := false

/-- The node with what it keeps for a rollback. -/
structure RecoverableNode (R : Type*) where
  node : SupervisorNode R
  mapOdomHistory : List (R × Pose2 R)
  suspectSince : Option R

section Select

variable {R : Type*} [Add R] [LT R] [DecidableLT R]

/-- A step of the loop of `_reinit` over the candidates after the first one. -/
def preferCandidate (minGain : R) (scanRatioAt : Pose2 R → Option R)
    (best : Candidate R × Option R) (candidate : Candidate R) : Candidate R × Option R :=
  let ratio := scanRatioAt candidate.pose
  match best.2, ratio with
  | some bestRatio, some r => if bestRatio + minGain < r then (candidate, ratio) else best
  | _, _ => if candidate.name = .gnss then (candidate, ratio) else best

/-- The candidate `_reinit` publishes, with its scan match. -/
def selectCandidate (minGain : R) (scanRatioAt : Pose2 R → Option R) :
    List (Candidate R) → Option (Candidate R × Option R)
  | [] => none
  | first :: rest => some <|
      rest.foldl (preferCandidate minGain scanRatioAt) (first, scanRatioAt first.pose)

/-- The text `_reinit` answers; `format` prints a scan match with two digits. -/
def reinitText (format : R → String) : Option (Candidate R × Option R) → String
  | none => "reinit skipped: no pose available"
  | some (best, ratio) =>
      "reinit from " ++ best.name.text ++ " (scan match " ++ (ratio.map format).getD "n/a" ++ ")"

variable {minGain : R} {scanRatioAt : Pose2 R → Option R} {candidates : List (Candidate R)}

/-- What is published is one of the candidates. -/
theorem selectCandidate_mem {best : Candidate R × Option R}
    (h : selectCandidate minGain scanRatioAt candidates = some best) : best.1 ∈ candidates := by
  cases candidates with
  | nil => cases h
  | cons first rest =>
      obtain rfl := Option.some.inj h
      refine List.foldlRecOn (motive := fun b : Candidate R × Option R => b.1 ∈ first :: rest)
        rest _ List.mem_cons_self fun b hb candidate hmem => ?_
      have hc : candidate ∈ first :: rest := List.mem_cons_of_mem first hmem
      unfold preferCandidate
      dsimp only
      split
      all_goals split_ifs
      exacts [hc, hb, hc, hb]

end Select

section History

variable {R : Type*} [Sub R] [LE R] [LT R] [DecidableLE R] [DecidableLT R]

/-- The samples that `popleft` leaves. -/
def dropOld (historySec now : R) (history : List (R × Pose2 R)) : List (R × Pose2 R) :=
  history.dropWhile fun e => decide (historySec < now - e.1)

/-- `_record_map_odom`; `state` is the state of the machine. -/
def recordMapOdom (historySec : R) (state : State) (now : R) (mapOdom : Option (Pose2 R))
    (history : List (R × Pose2 R)) : List (R × Pose2 R) :=
  match mapOdom with
  | some pose =>
      if state = .normal then dropOld historySec now (history ++ [(now, pose)]) else history
  | none => history

/-- `_rollback_map_odom`. -/
def rollbackMapOdom (margin : R) (suspectSince : Option R) (history : List (R × Pose2 R)) :
    Option (Pose2 R) :=
  suspectSince.bind fun since =>
    history.foldl (fun chosen e => if e.1 ≤ since - margin then some e.2 else chosen) none

end History

namespace RecoverableNode

variable {R : Type*}

/-- `__init__`. -/
def init [Zero R] : RecoverableNode R := ⟨.init, [], none⟩

variable [Field R] [LinearOrder R] [FloorRing R] (m : PlaneMath R) (format : R → String)
  (cfg : SupervisorConfig R) (rc : ReinitConfig R) (s : RecoverableNode R) (i : TimerInputs R)

/-- `_candidate_poses`. -/
def candidatePoses : List (Candidate R) :=
  let ekf := (i.mapBase.map fun pose => ⟨.ekf, pose, rc.reinitPositionStdM⟩).toList
  let rollback :=
    match rollbackMapOdom rc.rollbackMarginSec s.suspectSince s.mapOdomHistory, i.odomBase with
    | some rollback, some odomBase =>
        [⟨.rollback, m.compose rollback odomBase, rc.reinitPositionStdM⟩]
    | _, _ => []
  let gnss :=
    match i.gps, i.mapBase with
    | some gps, some ekf =>
        if i.now - gps.t ≤ rc.gnssMaxAgeSec ∧ gps.var ≤ rc.reinitGnssMaxSigmaM ^ 2 then
          [⟨.gnss, ⟨gps.x, gps.y, ekf.yaw⟩, max (m.sqrt gps.var) (1 / 10)⟩]
        else []
    | _, _ => []
  ekf ++ rollback ++ gnss

/-- The machine's step of a callback, after the grace period is looked at. -/
def stepMachine (n : SupervisorNode R) : SupervisorMachine R × Decision :=
  let grace := n.graceUntil.getD (i.now + cfg.startupGraceSec)
  n.machine.step cfg.machine i.now (if i.now < grace then {} else i.checks)

/-- What the callback keeps for a rollback, before its actions are carried out. -/
def remember : RecoverableNode R :=
  let r := stepMachine cfg i s.node
  { s with
    suspectSince :=
      if s.node.machine.state = .normal ∧ r.2.state = .suspect then some i.now else s.suspectSince
    mapOdomHistory := recordMapOdom rc.historySec r.1.state i.now i.mapOdom s.mapOdomHistory }

/-- The candidates that a REINIT of this callback chooses from. -/
def offered : List (Candidate R) :=
  if i.now ≠ 0 ∧ .reinit ∈ (stepMachine cfg i s.node).2.actions then
    (s.remember cfg rc i).candidatePoses m rc i
  else []

/-- `_on_timer`. -/
def onTimer : RecoverableNode R × List (SupervisorCall R) :=
  let best := selectCandidate rc.reinitMinGain i.scanRatioAt (s.offered m cfg rc i)
  let g := s.node.onTimer cfg i.now i.checks (reinitText format best) i.gateReady
  ({ (if i.now = 0 then s else s.remember cfg rc i) with node := g.1 }, g.2)

variable {m format cfg rc s i}

theorem onTimer_zero (h : i.now = 0) : s.onTimer m format cfg rc i = (s, []) := by
  simp [onTimer, SupervisorNode.onTimer, h]

/-- The machine of the node takes the step that the history is kept by. -/
theorem machine_onTimer (h : i.now ≠ 0) :
    (s.onTimer m format cfg rc i).1.node.machine = (stepMachine cfg i s.node).1 := by
  have hbring : ∀ n : SupervisorNode R, (n.bringGate i.gateReady).1.machine = n.machine := by
    intro n
    unfold SupervisorNode.bringGate SupervisorNode.callGate
    split_ifs <;> rfl
  simp only [onTimer, SupervisorNode.onTimer, if_neg h, hbring]
  rfl

theorem history_onTimer (h : i.now ≠ 0) : (s.onTimer m format cfg rc i).1.mapOdomHistory =
    recordMapOdom rc.historySec (stepMachine cfg i s.node).1.state i.now i.mapOdom
      s.mapOdomHistory := by
  simp only [onTimer, if_neg h]
  rfl

theorem suspectSince_onTimer (h : i.now ≠ 0) : (s.onTimer m format cfg rc i).1.suspectSince =
    if s.node.machine.state = .normal ∧ (stepMachine cfg i s.node).2.state = .suspect then
      some i.now
    else s.suspectSince := by
  simp only [onTimer, if_neg h]
  rfl

end RecoverableNode

end MgRobot.Localization

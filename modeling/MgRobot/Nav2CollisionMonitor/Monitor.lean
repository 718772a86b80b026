import MgRobot.Nav2CollisionMonitor.Polygons
import MgRobot.Lib.Runs

/-!
# CollisionMonitor

The decision of `collision_monitor_node.cpp` about a velocity command: a source whose
data is missing stops the robot, otherwise the polygons in turn may ask for less than
what was decided so far.
-/

namespace MgRobot.Nav2CollisionMonitor

set_option autoImplicit false

open MgRobot.Lib.Runs

structure Action (R : Type*) where
  actionType : ActionType
  reqVel : Velocity R
  polygonName : String
  deriving DecidableEq

/-- A data source; its data is the stamp and the content of the last message. -/
structure Source (R D : Type*) where
  name : String
  enabled : Bool
  stopOnTimeout : Bool
  sourceTimeout : R
  data : Option (R × D)

structure CollisionMonitor (R D : Type*) [Zero R] [LT R] where
  polygons : List (Polygon R)
  sources : List (Source R D)
  /-- Whether there is a topic for the state. -/
  statePub : Bool
  stopPubTimeout : R
  processActive : Bool
  robotActionPrev : Action R
  stopStamp : R

/-- What the monitor gets from elsewhere: the functions of the standard library, and the points
of a source's data in the base frame, `none` where a transform is missing. -/
structure Env (R D : Type*) where
  fns : MathFns R
  toBase : String → R → D → Option (List (Point R))

section

variable {R D : Type*} [Field R] [LinearOrder R]

namespace Source

variable (s : Source R D)

def sourceTimedOut (sourceTime currTime : R) : Bool := s.sourceTimeout < currTime - sourceTime

def isDataStale (currTime : R) : Bool :=
  match s.data with
  | none => true
  | some (stamp, _) => s.sourceTimedOut stamp currTime

def getData (env : Env R D) (currTime : R) : List (Point R) :=
  match s.data with
  | none => []
  | some (stamp, data) =>
      if s.sourceTimedOut stamp currTime then [] else (env.toBase s.name currTime data).getD []

end Source

/-- `std::clamp` -/
def clamp (v lo hi : R) : R := if v < lo then lo else if hi < v then hi else v

namespace Polygon

/-- `vertices` are those of a footprint or of a polygon given in another frame, if it is known. -/
def updatePolygon (p : Polygon R) (vertices : String → Option (List (Point R))) : Polygon R :=
  match p.shape, vertices p.name with
  | .polygon _, some poly => { p with shape := .polygon poly }
  | _, _ => p

variable (fns : MathFns R) (p : Polygon R) (collisionPoints : List (Point R))
  (velocity : Velocity R)

/-- The velocity that a polygon of type LIMIT asks for. -/
def limited : Velocity R :=
  let linearVel := fns.hypot velocity.x velocity.y
  let ratio := if linearVel ≠ 0 then clamp (p.linearLimit / linearVel) 0 1 else 1
  { x := velocity.x * ratio
    y := velocity.y * ratio
    tw := clamp velocity.tw (-p.angularLimit) p.angularLimit }

def processStopSlowdownLimit (robotAction : Action R) : Action R :=
  if !p.shape.isShapeSet then robotAction
  else if p.minPoints ≤ p.shape.getPointsInside collisionPoints then
    if p.actionType = .stop then
      { polygonName := p.name, actionType := .stop, reqVel := .zero }
    else if p.actionType = .slowdown then
      let safeVel := velocity.mul p.slowdownRatio
      if safeVel.isLess robotAction.reqVel then
        { polygonName := p.name, actionType := .slowdown, reqVel := safeVel }
      else robotAction
    else
      let safeVel := p.limited fns velocity
      if safeVel.isLess robotAction.reqVel then
        { polygonName := p.name, actionType := .limit, reqVel := safeVel }
      else robotAction
  else robotAction

variable [FloorRing R]

def processApproach (robotAction : Action R) : Action R :=
  if !p.shape.isShapeSet then robotAction
  else
    let collisionTime := p.getCollisionTime fns collisionPoints velocity
    -- `0 / 0` is not a number, and nothing is less than it or greater
    if 0 ≤ collisionTime ∧ p.timeBeforeCollision ≠ 0 then
      let changeRatio := collisionTime / p.timeBeforeCollision
      let safeVel := velocity.mul changeRatio
      if safeVel.isLess robotAction.reqVel then
        { polygonName := p.name, actionType := .approach, reqVel := safeVel }
      else robotAction
    else robotAction

/-- The body of the loop over the polygons. -/
def act (robotAction : Action R) : Action R :=
  match p.actionType with
  | .stop | .slowdown | .limit =>
      p.processStopSlowdownLimit fns collisionPoints velocity robotAction
  | .approach => p.processApproach fns collisionPoints velocity robotAction
  | .doNothing => robotAction

end Polygon

variable [FloorRing R]

/-- The loop over the polygons, which updates those it reaches. -/
def processPolygons (fns : MathFns R) (vertices : String → Option (List (Point R)))
    (collisionPoints : List (Point R)) (velocity : Velocity R) :
    List (Polygon R) → Action R → List (Polygon R) × Action R
  | [], robotAction => ([], robotAction)
  | p :: rest, robotAction =>
      if !p.enabled then
        let (rest, robotAction) :=
          processPolygons fns vertices collisionPoints velocity rest robotAction
        (p :: rest, robotAction)
      else if robotAction.actionType = .stop then (p :: rest, robotAction)
      else
        let p := p.updatePolygon vertices
        let (rest, robotAction) := processPolygons fns vertices collisionPoints velocity rest
          (p.act fns collisionPoints velocity robotAction)
        (p :: rest, robotAction)

namespace CollisionMonitor

variable (m : CollisionMonitor R D) (env : Env R D)

def collisionPoints (currTime : R) : List (Point R) :=
  (m.sources.filter Source.enabled).flatMap fun s => s.getData env currTime

/-- The first source that is marked with `stop_on_timeout` and has no fresh data. -/
def missingSource (currTime : R) : Option (Source R D) :=
  m.sources.find? fun s => s.enabled && s.stopOnTimeout && s.isDataStale currTime

/-- The action before the polygons are looked at. -/
def initialAction (currTime : R) (cmdVelIn : Velocity R) : Action R :=
  match m.missingSource currTime with
  | some s => { polygonName := "source_timeout:" ++ s.name, actionType := .stop, reqVel := .zero }
  | none => { actionType := .doNothing, reqVel := cmdVelIn, polygonName := "" }

/-- The decision of `process`, with the polygons it has updated. -/
def decision (currTime : R) (vertices : String → Option (List (Point R)))
    (cmdVelIn : Velocity R) : List (Polygon R) × Action R :=
  processPolygons env.fns vertices (m.collisionPoints env currTime) cmdVelIn m.polygons
    (m.initialAction currTime cmdVelIn)

end CollisionMonitor

/-! ## What is decided -/

/-- What a polygon asks for, if it asks for anything. -/
def Polygon.demand (fns : MathFns R) (p : Polygon R) (points : List (Point R))
    (velocity : Velocity R) : Option (Velocity R) :=
  if !p.shape.isShapeSet then none
  else match p.actionType with
    | .stop => if p.minPoints ≤ p.shape.getPointsInside points then some .zero else none
    | .slowdown =>
        if p.minPoints ≤ p.shape.getPointsInside points then some (velocity.mul p.slowdownRatio)
        else none
    | .limit =>
        if p.minPoints ≤ p.shape.getPointsInside points then some (p.limited fns velocity)
        else none
    | .approach =>
        if 0 ≤ p.getCollisionTime fns points velocity ∧ p.timeBeforeCollision ≠ 0 then
          some (velocity.mul (p.getCollisionTime fns points velocity / p.timeBeforeCollision))
        else none
    | .doNothing => none

variable {fns : MathFns R} {p : Polygon R} {points : List (Point R)} {velocity : Velocity R}

/-- A polygon gets what it asks for when it asks for a stop, or for less than decided so far. -/
theorem Polygon.act_spec (a : Action R) :
    p.act fns points velocity a =
      match p.demand fns points velocity with
      | none => a
      | some v =>
          if p.actionType = .stop ∨ v.isLess a.reqVel = true then
            { polygonName := p.name, actionType := p.actionType, reqVel := v }
          else a := by
  cases hset : p.shape.isShapeSet with
  | false =>
      cases htype : p.actionType <;>
        simp [Polygon.act, Polygon.demand, Polygon.processStopSlowdownLimit,
          Polygon.processApproach, hset, htype]
  | true =>
      cases htype : p.actionType with
      | doNothing => simp [Polygon.act, Polygon.demand, htype]
      | approach =>
          by_cases htime : 0 ≤ p.getCollisionTime fns points velocity ∧
              p.timeBeforeCollision ≠ 0 <;>
            simp [Polygon.act, Polygon.demand, Polygon.processApproach, hset, htype, htime]
      | stop | slowdown | limit =>
          by_cases hinside : p.minPoints ≤ p.shape.getPointsInside points <;>
            simp [Polygon.act, Polygon.demand, Polygon.processStopSlowdownLimit, hset, htype,
              hinside]

/-- A stop asks for standing still, the other types for what they compute. -/
theorem Polygon.demand_stop {v : Velocity R} (h : p.demand fns points velocity = some v)
    (htype : p.actionType = .stop) : v = .zero := by
  rw [Polygon.demand, htype] at h
  split at h
  · cases h
  · simp only at h
    split at h
    · exact (Option.some.inj h).symm
    · cases h

variable {vertices : String → Option (List (Point R))}

omit [FloorRing R] in
variable (p vertices) in
theorem Polygon.updatePolygon_fields : (p.updatePolygon vertices).name = p.name ∧
    (p.updatePolygon vertices).actionType = p.actionType := by
  rw [Polygon.updatePolygon]
  split <;> exact ⟨rfl, rfl⟩

/-- Where an action comes from. -/
inductive Origin (fns : MathFns R) (vertices : String → Option (List (Point R)))
    (points : List (Point R)) (velocity : Velocity R) (ps : List (Polygon R)) (a : Action R) :
    Action R → Prop
  | kept : Origin fns vertices points velocity ps a a
  | asked (p : Polygon R) (v : Velocity R) (hp : p ∈ ps) (henabled : p.enabled = true)
      (hdemand : (p.updatePolygon vertices).demand fns points velocity = some v) :
      Origin fns vertices points velocity ps a
        { actionType := p.actionType, reqVel := v, polygonName := p.name }

theorem Origin.mono {ps qs : List (Polygon R)} {a b : Action R}
    (h : Origin fns vertices points velocity ps a b) (hsub : ps ⊆ qs) :
    Origin fns vertices points velocity qs a b := by
  cases h with
  | kept => exact .kept
  | asked p v hp henabled hdemand => exact .asked p v (hsub hp) henabled hdemand

theorem Origin.trans {rest : List (Polygon R)} {a b c : Action R}
    (h : Origin fns vertices points velocity rest b c)
    (h' : Origin fns vertices points velocity (p :: rest) a b) :
    Origin fns vertices points velocity (p :: rest) a c := by
  cases h with
  | kept => exact h'
  | asked q v hq henabled hdemand =>
      exact .asked q v (List.mem_cons_of_mem _ hq) henabled hdemand

theorem Polygon.act_origin {rest : List (Polygon R)} (henabled : p.enabled = true) (a : Action R) :
    Origin fns vertices points velocity (p :: rest) a
      ((p.updatePolygon vertices).act fns points velocity a) := by
  rw [Polygon.act_spec]
  cases hdemand : (p.updatePolygon vertices).demand fns points velocity with
  | none => exact .kept
  | some v =>
      simp only
      split
      · rw [(p.updatePolygon_fields vertices).1, (p.updatePolygon_fields vertices).2]
        exact .asked p v List.mem_cons_self henabled hdemand
      · exact .kept

variable [IsStrictOrderedRing R]

variable (fns p points velocity) in
/-- One polygon: the result is no faster than before, and no faster than the polygon allows. -/
theorem Polygon.act_least {a : Action R} (hstop : a.actionType = .stop → a.reqVel.vel = 0) :
    (p.act fns points velocity a).reqVel.vel ≤ a.reqVel.vel ∧
      (∀ v, p.demand fns points velocity = some v →
        (p.act fns points velocity a).reqVel.vel ≤ v.vel) ∧
      ((p.act fns points velocity a).actionType = .stop →
        (p.act fns points velocity a).reqVel.vel = 0) := by
  rw [Polygon.act_spec]
  cases hdemand : p.demand fns points velocity with
  | none =>
      refine ⟨le_rfl, fun v h => ?_, hstop⟩
      cases h
  | some v =>
      simp only [Option.some.injEq]
      by_cases htake : p.actionType = .stop ∨ v.isLess a.reqVel = true
      · rw [if_pos htake]
        have hv : p.actionType = .stop → v.vel = 0 := by
          intro htype
          rw [Polygon.demand_stop hdemand htype]
          exact Velocity.vel_zero
        refine ⟨?_, ?_, hv⟩
        · rcases htake with htype | hless
          · rw [hv htype]
            exact a.reqVel.vel_nonneg
          · exact (of_decide_eq_true hless).le
        · rintro v' rfl
          exact le_rfl
      · rw [if_neg htake]
        refine ⟨le_rfl, ?_, hstop⟩
        rintro v' rfl
        have hless : ¬ v.vel < a.reqVel.vel := by
          intro h
          exact htake (.inr (decide_eq_true h))
        exact not_lt.mp hless

variable (fns vertices points velocity) in
/-- The loop over the polygons ends with the slowest velocity that is asked for. -/
theorem processPolygons_least (ps : List (Polygon R)) {a : Action R}
    (hstop : a.actionType = .stop → a.reqVel.vel = 0) :
    Origin fns vertices points velocity ps a
        (processPolygons fns vertices points velocity ps a).2 ∧
      (processPolygons fns vertices points velocity ps a).2.reqVel.vel ≤ a.reqVel.vel ∧
      (∀ p ∈ ps, p.enabled = true → ∀ v,
        (p.updatePolygon vertices).demand fns points velocity = some v →
        (processPolygons fns vertices points velocity ps a).2.reqVel.vel ≤ v.vel) ∧
      ((processPolygons fns vertices points velocity ps a).2.actionType = .stop →
        (processPolygons fns vertices points velocity ps a).2.reqVel.vel = 0) := by
  induction ps generalizing a with
  | nil => exact ⟨.kept, le_rfl, fun p hp => absurd hp List.not_mem_nil, hstop⟩
  | cons p rest ih =>
      rw [processPolygons]
      cases henabled : p.enabled with
      | false =>
          obtain ⟨horigin, hle, hall, hstop'⟩ := ih hstop
          refine ⟨horigin.mono (List.subset_cons_self _ _), hle, fun q hq hqe => ?_, hstop'⟩
          rcases List.mem_cons.mp hq with rfl | hq
          · rw [henabled] at hqe
            cases hqe
          · exact hall q hq hqe
      | true =>
          by_cases htype : a.actionType = .stop
          · simp only [Bool.not_true, Bool.false_eq_true, if_false, if_pos htype]
            refine ⟨.kept, le_rfl, fun q _ _ v _ => ?_, hstop⟩
            rw [hstop htype]
            exact v.vel_nonneg
          · simp only [Bool.not_true, Bool.false_eq_true, if_false, if_neg htype]
            obtain ⟨hle, hown, hzero⟩ := (p.updatePolygon vertices).act_least fns points velocity hstop
            obtain ⟨horigin, hle', hall, hstop'⟩ := ih hzero
            refine ⟨?_, hle'.trans hle, fun q hq hqe v hv => ?_, hstop'⟩
            · exact horigin.trans (Polygon.act_origin henabled a)
            · rcases List.mem_cons.mp hq with rfl | hq
              · exact hle'.trans (hown v hv)
              · exact hall q hq hqe v hv

/-- Polygons that ask for no more speed lead to no more speed. -/
theorem processPolygons_le {ps qs : List (Polygon R)} {points' : List (Point R)} {a b : Action R}
    (hstop : a.actionType = .stop → a.reqVel.vel = 0)
    (hstop' : b.actionType = .stop → b.reqVel.vel = 0) (hab : b.reqVel.vel ≤ a.reqVel.vel)
    (h : ∀ p ∈ ps, p.enabled = true → ∀ v,
      (p.updatePolygon vertices).demand fns points velocity = some v →
      ∃ q ∈ qs, q.enabled = true ∧ ∃ v',
        (q.updatePolygon vertices).demand fns points' velocity = some v' ∧ v'.vel ≤ v.vel) :
    (processPolygons fns vertices points' velocity qs b).2.reqVel.vel ≤
      (processPolygons fns vertices points velocity ps a).2.reqVel.vel := by
  obtain ⟨horigin, _, _, _⟩ := processPolygons_least fns points velocity vertices ps hstop
  obtain ⟨_, hle, hall, _⟩ := processPolygons_least fns points' velocity vertices qs hstop'
  generalize (processPolygons fns vertices points velocity ps a).2 = c at horigin ⊢
  cases horigin with
  | kept => exact hle.trans hab
  | asked p v hp henabled hdemand =>
      obtain ⟨q, hq, hqe, v', hv', hle'⟩ := h p hp henabled v hdemand
      exact (hall q hq hqe v' hv').trans hle'

variable (m : CollisionMonitor R D) (env : Env R D) (currTime : R)

omit [FloorRing R] in
theorem CollisionMonitor.initialAction_spec (cmdVelIn : Velocity R) :
    (m.initialAction currTime cmdVelIn).reqVel.vel ≤ cmdVelIn.vel ∧
      ((m.initialAction currTime cmdVelIn).actionType = .stop →
        (m.initialAction currTime cmdVelIn).reqVel.vel = 0) ∧
      (m.initialAction currTime cmdVelIn =
          { actionType := .doNothing, reqVel := cmdVelIn, polygonName := "" } ∧
          m.missingSource currTime = none ∨
        ∃ s ∈ m.sources, s.enabled = true ∧ s.stopOnTimeout = true ∧
          s.isDataStale currTime = true ∧ m.initialAction currTime cmdVelIn =
            { polygonName := "source_timeout:" ++ s.name, actionType := .stop,
              reqVel := .zero }) := by
  cases hmissing : m.missingSource currTime with
  | none =>
      rw [CollisionMonitor.initialAction, hmissing]
      refine ⟨le_rfl, fun h => ?_, .inl ⟨rfl, rfl⟩⟩
      cases h
  | some s =>
      rw [CollisionMonitor.initialAction, hmissing]
      have hs := List.find?_some hmissing
      simp only [Bool.and_eq_true] at hs
      refine ⟨?_, fun _ => Velocity.vel_zero,
        .inr ⟨s, List.mem_of_find?_eq_some hmissing, hs.1.1, hs.1.2, hs.2, rfl⟩⟩
      exact Velocity.vel_zero.le.trans cmdVelIn.vel_nonneg

omit [FloorRing R] in
theorem Velocity.eq_zero_of_vel_le {v : Velocity R} (h : v.vel ≤ 0) : v = .zero := by
  have hzero := (v.isZero_iff).mpr (le_antisymm h v.vel_nonneg)
  simp only [Velocity.isZero, Bool.and_eq_true, beq_iff_eq] at hzero
  obtain ⟨⟨hx, hy⟩, htw⟩ := hzero
  cases v
  simp_all [Velocity.zero]

variable (vertices) in
theorem CollisionMonitor.decision_le (cmdVelIn : Velocity R) :
    (m.decision env currTime vertices cmdVelIn).2.reqVel.vel ≤ cmdVelIn.vel := by
  obtain ⟨hslow, hstop, _⟩ := m.initialAction_spec currTime cmdVelIn
  obtain ⟨_, hle, _⟩ := processPolygons_least env.fns (m.collisionPoints env currTime) cmdVelIn
    vertices m.polygons hstop
  exact hle.trans hslow

variable (vertices) in
/-- The decision is that of the command, of a source without data, or of a polygon. -/
theorem CollisionMonitor.decision_origin (cmdVelIn : Velocity R) {a : Action R}
    (ha : a = (m.decision env currTime vertices cmdVelIn).2) :
    a = { actionType := .doNothing, reqVel := cmdVelIn, polygonName := "" } ∨
      (∃ s ∈ m.sources, s.enabled = true ∧ s.stopOnTimeout = true ∧
        s.isDataStale currTime = true ∧
        a = { actionType := .stop, reqVel := .zero, polygonName := "source_timeout:" ++ s.name }) ∨
      ∃ p ∈ m.polygons, p.enabled = true ∧ ∃ v, (p.updatePolygon vertices).demand env.fns
        (m.collisionPoints env currTime) cmdVelIn = some v ∧
        a = { actionType := p.actionType, reqVel := v, polygonName := p.name } := by
  obtain ⟨_, hstop, hsource⟩ := m.initialAction_spec currTime cmdVelIn
  obtain ⟨horigin, _⟩ := processPolygons_least env.fns (m.collisionPoints env currTime) cmdVelIn
    vertices m.polygons hstop
  rw [CollisionMonitor.decision] at ha
  rw [← ha] at horigin
  cases horigin with
  | kept =>
      rcases hsource with ⟨heq, _⟩ | ⟨s, hs, he, hm, hstale, heq⟩
      · exact .inl heq
      · exact .inr (.inl ⟨s, hs, he, hm, hstale, heq⟩)
  | asked p v hp henabled hdemand => exact .inr (.inr ⟨p, hp, henabled, v, hdemand, rfl⟩)

variable (vertices) in
/-- The decision about a command is the slowest of the command and of what the enabled polygons
ask for, in whatever order they are listed, and it is one of these; without the data of an enabled
source that is marked with `stop_on_timeout` the robot stands still. -/
theorem decided_velocity (cmdVelIn : Velocity R) :
    ∃ a, a = (m.decision env currTime vertices cmdVelIn).2 ∧
      a.reqVel.vel ≤ cmdVelIn.vel ∧
      (∀ p ∈ m.polygons, p.enabled = true → ∀ v,
        (p.updatePolygon vertices).demand env.fns (m.collisionPoints env currTime) cmdVelIn = some v →
        a.reqVel.vel ≤ v.vel) ∧
      (∀ s ∈ m.sources, s.enabled = true → s.stopOnTimeout = true → s.isDataStale currTime = true →
        a.reqVel = .zero) ∧
      (a = { actionType := .doNothing, reqVel := cmdVelIn, polygonName := "" } ∨
        (∃ s ∈ m.sources, s.enabled = true ∧ s.stopOnTimeout = true ∧
          s.isDataStale currTime = true ∧
          a = { actionType := .stop, reqVel := .zero, polygonName := "source_timeout:" ++ s.name }) ∨
        ∃ p ∈ m.polygons, p.enabled = true ∧ ∃ v, (p.updatePolygon vertices).demand env.fns
          (m.collisionPoints env currTime) cmdVelIn = some v ∧
          a = { actionType := p.actionType, reqVel := v, polygonName := p.name }) ∧
      ∀ ps, ps.Perm m.polygons →
        ({ m with polygons := ps }.decision env currTime vertices cmdVelIn).2.reqVel.vel =
          a.reqVel.vel := by
  obtain ⟨_, hstop, hsource⟩ := m.initialAction_spec currTime cmdVelIn
  obtain ⟨_, hle, hall, _⟩ := processPolygons_least env.fns
    (m.collisionPoints env currTime) cmdVelIn vertices m.polygons hstop
  refine ⟨_, rfl, m.decision_le vertices env currTime cmdVelIn, hall, ?_,
    m.decision_origin vertices env currTime cmdVelIn rfl, ?_⟩
  · intro s hs henabled hmark hstale
    refine Velocity.eq_zero_of_vel_le (hle.trans ?_)
    have hfound : m.missingSource currTime ≠ none := by
      rw [CollisionMonitor.missingSource, ne_eq, List.find?_eq_none]
      intro hnone
      exact hnone s hs (by simp [henabled, hmark, hstale])
    rcases hsource with ⟨_, hnone⟩ | ⟨_, _, _, _, _, heq⟩
    · exact absurd hnone hfound
    · rw [heq]
      exact Velocity.vel_zero.le
  · intro ps hperm
    refine le_antisymm ?_ ?_
    · refine processPolygons_le hstop hstop le_rfl fun p hp he v hv => ?_
      exact ⟨p, hperm.mem_iff.mpr hp, he, v, hv, le_rfl⟩
    · refine processPolygons_le hstop hstop le_rfl fun p hp he v hv => ?_
      exact ⟨p, hperm.mem_iff.mp hp, he, v, hv, le_rfl⟩

/-- With more points a collision is found no later. -/
theorem Polygon.collisionTime_mono {points' : List (Point R)} (hsub : points.Subperm points')
    (hstep : 0 < p.simulationTimeStep) (htime : 0 ≤ p.getCollisionTime fns points velocity) :
    ∃ k k' : Nat, p.getCollisionTime fns points velocity = k * p.simulationTimeStep ∧
      k * p.simulationTimeStep ≤ p.timeBeforeCollision ∧
      p.getCollisionTime fns points' velocity = k' * p.simulationTimeStep ∧ k' ≤ k := by
  rcases Polygon.getCollisionTime_spec fns points velocity hstep with
    ⟨k, hk, hbefore, hhit, _⟩ | ⟨hnone, _⟩
  · have hhit' := Polygon.hits_of_subperm fns hsub hhit
    rcases Polygon.getCollisionTime_spec fns points' velocity hstep with
      ⟨k', hk', _, _, hfirst⟩ | ⟨_, hclear⟩
    · refine ⟨k, k', hk, hbefore, hk', ?_⟩
      by_contra hlt
      exact hfirst k (by omega) hhit'
    · exact absurd hhit' (hclear k hbefore)
  · rw [hnone] at htime
    exact absurd htime (not_le.mpr (neg_lt_zero.mpr one_pos))

/-- More points make a polygon ask for less. -/
theorem Polygon.demand_mono {points' : List (Point R)} (hsub : points.Subperm points') {v : Velocity R} (h : p.demand fns points velocity = some v) :
    ∃ v', p.demand fns points' velocity = some v' ∧ v'.vel ≤ v.vel := by
  have hinside : p.minPoints ≤ p.shape.getPointsInside points →
      p.minPoints ≤ p.shape.getPointsInside points' := fun hmin =>
    hmin.trans (Int.ofNat_le.mpr (hsub.countP_le _))
  rw [Polygon.demand] at h ⊢
  cases hset : p.shape.isShapeSet with
  | false =>
      rw [hset] at h
      cases h
  | true =>
      simp only [hset, Bool.not_true, Bool.false_eq_true, if_false] at h ⊢
      cases htype : p.actionType with
      | doNothing =>
          rw [htype] at h
          cases h
      | stop | slowdown | limit =>
          simp only [htype] at h ⊢
          split at h <;> rename_i hmin
          · exact ⟨_, if_pos (hinside hmin), by rw [← Option.some.inj h]⟩
          · cases h
      | approach =>
          simp only [htype] at h ⊢
          have hstep := p.simulationTimeStep_pos htype
          split at h <;> rename_i htime
          · obtain ⟨k, k', hk, hwithin, hk', hle⟩ :=
              Polygon.collisionTime_mono hsub hstep htime.1
            obtain rfl := Option.some.inj h
            have hnonneg : (0 : R) ≤ k' * p.simulationTimeStep :=
              mul_nonneg (Nat.cast_nonneg _) hstep.le
            have hbefore : 0 ≤ p.timeBeforeCollision :=
              (mul_nonneg (Nat.cast_nonneg k) hstep.le).trans hwithin
            have hcast : (k' : R) * p.simulationTimeStep ≤ k * p.simulationTimeStep :=
              mul_le_mul_of_nonneg_right (Nat.cast_le.mpr hle) hstep.le
            rw [hk, hk']
            refine ⟨_, if_pos ⟨hnonneg, htime.2⟩, ?_⟩
            rw [Velocity.vel_mul, Velocity.vel_mul]
            refine mul_le_mul_of_nonneg_right ?_ velocity.vel_nonneg
            refine pow_le_pow_left₀ (div_nonneg hnonneg hbefore) ?_ 2
            exact div_le_div_of_nonneg_right hcast hbefore
          · cases h

/-- Seeing more never makes the robot faster: with the same polygons, a monitor that has more
collision points, and misses a source if the other does, decides on no more speed. -/
theorem more_points_no_faster {m m' : CollisionMonitor R D} (cmdVelIn : Velocity R)
    (hpolygons : m'.polygons = m.polygons)
    (hsub : (m.collisionPoints env currTime).Subperm (m'.collisionPoints env currTime))
    (hmissing : m.missingSource currTime ≠ none → m'.missingSource currTime ≠ none) :
    (m'.decision env currTime vertices cmdVelIn).2.reqVel.vel ≤
      (m.decision env currTime vertices cmdVelIn).2.reqVel.vel := by
  obtain ⟨_, hstop, hsource⟩ := m.initialAction_spec currTime cmdVelIn
  obtain ⟨hslow', hstop', hsource'⟩ := m'.initialAction_spec currTime cmdVelIn
  have hstart : (m'.initialAction currTime cmdVelIn).reqVel.vel ≤
      (m.initialAction currTime cmdVelIn).reqVel.vel := by
    rcases hsource with ⟨heq, _⟩ | ⟨s, hs, he, hm, hstale, _⟩
    · rw [heq]
      exact hslow'
    · have hfound : m.missingSource currTime ≠ none := by
        rw [CollisionMonitor.missingSource, ne_eq, List.find?_eq_none]
        intro hnone
        exact hnone s hs (by simp [he, hm, hstale])
      rcases hsource' with ⟨_, hnone⟩ | ⟨_, _, _, _, _, heq'⟩
      · exact absurd hnone (hmissing hfound)
      · rw [heq']
        exact Velocity.vel_zero.le.trans (Velocity.vel_nonneg _)
  refine processPolygons_le hstop hstop' hstart fun p hp he v hv => ?_
  rw [hpolygons]
  obtain ⟨v', hv', hle⟩ := Polygon.demand_mono hsub hv
  exact ⟨p, hp, he, v', hv', hle⟩

end

/-- The functions for headings of zero and vectors along an axis. -/
def MathFns.onAxis : MathFns ℚ where
  cos _ := 1
  sin _ := 0
  hypot x y := |x| + |y|

/-- A monitor with one scanner and one circle that watches the way ahead. -/
def watching (scan : Option (ℚ × List (Point ℚ))) : CollisionMonitor ℚ (List (Point ℚ)) where
  polygons := [{
    name := "ahead", actionType := .approach, enabled := true, minPoints := 1, slowdownRatio := 1
    linearLimit := 1, angularLimit := 1, timeBeforeCollision := 2, simulationTimeStep := 1 / 10
    shape := .circle (1 / 4), simulationTimeStep_pos _ := by norm_num }]
  sources := [{
    name := "scan", enabled := true, stopOnTimeout := false, sourceTimeout := 2, data := scan }]
  statePub := true
  stopPubTimeout := 1
  processActive := false
  robotActionPrev := { actionType := .doNothing, reqVel := ⟨-1, -1, -1⟩, polygonName := "" }
  stopStamp := 0

def Env.onAxis : Env ℚ (List (Point ℚ)) where
  fns := .onAxis
  toBase _ _ points := some points

theorem decided_velocity_wall :
    ∃ a, a = ((watching (some (0, [⟨1, 0⟩]))).decision .onAxis 1 (fun _ => none) ⟨1, 0, 0⟩).2 ∧
      a.reqVel.vel ≤ (1 / 4) ^ 2 ∧ a.reqVel.vel ≤ (⟨1, 0, 0⟩ : Velocity ℚ).vel := by
  obtain ⟨a, ha, hslow, hall, _⟩ := decided_velocity (fun _ => none)
    (watching (some (0, [⟨1, 0⟩]))) Env.onAxis 1 ⟨1, 0, 0⟩
  refine ⟨a, ha, ?_, hslow⟩
  have h := hall _ List.mem_cons_self rfl ⟨1 / 4, 0, 0⟩ (by decide +kernel)
  exact h.trans (by norm_num [Velocity.vel])

/-- A wall one metre ahead, once it is scanned, takes three quarters of the speed. -/
theorem more_points_no_faster_wall :
    ((watching (some (0, [⟨1, 0⟩]))).decision .onAxis 1 (fun _ => none) ⟨1, 0, 0⟩).2.reqVel.vel ≤
        ((watching none).decision .onAxis 1 (fun _ => none) ⟨1, 0, 0⟩).2.reqVel.vel ∧
      ((watching (some (0, [⟨1, 0⟩]))).decision .onAxis 1 (fun _ => none) ⟨1, 0, 0⟩).2 =
        { actionType := .approach, reqVel := ⟨1 / 4, 0, 0⟩, polygonName := "ahead" } := by
  refine ⟨more_points_no_faster Env.onAxis 1 ⟨1, 0, 0⟩ rfl ?_ ?_, ?_⟩
  · exact List.nil_subperm
  · intro h
    exact absurd rfl h
  · decide +kernel

end MgRobot.Nav2CollisionMonitor

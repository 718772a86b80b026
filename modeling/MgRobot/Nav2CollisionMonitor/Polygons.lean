import Mathlib.Algebra.BigOperators.Ring.Finset
import Mathlib.Algebra.Order.Archimedean.Basic
import Mathlib.Algebra.Order.Archimedean.Real.Basic
import Mathlib.Algebra.Order.Floor.Ring
import Mathlib.Analysis.Complex.Trigonometric
import Mathlib.Analysis.Real.Sqrt
import Mathlib.Data.List.Perm.Subperm
import Mathlib.Logic.Function.Iterate
import Mathlib.Tactic.Linarith
import Mathlib.Tactic.LinearCombination
import Mathlib.Tactic.Positivity
import MgRobot.Lib.Numerals

/-!
# Polygons of the collision monitor

`types.hpp`, `kinematics.cpp`, and what `polygon.cpp` and `circle.cpp` compute: the
points inside a shape and the time to a collision, found by moving the robot along its
velocity step by step.
-/

namespace MgRobot.Nav2CollisionMonitor

set_option autoImplicit false

structure Velocity (R : Type*) where
  x : R
  y : R
  tw : R
  deriving DecidableEq

structure Point (R : Type*) where
  x : R
  y : R
  deriving DecidableEq

structure Pose (R : Type*) where
  x : R
  y : R
  theta : R
  deriving DecidableEq

inductive ActionType where
  | doNothing
  | stop
  | slowdown
  | approach
  | limit
  deriving DecidableEq, Repr

/-- A polygon with its vertices in the base frame, or a circle around the base. -/
inductive Shape (R : Type*) where
  | polygon (poly : List (Point R))
  | circle (radiusSquared : R)

/-- The loop of `getCollisionTime` is for a positive time step; with another one it need not end. -/
structure Polygon (R : Type*) [Zero R] [LT R] where
  name : String
  actionType : ActionType
  enabled : Bool
  minPoints : Int
  slowdownRatio : R
  linearLimit : R
  angularLimit : R
  timeBeforeCollision : R
  simulationTimeStep : R
  shape : Shape R
  simulationTimeStep_pos : actionType = .approach → 0 < simulationTimeStep

/-- The functions of the standard library that the monitor uses. -/
structure MathFns (R : Type*) where
  cos : R → R
  sin : R → R
  hypot : R → R → R

namespace Velocity

variable {R : Type*} [Field R]

/-- What `operator<` compares. -/
def vel (v : Velocity R) : R := v.x * v.x + v.y * v.y + v.tw * v.tw

def zero : Velocity R := { x := 0, y := 0, tw := 0 }

def mul (v : Velocity R) (c : R) : Velocity R := { x := v.x * c, y := v.y * c, tw := v.tw * c }

variable [LinearOrder R]

def isLess (v second : Velocity R) : Bool := v.vel < second.vel

def isZero (v : Velocity R) : Bool := v.x == 0 && v.y == 0 && v.tw == 0

omit [LinearOrder R] in
theorem vel_zero : (zero : Velocity R).vel = 0 := by
  simp [vel, zero]

omit [LinearOrder R] in
theorem vel_mul (v : Velocity R) (c : R) : (v.mul c).vel = c ^ 2 * v.vel := by
  simp only [vel, mul]
  ring

theorem vel_nonneg [IsStrictOrderedRing R] (v : Velocity R) : 0 ≤ v.vel :=
  add_nonneg (add_nonneg (mul_self_nonneg _) (mul_self_nonneg _)) (mul_self_nonneg _)

theorem isZero_iff [IsStrictOrderedRing R] (v : Velocity R) : v.isZero = true ↔ v.vel = 0 := by
  have hx := mul_self_nonneg v.x
  have hy := mul_self_nonneg v.y
  have ht := mul_self_nonneg v.tw
  simp only [isZero, Bool.and_eq_true, beq_iff_eq, vel]
  constructor
  · rintro ⟨⟨h1, h2⟩, h3⟩
    rw [h1, h2, h3]
    ring
  · intro h
    refine ⟨⟨mul_self_eq_zero.mp ?_, mul_self_eq_zero.mp ?_⟩, mul_self_eq_zero.mp ?_⟩ <;> linarith

end Velocity

section

variable {R : Type*} [Field R] [LinearOrder R]

/-- The rule of crossed edges, with a ray from the point to the right. -/
def isPointInside (poly : List (Point R)) (point : Point R) : Bool :=
  ((poly.getLast?.toList ++ poly).zip poly).foldl
    (fun res (i, j) =>
      if decide (point.y ≤ i.y) = decide (j.y < point.y) then
        let xInter := i.x + (point.y - i.y) * (j.x - i.x) / (j.y - i.y)
        if point.x < xInter then !res else res
      else res)
    false

namespace Shape

def contains : Shape R → Point R → Bool
  | polygon poly, point => isPointInside poly point
  | circle radiusSquared, point => point.x * point.x + point.y * point.y < radiusSquared

def isShapeSet : Shape R → Bool
  | polygon poly => !poly.isEmpty
  | circle _ => true

def getPointsInside (s : Shape R) (points : List (Point R)) : Int := points.countP s.contains

end Shape

variable (fns : MathFns R)

def transformPoint (pose : Pose R) (point : Point R) : Point R :=
  let cosTheta := fns.cos pose.theta
  let sinTheta := fns.sin pose.theta
  let mulX := point.x - pose.x
  let mulY := point.y - pose.y
  { x := mulX * cosTheta + mulY * sinTheta
    y := -mulX * sinTheta + mulY * cosTheta }

def transformPoints (pose : Pose R) (points : List (Point R)) : List (Point R) :=
  points.map (transformPoint fns pose)

def projectState (dt : R) (s : Pose R × Velocity R) : Pose R × Velocity R :=
  let (pose, velocity) := s
  let theta := velocity.tw * dt
  let cosTheta := fns.cos theta
  let sinTheta := fns.sin theta
  ({ x := pose.x + velocity.x * dt
     y := pose.y + velocity.y * dt
     theta := pose.theta + theta },
    { velocity with
      x := velocity.x * cosTheta - velocity.y * sinTheta
      y := velocity.x * sinTheta + velocity.y * cosTheta })

namespace Polygon

variable (p : Polygon R) (points : List (Point R))

/-- Whether enough points lie inside the shape of a robot that stands at `pose`. -/
def collidesAt (pose : Pose R) : Bool :=
  p.minPoints ≤ p.shape.getPointsInside (transformPoints fns pose points)

/-- The loop of `getCollisionTime`; out of fuel it has left the loop as well. -/
def simulate : Nat → R → Pose R × Velocity R → R
  | 0, _, _ => -1
  | fuel + 1, time, s =>
      if time ≤ p.timeBeforeCollision then
        let s := projectState fns p.simulationTimeStep s
        if p.collidesAt fns points s.1 then time
        else simulate fuel (time + p.simulationTimeStep) s
      else -1

def getCollisionTime [FloorRing R] (velocity : Velocity R) : R :=
  p.simulate fns points (⌊p.timeBeforeCollision / p.simulationTimeStep⌋ + 1).toNat 0
    ({ x := 0, y := 0, theta := 0 }, velocity)

/-- The robot after `n` steps of the simulation. -/
def projected (velocity : Velocity R) (n : Nat) : Pose R × Velocity R :=
  (projectState fns p.simulationTimeStep)^[n] ({ x := 0, y := 0, theta := 0 }, velocity)

/-- Round `k` of the simulation sees a collision. -/
def hits (velocity : Velocity R) (k : Nat) : Prop :=
  p.collidesAt fns points (p.projected fns velocity (k + 1)).1 = true

variable [IsStrictOrderedRing R] {p points}

variable (points) in
/-- The loop returns the time of the first round that sees a collision. -/
theorem simulate_spec (velocity : Velocity R) (hstep : 0 < p.simulationTimeStep) (fuel n : Nat)
    (hclear : ∀ j < n, ¬ p.hits fns points velocity j)
    (hfuel : p.timeBeforeCollision < ((n + fuel : ℕ) : R) * p.simulationTimeStep) :
    (∃ k : Nat, p.simulate fns points fuel (n * p.simulationTimeStep) (p.projected fns velocity n) =
        k * p.simulationTimeStep ∧ k * p.simulationTimeStep ≤ p.timeBeforeCollision ∧
        p.hits fns points velocity k ∧ ∀ j < k, ¬ p.hits fns points velocity j) ∨
      (p.simulate fns points fuel (n * p.simulationTimeStep) (p.projected fns velocity n) = -1 ∧
        ∀ k : Nat, k * p.simulationTimeStep ≤ p.timeBeforeCollision →
          ¬ p.hits fns points velocity k) := by
  have hlate : ∀ m : Nat, p.timeBeforeCollision < m * p.simulationTimeStep →
      (∀ j < m, ¬ p.hits fns points velocity j) →
      ∀ k : Nat, k * p.simulationTimeStep ≤ p.timeBeforeCollision →
        ¬ p.hits fns points velocity k := by
    intro m hm hclear k hk
    refine hclear k ?_
    by_contra hle
    have hcast : (m : R) ≤ k := Nat.cast_le.mpr (by omega)
    exact absurd (hm.trans_le (mul_le_mul_of_nonneg_right hcast hstep.le)) (not_lt.mpr hk)
  induction fuel generalizing n with
  | zero => exact .inr ⟨rfl, hlate n (by simpa using hfuel) hclear⟩
  | succ fuel ih =>
      rw [simulate]
      split <;> rename_i htime
      · have hnext : projectState fns p.simulationTimeStep (p.projected fns velocity n) =
            p.projected fns velocity (n + 1) := by
          rw [projected, projected, Function.iterate_succ_apply']
        simp only [hnext]
        by_cases hhit : p.collidesAt fns points (p.projected fns velocity (n + 1)).1 = true
        · rw [if_pos hhit]
          exact .inl ⟨n, rfl, htime, hhit, hclear⟩
        · have hclear' : ∀ j < n + 1, ¬ p.hits fns points velocity j := by
            intro j hj
            rcases Nat.lt_succ_iff_lt_or_eq.mp hj with hlt | rfl
            · exact hclear j hlt
            · exact hhit
          have htime' : (n : R) * p.simulationTimeStep + p.simulationTimeStep =
              ((n + 1 : ℕ) : R) * p.simulationTimeStep := by
            push_cast
            ring
          have hfuel' : p.timeBeforeCollision <
              ((n + 1 + fuel : ℕ) : R) * p.simulationTimeStep := by
            have hsum : n + 1 + fuel = n + (fuel + 1) := by omega
            rw [hsum]
            exact hfuel
          rw [if_neg hhit, htime']
          exact ih (n + 1) hclear' hfuel'
      · exact .inr ⟨rfl, hlate n (not_le.mp htime) hclear⟩

variable (points) in
/-- `getCollisionTime` is the time of the first step of the simulation after which enough points
lie inside the shape, and -1 if there is none up to `time_before_collision`. -/
theorem getCollisionTime_spec [FloorRing R] (velocity : Velocity R)
    (hstep : 0 < p.simulationTimeStep) :
    (∃ k : Nat, p.getCollisionTime fns points velocity = k * p.simulationTimeStep ∧
        k * p.simulationTimeStep ≤ p.timeBeforeCollision ∧
        p.hits fns points velocity k ∧ ∀ j < k, ¬ p.hits fns points velocity j) ∨
      (p.getCollisionTime fns points velocity = -1 ∧
        ∀ k : Nat, k * p.simulationTimeStep ≤ p.timeBeforeCollision →
          ¬ p.hits fns points velocity k) := by
  have hfuel : p.timeBeforeCollision <
      ((0 + (⌊p.timeBeforeCollision / p.simulationTimeStep⌋ + 1).toNat : ℕ) : R) *
        p.simulationTimeStep := by
    rw [Nat.zero_add, ← div_lt_iff₀ hstep]
    have hfloor := Int.lt_floor_add_one (p.timeBeforeCollision / p.simulationTimeStep)
    refine hfloor.trans_le ?_
    exact_mod_cast Int.self_le_toNat (⌊p.timeBeforeCollision / p.simulationTimeStep⌋ + 1)
  have h := simulate_spec fns points velocity hstep _ 0
    (fun j hj => absurd hj (Nat.not_lt_zero j)) hfuel
  have hzero : ((0 : ℕ) : R) * p.simulationTimeStep = 0 := by simp
  rw [hzero] at h
  exact h

omit [IsStrictOrderedRing R] in
/-- More points are hit no later. -/
theorem hits_of_subperm {points' : List (Point R)} (hsub : points.Subperm points')
    {velocity : Velocity R} {k : Nat} (h : p.hits fns points velocity k) :
    p.hits fns points' velocity k := by
  have hcount : ∀ s : Point R → Bool, ∀ f : Point R → Point R,
      (points.map f).countP s ≤ (points'.map f).countP s := by
    intro s f
    rw [List.countP_map, List.countP_map]
    exact hsub.countP_le _
  rw [hits, collidesAt, decide_eq_true_iff] at h ⊢
  exact h.trans (Int.ofNat_le.mpr (hcount _ _))

/-- What the simulation needs to know about the cosine and the sine. -/
structure Rotations (fns : MathFns R) : Prop where
  cos_zero : fns.cos 0 = 1
  sin_zero : fns.sin 0 = 0
  cos_add : ∀ a b, fns.cos (a + b) = fns.cos a * fns.cos b - fns.sin a * fns.sin b
  sin_add : ∀ a b, fns.sin (a + b) = fns.sin a * fns.cos b + fns.cos a * fns.sin b
  pythagoras : ∀ a, fns.cos a ^ 2 + fns.sin a ^ 2 = 1

/-- The heading after `n` steps. -/
def headingAt (p : Polygon R) (velocity : Velocity R) (n : Nat) : R :=
  n * (velocity.tw * p.simulationTimeStep)

/-- The pose of a robot that has driven `n` steps along its arc. -/
def placeAt (fns : MathFns R) (p : Polygon R) (velocity : Velocity R) (n : Nat) : Pose R where
  x := ∑ i ∈ Finset.range n, (velocity.x * fns.cos (p.headingAt velocity i) -
    velocity.y * fns.sin (p.headingAt velocity i)) * p.simulationTimeStep
  y := ∑ i ∈ Finset.range n, (velocity.x * fns.sin (p.headingAt velocity i) +
    velocity.y * fns.cos (p.headingAt velocity i)) * p.simulationTimeStep
  theta := p.headingAt velocity n

/-- The shape of a robot at `pose` covers the point. -/
def covers (fns : MathFns R) (p : Polygon R) (pose : Pose R) (point : Point R) : Bool :=
  match p.shape with
  | .circle radiusSquared =>
      (point.x - pose.x) ^ 2 + (point.y - pose.y) ^ 2 < radiusSquared
  | .polygon poly => isPointInside poly (transformPoint fns pose point)

/-- Enough points are covered after `n` steps along the arc. -/
def occupied (fns : MathFns R) (p : Polygon R) (points : List (Point R)) (velocity : Velocity R)
    (n : Nat) : Prop :=
  p.minPoints ≤ points.countP (p.covers fns (p.placeAt fns velocity n))

variable {fns}

omit [IsStrictOrderedRing R] in
/-- The simulation drives along the headings of its steps. -/
theorem projected_spec (hfns : Rotations fns) (velocity : Velocity R) (n : Nat) :
    p.projected fns velocity n =
      (p.placeAt fns velocity n,
        { x := velocity.x * fns.cos (p.headingAt velocity n) -
            velocity.y * fns.sin (p.headingAt velocity n)
          y := velocity.x * fns.sin (p.headingAt velocity n) +
            velocity.y * fns.cos (p.headingAt velocity n)
          tw := velocity.tw }) := by
  induction n with
  | zero => simp [projected, placeAt, headingAt, hfns.cos_zero, hfns.sin_zero]
  | succ n ih =>
      have hheading : p.headingAt velocity (n + 1) =
          p.headingAt velocity n + velocity.tw * p.simulationTimeStep := by
        rw [headingAt, headingAt]
        push_cast
        ring
      rw [projected, Function.iterate_succ_apply', ← projected, ih, projectState]
      simp only [placeAt, Finset.sum_range_succ, hheading, hfns.cos_add, hfns.sin_add,
        Prod.mk.injEq, Velocity.mk.injEq, true_and, and_true]
      constructor <;> ring

omit [LinearOrder R] [IsStrictOrderedRing R] in
/-- Moving to the frame of a pose keeps distances to it. -/
theorem transformPoint_sq (pythagoras : ∀ a, fns.cos a ^ 2 + fns.sin a ^ 2 = 1) (pose : Pose R)
    (point : Point R) :
    (transformPoint fns pose point).x * (transformPoint fns pose point).x +
        (transformPoint fns pose point).y * (transformPoint fns pose point).y =
      (point.x - pose.x) ^ 2 + (point.y - pose.y) ^ 2 := by
  have h := pythagoras pose.theta
  simp only [transformPoint]
  linear_combination ((point.x - pose.x) ^ 2 + (point.y - pose.y) ^ 2) * h

omit [IsStrictOrderedRing R] in
/-- A round of the simulation sees a collision when enough points are covered on the arc. -/
theorem hits_iff (hfns : Rotations fns) (velocity : Velocity R) (k : Nat) :
    p.hits fns points velocity k ↔ p.occupied fns points velocity (k + 1) := by
  have hcount : ∀ pose : Pose R, p.shape.getPointsInside (transformPoints fns pose points) =
      points.countP (p.covers fns pose) := by
    intro pose
    rw [Shape.getPointsInside, transformPoints, List.countP_map]
    refine congrArg Nat.cast (List.countP_congr fun point _ => ?_)
    rw [covers, Function.comp_apply]
    cases p.shape with
    | polygon poly => rfl
    | circle radiusSquared =>
        simp only [Shape.contains, decide_eq_true_iff, transformPoint_sq hfns.pythagoras]
  rw [hits, collidesAt, decide_eq_true_iff, hcount, projected_spec hfns, occupied]

variable (points) in
/-- The time to a collision is that of the first place on the arc of the velocity at which the
robot covers enough points, counted from the step before it; it is -1 when there is none up to
`time_before_collision`. -/
theorem collision_time [FloorRing R] (hfns : Rotations fns) (hstep : 0 < p.simulationTimeStep)
    (velocity : Velocity R) :
    (∃ k : Nat, p.getCollisionTime fns points velocity = k * p.simulationTimeStep ∧
        k * p.simulationTimeStep ≤ p.timeBeforeCollision ∧
        p.occupied fns points velocity (k + 1) ∧
        ∀ n, 0 < n → n ≤ k → ¬ p.occupied fns points velocity n) ∨
      (p.getCollisionTime fns points velocity = -1 ∧
        ∀ k : Nat, k * p.simulationTimeStep ≤ p.timeBeforeCollision →
          ¬ p.occupied fns points velocity (k + 1)) := by
  rcases getCollisionTime_spec fns points velocity hstep with
    ⟨k, htime, hle, hhit, hfirst⟩ | ⟨htime, hclear⟩
  · refine .inl ⟨k, htime, hle, (hits_iff hfns velocity k).mp hhit, fun n hpos hn => ?_⟩
    obtain ⟨j, rfl⟩ : ∃ j, n = j + 1 := ⟨n - 1, by omega⟩
    exact fun hocc => hfirst j (by omega) ((hits_iff hfns velocity j).mpr hocc)
  · refine .inr ⟨htime, fun k hk hocc => ?_⟩
    exact hclear k hk ((hits_iff hfns velocity k).mpr hocc)

end Polygon

end

noncomputable def MathFns.real : MathFns ℝ where
  cos := Real.cos
  sin := Real.sin
  hypot x y := √(x ^ 2 + y ^ 2)

theorem MathFns.real_rotations : Polygon.Rotations MathFns.real where
  cos_zero := Real.cos_zero
  sin_zero := Real.sin_zero
  cos_add := Real.cos_add
  sin_add := Real.sin_add
  pythagoras := Real.cos_sq_add_sin_sq

/-- A circle of half a metre, looked ahead for two seconds in tenths of a second. -/
noncomputable def bumper : Polygon ℝ where
  name := "bumper"
  actionType := .approach
  enabled := true
  minPoints := 1
  slowdownRatio := 1
  linearLimit := 1
  angularLimit := 1
  timeBeforeCollision := 2
  simulationTimeStep := 1 / 10
  shape := .circle (1 / 4)
  simulationTimeStep_pos _ := by norm_num

theorem bumper_occupied (n : Nat) :
    bumper.occupied MathFns.real [⟨1, 0⟩] ⟨1, 0, 0⟩ n ↔ (1 - (n : ℝ) / 10) ^ 2 < 1 / 4 := by
  have hplace : bumper.placeAt MathFns.real ⟨1, 0, 0⟩ n = ⟨n / 10, 0, 0⟩ := by
    simp [Polygon.placeAt, Polygon.headingAt, MathFns.real, bumper, div_eq_mul_inv]
  have hone : ∀ b : Bool, (1 : Int) ≤ ((if b = true then 1 else 0 : ℕ) : Int) ↔ b = true := by
    decide
  rw [Polygon.occupied, hplace, List.countP_singleton, show bumper.minPoints = 1 from rfl, hone]
  simp [bumper, Polygon.covers]

/-- Driving at one metre a second towards a point one metre ahead, the robot has half a second. -/
theorem collision_time_straight :
    bumper.getCollisionTime MathFns.real [⟨1, 0⟩] ⟨1, 0, 0⟩ = 1 / 2 := by
  have hstep : 0 < bumper.simulationTimeStep := bumper.simulationTimeStep_pos rfl
  rcases Polygon.collision_time (p := bumper) [⟨1, 0⟩] MathFns.real_rotations hstep ⟨1, 0, 0⟩ with
    ⟨k, htime, _, hocc, hfirst⟩ | ⟨_, hclear⟩
  · rw [bumper_occupied] at hocc
    have hlate : 5 ≤ k := by
      by_contra hlt
      have hk : (k : ℝ) ≤ 4 := by exact_mod_cast (by omega : k ≤ 4)
      push_cast at hocc
      nlinarith
    have hearly : k ≤ 5 := by
      by_contra hgt
      refine hfirst 6 (by omega) (by omega) ?_
      rw [bumper_occupied]
      norm_num
    obtain rfl : k = 5 := by omega
    rw [htime]
    norm_num [bumper]
  · refine absurd ?_ (hclear 5 ?_)
    · rw [bumper_occupied]
      norm_num
    · norm_num [bumper]

end MgRobot.Nav2CollisionMonitor

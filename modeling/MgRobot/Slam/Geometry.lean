import Mathlib.Algebra.Order.Group.Unbundled.Abs
import Mathlib.Algebra.Order.Ring.Defs
import Mathlib.Algebra.Field.Rat
import Mathlib.Algebra.Order.Ring.Rat
import Mathlib.Data.Nat.Sqrt
import MgRobot.Slam.DataTypes

/-!
# Geometry

`<cmath>`, the Eigen decompositions the node calls, and `core/geometry.cpp`.
-/

namespace MgRobot.Slam

set_option autoImplicit false

/-- Eigenvalues in ascending order, and the eigenvector of the larger one. -/
structure SelfAdjointEigen (R : Type*) where
  lambdaMin : R
  lambdaMax : R
  majorAxis : R × R

structure JacobiSvd (R : Type*) where
  matrixU : Matrix (Fin 2) (Fin 2) R
  matrixV : Matrix (Fin 2) (Fin 2) R

/-- `<cmath>` and Eigen. A solver that does not report `Eigen::Success` is `none`. -/
structure Numerics (R : Type*) where
  pi : R
  sqrt : R → R
  sin : R → R
  cos : R → R
  /-- `std::atan2(y, x)`. -/
  atan2 : R → R → R
  hypot : R → R → R
  smallestEigenvalue : Matrix (Fin 3) (Fin 3) R → Option R
  selfAdjointEigen : Matrix (Fin 2) (Fin 2) R → Option (SelfAdjointEigen R)
  jacobiSvd : Matrix (Fin 2) (Fin 2) R → JacobiSvd R

variable {R : Type*}

/-- `information(i, i) = v`. -/
def setDiag {n : Nat} (information : Matrix (Fin n) (Fin n) R) (i : Fin n) (v : R) :
    Matrix (Fin n) (Fin n) R :=
  fun r c => if r = i ∧ c = i then v else information r c

variable [Field R]

/-- A zero matrix with a diagonal. -/
def diag3 (a b c : R) : Matrix (Fin 3) (Fin 3) R :=
  setDiag (setDiag (setDiag (fun _ _ => 0) 0 a) 1 b) 2 c

def diag2 (a b : R) : Matrix (Fin 2) (Fin 2) R := setDiag (setDiag (fun _ _ => 0) 0 a) 1 b

namespace Numerics

variable (m : Numerics R)

def angleDiff (a b : R) : R := m.atan2 (m.sin (a - b)) (m.cos (a - b))

def normalizeAngle (angle : R) : R := m.atan2 (m.sin angle) (m.cos angle)

def worldDeltaToLocal (dxW dyW referenceYaw : R) : R × R :=
  let cosYaw := m.cos (-referenceYaw)
  let sinYaw := m.sin (-referenceYaw)
  (cosYaw * dxW - sinYaw * dyW, sinYaw * dxW + cosYaw * dyW)

def localDeltaToWorld (dxLocal dyLocal referenceYaw : R) : R × R :=
  let cosYaw := m.cos referenceYaw
  let sinYaw := m.sin referenceYaw
  (cosYaw * dxLocal - sinYaw * dyLocal, sinYaw * dxLocal + cosYaw * dyLocal)

/-- The pose that the motion `d` leads to from `p`. -/
def composePose (p d : Pose R) : Pose R :=
  let cy := m.cos p.yaw
  let sy := m.sin p.yaw
  ⟨p.x + cy * d.x - sy * d.y, p.y + sy * d.x + cy * d.y, m.normalizeAngle (p.yaw + d.yaw)⟩

/-- The motion from `p` to `q`, in the frame of `p`. -/
def deltaPose (p q : Pose R) : Pose R :=
  let dxW := q.x - p.x
  let dyW := q.y - p.y
  let cy := m.cos p.yaw
  let sy := m.sin p.yaw
  ⟨cy * dxW + sy * dyW, -sy * dxW + cy * dyW, m.normalizeAngle (q.yaw - p.yaw)⟩

/-- The rotation of the vector `(dx, dy)` by `rot`. -/
def rotate (rot dx dy : R) : R × R :=
  (m.cos rot * dx - m.sin rot * dy, m.sin rot * dx + m.cos rot * dy)

/-- The first node moves to the origin, every node turns about it by `rot`. -/
def rebaseAndRotateNodes (nodes : List (PoseNode R)) (rot : R) : List (PoseNode R) :=
  match nodes with
  | [] => []
  | front :: _ => nodes.map fun n =>
      let p := m.rotate rot (n.x - front.x) (n.y - front.y)
      { n with x := p.1, y := p.2, yaw := n.yaw + rot }

/-- `(a - b).norm()` of two-dimensional vectors. -/
def norm (a b : R × R) : R := m.sqrt ((a.1 - b.1) * (a.1 - b.1) + (a.2 - b.2) * (a.2 - b.2))

/-- The square root of a square of a rational. -/
def ratSqrt (x : ℚ) : ℚ := Nat.sqrt x.num.toNat / Nat.sqrt x.den

/-- Rational numerics that agree with the real ones on squares, for motions along the `x` axis at
heading `0`, and for diagonal matrices with the larger entry first. -/
def axis : Numerics ℚ where
  pi := 355 / 113
  sqrt := ratSqrt
  sin _ := 0
  cos _ := 1
  atan2 _ _ := 0
  hypot x y := ratSqrt (x * x + y * y)
  smallestEigenvalue a := some (min (a 0 0) (min (a 1 1) (a 2 2)))
  selfAdjointEigen a := some ⟨a 1 1, a 0 0, (1, 0)⟩
  jacobiSvd _ := ⟨diag2 1 1, diag2 1 1⟩

theorem rebaseAndRotateNodes_of_head {nodes : List (PoseNode R)} {front : PoseNode R}
    (hf : nodes.head? = some front) (rot : R) :
    m.rebaseAndRotateNodes nodes rot = nodes.map fun n =>
      let p := m.rotate rot (n.x - front.x) (n.y - front.y)
      { n with x := p.1, y := p.2, yaw := n.yaw + rot } := by
  cases nodes with
  | nil => cases hf
  | cons n rest =>
      obtain rfl := Option.some.inj hf
      rfl

theorem rebaseAndRotateNodes_index (nodes : List (PoseNode R)) (rot : R) :
    (m.rebaseAndRotateNodes nodes rot).map (·.index) = nodes.map (·.index) := by
  cases nodes with
  | nil => rfl
  | cons front rest => simp [rebaseAndRotateNodes]

end Numerics

end MgRobot.Slam

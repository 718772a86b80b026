import MgRobot.Lib.Numerals
import Mathlib.Algebra.Field.Basic
import Mathlib.Algebra.Order.Field.Basic
import Mathlib.Data.List.Rotate

/-!
# Geometry of footprints and obstacles

`geometry.py`: poses, and the distances of a polygon from polygons and circles. The
functions of `math` are a parameter.
-/

namespace MgRobot.Scenario

set_option autoImplicit false

/-- The module `math`. -/
structure PyMath (R : Type*) where
  sin : R → R
  cos : R → R
  /-- `atan2(y, x)`. -/
  atan2 : R → R → R
  hypot : R → R → R

structure Pose (R : Type*) where
  x : R
  y : R
  z : R
  yaw : R
  deriving DecidableEq, Repr

abbrev Point (R : Type*) := R × R

section Poses

variable {R : Type*} [CommRing R] (m : PyMath R)

def normalizeAngle (angle : R) : R := m.atan2 (m.sin angle) (m.cos angle)

namespace Pose

def compose (p other : Pose R) : Pose R where
  x := p.x + other.x * m.cos p.yaw - other.y * m.sin p.yaw
  y := p.y + other.x * m.sin p.yaw + other.y * m.cos p.yaw
  z := p.z + other.z
  yaw := normalizeAngle m (p.yaw + other.yaw)

def inverse (p : Pose R) : Pose R where
  x := -(p.x * m.cos p.yaw + p.y * m.sin p.yaw)
  y := -(-p.x * m.sin p.yaw + p.y * m.cos p.yaw)
  z := -p.z
  yaw := normalizeAngle m (-p.yaw)

end Pose

def transformPolygon (vertices : List (Point R)) (pose : Pose R) : List (Point R) :=
  vertices.map fun v =>
    (pose.x + v.1 * m.cos pose.yaw - v.2 * m.sin pose.yaw,
      pose.y + v.1 * m.sin pose.yaw + v.2 * m.cos pose.yaw)

end Poses

section Distances

variable {R : Type*} [Field R] [LinearOrder R] (m : PyMath R)

def rectangleVertices (size : R × R) : List (Point R) :=
  let hx := size.1 / 2
  let hy := size.2 / 2
  [(hx, hy), (-hx, hy), (-hx, -hy), (hx, -hy)]

def pointSegmentDistance (p a b : Point R) : R :=
  let dx := b.1 - a.1
  let dy := b.2 - a.2
  let lengthSq := dx * dx + dy * dy
  if lengthSq = 0 then m.hypot (p.1 - a.1) (p.2 - a.2)
  else
    let t := max 0 (min 1 (((p.1 - a.1) * dx + (p.2 - a.2) * dy) / lengthSq))
    m.hypot (p.1 - (a.1 + t * dx)) (p.2 - (a.2 + t * dy))

/-- The loop of `point_in_polygon`; `j` is the vertex before. -/
def insideFrom (p : Point R) : Point R → Bool → List (Point R) → Bool
  | _, inside, [] => inside
  | j, inside, i :: rest =>
      let crossed := (decide (p.2 < i.2) != decide (p.2 < j.2)) &&
        decide (p.1 < (j.1 - i.1) * (p.2 - i.2) / (j.2 - i.2) + i.1)
      insideFrom p i (if crossed then !inside else inside) rest

/-- The even-odd rule, by a ray to the right. -/
def pointInPolygon (p : Point R) (polygon : List (Point R)) : Bool :=
  match polygon.getLast? with
  | none => false
  | some j => insideFrom p j false polygon

def cross (o a b : Point R) : R := (a.1 - o.1) * (b.2 - o.2) - (a.2 - o.2) * (b.1 - o.1)

def segmentsIntersect (a b c d : Point R) : Bool :=
  let d₁ := cross c d a
  let d₂ := cross c d b
  let d₃ := cross a b c
  let d₄ := cross a b d
  decide (d₁ * d₂ < 0) && decide (d₃ * d₄ < 0)

def edges (polygon : List (Point R)) : List (Point R × Point R) := polygon.zip (polygon.rotate 1)

/-- From every vertex of `a` to every edge of `b`. -/
def vertexDistances (a b : List (Point R)) : List R :=
  a.flatMap fun v => (edges b).map fun e => pointSegmentDistance m v e.1 e.2

/-- `none`: the `IndexError` of a polygon without vertices. -/
def polygonPolygonDistance (a b : List (Point R)) : Option R :=
  match a.head?, b.head? with
  | some a₀, some b₀ =>
      if pointInPolygon a₀ b || pointInPolygon b₀ a then some 0
      else if (edges a).any fun e => (edges b).any fun f => segmentsIntersect e.1 e.2 f.1 f.2 then
        some 0
      else (vertexDistances m a b ++ vertexDistances m b a).min?
  | _, _ => none

/-- `none`: the `ValueError` of a polygon without vertices. -/
def polygonCircleDistance (polygon : List (Point R)) (center : Point R) (radius : R) : Option R :=
  if pointInPolygon center polygon then some 0
  else
    let edgeDistances := (edges polygon).map fun e => pointSegmentDistance m center e.1 e.2
    edgeDistances.min?.map fun edgeDistance => max 0 (edgeDistance - radius)

end Distances

section Vertices

variable {R : Type*} [Field R] [LinearOrder R] {m : PyMath R} {a b l polygon : List (Point R)}

omit [Field R] [LinearOrder R] in
theorem edges_ne_nil (h : polygon ≠ []) : edges polygon ≠ [] := by
  obtain ⟨v, l, rfl⟩ := List.exists_cons_of_ne_nil h
  rw [edges, List.rotate_cons_succ, List.rotate_zero]
  cases l <;> simp

theorem vertexDistances_ne_nil (ha : a ≠ []) (hb : b ≠ []) : vertexDistances m a b ≠ [] := by
  obtain ⟨v, l, rfl⟩ := List.exists_cons_of_ne_nil ha
  intro h
  rw [vertexDistances, List.flatMap_cons, List.append_eq_nil_iff, List.map_eq_nil_iff] at h
  exact edges_ne_nil hb h.1

theorem polygonPolygonDistance_isSome (ha : a ≠ []) (hb : b ≠ []) :
    (polygonPolygonDistance m a b).isSome := by
  have hmin : (vertexDistances m a b ++ vertexDistances m b a).min?.isSome :=
    List.isSome_min?_of_ne_nil fun h =>
      vertexDistances_ne_nil ha hb (List.append_eq_nil_iff.mp h).1
  obtain ⟨v, l, rfl⟩ := List.exists_cons_of_ne_nil ha
  obtain ⟨w, l', rfl⟩ := List.exists_cons_of_ne_nil hb
  unfold polygonPolygonDistance
  dsimp only [List.head?_cons]
  split_ifs
  · rfl
  · rfl
  · exact hmin

theorem polygonCircleDistance_isSome (h : polygon ≠ []) (center : Point R) (radius : R) :
    (polygonCircleDistance m polygon center radius).isSome := by
  have hne : ((edges polygon).map fun e => pointSegmentDistance m center e.1 e.2) ≠ [] :=
    fun hnil => edges_ne_nil h (List.map_eq_nil_iff.mp hnil)
  unfold polygonCircleDistance
  split_ifs
  · rfl
  · rw [Option.isSome_map]
    exact List.isSome_min?_of_ne_nil hne

omit [LinearOrder R] in
theorem rectangleVertices_ne_nil (size : R × R) : rectangleVertices size ≠ [] :=
  List.cons_ne_nil _ _

omit [LinearOrder R] in
theorem transformPolygon_ne_nil (pose : Pose R) (h : polygon ≠ []) :
    transformPolygon m polygon pose ≠ [] :=
  fun hnil => h (List.map_eq_nil_iff.mp hnil)

end Vertices

end MgRobot.Scenario

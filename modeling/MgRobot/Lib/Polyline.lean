import MgRobot.Lib.Numerals
import Mathlib.Algebra.Order.Field.Basic
import Mathlib.Algebra.Order.Group.Unbundled.Abs
import Mathlib.Data.List.Chain

/-!
# Polylines by arc length

The point of a polyline at an arc length from its start, and what it is for a list
of points to cover the polyline up to a length at a given spacing. The length of a
segment is a parameter that is positive on the segments there are.
-/

namespace MgRobot.Lib.Polyline

set_option autoImplicit false

variable {R : Type*} [Field R] [LinearOrder R]

def between (a b : R × R) (t : R) : R × R := (a.1 + (b.1 - a.1) * t, a.2 + (b.2 - a.2) * t)

variable (dist : R × R → R × R → R)

def arcLength : List (R × R) → R
  | a :: b :: rest => dist a b + arcLength (b :: rest)
  | _ => 0

/-- The point at arc length `t`; the last one from the end on. -/
def along : List (R × R) → R → R × R
  | a :: b :: rest, t =>
      if t < dist a b then between a b (t / dist a b) else along (b :: rest) (t - dist a b)
  | [a], _ => a
  | [], _ => 0

/-- The points lie on the polyline, in order, and every arc length up to `reach` has one within
`spacing`. -/
def Covers (path : List (R × R)) (reach spacing : R) (points : List (R × R)) : Prop :=
  ∃ arcs : List R, points = arcs.map (along dist path) ∧ arcs.Pairwise (· ≤ ·) ∧
    (∀ t ∈ arcs, 0 ≤ t ∧ t ≤ arcLength dist path) ∧
    ∀ t, 0 ≤ t → t ≤ min reach (arcLength dist path) → ∃ t' ∈ arcs, |t - t'| ≤ spacing

/-- Neighbours are apart. -/
abbrev Apart (path : List (R × R)) : Prop := path.IsChain fun a b => 0 < dist a b

variable {dist} {a b : R × R} {rest : List (R × R)} {t : R}

omit [LinearOrder R] in
theorem arcLength_singleton : arcLength dist [a] = 0 := rfl

omit [LinearOrder R] in
theorem arcLength_cons_cons : arcLength dist (a :: b :: rest) = dist a b + arcLength dist (b :: rest) := rfl

theorem along_of_lt (h : t < dist a b) :
    along dist (a :: b :: rest) t = between a b (t / dist a b) := by
  rw [along, if_pos h]

theorem along_of_le (h : dist a b ≤ t) :
    along dist (a :: b :: rest) t = along dist (b :: rest) (t - dist a b) := by
  rw [along, if_neg (not_lt.mpr h)]

omit [LinearOrder R] in
theorem arcLength_concat (a b : R × R) : ∀ front : List (R × R),
    arcLength dist (front ++ [a] ++ [b]) = arcLength dist (front ++ [a]) + dist a b
  | [] => add_comm (dist a b) 0
  | [c] => by
      simp only [List.cons_append, List.nil_append, arcLength_cons_cons, arcLength_singleton,
        add_zero]
  | c :: d :: front => by
      have ih := arcLength_concat a b (d :: front)
      simp only [List.cons_append, arcLength_cons_cons] at ih ⊢
      rw [ih, add_assoc]

omit [LinearOrder R] in
/-- A point divides the polyline. -/
theorem arcLength_append (p : R × R) (back : List (R × R)) : ∀ front : List (R × R),
    arcLength dist (front ++ p :: back) =
      arcLength dist (front ++ [p]) + arcLength dist (p :: back)
  | [] => (zero_add _).symm
  | [c] => by
      simp only [List.cons_append, List.nil_append, arcLength_cons_cons, arcLength_singleton,
        add_zero]
  | c :: d :: front => by
      have ih := arcLength_append p back (d :: front)
      simp only [List.cons_append, arcLength_cons_cons] at ih ⊢
      rw [ih, add_assoc]

variable [IsStrictOrderedRing R]

theorem arcLength_nonneg : ∀ {path : List (R × R)}, Apart dist path → 0 ≤ arcLength dist path
  | [], _ => le_rfl
  | [_], _ => le_rfl
  | _ :: _ :: _, h =>
      add_nonneg (List.isChain_cons_cons.mp h).1.le (arcLength_nonneg (List.isChain_cons_cons.mp h).2)

/-- The polyline ends at the last point. -/
theorem along_arcLength : ∀ {path : List (R × R)} (hne : path ≠ []), Apart dist path →
    along dist path (arcLength dist path) = path.getLast hne
  | [_], _, _ => rfl
  | a :: b :: rest, _, h => by
      have htail := (List.isChain_cons_cons.mp h).2
      rw [arcLength_cons_cons, along_of_le (le_add_of_nonneg_right (arcLength_nonneg htail)),
        add_sub_cancel_left, along_arcLength (List.cons_ne_nil b rest) htail]
      rfl

/-- No polyline is shorter than the way straight to its end. -/
theorem dist_getLast_le_arcLength (hself : ∀ p, dist p p = 0)
    (htri : ∀ p q r, dist p r ≤ dist p q + dist q r) : ∀ {p : R × R} {path : List (R × R)}
    {last : R × R}, (p :: path).getLast? = some last → dist p last ≤ arcLength dist (p :: path)
  | p, [], _, h => by
      obtain rfl := Option.some.inj h
      exact (hself p).le
  | p, q :: path, last, h => by
      rw [List.getLast?_cons_cons] at h
      have ih := dist_getLast_le_arcLength hself htri h
      calc dist p last ≤ dist p q + dist q last := htri p q last
        _ ≤ dist p q + arcLength dist (q :: path) := by gcongr

end MgRobot.Lib.Polyline

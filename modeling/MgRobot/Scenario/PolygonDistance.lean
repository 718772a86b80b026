import Mathlib.Analysis.SpecialFunctions.Complex.Arg
import MgRobot.Lib.EvenOdd
import MgRobot.Scenario.Geometry

/-!
# What the distances of polygons measure

Over the reals, the distances of `geometry.py` are those between regions: the edges of
a polygon and the points of odd parity. A polygon may cross itself.
-/

namespace MgRobot.Scenario

set_option autoImplicit false

open MgRobot.Lib.Polyline MgRobot.Lib.Segments MgRobot.Lib.EvenOdd

/-- `math` on the reals. -/
noncomputable def realMath : PyMath ℝ where
  sin := Real.sin
  cos := Real.cos
  atan2 y x := Complex.arg ⟨x, y⟩
  hypot x y := √(x ^ 2 + y ^ 2)

variable {a b p q v : Point ℝ} {l polygon : List (Point ℝ)}

section Segment

theorem pointSegmentDistance_eq (p a b : Point ℝ) : pointSegmentDistance realMath p a b =
    if (b.1 - a.1) * (b.1 - a.1) + (b.2 - a.2) * (b.2 - a.2) = 0 then euclid p a
    else euclid p (between a b (nearestAt p a b)) := by
  have hfoot : between a b (nearestAt p a b) =
      (a.1 + nearestAt p a b * (b.1 - a.1), a.2 + nearestAt p a b * (b.2 - a.2)) := by
    simp only [between, mul_comm]
  rw [hfoot]
  rfl

theorem exists_pointSegmentDistance (p a b : Point ℝ) :
    ∃ q ∈ segment ℝ a b, pointSegmentDistance realMath p a b = euclid p q := by
  rw [pointSegmentDistance_eq]
  split_ifs with h
  · exact ⟨a, left_mem_segment ℝ a b, rfl⟩
  · exact ⟨_, between_mem_segment nearestAt_nonneg nearestAt_le_one, rfl⟩

theorem pointSegmentDistance_le (p : Point ℝ) (hq : q ∈ segment ℝ a b) :
    pointSegmentDistance realMath p a b ≤ euclid p q := by
  rw [pointSegmentDistance_eq]
  split_ifs with h
  · have h1 : b.1 - a.1 = 0 := by
      nlinarith [mul_self_nonneg (b.1 - a.1), mul_self_nonneg (b.2 - a.2)]
    have h2 : b.2 - a.2 = 0 := by
      nlinarith [mul_self_nonneg (b.1 - a.1), mul_self_nonneg (b.2 - a.2)]
    have hab : a = b := Prod.ext (sub_eq_zero.mp h1).symm (sub_eq_zero.mp h2).symm
    rw [← hab, segment_same] at hq
    rw [Set.mem_singleton_iff.mp hq]
  · exact euclid_nearest_le h hq

end Segment

section Polygon

theorem edges_eq_outline (polygon : List (Point ℝ)) : edges polygon = outline polygon := by
  cases polygon with
  | nil => rfl
  | cons v l =>
      rw [edges, List.rotate_cons_succ, List.rotate_zero, zip_concat_eq_walk, outline]

/-- The test of the loop is that the ray crosses the edge. -/
theorem insideFrom_eq (p j : Point ℝ) (inside : Bool) (l : List (Point ℝ)) :
    insideFrom p j inside l = (inside ^^ parity (walk j l) p) := by
  induction l generalizing j inside with
  | nil => simp [insideFrom, walk, parity]
  | cons i l ih =>
      have hcons : parity (walk j (i :: l)) p =
          (decide (Crosses p (j, i)) ^^ parity (walk i l) p) := rfl
      have hcross : ((decide (p.2 < i.2) != decide (p.2 < j.2)) &&
          decide (p.1 < (j.1 - i.1) * (p.2 - i.2) / (j.2 - i.2) + i.1)) =
          decide (Crosses p (j, i)) := by
        rw [Bool.eq_iff_iff, decide_eq_true_iff, crosses_iff, abscissa]
        by_cases h1 : p.2 < i.2 <;> by_cases h2 : p.2 < j.2 <;> simp [h1, h2]
      rw [hcons, ← Bool.xor_assoc, insideFrom, ih]
      congr 1
      rw [hcross]
      cases decide (Crosses p (j, i)) <;> simp

theorem pointInPolygon_eq_parity (p : Point ℝ) (polygon : List (Point ℝ)) :
    pointInPolygon p polygon = parity (outline polygon) p := by
  cases polygon with
  | nil => rfl
  | cons v l =>
      have hlast : walk (walkEnd v l) (v :: l) = (walkEnd v l, v) :: walk v l := rfl
      have hclose : outline (v :: l) = walk v l ++ [(walkEnd v l, v)] := walk_concat v v l
      rw [pointInPolygon, getLast?_cons_eq_walkEnd]
      dsimp only
      -- the loop takes the closing edge first, the outline last
      rw [insideFrom_eq, Bool.false_xor, hlast, hclose, parity_append, Bool.xor_comm]
      simp [parity]

theorem pointInPolygon_iff : pointInPolygon p polygon = true ↔
    Odd (crossings p (outline polygon)) := by
  rw [pointInPolygon_eq_parity, parity_eq_true_iff]

theorem mem_region_iff : p ∈ region polygon ↔
    p ∈ boundary (edges polygon) ∨ pointInPolygon p polygon = true := by
  rw [region_eq, edges_eq_outline, pointInPolygon_eq_parity]

theorem mem_region_of_vertex (h : v ∈ polygon) : v ∈ region polygon := by
  obtain ⟨w, hw⟩ := exists_mem_outline h
  exact mem_region_of_boundary ⟨(v, w), hw, left_mem_segment ℝ v w⟩

theorem segmentsIntersect_iff {c d : Point ℝ} :
    segmentsIntersect a b c d = true ↔ CrossProperly a b c d := by
  rw [segmentsIntersect, Bool.and_eq_true, decide_eq_true_iff, decide_eq_true_iff]
  rfl

end Polygon

section Distance

variable {d center : ℝ × ℝ} {radius x : ℝ}

theorem mem_vertexDistances : x ∈ vertexDistances realMath l polygon ↔
    ∃ v ∈ l, ∃ e ∈ edges polygon, pointSegmentDistance realMath v e.1 e.2 = x := by
  simp only [vertexDistances, List.mem_flatMap, List.mem_map]

/-- Every one of the distances is one of two points of the regions. -/
theorem exists_of_mem_vertexDistances (h : x ∈ vertexDistances realMath l polygon) :
    ∃ p ∈ region l, ∃ q ∈ region polygon, x = euclid p q := by
  obtain ⟨v, hv, e, he, rfl⟩ := mem_vertexDistances.mp h
  obtain ⟨q, hq, heq⟩ := exists_pointSegmentDistance v e.1 e.2
  rw [edges_eq_outline] at he
  exact ⟨v, mem_region_of_vertex hv, q, mem_region_of_boundary ⟨e, he, hq⟩, heq⟩

theorem exists_vertexDistance_le {w r : Point ℝ} {e : Point ℝ × Point ℝ} (hw : w ∈ l)
    (he : e ∈ edges polygon) (hr : r ∈ segment ℝ e.1 e.2) :
    ∃ x ∈ vertexDistances realMath l polygon, x ≤ euclid w r :=
  ⟨_, mem_vertexDistances.mpr ⟨w, hw, e, he, rfl⟩, pointSegmentDistance_le w hr⟩

/-- Where no edges cross properly, points of the edges are no closer than some vertex is to an
edge. -/
theorem exists_vertexDistance_le_boundary
    (hcross : ((edges l).any fun e => (edges polygon).any fun f =>
      segmentsIntersect e.1 e.2 f.1 f.2) = false)
    (hp : p ∈ boundary (outline l)) (hq : q ∈ boundary (outline polygon)) :
    ∃ x ∈ vertexDistances realMath l polygon ++ vertexDistances realMath polygon l,
      x ≤ euclid p q := by
  obtain ⟨e, he, hp⟩ := hp
  obtain ⟨f, hf, hq⟩ := hq
  have hve := mem_of_mem_outline he
  have hvf := mem_of_mem_outline hf
  rw [← edges_eq_outline] at he hf
  have hnot : ¬CrossProperly e.1 e.2 f.1 f.2 := by
    rw [← segmentsIntersect_iff, Bool.not_eq_true]
    exact Bool.eq_false_iff.mpr fun h => Bool.eq_false_iff.mp hcross
      (List.any_eq_true.mpr ⟨e, he, List.any_eq_true.mpr ⟨f, hf, h⟩⟩)
  obtain ⟨w, r, hpair, hle⟩ := exists_endpoint_le hnot hp hq
  rcases hpair with ⟨hw, hr⟩ | ⟨hw, hr⟩
  · have hmem : w ∈ l := by
      rcases hw with rfl | rfl
      · exact hve.1
      · exact hve.2
    obtain ⟨x, hx, hxle⟩ := exists_vertexDistance_le hmem hf hr
    exact ⟨x, List.mem_append_left _ hx, hxle.trans hle⟩
  · have hmem : w ∈ polygon := by
      rcases hw with rfl | rfl
      · exact hvf.1
      · exact hvf.2
    obtain ⟨x, hx, hxle⟩ := exists_vertexDistance_le hmem he hr
    exact ⟨x, List.mem_append_right _ hx, hxle.trans hle⟩

/-- The distances between the points of two sets. -/
def distances (s t : Set (Point ℝ)) : Set ℝ := {x | ∃ p ∈ s, ∃ q ∈ t, x = euclid p q}

theorem isLeast_zero_of_mem {s t : Set (Point ℝ)} (hs : p ∈ s) (ht : p ∈ t) :
    IsLeast (distances s t) 0 := by
  refine ⟨⟨p, hs, p, ht, (euclid_self p).symm⟩, ?_⟩
  intro x hx
  obtain ⟨q, -, r, -, rfl⟩ := hx
  exact euclid_nonneg q r

theorem isLeast_eq_zero_iff {s t : Set (Point ℝ)} (h : IsLeast (distances s t) x) :
    x = 0 ↔ (s ∩ t).Nonempty := by
  constructor
  · intro hx
    obtain ⟨p, hp, q, hq, heq⟩ := h.1
    have hpq := euclid_eq_zero.mp (heq.symm.trans hx)
    exact ⟨p, hp, hpq ▸ hq⟩
  · intro hne
    obtain ⟨p, hs, ht⟩ := hne
    exact h.unique (isLeast_zero_of_mem hs ht)

/-- Where the edges do not cross, the least distance from a vertex to an edge. -/
theorem min_vertexDistances (a b : Point ℝ) (l m : List (Point ℝ))
    (ha : pointInPolygon a (b :: m) = false) (hb : pointInPolygon b (a :: l) = false)
    (hcross : ((edges (a :: l)).any fun e => (edges (b :: m)).any fun f =>
      segmentsIntersect e.1 e.2 f.1 f.2) = false) :
    ∃ d, (vertexDistances realMath (a :: l) (b :: m) ++
        vertexDistances realMath (b :: m) (a :: l)).min? = some d ∧
      IsLeast (distances (region (a :: l)) (region (b :: m))) d := by
  obtain ⟨d, hd⟩ : ∃ d, (vertexDistances realMath (a :: l) (b :: m) ++
      vertexDistances realMath (b :: m) (a :: l)).min? = some d := by
    obtain ⟨x, hx, -⟩ :=
      exists_vertexDistance_le_boundary hcross (head_mem_boundary a l) (head_mem_boundary b m)
    exact ⟨_, List.min?_eq_some_min (List.ne_nil_of_mem hx)⟩
  refine ⟨d, hd, ?_, ?_⟩
  · have hmem := List.min?_mem hd
    rcases List.mem_append.mp hmem with h | h
    · exact exists_of_mem_vertexDistances h
    · obtain ⟨p, hp, q, hq, heq⟩ := exists_of_mem_vertexDistances h
      exact ⟨q, hq, p, hp, heq.trans (euclid_comm p q)⟩
  · intro x hx
    obtain ⟨p, hp, q, hq, rfl⟩ := hx
    rw [pointInPolygon_eq_parity] at ha hb
    obtain ⟨p', hp', q', hq', hle⟩ := exists_boundaries_nearer ha hb hp hq
    obtain ⟨x, hx, hxle⟩ := exists_vertexDistance_le_boundary hcross hp' hq'
    exact ((List.min?_eq_some_iff.mp hd).2 x hx).trans (hxle.trans hle)

theorem polygonPolygonDistance_isLeast (a b : Point ℝ) (l m : List (Point ℝ)) :
    ∃ d, polygonPolygonDistance realMath (a :: l) (b :: m) = some d ∧
      IsLeast (distances (region (a :: l)) (region (b :: m))) d := by
  have ha := mem_region_of_vertex (List.mem_cons_self (a := a) (l := l))
  have hb := mem_region_of_vertex (List.mem_cons_self (a := b) (l := m))
  unfold polygonPolygonDistance
  simp only [List.head?_cons]
  split_ifs with hinside hcross
  · refine ⟨0, rfl, ?_⟩
    rcases Bool.or_eq_true_iff.mp hinside with h | h
    · exact isLeast_zero_of_mem ha (mem_region_iff.mpr (Or.inr h))
    · exact isLeast_zero_of_mem (mem_region_iff.mpr (Or.inr h)) hb
  · refine ⟨0, rfl, ?_⟩
    obtain ⟨e, he, hf⟩ := List.any_eq_true.mp hcross
    obtain ⟨f, hf, hint⟩ := List.any_eq_true.mp hf
    have hcross : CrossProperly e.1 e.2 f.1 f.2 := segmentsIntersect_iff.mp hint
    obtain ⟨p, hp, hq⟩ := hcross.exists_mem
    rw [edges_eq_outline] at he hf
    exact isLeast_zero_of_mem (mem_region_of_boundary ⟨e, he, hp⟩)
      (mem_region_of_boundary ⟨f, hf, hq⟩)
  · rw [Bool.or_eq_true_iff, not_or, Bool.not_eq_true, Bool.not_eq_true] at hinside
    exact min_vertexDistances a b l m hinside.1 hinside.2 (Bool.not_eq_true _ ▸ hcross)

/-- From a centre that is not inside, the least distance to an edge. -/
theorem min_edgeDistances (a : Point ℝ) (l : List (Point ℝ))
    (hcenter : pointInPolygon center (a :: l) = false) :
    ∃ d, ((edges (a :: l)).map fun e =>
        pointSegmentDistance realMath center e.1 e.2).min? = some d ∧
      IsLeast (distances {center} (region (a :: l))) d := by
  have hne : ((edges (a :: l)).map fun e =>
      pointSegmentDistance realMath center e.1 e.2) ≠ [] :=
    fun h => edges_ne_nil (List.cons_ne_nil a l) (List.map_eq_nil_iff.mp h)
  refine ⟨_, List.min?_eq_some_min hne, ?_, ?_⟩
  · obtain ⟨e, he, heq⟩ := List.mem_map.mp (List.min_mem hne)
    obtain ⟨q, hq, hdist⟩ := exists_pointSegmentDistance center e.1 e.2
    rw [edges_eq_outline] at he
    exact ⟨center, rfl, q, mem_region_of_boundary ⟨e, he, hq⟩, heq.symm.trans hdist⟩
  · intro x hx
    obtain ⟨p, hp, q, hq, rfl⟩ := hx
    obtain rfl := Set.mem_singleton_iff.mp hp
    have hout : p ∉ region (a :: l) ∨ p ∈ boundary (outline (a :: l)) := by
      by_cases hon : p ∈ boundary (outline (a :: l))
      · exact Or.inr hon
      · refine Or.inl fun hin => ?_
        rcases region_eq.mp hin with h | h
        · exact hon h
        · rw [pointInPolygon_eq_parity, h] at hcenter
          exact absurd hcenter.symm Bool.false_ne_true
    obtain ⟨r, ⟨e, he, hr⟩, hle⟩ := exists_boundary_nearer hq hout
    rw [← edges_eq_outline] at he
    calc List.min _ hne ≤ pointSegmentDistance realMath p e.1 e.2 :=
          List.min_le_of_mem (List.mem_map.mpr ⟨e, he, rfl⟩)
      _ ≤ euclid p r := pointSegmentDistance_le p hr
      _ = euclid r p := euclid_comm p r
      _ ≤ euclid q p := hle
      _ = euclid p q := euclid_comm q p

theorem polygonCircleDistance_isLeast (a : Point ℝ) (l : List (Point ℝ)) (center : Point ℝ)
    (radius : ℝ) : ∃ d, IsLeast (distances {center} (region (a :: l))) d ∧
      (pointInPolygon center (a :: l) = true → d = 0) ∧
      polygonCircleDistance realMath (a :: l) center radius =
        some (if pointInPolygon center (a :: l) then 0 else max 0 (d - radius)) := by
  unfold polygonCircleDistance
  cases hin : pointInPolygon center (a :: l) with
  | true =>
      refine ⟨0, ?_, fun _ => rfl, rfl⟩
      exact isLeast_zero_of_mem (Set.mem_singleton center) (mem_region_iff.mpr (Or.inr hin))
  | false =>
      obtain ⟨d, hd, hleast⟩ := min_edgeDistances a l hin
      refine ⟨d, hleast, fun h => absurd h Bool.false_ne_true, ?_⟩
      simp only [Bool.false_eq_true, ↓reduceIte, hd, Option.map_some]

/-- The distances are the least ones between the points of the regions, and that of two polygons is
zero exactly when the regions meet. Around a centre inside, a radius below zero is not seen. -/
theorem polygon_distances_exact (a b : List (Point ℝ)) (ha : 3 ≤ a.length) (hb : 3 ≤ b.length) :
    (∃ d, polygonPolygonDistance realMath a b = some d ∧
      IsLeast (distances (region a) (region b)) d ∧ (d = 0 ↔ (region a ∩ region b).Nonempty)) ∧
    ∀ center radius, ∃ d, IsLeast (distances {center} (region a)) d ∧
      (0 ≤ radius ∨ ¬Odd (crossings center (outline a)) →
        polygonCircleDistance realMath a center radius = some (max 0 (d - radius))) ∧
      (Odd (crossings center (outline a)) →
        polygonCircleDistance realMath a center radius = some 0) := by
  obtain ⟨a, l, rfl⟩ := List.exists_cons_of_length_pos (by omega : 0 < a.length)
  obtain ⟨b, m, rfl⟩ := List.exists_cons_of_length_pos (by omega : 0 < b.length)
  constructor
  · obtain ⟨d, hd, hleast⟩ := polygonPolygonDistance_isLeast a b l m
    exact ⟨d, hd, hleast, isLeast_eq_zero_iff hleast⟩
  · intro center radius
    obtain ⟨d, hleast, hzero, hd⟩ := polygonCircleDistance_isLeast a l center radius
    refine ⟨d, hleast, ?_, ?_⟩
    · intro h
      rw [hd]
      by_cases hin : pointInPolygon center (a :: l) = true
      · have hradius : 0 ≤ radius := h.resolve_right fun hodd => hodd (pointInPolygon_iff.mp hin)
        rw [if_pos hin, hzero hin, max_eq_left (by linarith)]
      · rw [if_neg hin]
    · intro hodd
      rw [hd, if_pos (pointInPolygon_iff.mpr hodd)]

/-- Two triangles with a corner of one on an edge of the other. -/
theorem polygon_distances_exact_touching : ∃ d,
    polygonPolygonDistance realMath [(0, 0), (2, 0), (0, 2)] [(1, 0), (0, -2), (2, -2)] = some d ∧
      IsLeast (distances (region [(0, 0), (2, 0), (0, 2)]) (region [(1, 0), (0, -2), (2, -2)])) d ∧
      (d = 0 ↔
        (region [(0, 0), (2, 0), (0, 2)] ∩ region [(1, 0), (0, -2), (2, -2)]).Nonempty) :=
  (polygon_distances_exact [(0, 0), (2, 0), (0, 2)] [(1, 0), (0, -2), (2, -2)]
    (Nat.le_refl 3) (Nat.le_refl 3)).1

/-- A centre inside is at distance `0` whatever the radius, also one that is negative. -/
theorem circle_of_negative_radius : ¬∃ d,
    IsLeast (distances {((0 : ℝ), (0 : ℝ))} (region (rectangleVertices (2, 2)))) d ∧
      polygonCircleDistance realMath (rectangleVertices (2, 2)) (0, 0) (-1) =
        some (max 0 (d - -1)) := by
  intro h
  obtain ⟨d, hd, heq⟩ := h
  have hin : pointInPolygon ((0 : ℝ), (0 : ℝ)) (rectangleVertices (2, 2)) = true := by
    norm_num [pointInPolygon, insideFrom, rectangleVertices]
  have hzero : d = 0 := hd.unique
    (isLeast_zero_of_mem (Set.mem_singleton _) (mem_region_iff.mpr (Or.inr hin)))
  rw [polygonCircleDistance, if_pos hin, hzero] at heq
  norm_num at heq

end Distance

end MgRobot.Scenario

import Mathlib.Analysis.Convex.PathConnected
import Mathlib.Analysis.Real.Sqrt
import MgRobot.Lib.Polyline

/-!
# Segments of the plane

Euclidean distances between points, from a point to a segment, and between two
segments: where the segments do not cross properly, no two points of them are closer
than some endpoint of one is to the other.
-/

namespace MgRobot.Lib.Segments

set_option autoImplicit false

open MgRobot.Lib.Polyline

noncomputable def euclid (p q : ℝ × ℝ) : ℝ := √((p.1 - q.1) ^ 2 + (p.2 - q.2) ^ 2)

/-- Twice the signed area of the triangle. -/
def cross (o a b : ℝ × ℝ) : ℝ := (a.1 - o.1) * (b.2 - o.2) - (a.2 - o.2) * (b.1 - o.1)

/-- Each segment has its endpoints strictly on the two sides of the other. -/
def CrossProperly (a b c d : ℝ × ℝ) : Prop :=
  cross c d a * cross c d b < 0 ∧ cross a b c * cross a b d < 0

variable {a b c d p q : ℝ × ℝ} {s t u v k : ℝ}

section Distance

theorem euclid_comm (p q : ℝ × ℝ) : euclid p q = euclid q p := by
  unfold euclid
  congr 1
  ring

theorem euclid_nonneg (p q : ℝ × ℝ) : 0 ≤ euclid p q := Real.sqrt_nonneg _

theorem euclid_eq_zero : euclid p q = 0 ↔ p = q := by
  unfold euclid
  rw [Real.sqrt_eq_zero (by positivity)]
  constructor
  · intro h
    have h1 : (p.1 - q.1) ^ 2 = 0 := by nlinarith [sq_nonneg (p.1 - q.1), sq_nonneg (p.2 - q.2)]
    have h2 : (p.2 - q.2) ^ 2 = 0 := by nlinarith [sq_nonneg (p.1 - q.1), sq_nonneg (p.2 - q.2)]
    ext
    · exact sub_eq_zero.mp (pow_eq_zero_iff two_ne_zero |>.mp h1)
    · exact sub_eq_zero.mp (pow_eq_zero_iff two_ne_zero |>.mp h2)
  · intro h
    rw [h]
    ring

theorem euclid_self (p : ℝ × ℝ) : euclid p p = 0 := euclid_eq_zero.mpr rfl

theorem euclid_le_of_sq {p' q' : ℝ × ℝ}
    (h : (p'.1 - q'.1) ^ 2 + (p'.2 - q'.2) ^ 2 ≤ (p.1 - q.1) ^ 2 + (p.2 - q.2) ^ 2) :
    euclid p' q' ≤ euclid p q := Real.sqrt_le_sqrt h

/-- A difference that is the other's shrunk by `1 - k`. -/
theorem euclid_le_of_shrunk {p' q' : ℝ × ℝ} (hk : 0 ≤ k) (hk1 : k ≤ 1)
    (h1 : p'.1 - q'.1 = (1 - k) * (p.1 - q.1)) (h2 : p'.2 - q'.2 = (1 - k) * (p.2 - q.2)) :
    euclid p' q' ≤ euclid p q := by
  have hsq : (1 - k) ^ 2 ≤ 1 := by nlinarith
  apply euclid_le_of_sq
  rw [h1, h2]
  nlinarith [sq_nonneg (p.1 - q.1), sq_nonneg (p.2 - q.2)]

end Distance

section Segment

theorem mem_segment_iff : p ∈ segment ℝ a b ↔ ∃ t, 0 ≤ t ∧ t ≤ 1 ∧ between a b t = p := by
  rw [segment_eq_image']
  constructor
  · intro h
    obtain ⟨t, ht, rfl⟩ := h
    refine ⟨t, ht.1, ht.2, ?_⟩
    ext <;> simp [between, mul_comm]
  · intro h
    obtain ⟨t, h0, h1, rfl⟩ := h
    refine ⟨t, ⟨h0, h1⟩, ?_⟩
    ext <;> simp [between, mul_comm]

theorem between_mem_segment (h0 : 0 ≤ t) (h1 : t ≤ 1) : between a b t ∈ segment ℝ a b :=
  mem_segment_iff.mpr ⟨t, h0, h1, rfl⟩

@[simp] theorem between_zero (a b : ℝ × ℝ) : between a b 0 = a := by
  simp [between]

@[simp] theorem between_one (a b : ℝ × ℝ) : between a b 1 = b := by
  simp [between]

/-- The points on the way to a point of a segment are no further. -/
theorem euclid_le_of_mem_segment (h : p ∈ segment ℝ a b) : euclid p b ≤ euclid a b := by
  obtain ⟨t, h0, h1, rfl⟩ := mem_segment_iff.mp h
  refine euclid_le_of_shrunk h0 h1 ?_ ?_
  · simp only [between]
    ring
  · simp only [between]
    ring

end Segment

section Nearest

/-- The parameter of the point nearest to `p`: the foot of the perpendicular, clamped. -/
noncomputable def nearestAt (p a b : ℝ × ℝ) : ℝ :=
  max 0 (min 1 (((p.1 - a.1) * (b.1 - a.1) + (p.2 - a.2) * (b.2 - a.2)) /
    ((b.1 - a.1) * (b.1 - a.1) + (b.2 - a.2) * (b.2 - a.2))))

theorem nearestAt_nonneg : 0 ≤ nearestAt p a b := le_max_left _ _

theorem nearestAt_le_one : nearestAt p a b ≤ 1 :=
  max_le zero_le_one (min_le_left _ _)

/-- Clamping to an interval goes to its nearest number. -/
theorem sq_clamp_sub_le (k : ℝ) (h0 : 0 ≤ t) (h1 : t ≤ 1) :
    (max 0 (min 1 k) - k) ^ 2 ≤ (t - k) ^ 2 := by
  rcases le_total k 0 with hk | hk
  · rw [min_eq_right (hk.trans zero_le_one), max_eq_left hk]
    nlinarith
  · rcases le_total k 1 with hk1 | hk1
    · rw [min_eq_right hk1, max_eq_right hk]
      nlinarith [sq_nonneg (t - k)]
    · rw [min_eq_left hk1, max_eq_right zero_le_one]
      nlinarith

theorem euclid_nearest_le (hab : (b.1 - a.1) * (b.1 - a.1) + (b.2 - a.2) * (b.2 - a.2) ≠ 0)
    (hq : q ∈ segment ℝ a b) : euclid p (between a b (nearestAt p a b)) ≤ euclid p q := by
  obtain ⟨t, h0, h1, rfl⟩ := mem_segment_iff.mp hq
  set l := (b.1 - a.1) * (b.1 - a.1) + (b.2 - a.2) * (b.2 - a.2) with hl
  set n := (p.1 - a.1) * (b.1 - a.1) + (p.2 - a.2) * (b.2 - a.2) with hn
  have hnonneg : 0 ≤ l := add_nonneg (mul_self_nonneg (b.1 - a.1)) (mul_self_nonneg (b.2 - a.2))
  have hpos : 0 < l := lt_of_le_of_ne hnonneg (Ne.symm hab)
  -- the square of the distance at a parameter, by its distance from the foot
  have hsq : ∀ r : ℝ, (p.1 - (between a b r).1) ^ 2 + (p.2 - (between a b r).2) ^ 2 =
      l * (r - n / l) ^ 2 + ((p.1 - a.1) ^ 2 + (p.2 - a.2) ^ 2 - n ^ 2 / l) := by
    intro r
    have hexp : l * (r - n / l) ^ 2 = l * r ^ 2 - 2 * n * r + n ^ 2 / l := by
      field_simp
      ring
    rw [hexp]
    simp only [between, hl, hn]
    ring
  apply euclid_le_of_sq
  rw [hsq, hsq]
  have := mul_le_mul_of_nonneg_left (sq_clamp_sub_le (n / l) h0 h1) hpos.le
  simp only [nearestAt]
  linarith

end Nearest

section Leave

/-- How far a number of the interval can be moved by a multiple of `u` before it leaves. -/
theorem exists_leave (u : ℝ) (h0 : 0 ≤ s) (h1 : s ≤ 1) :
    ∃ k, 0 ≤ k ∧ k ≤ 1 ∧ (∀ m, 0 ≤ m → m ≤ k → 0 ≤ s + m * u ∧ s + m * u ≤ 1) ∧
      (k = 1 ∨ s + k * u = 0 ∨ s + k * u = 1) := by
  rcases lt_or_ge (s + u) 0 with hlow | hlow
  · have hu : u < 0 := by linarith
    have hk : s / -u * u = -s := by
      rw [div_neg, neg_mul, div_mul_cancel₀ s hu.ne]
    refine ⟨s / -u, div_nonneg h0 (by linarith), ?_, ?_, Or.inr (Or.inl (by linarith))⟩
    · rw [div_le_one (by linarith)]
      linarith
    · intro m hm hmk
      have := mul_le_mul_of_nonpos_right hmk hu.le
      constructor
      · linarith
      · nlinarith
  · rcases lt_or_ge 1 (s + u) with hhigh | hhigh
    · have hu : 0 < u := by linarith
      have hk : (1 - s) / u * u = 1 - s := by
        field_simp
      refine ⟨(1 - s) / u, div_nonneg (by linarith) hu.le, ?_, ?_, Or.inr (Or.inr (by linarith))⟩
      · rw [div_le_one hu]
        linarith
      · intro m hm hmk
        have := mul_le_mul_of_nonneg_right hmk hu.le
        constructor
        · nlinarith
        · linarith
    · refine ⟨1, zero_le_one, le_rfl, ?_, Or.inl rfl⟩
      intro m hm hm1
      constructor
      · nlinarith
      · nlinarith

/-- The same for a point of the unit square. -/
theorem exists_leave_square (u v : ℝ) (hs0 : 0 ≤ s) (hs1 : s ≤ 1) (ht0 : 0 ≤ t) (ht1 : t ≤ 1) :
    ∃ k, 0 ≤ k ∧ k ≤ 1 ∧ (0 ≤ s + k * u ∧ s + k * u ≤ 1) ∧ (0 ≤ t + k * v ∧ t + k * v ≤ 1) ∧
      (k = 1 ∨ (s + k * u = 0 ∨ s + k * u = 1) ∨ t + k * v = 0 ∨ t + k * v = 1) := by
  obtain ⟨k, hk0, hk1, hk, hkout⟩ := exists_leave u hs0 hs1
  obtain ⟨m, hm0, hm1, hm, hmout⟩ := exists_leave v ht0 ht1
  rcases le_total k m with h | h
  · exact ⟨k, hk0, hk1, hk k hk0 le_rfl, hm k hk0 h, hkout.imp_right Or.inl⟩
  · exact ⟨m, hm0, hm1, hk m hm0 h, hm m hm0 le_rfl, hmout.imp_right Or.inr⟩

end Leave

section TwoSegments

/-- `v` is an endpoint of one of the segments and `r` a point of the other. -/
def EndpointPair (a b c d v r : ℝ × ℝ) : Prop :=
  (v = a ∨ v = b) ∧ r ∈ segment ℝ c d ∨ (v = c ∨ v = d) ∧ r ∈ segment ℝ a b

/-- Parameters of which one is an end give an endpoint and a point of the other segment. -/
theorem exists_endpointPair (hs : 0 ≤ s ∧ s ≤ 1) (ht : 0 ≤ t ∧ t ≤ 1)
    (h : (s = 0 ∨ s = 1) ∨ t = 0 ∨ t = 1) :
    ∃ v r, EndpointPair a b c d v r ∧ euclid v r = euclid (between a b s) (between c d t) := by
  have hp := between_mem_segment (a := a) (b := b) hs.1 hs.2
  have hq := between_mem_segment (a := c) (b := d) ht.1 ht.2
  rcases h with (rfl | rfl) | rfl | rfl
  · exact ⟨a, between c d t, Or.inl ⟨Or.inl rfl, hq⟩, by rw [between_zero]⟩
  · exact ⟨b, between c d t, Or.inl ⟨Or.inr rfl, hq⟩, by rw [between_one]⟩
  · exact ⟨c, between a b s, Or.inr ⟨Or.inl rfl, hp⟩, by rw [between_zero, euclid_comm]⟩
  · exact ⟨d, between a b s, Or.inr ⟨Or.inr rfl, hp⟩, by rw [between_one, euclid_comm]⟩

/-- Segments that meet within both cross properly, if their directions are not parallel. -/
theorem crossProperly_of_meet (hk : (b.1 - a.1) * (d.2 - c.2) - (b.2 - a.2) * (d.1 - c.1) ≠ 0)
    (hmeet : between a b s = between c d t) (hs0 : 0 < s) (hs1 : s < 1) (ht0 : 0 < t)
    (ht1 : t < 1) : CrossProperly a b c d := by
  have h1 : a.1 + (b.1 - a.1) * s = c.1 + (d.1 - c.1) * t := congrArg Prod.fst hmeet
  have h2 : a.2 + (b.2 - a.2) * s = c.2 + (d.2 - c.2) * t := congrArg Prod.snd hmeet
  set k := (b.1 - a.1) * (d.2 - c.2) - (b.2 - a.2) * (d.1 - c.1) with hkdef
  have hkk : 0 < k ^ 2 := by positivity
  have ha : cross c d a = s * k := by
    simp only [cross, hkdef]
    linear_combination (d.1 - c.1) * h2 - (d.2 - c.2) * h1
  have hb : cross c d b = -((1 - s) * k) := by
    simp only [cross, hkdef]
    linear_combination (d.1 - c.1) * h2 - (d.2 - c.2) * h1
  have hc : cross a b c = -(t * k) := by
    simp only [cross, hkdef]
    linear_combination (b.2 - a.2) * h1 - (b.1 - a.1) * h2
  have hd : cross a b d = (1 - t) * k := by
    simp only [cross, hkdef]
    linear_combination (b.2 - a.2) * h1 - (b.1 - a.1) * h2
  constructor
  · have hprod : cross c d a * cross c d b = -(s * (1 - s) * k ^ 2) := by
      rw [ha, hb]
      ring
    rw [hprod]
    exact neg_neg_of_pos (mul_pos (mul_pos hs0 (sub_pos.mpr hs1)) hkk)
  · have hprod : cross a b c * cross a b d = -(t * (1 - t) * k ^ 2) := by
      rw [hc, hd]
      ring
    rw [hprod]
    exact neg_neg_of_pos (mul_pos (mul_pos ht0 (sub_pos.mpr ht1)) hkk)

/-- Zero divides the way from one number to another of the opposite sign. -/
theorem div_sub_mem_of_mul_neg {x y : ℝ} (h : x * y < 0) :
    x - y ≠ 0 ∧ 0 ≤ x / (x - y) ∧ x / (x - y) ≤ 1 := by
  rcases mul_neg_iff.mp h with ⟨hx, hy⟩ | ⟨hx, hy⟩
  · have hpos : 0 < x - y := by linarith
    refine ⟨hpos.ne', div_nonneg hx.le hpos.le, ?_⟩
    rw [div_le_one hpos]
    linarith
  · have hneg : x - y < 0 := by linarith
    refine ⟨hneg.ne, div_nonneg_of_nonpos hx.le hneg.le, ?_⟩
    rw [div_le_one_of_neg hneg]
    linarith

theorem CrossProperly.exists_mem (h : CrossProperly a b c d) :
    ∃ p, p ∈ segment ℝ a b ∧ p ∈ segment ℝ c d := by
  obtain ⟨hne, hs0, hs1⟩ := div_sub_mem_of_mul_neg h.1
  obtain ⟨hne', ht0, ht1⟩ := div_sub_mem_of_mul_neg h.2
  have hs := div_mul_cancel₀ (cross c d a) hne
  have ht := div_mul_cancel₀ (cross a b c) hne'
  set s := cross c d a / (cross c d a - cross c d b)
  set t := cross a b c / (cross a b c - cross a b d)
  have hmeet : between a b s = between c d t := by
    ext
    · apply mul_right_cancel₀ hne
      simp only [between]
      simp only [cross] at hs ht ⊢
      linear_combination (b.1 - a.1) * hs + (d.1 - c.1) * ht
    · apply mul_right_cancel₀ hne
      simp only [between]
      simp only [cross] at hs ht ⊢
      linear_combination (b.2 - a.2) * hs + (d.2 - c.2) * ht
  exact ⟨between a b s, between_mem_segment hs0 hs1, hmeet ▸ between_mem_segment ht0 ht1⟩

/-- Parallel directions are multiples. -/
theorem exists_multiple (hab : a ≠ b)
    (hk : (b.1 - a.1) * (d.2 - c.2) - (b.2 - a.2) * (d.1 - c.1) = 0) :
    ∃ e, d.1 - c.1 = e * (b.1 - a.1) ∧ d.2 - c.2 = e * (b.2 - a.2) := by
  by_cases h1 : b.1 - a.1 = 0
  · have h2 : b.2 - a.2 ≠ 0 := by
      intro h2
      exact hab (Prod.ext (sub_eq_zero.mp h1).symm (sub_eq_zero.mp h2).symm)
    refine ⟨(d.2 - c.2) / (b.2 - a.2), ?_, (div_mul_cancel₀ _ h2).symm⟩
    rw [h1] at hk ⊢
    have : d.1 - c.1 = 0 := by simpa [h2] using hk
    rw [this, mul_zero]
  · refine ⟨(d.1 - c.1) / (b.1 - a.1), (div_mul_cancel₀ _ h1).symm, ?_⟩
    field_simp
    linarith

/-- Points of parallel segments can be moved together until one is at an endpoint. -/
theorem exists_endpoint_of_parallel {e : ℝ} (he1 : d.1 - c.1 = e * (b.1 - a.1))
    (he2 : d.2 - c.2 = e * (b.2 - a.2)) (hs : 0 ≤ s ∧ s ≤ 1) (ht : 0 ≤ t ∧ t ≤ 1) :
    ∃ v r, EndpointPair a b c d v r ∧ euclid v r ≤ euclid (between a b s) (between c d t) := by
  obtain ⟨k, hk0, hk1, hsk, htk, hout⟩ := exists_leave_square (e * 2) 2 hs.1 hs.2 ht.1 ht.2
  have hend : (s + k * (e * 2) = 0 ∨ s + k * (e * 2) = 1) ∨ t + k * 2 = 0 ∨ t + k * 2 = 1 := by
    rcases hout with rfl | hout
    · linarith
    · exact hout
  obtain ⟨v, r, hvr, heq⟩ := exists_endpointPair (a := a) (b := b) (c := c) (d := d) hsk htk hend
  refine ⟨v, r, hvr, ?_⟩
  rw [heq]
  refine euclid_le_of_shrunk le_rfl zero_le_one ?_ ?_
  · simp only [between, he1]
    ring
  · simp only [between, he2]
    ring

/-- Points of segments whose lines meet can be moved towards the place where they do, until one is
at an endpoint, unless the segments cross properly. -/
theorem exists_endpoint_of_meet (h : ¬CrossProperly a b c d)
    (hk : (b.1 - a.1) * (d.2 - c.2) - (b.2 - a.2) * (d.1 - c.1) ≠ 0)
    (hs : 0 ≤ s ∧ s ≤ 1) (ht : 0 ≤ t ∧ t ≤ 1) :
    ∃ v r, EndpointPair a b c d v r ∧ euclid v r ≤ euclid (between a b s) (between c d t) := by
  -- the parameters at which the lines meet
  set m := (b.1 - a.1) * (d.2 - c.2) - (b.2 - a.2) * (d.1 - c.1) with hm
  set s' := ((c.1 - a.1) * (d.2 - c.2) - (c.2 - a.2) * (d.1 - c.1)) / m with hs'
  set t' := ((c.1 - a.1) * (b.2 - a.2) - (c.2 - a.2) * (b.1 - a.1)) / m with ht'
  have hsm : s' * m = (c.1 - a.1) * (d.2 - c.2) - (c.2 - a.2) * (d.1 - c.1) :=
    div_mul_cancel₀ _ hk
  have htm : t' * m = (c.1 - a.1) * (b.2 - a.2) - (c.2 - a.2) * (b.1 - a.1) :=
    div_mul_cancel₀ _ hk
  have hx : a.1 + (b.1 - a.1) * s' = c.1 + (d.1 - c.1) * t' := by
    apply mul_right_cancel₀ hk
    linear_combination (b.1 - a.1) * hsm - (d.1 - c.1) * htm + (a.1 - c.1) * hm
  have hy : a.2 + (b.2 - a.2) * s' = c.2 + (d.2 - c.2) * t' := by
    apply mul_right_cancel₀ hk
    linear_combination (b.2 - a.2) * hsm - (d.2 - c.2) * htm + (a.2 - c.2) * hm
  obtain ⟨k, hk0, hk1, hsk, htk, hout⟩ :=
    exists_leave_square (s' - s) (t' - t) hs.1 hs.2 ht.1 ht.2
  have hend : (s + k * (s' - s) = 0 ∨ s + k * (s' - s) = 1) ∨
      t + k * (t' - t) = 0 ∨ t + k * (t' - t) = 1 := by
    rcases hout with rfl | hout
    · by_contra hin
      simp only [one_mul, add_sub_cancel, not_or] at hin hsk htk
      exact h (crossProperly_of_meet hk (Prod.ext hx hy) (lt_of_le_of_ne hsk.1 (Ne.symm hin.1.1))
        (lt_of_le_of_ne hsk.2 hin.1.2) (lt_of_le_of_ne htk.1 (Ne.symm hin.2.1))
        (lt_of_le_of_ne htk.2 hin.2.2))
    · exact hout
  obtain ⟨v, r, hvr, heq⟩ := exists_endpointPair (a := a) (b := b) (c := c) (d := d) hsk htk hend
  refine ⟨v, r, hvr, ?_⟩
  rw [heq]
  refine euclid_le_of_shrunk hk0 hk1 ?_ ?_
  · simp only [between]
    linear_combination k * hx
  · simp only [between]
    linear_combination k * hy

/-- Segments that do not cross properly come as close as at an endpoint of one of them. -/
theorem exists_endpoint_le (h : ¬CrossProperly a b c d) (hp : p ∈ segment ℝ a b)
    (hq : q ∈ segment ℝ c d) : ∃ v r, EndpointPair a b c d v r ∧ euclid v r ≤ euclid p q := by
  obtain ⟨s, hs0, hs1, rfl⟩ := mem_segment_iff.mp hp
  obtain ⟨t, ht0, ht1, rfl⟩ := mem_segment_iff.mp hq
  by_cases hab : a = b
  · refine ⟨a, between c d t, Or.inl ⟨Or.inl rfl, hq⟩, ?_⟩
    rw [← hab]
    simp [between]
  by_cases hk : (b.1 - a.1) * (d.2 - c.2) - (b.2 - a.2) * (d.1 - c.1) = 0
  · obtain ⟨e, he1, he2⟩ := exists_multiple hab hk
    exact exists_endpoint_of_parallel he1 he2 ⟨hs0, hs1⟩ ⟨ht0, ht1⟩
  · exact exists_endpoint_of_meet h hk ⟨hs0, hs1⟩ ⟨ht0, ht1⟩

end TwoSegments

end MgRobot.Lib.Segments

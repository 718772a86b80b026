import Mathlib.Algebra.Ring.Parity
import Mathlib.Topology.Algebra.Order.Field
import Mathlib.Topology.Connected.TotallyDisconnected
import Mathlib.Topology.Order.Compact
import MgRobot.Lib.Segments

/-!
# The even-odd rule

Closed polygons of the plane, crossing themselves or not. A point off the edges is
inside when a ray from it to the right crosses an odd number of edges; off the edges
that parity does not change. Polygons whose edges do not meet are apart, or a vertex of
one tells that it lies in the other; so the points of two regions are no closer than
points of the edges.
-/

namespace MgRobot.Lib.EvenOdd

set_option autoImplicit false

open MgRobot.Lib.Polyline MgRobot.Lib.Segments
open scoped Topology

section Outline

variable {P : Type*}

/-- The edges from `a` on through the points. -/
def walk : P → List P → List (P × P)
  | _, [] => []
  | a, b :: rest => (a, b) :: walk b rest

def outline : List P → List (P × P)
  | [] => []
  | a :: rest => walk a (rest ++ [a])

/-- Where a walk ends. -/
def walkEnd : P → List P → P
  | a, [] => a
  | _, b :: rest => walkEnd b rest

theorem walkEnd_concat (a z : P) (l : List P) : walkEnd a (l ++ [z]) = z := by
  induction l generalizing a with
  | nil => rfl
  | cons b l ih => exact ih b

theorem walk_concat (a z : P) (l : List P) :
    walk a (l ++ [z]) = walk a l ++ [(walkEnd a l, z)] := by
  induction l generalizing a with
  | nil => rfl
  | cons b l ih => exact congrArg ((a, b) :: ·) (ih b)

theorem getLast?_cons_eq_walkEnd (a : P) (l : List P) :
    (a :: l).getLast? = some (walkEnd a l) := by
  induction l generalizing a with
  | nil => rfl
  | cons b l ih => rw [List.getLast?_cons_cons, ih b, walkEnd]

theorem zip_concat_eq_walk (a z : P) (l : List P) :
    (a :: l).zip (l ++ [z]) = walk a (l ++ [z]) := by
  induction l generalizing a with
  | nil => rfl
  | cons b l ih => exact congrArg ((a, b) :: ·) (ih b)

theorem mem_of_mem_walk {e : P × P} {a : P} {l : List P} (h : e ∈ walk a l) :
    e.1 ∈ a :: l ∧ e.2 ∈ a :: l := by
  induction l generalizing a with
  | nil => simp [walk] at h
  | cons b l ih =>
      rcases List.mem_cons.mp h with rfl | h
      · exact ⟨List.mem_cons_self, List.mem_cons_of_mem _ List.mem_cons_self⟩
      · exact ⟨List.mem_cons_of_mem _ (ih h).1, List.mem_cons_of_mem _ (ih h).2⟩

theorem mem_of_mem_outline {e : P × P} {l : List P} (h : e ∈ outline l) : e.1 ∈ l ∧ e.2 ∈ l := by
  cases l with
  | nil => simp [outline] at h
  | cons a l =>
      obtain ⟨h1, h2⟩ := mem_of_mem_walk h
      simp only [List.mem_cons, List.mem_append, List.not_mem_nil, or_false] at h1 h2 ⊢
      grind

theorem exists_mem_walk {v a : P} {l : List P} (z : P) (h : v ∈ a :: l) :
    ∃ w, (v, w) ∈ walk a (l ++ [z]) := by
  induction l generalizing a with
  | nil =>
      obtain rfl := List.mem_singleton.mp h
      exact ⟨z, List.mem_singleton.mpr rfl⟩
  | cons b l ih =>
      rcases List.mem_cons.mp h with rfl | h
      · exact ⟨b, List.mem_cons_self⟩
      · obtain ⟨w, hw⟩ := ih h
        exact ⟨w, List.mem_cons_of_mem _ hw⟩

/-- An edge starts at every vertex. -/
theorem exists_mem_outline {v : P} {l : List P} (h : v ∈ l) : ∃ w, (v, w) ∈ outline l := by
  cases l with
  | nil => simp at h
  | cons a l => exact exists_mem_walk a h

end Outline

abbrev Edge := (ℝ × ℝ) × (ℝ × ℝ)

/-- An edge counts with its lower end and without its upper one. -/
def Crosses (p : ℝ × ℝ) (e : Edge) : Prop :=
  ¬(p.2 < e.1.2 ↔ p.2 < e.2.2) ∧ ∃ q ∈ segment ℝ e.1 e.2, q.2 = p.2 ∧ p.1 < q.1

noncomputable instance (p : ℝ × ℝ) (e : Edge) : Decidable (Crosses p e) := Classical.propDecidable _

/-- How many edges the ray to the right crosses. -/
noncomputable def crossings (p : ℝ × ℝ) (edges : List Edge) : ℕ :=
  edges.countP fun e => decide (Crosses p e)

def boundary (edges : List Edge) : Set (ℝ × ℝ) := {p | ∃ e ∈ edges, p ∈ segment ℝ e.1 e.2}

/-- The edges of a polygon and the points of odd parity. -/
def region (vertices : List (ℝ × ℝ)) : Set (ℝ × ℝ) :=
  boundary (outline vertices) ∪ {p | Odd (crossings p (outline vertices))}

noncomputable def parity (edges : List Edge) (p : ℝ × ℝ) : Bool :=
  edges.foldr (fun e odd => decide (Crosses p e) ^^ odd) false

section Parity

variable {a b p p₀ q : ℝ × ℝ} {e : Edge} {edges edges' : List Edge} {y : ℝ}

theorem parity_eq_true_iff : parity edges p = true ↔ Odd (crossings p edges) := by
  induction edges with
  | nil => simp [parity, crossings]
  | cons e edges ih =>
      have hcons : parity (e :: edges) p = (decide (Crosses p e) ^^ parity edges p) := rfl
      rw [hcons, crossings, List.countP_cons, ← crossings]
      by_cases h : Crosses p e
      · simp only [h, decide_true, Bool.true_xor, Bool.not_eq_true', ↓reduceIte, Nat.odd_add_one]
        rw [← ih, Bool.not_eq_true]
      · simp only [h, decide_false, Bool.false_xor, Bool.false_eq_true, ↓reduceIte, add_zero]
        exact ih

theorem parity_append : parity (edges ++ edges') p = (parity edges p ^^ parity edges' p) := by
  induction edges with
  | nil => simp [parity]
  | cons e edges ih =>
      have hcons : ∀ l, parity (e :: l) p = (decide (Crosses p e) ^^ parity l p) := fun _ => rfl
      rw [List.cons_append, hcons, hcons, ih, Bool.xor_assoc]

theorem exists_crosses_of_parity (h : parity edges p = true) : ∃ e ∈ edges, Crosses p e := by
  have hpos := (parity_eq_true_iff.mp h).pos
  obtain ⟨e, he, hc⟩ := List.countP_pos_iff.mp hpos
  exact ⟨e, he, of_decide_eq_true hc⟩

theorem region_eq {vertices : List (ℝ × ℝ)} : p ∈ region vertices ↔
    p ∈ boundary (outline vertices) ∨ parity (outline vertices) p = true := by
  rw [parity_eq_true_iff]
  rfl

end Parity

section Abscissa

/-- Where the line through `a` and `b` is at height `y`. -/
noncomputable def abscissa (a b : ℝ × ℝ) (y : ℝ) : ℝ :=
  (a.1 - b.1) * (y - b.2) / (a.2 - b.2) + b.1

variable {a b p p₀ q : ℝ × ℝ} {e : Edge} {y : ℝ}

theorem abscissa_left (h : a.2 ≠ b.2) : abscissa a b a.2 = a.1 := by
  rw [abscissa, mul_div_assoc, div_self (sub_ne_zero.mpr h)]
  ring

theorem abscissa_right (a b : ℝ × ℝ) : abscissa a b b.2 = b.1 := by
  simp [abscissa]

theorem fst_eq_abscissa (h : a.2 ≠ b.2) (hq : q ∈ segment ℝ a b) : q.1 = abscissa a b q.2 := by
  obtain ⟨t, -, -, rfl⟩ := mem_segment_iff.mp hq
  have hne := sub_ne_zero.mpr h
  simp only [between, abscissa]
  field_simp
  ring

/-- A number between two others divides the way from one to the other. -/
theorem sub_div_mem_of_between {x y z : ℝ} (h : y ≠ z) (hlow : ¬(x < y ∧ x < z))
    (hhigh : ¬(y < x ∧ z < x)) : 0 ≤ (x - y) / (z - y) ∧ (x - y) / (z - y) ≤ 1 := by
  rcases lt_or_gt_of_ne h with hlt | hlt
  · refine ⟨div_nonneg (by grind) (by linarith), ?_⟩
    rw [div_le_one (by linarith)]
    grind
  · refine ⟨div_nonneg_of_nonpos (by grind) (by linarith), ?_⟩
    rw [div_le_one_of_neg (by linarith)]
    grind

/-- A height between the ends is that of a point of the segment. -/
theorem abscissa_mem_segment (h : a.2 ≠ b.2) (hy : ¬(y < a.2 ∧ y < b.2))
    (hy' : ¬(a.2 < y ∧ b.2 < y)) : (abscissa a b y, y) ∈ segment ℝ a b := by
  obtain ⟨hnonneg, hle⟩ := sub_div_mem_of_between h hy hy'
  have hne := sub_ne_zero.mpr h
  have hne' := sub_ne_zero.mpr h.symm
  refine mem_segment_iff.mpr ⟨(y - a.2) / (b.2 - a.2), hnonneg, hle, ?_⟩
  ext
  · simp only [between, abscissa]
    field_simp
    ring
  · simp only [between]
    field_simp
    ring

theorem crosses_iff : Crosses p (a, b) ↔
    ¬(p.2 < a.2 ↔ p.2 < b.2) ∧ p.1 < abscissa a b p.2 := by
  unfold Crosses
  refine and_congr_right fun hsides => ?_
  have h : a.2 ≠ b.2 := fun h => hsides (by rw [h])
  constructor
  · intro hq
    obtain ⟨q, hq, hq2, hlt⟩ := hq
    rw [fst_eq_abscissa h hq, hq2] at hlt
    exact hlt
  · intro hlt
    exact ⟨(abscissa a b p.2, p.2), abscissa_mem_segment h (by grind) (by grind), rfl, hlt⟩

end Abscissa

section Continuity

variable {a b p p₀ q v : ℝ × ℝ} {edges : List Edge}

theorem continuousAt_decide_lt {f g : ℝ × ℝ → ℝ} (hf : ContinuousAt f p₀) (hg : ContinuousAt g p₀)
    (h : f p₀ ≠ g p₀) : ContinuousAt (fun p => decide (f p < g p)) p₀ := by
  rcases lt_or_gt_of_ne h with hlt | hlt
  · refine continuousAt_const.congr (f := fun _ => true) ?_
    filter_upwards [hf.eventually_lt hg hlt] with p hp
    exact (decide_eq_true hp).symm
  · refine continuousAt_const.congr (f := fun _ => false) ?_
    filter_upwards [hg.eventually_lt hf hlt] with p hp
    exact (decide_eq_false hp.not_gt).symm

theorem continuousAt_bool (op : Bool → Bool → Bool) {f g : ℝ × ℝ → Bool} (hf : ContinuousAt f p₀)
    (hg : ContinuousAt g p₀) : ContinuousAt (fun p => op (f p) (g p)) p₀ :=
  (continuous_of_discreteTopology (f := fun c : Bool × Bool => op c.1 c.2)).continuousAt.comp
    (hf.prodMk hg)

theorem eventually_eq_of_continuousAt {d : ℝ × ℝ → Bool} (hd : ContinuousAt d p₀) :
    ∀ᶠ p in 𝓝 p₀, d p = d p₀ :=
  Filter.Tendsto.eventually hd (p := fun c => c = d p₀) (mem_nhds_discrete.mpr rfl)

noncomputable def below (v p : ℝ × ℝ) : Bool := decide (p.2 < v.2)

theorem continuousAt_below (h : p₀.2 ≠ v.2) : ContinuousAt (below v) p₀ :=
  continuousAt_decide_lt continuous_snd.continuousAt continuousAt_const h

/-- What a vertex adds to the crossings of its two edges, near a point at its height. -/
noncomputable def corner (p₀ v p : ℝ × ℝ) : Bool := below v p && decide (p₀.1 < v.1)

theorem continuousAt_corner {d : ℝ × ℝ → Bool} (hd : ContinuousAt d p₀)
    (h : p₀.2 = v.2 → d p₀ = decide (p₀.1 < v.1)) :
    ContinuousAt (fun p => (below v p && d p) ^^ corner p₀ v p) p₀ := by
  by_cases hv : p₀.2 = v.2
  · refine continuousAt_const.congr (f := fun _ => false) ?_
    filter_upwards [eventually_eq_of_continuousAt hd] with p hp
    rw [hp, h hv, corner, Bool.xor_self]
  · have hb := continuousAt_below hv
    exact continuousAt_bool Bool.xor (continuousAt_bool Bool.and hb hd)
      (continuousAt_bool Bool.and hb continuousAt_const)

theorem continuousAt_abscissa (a b p₀ : ℝ × ℝ) : ContinuousAt (fun p => abscissa a b p.2) p₀ := by
  have : Continuous fun p : ℝ × ℝ => abscissa a b p.2 := by
    unfold abscissa
    fun_prop
  exact this.continuousAt

/-- At the height of a level edge, a point off it has both ends on the same side. -/
theorem lt_iff_of_level (hab : a.2 = b.2) (hp : p.2 = b.2) (h : p ∉ segment ℝ a b) :
    p.1 < a.1 ↔ p.1 < b.1 := by
  by_contra hne
  apply h
  have hd : a.1 ≠ b.1 := by grind
  obtain ⟨hnonneg, hle⟩ := sub_div_mem_of_between (x := p.1) hd (by grind) (by grind)
  have hd' := sub_ne_zero.mpr hd.symm
  refine mem_segment_iff.mpr ⟨(p.1 - a.1) / (b.1 - a.1), hnonneg, hle, ?_⟩
  ext
  · simp only [between]
    field_simp
    ring
  · simp only [between]
    rw [hab, hp]
    ring

theorem crosses_eq (p : ℝ × ℝ) :
    decide (Crosses p (a, b)) = ((below a p ^^ below b p) && decide (p.1 < abscissa a b p.2)) := by
  rw [Bool.eq_iff_iff, decide_eq_true_iff, crosses_iff, below, below]
  by_cases h1 : p.2 < a.2 <;> by_cases h2 : p.2 < b.2 <;> simp [h1, h2]

/-- A point on the line of an edge and off the edge is beside it. -/
theorem below_eq_of_on_line (hab : a.2 ≠ b.2) (hon : p.1 = abscissa a b p.2)
    (h : p ∉ segment ℝ a b) : p.2 ≠ a.2 ∧ p.2 ≠ b.2 ∧ below a p = below b p := by
  have hout : (p.2 < a.2 ∧ p.2 < b.2) ∨ (a.2 < p.2 ∧ b.2 < p.2) := by
    by_contra hin
    have hmem := abscissa_mem_segment hab (y := p.2) (fun hy => hin (Or.inl hy))
      fun hy => hin (Or.inr hy)
    rw [← hon] at hmem
    exact h hmem
  refine ⟨by grind, by grind, ?_⟩
  rw [Bool.eq_iff_iff, below, below, decide_eq_true_iff, decide_eq_true_iff]
  grind

/-- Off an edge, the side it is on is locally constant, as far as crossing it depends on that. -/
theorem exists_side (h : p₀ ∉ segment ℝ a b) : ∃ d : ℝ × ℝ → Bool, ContinuousAt d p₀ ∧
    (p₀.2 = a.2 → d p₀ = decide (p₀.1 < a.1)) ∧ (p₀.2 = b.2 → d p₀ = decide (p₀.1 < b.1)) ∧
    ∀ᶠ p in 𝓝 p₀, decide (Crosses p (a, b)) = ((below a p ^^ below b p) && d p) := by
  by_cases hab : a.2 = b.2
  · refine ⟨fun _ => decide (p₀.1 < a.1), continuousAt_const, fun _ => rfl, ?_, ?_⟩
    · intro hp
      exact decide_eq_decide.mpr (lt_iff_of_level hab hp h)
    · refine Filter.Eventually.of_forall fun p => ?_
      rw [below, below, hab, Bool.xor_self, Bool.false_and]
      exact decide_eq_false fun hc => hc.1 (by rw [hab])
  · by_cases hon : p₀.1 = abscissa a b p₀.2
    · obtain ⟨ha, hb, hsame⟩ := below_eq_of_on_line hab hon h
      refine ⟨fun _ => false, continuousAt_const, fun h => absurd h ha, fun h => absurd h hb, ?_⟩
      filter_upwards [eventually_eq_of_continuousAt (continuousAt_below ha),
        eventually_eq_of_continuousAt (continuousAt_below hb)] with p hpa hpb
      rw [crosses_eq, hpa, hpb, hsame, Bool.xor_self, Bool.false_and, Bool.false_and]
    · refine ⟨fun p => decide (p.1 < abscissa a b p.2),
        continuousAt_decide_lt continuous_fst.continuousAt (continuousAt_abscissa a b p₀) hon,
        ?_, ?_, Filter.Eventually.of_forall crosses_eq⟩
      · intro hp
        simp only [hp, abscissa_left hab]
      · intro hp
        simp only [hp, abscissa_right]

theorem continuousAt_crosses (h : p₀ ∉ segment ℝ a b) :
    ContinuousAt (fun p => (decide (Crosses p (a, b)) ^^ corner p₀ a p) ^^ corner p₀ b p) p₀ := by
  obtain ⟨d, hd, ha, hb, hcross⟩ := exists_side h
  refine (continuousAt_bool Bool.xor (continuousAt_corner hd ha)
    (continuousAt_corner hd hb)).congr ?_
  have hsplit : ∀ u v s x y : Bool,
      (((u && s) ^^ x) ^^ ((v && s) ^^ y)) = ((((u ^^ v) && s) ^^ x) ^^ y) := by decide
  filter_upwards [hcross] with p hp
  rw [hp]
  exact hsplit _ _ _ _ _

/-- Over a walk the corners cancel, up to the first and the last. -/
theorem continuousAt_parity_walk (l : List (ℝ × ℝ)) (h : p₀ ∉ boundary (walk a l)) :
    ContinuousAt (fun p => (parity (walk a l) p ^^ corner p₀ a p) ^^ corner p₀ (walkEnd a l) p)
      p₀ := by
  induction l generalizing a with
  | nil =>
      refine continuousAt_const.congr (f := fun _ => false)
        (Filter.Eventually.of_forall fun p => ?_)
      simp [walk, parity, walkEnd]
  | cons b l ih =>
      have hfirst : p₀ ∉ segment ℝ a b := fun hp => h ⟨(a, b), List.mem_cons_self, hp⟩
      have hrest : p₀ ∉ boundary (walk b l) := by
        intro hp
        obtain ⟨e, he, hp⟩ := hp
        exact h ⟨e, List.mem_cons_of_mem _ he, hp⟩
      refine (continuousAt_bool Bool.xor (continuousAt_crosses hfirst) (ih hrest)).congr
        (Filter.Eventually.of_forall fun p => ?_)
      have hcons : parity (walk a (b :: l)) p =
          (decide (Crosses p (a, b)) ^^ parity (walk b l) p) := rfl
      have hcancel : ∀ c r x y z : Bool,
          (((c ^^ x) ^^ y) ^^ ((r ^^ y) ^^ z)) = (((c ^^ r) ^^ x) ^^ z) := by decide
      simp only [hcons, walkEnd]
      exact hcancel _ _ _ _ _

/-- Off the edges the parity of a closed polygon is locally constant. -/
theorem continuousAt_parity (l : List (ℝ × ℝ)) (h : p₀ ∉ boundary (outline l)) :
    ContinuousAt (parity (outline l)) p₀ := by
  cases l with
  | nil => exact continuousAt_const
  | cons a l =>
      have := continuousAt_parity_walk (l ++ [a]) h
      simp only [walkEnd_concat, Bool.xor_assoc, Bool.xor_self, Bool.xor_false] at this
      exact this

theorem parity_eq_of_segment {l : List (ℝ × ℝ)}
    (h : ∀ r ∈ segment ℝ p q, r ∉ boundary (outline l)) :
    parity (outline l) p = parity (outline l) q :=
  (convex_segment p q).isPreconnected.constant
    (fun r hr => (continuousAt_parity l (h r hr)).continuousWithinAt)
    (left_mem_segment ℝ p q) (right_mem_segment ℝ p q)

end Continuity

/-! ## The regions of polygons -/

variable {a b p q r : ℝ × ℝ} {l m : List (ℝ × ℝ)} {edges : List Edge}

section Boundary

theorem continuous_between (p q : ℝ × ℝ) : Continuous (between p q) := by
  unfold between
  fun_prop

theorem isClosed_segment (a b : ℝ × ℝ) : IsClosed (segment ℝ a b) := by
  rw [segment_eq_image']
  exact (isCompact_Icc.image (by fun_prop)).isClosed

theorem isClosed_boundary (edges : List Edge) : IsClosed (boundary edges) := by
  have : boundary edges = ⋃ e ∈ {e | e ∈ edges}, segment ℝ e.1 e.2 := by
    ext p
    simp [boundary]
  rw [this]
  exact edges.finite_toSet.isClosed_biUnion fun e _ => isClosed_segment e.1 e.2

/-- The way to a point of a closed set meets the set a first time. -/
theorem exists_first_hit {K : Set (ℝ × ℝ)} (hK : IsClosed K) (p : ℝ × ℝ) (hq : q ∈ K) :
    ∃ r ∈ segment ℝ p q, r ∈ K ∧ ∀ r' ∈ segment ℝ p r, r' ∈ K → r' = r := by
  have hcompact : IsCompact (Set.Icc (0 : ℝ) 1 ∩ Set.preimage (between p q) K) :=
    isCompact_Icc.inter_right (hK.preimage (continuous_between p q))
  obtain ⟨t, ⟨ht, htK⟩, hleast⟩ := hcompact.exists_isLeast
    ⟨1, ⟨zero_le_one, le_rfl⟩, by simpa using hq⟩
  refine ⟨between p q t, between_mem_segment ht.1 ht.2, htK, ?_⟩
  intro r' hr' hr'K
  obtain ⟨u, hu0, hu1, rfl⟩ := mem_segment_iff.mp hr'
  have hsame : between p (between p q t) u = between p q (t * u) := by
    ext
    · simp only [between]
      ring
    · simp only [between]
      ring
  rw [hsame] at hr'K ⊢
  have htu : t * u ≤ t := mul_le_of_le_one_right ht.1 hu1
  have := hleast ⟨⟨mul_nonneg ht.1 hu0, htu.trans ht.2⟩, hr'K⟩
  rw [le_antisymm htu this]

theorem head_mem_boundary (a : ℝ × ℝ) (l : List (ℝ × ℝ)) : a ∈ boundary (outline (a :: l)) := by
  obtain ⟨w, hw⟩ := exists_mem_outline (List.mem_cons_self (a := a) (l := l))
  exact ⟨(a, w), hw, left_mem_segment ℝ a w⟩

theorem mem_region_of_boundary (h : p ∈ boundary (outline l)) : p ∈ region l := Or.inl h

end Boundary

section Apart

/-- A walk that does not meet a polygon stays on one side of it. -/
theorem parity_walk (h : ∀ p ∈ boundary (walk a l), p ∉ boundary (outline m))
    (hp : p ∈ boundary (walk a l)) : parity (outline m) p = parity (outline m) a := by
  induction l generalizing a with
  | nil =>
      obtain ⟨e, he, -⟩ := hp
      exact absurd he List.not_mem_nil
  | cons b l ih =>
      have hfirst : ∀ r ∈ segment ℝ a b, parity (outline m) a = parity (outline m) r := by
        intro r hr
        refine parity_eq_of_segment fun r' hr' => ?_
        exact h r' ⟨(a, b), List.mem_cons_self,
          (convex_segment a b).segment_subset (left_mem_segment ℝ a b) hr hr'⟩
      obtain ⟨e, he, hpe⟩ := hp
      rcases List.mem_cons.mp he with rfl | he
      · exact (hfirst p hpe).symm
      · rw [ih (fun r hr => h r ?_) ⟨e, he, hpe⟩, hfirst b (right_mem_segment ℝ a b)]
        obtain ⟨e', he', hr⟩ := hr
        exact ⟨e', List.mem_cons_of_mem _ he', hr⟩

theorem parity_boundary (h : ∀ p ∈ boundary (outline (a :: l)), p ∉ boundary (outline m))
    (hp : p ∈ boundary (outline (a :: l))) : parity (outline m) p = parity (outline m) a :=
  parity_walk h hp

/-- A polygon with a point of odd parity has an edge to its right. -/
theorem exists_boundary_of_parity (h : parity edges p = true) : ∃ q, q ∈ boundary edges := by
  obtain ⟨e, he, -, q, hq, -⟩ := exists_crosses_of_parity h
  exact ⟨q, e, he, hq⟩

/-- A region reaches no further to the right than its vertices. -/
theorem fst_le_of_mem_region {x : ℝ} (h : ∀ v ∈ l, v.1 ≤ x) (hp : p ∈ region l) : p.1 ≤ x := by
  have hedge : ∀ q ∈ boundary (outline l), q.1 ≤ x := by
    intro q hq
    obtain ⟨e, he, hq⟩ := hq
    obtain ⟨h1, h2⟩ := mem_of_mem_outline he
    obtain ⟨t, h0, h1', rfl⟩ := mem_segment_iff.mp hq
    have ha := h e.1 h1
    have hb := h e.2 h2
    simp only [between]
    nlinarith
  rcases region_eq.mp hp with hon | hodd
  · exact hedge p hon
  · obtain ⟨e, he, -, q, hq, -, hlt⟩ := exists_crosses_of_parity hodd
    exact hlt.le.trans (hedge q ⟨e, he, hq⟩)

/-- From a point inside both, the first edge to be met is an edge of the polygon that lies in the
other one. -/
theorem vertex_inside_of_share
    (h : ∀ p ∈ boundary (outline (a :: l)), p ∉ boundary (outline (b :: m)))
    (hl : parity (outline (a :: l)) p = true) (hm : parity (outline (b :: m)) p = true) :
    parity (outline (b :: m)) a = true ∨ parity (outline (a :: l)) b = true := by
  have hclosed : IsClosed (boundary (outline (a :: l)) ∪ boundary (outline (b :: m))) :=
    (isClosed_boundary _).union (isClosed_boundary _)
  obtain ⟨q, hq⟩ := exists_boundary_of_parity hl
  obtain ⟨r, -, hr, hfirst⟩ := exists_first_hit hclosed p (Or.inl hq)
  rcases hr with hr | hr
  · left
    have hway : parity (outline (b :: m)) p = parity (outline (b :: m)) r := by
      refine parity_eq_of_segment fun r' hr' hb => ?_
      rw [hfirst r' hr' (Or.inr hb)] at hb
      exact h r hr hb
    rw [← parity_boundary h hr, ← hway, hm]
  · right
    have hway : parity (outline (a :: l)) p = parity (outline (a :: l)) r := by
      refine parity_eq_of_segment fun r' hr' ha => ?_
      rw [hfirst r' hr' (Or.inl ha)] at ha
      exact h r ha hr
    rw [← parity_boundary (fun s hs ha => h s ha hs) hr, ← hway, hl]

/-- A way from a region to a point out of it meets the edges. -/
theorem exists_boundary_between (hp : p ∈ region l) (hq : q ∉ region l) :
    ∃ r ∈ segment ℝ p q, r ∈ boundary (outline l) := by
  by_contra hnone
  push Not at hnone
  have hpar := parity_eq_of_segment hnone
  rcases region_eq.mp hp with hon | hodd
  · exact hnone p (left_mem_segment ℝ p q) hon
  · exact hq (region_eq.mpr (Or.inr (hpar ▸ hodd)))

/-- The edges come at least as close as a point out of the region does to its points. -/
theorem exists_boundary_nearer (hp : p ∈ region l) (hq : q ∉ region l ∨ q ∈ boundary (outline l)) :
    ∃ r ∈ boundary (outline l), euclid r q ≤ euclid p q := by
  rcases hq with hq | hq
  · obtain ⟨r, hr, hon⟩ := exists_boundary_between hp hq
    exact ⟨r, hon, euclid_le_of_mem_segment hr⟩
  · refine ⟨q, hq, ?_⟩
    rw [euclid_self]
    exact euclid_nonneg p q

theorem exists_boundaries_nearer (ha : parity (outline (b :: m)) a = false)
    (hb : parity (outline (a :: l)) b = false) (hp : p ∈ region (a :: l))
    (hq : q ∈ region (b :: m)) : ∃ p' ∈ boundary (outline (a :: l)),
      ∃ q' ∈ boundary (outline (b :: m)), euclid p' q' ≤ euclid p q := by
  by_cases hmeet : ∃ r ∈ boundary (outline (a :: l)), r ∈ boundary (outline (b :: m))
  · obtain ⟨r, hrl, hrm⟩ := hmeet
    refine ⟨r, hrl, r, hrm, ?_⟩
    rw [euclid_self]
    exact euclid_nonneg p q
  · push Not at hmeet
    have hmeet' : ∀ r ∈ boundary (outline (b :: m)), r ∉ boundary (outline (a :: l)) :=
      fun r hm hl => hmeet r hl hm
    -- no point is in both regions
    have hapart : ∀ r ∈ region (b :: m), r ∉ region (a :: l) := by
      intro r hm hl
      rcases region_eq.mp hl with hl | hl
      · rcases region_eq.mp hm with hm | hm
        · exact hmeet r hl hm
        · rw [parity_boundary hmeet hl, ha] at hm
          exact absurd hm Bool.false_ne_true
      · rcases region_eq.mp hm with hm | hm
        · rw [parity_boundary hmeet' hm, hb] at hl
          exact absurd hl Bool.false_ne_true
        · rcases vertex_inside_of_share hmeet hl hm with h | h
          · exact absurd (ha.symm.trans h) Bool.false_ne_true
          · exact absurd (hb.symm.trans h) Bool.false_ne_true
    obtain ⟨p', hp', hle⟩ := exists_boundary_nearer hp (Or.inl (hapart q hq))
    have hout : p' ∉ region (b :: m) := fun h => hapart p' h (mem_region_of_boundary hp')
    obtain ⟨q', hq', hle'⟩ := exists_boundary_nearer hq (Or.inl hout)
    refine ⟨p', hp', q', hq', ?_⟩
    calc euclid p' q' = euclid q' p' := euclid_comm p' q'
      _ ≤ euclid q p' := hle'
      _ = euclid p' q := euclid_comm q p'
      _ ≤ euclid p q := hle

end Apart

end MgRobot.Lib.EvenOdd

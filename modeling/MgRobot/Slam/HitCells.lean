import MgRobot.Slam.RenderedCounts

/-!
# The cells of the hits

A beam end is counted in the cell it lies in, unless it lies left of or below the map by
less than one cell: rounding towards zero takes these to column and row `0`.
-/

namespace MgRobot.Slam

set_option autoImplicit false

variable {R : Type*} [Field R] [LinearOrder R] [FloorRing R]

namespace MapFrame

variable (f : MapFrame R)

/-- The point lies in the cell of the pixel. -/
def InCell (p : Pixel) (w : R × R) : Prop :=
  f.originX + p.1 * f.resolution ≤ w.1 ∧ w.1 < f.originX + (p.1 + 1) * f.resolution ∧
    f.originY + p.2 * f.resolution ≤ w.2 ∧ w.2 < f.originY + (p.2 + 1) * f.resolution

instance (p : Pixel) (w : R × R) : Decidable (f.InCell p w) :=
  inferInstanceAs (Decidable (_ ∧ _))

/-- The point lies in the map or in the column left of it or the row below it. -/
def Reaches (w : R × R) : Prop :=
  (0 < f.width ∧ 0 < f.height) ∧
    (f.originX - f.resolution < w.1 ∧ w.1 < f.originX + f.width * f.resolution) ∧
    f.originY - f.resolution < w.2 ∧ w.2 < f.originY + f.height * f.resolution

instance (w : R × R) : Decidable (f.Reaches w) := inferInstanceAs (Decidable (_ ∧ _))

variable [IsStrictOrderedRing R] {f} {w : R × R}

/-- One coordinate of a point. -/
theorem coordinate_inBounds_iff {o res x : R} {k : Int} (hres : 0 < res) :
    0 ≤ truncToInt ((x - o) / res) ∧ truncToInt ((x - o) / res) < k ↔
      0 < k ∧ o - res < x ∧ x < o + k * res := by
  have hlow : -1 < (x - o) / res ↔ o - res < x := by
    rw [lt_div_iff₀ hres]
    constructor <;> intro h <;> linarith
  have hhigh : (x - o) / res < k ↔ x < o + k * res := by
    rw [div_lt_iff₀ hres]
    constructor <;> intro h <;> linarith
  rw [truncToInt_nonneg_iff, hlow]
  constructor
  · rintro ⟨h, hk⟩
    have hpos : 0 < k := lt_of_le_of_lt (truncToInt_nonneg_iff.mpr (hlow.mpr h)) hk
    exact ⟨hpos, h, hhigh.mp ((truncToInt_lt_iff hpos).mp hk)⟩
  · rintro ⟨hpos, h, hk⟩
    exact ⟨h, (truncToInt_lt_iff hpos).mpr (hhigh.mpr hk)⟩

/-- The points that the bounds test lets through. -/
theorem inBounds_worldToPixel_iff (hres : 0 < f.resolution) :
    f.inBounds (f.worldToPixel w) ↔ f.Reaches w := by
  have hx := coordinate_inBounds_iff (o := f.originX) (x := w.1) (k := f.width) hres
  have hy := coordinate_inBounds_iff (o := f.originY) (x := w.2) (k := f.height) hres
  unfold inBounds Reaches worldToPixel
  dsimp only
  constructor
  · rintro ⟨h1, h2, h3, h4⟩
    obtain ⟨hw, hxs⟩ := hx.mp ⟨h1, h2⟩
    obtain ⟨hh, hys⟩ := hy.mp ⟨h3, h4⟩
    exact ⟨⟨hw, hh⟩, hxs, hys⟩
  · rintro ⟨⟨hw, hh⟩, hxs, hys⟩
    obtain ⟨h1, h2⟩ := hx.mpr ⟨hw, hxs⟩
    obtain ⟨h3, h4⟩ := hy.mpr ⟨hh, hys⟩
    exact ⟨h1, h2, h3, h4⟩

/-- A point that is not left of or below the origin has the pixel of its cell. -/
theorem coordinate_cell_iff {o res x : R} {k : Int} (hres : 0 < res) (hx : o ≤ x) :
    truncToInt ((x - o) / res) = k ↔ o + k * res ≤ x ∧ x < o + (k + 1) * res := by
  rw [truncToInt_of_nonneg (div_nonneg (sub_nonneg.mpr hx) hres.le), Int.floor_eq_iff,
    le_div_iff₀ hres, div_lt_iff₀ hres]
  constructor <;> rintro ⟨h1, h2⟩ <;> constructor <;> linarith

theorem worldToPixel_eq_iff (hres : 0 < f.resolution) {p : Pixel} (hx : f.originX ≤ w.1)
    (hy : f.originY ≤ w.2) : f.worldToPixel w = p ↔ f.InCell p w := by
  rw [Prod.ext_iff]
  exact (and_congr (coordinate_cell_iff hres hx) (coordinate_cell_iff hres hy)).trans and_assoc

theorem InCell.origin_le (hres : 0 < f.resolution) {p : Pixel} (hp : f.inBounds p)
    (h : f.InCell p w) : f.originX ≤ w.1 ∧ f.originY ≤ w.2 := by
  have hx : (0 : R) ≤ p.1 * f.resolution := mul_nonneg (Int.cast_nonneg hp.1) hres.le
  have hy : (0 : R) ≤ p.2 * f.resolution := mul_nonneg (Int.cast_nonneg hp.2.2.1) hres.le
  obtain ⟨h1, _, h3, _⟩ := h
  constructor <;> linarith

/-- A point in a cell of the map has the pixel of the cell. -/
theorem InCell.worldToPixel_eq (hres : 0 < f.resolution) {p : Pixel} (hp : f.inBounds p)
    (h : f.InCell p w) : f.worldToPixel w = p := by
  obtain ⟨hx, hy⟩ := h.origin_le hres hp
  exact (worldToPixel_eq_iff hres hx hy).mpr h

end MapFrame

/-- Adding one for each pixel counts it. -/
theorem Counts.apply_ones (c : Counts) (l : List Pixel) (q : Pixel) :
    c.apply (l.map fun p => (p, 1)) q = c q + l.count q := by
  induction l generalizing c with
  | nil => exact (add_zero _).symm
  | cons p rest ih =>
      show Counts.apply (Function.update c p (c p + 1)) (rest.map fun p => (p, 1)) q = _
      rw [ih]
      by_cases hp : p = q
      · subst hp
        rw [Function.update_self, List.count_cons_self]
        omega
      · rw [Function.update_of_ne (Ne.symm hp), List.count_cons_of_ne hp]

/-- What counts at least as often as something rarer is the same. -/
theorem forall_of_countP_le {α : Type*} {P Q : α → Bool} {l : List α}
    (hPQ : ∀ x, P x = true → Q x = true) (h : l.countP Q ≤ l.countP P) :
    ∀ x ∈ l, Q x = true → P x = true := by
  have heq : l.filter P = l.filter Q := by
    refine (List.monotone_filter_right l hPQ).eq_of_length_le ?_
    rwa [← List.countP_eq_length_filter, ← List.countP_eq_length_filter]
  intro x hx hq
  have hmem : x ∈ l.filter P := heq ▸ List.mem_filter.mpr ⟨hx, hq⟩
  exact (List.mem_filter.mp hmem).2

section Scan

variable (cfg : CountingConfig R) (m : Numerics R) (draw : Drawing) (f : MapFrame R)
variable (x y yaw : R) (scan : BeamScan R)

/-- A node that is drawn by its scan. -/
def scanNode : MapNode R := ⟨x, y, yaw, some scan, none⟩

/-- Where the sensor stands. -/
def sensorEnd : R × R := (scanNode x y yaw scan).toWorld m scan.lidarX scan.lidarY

/-- The hits that a scan adds to a cell are the beam ends with this pixel. -/
theorem hitCounts_scanNode (p : Pixel) :
    hitCounts cfg m draw f (scanNode x y yaw scan) p =
      if f.inBounds (f.worldToPixel (sensorEnd m x y yaw scan)) ∧ f.inBounds p then
        ((beamEnds m (scanNode x y yaw scan) scan).countP fun w => f.worldToPixel w = p : Int)
      else 0 := by
  have hhits : ((scanHitsToPixels m f (scanNode x y yaw scan)).hits.count p : Int) =
      if f.inBounds p then
        ((beamEnds m (scanNode x y yaw scan) scan).countP fun w => f.worldToPixel w = p : Int)
      else 0 := by
    show ((((beamEnds m (scanNode x y yaw scan) scan).map f.worldToPixel).filter
      fun p => f.inBounds p).count p : Int) = _
    by_cases hp : f.inBounds p
    · have hcount := List.count_filter (p := fun p => decide (f.inBounds p)) (a := p)
        (l := (beamEnds m (scanNode x y yaw scan) scan).map f.worldToPixel) (decide_eq_true hp)
      rw [if_pos hp, hcount, List.count_eq_countP, List.countP_map]
      refine congrArg Nat.cast (List.countP_congr fun w _ => ?_)
      simp
    · rw [if_neg hp, List.count_eq_zero.mpr, Nat.cast_zero]
      exact fun hmem => hp (of_decide_eq_true (List.mem_filter.mp hmem).2)
  have hwrites : nodeWrites cfg m draw f (scanNode x y yaw scan) =
      if ¬ f.inBounds (f.worldToPixel (sensorEnd m x y yaw scan)) then ⟨[], [], false⟩
      else if (scanHitsToPixels m f (scanNode x y yaw scan)).hits.isEmpty then ⟨[], [], true⟩
      else
        ⟨(scanHitsToPixels m f (scanNode x y yaw scan)).hits.map fun p => (p, 1),
          (missPixels cfg m draw (scanHitsToPixels m f (scanNode x y yaw scan))).map
            fun p => (p, 1), true⟩ := rfl
  unfold hitCounts
  rw [hwrites]
  by_cases hr : f.inBounds (f.worldToPixel (sensorEnd m x y yaw scan))
  · rw [if_neg (not_not.mpr hr)]
    simp only [hr, true_and]
    rw [← hhits]
    split
    · rename_i hempty
      rw [List.isEmpty_iff.mp hempty]
      rfl
    · rw [Counts.apply_ones]
      exact zero_add _
  · rw [if_pos hr, if_neg fun h => hr h.1]
    rfl

variable [IsStrictOrderedRing R]

/-- Every hit is counted in the cell its beam ends in, if and only if the sensor is outside the
map or no beam ends in the column left of the map or in the row below it. -/
theorem hits_in_cells_iff (hres : 0 < f.resolution) :
    (∀ p, hitCounts cfg m draw f (scanNode x y yaw scan) p ≤
        ((beamEnds m (scanNode x y yaw scan) scan).countP fun w => f.InCell p w : Int)) ↔
      (f.Reaches (sensorEnd m x y yaw scan) → ∀ w ∈ beamEnds m (scanNode x y yaw scan) scan,
        f.Reaches w → f.originX ≤ w.1 ∧ f.originY ≤ w.2) := by
  rw [← MapFrame.inBounds_worldToPixel_iff hres]
  constructor
  · intro h hr w hw hin
    have hp : f.inBounds (f.worldToPixel w) := (MapFrame.inBounds_worldToPixel_iff hres).mpr hin
    have hcount := h (f.worldToPixel w)
    rw [hitCounts_scanNode, if_pos ⟨hr, hp⟩, Int.ofNat_le] at hcount
    have hcell : decide (f.InCell (f.worldToPixel w) w) = true := by
      refine forall_of_countP_le ?_ hcount w hw (decide_eq_true rfl)
      intro v hv
      exact decide_eq_true ((of_decide_eq_true hv : f.InCell _ v).worldToPixel_eq hres hp)
    exact (of_decide_eq_true hcell : f.InCell _ w).origin_le hres hp
  · intro h p
    rw [hitCounts_scanNode]
    split
    · rename_i hin
      rw [Int.ofNat_le]
      refine List.countP_mono_left fun w hw hp => decide_eq_true ?_
      have hpix : f.worldToPixel w = p := of_decide_eq_true hp
      have hreach : f.Reaches w := (MapFrame.inBounds_worldToPixel_iff hres).mp (hpix ▸ hin.2)
      obtain ⟨hx, hy⟩ := h hin.1 w hw hreach
      exact (MapFrame.worldToPixel_eq_iff hres hx hy).mp hpix
    · exact Int.natCast_nonneg _

end Scan

section OneBeam

/-- Headings `0` and one other, which is the opposite one. -/
def Numerics.backAndForth : Numerics ℚ :=
  { Numerics.axis with cos := fun a => if a = 0 then 1 else -1 }

/-- Ten by ten cells of one metre, with the origin in a corner. -/
def tenByTen : MapFrame ℚ := ⟨0, 0, 1, 10, 10⟩

/-- One beam of one metre, ahead at angle `0` and back at angle `1`. -/
def oneBeam (angle : ℚ) : BeamScan ℚ := ⟨[1], angle, 0, 0, 30, 0, 0, []⟩

theorem hits_in_cells_ahead :
    0 < tenByTen.resolution ∧ ∀ p, hitCounts metreCells .backAndForth blankDrawing tenByTen
        (scanNode (1 / 2) (1 / 2) 0 (oneBeam 0)) p ≤
      ((beamEnds .backAndForth (scanNode (1 / 2) (1 / 2) 0 (oneBeam 0)) (oneBeam 0)).countP
        fun w => tenByTen.InCell p w : Int) :=
  ⟨by decide +kernel, (hits_in_cells_iff metreCells .backAndForth blankDrawing tenByTen (1 / 2)
    (1 / 2) 0 (oneBeam 0) (by decide +kernel)).mpr (by decide +kernel)⟩

/-- A beam that ends half a metre left of the map is counted in column `0`. -/
theorem hit_left_of_map_counted :
    beamEnds .backAndForth (scanNode (1 / 2) (1 / 2) 0 (oneBeam 1)) (oneBeam 1) =
        [(-1 / 2, 1 / 2)] ∧
      ¬ ∀ p, hitCounts metreCells .backAndForth blankDrawing tenByTen
          (scanNode (1 / 2) (1 / 2) 0 (oneBeam 1)) p ≤
        ((beamEnds .backAndForth (scanNode (1 / 2) (1 / 2) 0 (oneBeam 1)) (oneBeam 1)).countP
          fun w => tenByTen.InCell p w : Int) :=
  ⟨by decide +kernel, fun h => absurd (h (0, 0)) (by decide +kernel)⟩

end OneBeam

end MgRobot.Slam

import MgRobot.Lib.FloorMultiples
import MgRobot.Slam.RenderedCounts

/-!
# Occupied cells

When one more hit keeps a cell occupied and one more miss does not make it so. The cap on
the misses of a confirmed wall is rounded down, so it can jump above what the hits allow,
and its conversion has a range.
-/

namespace MgRobot.Slam

set_option autoImplicit false

open MgRobot.Lib.FloorMultiples

variable {R : Type*} [Field R] [LinearOrder R] [FloorRing R]

namespace CountingConfig

variable (cfg : CountingConfig R)

/-- The cell with these counts is marked occupied. -/
def Occupied (hits misses : Nat) : Prop := CountingRenderer.occupancy cfg hits misses = some 100

instance (hits misses : Nat) : Decidable (cfg.Occupied hits misses) :=
  inferInstanceAs (Decidable (_ = _))

/-- Every pair of counts has a verdict; one more hit keeps a cell occupied, one more miss does not
make it occupied. -/
def ClosedInCounts : Prop :=
  ∀ hits misses, hits ≤ INT32_MAX → misses ≤ INT32_MAX →
    (CountingRenderer.occupancy cfg hits misses).isSome = true ∧
      (hits < INT32_MAX → cfg.Occupied hits misses → cfg.Occupied (hits + 1) misses) ∧
      (misses < INT32_MAX → cfg.Occupied hits (misses + 1) → cfg.Occupied hits misses)

/-- No weight, threshold or ratio is negative. -/
structure Nonneg : Prop where
  hitWeight : 0 ≤ cfg.hitWeight
  missWeight : 0 ≤ cfg.missWeight
  hitThreshold : 0 ≤ cfg.hitThreshold
  maxMissRatio : 0 ≤ cfg.maxMissRatio

/-- No cap of a confirmed wall leaves the range of the conversion. -/
def CapInRange : Prop :=
  cfg.minHits ≤ INT32_MAX → INT32_MAX * cfg.maxMissRatio < INT32_MAX + 1

/-- The least number of hits of an occupied cell. -/
def leastHits : Nat := max 1 cfg.minHits.toNat

/-- The cap alone keeps a wall of `h` hits occupied, whatever its misses. -/
def KeptByCap (h : Nat) : Prop :=
  Below (cfg.hitWeight * (1 - cfg.hitThreshold)) (cfg.hitThreshold * cfg.missWeight)
    cfg.maxMissRatio h

/-- Without a threshold: hits weigh something and a cell without hits has no misses that count; or
hits weigh nothing and no miss counts at all. -/
def NoMissAlone : Prop :=
  0 < cfg.hitWeight ∧ (0 < cfg.minHits ∨ 0 < cfg.maxMissRatio) ∨
    cfg.hitWeight = 0 ∧ (INT32_MAX < cfg.minHits ∨
      0 < cfg.maxMissRatio ∧ INT32_MAX * cfg.maxMissRatio < 1)

/-- The cap keeps every confirmed wall, or none (none below twice the least hits is enough), or
those from some number of hits on, if twice the least hits are too many to be counted. -/
def CapKeepsAllOrNone : Prop :=
  (∀ h, cfg.leastHits ≤ h → h ≤ INT32_MAX → cfg.KeptByCap h) ∨
    (∀ h, cfg.leastHits ≤ h → h ≤ INT32_MAX → h < 2 * cfg.leastHits → ¬ cfg.KeptByCap h) ∨
    INT32_MAX < 2 * cfg.leastHits ∧
      ∃ k, ∀ h, cfg.leastHits ≤ h → h ≤ INT32_MAX → (cfg.KeptByCap h ↔ k ≤ h)

/-- Caps are in range, and misses weigh nothing, or the threshold is zero and no miss makes a wall,
or it is positive and hits weigh nothing or the cap keeps all walls or none. -/
def MonotoneInCounts : Prop :=
  cfg.CapInRange ∧ (cfg.missWeight = 0 ∨ (cfg.hitThreshold = 0 ∧ cfg.NoMissAlone) ∨
    (0 < cfg.hitThreshold ∧ (cfg.hitWeight = 0 ∨ cfg.CapKeepsAllOrNone)))

/-- The misses of a confirmed wall that count, if its cap is in range. -/
def countedMisses (hits misses : Nat) : Int :=
  if 0 < cfg.maxMissRatio then min (misses : Int) ⌊hits * cfg.maxMissRatio⌋ else misses

variable {cfg} [IsStrictOrderedRing R] {hits misses : Nat}

omit [Field R] [LinearOrder R] [FloorRing R] [IsStrictOrderedRing R] in
theorem leastHits_le_iff : cfg.leastHits ≤ hits ↔ 0 < hits ∧ cfg.minHits ≤ hits := by
  unfold leastHits
  omega

omit [FloorRing R] in
theorem CapInRange.mul_lt (hin : cfg.CapInRange) (hr : 0 ≤ cfg.maxMissRatio)
    (hh : hits ≤ INT32_MAX) (hk : cfg.minHits ≤ hits) :
    hits * cfg.maxMissRatio < INT32_MAX + 1 := by
  have hle : (hits : R) * cfg.maxMissRatio ≤ INT32_MAX * cfg.maxMissRatio :=
    mul_le_mul_of_nonneg_right (Nat.cast_le.mpr hh) hr
  exact hle.trans_lt (hin (hk.trans (by exact_mod_cast hh)))

/-- The cap of a wall is a count itself. -/
theorem CapInRange.floor_le (hin : cfg.CapInRange) (hr : 0 ≤ cfg.maxMissRatio)
    (hh : hits ≤ INT32_MAX) (hk : cfg.minHits ≤ hits) :
    ⌊(hits : R) * cfg.maxMissRatio⌋ ≤ INT32_MAX := by
  rw [← Int.lt_add_one_iff, Int.floor_lt, Int.cast_add, Int.cast_natCast, Int.cast_one]
  exact hin.mul_lt hr hh hk

theorem effMisses_of_minHits_le (hr : 0 ≤ cfg.maxMissRatio) (hk : cfg.minHits ≤ hits) :
    CountingRenderer.effMisses cfg hits misses =
      if 0 < cfg.maxMissRatio ∧ ¬ hits * cfg.maxMissRatio < INT32_MAX + 1 then none
      else some (cfg.countedMisses hits misses) := by
  have hnonneg : 0 ≤ (hits : R) * cfg.maxMissRatio := mul_nonneg (Nat.cast_nonneg _) hr
  unfold CountingRenderer.effMisses countedMisses
  rw [Int.cast_natCast, toInt32_of_nonneg hnonneg]
  by_cases hpos : 0 < cfg.maxMissRatio
  · by_cases hlt : (hits : R) * cfg.maxMissRatio < INT32_MAX + 1 <;> simp [hk, hpos, hlt]
  · simp [hpos]

theorem effMisses_eq (hin : cfg.CapInRange) (hr : 0 ≤ cfg.maxMissRatio)
    (hh : hits ≤ INT32_MAX) (hk : cfg.minHits ≤ hits) :
    CountingRenderer.effMisses cfg hits misses = some (cfg.countedMisses hits misses) := by
  rw [effMisses_of_minHits_le hr hk]
  exact if_neg fun h => h.2 (hin.mul_lt hr hh hk)

theorem countedMisses_nonneg (hr : 0 ≤ cfg.maxMissRatio) : 0 ≤ cfg.countedMisses hits misses := by
  have hfloor : 0 ≤ ⌊(hits : R) * cfg.maxMissRatio⌋ :=
    Int.floor_nonneg.mpr (mul_nonneg (Nat.cast_nonneg _) hr)
  unfold countedMisses
  split <;> omega

/-- With caps in range every pair of counts has a verdict. -/
theorem occupancy_isSome (hin : cfg.CapInRange) (hr : 0 ≤ cfg.maxMissRatio)
    (hh : hits ≤ INT32_MAX) : (CountingRenderer.occupancy cfg hits misses).isSome = true := by
  unfold CountingRenderer.occupancy
  split_ifs with hzero
  · rfl
  · rw [Option.isSome_map]
    by_cases hk : cfg.minHits ≤ hits
    · rw [effMisses_eq hin hr hh hk]
      rfl
    · unfold CountingRenderer.effMisses
      rw [if_neg fun h => hk h.1]
      rfl

/-- A verdict on the greatest number of hits needs caps in range. -/
theorem capInRange_of_closed (hr : 0 ≤ cfg.maxMissRatio) (hclosed : cfg.ClosedInCounts) :
    cfg.CapInRange := by
  intro hk
  by_contra hlt
  have hsome := (hclosed INT32_MAX 0 le_rfl (Nat.zero_le _)).1
  have hpos : 0 < cfg.maxMissRatio := by
    refine hr.lt_of_ne fun h => hlt ?_
    rw [← h, mul_zero]
    exact add_pos_of_nonneg_of_pos (Nat.cast_nonneg _) one_pos
  have hzero : ¬ ((INT32_MAX : Int) = 0 ∧ ((0 : Nat) : Int) = 0) := by decide
  unfold CountingRenderer.occupancy at hsome
  rw [if_neg hzero, effMisses_of_minHits_le hr hk, if_pos ⟨hpos, hlt⟩] at hsome
  exact nomatch hsome

/-- The decision without the division. -/
theorem occupied_iff (hin : cfg.CapInRange) (hr : 0 ≤ cfg.maxMissRatio) (hh : hits ≤ INT32_MAX) :
    cfg.Occupied hits misses ↔
      ¬ (hits = 0 ∧ misses = 0) ∧ cfg.minHits ≤ hits ∧
        0 < hits * cfg.hitWeight + cfg.countedMisses hits misses * cfg.missWeight ∧
        cfg.hitThreshold *
            (hits * cfg.hitWeight + cfg.countedMisses hits misses * cfg.missWeight) ≤
          hits * cfg.hitWeight := by
  unfold Occupied CountingRenderer.occupancy
  simp only [Int.cast_natCast, Int.natCast_eq_zero]
  by_cases hzero : hits = 0 ∧ misses = 0
  · rw [if_pos hzero]
    simp [hzero]
  · rw [if_neg hzero]
    by_cases hk : cfg.minHits ≤ hits
    · rw [effMisses_eq hin hr hh hk, Option.map_some, Option.some.injEq]
      generalize (cfg.countedMisses hits misses : R) * cfg.missWeight = e
      by_cases htotal : hits * cfg.hitWeight + e ≤ 0
      · rw [if_pos htotal]
        exact iff_of_false (by decide) fun h => absurd h.2.2.1 (not_lt.mpr htotal)
      · have hratio := le_div_iff₀ (a := cfg.hitThreshold) (b := hits * cfg.hitWeight)
          (not_le.mp htotal)
        rw [if_neg htotal]
        simp only [hratio]
        by_cases hocc : cfg.minHits ≤ hits ∧
            cfg.hitThreshold * (hits * cfg.hitWeight + e) ≤ hits * cfg.hitWeight
        · rw [if_pos hocc]
          exact iff_of_true rfl ⟨hzero, hocc.1, not_le.mp htotal, hocc.2⟩
        · rw [if_neg hocc]
          exact iff_of_false (by decide) fun h => hocc ⟨h.2.1, h.2.2.2⟩
    · refine iff_of_false (fun h => ?_) fun h => hk h.2.1
      obtain ⟨e, _, he⟩ := Option.map_eq_some_iff.mp h
      simp only [hk, false_and, if_false] at he
      split at he <;> exact absurd he (by decide)

section MissesWeighNothing

/-- Without a weight the misses do not count. -/
theorem occupied_iff_of_missWeight (hin : cfg.CapInRange) (hr : 0 ≤ cfg.maxMissRatio)
    (hh : hits ≤ INT32_MAX) (hv : cfg.missWeight = 0) :
    cfg.Occupied hits misses ↔
      cfg.leastHits ≤ hits ∧ 0 < cfg.hitWeight ∧ cfg.hitThreshold ≤ 1 := by
  rw [occupied_iff hin hr hh, hv, mul_zero, add_zero, leastHits_le_iff]
  constructor
  · rintro ⟨_, hk, htotal, hle⟩
    have hpos : 0 < hits := by
      refine Nat.pos_of_ne_zero fun h => ?_
      rw [h, Nat.cast_zero, zero_mul] at htotal
      exact lt_irrefl _ htotal
    refine ⟨⟨hpos, hk⟩, ?_, ?_⟩
    · exact (pos_iff_pos_of_mul_pos htotal).mp (Nat.cast_pos.mpr hpos)
    · exact (mul_le_iff_le_one_left htotal).mp hle
  · rintro ⟨⟨hpos, hk⟩, hwpos, ht⟩
    have htotal : 0 < (hits : R) * cfg.hitWeight := mul_pos (Nat.cast_pos.mpr hpos) hwpos
    exact ⟨fun h => absurd h.1 hpos.ne', hk, htotal, mul_le_of_le_one_left htotal.le ht⟩

theorem closed_of_missWeight (hin : cfg.CapInRange) (hr : 0 ≤ cfg.maxMissRatio)
    (hv : cfg.missWeight = 0) : cfg.ClosedInCounts := by
  intro h m hh _
  refine ⟨occupancy_isSome hin hr hh, fun hlt => ?_, fun _ => ?_⟩
  · rw [occupied_iff_of_missWeight hin hr hh hv, occupied_iff_of_missWeight hin hr hlt hv]
    exact fun hocc => ⟨Nat.le_succ_of_le hocc.1, hocc.2⟩
  · rw [occupied_iff_of_missWeight hin hr hh hv, occupied_iff_of_missWeight hin hr hh hv]
    exact id

end MissesWeighNothing

section NoThreshold

theorem occupied_iff_of_hitThreshold (hin : cfg.CapInRange) (hc : cfg.Nonneg)
    (hh : hits ≤ INT32_MAX) (ht : cfg.hitThreshold = 0) :
    cfg.Occupied hits misses ↔ ¬ (hits = 0 ∧ misses = 0) ∧ cfg.minHits ≤ hits ∧
      0 < hits * cfg.hitWeight + cfg.countedMisses hits misses * cfg.missWeight := by
  rw [occupied_iff hin hc.maxMissRatio hh, ht, zero_mul]
  have hle : 0 ≤ hits * cfg.hitWeight := mul_nonneg (Nat.cast_nonneg _) hc.hitWeight
  exact ⟨fun h => ⟨h.1, h.2.1, h.2.2.1⟩, fun h => ⟨h.1, h.2.1, h.2.2, hle⟩⟩

/-- Without misses that count, a cell needs a hit that weighs something. -/
theorem not_occupied_of_countedMisses (hin : cfg.CapInRange) (hr : 0 ≤ cfg.maxMissRatio)
    (hh : hits ≤ INT32_MAX) (hweight : (hits : R) * cfg.hitWeight = 0)
    (he : cfg.countedMisses hits misses = 0) : ¬ cfg.Occupied hits misses := by
  rw [occupied_iff hin hr hh, hweight, he, Int.cast_zero, zero_mul, add_zero]
  exact fun h => lt_irrefl _ h.2.2.1

theorem countedMisses_zero (hr : 0 ≤ cfg.maxMissRatio) : cfg.countedMisses hits 0 = 0 := by
  have hfloor : 0 ≤ ⌊(hits : R) * cfg.maxMissRatio⌋ :=
    Int.floor_nonneg.mpr (mul_nonneg (Nat.cast_nonneg _) hr)
  unfold countedMisses
  split <;> omega

/-- Hits and a miss that count for nothing but the miss make a wall, and without the miss there
is none. -/
theorem not_closed_of_countedMisses (hin : cfg.CapInRange) (hc : cfg.Nonneg)
    (hv : 0 < cfg.missWeight) (ht : cfg.hitThreshold = 0) (hh : hits ≤ INT32_MAX)
    (hk : cfg.minHits ≤ hits) (hweight : (hits : R) * cfg.hitWeight = 0)
    (hone : cfg.countedMisses hits 1 = 1) : ¬ cfg.ClosedInCounts := by
  intro hclosed
  have hocc : cfg.Occupied hits 1 := by
    rw [occupied_iff_of_hitThreshold hin hc hh ht, hweight, hone, Int.cast_one, one_mul, zero_add]
    exact ⟨fun h => absurd h.2 one_ne_zero, hk, hv⟩
  exact not_occupied_of_countedMisses hin hc.maxMissRatio hh hweight
    (countedMisses_zero hc.maxMissRatio) ((hclosed hits 0 hh (Nat.zero_le _)).2.2 (by decide) hocc)

/-- A cell without hits is not occupied, and misses do not matter. -/
theorem occupied_iff_leastHits (hin : cfg.CapInRange) (hc : cfg.Nonneg) (ht : cfg.hitThreshold = 0)
    (hw : 0 < cfg.hitWeight) (hor : 0 < cfg.minHits ∨ 0 < cfg.maxMissRatio)
    (hh : hits ≤ INT32_MAX) : cfg.Occupied hits misses ↔ cfg.leastHits ≤ hits := by
  rw [leastHits_le_iff]
  constructor
  · intro ho
    have hk : cfg.minHits ≤ hits := ((occupied_iff hin hc.maxMissRatio hh).mp ho).2.1
    refine ⟨Nat.pos_of_ne_zero fun h0 => ?_, hk⟩
    subst h0
    have hr : 0 < cfg.maxMissRatio := hor.resolve_left (by simpa using hk)
    refine not_occupied_of_countedMisses hin hr.le hh (by rw [Nat.cast_zero, zero_mul]) ?_ ho
    unfold countedMisses
    rw [if_pos hr, Nat.cast_zero, zero_mul, Int.floor_zero]
    omega
  · rintro ⟨hpos, hk⟩
    rw [occupied_iff_of_hitThreshold hin hc hh ht]
    refine ⟨fun h0 => absurd h0.1 hpos.ne', hk, ?_⟩
    have he : (0 : R) ≤ cfg.countedMisses hits misses :=
      Int.cast_nonneg (countedMisses_nonneg hc.maxMissRatio)
    exact add_pos_of_pos_of_nonneg (mul_pos (Nat.cast_pos.mpr hpos) hw)
      (mul_nonneg he hc.missWeight)

/-- If neither hits nor misses ever count, there is no wall. -/
theorem not_occupied_of_hitWeight (hin : cfg.CapInRange) (hc : cfg.Nonneg)
    (hw : cfg.hitWeight = 0) (hnone : INT32_MAX < cfg.minHits ∨
      0 < cfg.maxMissRatio ∧ INT32_MAX * cfg.maxMissRatio < 1) (hh : hits ≤ INT32_MAX) :
    ¬ cfg.Occupied hits misses := by
  intro hocc
  have hk := ((occupied_iff hin hc.maxMissRatio hh).mp hocc).2.1
  rcases hnone with hmin | ⟨hr, hlt⟩
  · omega
  · refine not_occupied_of_countedMisses hin hr.le hh (by rw [hw, mul_zero]) ?_ hocc
    have hle : (hits : R) * cfg.maxMissRatio ≤ INT32_MAX * cfg.maxMissRatio :=
      mul_le_mul_of_nonneg_right (Nat.cast_le.mpr hh) hr.le
    have hfloor : ⌊(hits : R) * cfg.maxMissRatio⌋ = 0 :=
      Int.floor_eq_zero_iff.mpr ⟨mul_nonneg (Nat.cast_nonneg _) hr.le, hle.trans_lt hlt⟩
    unfold countedMisses
    rw [if_pos hr, hfloor]
    omega

omit [IsStrictOrderedRing R] in
/-- With the greatest number of hits one miss counts, unless the ratio leaves none. -/
theorem countedMisses_one (hr : 0 ≤ cfg.maxMissRatio)
    (hsome : ¬ (0 < cfg.maxMissRatio ∧ INT32_MAX * cfg.maxMissRatio < 1)) :
    cfg.countedMisses INT32_MAX 1 = 1 := by
  unfold countedMisses
  rcases hr.eq_or_lt with hzero | hpos
  · rw [if_neg (by rw [← hzero]; exact lt_irrefl _)]
    rfl
  · have hle : 1 ≤ (INT32_MAX : R) * cfg.maxMissRatio := not_lt.mp fun h => hsome ⟨hpos, h⟩
    have hfloor : 1 ≤ ⌊(INT32_MAX : R) * cfg.maxMissRatio⌋ := by
      rw [Int.le_floor, Int.cast_one]
      exact hle
    rw [if_pos hpos]
    omega

theorem closed_iff_of_hitThreshold (hin : cfg.CapInRange) (hc : cfg.Nonneg)
    (hv : 0 < cfg.missWeight) (ht : cfg.hitThreshold = 0) :
    cfg.ClosedInCounts ↔ cfg.NoMissAlone := by
  unfold NoMissAlone
  rcases hc.hitWeight.eq_or_lt with hw | hw
  · rw [or_iff_right fun h => absurd hw h.1.ne, and_iff_right hw.symm]
    constructor
    · intro hclosed
      by_contra hbad
      obtain ⟨hk, hsome⟩ := not_or.mp hbad
      exact not_closed_of_countedMisses hin hc hv ht le_rfl (not_lt.mp hk)
        (by rw [← hw, mul_zero]) (countedMisses_one hc.maxMissRatio hsome) hclosed
    · intro hnone h m hh _
      refine ⟨occupancy_isSome hin hc.maxMissRatio hh, fun _ ho => ?_, fun _ ho => ?_⟩
      · exact absurd ho (not_occupied_of_hitWeight hin hc hw.symm hnone hh)
      · exact absurd ho (not_occupied_of_hitWeight hin hc hw.symm hnone hh)
  · rw [or_iff_left fun h => absurd h.1 hw.ne', and_iff_right hw]
    constructor
    · intro hclosed
      by_contra hbad
      obtain ⟨hk, hr⟩ := not_or.mp hbad
      have hmin : cfg.minHits ≤ (0 : ℕ) := by simpa using hk
      refine not_closed_of_countedMisses hin hc hv ht (Nat.zero_le _) hmin
        (by rw [Nat.cast_zero, zero_mul]) ?_ hclosed
      unfold countedMisses
      rw [if_neg hr]
      rfl
    · intro hor h m hh _
      refine ⟨occupancy_isSome hin hc.maxMissRatio hh, fun hlt => ?_, fun _ => ?_⟩
      · rw [occupied_iff_leastHits hin hc ht hw hor hh, occupied_iff_leastHits hin hc ht hw hor hlt]
        exact Nat.le_succ_of_le
      · rw [occupied_iff_leastHits hin hc ht hw hor hh, occupied_iff_leastHits hin hc ht hw hor hh]
        exact id

end NoThreshold

section PositiveThreshold

/-- A confirmed wall is occupied as long as its misses, or the cap on them, are below the line. -/
theorem occupied_iff_of_pos (hin : cfg.CapInRange) (hc : cfg.Nonneg) (hh : hits ≤ INT32_MAX)
    (hv : 0 < cfg.missWeight) (ht : 0 < cfg.hitThreshold) (hw : 0 < cfg.hitWeight) :
    cfg.Occupied hits misses ↔ cfg.leastHits ≤ hits ∧
      cfg.hitThreshold * cfg.missWeight * cfg.countedMisses hits misses ≤
        cfg.hitWeight * (1 - cfg.hitThreshold) * hits := by
  have hline : ∀ e : R, cfg.hitThreshold * (hits * cfg.hitWeight + e * cfg.missWeight) ≤
      hits * cfg.hitWeight ↔ cfg.hitThreshold * cfg.missWeight * e ≤
        cfg.hitWeight * (1 - cfg.hitThreshold) * hits := by
    intro e
    constructor <;> intro h <;> linarith
  rw [occupied_iff hin hc.maxMissRatio hh, hline, leastHits_le_iff]
  constructor
  · rintro ⟨hzero, hk, htotal, hle⟩
    refine ⟨⟨Nat.pos_of_ne_zero fun h0 => ?_, hk⟩, hle⟩
    subst h0
    rw [Nat.cast_zero, zero_mul, zero_add] at htotal
    rw [Nat.cast_zero (R := R), mul_zero] at hle
    have hpos := mul_pos ht htotal
    linarith
  · rintro ⟨⟨hpos, hk⟩, hle⟩
    have he : (0 : R) ≤ cfg.countedMisses hits misses :=
      Int.cast_nonneg (countedMisses_nonneg hc.maxMissRatio)
    exact ⟨fun h0 => absurd h0.1 hpos.ne', hk,
      add_pos_of_pos_of_nonneg (mul_pos (Nat.cast_pos.mpr hpos) hw) (mul_nonneg he hv.le), hle⟩

theorem closed_of_hitWeight (hin : cfg.CapInRange) (hr : 0 ≤ cfg.maxMissRatio)
    (ht : 0 < cfg.hitThreshold) (hw : cfg.hitWeight = 0) : cfg.ClosedInCounts := by
  have hnone : ∀ h m : Nat, h ≤ INT32_MAX → ¬ cfg.Occupied h m := by
    intro h m hh ho
    obtain ⟨_, _, htotal, hle⟩ := (occupied_iff hin hr hh).mp ho
    rw [hw, mul_zero, zero_add] at htotal hle
    exact absurd hle (not_le.mpr (mul_pos ht htotal))
  intro h m hh _
  exact ⟨occupancy_isSome hin hr hh, fun _ ho => absurd ho (hnone h m hh),
    fun _ ho => absurd ho (hnone h (m + 1) hh)⟩

/-- One more hit allows the same misses. -/
theorem misses_below_succ (hd : 0 < cfg.hitThreshold * cfg.missWeight)
    (hh : cfg.leastHits ≤ hits)
    (hline : cfg.hitThreshold * cfg.missWeight * misses ≤
      cfg.hitWeight * (1 - cfg.hitThreshold) * hits) :
    cfg.hitThreshold * cfg.missWeight * misses ≤
      cfg.hitWeight * (1 - cfg.hitThreshold) * ((hits + 1 : Nat) : R) := by
  have hpos : 0 < (hits : R) := Nat.cast_pos.mpr (leastHits_le_iff.mp hh).1
  have hnonneg : 0 ≤ cfg.hitWeight * (1 - cfg.hitThreshold) :=
    nonneg_of_mul_nonneg_left ((mul_nonneg hd.le (Nat.cast_nonneg misses)).trans hline) hpos
  exact hline.trans (mul_le_mul_of_nonneg_left (by exact_mod_cast Nat.le_succ hits) hnonneg)

/-- One miss less is allowed as well. -/
theorem misses_below_of_succ (hd : 0 < cfg.hitThreshold * cfg.missWeight)
    (hline : cfg.hitThreshold * cfg.missWeight * ((misses + 1 : Nat) : R) ≤
      cfg.hitWeight * (1 - cfg.hitThreshold) * hits) :
    cfg.hitThreshold * cfg.missWeight * misses ≤
      cfg.hitWeight * (1 - cfg.hitThreshold) * hits :=
  (mul_le_mul_of_nonneg_left (by exact_mod_cast Nat.le_succ misses) hd.le).trans hline

/-- With a cap, a cell is occupied if its misses or the cap are below the line. -/
theorem occupied_iff_of_cap (hin : cfg.CapInRange) (hc : cfg.Nonneg) (hh : hits ≤ INT32_MAX)
    (hv : 0 < cfg.missWeight) (ht : 0 < cfg.hitThreshold) (hw : 0 < cfg.hitWeight)
    (hr : 0 < cfg.maxMissRatio) :
    cfg.Occupied hits misses ↔ cfg.leastHits ≤ hits ∧
      (cfg.hitThreshold * cfg.missWeight * misses ≤
          cfg.hitWeight * (1 - cfg.hitThreshold) * hits ∨ cfg.KeptByCap hits) := by
  rw [occupied_iff_of_pos hin hc hh hv ht hw]
  refine and_congr_right fun _ => ?_
  unfold countedMisses
  rw [if_pos hr, Int.cast_min, mul_min_of_nonneg _ _ (mul_pos ht hv).le, min_le_iff,
    Int.cast_natCast]
  rfl

theorem closed_iff_of_cap (hin : cfg.CapInRange) (hc : cfg.Nonneg) (hv : 0 < cfg.missWeight)
    (ht : 0 < cfg.hitThreshold) (hw : 0 < cfg.hitWeight) (hr : 0 < cfg.maxMissRatio) :
    cfg.ClosedInCounts ↔ ∀ h, cfg.leastHits ≤ h → h < INT32_MAX →
      cfg.KeptByCap h → cfg.KeptByCap (h + 1) := by
  have hd : 0 < cfg.hitThreshold * cfg.missWeight := mul_pos ht hv
  constructor
  · intro hclosed h hh hlt hkept
    -- With the greatest number of misses only the cap can keep the wall.
    have hocc := (occupied_iff_of_cap hin hc hlt hv ht hw hr).mp
      ((hclosed h INT32_MAX hlt.le le_rfl).2.1 hlt
        ((occupied_iff_of_cap hin hc hlt.le hv ht hw hr).mpr ⟨hh, Or.inr hkept⟩))
    rcases hocc.2 with hline | hcap
    · have hk := (leastHits_le_iff.mp hocc.1).2
      have hfloor : ((⌊((h + 1 : Nat) : R) * cfg.maxMissRatio⌋ : Int) : R) ≤ INT32_MAX := by
        exact_mod_cast hin.floor_le hr.le hlt hk
      exact (mul_le_mul_of_nonneg_left hfloor hd.le).trans hline
    · exact hcap
  · intro hkept h m hh _
    refine ⟨occupancy_isSome hin hr.le hh, fun hlt => ?_, fun _ => ?_⟩
    · rw [occupied_iff_of_cap hin hc hh hv ht hw hr, occupied_iff_of_cap hin hc hlt hv ht hw hr]
      rintro ⟨hleast, hline | hcap⟩
      · exact ⟨Nat.le_succ_of_le hleast, Or.inl (misses_below_succ hd hleast hline)⟩
      · exact ⟨Nat.le_succ_of_le hleast, Or.inr (hkept h hleast hlt hcap)⟩
    · rw [occupied_iff_of_cap hin hc hh hv ht hw hr, occupied_iff_of_cap hin hc hh hv ht hw hr]
      rintro ⟨hleast, hline | hcap⟩
      · exact ⟨hleast, Or.inl (misses_below_of_succ hd hline)⟩
      · exact ⟨hleast, Or.inr hcap⟩

/-- Without a cap, more hits always allow the same misses. -/
theorem closed_of_no_cap (hin : cfg.CapInRange) (hc : cfg.Nonneg) (hv : 0 < cfg.missWeight)
    (ht : 0 < cfg.hitThreshold) (hw : 0 < cfg.hitWeight) (hr : cfg.maxMissRatio = 0) :
    cfg.ClosedInCounts := by
  have hd : 0 < cfg.hitThreshold * cfg.missWeight := mul_pos ht hv
  have hocc : ∀ h m : Nat, h ≤ INT32_MAX → (cfg.Occupied h m ↔ cfg.leastHits ≤ h ∧
      cfg.hitThreshold * cfg.missWeight * m ≤
        cfg.hitWeight * (1 - cfg.hitThreshold) * h) := by
    intro h m hh
    rw [occupied_iff_of_pos hin hc hh hv ht hw]
    unfold countedMisses
    rw [if_neg hr.not_gt, Int.cast_natCast]
  intro h m hh _
  refine ⟨occupancy_isSome hin hc.maxMissRatio hh, fun hlt => ?_, fun _ => ?_⟩
  · rw [hocc h m hh, hocc (h + 1) m hlt]
    exact fun ho => ⟨Nat.le_succ_of_le ho.1, misses_below_succ hd ho.1 ho.2⟩
  · rw [hocc h (m + 1) hh, hocc h m hh]
    exact fun ho => ⟨ho.1, misses_below_of_succ hd ho.2⟩

/-- A ratio of zero is a cap that keeps every wall or none. -/
theorem capKeepsAllOrNone_of_no_cap (hr : cfg.maxMissRatio = 0) : cfg.CapKeepsAllOrNone := by
  have hkept : ∀ h, cfg.KeptByCap h ↔ 0 ≤ cfg.hitWeight * (1 - cfg.hitThreshold) * h := by
    intro h
    unfold KeptByCap Below
    rw [hr, mul_zero, Int.floor_zero, Int.cast_zero, mul_zero]
  rcases le_or_gt 0 (cfg.hitWeight * (1 - cfg.hitThreshold)) with hle | hlt
  · exact Or.inl fun h _ _ => (hkept h).mpr (mul_nonneg hle (Nat.cast_nonneg h))
  · refine Or.inr (Or.inl fun h hh _ _ hk => ?_)
    have hpos : 0 < (h : R) := Nat.cast_pos.mpr (leastHits_le_iff.mp hh).1
    exact absurd ((hkept h).mp hk) (not_le.mpr (mul_neg_of_neg_of_pos hlt hpos))

theorem closed_iff_of_pos (hin : cfg.CapInRange) (hc : cfg.Nonneg) (hv : 0 < cfg.missWeight)
    (ht : 0 < cfg.hitThreshold) (hw : 0 < cfg.hitWeight) :
    cfg.ClosedInCounts ↔ cfg.CapKeepsAllOrNone := by
  rcases hc.maxMissRatio.eq_or_lt with hr | hr
  · exact iff_of_true (closed_of_no_cap hin hc hv ht hw hr.symm)
      (capKeepsAllOrNone_of_no_cap hr.symm)
  · have hleast : 0 < cfg.leastHits := (leastHits_le_iff.mp le_rfl).1
    exact (closed_iff_of_cap hin hc hv ht hw hr).trans
      (below_closed_iff (mul_pos ht hv).le hleast)

end PositiveThreshold

/-- One more hit keeps every occupied cell and one more miss makes none, if and only if caps are
in range and the cap on the misses of a confirmed wall keeps all of these walls or none. -/
theorem closed_in_counts_iff (hc : cfg.Nonneg) : cfg.ClosedInCounts ↔ cfg.MonotoneInCounts := by
  unfold MonotoneInCounts
  by_cases hin : cfg.CapInRange
  · rw [and_iff_right hin]
    rcases hc.missWeight.eq_or_lt with hv | hv
    · exact iff_of_true (closed_of_missWeight hin hc.maxMissRatio hv.symm) (Or.inl hv.symm)
    · rw [or_iff_right hv.ne']
      rcases hc.hitThreshold.eq_or_lt with ht | ht
      · rw [closed_iff_of_hitThreshold hin hc hv ht.symm]
        constructor
        · exact fun h => Or.inl ⟨ht.symm, h⟩
        · rintro (h | h)
          · exact h.2
          · exact absurd ht h.1.ne
      · rw [or_iff_right fun h => absurd h.1 ht.ne', and_iff_right ht]
        rcases hc.hitWeight.eq_or_lt with hw | hw
        · exact iff_of_true (closed_of_hitWeight hin hc.maxMissRatio ht hw.symm) (Or.inl hw.symm)
        · rw [or_iff_right hw.ne']
          exact closed_iff_of_pos hin hc hv ht hw
  · exact iff_of_false (fun h => hin (capInRange_of_closed hc.maxMissRatio h)) fun h => hin h.1

end CountingConfig

section Caps

open CountingConfig

/-- At a threshold of a half, a cap of all hits keeps every wall. -/
def fullCap : CountingConfig ℚ := ⟨1, 1, 1 / 2, 3, 1, 1, 0, 1⟩

theorem closed_in_counts_fullCap : fullCap.Nonneg ∧ fullCap.ClosedInCounts := by
  have hc : fullCap.Nonneg :=
    ⟨by decide +kernel, by decide +kernel, by decide +kernel, by decide +kernel⟩
  have hin : fullCap.CapInRange := fun _ => by decide +kernel
  have hkeeps : fullCap.CapKeepsAllOrNone :=
    Or.inl fun h _ _ => below_of_le (by decide +kernel) (by decide +kernel) h
  exact ⟨hc, (closed_in_counts_iff hc).mpr
    ⟨hin, Or.inr (Or.inr ⟨by decide +kernel, Or.inr hkeeps⟩)⟩⟩

/-- A cap of half the hits at a threshold of `0.8`. -/
def halfCap : CountingConfig ℚ := ⟨1, 1, 4 / 5, 1, 1, 1, 0, 1 / 2⟩

/-- A cap that two hits keep in range and three do not. -/
def wideCap : CountingConfig ℚ := ⟨1, 1, 1 / 2, 1, 1, 1, 0, 10 ^ 9⟩

/-- With one hit the cap leaves no miss, with two it leaves one; and a wide cap is not in range
with three hits. -/
theorem second_hit_clears :
    halfCap.Nonneg ∧ (halfCap.Occupied 1 10 ∧ ¬ halfCap.Occupied 2 10) ∧
      ¬ halfCap.ClosedInCounts ∧
    wideCap.Nonneg ∧ (wideCap.Occupied 2 1 ∧ CountingRenderer.occupancy wideCap 3 1 = none) ∧
      ¬ wideCap.ClosedInCounts := by
  have hhalf : halfCap.Occupied 1 10 ∧ ¬ halfCap.Occupied 2 10 := by decide +kernel
  have hwide : wideCap.Occupied 2 1 ∧ CountingRenderer.occupancy wideCap 3 1 = none := by
    decide +kernel
  refine ⟨⟨by decide +kernel, by decide +kernel, by decide +kernel, by decide +kernel⟩, hhalf, ?_,
    ⟨by decide +kernel, by decide +kernel, by decide +kernel, by decide +kernel⟩, hwide, ?_⟩
  · exact fun h => hhalf.2 ((h 1 10 (by decide) (by decide)).2.1 (by decide) hhalf.1)
  · intro h
    have hsome := (h 3 1 (by decide) (by decide)).1
    rw [Nat.cast_ofNat, Nat.cast_one, hwide.2] at hsome
    exact nomatch hsome

end Caps

end MgRobot.Slam

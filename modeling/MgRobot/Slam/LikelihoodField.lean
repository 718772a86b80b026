import Mathlib.Data.Rat.Floor
import Mathlib.Order.Bounds.Basic
import Mathlib.Tactic.FieldSimp
import Mathlib.Tactic.Linarith
import Mathlib.Tactic.Ring
import MgRobot.Slam.CorrelativeSearch

/-!
# The grid is the likelihood field

`LikelihoodGrid::build` draws in bands of rows that the threads share. Each cell is written
by one band only and ends with the greatest score of the points around it, and the window
of cells that is visited for a point leaves none of them out.
-/

namespace MgRobot.Slam

set_option autoImplicit false

open MgRobot.Lib.ParallelFor MgRobot.Lib.Runs

namespace LikelihoodGrid

variable {R : Type*} [Field R] [LinearOrder R] [FloorRing R] (exp : Exponential R)
  (resolution sigma originX originY : R) (width height : Int)

def kBandRows : Int := 32

def numBands : Int := (height + kBandRows - 1) / kBandRows

/-- The cells around a point of the target in the rows of a band. -/
def bandKernel (band : Int) (p : R × R) : List (Int × R) :=
  let inv := 1 / resolution
  let maxEvalDist := 3 * sigma
  let kernelCells := ⌈maxEvalDist * inv⌉
  let gx := truncToInt ((p.1 - originX) * inv)
  let gy := truncToInt ((p.2 - originY) * inv)
  let bandMinGy := band * kBandRows
  let bandMaxGy := min (height - 1) (bandMinGy + kBandRows - 1)
  let minGy := max bandMinGy (gy - kernelCells)
  let maxGy := min bandMaxGy (gy + kernelCells)
  if maxGy < minGy then []
  else (Int.range minGy (maxGy + 1)).flatMap fun (y : Int) =>
    (Int.range (max 0 (gx - kernelCells)) (min (width - 1) (gx + kernelCells) + 1)).filterMap
      fun (x : Int) =>
      let dx := originX + (x + 1 / 2) * resolution - p.1
      let dy := originY + (y + 1 / 2) * resolution - p.2
      let distSq := dx * dx + dy * dy
      if distSq ≤ maxEvalDist * maxEvalDist then
        some (y * width + x, exp.toFun (-distSq / (2 * sigma * sigma)))
      else none

/-- `if (val > cell) { cell = val; }` -/
def toUpdate (w : Int × R) : Int × (R → R) := (w.1, fun cell => if cell < w.2 then w.2 else cell)

/-- The scores that the iteration of one band writes. -/
def bandWrites (pts : List (R × R)) (band : Int) : List (Int × R) :=
  if 0 ≤ band ∧ band < numBands height then
    pts.flatMap (bandKernel exp resolution sigma originX originY width height band)
  else []

/-- What each band does to the cells, which start with zero. -/
def drawBands (pts : List (R × R)) : Shared Int Int R :=
  Shared.start (fun _ => 0) fun band =>
    (bandWrites exp resolution sigma originX originY width height pts band).map toUpdate

/-! ## What is written -/

/-- The score that a point gives to a cell. -/
def cellScore (p : R × R) (x y : Int) : Option R :=
  let dx := originX + (x + 1 / 2) * resolution - p.1
  let dy := originY + (y + 1 / 2) * resolution - p.2
  let distSq := dx * dx + dy * dy
  if distSq ≤ 3 * sigma * (3 * sigma) then some (exp.toFun (-distSq / (2 * sigma * sigma)))
  else none

/-- The rows and columns in the window of a point. -/
structure Window (p : R × R) (x y : Int) : Prop where
  left : truncToInt ((p.1 - originX) * (1 / resolution)) - ⌈3 * sigma * (1 / resolution)⌉ ≤ x
  right : x ≤ truncToInt ((p.1 - originX) * (1 / resolution)) + ⌈3 * sigma * (1 / resolution)⌉
  bottom : truncToInt ((p.2 - originY) * (1 / resolution)) - ⌈3 * sigma * (1 / resolution)⌉ ≤ y
  top : y ≤ truncToInt ((p.2 - originY) * (1 / resolution)) + ⌈3 * sigma * (1 / resolution)⌉

variable {exp resolution sigma originX originY width height}

omit [FloorRing R] in
/-- A row of cells in any range of rows. -/
theorem mem_rows {lo hi left right i : Int} {v : R} {p : R × R} :
    (i, v) ∈ ((Int.range lo hi).flatMap fun (y : Int) =>
      (Int.range left right).filterMap fun (x : Int) =>
        let dx := originX + (x + 1 / 2) * resolution - p.1
        let dy := originY + (y + 1 / 2) * resolution - p.2
        let distSq := dx * dx + dy * dy
        if distSq ≤ 3 * sigma * (3 * sigma) then
          some (y * width + x, exp.toFun (-distSq / (2 * sigma * sigma)))
        else none) ↔
      ∃ x y, (left ≤ x ∧ x < right) ∧ (lo ≤ y ∧ y < hi) ∧ i = y * width + x ∧
        cellScore exp resolution sigma originX originY p x y = some v := by
  simp only [List.mem_flatMap, List.mem_filterMap, Int.mem_range_iff, cellScore,
    Option.ite_none_right_eq_some, Option.some.injEq, Prod.mk.injEq]
  constructor
  · rintro ⟨y, hy, x, hx, hdist, rfl, hv⟩
    exact ⟨x, y, hx, hy, rfl, hdist, hv⟩
  · rintro ⟨x, y, hx, hy, rfl, hdist, hv⟩
    exact ⟨y, hy, x, hx, hdist, rfl, hv⟩

theorem mem_kernel {i : Int} {v : R} {p : R × R} :
    (i, v) ∈ kernel exp resolution sigma originX originY width height p ↔
      ∃ x y, (0 ≤ x ∧ x < width) ∧ (0 ≤ y ∧ y < height) ∧
        Window resolution sigma originX originY p x y ∧ i = y * width + x ∧
        cellScore exp resolution sigma originX originY p x y = some v := by
  rw [kernel]
  refine mem_rows.trans ?_
  constructor
  · rintro ⟨x, y, hx, hy, rest⟩
    refine ⟨x, y, ?_, ?_, ⟨?_, ?_, ?_, ?_⟩, rest⟩ <;> omega
  · rintro ⟨x, y, hx, hy, ⟨hl, hr, hb, ht⟩, rest⟩
    refine ⟨x, y, ?_, ?_, rest⟩ <;> omega

theorem mem_bandKernel {band i : Int} {v : R} {p : R × R} (hband : 0 ≤ band) :
    (i, v) ∈ bandKernel exp resolution sigma originX originY width height band p ↔
      ∃ x y, (0 ≤ x ∧ x < width) ∧ (0 ≤ y ∧ y < height) ∧ y / kBandRows = band ∧
        Window resolution sigma originX originY p x y ∧ i = y * width + x ∧
        cellScore exp resolution sigma originX originY p x y = some v := by
  rw [bandKernel]
  simp only [kBandRows]
  split <;> rename_i hempty
  · refine ⟨fun h => absurd h List.not_mem_nil, ?_⟩
    rintro ⟨x, y, hx, hy, hb, ⟨_, _, hbottom, htop⟩, _⟩
    omega
  · refine mem_rows.trans ?_
    constructor
    · rintro ⟨x, y, hx, hy, rest⟩
      refine ⟨x, y, ?_, ?_, ?_, ⟨?_, ?_, ?_, ?_⟩, rest⟩ <;> omega
    · rintro ⟨x, y, hx, hy, hb, ⟨_, _, _, _⟩, rest⟩
      refine ⟨x, y, ?_, ?_, rest⟩ <;> omega

/-- Each write goes to a cell of the grid, in the rows of its band. -/
theorem bandWrites_owned {pts : List (R × R)} {band : Int} {w : Int × R}
    (hw : w ∈ bandWrites exp resolution sigma originX originY width height pts band) :
    (0 ≤ w.1 ∧ w.1 < width * height) ∧ w.1 / width / kBandRows = band := by
  rw [bandWrites] at hw
  split at hw <;> rename_i hband
  · obtain ⟨p, _, hp⟩ := List.mem_flatMap.mp hw
    obtain ⟨x, y, ⟨hx, hx'⟩, ⟨hy, hy'⟩, hb, _, hi, _⟩ := (mem_bandKernel hband.1).mp hp
    have hrow : w.1 / width = y := by
      rw [hi, Int.add_comm, Int.add_mul_ediv_right _ _ (by omega), Int.ediv_eq_zero_of_lt hx hx',
        Int.zero_add]
    have hlow := mul_nonneg hy (hx.trans hx'.le)
    have hhigh : (y + 1) * width ≤ height * width :=
      mul_le_mul_of_nonneg_right hy' (hx.trans hx'.le)
    refine ⟨⟨by omega, ?_⟩, by rw [hrow, hb]⟩
    rw [hi, mul_comm width]
    linarith
  · exact absurd hw List.not_mem_nil

/-- The bands share out what is written. -/
theorem mem_bandWrites {pts : List (R × R)} {i : Int} {v : R} :
    (i, v) ∈ bandWrites exp resolution sigma originX originY width height pts
        (i / width / kBandRows) ↔
      (i, v) ∈ pts.flatMap (kernel exp resolution sigma originX originY width height) := by
  rw [bandWrites]
  split <;> rename_i hband
  · rw [List.mem_flatMap, List.mem_flatMap]
    refine exists_congr fun p => and_congr_right fun _ => ?_
    rw [mem_bandKernel hband.1, mem_kernel]
    refine exists_congr fun x => exists_congr fun y => and_congr_right fun hx =>
      and_congr_right fun hy => ?_
    constructor
    · exact fun h => h.2
    · rintro ⟨hwindow, hi, hv⟩
      refine ⟨?_, hwindow, hi, hv⟩
      rw [hi, Int.add_comm, Int.add_mul_ediv_right _ _ (by omega),
        Int.ediv_eq_zero_of_lt hx.1 hx.2, Int.zero_add]
  · refine ⟨fun h => absurd h List.not_mem_nil, fun h => ?_⟩
    obtain ⟨p, _, hp⟩ := List.mem_flatMap.mp h
    obtain ⟨x, y, hx, hy, _, hi, _⟩ := mem_kernel.mp hp
    have hrow : i / width = y := by
      rw [hi, Int.add_comm, Int.add_mul_ediv_right _ _ (by omega),
        Int.ediv_eq_zero_of_lt hx.1 hx.2, Int.zero_add]
    rw [hrow, numBands, kBandRows] at hband
    omega

omit [Field R] [FloorRing R] in
/-- A cell ends with the greatest of its value and what is written to it. -/
theorem raise_isGreatest (data : Int → R) (writes : List (Int × R)) (i : Int) :
    IsGreatest (insert (data i) {v | (i, v) ∈ writes}) (raise data writes i) := by
  induction writes generalizing data with
  | nil => exact ⟨Set.mem_insert _ _, fun v hv => (hv.resolve_right List.not_mem_nil).le⟩
  | cons w rest ih =>
      obtain ⟨hmem, hle⟩ := ih (if data w.1 < w.2 then Function.update data w.1 w.2 else data)
      have hcell : (if data w.1 < w.2 then Function.update data w.1 w.2 else data) i =
          if i = w.1 then max (data i) w.2 else data i := by
        by_cases hi : i = w.1
        · subst hi
          rw [if_pos rfl]
          split <;> rename_i h
          · rw [Function.update_self, max_eq_right h.le]
          · rw [max_eq_left (not_lt.mp h)]
        · rw [if_neg hi]
          split
          · rw [Function.update_of_ne hi]
          · rfl
      rw [hcell] at hmem hle
      have hstart : (if i = w.1 then max (data i) w.2 else data i) ≤ raise data (w :: rest) i :=
        hle (Set.mem_insert _ _)
      refine ⟨?_, fun v hv => ?_⟩
      · rcases hmem with heq | hrest
        · rw [raise, List.foldl_cons, ← raise, heq]
          split <;> rename_i hi
          · rcases max_choice (data i) w.2 with hmax | hmax
            · rw [hmax]
              exact Set.mem_insert _ _
            · rw [hmax, hi]
              exact Set.mem_insert_of_mem _ List.mem_cons_self
          · exact Set.mem_insert _ _
        · exact Set.mem_insert_of_mem _ (List.mem_cons_of_mem _ hrest)
      · rcases hv with rfl | hv
        · refine le_trans ?_ hstart
          split
          · exact le_max_left _ _
          · exact le_rfl
        · rcases List.mem_cons.mp hv with rfl | hv
          · rw [if_pos rfl] at hstart
            exact (le_max_right _ _).trans hstart
          · exact hle (Set.mem_insert_of_mem _ hv)

omit [Field R] [FloorRing R] in
theorem raise_eq_updated (data : Int → R) (writes : List (Int × R)) (i : Int) :
    raise data writes i = Shared.updated i (writes.map toUpdate) (data i) := by
  induction writes generalizing data with
  | nil => rfl
  | cons w rest ih =>
      rw [raise, List.foldl_cons, ← raise, ih, List.map_cons, Shared.updated, Shared.updated,
        List.foldl_cons, toUpdate]
      refine congrArg (fun x => List.foldl _ x _) ?_
      by_cases hi : w.1 = i
      · subst hi
        rw [if_pos rfl]
        split <;> rename_i h
        · rw [Function.update_self]
          exact (if_pos h).symm
        · exact (if_neg h).symm
      · rw [if_neg hi]
        split
        · rw [Function.update_of_ne (Ne.symm hi)]
        · rfl

/-- However the bands interleave, the grid is the one that is drawn point by point. -/
theorem drawBands_eq {pts : List (R × R)} {ts : List Int} {s : Shared Int Int R}
    (hr : exec Shared.step (drawBands exp resolution sigma originX originY width height pts) ts =
      some s) (hdone : ∀ band, s.todo band = []) :
    s.mem = raise (fun _ => 0)
      (pts.flatMap (kernel exp resolution sigma originX originY width height)) := by
  funext i
  have hend := Shared.exec_owned (fun i => i / width / kBandRows) ?_ hr hdone i
  · rw [hend, ← raise_eq_updated (fun _ => 0)]
    have hband := raise_isGreatest (fun _ => 0) (bandWrites exp resolution sigma originX originY
      width height pts (i / width / kBandRows)) i
    simp only [mem_bandWrites] at hband
    exact hband.unique (raise_isGreatest (fun _ => 0) _ i)
  · intro band u hu
    obtain ⟨w, hw, rfl⟩ := List.mem_map.mp hu
    exact (bandWrites_owned hw).2

variable [IsStrictOrderedRing R]

/-- A coordinate in the half open cell of another one, up to a distance. -/
theorem window_axis {origin v : R} {k : Int}
    (hres : 0 < resolution) (hsigma : 0 ≤ sigma) (horigin : origin ≤ v)
    (hdist : (origin + (k + 1 / 2) * resolution - v) * (origin + (k + 1 / 2) * resolution - v) ≤
      3 * sigma * (3 * sigma)) :
    truncToInt ((v - origin) * (1 / resolution)) - ⌈3 * sigma * (1 / resolution)⌉ ≤ k ∧
      k ≤ truncToInt ((v - origin) * (1 / resolution)) + ⌈3 * sigma * (1 / resolution)⌉ := by
  have hinv : 0 < 1 / resolution := one_div_pos.mpr hres
  have hu : 0 ≤ (v - origin) * (1 / resolution) := mul_nonneg (sub_nonneg.mpr horigin) hinv.le
  have habs : -(3 * sigma) ≤ origin + (k + 1 / 2) * resolution - v ∧
      origin + (k + 1 / 2) * resolution - v ≤ 3 * sigma := by
    refine abs_le_of_sq_le_sq' ?_ (mul_nonneg zero_le_three hsigma)
    rw [pow_two, pow_two]
    exact hdist
  -- Both bounds in cells, where the centre is half a cell from the edges.
  have hcells : (origin + (k + 1 / 2) * resolution - v) * (1 / resolution) =
      k + 1 / 2 - (v - origin) * (1 / resolution) := by
    field_simp
    ring
  have hlow := mul_le_mul_of_nonneg_right habs.1 hinv.le
  have hhigh := mul_le_mul_of_nonneg_right habs.2 hinv.le
  rw [hcells] at hlow hhigh
  rw [neg_mul] at hlow
  rw [truncToInt_of_nonneg hu]
  have hceil := Int.le_ceil (3 * sigma * (1 / resolution))
  have hfloor := Int.floor_le ((v - origin) * (1 / resolution))
  have hfloor' := Int.lt_floor_add_one ((v - origin) * (1 / resolution))
  generalize (v - origin) * (1 / resolution) = u at *
  generalize 3 * sigma * (1 / resolution) = c at *
  have hleft : ((⌊u⌋ - ⌈c⌉ - 1 : Int) : R) < k := by
    push_cast
    linarith
  have hright : (k : R) < ((⌊u⌋ + ⌈c⌉ + 1 : Int) : R) := by
    push_cast
    linarith
  have hleft := Int.cast_lt.mp hleft
  have hright := Int.cast_lt.mp hright
  omega

omit [Field R] [FloorRing R] [IsStrictOrderedRing R] in
theorem foldl_min_le (l : List R) (a : R) : l.foldl min a ≤ a ∧ ∀ x ∈ l, l.foldl min a ≤ x := by
  induction l generalizing a with
  | nil => exact ⟨le_rfl, fun x hx => absurd hx List.not_mem_nil⟩
  | cons y rest ih =>
      obtain ⟨hle, hall⟩ := ih (min a y)
      refine ⟨hle.trans (min_le_left _ _), fun x hx => ?_⟩
      rcases List.mem_cons.mp hx with rfl | hx
      · exact hle.trans (min_le_right _ _)
      · exact hall x hx

theorem build_origin_le {margin : R} (hmargin : 0 ≤ margin) {pts : List (R × R)} {p : R × R}
    (hp : p ∈ pts) : (build exp resolution sigma margin pts).originX ≤ p.1 ∧
      (build exp resolution sigma margin pts).originY ≤ p.2 := by
  cases pts with
  | nil => exact absurd hp List.not_mem_nil
  | cons q rest =>
      simp only [build]
      have hx := foldl_min_le (rest.map Prod.fst) q.1
      have hy := foldl_min_le (rest.map Prod.snd) q.2
      rcases List.mem_cons.mp hp with rfl | hp
      · exact ⟨by linarith [hx.1], by linarith [hy.1]⟩
      · have hx := hx.2 p.1 (List.mem_map_of_mem hp)
        have hy := hy.2 p.2 (List.mem_map_of_mem hp)
        exact ⟨by linarith, by linarith⟩

variable (exp) in
/-- The grid that the threads draw is the likelihood field of the points: whatever the order of
their reads and writes, the indices stay in the array, and each cell ends with the greatest score of
a point within three sigma of its centre, or with zero. -/
theorem likelihood_field {margin : R} (hres : 0 < resolution) (hsigma : 0 ≤ sigma)
    (hmargin : 0 ≤ margin) (pts : List (R × R)) :
    ∃ g, g = build exp resolution sigma margin pts ∧
      (∀ band, ∀ w ∈ bandWrites exp resolution sigma g.originX g.originY g.width g.height pts band,
        0 ≤ w.1 ∧ w.1 < g.width * g.height) ∧
      (∀ ts s, exec Shared.step
          (drawBands exp resolution sigma g.originX g.originY g.width g.height pts) ts = some s →
        (∀ band, s.todo band = []) → s.mem = g.data) ∧
      ∀ x y, 0 ≤ x → x < g.width → 0 ≤ y → y < g.height →
        IsGreatest (insert 0 {v | ∃ p ∈ pts, cellScore exp resolution sigma g.originX g.originY
          p x y = some v}) (g.data (y * g.width + x)) := by
  have hdata : ∀ g, g = build exp resolution sigma margin pts → g.data = raise (fun _ => 0)
      (pts.flatMap (kernel exp resolution sigma g.originX g.originY g.width g.height)) := by
    rintro g rfl
    cases pts <;> rfl
  have horigin : ∀ g, g = build exp resolution sigma margin pts →
      ∀ p ∈ pts, g.originX ≤ p.1 ∧ g.originY ≤ p.2 := by
    rintro g rfl p hp
    exact build_origin_le hmargin hp
  refine ⟨_, rfl, fun band w hw => (bandWrites_owned hw).1, fun ts s hr hdone => ?_, ?_⟩
  · rw [drawBands_eq hr hdone, hdata _ rfl]
  · have hdata := hdata _ rfl
    have horigin := horigin _ rfl
    generalize build exp resolution sigma margin pts = g at hdata horigin ⊢
    intro x y hx hx' hy hy'
    have hgreatest := raise_isGreatest (fun _ => 0) (pts.flatMap
      (kernel exp resolution sigma g.originX g.originY g.width g.height)) (y * g.width + x)
    rw [← hdata] at hgreatest
    refine (congrArg (fun scores => IsGreatest (insert (0 : R) scores) _) ?_).mp hgreatest
    ext v
    rw [Set.mem_ofPred_eq, Set.mem_ofPred_eq, List.mem_flatMap]
    refine exists_congr fun p => and_congr_right fun hp => ?_
    rw [mem_kernel]
    constructor
    · rintro ⟨x', y', hxw, hyh, _, hi, hv⟩
      have hcol : x' = x := by
        have := congrArg (· % g.width) hi
        simpa [Int.add_mul_emod_self_right, Int.emod_eq_of_lt, hxw.1, hxw.2, hx, hx',
          Int.add_comm] using this.symm
      subst hcol
      have hrow : y' = y := by
        have hmul : y' * g.width = y * g.width := by omega
        exact mul_right_cancel₀ (by omega) hmul
      subst hrow
      exact hv
    · intro hv
      have hdist := hv
      rw [cellScore, Option.ite_none_right_eq_some] at hdist
      have hdist := hdist.1
      obtain ⟨hox, hoy⟩ := horigin p hp
      have hdx := window_axis hres hsigma hox ((le_add_of_nonneg_right (mul_self_nonneg _)).trans hdist)
      have hdy := window_axis hres hsigma hoy ((le_add_of_nonneg_left (mul_self_nonneg _)).trans hdist)
      exact ⟨x, y, ⟨hx, hx'⟩, ⟨hy, hy'⟩, ⟨hdx.1, hdx.2, hdy.1, hdy.2⟩, rfl, hv⟩

/-- A bell over the rationals. -/
def rationalBell : Exponential ℚ where
  toFun x := 1 / (1 + x ^ 2)
  nonneg x := by positivity

/-- Two points forty cells apart, so that the grid has two bands. -/
def twoPoints : List (ℚ × ℚ) := [(0, 0), (0, 40)]

theorem twoPoints_writes (band : Int) : bandWrites rationalBell 1 (1 / 2) 0 0 1 41 twoPoints band =
    if band = 0 then [(0, 1 / 2)] else if band = 1 then [(39, 1 / 2), (40, 1 / 2)] else [] := by
  split <;> rename_i h0
  · subst h0
    decide +kernel
  · split <;> rename_i h1
    · subst h1
      decide +kernel
    · rw [bandWrites, if_neg]
      rw [numBands, kBandRows]
      omega

/-- Both threads read before either writes. -/
theorem likelihood_field_twoPoints :
    ∃ g, g = build rationalBell 1 (1 / 2) 0 twoPoints ∧
      (∃ s, exec Shared.step
          (drawBands rationalBell 1 (1 / 2) g.originX g.originY g.width g.height twoPoints)
          [0, 1, 1, 0, 1, 1] = some s ∧ (∀ band, s.todo band = []) ∧ s.mem = g.data) ∧
      g.data 40 = 1 / 2 := by
  obtain ⟨g, hg, _, hrun, _⟩ := likelihood_field rationalBell (one_pos : (0 : ℚ) < 1)
    (by norm_num : (0 : ℚ) ≤ 1 / 2) le_rfl twoPoints
  have hsize : g.originX = 0 ∧ g.originY = 0 ∧ g.width = 1 ∧ g.height = 41 := by
    rw [hg]
    decide +kernel
  obtain ⟨hx, hy, hw, hh⟩ := hsize
  have hstart : drawBands rationalBell 1 (1 / 2) 0 0 1 41 twoPoints =
      Shared.start (fun _ => 0) fun band => (if band = 0 then [(0, 1 / 2)] else
        if band = 1 then [(39, 1 / 2), (40, 1 / 2)] else []).map toUpdate := by
    rw [drawBands]
    simp only [twoPoints_writes]
  refine ⟨g, hg, ?_, ?_⟩
  · rw [hx, hy, hw, hh, hstart] at hrun ⊢
    obtain ⟨s, hs, hdone⟩ : ∃ s, exec Shared.step (Shared.start (fun _ => (0 : ℚ)) fun (band : Int) =>
        (if band = 0 then [(0, 1 / 2)] else
          if band = 1 then [(39, 1 / 2), (40, 1 / 2)] else []).map toUpdate)
        [0, 1, 1, 0, 1, 1] = some s ∧ ∀ band, s.todo band = [] := by
      refine ⟨_, rfl, fun band => ?_⟩
      by_cases h0 : band = 0
      · subst h0
        rfl
      · by_cases h1 : band = 1
        · subst h1
          rfl
        · simp [Shared.start, h0, h1]
    exact ⟨s, hs, hdone, hrun _ s hs hdone⟩
  · rw [hg]
    decide +kernel
end LikelihoodGrid

end MgRobot.Slam

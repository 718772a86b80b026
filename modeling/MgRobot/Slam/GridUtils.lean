import Mathlib.Algebra.Order.Floor.Ring
import MgRobot.Slam.Geometry

/-!
# Pixels of the map

`map_manager/grid_utils.cpp`: the bounds of a map, the pixel of a point, and the pixels
of the beam ends of a scan.
-/

namespace MgRobot.Slam

set_option autoImplicit false

/-- A scan as the renderers read it. -/
structure BeamScan (R : Type*) where
  ranges : List R
  angleMin : R
  angleIncrement : R
  rangeMin : R
  rangeMax : R
  lidarX : R
  lidarY : R
  angles : List R

structure SubmapPatch (R : Type*) where
  width : Nat
  height : Nat
  resolution : R
  originX : R
  originY : R
  /-- Rows of `hit_patch` and `miss_patch`. -/
  hitPatch : Nat → Nat → Int
  missPatch : Nat → Nat → Int

/-- A node as the renderers read it. -/
structure MapNode (R : Type*) where
  x : R
  y : R
  yaw : R
  scan : Option (BeamScan R)
  submapPatch : Option (SubmapPatch R)

/-- The geometry of a map. -/
structure MapFrame (R : Type*) where
  originX : R
  originY : R
  resolution : R
  width : Int
  height : Int
  deriving DecidableEq, Repr

abbrev Pixel := Int × Int

structure ScanHitsPixels where
  robot : Pixel
  /-- `hit_px` and `hit_py`. -/
  hits : List Pixel
  outOfBoundsHits : Nat
  deriving DecidableEq, Repr

section Rounding

variable {R : Type*} [Field R] [LinearOrder R] [FloorRing R]

/-- `static_cast<int>`, towards zero. -/
def truncToInt (x : R) : Int := if 0 ≤ x then ⌊x⌋ else ⌈x⌉

/-- The greatest `int32_t`. -/
def INT32_MAX : Nat := 2147483647

/-- The integers of 32 bits. -/
def InInt32 (n : Int) : Prop := -(INT32_MAX + 1) ≤ n ∧ n ≤ INT32_MAX

instance (n : Int) : Decidable (InInt32 n) := inferInstanceAs (Decidable (_ ∧ _))

/-- `static_cast<int32_t>`, which is undefined outside of the range. -/
def toInt32 (x : R) : Option Int :=
  let n := truncToInt x
  if InInt32 n then some n else none

/-- `std::round`, halves away from zero. -/
def roundToInt (x : R) : Int := if 0 ≤ x then ⌊x + 1 / 2⌋ else ⌈x - 1 / 2⌉

theorem truncToInt_of_nonneg {x : R} (h : 0 ≤ x) : truncToInt x = ⌊x⌋ := if_pos h

theorem truncToInt_of_neg {x : R} (h : x < 0) : truncToInt x = ⌈x⌉ := if_neg (not_le.mpr h)

variable [IsStrictOrderedRing R]

/-- A negative number above `-1` goes to `0`. -/
theorem truncToInt_nonneg_iff {x : R} : 0 ≤ truncToInt x ↔ -1 < x := by
  rcases lt_or_ge x 0 with hx | hx
  · have hceil : -1 < ⌈x⌉ ↔ ((-1 : Int) : R) < x := Int.lt_ceil
    rw [Int.cast_neg, Int.cast_one] at hceil
    rw [truncToInt_of_neg hx, ← hceil]
    omega
  · rw [truncToInt_of_nonneg hx]
    exact iff_of_true (Int.floor_nonneg.mpr hx) (by linarith)

theorem truncToInt_lt_iff {x : R} {k : Int} (hk : 0 < k) : truncToInt x < k ↔ x < k := by
  rcases lt_or_ge x 0 with hx | hx
  · have hk' : (0 : R) < k := Int.cast_pos.mpr hk
    have hceil : ⌈x⌉ ≤ 0 := Int.ceil_le.mpr (by simpa using hx.le)
    rw [truncToInt_of_neg hx]
    exact iff_of_true (by omega) (hx.trans hk')
  · rw [truncToInt_of_nonneg hx]
    exact Int.floor_lt

omit [IsStrictOrderedRing R] in
theorem toInt32_of_nonneg {x : R} (h : 0 ≤ x) :
    toInt32 x = if x < INT32_MAX + 1 then some ⌊x⌋ else none := by
  have hfloor : 0 ≤ ⌊x⌋ := Int.floor_nonneg.mpr h
  have hlt : ⌊x⌋ < INT32_MAX + 1 ↔ x < INT32_MAX + 1 := by
    rw [Int.floor_lt, Int.cast_add, Int.cast_natCast, Int.cast_one]
  unfold toInt32
  dsimp only
  rw [truncToInt_of_nonneg h]
  by_cases hx : x < INT32_MAX + 1
  · have hle := hlt.mpr hx
    rw [if_pos ⟨by omega, by omega⟩, if_pos hx]
  · rw [if_neg fun hin => hx (hlt.mp (Int.lt_add_one_iff.mpr hin.2)), if_neg hx]

end Rounding

section Definitions

variable {R : Type*} [Field R] [LinearOrder R] [FloorRing R] (m : Numerics R)

/-- The angle of beam `i`. -/
def beamAngle (scan : BeamScan R) (i : Nat) : R :=
  if scan.angles.isEmpty then scan.angleMin + i * scan.angleIncrement
  else scan.angles.getD i 0

def computeBounds (nodes : List (MapNode R)) (resolution expansionMargin : R) : MapFrame R :=
  match nodes with
  | [] => ⟨0, 0, resolution, 1, 1⟩
  | n :: rest =>
      let minX := (rest.map (·.x)).foldl min n.x
      let minY := (rest.map (·.y)).foldl min n.y
      let maxX := (rest.map (·.x)).foldl max n.x
      let maxY := (rest.map (·.y)).foldl max n.y
      let originX := minX - expansionMargin
      let originY := minY - expansionMargin
      { originX := originX
        originY := originY
        resolution := resolution
        width := max 1 ⌈(maxX + expansionMargin - originX) / resolution⌉
        height := max 1 ⌈(maxY + expansionMargin - originY) / resolution⌉ }

namespace MapFrame

variable (f : MapFrame R)

def worldToPixel (w : R × R) : Pixel :=
  (truncToInt ((w.1 - f.originX) / f.resolution), truncToInt ((w.2 - f.originY) / f.resolution))

def inBounds (p : Pixel) : Prop :=
  0 ≤ p.1 ∧ p.1 < f.width ∧ 0 ≤ p.2 ∧ p.2 < f.height

instance (p : Pixel) : Decidable (f.inBounds p) := inferInstanceAs (Decidable (_ ∧ _))

end MapFrame

/-- A point of the robot's frame in the world. -/
def MapNode.toWorld (node : MapNode R) (lx ly : R) : R × R :=
  (node.x + m.cos node.yaw * lx - m.sin node.yaw * ly,
    node.y + m.sin node.yaw * lx + m.cos node.yaw * ly)

/-- The ends of the beams whose range is valid, in the world. -/
def beamEnds (node : MapNode R) (scan : BeamScan R) : List (R × R) :=
  scan.ranges.zipIdx.filterMap fun p =>
    if p.1 ≤ scan.rangeMin ∨ scan.rangeMax ≤ p.1 then none
    else
      let angle := beamAngle scan p.2
      some (node.toWorld m (p.1 * m.cos angle + scan.lidarX) (p.1 * m.sin angle + scan.lidarY))

def scanHitsToPixels (f : MapFrame R) (node : MapNode R) : ScanHitsPixels :=
  match node.scan with
  | none => ⟨f.worldToPixel (node.toWorld m 0 0), [], 0⟩
  | some scan =>
      let pixels := (beamEnds m node scan).map f.worldToPixel
      { robot := f.worldToPixel (node.toWorld m scan.lidarX scan.lidarY)
        hits := pixels.filter fun p => f.inBounds p
        outOfBoundsHits := pixels.countP fun p => ¬ f.inBounds p }

end Definitions

end MgRobot.Slam

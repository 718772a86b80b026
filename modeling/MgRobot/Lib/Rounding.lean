import Mathlib.Algebra.Order.Archimedean.Basic
import Mathlib.Data.Int.Log
import Mathlib.Data.Rat.Floor
import Mathlib.Tactic.Linarith
import Mathlib.Tactic.NormNum
import Mathlib.Tactic.Positivity
import MgRobot.Lib.Numerals

/-!
# Rounded arithmetic

Numbers of a format among the elements of an ordered field, and the function that rounds the
result of every operation to one of them. The doubles are the instance with 53 bits.
-/

namespace MgRobot.Lib

set_option autoImplicit false

/-- Rounding to a symmetric set of numbers that has the small powers of two. -/
structure Rounding (R : Type*) [Field R] [LinearOrder R] where
  fl : R → R
  mono : Monotone fl
  neg : ∀ x, fl (-x) = -fl x
  idem : ∀ x, fl (fl x) = fl x
  pow : ∀ k : Nat, k ≤ 1022 → fl (1 / 2 ^ k) = 1 / 2 ^ k

namespace Rounding

section Rules

variable {R : Type*} [Field R] [LinearOrder R] (r : Rounding R)

/-- Nothing is rounded. -/
def exact : Rounding R where
  fl x := x
  mono := monotone_id
  neg _ := rfl
  idem _ := rfl
  pow _ _ := rfl

@[simp] theorem fl_one : r.fl 1 = 1 := by
  have h := r.pow 0 (by omega)
  rwa [pow_zero, div_one] at h

variable [IsStrictOrderedRing R]

@[simp] theorem fl_zero : r.fl 0 = 0 := by
  have h := r.neg 0
  rw [neg_zero] at h
  linarith

theorem fl_nonneg {x : R} (h : 0 ≤ x) : 0 ≤ r.fl x := by
  rw [← r.fl_zero]
  exact r.mono h

theorem abs_fl (x : R) : |r.fl x| = r.fl |x| := by
  rcases le_total 0 x with h | h
  · rw [abs_of_nonneg h, abs_of_nonneg (r.fl_nonneg h)]
  · rw [abs_of_nonpos h, r.neg, abs_of_nonpos]
    have hneg := r.fl_nonneg (neg_nonneg.mpr h)
    rw [r.neg] at hneg
    linarith

/-- Rounding keeps the order of the distances from zero. -/
theorem abs_fl_le {x y : R} (h : |x| ≤ |y|) : |r.fl x| ≤ |r.fl y| := by
  rw [r.abs_fl, r.abs_fl]
  exact r.mono h

/-- What is not below a small power of two is not rounded to zero. -/
theorem fl_pos {x : R} {k : Nat} (hk : k ≤ 1022) (h : 1 / 2 ^ k ≤ x) : 0 < r.fl x := by
  have hpow : (0 : R) < 1 / 2 ^ k := by positivity
  have hle := r.mono h
  rw [r.pow k hk] at hle
  exact hpow.trans_le hle

end Rules

/-! ## Doubles -/

/-- The nearest integer, and the even one of two. -/
def nearestEven (q : ℚ) : Int :=
  if q - ⌊q⌋ < 1 / 2 then ⌊q⌋
  else if 1 / 2 < q - ⌊q⌋ then ⌊q⌋ + 1
  else if ⌊q⌋ % 2 = 0 then ⌊q⌋ else ⌊q⌋ + 1

theorem floor_le_nearestEven (q : ℚ) : ⌊q⌋ ≤ nearestEven q := by
  unfold nearestEven
  split_ifs <;> omega

theorem nearestEven_le (q : ℚ) : nearestEven q ≤ ⌊q⌋ + 1 := by
  unfold nearestEven
  split_ifs <;> omega

@[simp] theorem nearestEven_intCast (n : Int) : nearestEven n = n := by
  unfold nearestEven
  rw [Int.floor_intCast, sub_self, if_pos (by norm_num)]

theorem nearestEven_mono {p q : ℚ} (h : p ≤ q) : nearestEven p ≤ nearestEven q := by
  rcases (Int.floor_le_floor h).eq_or_lt with heq | hlt
  · by_cases hp : p - ⌊p⌋ < 1 / 2
    · have hdown : nearestEven p = ⌊q⌋ := (if_pos hp).trans heq
      exact hdown.trans_le (floor_le_nearestEven q)
    by_cases hq : 1 / 2 < q - ⌊q⌋
    · have hup : nearestEven q = ⌊q⌋ + 1 := (if_neg hq.le.not_gt).trans (if_pos hq)
      rw [hup, ← heq]
      exact nearestEven_le p
    · -- both are halfway between the same two integers
      have hsame : q ≤ p := by
        rw [heq] at hp
        exact (sub_le_sub_iff_right _).mp ((not_lt.mp hq).trans (not_lt.mp hp))
      rw [le_antisymm h hsame]
  · exact (nearestEven_le p).trans (Int.add_one_le_iff.mpr hlt |>.trans (floor_le_nearestEven q))

theorem nearestEven_neg (q : ℚ) : nearestEven (-q) = -nearestEven q := by
  by_cases hint : (⌊q⌋ : ℚ) = q
  · rw [← hint, ← Int.cast_neg, nearestEven_intCast, nearestEven_intCast]
  · have hlt : (⌊q⌋ : ℚ) < q := lt_of_le_of_ne (Int.floor_le q) hint
    have hfloor : ⌊-q⌋ = -⌊q⌋ - 1 := by
      rw [Int.floor_eq_iff]
      have hsucc := Int.lt_floor_add_one q
      push_cast
      constructor <;> linarith
    unfold nearestEven
    rw [hfloor]
    push_cast
    split_ifs <;> first | omega | linarith

/-- An integer bound of a number is one of the nearest integer. -/
theorem nearestEven_le_of_le {q : ℚ} {n : Int} (h : q ≤ n) : nearestEven q ≤ n := by
  have hmono := nearestEven_mono h
  rwa [nearestEven_intCast] at hmono

theorem le_nearestEven_of_le {q : ℚ} {n : Int} (h : n ≤ q) : n ≤ nearestEven q := by
  have hmono := nearestEven_mono h
  rwa [nearestEven_intCast] at hmono

/-- The exponent of the last of 53 bits; subnormal numbers share the least one. -/
def ulpExponent (x : ℚ) : Int := max (Int.log 2 |x| - 52) (-1074)

/-- The double next to a number; the exponents have no upper bound. -/
def toDouble (x : ℚ) : ℚ := nearestEven (x / 2 ^ ulpExponent x) * 2 ^ ulpExponent x

theorem two_zpow_pos (e : Int) : (0 : ℚ) < 2 ^ e := zpow_pos (by norm_num) e

theorem ulpExponent_neg (x : ℚ) : ulpExponent (-x) = ulpExponent x := by
  unfold ulpExponent
  rw [abs_neg]

theorem toDouble_neg (x : ℚ) : toDouble (-x) = -toDouble x := by
  unfold toDouble
  rw [ulpExponent_neg, neg_div, nearestEven_neg, Int.cast_neg, neg_mul]

theorem toDouble_zero : toDouble 0 = 0 := by
  unfold toDouble
  rw [zero_div, show nearestEven 0 = 0 from nearestEven_intCast 0, Int.cast_zero, zero_mul]

theorem toDouble_nonneg {x : ℚ} (h : 0 ≤ x) : 0 ≤ toDouble x := by
  have hquot : ((0 : Int) : ℚ) ≤ x / 2 ^ ulpExponent x := by
    rw [Int.cast_zero]
    exact div_nonneg h (two_zpow_pos _).le
  exact mul_nonneg (Int.cast_nonneg (le_nearestEven_of_le hquot)) (two_zpow_pos _).le

/-- Multiples of the last bit on either side stay there. -/
theorem toDouble_le {x : ℚ} {n : Int} (h : x ≤ n * 2 ^ ulpExponent x) :
    toDouble x ≤ n * 2 ^ ulpExponent x := by
  have hn : nearestEven (x / 2 ^ ulpExponent x) ≤ n :=
    nearestEven_le_of_le ((div_le_iff₀ (two_zpow_pos _)).mpr h)
  exact mul_le_mul_of_nonneg_right (Int.cast_le.mpr hn) (two_zpow_pos _).le

theorem le_toDouble {x : ℚ} {n : Int} (h : n * 2 ^ ulpExponent x ≤ x) :
    n * 2 ^ ulpExponent x ≤ toDouble x := by
  have hn : n ≤ nearestEven (x / 2 ^ ulpExponent x) :=
    le_nearestEven_of_le ((le_div_iff₀ (two_zpow_pos _)).mpr h)
  exact mul_le_mul_of_nonneg_right (Int.cast_le.mpr hn) (two_zpow_pos _).le

theorem zpow_eq_mul {a e : Int} (h : e ≤ a) :
    (2 : ℚ) ^ a = ((2 ^ (a - e).toNat : Int) : ℚ) * 2 ^ e := by
  push_cast
  rw [← zpow_natCast, ← zpow_add₀ (by norm_num)]
  congr 1
  omega

theorem toDouble_mono_of_nonneg {x y : ℚ} (hx : 0 < x) (h : x ≤ y) : toDouble x ≤ toDouble y := by
  have hy := hx.trans_le h
  have hlog : Int.log 2 x ≤ Int.log 2 y := Int.log_mono_right hx h
  have hex : ulpExponent x = max (Int.log 2 x - 52) (-1074) := by
    unfold ulpExponent
    rw [abs_of_pos hx]
  have hey : ulpExponent y = max (Int.log 2 y - 52) (-1074) := by
    unfold ulpExponent
    rw [abs_of_pos hy]
  rcases (show ulpExponent x ≤ ulpExponent y by omega).eq_or_lt with heq | hlt
  · unfold toDouble
    rw [heq]
    have hquot : x / 2 ^ ulpExponent y ≤ y / 2 ^ ulpExponent y :=
      div_le_div_of_nonneg_right h (two_zpow_pos _).le
    exact mul_le_mul_of_nonneg_right (Int.cast_le.mpr (nearestEven_mono hquot))
      (two_zpow_pos _).le
  · -- a power of two lies between the two
    have hbelow : x ≤ 2 ^ Int.log 2 y := by
      have hself := Int.lt_zpow_succ_log_self (R := ℚ) (b := 2) (by norm_num) x
      have hstep : ((2 : Nat) : ℚ) ^ (Int.log 2 x + 1) ≤ 2 ^ Int.log 2 y := by
        rw [Nat.cast_ofNat]
        exact zpow_le_zpow_right₀ (by norm_num) (by omega)
      exact hself.le.trans hstep
    have habove : (2 : ℚ) ^ Int.log 2 y ≤ y := by
      have hself := Int.zpow_log_le_self (R := ℚ) (b := 2) (by norm_num) hy
      rwa [Nat.cast_ofNat] at hself
    have hle := hbelow
    rw [zpow_eq_mul (show ulpExponent x ≤ Int.log 2 y by omega)] at hle
    have hge := habove
    rw [zpow_eq_mul (show ulpExponent y ≤ Int.log 2 y by omega)] at hge
    calc toDouble x ≤ 2 ^ Int.log 2 y := by
          rw [zpow_eq_mul (show ulpExponent x ≤ Int.log 2 y by omega)]
          exact toDouble_le hle
      _ ≤ toDouble y := by
          rw [zpow_eq_mul (show ulpExponent y ≤ Int.log 2 y by omega)]
          exact le_toDouble hge

theorem toDouble_mono : Monotone toDouble := by
  intro x y h
  rcases lt_trichotomy x 0 with hx | rfl | hx
  · rcases lt_or_ge y 0 with hy | hy
    · have hneg := toDouble_mono_of_nonneg (neg_pos.mpr hy) (neg_le_neg h)
      rw [toDouble_neg, toDouble_neg] at hneg
      exact neg_le_neg_iff.mp hneg
    · have hnonneg := toDouble_nonneg (neg_nonneg.mpr hx.le)
      rw [toDouble_neg] at hnonneg
      exact (neg_nonneg.mp hnonneg).trans (toDouble_nonneg hy)
  · rw [toDouble_zero]
    exact toDouble_nonneg h
  · exact toDouble_mono_of_nonneg hx h

/-- A number of at most 53 bits is a double. -/
theorem toDouble_of_bits {m e : Int} (hm : |m| ≤ 2 ^ 53) (he : -1074 ≤ e) :
    toDouble (m * 2 ^ e) = m * 2 ^ e := by
  rcases eq_or_ne m 0 with rfl | hne
  · rw [Int.cast_zero, zero_mul, toDouble_zero]
  -- the number is a multiple of its last bit
  suffices hint : ∃ n : Int, (m : ℚ) * 2 ^ e = n * 2 ^ ulpExponent (m * 2 ^ e) by
    obtain ⟨n, hn⟩ := hint
    refine le_antisymm ?_ ?_
    · have hle := toDouble_le hn.le
      rwa [← hn] at hle
    · have hge := le_toDouble hn.ge
      rwa [← hn] at hge
  have habs : |(m : ℚ) * 2 ^ e| = |m| * 2 ^ e := by
    rw [abs_mul, abs_of_pos (two_zpow_pos e), Int.cast_abs]
  have hpos : (0 : ℚ) < |m| * 2 ^ e :=
    mul_pos (Int.cast_pos.mpr (abs_pos.mpr hne)) (two_zpow_pos e)
  by_cases hfull : |m| = 2 ^ 53
  · have hlog : Int.log 2 |(m : ℚ) * 2 ^ e| = e + 53 := by
      have hpow : ((2 ^ 53 : Int) : ℚ) * 2 ^ e = ((2 : Nat) : ℚ) ^ (e + 53) := by
        rw [zpow_add₀ (by norm_num)]
        push_cast
        ring
      rw [habs, hfull, hpow]
      exact Int.log_zpow (by norm_num) _
    have hexp : ulpExponent (m * 2 ^ e) = e + 1 := by
      unfold ulpExponent
      rw [hlog]
      omega
    rw [hexp]
    rcases abs_eq (by norm_num) |>.mp hfull with rfl | rfl
    · exact ⟨2 ^ 52, by rw [zpow_add₀ (by norm_num)]; push_cast; ring⟩
    · exact ⟨-2 ^ 52, by rw [zpow_add₀ (by norm_num)]; push_cast; ring⟩
  · have hlt : |(m : ℚ) * 2 ^ e| < ((2 : Nat) : ℚ) ^ (e + 53) := by
      have hbits : ((|m| : Int) : ℚ) < 2 ^ 53 := by
        exact_mod_cast lt_of_le_of_ne hm hfull
      rw [habs, Nat.cast_ofNat, zpow_add₀ (by norm_num), mul_comm (2 ^ e)]
      exact mul_lt_mul_of_pos_right hbits (two_zpow_pos e)
    have hlog : Int.log 2 |(m : ℚ) * 2 ^ e| < e + 53 := by
      rw [habs] at hlt ⊢
      exact (Int.lt_zpow_iff_log_lt (by norm_num) hpos).mp hlt
    have hexp : ulpExponent (m * 2 ^ e) ≤ e := by
      unfold ulpExponent
      omega
    refine ⟨m * 2 ^ (e - ulpExponent (m * 2 ^ e)).toNat, ?_⟩
    rw [Int.cast_mul, mul_assoc, ← zpow_eq_mul hexp]

theorem toDouble_idem (x : ℚ) : toDouble (toDouble x) = toDouble x := by
  have he : -1074 ≤ ulpExponent x := le_max_right _ _
  have hlt : |x / 2 ^ ulpExponent x| ≤ ((2 ^ 53 : Int) : ℚ) := by
    have hself := Int.lt_zpow_succ_log_self (R := ℚ) (b := 2) (by norm_num) |x|
    have hstep : ((2 : Nat) : ℚ) ^ (Int.log 2 |x| + 1) ≤ 2 ^ (ulpExponent x + 53) := by
      rw [Nat.cast_ofNat]
      exact zpow_le_zpow_right₀ (by norm_num) (by unfold ulpExponent; omega)
    rw [abs_div, abs_of_pos (two_zpow_pos _), div_le_iff₀ (two_zpow_pos _)]
    calc |x| ≤ 2 ^ (ulpExponent x + 53) := hself.le.trans hstep
      _ = ((2 ^ 53 : Int) : ℚ) * 2 ^ ulpExponent x := by
          rw [zpow_add₀ (by norm_num)]
          push_cast
          ring
  obtain ⟨hlo, hhi⟩ := abs_le.mp hlt
  refine toDouble_of_bits (abs_le.mpr ⟨?_, nearestEven_le_of_le hhi⟩) he
  exact le_nearestEven_of_le (by rwa [Int.cast_neg])

/-- Round to nearest, ties to even. -/
def binary64 : Rounding ℚ where
  fl := toDouble
  mono := toDouble_mono
  neg := toDouble_neg
  idem := toDouble_idem
  pow k hk := by
    have hone : (1 : ℚ) / 2 ^ k = ((1 : Int) : ℚ) * 2 ^ (-(k : Int)) := by
      rw [Int.cast_one, one_mul, zpow_neg, zpow_natCast, one_div]
    rw [hone]
    exact toDouble_of_bits (by norm_num) (by omega)

example : binary64.fl (1 / 10) = 3602879701896397 / 2 ^ 55 := by decide +kernel

end Rounding

end MgRobot.Lib

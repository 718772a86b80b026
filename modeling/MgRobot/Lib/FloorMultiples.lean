import MgRobot.Lib.Numerals
import Mathlib.Algebra.Order.Floor.Ring

/-!
# Rounded multiples and a line

The multiples `⌊h * r⌋`, weighted by `d`, against the line `c * h`. Rounding down is
superadditive, so multiples that are above the line in one window stay above it.
-/

namespace MgRobot.Lib.FloorMultiples

set_option autoImplicit false

variable {R : Type*} [Field R] [LinearOrder R] [IsStrictOrderedRing R] [FloorRing R]
variable {c d r : R} {h₀ : Nat}

/-- The multiple `h` of the ratio `r` is not above the line. -/
def Below (c d r : R) (h : Nat) : Prop := d * ⌊h * r⌋ ≤ c * h

theorem above_add {a b : Nat} (hd : 0 ≤ d) (ha : ¬ Below c d r a) (hb : ¬ Below c d r b) :
    ¬ Below c d r (a + b) := by
  unfold Below at *
  rw [not_le] at *
  have hfloor : ((⌊(a : R) * r⌋ : Int) : R) + ⌊(b : R) * r⌋ ≤ ⌊((a + b : Nat) : R) * r⌋ := by
    rw [Nat.cast_add, add_mul, ← Int.cast_add, Int.cast_le]
    exact Int.le_floor_add _ _
  have hmul := mul_le_mul_of_nonneg_left hfloor hd
  calc c * ((a + b : Nat) : R)
      = c * a + c * b := by rw [Nat.cast_add, mul_add]
    _ < d * ⌊(a : R) * r⌋ + d * ⌊(b : R) * r⌋ := add_lt_add ha hb
    _ ≤ d * ⌊((a + b : Nat) : R) * r⌋ := by rw [← mul_add]; exact hmul

/-- Above the line from `h₀` to twice `h₀`, above it for good. -/
theorem above_of_window (hd : 0 ≤ d) (hpos : 0 < h₀)
    (hwin : ∀ h, h₀ ≤ h → h < 2 * h₀ → ¬ Below c d r h) (h : Nat) (hh : h₀ ≤ h) :
    ¬ Below c d r h := by
  induction h using Nat.strongRecOn with
  | ind h ih =>
      by_cases hlt : h < 2 * h₀
      · exact hwin h hh hlt
      · have hrest := ih (h - h₀) (by omega) (by omega)
        have hstart := hwin h₀ le_rfl (by omega)
        have hadd := above_add hd hstart hrest
        rwa [Nat.add_sub_cancel' hh] at hadd

/-- Multiples of a ratio that is not steeper than the line are not above it. -/
theorem below_of_le (hd : 0 ≤ d) (hle : d * r ≤ c) (h : Nat) : Below c d r h := by
  have hnonneg : (0 : R) ≤ (h : R) := Nat.cast_nonneg h
  unfold Below
  calc d * ⌊(h : R) * r⌋
      ≤ d * ((h : R) * r) := mul_le_mul_of_nonneg_left (Int.floor_le _) hd
    _ = d * r * (h : R) := by rw [mul_comm _ r, mul_assoc]
    _ ≤ c * (h : R) := mul_le_mul_of_nonneg_right hle hnonneg

/-- Up to `n`, once at or below the line, always: exactly if no multiple is above it, or all are,
or the window does not fit and the multiples change sides once. -/
theorem below_closed_iff {n : Nat} (hd : 0 ≤ d) (hpos : 0 < h₀) :
    (∀ h, h₀ ≤ h → h < n → Below c d r h → Below c d r (h + 1)) ↔
      (∀ h, h₀ ≤ h → h ≤ n → Below c d r h) ∨
        (∀ h, h₀ ≤ h → h ≤ n → h < 2 * h₀ → ¬ Below c d r h) ∨
        n < 2 * h₀ ∧ ∃ k, ∀ h, h₀ ≤ h → h ≤ n → (Below c d r h ↔ k ≤ h) := by
  constructor
  · intro hclosed
    have hup : ∀ a b, h₀ ≤ a → a ≤ b → b ≤ n → Below c d r a → Below c d r b := by
      intro a b ha hab
      induction hab with
      | refl => exact fun _ h => h
      | step hab ih => exact fun hb h => hclosed _ (ha.trans hab) hb (ih (Nat.le_of_succ_le hb) h)
    by_cases hex : ∃ h, h₀ ≤ h ∧ h ≤ n ∧ h < 2 * h₀ ∧ Below c d r h
    · classical
      obtain ⟨hk, hkn, hkw, hbelow⟩ := Nat.find_spec hex
      have hmin : ∀ h, h₀ ≤ h → h ≤ n → Below c d r h → Nat.find hex ≤ h := by
        intro h hh hn hb
        by_contra hlt
        exact Nat.find_min hex (not_le.mp hlt) ⟨hh, hn, by omega, hb⟩
      rcases Nat.eq_or_lt_of_le hk with heq | hlt
      · exact Or.inl fun h hh hn => hup _ h hk (heq ▸ hh) hn hbelow
      · refine Or.inr (Or.inr ⟨?_, Nat.find hex, fun h hh hn => ⟨hmin h hh hn, fun hle => ?_⟩⟩)
        · -- a start above the line would put its double above as well
          by_contra hfits
          have hstart : ¬ Below c d r h₀ := fun hb => by
            have := hmin h₀ le_rfl (by omega) hb
            omega
          have hdouble := hup _ (h₀ + h₀) hk (by omega) (by omega) hbelow
          exact above_add hd hstart hstart hdouble
        · exact hup _ h hk hle hn hbelow
    · exact Or.inr (Or.inl fun h hh hn hw hb => hex ⟨h, hh, hn, hw, hb⟩)
  · rintro (hall | hwin | ⟨_, k, hk⟩) h hh hn hbelow
    · exact hall (h + 1) (by omega) hn
    · by_cases hfits : 2 * h₀ ≤ n
      · exact absurd hbelow
          (above_of_window hd hpos (fun h hh hw => hwin h hh (by omega) hw) h hh)
      · exact absurd hbelow (hwin h hh hn.le (by omega))
    · rw [hk (h + 1) (by omega) hn]
      exact ((hk h hh hn.le).mp hbelow).trans (Nat.le_succ h)

end MgRobot.Lib.FloorMultiples

import Mathlib.Data.Nat.Log
import Mathlib.Data.Nat.Size
import Mathlib.Tactic

/-!
# Rounding to floating-point numbers

Natural numbers as binary floating-point numbers with a given precision, rounded to the
nearest number and ties to the even one.

Main results:

- Theorem {lit}`roundBits_eq_self_iff`: rounding changes nothing exactly if the number has
  no more significant bits than the precision.
-/

namespace Rounding

/-- The number of bits that do not fit into the precision. -/
def excess (precision n : Nat) : Nat := n.size - precision

/-- Round to the nearest number with the given number of significant bits. -/
def roundBits (precision n : Nat) : Nat :=
  let unit := 2 ^ excess precision n
  let down := n / unit
  let rest := n % unit
  if 2 * rest < unit then down * unit
  else if unit < 2 * rest then (down + 1) * unit
  else (down + down % 2) * unit

/-- The number is a multiple of a power of two with few significant bits. -/
def Representable (precision n : Nat) : Prop :=
  ∃ mantissa exponent, mantissa < 2 ^ precision ∧ n = mantissa * 2 ^ exponent

theorem dvd_roundBits (precision n : Nat) :
    2 ^ excess precision n ∣ roundBits precision n := by
  unfold roundBits
  simp only
  split_ifs
  · exact Dvd.intro_left _ rfl
  · exact Dvd.intro_left _ rfl
  · exact Dvd.intro_left _ rfl

theorem roundBits_eq_self_iff_dvd (precision n : Nat) :
    roundBits precision n = n ↔ 2 ^ excess precision n ∣ n := by
  constructor
  · intro h
    have hdvd := dvd_roundBits precision n
    rwa [h] at hdvd
  · intro hdvd
    have hrest : n % 2 ^ excess precision n = 0 := Nat.mod_eq_zero_of_dvd hdvd
    have hpos : 0 < 2 ^ excess precision n := Nat.two_pow_pos _
    unfold roundBits
    simp only [hrest, Nat.mul_zero, hpos, if_true]
    exact Nat.div_mul_cancel hdvd

/-- Rounding changes nothing exactly if the number has few significant bits. -/
theorem roundBits_eq_self_iff (precision n : Nat) :
    roundBits precision n = n ↔ Representable precision n := by
  rw [roundBits_eq_self_iff_dvd]
  constructor
  · intro hdvd
    refine ⟨n / 2 ^ excess precision n, excess precision n, ?_, (Nat.div_mul_cancel hdvd).symm⟩
    have hsize : n < 2 ^ n.size := Nat.lt_size_self n
    have hbound : 2 ^ n.size ≤ 2 ^ (precision + excess precision n) :=
      Nat.pow_le_pow_right (by decide) (by unfold excess; omega)
    rw [Nat.div_lt_iff_lt_mul (Nat.two_pow_pos _), ← pow_add]
    exact hsize.trans_le hbound
  · rintro ⟨mantissa, exponent, hmantissa, rfl⟩
    have hexcess : excess precision (mantissa * 2 ^ exponent) ≤ exponent := by
      have hsize : (mantissa * 2 ^ exponent).size ≤ precision + exponent := by
        rw [Nat.size_le, pow_add]
        exact Nat.mul_lt_mul_of_pos_right hmantissa (Nat.two_pow_pos _)
      unfold excess
      omega
    exact (pow_dvd_pow 2 hexcess).mul_left mantissa

theorem representable_of_lt {precision n : Nat} (h : n < 2 ^ precision) :
    Representable precision n :=
  ⟨n, 0, h, by simp⟩

example : roundBits 3 11 = 12 ∧ roundBits 3 9 = 8 ∧ roundBits 3 13 = 12 := by decide

end Rounding

import Mathlib.Algebra.Order.Group.Nat
import Mathlib.Algebra.Order.Group.Int
import Statsd.Number.Binary

/-!
# Statsd.Proofs.Number.Rounding — a quotient rounded once

A quotient is measured in units of the exponent at which it has a full
significand, and rounded to one of the two integers next to it.

* A rounded quotient is a number without sign (`rank_ofRatio`), so that its
  place in the order is its pattern.
* A fraction of `2^63` is below 1 but for the 512 next to the end, which are
  rounded to 1 (`ofRatio_near_one`).
-/

namespace Statsd

open Natural

/-- A quotient is rounded to one of the two integers next to it. -/
theorem roundHalfEven_le (n d : Nat) : roundHalfEven n d ≤ n / d + 1 := by
  unfold roundHalfEven
  dsimp only
  split
  · omega
  · split
    · omega
    · omega

theorem inUnits_neg (n d k : Nat) : inUnits n d (-(k : Int)) = (n * 2 ^ k, d) := by
  have hup : (- -(k : Int)).toNat = k := by omega
  have hdown : (-(k : Int)).toNat = 0 := by omega
  rw [inUnits, hup, hdown, Nat.pow_zero, Nat.mul_one]

/-! ## The pattern of a quotient -/

namespace Binary64

theorem ofRatio_le_infinity (n d : Nat) :
    Format.binary64.ofRatio n d ≤ Format.binary64.infinityBits := by
  unfold Format.ofRatio
  split
  · exact Nat.zero_le _
  · exact Nat.min_le_left _ _

/-- A rounded quotient is a number without sign. -/
theorem rank_ofRatio (n d : Nat) :
    (ofRatio n d).isNaN = false ∧ (ofRatio n d).rank = Format.binary64.ofRatio n d := by
  have hle := ofRatio_le_infinity n d
  have hbound : Format.binary64.infinityBits < signBit := by decide +kernel
  have hword : signBit < 2 ^ 64 := by decide
  have hbits : (ofRatio n d).bits.toNat = Format.binary64.ofRatio n d :=
    Nat.mod_eq_of_lt (by omega)
  have hmagnitude : (ofRatio n d).magnitude = Format.binary64.ofRatio n d := by
    rw [magnitude, hbits]
    exact Nat.mod_eq_of_lt (by omega)
  have hsign : (ofRatio n d).negative = false := by
    unfold negative
    rw [hbits]
    exact decide_eq_false (by omega)
  constructor
  · unfold isNaN
    rw [hmagnitude]
    exact decide_eq_false (Nat.not_lt.mpr hle)
  · unfold rank
    rw [hsign, hmagnitude]
    rfl

end Binary64

/-! ## Fractions of `2^63` -/

namespace Format

theorem exponentOf_binary64 (n d : Nat) :
    binary64.exponentOf n d =
      let low : Int := (Nat.log2 n : Nat) - (Nat.log2 d : Nat) - 53
      max (-1074) (if (inUnits n d low).1 / (inUnits n d low).2 < 2 ^ 53 then low else low + 1) :=
  rfl

theorem ofRatio_binary64 {n : Nat} (hn : n ≠ 0) (d : Nat) :
    binary64.ofRatio n d =
      let e := binary64.exponentOf n d
      min (2047 * 2 ^ 52)
        ((e + 1074).toNat * 2 ^ 52 + roundHalfEven (inUnits n d e).1 (inUnits n d e).2) :=
  if_neg hn

/-- A fraction has a full significand. -/
theorem exponentOf_fraction {n : Nat} (hpos : n ≠ 0) (hn : n < 2 ^ 63) :
    binary64.exponentOf n (2 ^ 63) = -((115 - Nat.log2 n : Nat) : Int) := by
  have hlow : 2 ^ Nat.log2 n ≤ n := Nat.log2_self_le hpos
  have hsmall : Nat.log2 n < 63 := (Nat.log2_lt hpos).mpr hn
  -- the first guess is one bit too wide
  have hguess : (Nat.log2 n : Int) - (Nat.log2 (2 ^ 63) : Nat) - 53 =
      -((116 - Nat.log2 n : Nat) : Int) := by
    rw [Nat.log2_two_pow]
    omega
  have hwide : 2 ^ 53 ≤ n * 2 ^ (116 - Nat.log2 n) / 2 ^ 63 := by
    rw [Nat.le_div_iff_mul_le (Nat.two_pow_pos 63)]
    calc 2 ^ 53 * 2 ^ 63 = 2 ^ Nat.log2 n * 2 ^ (116 - Nat.log2 n) := by
          rw [← Nat.pow_add, ← Nat.pow_add]
          congr 1
          omega
      _ ≤ n * 2 ^ (116 - Nat.log2 n) := Nat.mul_le_mul_right _ hlow
  rw [exponentOf_binary64]
  dsimp only
  rw [hguess, inUnits_neg, if_neg (Nat.not_lt.mpr hwide)]
  omega

/-- The pattern of a fraction: the exponent, and the significand that may carry into it. -/
theorem ofRatio_fraction {n : Nat} (hpos : n ≠ 0) (hn : n < 2 ^ 63) :
    binary64.ofRatio n (2 ^ 63) =
      (959 + Nat.log2 n) * 2 ^ 52 + roundHalfEven (n * 2 ^ (115 - Nat.log2 n)) (2 ^ 63) ∧
    roundHalfEven (n * 2 ^ (115 - Nat.log2 n)) (2 ^ 63) ≤ 2 ^ 53 := by
  have hsmall : Nat.log2 n < 63 := (Nat.log2_lt hpos).mpr hn
  have hround : roundHalfEven (n * 2 ^ (115 - Nat.log2 n)) (2 ^ 63) ≤ 2 ^ 53 := by
    have hlt : n * 2 ^ (115 - Nat.log2 n) < 2 ^ 63 * 2 ^ 53 := by
      calc n * 2 ^ (115 - Nat.log2 n) < 2 ^ (Nat.log2 n + 1) * 2 ^ (115 - Nat.log2 n) :=
            Nat.mul_lt_mul_of_pos_right Nat.lt_log2_self (Nat.two_pow_pos _)
        _ = 2 ^ 63 * 2 ^ 53 := by
            rw [← Nat.pow_add, ← Nat.pow_add]
            congr 1
            omega
    exact Nat.le_trans (roundHalfEven_le _ _) (Nat.div_lt_of_lt_mul hlt)
  have hbiased : (-((115 - Nat.log2 n : Nat) : Int) + 1074).toNat = 959 + Nat.log2 n := by omega
  refine ⟨?_, hround⟩
  rw [ofRatio_binary64 hpos]
  dsimp only
  rw [exponentOf_fraction hpos hn, inUnits_neg, hbiased]
  dsimp only
  omega

/-- A fraction that is not one of the 512 next to 1 is below 1. Those, of which
the first one is halfway between 1 and the value before it, are rounded to 1. -/
theorem ofRatio_near_one {n : Nat} (hn : n < 2 ^ 63) :
    (n < 2 ^ 63 - 2 ^ 9 ∧ binary64.ofRatio n (2 ^ 63) < 1023 * 2 ^ 52) ∨
      (2 ^ 63 - 2 ^ 9 ≤ n ∧ binary64.ofRatio n (2 ^ 63) = 1023 * 2 ^ 52) := by
  by_cases hpos : n = 0
  · rw [hpos]
    exact Or.inl ⟨by decide, by decide⟩
  · have hsmall : Nat.log2 n < 63 := (Nat.log2_lt hpos).mpr hn
    obtain ⟨hbits, hround⟩ := ofRatio_fraction hpos hn
    rw [hbits]
    by_cases htop : Nat.log2 n = 62
    · -- from one half on a unit is 2^10
      have hhalf : 2 ^ 62 ≤ n := htop ▸ Nat.log2_self_le hpos
      rw [htop]
      unfold roundHalfEven
      dsimp only
      have hfloor : n * 2 ^ (115 - 62) / 2 ^ 63 = n / 2 ^ 10 := by omega
      have hrest : n * 2 ^ (115 - 62) % 2 ^ 63 = n % 2 ^ 10 * 2 ^ 53 := by omega
      rw [hfloor, hrest]
      split
      · omega
      · split
        · omega
        · omega
    · have hbelow : n < 2 ^ 62 := (Nat.log2_lt hpos).mp (by omega)
      left
      omega

end Format

end Statsd

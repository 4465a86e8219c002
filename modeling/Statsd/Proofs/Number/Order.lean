import Mathlib.Algebra.Order.Field.Power
import Mathlib.Algebra.Order.Ring.Rat
import Mathlib.Order.WithBot
import Mathlib.Tactic.Ring
import Statsd.Number.Binary

/-!
# Statsd.Proofs.Number.Order — patterns in the order of the numbers they stand for

Double precision patterns are compared by an integer rank. This is the order of
the numbers that the patterns stand for.

* `Value.number?` is the number of a value: a rational number or one of the two
  infinities, and none for a value that is no number.
* The finite numbers are the whole multiples of the least positive one
  (`Binary64.units`), and the multiple grows with the magnitude of the pattern
  (`units_strictMono`): from one pattern to the next either the significand
  grows, or the exponent does and the significand starts again.
* So the number grows with the rank (`ofRank_lt`), and patterns are compared as
  numbers (`lt_iff_number`, `le_iff_number`).
-/

namespace Statsd

open Natural

/-- The line of the rationals, with both infinities at its ends. -/
abbrev ExtendedRat : Type := WithBot (WithTop ℚ)

/-- A rational number on this line. -/
def ExtendedRat.ofRat (q : ℚ) : ExtendedRat := WithBot.some (WithTop.some q)

theorem ExtendedRat.ofRat_le {p q : ℚ} : ofRat p ≤ ofRat q ↔ p ≤ q := by
  rw [ofRat, ofRat, WithBot.coe_le_coe, WithTop.coe_le_coe]

theorem ExtendedRat.ofRat_lt {p q : ℚ} : ofRat p < ofRat q ↔ p < q := by
  rw [ofRat, ofRat, WithBot.coe_lt_coe, WithTop.coe_lt_coe]

/-- What is neither below a number nor as large as another one is a number between the two. -/
theorem ExtendedRat.exists_ofRat {a : ExtendedRat} {p q : ℚ} (hp : ofRat p ≤ a) (hq : a < ofRat q) :
    ∃ u, a = ofRat u ∧ p ≤ u ∧ u < q := by
  have hbot : a ≠ ⊥ := by
    rintro rfl
    exact WithBot.not_coe_le_bot _ hp
  obtain ⟨b, rfl⟩ := WithBot.ne_bot_iff_exists.mp hbot
  have hb : b < WithTop.some q := WithBot.coe_lt_coe.mp hq
  obtain ⟨u, rfl⟩ := WithTop.ne_top_iff_exists.mp (ne_top_of_lt hb)
  exact ⟨u, rfl, ofRat_le.mp hp, ofRat_lt.mp hq⟩

/-- The number that a value stands for. -/
def Value.number? : Value → Option ExtendedRat
  | .nan => none
  | .infinite true => some ⊥
  | .infinite false => some ⊤
  | .finite negative m q =>
    some (.ofRat (((if negative then -m else m : ℤ) : ℚ) * (2 : ℚ) ^ q))

namespace Binary64

/-- The magnitude of infinity. -/
theorem infinityBits_eq : Format.binary64.infinityBits = 2047 * 2 ^ 52 := by decide +kernel

/-! ## Magnitudes -/

/-- The significand of a magnitude. -/
def significand (n : Nat) : Nat := if n / 2 ^ 52 = 0 then n else 2 ^ 52 + n % 2 ^ 52

/-- How many times the least positive number a magnitude is. -/
def units (n : Nat) : Nat := significand n * 2 ^ (n / 2 ^ 52 - 1)

theorem units_lt_succ (n : Nat) : units n < units (n + 1) := by
  unfold units
  by_cases hsame : (n + 1) / 2 ^ 52 = n / 2 ^ 52
  · -- the next significand at the same exponent
    have hlt : significand n < significand (n + 1) := by
      unfold significand
      rw [hsame]
      split
      · omega
      · omega
    rw [hsame]
    exact Nat.mul_lt_mul_of_pos_right hlt (Nat.two_pow_pos _)
  · -- the least significand at the next exponent
    have hnext : (n + 1) / 2 ^ 52 = n / 2 ^ 52 + 1 := by omega
    have hleast : significand (n + 1) = 2 ^ 52 := by
      unfold significand
      rw [hnext, if_neg (Nat.succ_ne_zero _)]
      omega
    rw [hnext, hleast, Nat.add_sub_cancel]
    obtain hzero | hpos := Nat.eq_zero_or_pos (n / 2 ^ 52)
    · -- the first two values of the exponent field are one exponent
      have hsmall : significand n < 2 ^ 52 := by
        unfold significand
        rw [if_pos hzero]
        omega
      rw [hzero]
      exact Nat.mul_lt_mul_of_pos_right hsmall (Nat.two_pow_pos _)
    · have hfull : significand n < 2 ^ 52 * 2 := by
        unfold significand
        rw [if_neg (Nat.pos_iff_ne_zero.mp hpos)]
        omega
      have hdouble : 2 ^ (n / 2 ^ 52) = 2 * 2 ^ (n / 2 ^ 52 - 1) := by
        rw [← Nat.pow_succ', Nat.succ_eq_add_one, Nat.sub_add_cancel hpos]
      rw [hdouble, ← Nat.mul_assoc]
      exact Nat.mul_lt_mul_of_pos_right hfull (Nat.two_pow_pos _)

theorem units_strictMono : StrictMono units := strictMono_nat_of_lt_succ units_lt_succ

/-- The two lower fields of a pattern are those of its magnitude. -/
theorem value_of_fields (x : Binary64) :
    x.value =
      if x.magnitude / 2 ^ 52 = 2047 then
        if x.magnitude % 2 ^ 52 = 0 then .infinite x.negative else .nan
      else if x.magnitude / 2 ^ 52 = 0 then .finite x.negative (x.magnitude % 2 ^ 52) (-1074)
      else .finite x.negative (2 ^ 52 + x.magnitude % 2 ^ 52)
        (-1074 + ((x.magnitude / 2 ^ 52 : Nat) - 1)) := by
  have hbits : x.bits.toNat < 2 ^ 64 := UInt64.toNat_lt x.bits
  have hsign : (x.bits.toNat / 2 ^ 63 % 2 == 1) = x.negative := by
    unfold negative signBit
    by_cases h : 2 ^ 63 ≤ x.bits.toNat
    · rw [beq_iff_eq.mpr (by omega)]
      exact (decide_eq_true h).symm
    · rw [beq_false_of_ne (by omega)]
      exact (decide_eq_false h).symm
  have hfraction : x.magnitude % 2 ^ 52 = x.bits.toNat % 2 ^ 52 := by
    unfold magnitude signBit
    omega
  have hbiased : x.magnitude / 2 ^ 52 = x.bits.toNat / 2 ^ 52 % 2 ^ 11 := by
    unfold magnitude signBit
    omega
  rw [hfraction, hbiased, ← hsign]
  rfl

/-- What a pattern stands for, by its sign and its magnitude. -/
theorem value_eq (x : Binary64) :
    x.value =
      if x.isNaN then .nan
      else if x.magnitude = Format.binary64.infinityBits then .infinite x.negative
      else .finite x.negative (significand x.magnitude) ((x.magnitude / 2 ^ 52 - 1 : Nat) - 1074) := by
  have hmagnitude : x.magnitude < 2 ^ 63 := Nat.mod_lt _ (by decide)
  have hnan : x.isNaN = decide (2047 * 2 ^ 52 < x.magnitude) := by rw [isNaN, infinityBits_eq]
  rw [value_of_fields, hnan, infinityBits_eq]
  by_cases hspecial : x.magnitude / 2 ^ 52 = 2047
  · rw [if_pos hspecial]
    by_cases hzero : x.magnitude % 2 ^ 52 = 0
    · have hinf : x.magnitude = 2047 * 2 ^ 52 := by omega
      rw [if_pos hzero, hinf]
      rfl
    · have habove : 2047 * 2 ^ 52 < x.magnitude := by omega
      rw [if_neg hzero, if_pos (decide_eq_true habove)]
  · have hbelow : x.magnitude < 2047 * 2 ^ 52 := by omega
    have hnot : ¬ decide (2047 * 2 ^ 52 < x.magnitude) = true := by
      rw [decide_eq_true_eq]
      exact Nat.lt_asymm hbelow
    rw [if_neg hspecial, if_neg hnot, if_neg (Nat.ne_of_lt hbelow)]
    unfold significand
    -- the least exponent is that of the first two values of the field
    by_cases hleast : x.magnitude / 2 ^ 52 = 0
    · have hsmall : x.magnitude % 2 ^ 52 = x.magnitude := by omega
      rw [if_pos hleast, if_pos hleast, hleast, hsmall]
      rfl
    · have hexponent : (-1074 : Int) + ((x.magnitude / 2 ^ 52 : Nat) - 1) =
          (x.magnitude / 2 ^ 52 - 1 : Nat) - 1074 := by omega
      rw [if_neg hleast, if_neg hleast, hexponent]

/-! ## Ranks -/

/-- The least positive number. -/
def leastPositive : ℚ := (2 : ℚ) ^ (-1074 : ℤ)

theorem leastPositive_pos : 0 < leastPositive := zpow_pos rfl _

/-- How many times the least positive number a rank is. -/
def signedUnits (r : ℤ) : ℤ := if r < 0 then -(units r.natAbs : ℤ) else units r.natAbs

theorem signedUnits_lt {r r' : ℤ} (hlt : r < r') : signedUnits r < signedUnits r' := by
  have hzero : units 0 = 0 := rfl
  unfold signedUnits
  by_cases hr' : r' < 0
  · -- both are below 0, where the larger magnitude is the smaller number
    have habs : units r'.natAbs < units r.natAbs := units_strictMono (by omega)
    rw [if_pos hr', if_pos (Int.lt_trans hlt hr')]
    omega
  · rw [if_neg hr']
    by_cases hr : r < 0
    · have hpos : units 0 < units r.natAbs := units_strictMono (by omega)
      rw [if_pos hr]
      omega
    · have habs : units r.natAbs < units r'.natAbs := units_strictMono (by omega)
      rw [if_neg hr]
      omega

/-- The number of a rank. -/
def ofRank (r : ℤ) : ExtendedRat :=
  if r = -(Format.binary64.infinityBits : ℤ) then ⊥
  else if r = Format.binary64.infinityBits then ⊤
  else .ofRat (signedUnits r * leastPositive)

/-- The rank of a number, from one infinity to the other. -/
def IsRank (r : ℤ) : Prop :=
  -(Format.binary64.infinityBits : ℤ) ≤ r ∧ r ≤ Format.binary64.infinityBits

theorem ofRank_lt {r r' : ℤ} (hr : IsRank r) (hr' : IsRank r') (hlt : r < r') :
    ofRank r < ofRank r' := by
  obtain ⟨hlow, -⟩ := hr
  obtain ⟨-, hhigh⟩ := hr'
  have hbot : r' ≠ -(Format.binary64.infinityBits : ℤ) := by omega
  have htop : r ≠ Format.binary64.infinityBits := by omega
  unfold ofRank
  rw [if_neg hbot, if_neg htop]
  split
  · -- minus infinity is below a finite number and below infinity
    split
    · exact WithBot.bot_lt_coe _
    · exact WithBot.bot_lt_coe _
  · split
    · exact WithBot.coe_lt_coe.mpr (WithTop.coe_lt_top _)
    · have hunits : (signedUnits r : ℚ) < signedUnits r' := Int.cast_lt.mpr (signedUnits_lt hlt)
      exact ExtendedRat.ofRat_lt.mpr (mul_lt_mul_of_pos_right hunits leastPositive_pos)

theorem ofRank_lt_iff {r r' : ℤ} (hr : IsRank r) (hr' : IsRank r') :
    ofRank r < ofRank r' ↔ r < r' := by
  constructor
  · intro h
    obtain hlt | rfl | hgt := Int.lt_trichotomy r r'
    · exact hlt
    · exact absurd h (lt_irrefl _)
    · exact absurd h (lt_asymm (ofRank_lt hr' hr hgt))
  · exact ofRank_lt hr hr'

theorem isRank_rank {x : Binary64} (h : x.isNaN = false) : IsRank x.rank := by
  have hle : x.magnitude ≤ Format.binary64.infinityBits := Nat.not_lt.mp (of_decide_eq_false h)
  unfold rank IsRank
  split
  · omega
  · omega

/-! ## The order of numbers -/

/-- The exponent of a magnitude counts from the least one. -/
theorem significand_mul_zpow (n : Nat) :
    (significand n : ℚ) * (2 : ℚ) ^ (((n / 2 ^ 52 - 1 : Nat) : ℤ) - 1074) =
      units n * leastPositive := by
  rw [sub_eq_add_neg, zpow_add₀ (by decide), zpow_natCast, ← mul_assoc, units, leastPositive]
  rw [Nat.cast_mul, Nat.cast_pow, Nat.cast_ofNat]

/-- A signed magnitude is a multiple of the least positive number. -/
theorem signed_mul_zpow (negative : Bool) (n : Nat) :
    ((if negative then -(significand n : ℤ) else significand n : ℤ) : ℚ) *
        (2 : ℚ) ^ (((n / 2 ^ 52 - 1 : Nat) : ℤ) - 1074) =
      signedUnits (if negative then -(n : ℤ) else n) * leastPositive := by
  have hunits : signedUnits (if negative then -(n : ℤ) else n) =
      if negative then -(units n : ℤ) else units n := by
    have hzero : units 0 = 0 := rfl
    unfold signedUnits
    cases negative with
    | true =>
      -- zero has no sign of its own
      obtain rfl | hpos := Nat.eq_zero_or_pos n
      · rfl
      · rw [if_pos rfl, if_pos (by omega), Int.natAbs_neg, Int.natAbs_natCast]
        rfl
    | false =>
      rw [if_neg Bool.false_ne_true, if_neg (by omega), Int.natAbs_natCast]
      rfl
  rw [hunits]
  cases negative with
  | true =>
    rw [if_pos rfl, if_pos rfl, Int.cast_neg, Int.cast_neg, neg_mul, neg_mul]
    exact congrArg Neg.neg (significand_mul_zpow n)
  | false =>
    rw [if_neg Bool.false_ne_true, if_neg Bool.false_ne_true]
    exact significand_mul_zpow n

theorem number?_of_isNaN {x : Binary64} (h : x.isNaN = true) : x.value.number? = none := by
  rw [value_eq, if_pos h]
  rfl

/-- A pattern stands for the number of its rank. -/
theorem number?_eq {x : Binary64} (h : x.isNaN = false) :
    x.value.number? = some (ofRank x.rank) := by
  have hpos : 0 < Format.binary64.infinityBits := by decide +kernel
  rw [value_eq, if_neg (Bool.eq_false_iff.mp h)]
  unfold ofRank rank
  by_cases hinf : x.magnitude = Format.binary64.infinityBits
  · rw [if_pos hinf, hinf]
    cases x.negative with
    | true =>
      rw [if_pos rfl, if_pos rfl]
      rfl
    | false =>
      rw [if_neg Bool.false_ne_true, if_neg (by omega), if_pos rfl]
      rfl
  · have hbot : (if x.negative then -(x.magnitude : ℤ) else x.magnitude) ≠
        -(Format.binary64.infinityBits : ℤ) := by split <;> omega
    have htop : (if x.negative then -(x.magnitude : ℤ) else x.magnitude) ≠
        Format.binary64.infinityBits := by split <;> omega
    rw [if_neg hinf, if_neg hbot, if_neg htop, Value.number?, signed_mul_zpow]

/-- The patterns that stand for a number are those that are told apart from no number. -/
theorem number?_eq_some {x : Binary64} {a : ExtendedRat} :
    x.value.number? = some a ↔ x.isNaN = false ∧ ofRank x.rank = a := by
  constructor
  · intro h
    obtain hx | hx := Bool.eq_false_or_eq_true x.isNaN
    · rw [number?_of_isNaN hx] at h
      contradiction
    · rw [number?_eq hx] at h
      exact ⟨hx, Option.some.inj h⟩
  · rintro ⟨hx, rfl⟩
    exact number?_eq hx

/-- One pattern is below another one if its number is. -/
theorem lt_iff_number (x y : Binary64) :
    x < y ↔ ∃ a b, x.value.number? = some a ∧ y.value.number? = some b ∧ a < b := by
  simp only [number?_eq_some]
  constructor
  · rintro ⟨hx, hy, hlt⟩
    exact ⟨_, _, ⟨hx, rfl⟩, ⟨hy, rfl⟩, ofRank_lt (isRank_rank hx) (isRank_rank hy) hlt⟩
  · rintro ⟨-, -, ⟨hx, rfl⟩, ⟨hy, rfl⟩, hlt⟩
    exact ⟨hx, hy, (ofRank_lt_iff (isRank_rank hx) (isRank_rank hy)).mp hlt⟩

/-- One pattern is at most another one if its number is. -/
theorem le_iff_number (x y : Binary64) :
    x ≤ y ↔ ∃ a b, x.value.number? = some a ∧ y.value.number? = some b ∧ a ≤ b := by
  simp only [number?_eq_some]
  constructor
  · rintro ⟨hx, hy, hle⟩
    exact ⟨_, _, ⟨hx, rfl⟩, ⟨hy, rfl⟩,
      not_lt.mp (mt (ofRank_lt_iff (isRank_rank hy) (isRank_rank hx)).mp (Int.not_lt.mpr hle))⟩
  · rintro ⟨-, -, ⟨hx, rfl⟩, ⟨hy, rfl⟩, hle⟩
    refine ⟨hx, hy, Int.not_lt.mp ?_⟩
    exact mt (ofRank_lt_iff (isRank_rank hy) (isRank_rank hx)).mpr (not_lt.mpr hle)

/-! ## Zero and one -/

/-- The value `0`. -/
def zero : Binary64 := ⟨0⟩

theorem number?_zero : zero.value.number? = some (.ofRat 0) := by
  have hvalue : zero.value = .finite false 0 (-1074) := by decide +kernel
  have hnumber : (((if false then -(0 : Nat) else (0 : Nat) : ℤ) : ℚ) * (2 : ℚ) ^ (-1074 : ℤ)) = 0 :=
    zero_mul _
  rw [hvalue, Value.number?, hnumber]

theorem number?_one : one.value.number? = some (.ofRat 1) := by
  have hvalue : one.value = .finite false (2 ^ 52) (-52) := by decide +kernel
  have hnumber : (((if false then -(2 ^ 52 : Nat) else (2 ^ 52 : Nat) : ℤ) : ℚ) *
      (2 : ℚ) ^ (-52 : ℤ)) = 1 := by decide +kernel
  rw [hvalue, Value.number?, hnumber]

end Binary64

end Statsd

/-!
# Statsd.Number.Binary — binary floating-point values

Sample rates, gauges and timings are binary floating-point numbers. Nothing
here depends on how a processor computes: a value is its bit pattern, and

* `Format.decode` reads a pattern as `m · 2^q`, an infinity or no number;
* `Format.ofRatio` rounds an exact quotient to the nearest value, a tie to the
  even one;
* `Binary64.Less` orders values by an integer rank, so that its laws are those
  of the integers: no pattern that is no number is below or above anything,
  and the two zeros have one rank.
-/

namespace Statsd

namespace Natural

/-- Powers as they are computed, whatever algebra is at hand besides. -/
scoped instance (priority := 2000) pow : Pow Nat Nat := instPowNat

end Natural

open Natural

/-- The widths of a binary interchange format. -/
structure Format where
  /-- How many bits of the significand are stored. -/
  fractionBits : Nat
  /-- How many bits the biased exponent has. -/
  exponentBits : Nat
deriving DecidableEq, Repr

/-- What a bit pattern stands for. -/
inductive Value where
  /-- No number. -/
  | nan
  | infinite (negative : Bool)
  /-- The value `m · 2^q`, with its sign kept apart so that both zeros are told apart. -/
  | finite (negative : Bool) (m : Nat) (q : Int)
deriving DecidableEq, Repr

namespace Format

/-- Double precision. -/
def binary64 : Format := ⟨52, 11⟩

/-- Single precision. -/
def binary32 : Format := ⟨23, 8⟩

/-- The biased exponent that marks infinities and patterns that are no number. -/
def specialExponent (F : Format) : Nat := 2 ^ F.exponentBits - 1

/-- The exponent of the least positive value: `-1074` in double precision. -/
def leastExponent (F : Format) : Int :=
  2 - (2 ^ (F.exponentBits - 1) : Nat) - F.fractionBits

/-- Read a bit pattern. -/
def decode (F : Format) (bits : Nat) : Value :=
  let fraction := bits % 2 ^ F.fractionBits
  let biased := bits / 2 ^ F.fractionBits % 2 ^ F.exponentBits
  let negative := bits / 2 ^ (F.fractionBits + F.exponentBits) % 2 == 1
  if biased = F.specialExponent then
    if fraction = 0 then .infinite negative else .nan
  else if biased = 0 then .finite negative fraction F.leastExponent
  else .finite negative (2 ^ F.fractionBits + fraction) (F.leastExponent + (biased - 1))

/-- The bit pattern of positive infinity. -/
def infinityBits (F : Format) : Nat := F.specialExponent * 2 ^ F.fractionBits

end Format

/-! ## Rounding an exact quotient -/

/-- The integer nearest to `n / d`; halfway between two, the even one. -/
def roundHalfEven (n d : Nat) : Nat :=
  let floor := n / d
  let rest := n % d
  if 2 * rest < d then floor
  else if d < 2 * rest then floor + 1
  else floor + floor % 2

/-- The quotient `n / d` measured in units of `2^e`, as a fraction again. -/
def inUnits (n d : Nat) (e : Int) : Nat × Nat :=
  (n * 2 ^ (-e).toNat, d * 2 ^ e.toNat)

namespace Format

/-- The exponent at which `n / d` has a full significand, and never below the
least exponent. -/
def exponentOf (F : Format) (n d : Nat) : Int :=
  let low : Int := Nat.log2 n - Nat.log2 d - (F.fractionBits + 1)
  let (a, b) := inUnits n d low
  max F.leastExponent (if a / b < 2 ^ (F.fractionBits + 1) then low else low + 1)

/-- The bit pattern of the value nearest to `n / d`, a tie going to the even
significand and anything too large to infinity. A significand that rounds up
to the next power of two carries into the exponent, as the two fields are
adjacent. -/
def ofRatio (F : Format) (n d : Nat) : Nat :=
  if n = 0 then 0
  else
    let e := F.exponentOf n d
    let (a, b) := inUnits n d e
    min F.infinityBits ((e - F.leastExponent).toNat * 2 ^ F.fractionBits + roundHalfEven a b)

end Format

/-! ## Double and single precision -/

/-- A double precision value, told apart by its bit pattern. -/
structure Binary64 where
  bits : UInt64
deriving DecidableEq, Repr

/-- A single precision value, told apart by its bit pattern. -/
structure Binary32 where
  bits : UInt32
deriving DecidableEq, Repr

/-- What the bit pattern stands for. -/
def Binary32.value (x : Binary32) : Value := Format.binary32.decode x.bits.toNat

namespace Binary64

/-- What the bit pattern stands for. -/
def value (x : Binary64) : Value := Format.binary64.decode x.bits.toNat

/-- The value nearest to `n / d`. -/
def ofRatio (n d : Nat) : Binary64 := ⟨(Format.binary64.ofRatio n d).toUInt64⟩

/-- The value `1`. -/
def one : Binary64 := ⟨0x3ff0000000000000⟩

/-- The weight of the sign bit, `2^63`. -/
def signBit : Nat := 0x8000000000000000

/-- The pattern without its sign: larger for a larger absolute value. -/
def magnitude (x : Binary64) : Nat := x.bits.toNat % signBit

/-- Whether the sign bit is set. -/
def negative (x : Binary64) : Bool := signBit ≤ x.bits.toNat

/-- Whether the pattern is no number: its magnitude is above that of infinity. -/
def isNaN (x : Binary64) : Bool := Format.binary64.infinityBits < x.magnitude

/-- The place of a number in the order of all numbers; both zeros have rank 0. -/
def rank (x : Binary64) : Int :=
  if x.negative then -(x.magnitude : Int) else x.magnitude

/-- Both are numbers, and the first is the smaller one. -/
def Less (x y : Binary64) : Prop :=
  x.isNaN = false ∧ y.isNaN = false ∧ x.rank < y.rank

/-- Both are numbers, and the first is not the larger one. -/
def AtMost (x y : Binary64) : Prop :=
  x.isNaN = false ∧ y.isNaN = false ∧ x.rank ≤ y.rank

instance : LT Binary64 := ⟨Less⟩
instance : LE Binary64 := ⟨AtMost⟩

instance (x y : Binary64) : Decidable (x < y) := inferInstanceAs (Decidable (_ ∧ _ ∧ _))
instance (x y : Binary64) : Decidable (x ≤ y) := inferInstanceAs (Decidable (_ ∧ _ ∧ _))

end Binary64

end Statsd

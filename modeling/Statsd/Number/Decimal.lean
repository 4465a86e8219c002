import Statsd.Number.Binary

/-!
# Statsd.Number.Decimal — numbers as text

A value in a line is a decimal text.

* An integer is written with its digits and, if negative, a sign
  (`Decimal.ofInt`); where the sign carries a meaning of its own it is always
  written (`Decimal.ofIntSigned`).
* A floating-point value is written with the shortest digits that read back as
  the same value. `Around` holds the reals that round to a value; the digits
  are those of a point of the coarsest decimal grid that meets them
  (`Around.shortest`), the nearest such point, and the even one of two that are
  equally near.
* `Layout` says which exponents are written positionally. A positional number
  always has a fraction, be it `.0`.
-/

namespace Statsd

open Natural

/-- Digits and a power of ten: `digits · 10^exponent`. -/
structure Decimal where
  digits : Nat
  exponent : Int
deriving DecidableEq, Repr

namespace Decimal

/-- The decimal digits of a natural number. -/
def digitsOf (n : Nat) : List Char := Nat.toDigits 10 n

/-- A natural number. -/
def ofNat (n : Nat) : String := String.ofList (digitsOf n)

/-- An integer, with a sign if it is negative. -/
def ofInt (n : Int) : String :=
  if n < 0 then "-" ++ ofNat n.natAbs else ofNat n.natAbs

/-- An integer, always with a sign; zero has a plus. -/
def ofIntSigned (n : Int) : String :=
  if n < 0 then ofInt n else "+" ++ ofInt n

/-- How many decimal digits `n` has; none for 0. -/
def length (n : Nat) : Nat :=
  if n = 0 then 0 else (digitsOf n).length

end Decimal

/-! ## The shortest digits of a value -/

/-- A positive value `mid / den` and the reals that round to it: those between
`low / den` and `high / den`, the two ends included iff `closed`. -/
structure Around where
  low : Nat
  mid : Nat
  high : Nat
  den : Nat
  closed : Bool
deriving Repr

namespace Around

/-- The reals that round to `m · 2^q` in a format: half the gap to either
neighbour. Below a power of two the gap is half as wide, except at the least
exponent. A tie rounds to the even significand, so an even one has both ends. -/
def ofBinary (F : Format) (m : Nat) (q : Int) : Around :=
  let below := if m = 2 ^ F.fractionBits ∧ F.leastExponent < q then 1 else 2
  let scale := 2 ^ (q - 2).toNat
  { low := (4 * m - below) * scale
    mid := 4 * m * scale
    high := (4 * m + 2) * scale
    den := 2 ^ (2 - q).toNat
    closed := m % 2 == 0 }

/-- The exponent `k` with `10^(k-1) ≤ mid / den < 10^k`. -/
def magnitude (a : Around) : Int :=
  if a.den ≤ a.mid then Decimal.length (a.mid / a.den)
  else 1 - (Decimal.length ((a.den - 1) / a.mid) : Nat)

/-- The same interval measured in units of `10^k`. -/
def onGrid (a : Around) (k : Int) : Around :=
  let up := 10 ^ (-k).toNat
  { a with
    low := a.low * up
    mid := a.mid * up
    high := a.high * up
    den := a.den * 10 ^ k.toNat }

/-- Whether the integer `n` lies in the interval. -/
def Contains (a : Around) (n : Nat) : Prop :=
  if a.closed then a.low ≤ n * a.den ∧ n * a.den ≤ a.high
  else a.low < n * a.den ∧ n * a.den < a.high

instance (a : Around) (n : Nat) : Decidable (a.Contains n) := by
  unfold Contains
  infer_instance

/-- The integer of the interval that is nearest to the value: one of the
value's two neighbours, if any. -/
def nearest? (a : Around) : Option Nat :=
  let floor := a.mid / a.den
  let nearer := roundHalfEven a.mid a.den
  if a.Contains nearer then some nearer
  else if a.Contains floor then some floor
  else if a.Contains (floor + 1) then some (floor + 1)
  else none

/-- Try the grids `10^k`, `10^(k-1)`, … until one has a point in the interval. -/
def search (a : Around) (k : Int) : Nat → Decimal
  | 0 => ⟨roundHalfEven (a.onGrid k).mid (a.onGrid k).den, k⟩
  | fuel + 1 =>
    match (a.onGrid k).nearest? with
    | some n => ⟨n, k⟩
    | none => search a (k - 1) fuel

/-- The shortest digits in the interval. Seventeen digits after the leading
power of ten tell any two double precision values apart, so the search ends
with a grid that has a point. -/
def shortest (a : Around) : Decimal :=
  a.search a.magnitude 17

end Around

/-! ## Positional and scientific notation -/

/-- Where positional notation ends: a number below `10^most` and not below
`10^least` is written positionally. -/
structure Layout where
  least : Int
  most : Int
deriving DecidableEq, Repr

namespace Layout

/-- Double precision: from `0.00001` up to sixteen digits before the point. -/
def double : Layout := ⟨-5, 16⟩

/-- Single precision: from `0.000001` up to thirteen digits before the point. -/
def single : Layout := ⟨-6, 13⟩

/-- So many zeros. -/
def zeros (n : Nat) : List Char := List.replicate n '0'

/-- The digits with a point behind the first, if there are more. -/
def pointed : List Char → List Char
  | [] => []
  | [c] => [c]
  | c :: rest => c :: '.' :: rest

/-- Write `digits · 10^exponent`. -/
def render (l : Layout) (d : Decimal) : List Char :=
  let ds := Decimal.digitsOf d.digits
  let point : Int := ds.length + d.exponent
  if 0 ≤ d.exponent ∧ point ≤ l.most then ds ++ zeros d.exponent.toNat ++ ['.', '0']
  else if 0 < point ∧ point ≤ l.most then ds.take point.toNat ++ '.' :: ds.drop point.toNat
  else if l.least < point ∧ point ≤ 0 then '0' :: '.' :: (zeros (-point).toNat ++ ds)
  else pointed ds ++ 'e' :: (Decimal.ofInt (point - 1)).toList

/-- Write a value of a format. A zero keeps its sign, and what is no number has none. -/
def text (l : Layout) (F : Format) : Value → String
  | .nan => "NaN"
  | .infinite negative => if negative then "-inf" else "inf"
  | .finite negative m q =>
    let unsigned := if m = 0 then ['0', '.', '0'] else l.render (Around.ofBinary F m q).shortest
    String.ofList (if negative then '-' :: unsigned else unsigned)

end Layout

/-- The text of a double precision value. -/
def Binary64.text (x : Binary64) : String := Layout.double.text .binary64 x.value

/-- The text of a single precision value. -/
def Binary32.text (x : Binary32) : String := Layout.single.text .binary32 x.value

end Statsd

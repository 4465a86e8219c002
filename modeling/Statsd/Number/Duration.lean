import Statsd.Number.Binary

/-!
# Statsd.Number.Duration — spans of time

A duration counts whole nanoseconds. Its length in milliseconds is a double
precision value, computed step by step with a rounding after each: seconds,
plus nanoseconds divided by `10^9`, times `1000`.
-/

namespace Statsd

/-- A span of time: seconds, and nanoseconds below `10^9`. -/
structure Duration where
  seconds : Nat
  nanos : Nat
deriving DecidableEq, Repr

/-- The absolute value of a finite number as a quotient; 0 for anything else. -/
def Value.ratio : Value → Nat × Nat
  | .finite _ m q => inUnits m 1 (-q)
  | _ => (0, 1)

namespace Binary64

/-- The sum of two numbers that are not negative, rounded. -/
def add (x y : Binary64) : Binary64 :=
  let (a, b) := x.value.ratio
  let (c, d) := y.value.ratio
  ofRatio (a * d + c * b) (b * d)

/-- The product of two numbers that are not negative, rounded. -/
def mul (x y : Binary64) : Binary64 :=
  let (a, b) := x.value.ratio
  let (c, d) := y.value.ratio
  ofRatio (a * c) (b * d)

end Binary64

namespace Duration

/-- How many nanoseconds a second has. -/
def nanosPerSecond : Nat := 1000000000

/-- A count of nanoseconds as a duration. -/
def ofNanos (n : Nat) : Duration := ⟨n / nanosPerSecond, n % nanosPerSecond⟩

/-- The length in milliseconds. -/
def millis (d : Duration) : Binary64 :=
  ((Binary64.ofRatio d.seconds 1).add (Binary64.ofRatio d.nanos nanosPerSecond)).mul
    (Binary64.ofRatio 1000 1)

end Duration

end Statsd

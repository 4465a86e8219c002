import Statsd.Number.Binary

/-!
# Statsd.Sampling — which observations are sent

An observation with a rate below 1 is sent if a number drawn uniformly from
`[0, 1)` is below the rate.

* The generator adds a constant to a 64-bit state and mixes the new state by
  one 128-bit product (`Generator.next`, `mix`).
* The 63 upper bits of the mixed word are a fraction of `2^63`, rounded to a
  double precision value (`fraction`). Words next to the top round up to 1;
  they are rejected and the generator moves on (`Generator.draw`).
* The states form one cycle, as the constant is odd. From every state but 0 a
  rejected word brings the generator closer to state 0, and the word after
  state 0 is accepted, so a draw always ends.
* A rate of 1 or more is decided without a draw (`sampled`).
-/

namespace Statsd

/-- The random source of one caller: a 64-bit word. -/
structure Generator where
  state : UInt64
deriving DecidableEq, Repr

namespace Generator

/-- What every step adds to the state. -/
def increment : UInt64 := 0x2d358dccaa6c78a5

/-- What the state is combined with before it is multiplied with itself. -/
def mask : UInt64 := 0x8bb84b93962eacc9

/-- The exclusive or of the two halves of `s · (s xor mask)`. -/
def mix (s : UInt64) : UInt64 :=
  let product := s.toNat * (s ^^^ mask).toNat
  UInt64.ofNat product ^^^ UInt64.ofNat (product >>> 64)

/-- The upper 63 bits of a word as a fraction of `2^63`, rounded to nearest. -/
def fraction (word : UInt64) : Binary64 :=
  Binary64.ofRatio (word.toNat / 2) 0x8000000000000000

/-- Move on to the next state. -/
def next (g : Generator) : Generator := ⟨g.state + increment⟩

/-- The word that the generator gives in its present state. -/
def word (g : Generator) : UInt64 := mix g.state

/-- The inverse of the increment modulo `2^64`. -/
def incrementInverse : UInt64 := 0x32e25c49d2beaf2d

/-- How many steps lead from the present state to state 0. -/
def distance (g : Generator) : Nat := (-(g.state * incrementInverse)).toNat

/-- A step brings the generator one closer to state 0, unless it is there. -/
theorem distance_next {g : Generator} (h : g.state ≠ 0) : g.next.distance < g.distance := by
  rcases g with ⟨s⟩
  have hs : s * incrementInverse ≠ 0 := by
    intro h0
    apply h
    calc s = s * (incrementInverse * increment) := by
          rw [show incrementInverse * increment = 1 by decide, UInt64.mul_one]
      _ = 0 := by rw [← UInt64.mul_assoc, h0, UInt64.zero_mul]
  have hstep : -((s + increment) * incrementInverse) = -(s * incrementInverse) - 1 := by
    rw [UInt64.add_mul, show increment * incrementInverse = 1 by decide, UInt64.neg_add]
  simp only [distance, next, hstep]
  generalize hu : -(s * incrementInverse) = u
  have hu0 : u ≠ 0 := by
    intro h0
    apply hs
    rw [← @UInt64.neg_neg (s * incrementInverse), hu, h0]
    rfl
  have hpos : 1 ≤ u.toNat := by
    have : u.toNat ≠ 0 := fun h0 => hu0 (UInt64.toNat_inj.mp h0)
    omega
  have hle : (1 : UInt64) ≤ u := UInt64.le_iff_toNat_le.mpr hpos
  rw [UInt64.toNat_sub_of_le _ _ hle]
  have : (1 : UInt64).toNat = 1 := rfl
  omega

/-- The number after state 0 is not rejected. -/
theorem fraction_after_zero : fraction (next ⟨0⟩).word < Binary64.one := by
  decide +kernel

/-- Draw a number from `[0, 1)`: the fraction of the first coming word that is below 1. -/
def draw (g : Generator) : Binary64 × Generator :=
  if fraction g.next.word < Binary64.one then (fraction g.next.word, g.next)
  else draw g.next
termination_by g.distance
decreasing_by
  rename_i rejected
  apply distance_next
  intro hs
  apply rejected
  rcases g with ⟨s⟩
  subst hs
  exact fraction_after_zero

end Generator

/-- Whether an observation with this rate is sent, and the generator
afterwards. A rate of 1 or more needs no draw; a rate that is no number is
never above the number drawn. -/
def sampled (rate : Binary64) (g : Generator) : Bool × Generator :=
  if Binary64.one ≤ rate then (true, g)
  else
    let (x, g) := g.draw
    (decide (x < rate), g)

/-- Whether a line names its rate: iff the rate is below 1. -/
def namesRate (rate : Binary64) : Bool := decide (rate < Binary64.one)

end Statsd

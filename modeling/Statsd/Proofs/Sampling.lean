import Mathlib.Logic.Function.Iterate
import Statsd.Proofs.Number.Order
import Statsd.Proofs.Number.Rounding
import Statsd.Sampling

/-!
# Statsd.Proofs.Sampling — a draw ends, and a rate is compared with it

* **Words**: a word is rejected exactly if it is one of the 1024 at the top
  (`Generator.fraction_cases`), as just their fractions are rounded to 1.
* **Step**: from a state whose word is rejected the generator comes one closer
  to state 0, and the word after state 0 is accepted.
* **Run**: so a draw is the fraction of the first word that is not rejected, and
  no more words than the distance to state 0 are rejected before it
  (`Generator.draw_first`).
* A rate is 1 or more, and then nothing is drawn, or it decides by its order to
  the number drawn (`sampling_decision`).
-/

namespace Statsd

open Natural

namespace Generator

theorem fraction_eq (w : UInt64) : fraction w = Binary64.ofRatio (w.toNat / 2) (2 ^ 63) := rfl

/-- A word is rejected exactly if its fraction is rounded up to 1: there are 1024 of these. -/
theorem fraction_cases (w : UInt64) :
    (w.toNat < 2 ^ 64 - 2 ^ 10 ∧ fraction w < Binary64.one) ∨
      (2 ^ 64 - 2 ^ 10 ≤ w.toNat ∧ fraction w = Binary64.one) := by
  -- the last bit of the word has no say, so each fraction stands for two words
  have hword : w.toNat < 2 ^ 64 := UInt64.toNat_lt w
  have hhalf : w.toNat / 2 < 2 ^ 63 := by omega
  obtain ⟨hnumber, hrank⟩ := Binary64.rank_ofRatio (w.toNat / 2) (2 ^ 63)
  rw [fraction_eq]
  obtain ⟨hlow, hless⟩ | ⟨hhigh, hone⟩ := Format.ofRatio_near_one hhalf
  · left
    have hrankOne : Binary64.one.rank = ((1023 * 2 ^ 52 : Nat) : Int) := by decide +kernel
    refine ⟨by omega, hnumber, by decide +kernel, ?_⟩
    rw [hrank, hrankOne]
    exact Int.ofNat_lt.mpr hless
  · right
    refine ⟨by omega, ?_⟩
    rw [Binary64.ofRatio, hone]
    decide

/-- A draw is the fraction of the first word that is not rejected. The rejected
words before it are no more than there are steps to state 0. -/
theorem draw_first (g : Generator) :
    ∃ n ≤ g.distance,
      (∀ k < n, 2 ^ 64 - 2 ^ 10 ≤ (next^[k + 1] g).word.toNat) ∧
      (next^[n + 1] g).word.toNat < 2 ^ 64 - 2 ^ 10 ∧
      g.draw = (fraction (next^[n + 1] g).word, next^[n + 1] g) := by
  -- by the recursion of the draw, one word at a time
  induction g using Generator.draw.induct with
  | case1 g haccept =>
    refine ⟨0, Nat.zero_le _, ?_, ?_, ?_⟩
    · intro k hk
      omega
    · obtain ⟨hlow, -⟩ | ⟨-, hone⟩ := fraction_cases g.next.word
      · exact hlow
      · rw [hone] at haccept
        exact absurd haccept.2.2 (Int.lt_irrefl _)
    · rw [draw, if_pos haccept, Function.iterate_one]
  | case2 g hreject ih =>
    obtain ⟨n, hn, hbefore, haccepted, hdraw⟩ := ih
    -- the word after state 0 is accepted, so this is another state
    have hstate : g.state ≠ 0 := by
      intro hzero
      obtain ⟨s⟩ := g
      subst hzero
      exact hreject fraction_after_zero
    have hcloser := distance_next hstate
    refine ⟨n + 1, by omega, ?_, ?_, ?_⟩
    · -- this word, and then those before the draw from the next state
      intro k hk
      obtain _ | k := k
      · obtain ⟨-, hless⟩ | ⟨hhigh, -⟩ := fraction_cases g.next.word
        · exact absurd hless hreject
        · exact hhigh
      · rw [Function.iterate_succ_apply]
        exact hbefore k (by omega)
    · rw [Function.iterate_succ_apply]
      exact haccepted
    · rw [draw, if_neg hreject, Function.iterate_succ_apply]
      exact hdraw

/-- What is drawn is a number from `[0, 1)`. -/
theorem draw_mem (g : Generator) : Binary64.zero ≤ g.draw.1 ∧ g.draw.1 < Binary64.one := by
  obtain ⟨n, -, -, hlow, hdraw⟩ := g.draw_first
  have hless : g.draw.1 < Binary64.one := by
    rw [hdraw]
    obtain ⟨-, hless⟩ | ⟨hhigh, -⟩ := fraction_cases (next^[n + 1] g).word
    · exact hless
    · omega
  refine ⟨⟨by decide +kernel, hless.1, ?_⟩, hless⟩
  have hrank : Binary64.zero.rank = 0 := by decide +kernel
  rw [hrank, hdraw]
  exact (Binary64.rank_ofRatio _ _).2 ▸ Int.natCast_nonneg _

/-- No number below 0 is drawn. -/
theorem draw_rank (g : Generator) : 0 ≤ g.draw.1.rank := g.draw_mem.1.2.2

end Generator

/-! ## The decision -/

section Decision

variable {rate rate' : Binary64}

/-- A rate that is not 1 or more is compared with the number drawn. -/
theorem sampled_of_not_one_le (h : ¬ Binary64.one ≤ rate) (g : Generator) :
    (sampled rate g).2 = g.draw.2 ∧ ((sampled rate g).1 = true ↔ g.draw.1 < rate) := by
  cases hdraw : g.draw with
  | mk x after =>
    -- the pair has a name, as a draw is not to be opened
    have hsampled : sampled rate g = (decide (x < rate), after) := by rw [sampled, if_neg h, hdraw]
    rw [hsampled]
    exact ⟨rfl, decide_eq_true_iff⟩

/-- Nothing is sent at a rate that is not above 0. -/
theorem sampled_of_not_zero_lt (h : ¬ Binary64.zero < rate) (g : Generator) :
    sampled rate g = (false, g.draw.2) := by
  obtain ⟨⟨hzero, -, hlow⟩, -⟩ := g.draw_mem
  have hpos : Binary64.zero.rank < Binary64.one.rank := by decide +kernel
  have hone : ¬ Binary64.one ≤ rate := by
    rintro ⟨-, hrate, hle⟩
    exact h ⟨hzero, hrate, Int.lt_of_lt_of_le hpos hle⟩
  obtain ⟨hstate, hsent⟩ := sampled_of_not_one_le hone g
  have hnot : (sampled rate g).1 = false := by
    rw [← Bool.not_eq_true, hsent]
    rintro ⟨-, hrate, hless⟩
    exact h ⟨hzero, hrate, Int.lt_of_le_of_lt hlow hless⟩
  rw [← hnot, ← hstate]

/-- What is sent at a rate is sent at a larger one. -/
theorem sampled_mono (h : rate ≤ rate') {g : Generator} (hsent : (sampled rate g).1 = true) :
    (sampled rate' g).1 = true := by
  obtain ⟨-, hnumber, hle⟩ := h
  by_cases hlarge : Binary64.one ≤ rate'
  · rw [sampled, if_pos hlarge]
  · -- the smaller rate is not 1 or more either, and both are compared with one number
    have hsmall : ¬ Binary64.one ≤ rate := by
      rintro ⟨hone, -, hle'⟩
      exact hlarge ⟨hone, hnumber, Int.le_trans hle' hle⟩
    obtain ⟨hdrawn, -, hless⟩ := (sampled_of_not_one_le hsmall g).2.mp hsent
    exact (sampled_of_not_one_le hlarge g).2.mpr ⟨hdrawn, hnumber, Int.lt_of_lt_of_le hless hle⟩

/-- The rates that are 1 or more. -/
theorem Binary64.one_le_iff :
    Binary64.one ≤ rate ↔ ∃ r, rate.value.number? = some r ∧ ExtendedRat.ofRat 1 ≤ r := by
  rw [Binary64.le_iff_number]
  constructor
  · rintro ⟨a, r, ha, hr, hle⟩
    rw [Binary64.number?_one] at ha
    exact ⟨r, hr, Option.some.inj ha ▸ hle⟩
  · rintro ⟨r, hr, hle⟩
    exact ⟨_, r, Binary64.number?_one, hr, hle⟩

end Decision

/-- The number drawn, and how it decides. -/
theorem Generator.draw_number (g : Generator) :
    ∃ u : ℚ, g.draw.1.value.number? = some (.ofRat u) ∧ 0 ≤ u ∧ u < 1 ∧
      ∀ rate : Binary64, g.draw.1 < rate ↔
        ∃ r, rate.value.number? = some r ∧ ExtendedRat.ofRat u < r := by
  obtain ⟨hzero, hone⟩ := g.draw_mem
  -- both comparisons are of one number, with 0 and with 1
  obtain ⟨a, x, ha, hx, hlow⟩ := (Binary64.le_iff_number _ _).mp hzero
  obtain ⟨y, b, hy, hb, hhigh⟩ := (Binary64.lt_iff_number _ _).mp hone
  have hax : ExtendedRat.ofRat 0 = a := Option.some.inj (Binary64.number?_zero.symm.trans ha)
  have hby : ExtendedRat.ofRat 1 = b := Option.some.inj (Binary64.number?_one.symm.trans hb)
  have hxy : x = y := Option.some.inj (hx.symm.trans hy)
  subst hax hby hxy
  obtain ⟨u, rfl, hu, hu'⟩ := ExtendedRat.exists_ofRat hlow hhigh
  refine ⟨u, hx, hu, hu', ?_⟩
  intro rate
  rw [Binary64.lt_iff_number]
  constructor
  · rintro ⟨x, r, hx', hr, hlt⟩
    exact ⟨r, hr, Option.some.inj (hx.symm.trans hx') ▸ hlt⟩
  · rintro ⟨r, hr, hlt⟩
    exact ⟨_, r, hx, hr, hlt⟩

/-- **The decision on a rate, from any state of the random source.** A draw ends
with the first word whose fraction is not rounded up to 1, after as many words
as there are steps to state 0 at most, and gives a number from `[0, 1)`.

* A rate of 1 or more, infinity among them, is decided without a draw.
* Any other rate leaves the source where the draw does, whatever the rate is,
  and the metric is sent exactly if the number drawn is below the rate. So it is
  not sent at a rate that is no number, is 0 or is negative.
* What is sent at a rate is sent at every rate that is not smaller. -/
theorem sampling_decision (g : Generator) :
    ∃ (n : Nat) (u : ℚ),
      n ≤ g.distance ∧
      (∀ k < n, Generator.fraction (Generator.next^[k + 1] g).word = Binary64.one) ∧
      g.draw = (Generator.fraction (Generator.next^[n + 1] g).word, Generator.next^[n + 1] g) ∧
      g.draw.1.value.number? = some (.ofRat u) ∧ 0 ≤ u ∧ u < 1 ∧
      (∀ rate, (∃ r, rate.value.number? = some r ∧ ExtendedRat.ofRat 1 ≤ r) →
        sampled rate g = (true, g)) ∧
      (∀ rate, (¬ ∃ r, rate.value.number? = some r ∧ ExtendedRat.ofRat 1 ≤ r) →
        (sampled rate g).2 = Generator.next^[n + 1] g ∧
        ((sampled rate g).1 = true ↔
          ∃ r, rate.value.number? = some r ∧ ExtendedRat.ofRat u < r)) ∧
      (∀ rate, (∀ r, rate.value.number? = some r → r ≤ ExtendedRat.ofRat 0) →
        sampled rate g = (false, Generator.next^[n + 1] g)) ∧
      (∀ rate rate' r r', rate.value.number? = some r → rate'.value.number? = some r' → r ≤ r' →
        (sampled rate g).1 = true → (sampled rate' g).1 = true) := by
  obtain ⟨n, hn, hbefore, -, hdraw⟩ := g.draw_first
  obtain ⟨u, hu, hzero, hone, hless⟩ := g.draw_number
  have hafter : g.draw.2 = Generator.next^[n + 1] g := by rw [hdraw]
  refine ⟨n, u, hn, ?_, hdraw, hu, hzero, hone, ?_, ?_, ?_, ?_⟩
  · -- the words that are rejected
    intro k hk
    have hhigh := hbefore k hk
    obtain ⟨hlow, -⟩ | ⟨-, hup⟩ := Generator.fraction_cases (Generator.next^[k + 1] g).word
    · omega
    · exact hup
  · -- rates of 1 or more
    intro rate h
    rw [sampled, if_pos (Binary64.one_le_iff.mpr h)]
  · -- all others
    intro rate h
    obtain ⟨hstate, hsent⟩ := sampled_of_not_one_le (mt Binary64.one_le_iff.mp h) g
    exact ⟨hstate.trans hafter, hsent.trans (hless rate)⟩
  · -- among them those that are not above 0
    intro rate h
    have hnot : ¬ Binary64.zero < rate := by
      rw [Binary64.lt_iff_number]
      rintro ⟨a, r, ha, hr, hlt⟩
      rw [Binary64.number?_zero] at ha
      exact absurd (h r hr) (not_le.mpr (Option.some.inj ha ▸ hlt))
    rw [sampled_of_not_zero_lt hnot, hafter]
  · intro rate rate' r r' hr hr' hle hsent
    exact sampled_mono ((Binary64.le_iff_number _ _).mpr ⟨r, r', hr, hr', hle⟩) hsent

/-- From state 0: at infinity, at no number, and at 0.75 and 0.875, both above the
number drawn. -/
theorem sampling_decision_from_zero :
    sampled ⟨0x7ff0000000000000⟩ ⟨0⟩ = (true, ⟨0⟩) ∧
    sampled ⟨0x7ff8000000000000⟩ ⟨0⟩ = (false, Generator.next ⟨0⟩) ∧
    (sampled ⟨0x3fe8000000000000⟩ ⟨0⟩).1 = true ∧
    (sampled ⟨0x3fec000000000000⟩ ⟨0⟩).1 = true := by
  have hsent : (sampled ⟨0x3fe8000000000000⟩ ⟨0⟩).1 = true := by
    rw [(sampled_of_not_one_le (by decide +kernel) ⟨0⟩).2, Generator.draw,
      if_pos Generator.fraction_after_zero]
    decide +kernel
  obtain ⟨n, u, hn, -, -, -, -, -, hcertain, -, hnever, hmono⟩ := sampling_decision ⟨0⟩
  -- the word after state 0 is the first one
  have hdistance : Generator.distance ⟨0⟩ = 0 := by decide
  obtain rfl : n = 0 := by omega
  refine ⟨?_, ?_, hsent, ?_⟩
  · exact hcertain _ ⟨⊤, by decide +kernel, le_top⟩
  · apply hnever
    intro r hr
    have hnone : (⟨0x7ff8000000000000⟩ : Binary64).value.number? = none := by decide +kernel
    rw [hnone] at hr
    contradiction
  · exact hmono _ _ (.ofRat (3 / 4)) (.ofRat (7 / 8)) (by decide +kernel)
      (by decide +kernel) (by decide +kernel) hsent

end Statsd

import Statsd.Proofs.Settings

/-!
# Statsd.Proofs.Capacity — sizes at the far end of a word

Sizes are 64-bit words. A buffer has at most `maxBuffer` bytes, half of what a
word can count, but a batch size may be any word.

* **Sums**: the size of what has been joined, a line feed and a message never
  come to more than a word, so the test whether the message fits decides on words
  as it does on numbers (`Batch.fitsWord_eq`). It is tight: with two buffers of
  the largest size it comes to the largest word.
* **Buffers**: the memory for a batch is asked for last, and only for a client
  with a link. A larger batch than a buffer can be is not checked for before, so
  there building gives no answer (`Config.build_exhausted_iff`). This is the only
  way for it not to give one, as long as the allocator grants what a buffer can be.
  A refusal ends the process and is left out of `BuildResult`.
-/

namespace Statsd

open Net (Host)

/-! ## Sums of sizes -/

/-- Two buffers and a line feed are counted by a word. -/
theorem two_buffers_lt {a b : Nat} (ha : a ≤ maxBuffer) (hb : b ≤ maxBuffer) :
    a + 1 + b < UInt64.size := by
  unfold maxBuffer at ha hb
  unfold UInt64.size
  omega

/-- One byte more would not be. -/
example : maxBuffer + 1 + maxBuffer + 1 = UInt64.size := rfl

theorem toNat_two_buffers {a b : Nat} (ha : a ≤ maxBuffer) (hb : b ≤ maxBuffer) :
    (UInt64.ofNat a + 1 + UInt64.ofNat b).toNat = a + 1 + b := by
  have hsum : UInt64.ofNat a + 1 + UInt64.ofNat b = UInt64.ofNat (a + 1 + b) := by
    rw [UInt64.ofNat_add, UInt64.ofNat_add]
    rfl
  rw [hsum, UInt64.toNat_ofNat_of_lt' (two_buffers_lt ha hb)]

namespace Batch

/-- Whether a message fits, with sizes as words, whose sum may wrap. -/
def fitsWord (b : Batch) (limit : UInt64) (m : Packet) : Bool :=
  b.isEmpty || UInt64.ofNat b.data.size + 1 + UInt64.ofNat m.data.size ≤ limit

/-- No sum wraps: the test on words is the test on numbers. -/
theorem fitsWord_eq {b : Batch} {m : Packet} (hb : b.data.size ≤ maxBuffer)
    (hm : m.data.size ≤ maxBuffer) (limit : UInt64) :
    b.fitsWord limit m = b.fits limit.toNat m := by
  unfold fitsWord fits
  simp only [UInt64.le_iff_toNat_le, toNat_two_buffers hb hm]

end Batch

/-! ## Memory for the batch -/

namespace Config

theorem overLink_exhausted_iff (c : Config) (link : Link) (draws : Generator) :
    Session.overLink c link draws = .exhausted ↔ maxBuffer < (c.batchSize.getD 0).toNat := by
  unfold Session.overLink
  split
  · exact iff_of_true rfl ‹_›
  · exact iff_of_false BuildResult.noConfusion ‹_›

/-- Building gives no answer exactly if nothing is wrong, there is a link to a
target, and the batch is larger than a buffer can be. -/
theorem build_exhausted_iff (c : Config) (h : Host) (draws : Generator) :
    (c.build h draws).2 = .exhausted ↔
      c.faults h = [] ∧ c.backend ≠ .discard ∧ c.HasSocket h ∧
        maxBuffer < (c.batchSize.getD 0).toNat := by
  have hbuilds := build_builds c h draws
  generalize c.build h draws = built at hbuilds ⊢
  cases hbuilds with
  | fault hfault =>
    refine iff_of_false BuildResult.noConfusion ?_
    rintro ⟨hsound, -⟩
    rw [hsound] at hfault
    contradiction
  | noSocket hsound hbackend hresolve hfailed =>
    refine iff_of_false BuildResult.noConfusion ?_
    rintro ⟨-, -, hsocket, -⟩
    rw [hsocket _ _ hbackend hresolve] at hfailed
    contradiction
  | discard hsound hbackend =>
    refine iff_of_false BuildResult.noConfusion ?_
    rintro ⟨-, hother, -⟩
    exact hother hbackend
  | link hsound hbackend hsocket hlink =>
    rw [overLink_exhausted_iff]
    constructor
    · intro hlarge
      exact ⟨hsound, hbackend, hsocket, hlarge⟩
    · rintro ⟨-, -, -, hlarge⟩
      exact hlarge

/-- **Building gives an answer.** With every value of every setting, on every host,
and with memory for every batch that a buffer can hold:

* building a client gives no answer exactly if nothing is wrong, there is a link
  to a target, and the batch is larger than a buffer can be;
* so with a batch up to this size, or none, it gives a client or an error;
* and the test whether a message fits never wraps, for any two buffers that can
  be, so it decides on words as it does on numbers. -/
theorem build_answers (c : Config) (h : Host) (draws : Generator) :
    ((c.build h draws).2 = .exhausted ↔
      c.faults h = [] ∧ c.backend ≠ .discard ∧ c.HasSocket h ∧
        maxBuffer < (c.batchSize.getD 0).toNat) ∧
    ((c.batchSize.getD 0).toNat ≤ maxBuffer →
      (∃ s, (c.build h draws).2 = .ready s) ∨ ∃ e, (c.build h draws).2 = .refused e) ∧
    ∀ (b : Batch) (m : Packet) (limit : UInt64),
      b.data.size ≤ maxBuffer → m.data.size ≤ maxBuffer →
        b.data.size + 1 + m.data.size < UInt64.size ∧
          b.fitsWord limit m = b.fits limit.toNat m := by
  refine ⟨build_exhausted_iff c h draws, ?_, ?_⟩
  · intro hsize
    cases hbuilt : (c.build h draws).2 with
    | ready s => exact Or.inl ⟨s, rfl⟩
    | refused e => exact Or.inr ⟨e, rfl⟩
    | exhausted =>
      obtain ⟨-, -, -, hlarge⟩ := (build_exhausted_iff c h draws).mp hbuilt
      exact absurd hsize (Nat.not_le.mpr hlarge)
  · intro b m limit hb hm
    exact ⟨two_buffers_lt hb hm, Batch.fitsWord_eq hb hm limit⟩

/-- A batch of the size of the largest datagram is answered. With 65500 bytes in it
a message of six bytes still fits, and one of seven does not. -/
theorem build_answers_largest :
    let c := (default : Config).set (.batchSize 65507)
    let zeros (size : Nat) : ByteArray := ⟨Array.replicate size 0⟩
    let buffered : Batch := ⟨zeros 65500, 1⟩
    ((∃ s, (c.build Host.loopback ⟨0⟩).2 = .ready s) ∨
        ∃ e, (c.build Host.loopback ⟨0⟩).2 = .refused e) ∧
      buffered.data.size = 65500 ∧
      buffered.fitsWord 65507 ⟨zeros 6, 1⟩ = true ∧
      buffered.fitsWord 65507 ⟨zeros 7, 1⟩ = false := by
  intro c zeros buffered
  have hzeros : ∀ size, (zeros size).size = size := fun _ => Array.size_replicate
  obtain ⟨-, hanswer, hfits⟩ := build_answers c Host.loopback ⟨0⟩
  have hsize : (c.batchSize.getD 0).toNat ≤ maxBuffer := by decide
  have hbuffered : buffered.data.size ≤ maxBuffer := by
    rw [hzeros]
    decide
  have hword : ∀ size, size ≤ maxBuffer → buffered.fitsWord 65507 ⟨zeros size, 1⟩ =
      decide (65500 + 1 + size ≤ 65507) := by
    intro size hmessage
    have hfilled : (zeros size).size ≤ maxBuffer := (hzeros size).trans_le hmessage
    rw [(hfits buffered ⟨zeros size, 1⟩ 65507 hbuffered hfilled).2, Batch.fits, hzeros, hzeros]
    rfl
  exact ⟨hanswer hsize, hzeros 65500, hword 6 (by decide), hword 7 (by decide)⟩

/-- One byte more than a buffer can have passes the checks, and building gives no
answer. -/
theorem larger_batch_exhausted :
    let c := ((default : Config).set (.backend (.stream localTarget))).set
      (.batchSize 0x8000000000000000)
    c.batchSize ≠ some 0 ∧ c.sendTimeout ≠ 0 ∧ (c.build Host.loopback ⟨0⟩).2 = .exhausted := by
  intro c
  have hbatch : c.batchSize ≠ some 0 := by decide
  have htimeout : c.sendTimeout ≠ 0 := by decide
  refine ⟨hbatch, htimeout, ?_⟩
  rw [build_stream (c := c) ⟨0⟩ rfl rfl resolve_local hbatch htimeout, overLink_exhausted_iff]
  decide

end Config

end Statsd

import Statsd.Proofs.Batch.Partition

/-!
# Statsd.Proofs.Sink.Tally — the counters as sums

The counters wrap, the numbers that they stand for do not. Here each counter of
a sink is the 64-bit image of a sum over what has happened:

* `Attempt.delivered` and `Attempt.lost` are the packets that went out and the
  others; `lineCount` is what they hold.
* **Counters**: `handleAll_counters` gives all four after any requests.
* **Lines**: `Partition.lines` says that no request makes or loses a line: what
  is attempted and what is kept is what was taken.
-/

namespace Statsd

/-! ## Lines of packets -/

/-- Joining messages keeps their lines. -/
theorem lineCount_join (groups : List (List Packet)) :
    lineCount (groups.map Packet.join) = lineCount groups.flatten := by
  induction groups with
  | nil => rfl
  | cons g groups ih =>
      rw [List.map_cons, lineCount, List.flatten_cons, lineCount_append, ih]
      rfl

/-- Packets that hold a line each are no more than their lines. -/
theorem length_le_lineCount {ps : List Packet} (h : ∀ p ∈ ps, 0 < p.lines) :
    ps.length ≤ lineCount ps := by
  induction ps with
  | nil => exact Nat.le_refl 0
  | cons p ps ih =>
      have hp : 0 < p.lines := h p (List.mem_cons_self ..)
      have hps : ps.length ≤ lineCount ps := ih fun q hq => h q (List.mem_cons_of_mem p hq)
      rw [lineCount, List.length_cons]
      omega

/-! ## Attempts by their outcome -/

namespace Attempt

/-- The packets that went out, in order. -/
def delivered (attempts : List Attempt) : List Packet :=
  (attempts.filter (·.failure?.isNone)).map (·.packet)

/-- The packets that did not go out, in order. -/
def lost (attempts : List Attempt) : List Packet :=
  (attempts.filter (·.failure?.isSome)).map (·.packet)

theorem delivered_append (as as' : List Attempt) :
    delivered (as ++ as') = delivered as ++ delivered as' := by
  simp only [delivered, List.filter_append, List.map_append]

theorem lost_append (as as' : List Attempt) : lost (as ++ as') = lost as ++ lost as' := by
  simp only [lost, List.filter_append, List.map_append]

theorem delivered_cons (a : Attempt) (as : List Attempt) :
    delivered (a :: as) = if a.failure?.isNone then a.packet :: delivered as else delivered as := by
  rw [delivered, List.filter_cons]
  split
  · rfl
  · rfl

theorem lost_cons (a : Attempt) (as : List Attempt) :
    lost (a :: as) = if a.failure?.isSome then a.packet :: lost as else lost as := by
  rw [lost, List.filter_cons]
  split
  · rfl
  · rfl

/-- Every packet that is attempted goes out or is lost. -/
theorem lineCount_delivered_lost (as : List Attempt) :
    lineCount (delivered as) + lineCount (lost as) = lineCount (as.map (·.packet)) := by
  induction as with
  | nil => rfl
  | cons a as ih =>
      rw [delivered_cons, lost_cons, List.map_cons, lineCount, ← ih]
      cases a.failure? with
      | none =>
          simp only [Option.isNone_none, Option.isSome_none, Bool.false_eq_true, if_true, if_false,
            lineCount]
          omega
      | some e =>
          simp only [Option.isNone_some, Option.isSome_some, Bool.false_eq_true, if_true, if_false,
            lineCount]
          omega

end Attempt

/-! ## The counters -/

/-- Some attempts count their packets and lines, those that are lost apart. -/
theorem foldl_addAttempt (as : List Attempt) (c : Counters) :
    as.foldl Counters.addAttempt c =
      { sentPackets := c.sentPackets + UInt64.ofNat (Attempt.delivered as).length
        sentLines := c.sentLines + UInt64.ofNat (lineCount (Attempt.delivered as))
        droppedLines := c.droppedLines + UInt64.ofNat (lineCount (Attempt.lost as))
        sampledOut := c.sampledOut } := by
  -- the counters so far are where the sums start, so they vary in the induction
  induction as generalizing c with
  | nil => simp [Attempt.delivered, Attempt.lost, lineCount]
  | cons a as ih =>
      rw [List.foldl_cons, ih, Attempt.delivered_cons, Attempt.lost_cons, Counters.addAttempt]
      cases a.failure? with
      | none =>
          have hone (n : Nat) : 1 + UInt64.ofNat n = UInt64.ofNat (n + 1) := by
            rw [Nat.add_comm, UInt64.ofNat_add]
            rfl
          simp only [Counters.addSent, Option.isNone_none, Option.isSome_none, Bool.false_eq_true,
            if_true, if_false, lineCount, List.length_cons, UInt64.ofNat_add,
            UInt64.add_assoc, hone]
      | some e =>
          simp only [Counters.addDropped, Option.isNone_some, Option.isSome_some,
            Bool.false_eq_true, if_true, if_false, lineCount, UInt64.ofNat_add,
            UInt64.add_assoc]

/-- A request counts itself if it is a refusal or a metric left out. -/
theorem Request.count_eq (c : Counters) (r : Request) :
    Request.count c r =
      { c with
        droppedLines := c.droppedLines + UInt64.ofNat (if r == .refuse then 1 else 0)
        sampledOut := c.sampledOut + UInt64.ofNat (if r == .leaveOut then 1 else 0) } := by
  cases r with
  | emit m => simp [Request.count]
  | flush => simp [Request.count]
  | refuse => simp [Request.count, Counters.addDropped]
  | leaveOut => simp [Request.count, Counters.addSampledOut]
  | wait nanos => simp [Request.count]

namespace Sink

variable {σ : Type} [Transport σ]

/-- What some requests count: their attempts, the refusals among them and what
was left out. -/
theorem handleAll_counters (s : Sink σ) (requests : List Request) :
    let attempts := (s.handleAll requests).2
    (s.handleAll requests).1.counters =
      { sentPackets := s.counters.sentPackets + UInt64.ofNat (Attempt.delivered attempts).length
        sentLines := s.counters.sentLines + UInt64.ofNat (lineCount (Attempt.delivered attempts))
        droppedLines := s.counters.droppedLines +
          UInt64.ofNat (requests.count .refuse + lineCount (Attempt.lost attempts))
        sampledOut := s.counters.sampledOut + UInt64.ofNat (requests.count .leaveOut) } := by
  induction requests generalizing s with
  | nil => simp [handleAll, Attempt.delivered, Attempt.lost, lineCount]
  | cons r rest ih =>
      -- a request counts itself and then its attempts; the sums come in another order
      have hr := handle_counters s r
      rw [foldl_addAttempt] at hr
      rw [Request.count_eq] at hr
      simp only [handleAll, ih, hr, Attempt.delivered_append, Attempt.lost_append, lineCount_append,
        List.length_append, List.count_cons, UInt64.ofNat_add, Counters.mk.injEq]
      refine ⟨?_, ?_, ?_, ?_⟩
      · rw [UInt64.add_assoc]
      · rw [UInt64.add_assoc]
      · ac_rfl
      · ac_rfl

end Sink

/-! ## No line is made or lost -/

namespace Batch.Partition

variable {limit : Option Nat} {after : Batch × List Packet} {messages : List Packet}
  {sent : List (List Packet)} {kept : List Packet}

/-- The lines that go out and those that are kept are those of the messages. -/
theorem lines (h : Partition limit after messages sent kept) :
    lineCount after.2 + after.1.lines = lineCount messages := by
  have hkept : after.1.lines = lineCount kept := congrArg Packet.lines h.holds.packet
  rw [h.packets, lineCount_join, hkept, ← lineCount_append, h.all]

/-- A packet that goes out holds a line. -/
theorem lines_pos (h : Partition limit after messages sent kept) (hsound : ∀ m ∈ messages, m.Sound)
    {p : Packet} (hp : p ∈ after.2) : 0 < p.lines := by
  rw [h.packets] at hp
  rcases List.mem_map.mp hp with ⟨g, hg, rfl⟩
  -- a group has a message, and a message has a line
  cases g with
  | nil => exact absurd rfl (group_ne_nil (h.sent_groups [] hg))
  | cons m rest =>
      have hm : m ∈ messages := by
        rw [← h.all]
        exact List.mem_append_left _ (List.mem_flatten.mpr ⟨m :: rest, hg, List.mem_cons_self ..⟩)
      have hlines : 0 < m.lines := (hsound m hm).2
      have hjoin : (Packet.join (m :: rest)).lines = m.lines + lineCount rest :=
        rfl
      omega

end Batch.Partition

end Statsd

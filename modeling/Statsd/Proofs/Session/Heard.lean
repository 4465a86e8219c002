import Statsd.Proofs.Session.Passed
import Statsd.Proofs.Stream.Heard

/-!
# Statsd.Proofs.Session.Heard — the counters bound what a server hears

A server at the end of a stream hears lines, over one connection after the
other. The sink counts lines as sent or as lost, packet by packet. The two are
not the same: a packet that was cut counts as lost, though some of its lines may
have been heard.

* Every attempt has a passage (`Sink.handleAll_heard`), so what was heard is a
  subsequence of the lines attempted (`Passage.sublist`), and is bounded by the
  lines of the packets that went out from below, and by those of all packets
  from above (`Passage.length_heard`).
* The lines attempted are those of the metrics passed on, in order
  (`Session.run_packet_lines`).
* `heard_bounds` puts this together for any run over a stream.
-/

namespace Statsd

namespace Passage

/-- What has come through is a first part of the lines of its packet. -/
theorem heard_prefix (p : Passage) : p.heard <+: splitLines p.attempt.packet.data := by
  by_cases hsent : p.attempt.failure? = none
  · exact ⟨[], (List.append_nil _).trans (p.whole hsent)⟩
  · exact (p.first hsent).trans (List.dropLast_prefix _)

/-- All that has come through is a subsequence of the lines attempted. -/
theorem sublist (passages : List Passage) :
    (passages.flatMap (·.heard)).Sublist
      ((passages.map (·.attempt)).flatMap fun a => splitLines a.packet.data) := by
  induction passages with
  | nil => exact List.Sublist.refl []
  | cons p rest ih =>
      rw [List.flatMap_cons, List.map_cons, List.flatMap_cons]
      exact p.heard_prefix.sublist.append ih

/-- Lines of packets that went out have come through; of the others some may have. -/
theorem length_heard {passages : List Passage}
    (hlined : ∀ a ∈ passages.map (·.attempt), a.packet.Lined) :
    lineCount (Attempt.delivered (passages.map (·.attempt))) ≤ (passages.flatMap (·.heard)).length ∧
      (passages.flatMap (·.heard)).length ≤
        lineCount (Attempt.delivered (passages.map (·.attempt))) +
          lineCount (Attempt.lost (passages.map (·.attempt))) := by
  induction passages with
  | nil => exact ⟨Nat.le_refl _, Nat.le_refl _⟩
  | cons p rest ih =>
      obtain ⟨hlow, hhigh⟩ := ih fun a ha => hlined a (List.mem_cons_of_mem _ ha)
      have hp : (splitLines p.attempt.packet.data).length = p.attempt.packet.lines :=
        hlined p.attempt (List.mem_cons_self ..)
      have hle := p.heard_prefix.length_le
      rw [List.flatMap_cons, List.length_append, List.map_cons, Attempt.delivered_cons,
        Attempt.lost_cons]
      cases hfailure : p.attempt.failure? with
      | none =>
          have hall := congrArg List.length (p.whole hfailure)
          simp only [Option.isNone_none, Option.isSome_none, Bool.false_eq_true, if_true, if_false,
            lineCount]
          omega
      | some e =>
          simp only [Option.isNone_some, Option.isSome_some, Bool.false_eq_true, if_true, if_false,
            lineCount]
          omega

end Passage

namespace Session

/-- What a server hears. Let clients share a sink over a stream, with any packet
size or none, connected early or not, whatever the target answers to attempts to
connect and to writes, and let no name hold a line feed. After any operations

* the lines that the connections have taken whole, in the order in which these
  were opened, are a subsequence of the lines of the metrics passed on;
* they are at least as many as the lines counted as sent, and at most as many as
  these and the lines of the packets that failed;
* each attempt has its own stretch of them: all lines of its packet if it went
  out, and otherwise some first ones without the last. The packets hold the
  lines of the metrics in order, so none is in two stretches. -/
theorem heard_bounds (limit : Option Nat) (early : Bool) (answer : Nat → Stream.ConnectResult)
    (scope : Prefix) (draws : Generator) {ops : List Op}
    (hnames : ∀ name ∈ ops.filterMap Op.name?, '\n' ∉ name.toList) :
    let start := Session.init (Sink.init limit (Stream.Link.start early answer)) scope true draws
    let x := start.run ops
    let attempts := Event.attempts x.2
    let heard := x.1.sink.transport.slot.heard
    let emitted := (start.front.passed ops).flatMap Passed.lines
    let sent := lineCount (Attempt.delivered attempts)
    let lost := lineCount (Attempt.lost attempts)
    heard.Sublist emitted ∧
    sent ≤ heard.length ∧ heard.length ≤ sent + lost ∧
    x.1.sink.counters.sentLines = UInt64.ofNat sent ∧
    (sent < UInt64.size →
      x.1.sink.counters.sentLines.toNat ≤ heard.length ∧
        heard.length ≤ x.1.sink.counters.sentLines.toNat + lost) ∧
    ∃ (passages : List Passage) (kept : List Line),
      passages.map (·.attempt) = attempts ∧
      passages.flatMap (·.heard) = heard ∧
      (attempts.flatMap fun a => splitLines a.packet.data) ++ kept = emitted := by
  intro start x attempts heard emitted sent lost
  have hrun := run_follows start ops
  obtain ⟨hnothing, hready⟩ := Stream.start_heard early answer
  obtain ⟨passages, hlets⟩ := Sink.handleAll_heard (s := start.sink) hready
    (start.front.allRequests ops)
  have hattempts : passages.map (·.attempt) = attempts := by
    rw [hlets.attempts, ← hrun.attempts]
  have hheard : passages.flatMap (·.heard) = heard := by
    have hstart : start.sink.transport.slot.heard = [] := hnothing
    have hafter := hlets.heard
    rw [← hrun.sink, hstart, List.nil_append] at hafter
    exact hafter.symm
  -- the packets hold the metrics in order
  obtain ⟨groups, rest, hpassed, hlines, hlined⟩ :=
    run_packet_lines limit (Stream.Link.start early answer) scope true draws hnames
  have hemitted : (attempts.flatMap fun a => splitLines a.packet.data) ++
      rest.flatMap Passed.lines = emitted := by
    have hgroups : (attempts.flatMap fun a => splitLines a.packet.data) =
        groups.flatten.flatMap Passed.lines := by
      rw [List.flatMap_def, hlines, ← List.flatMap_def, List.flatten_eq_flatMap,
        List.flatMap_assoc]
      rfl
    rw [hgroups, ← List.flatMap_append, hpassed]
  have hpackets : ∀ a ∈ passages.map (·.attempt), a.packet.Lined := by
    rw [hattempts]
    exact hlined
  obtain ⟨hlow, hhigh⟩ := Passage.length_heard hpackets
  rw [hattempts, hheard] at hlow hhigh
  have hcounter : x.1.sink.counters.sentLines = UInt64.ofNat sent := by
    rw [run_counters]
  refine ⟨?_, hlow, hhigh, hcounter, ?_, passages, rest.flatMap Passed.lines, hattempts, hheard,
    hemitted⟩
  · rw [← hemitted, ← hheard, ← hattempts]
    exact (Passage.sublist passages).trans (List.sublist_append_left _ _)
  · intro hsmall
    rw [hcounter, UInt64.toNat_ofNat_of_lt' hsmall]
    exact ⟨hlow, hhigh⟩

/-- A batch of three lines whose second line is cut: it counts as lost, but one line
of it is heard. The packet after it goes to a new connection. -/
theorem heard_bounds_torn_batch :
    let answer : Nat → Stream.ConnectResult := fun n =>
      if n = 0 then .ok ⟨[.accepted 8, .failed (.system .brokenPipe)], none⟩
      else .ok Stream.Peer.willing
    let ops : List Op :=
      [.emit 0 (.always "a" .increment), .emit 0 (.always "g" (.gauge (.whole (-5)))), .flush 0,
        .emit 0 (.always "b" .decrement), .flush 0]
    let start := Session.init (Sink.init (some 512) (Stream.Link.start true answer)) Prefix.empty
      true ⟨0⟩
    let x := start.run ops
    let heard := x.1.sink.transport.slot.heard
    let lost := lineCount (Attempt.lost (Event.attempts x.2))
    (∀ name ∈ ops.filterMap Op.name?, '\n' ∉ name.toList) ∧
      heard = [bytesOf "a:1|c", bytesOf "b:-1|c"] ∧
      x.1.sink.counters.sentLines.toNat = 1 ∧ lost = 3 ∧
      heard.Sublist ((start.front.passed ops).flatMap Passed.lines) ∧
      (x.1.sink.counters.sentLines.toNat ≤ heard.length ∧
        heard.length ≤ x.1.sink.counters.sentLines.toNat + lost) := by
  refine ⟨?_, ?_, ?_, ?_, ?_, ?_⟩
  · decide +kernel
  · -- what the server has heard, read off the run
    decide +kernel
  · decide +kernel
  · decide +kernel
  · exact (heard_bounds _ _ _ _ _ (by decide +kernel)).1
  · exact (heard_bounds _ _ _ _ _ (by decide +kernel)).2.2.2.2.1 (by decide +kernel)

end Session

end Statsd

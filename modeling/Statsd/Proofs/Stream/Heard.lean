import Statsd.Proofs.Lines
import Statsd.Proofs.Sink.Request
import Statsd.Proofs.Stream.Integrity

/-!
# Statsd.Proofs.Stream.Heard — the lines that come through a stream

A far end reads its connection line by line. It has heard the lines that a line
feed has ended; what stands behind the last one counts for nothing, unless more
of it comes.

* **Invariant**: the connection in use has taken whole packets only, so it
  stands at the start of a line (`Slot.Ready`). A connection with a torn packet
  is never in use again.
* **Step**: a send lets the lines of its message through, all of them if it is
  answered well, and otherwise some first ones but never the last one
  (`send_heard`). The lines come behind all that was heard before, also when
  the packet went to a second connection.
* **Run**: over some requests to a sink, each attempt has a `Passage`, and what
  was heard are the passages one behind the other (`handleAll_heard`).
-/

namespace Statsd

namespace Stream

/-! ## Lines at the slot -/

namespace Slot

/-- The ended lines of all connections, in the order in which they were opened. -/
def heard (s : Slot) : List Line := s.connections.flatMap fun c => endedLines c.accepted

/-- The connection in use stands at the start of a line. -/
def Ready (s : Slot) : Prop := ∀ c, s.held = some c → AtLineStart c.accepted

theorem ready_close (s : Slot) (c : Connection) : (s.close c).Ready := by
  intro c' hc'
  cases hc'

theorem ready_hold {c : Connection} (h : AtLineStart c.accepted) (s : Slot) : (s.hold c).Ready := by
  intro c' hc'
  cases hc'
  exact h

/-- Giving a connection up takes no line back. -/
theorem heard_close (s : Slot) (c : Connection) : (s.close c).heard = (s.hold c).heard := by
  simp only [heard, connections, close, hold, Option.toList_none, Option.toList_some,
    List.append_nil]

/-- A connection is put in use where there was none. -/
theorem heard_hold_none {s : Slot} (hs : s.held = none) (c : Connection) :
    (s.hold c).heard = s.heard ++ endedLines c.accepted := by
  simp only [heard, connections, hold, hs, Option.toList_none, Option.toList_some, List.append_nil,
    List.flatMap_append, List.flatMap_singleton]

/-- The connection in use takes more bytes, which begin a line. -/
theorem heard_hold_some {s : Slot} {c c' : Connection} {part : ByteArray} (hs : s.held = some c)
    (hready : AtLineStart c.accepted) (hc : c'.accepted = c.accepted ++ part) :
    (s.hold c').heard = s.heard ++ endedLines part := by
  simp only [heard, connections, hold, hs, Option.toList_some, List.flatMap_append,
    List.flatMap_singleton, hc, endedLines_append hready, List.append_assoc]

end Slot

/-! ## One send -/

/-- What one send lets through: `lines` come behind all that was heard before. -/
structure Adds (l after : Link) (message : ByteArray) (answer : Except Failure Unit)
    (lines : List Line) : Prop where
  heard : after.slot.heard = l.slot.heard ++ lines
  ready : after.slot.Ready
  /-- The whole message with a good answer, or less: not its last line, at any rate. -/
  outcome : (answer = .ok () ∧ lines = splitLines message) ∨
    ((∃ e, answer = .error e) ∧ lines <+: (splitLines message).dropLast)

/-- The lines that a first part of a packet ends. -/
theorem endedLines_of_cut {part message : ByteArray} (h : Cut part (message.push lineFeed)) :
    endedLines part <+: (splitLines message).dropLast := by
  obtain ⟨left, hleft, hpacket⟩ := h
  exact endedLines_part hleft hpacket

/-- With no connection in use, a send lets its lines through on a new one. -/
theorem sendAnew_heard {l : Link} (hl : l.slot.held = none) (message : ByteArray) :
    ∃ lines, Adds l (l.sendAnew (message.push lineFeed)).1 message
      (l.sendAnew (message.push lineFeed)).2 lines := by
  obtain ⟨e, hsend⟩ | ⟨c, hsend, hc, -⟩ | ⟨c, e, hsend, hcut⟩ :=
    l.sendAnew_cases (message.push lineFeed)
  · -- no connection: nothing is let through
    rw [hsend]
    refine ⟨[], (List.append_nil _).symm, ?_, Or.inr ⟨⟨e, rfl⟩, List.nil_prefix⟩⟩
    intro c hc
    rw [show l.slot.held = some c from hc] at hl
    cases hl
  · -- the new connection takes the packet and is kept
    rw [hsend]
    refine ⟨splitLines message, ?_, ?_, Or.inl ⟨rfl, rfl⟩⟩
    · rw [← endedLines_push, ← hc]
      exact Slot.heard_hold_none hl c
    · exact Slot.ready_hold (Or.inr ⟨message, hc⟩) l.slot
  · -- the new connection fails; what it ended before stays
    rw [hsend]
    refine ⟨endedLines c.accepted, ?_, Slot.ready_close l.slot c,
      Or.inr ⟨⟨e, rfl⟩, endedLines_of_cut hcut⟩⟩
    exact (Slot.heard_close l.slot c).trans (Slot.heard_hold_none hl c)

/-- All that one send can let through. -/
theorem send_heard {l : Link} (h : l.slot.Ready) (message : ByteArray) :
    ∃ lines, Adds l (l.send message).1 message (l.send message).2 lines := by
  obtain ⟨hheld, hwrite⟩ | ⟨c, c', hs, hwrite, hc, -⟩ | ⟨c, c', e, hs, hwrite, hc, -⟩ |
    ⟨c, c', e, part, hs, hwrite, hc, htorn⟩ := l.slot.write_cases (message.push lineFeed)
  · -- no connection is in use
    have hsend : l.send message = l.sendAnew (message.push lineFeed) := by
      simp only [Link.send, hwrite]
    rw [hsend]
    exact sendAnew_heard hheld message
  · -- the connection in use takes the packet
    have hsend : l.send message = ({ l with slot := l.slot.hold c' }, .ok ()) := by
      simp only [Link.send, hwrite]
    rw [hsend]
    refine ⟨splitLines message, ?_, ?_, Or.inl ⟨rfl, rfl⟩⟩
    · rw [← endedLines_push]
      exact Slot.heard_hold_some hs (h c hs) hc
    · apply Slot.ready_hold
      rw [hc]
      exact atLineStart_append_push c.accepted message
  · -- nothing was taken, so the lines may come through on a new connection
    have hsend : l.send message =
        Link.sendAnew { l with slot := l.slot.close c' } (message.push lineFeed) := by
      simp only [Link.send, hwrite]
    have hsame : (l.slot.close c').heard = l.slot.heard := by
      rw [Slot.heard_close, Slot.heard_hold_some hs (h c hs) hc, endedLines_empty, List.append_nil]
    obtain ⟨lines, hadds⟩ := sendAnew_heard (l := { l with slot := l.slot.close c' }) rfl message
    rw [hsend]
    exact ⟨lines, hadds.heard.trans (congrArg (· ++ lines) hsame), hadds.ready, hadds.outcome⟩
  · -- the packet is cut; what was ended of it stays, and it is not sent again
    have hsend : l.send message = ({ l with slot := l.slot.close c' }, .error e) := by
      simp only [Link.send, hwrite]
    rw [hsend]
    refine ⟨endedLines part, ?_, Slot.ready_close l.slot c',
      Or.inr ⟨⟨e, rfl⟩, endedLines_of_cut htorn.2⟩⟩
    exact (Slot.heard_close l.slot c').trans (Slot.heard_hold_some hs (h c hs) hc)

/-- At the start nothing has been heard. -/
theorem start_heard (early : Bool) (answer : Nat → ConnectResult) :
    (Link.start early answer).slot.heard = [] ∧ (Link.start early answer).slot.Ready := by
  obtain hslot | ⟨peer, hslot⟩ := start_slot early answer
  · rw [hslot]
    constructor
    · rfl
    · intro c hc
      cases hc
  · rw [hslot]
    exact ⟨rfl, Slot.ready_hold (Or.inl rfl) Slot.empty⟩

end Stream

/-! ## Requests to a sink -/

/-- An attempt, and the lines of its packet that came through: all of them if the
packet went out, and otherwise some first ones but not the last one. -/
structure Passage where
  attempt : Attempt
  heard : List Line
  whole : attempt.failure? = none → heard = splitLines attempt.packet.data
  first : attempt.failure? ≠ none → heard <+: (splitLines attempt.packet.data).dropLast

namespace Sink

/-- What some attempts let through: a passage for each of them, in order. -/
structure Lets (before after : Stream.Link) (attempts : List Attempt) (passages : List Passage) :
    Prop where
  attempts : passages.map (·.attempt) = attempts
  heard : after.slot.heard = before.slot.heard ++ passages.flatMap (·.heard)
  ready : after.slot.Ready

theorem lets_nil {l : Stream.Link} (h : l.slot.Ready) : Lets l l [] [] :=
  ⟨rfl, (List.append_nil _).symm, h⟩

theorem Lets.append {l l' l'' : Stream.Link} {as bs : List Attempt} {ps qs : List Passage}
    (h : Lets l l' as ps) (h' : Lets l' l'' bs qs) : Lets l l'' (as ++ bs) (ps ++ qs) := by
  refine ⟨?_, ?_, h'.ready⟩
  · rw [List.map_append, h.attempts, h'.attempts]
  · rw [h'.heard, h.heard, List.flatMap_append, List.append_assoc]

/-- Every attempt has its passage. -/
theorem attempt_heard {s : Sink Stream.Link} (h : s.transport.slot.Ready) (p : Packet) :
    ∃ passage, Lets s.transport (s.attempt p).1.transport [(s.attempt p).2] [passage] := by
  obtain ⟨lines, hadds⟩ := Stream.send_heard h p.data
  have hanswer : (Transport.send s.transport p.data).2 = (s.transport.send p.data).2 := rfl
  obtain ⟨hok, hlines⟩ | ⟨⟨e, herr⟩, hprefix⟩ := hadds.outcome
  · have hnone : (s.attempt p).2.failure? = none := by
      simp only [attempt, hanswer, hok]
    refine ⟨⟨(s.attempt p).2, lines, fun _ => hlines, fun hne => absurd hnone hne⟩, rfl, ?_,
      hadds.ready⟩
    rw [List.flatMap_singleton]
    exact hadds.heard
  · have hsome : (s.attempt p).2.failure? = some e := by
      simp only [attempt, hanswer, herr]
    refine ⟨⟨(s.attempt p).2, lines, ?_, fun _ => hprefix⟩, rfl, ?_, hadds.ready⟩
    · intro hnone
      rw [hsome] at hnone
      cases hnone
    · rw [List.flatMap_singleton]
      exact hadds.heard

theorem attemptAll_heard {s : Sink Stream.Link} (h : s.transport.slot.Ready)
    (packets : List Packet) :
    ∃ passages, Lets s.transport (s.attemptAll packets).1.transport (s.attemptAll packets).2
      passages := by
  induction packets generalizing s with
  | nil => exact ⟨[], lets_nil h⟩
  | cons p rest ih =>
      obtain ⟨passage, hp⟩ := attempt_heard h p
      obtain ⟨passages, hrest⟩ := ih hp.ready
      exact ⟨[passage] ++ passages, hp.append hrest⟩

/-- What some requests to a sink over a stream let through. -/
theorem handleAll_heard {s : Sink Stream.Link} (h : s.transport.slot.Ready)
    (requests : List Request) :
    ∃ passages, Lets s.transport (s.handleAll requests).1.transport (s.handleAll requests).2
      passages := by
  induction requests generalizing s with
  | nil => exact ⟨[], lets_nil h⟩
  | cons r rest ih =>
      -- time does not touch a stream, so the packets are attempted on the same link
      have hready : (s.ready r).transport = s.transport := by
        cases r with
        | wait nanos => rfl
        | emit m => rfl
        | flush => rfl
        | refuse => rfl
        | leaveOut => rfl
      obtain ⟨passages, hr⟩ := attemptAll_heard (s := s.ready r) (hready ▸ h)
        (s.batch.handle s.limit r).2
      rw [← handle_eq, hready] at hr
      obtain ⟨more, hrest⟩ := ih hr.ready
      exact ⟨passages ++ more, hr.append hrest⟩

end Sink

end Statsd

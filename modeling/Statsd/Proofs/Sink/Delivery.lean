import Statsd.Link
import Statsd.Proofs.Bytes
import Statsd.Proofs.Sink.Request
import Statsd.Proofs.Stream.Writer

/-!
# Statsd.Proofs.Sink.Delivery — what reaches the target

A target sees its packets with a line feed behind each: on a stream the link
puts it there, and of datagrams each one ends a line.

* `Link.received` is what a target has seen over a link.
* **Step**: a send that is answered well adds its packet, whatever became of
  the connections meanwhile (`Link.send_received`).
* **Run**: if all packets of some requests went out, they are what the target
  has seen (`Sink.handleAll_received`).
* A transport is `Dependable` if every send is answered well, whatever was
  asked of it before. Over such a transport all packets go out
  (`Sink.handleAll_dependable`).
-/

namespace Statsd

/-! ## Streams -/

namespace Stream

namespace Slot

/-- The far end of the connection in use, if there is one, reads all. -/
def Attentive (s : Slot) : Prop := ∀ c, s.held = some c → c.read = none

/-- What the far ends of all connections have read, one behind the other. -/
def arrived (s : Slot) : ByteArray := concat (s.connections.map Connection.arrived)

theorem arrived_close (s : Slot) (c : Connection) : (s.close c).arrived = (s.hold c).arrived := by
  simp only [arrived, connections, close, hold, Option.toList_none, Option.toList_some,
    List.append_nil]

theorem arrived_hold_none {s : Slot} (hs : s.held = none) (c : Connection) :
    (s.hold c).arrived = s.arrived ++ c.arrived := by
  simp only [arrived, connections, hold, hs, Option.toList_none, Option.toList_some,
    List.append_nil, List.map_append, List.map_cons, List.map_nil, concat_append, concat_singleton]

/-- The connection in use takes more bytes, and its far end reads them. -/
theorem arrived_hold_some {s : Slot} {c c' : Connection} {part : ByteArray}
    (hs : s.held = some c) (hread : c.read = none) (hread' : c'.read = c.read)
    (hc : c'.accepted = c.accepted ++ part) : (s.hold c').arrived = s.arrived ++ part := by
  have harrived : c.arrived = c.accepted := by simp only [Connection.arrived, hread]
  have harrived' : c'.arrived = c.accepted ++ part := by
    simp only [Connection.arrived, hread', hread, hc]
  simp only [arrived, connections, hold, hs, Option.toList_some, List.map_append, List.map_cons,
    List.map_nil, concat_append, concat_singleton, harrived, harrived', ByteArray.append_assoc]

end Slot

namespace Link

theorem arrived_eq (l : Link) : l.arrived = l.slot.arrived := by
  rw [Link.arrived, foldl_concat, ByteArray.empty_append]
  rfl

/-- A packet that a new connection takes arrives. -/
theorem sendAnew_arrived {l : Link} (hl : l.slot.held = none) {packet : ByteArray}
    (hok : (l.sendAnew packet).2 = .ok ()) :
    (l.sendAnew packet).1.slot.Attentive ∧
      (l.sendAnew packet).1.slot.arrived = l.slot.arrived ++ packet := by
  rcases l.sendAnew_cases packet with ⟨e, hsend⟩ | ⟨c, hsend, hc, hread⟩ | ⟨c, e, hsend, -⟩
  · rw [hsend] at hok
    cases hok
  · have harrived : c.arrived = packet := by simp only [Connection.arrived, hread, hc]
    rw [hsend]
    constructor
    · intro c' hc'
      cases hc'
      exact hread
    · rw [← harrived]
      exact Slot.arrived_hold_none hl c
  · rw [hsend] at hok
    cases hok

/-- A send that is answered well makes its packet arrive, and nothing else. -/
theorem send_arrived {l : Link} (h : l.slot.Attentive) {message : ByteArray}
    (hok : (l.send message).2 = .ok ()) :
    (l.send message).1.slot.Attentive ∧
      (l.send message).1.slot.arrived = l.slot.arrived ++ message.push lineFeed := by
  rcases l.slot.write_cases (message.push lineFeed) with
    ⟨hheld, hwrite⟩ | ⟨c, c', hs, hwrite, hc, hread⟩ | ⟨c, c', e, hs, hwrite, hc, hread⟩ |
    ⟨c, c', e, part, hs, hwrite, -⟩
  · -- no connection is in use
    have hsend : l.send message = l.sendAnew (message.push lineFeed) := by
      simp only [Link.send, hwrite]
    rw [hsend] at hok ⊢
    exact sendAnew_arrived hheld hok
  · -- the connection in use takes the packet
    have hsend : l.send message = ({ l with slot := l.slot.hold c' }, .ok ()) := by
      simp only [Link.send, hwrite]
    rw [hsend]
    refine ⟨?_, Slot.arrived_hold_some hs (h c hs) hread hc⟩
    intro c'' hc''
    cases hc''
    exact hread.trans (h c hs)
  · -- the connection in use has taken nothing, so the packet may go to a new one
    have hsend : l.send message =
        Link.sendAnew { l with slot := l.slot.close c' } (message.push lineFeed) := by
      simp only [Link.send, hwrite]
    have hsame : (l.slot.close c').arrived = l.slot.arrived := by
      rw [Slot.arrived_close, Slot.arrived_hold_some hs (h c hs) hread hc, ByteArray.append_empty]
    rw [hsend] at hok ⊢
    have hnew := sendAnew_arrived (l := { l with slot := l.slot.close c' }) rfl hok
    exact ⟨hnew.1, hnew.2.trans (congrArg (· ++ message.push lineFeed) hsame)⟩
  · -- a packet that was cut is not answered well
    have hsend : l.send message = ({ l with slot := l.slot.close c' }, .error e) := by
      simp only [Link.send, hwrite]
    rw [hsend] at hok
    cases hok

end Link

end Stream

/-! ## Datagrams -/

/-- A datagram that is answered well is delivered, and nothing else. -/
theorem Datagram.Link.send_delivered {l : Datagram.Link} {message : ByteArray}
    (hok : (l.send message).2 = .ok ()) :
    (l.send message).1.delivered = l.delivered ++ [message] := by
  cases hsocket : l.socket with
  | none =>
      simp only [send, hsocket] at hok
      cases hok
  | some s =>
      cases hcarry : s.carry message with
      | error e =>
          simp only [send, hsocket, hcarry] at hok
          cases hok
      | ok n =>
          simp only [send, hsocket, hcarry] at hok ⊢
          have hsize : ¬ n < message.size := by
            intro hcut
            rw [if_pos hcut] at hok
            cases hok
          have hwhole : message.size ≤ n := Nat.le_of_not_lt hsize
          simp only [delivered, hsocket, List.filter_append, List.filter_cons, hcarry, hwhole,
            decide_true, if_true, List.filter_nil]

/-! ## Links -/

namespace Link

/-- What the target has seen: the bytes of a stream, or the datagrams with a
line feed behind each. -/
def received : Link → ByteArray
  | .datagram l => terminated l.delivered
  | .stream l => l.arrived
  | .idle => ByteArray.empty

/-- The target sees all that the link sends. An idle link has no target. -/
def Attentive : Link → Prop
  | .datagram _ => True
  | .stream l => l.slot.Attentive
  | .idle => False

/-- A send that is answered well adds its packet and a line feed to what the target has seen. -/
theorem send_received {l : Link} (h : l.Attentive) {message : ByteArray}
    (hok : (Transport.send l message).2 = .ok ()) :
    (Transport.send l message).1.Attentive ∧
      (Transport.send l message).1.received = l.received ++ message.push lineFeed := by
  cases l with
  | datagram l =>
      refine ⟨trivial, ?_⟩
      have hdelivered : (l.send message).1.delivered = l.delivered ++ [message] :=
        Datagram.Link.send_delivered hok
      calc terminated (l.send message).1.delivered
          = terminated l.delivered ++ terminated [message] := by
            rw [hdelivered, terminated_append]
        _ = terminated l.delivered ++ message.push lineFeed := by rw [terminated_singleton]
  | stream l =>
      have harrived := Stream.Link.send_arrived h hok
      refine ⟨harrived.1, ?_⟩
      calc (l.send message).1.arrived
          = l.slot.arrived ++ message.push lineFeed := by
            rw [Stream.Link.arrived_eq, harrived.2]
        _ = l.arrived ++ message.push lineFeed := by rw [Stream.Link.arrived_eq]
  | idle => exact absurd h id

theorem wait_received {l : Link} (h : l.Attentive) (nanos : Nat) :
    (Transport.wait l nanos).Attentive ∧ (Transport.wait l nanos).received = l.received := by
  cases l with
  | datagram l => exact ⟨trivial, rfl⟩
  | stream l => exact ⟨h, rfl⟩
  | idle => exact absurd h id

end Link

/-! ## Requests -/

namespace Sink

/-- Every packet goes out. -/
def AllSent (attempts : List Attempt) : Prop := ∀ a ∈ attempts, a.failure? = none

theorem allSent_append {as as' : List Attempt} (h : AllSent (as ++ as')) :
    AllSent as ∧ AllSent as' :=
  ⟨fun a ha => h a (List.mem_append_left _ ha), fun a ha => h a (List.mem_append_right _ ha)⟩

/-- The packet of an attempt goes out exactly if the send is answered well. -/
theorem attempt_sent_iff {σ : Type} [Transport σ] (s : Sink σ) (p : Packet) :
    (s.attempt p).2.failure? = none ↔ (Transport.send s.transport p.data).2 = .ok () := by
  cases hanswer : (Transport.send s.transport p.data).2 with
  | ok _ => simp only [attempt, hanswer]
  | error e => simp only [attempt, hanswer, reduceCtorEq]

theorem attemptAll_received {s : Sink Link} (h : s.transport.Attentive) (packets : List Packet)
    (hsent : AllSent (s.attemptAll packets).2) :
    (s.attemptAll packets).1.transport.Attentive ∧
      (s.attemptAll packets).1.transport.received =
        s.transport.received ++ terminated (packets.map (·.data)) := by
  induction packets generalizing s with
  | nil => exact ⟨h, ByteArray.append_empty.symm⟩
  | cons p rest ih =>
      have hp : (s.attempt p).2.failure? = none := hsent _ (List.mem_cons_self ..)
      have hrest : AllSent ((s.attempt p).1.attemptAll rest).2 :=
        fun a ha => hsent a (List.mem_cons_of_mem _ ha)
      rcases Link.send_received h ((attempt_sent_iff s p).mp hp) with ⟨hattentive, hreceived⟩
      rcases ih hattentive hrest with ⟨hlast, hall⟩
      refine ⟨hlast, hall.trans ?_⟩
      rw [List.map_cons, terminated_cons, ← ByteArray.append_assoc]
      exact congrArg (· ++ terminated (rest.map (·.data))) hreceived

/-- The packets of a request reach the target, if all go out. -/
theorem handle_received {s : Sink Link} (h : s.transport.Attentive) (r : Request)
    (hsent : AllSent (s.handle r).2) :
    (s.handle r).1.transport.Attentive ∧
      (s.handle r).1.transport.received =
        s.transport.received ++ terminated ((s.handle r).2.map (·.packet.data)) := by
  have hready : (s.ready r).transport.Attentive ∧
      (s.ready r).transport.received = s.transport.received := by
    cases r with
    | wait nanos => exact Link.wait_received h nanos
    | emit m => exact ⟨h, rfl⟩
    | flush => exact ⟨h, rfl⟩
    | refuse => exact ⟨h, rfl⟩
    | leaveOut => exact ⟨h, rfl⟩
  have hpackets : (s.handle r).2.map (·.packet.data) =
      (s.batch.handle s.limit r).2.map (·.data) := by
    rw [← (handle_batch s r).2.2, List.map_map]
    rfl
  rw [hpackets, ← hready.2]
  rw [handle_eq] at hsent ⊢
  exact attemptAll_received hready.1 _ hsent

/-- The packets of some requests reach the target in order, if all go out. -/
theorem handleAll_received {s : Sink Link} (h : s.transport.Attentive) (requests : List Request)
    (hsent : AllSent (s.handleAll requests).2) :
    (s.handleAll requests).1.transport.received =
      s.transport.received ++ terminated ((s.handleAll requests).2.map (·.packet.data)) := by
  induction requests generalizing s with
  | nil => exact ByteArray.append_empty.symm
  | cons r rest ih =>
      rcases allSent_append hsent with ⟨hr, hrest⟩
      rcases handle_received h r hr with ⟨hattentive, hreceived⟩
      simp only [handleAll, List.map_append, terminated_append]
      rw [ih hattentive hrest, hreceived, ByteArray.append_assoc]

end Sink

/-! ## Transports that never fail -/

section Dependable

variable {σ : Type} [Transport σ]

/-- What can be asked of a transport. -/
inductive Use where
  | send (packet : ByteArray)
  | wait (nanos : Nat)

/-- A transport after it has been used. -/
def Use.apply (t : σ) : Use → σ
  | .send packet => (Transport.send t packet).1
  | .wait nanos => Transport.wait t nanos

/-- Whatever was asked before, a send is answered well. -/
def Dependable (t : σ) : Prop :=
  ∀ (uses : List Use) (packet : ByteArray),
    (Transport.send (uses.foldl Use.apply t) packet).2 = .ok ()

theorem dependable_apply {t : σ} (h : Dependable t) (u : Use) : Dependable (u.apply t) :=
  fun uses packet => h (u :: uses) packet

/-- A property that every use keeps, and with which a send is answered well. -/
theorem dependable_of_invariant (good : σ → Prop)
    (hsend : ∀ t packet, good t → good (Transport.send t packet).1 ∧
      (Transport.send t packet).2 = .ok ())
    (hwait : ∀ t nanos, good t → good (Transport.wait t nanos)) {t : σ} (h : good t) :
    Dependable t := by
  -- the property holds after any uses, by induction on them
  have hgood : ∀ (uses : List Use) {t : σ}, good t → good (uses.foldl Use.apply t) := by
    intro uses
    induction uses with
    | nil => exact id
    | cons u rest ih =>
        intro t ht
        cases u with
        | send packet => exact ih (hsend t packet ht).1
        | wait nanos => exact ih (hwait t nanos ht)
  intro uses packet
  exact (hsend _ packet (hgood uses h)).2

namespace Sink

theorem attemptAll_dependable {s : Sink σ} (h : Dependable s.transport) (packets : List Packet) :
    Dependable (s.attemptAll packets).1.transport ∧ AllSent (s.attemptAll packets).2 := by
  induction packets generalizing s with
  | nil => exact ⟨h, fun _ ha => absurd ha List.not_mem_nil⟩
  | cons p rest ih =>
      have hp : (s.attempt p).2.failure? = none := (attempt_sent_iff s p).mpr (h [] p.data)
      rcases ih (s := (s.attempt p).1) (dependable_apply h (.send p.data)) with ⟨hlast, hrest⟩
      refine ⟨hlast, ?_⟩
      intro a ha
      rcases List.mem_cons.mp ha with heq | hmem
      · rw [heq]
        exact hp
      · exact hrest a hmem

/-- Over a transport that never fails every packet goes out. -/
theorem handleAll_dependable {s : Sink σ} (h : Dependable s.transport) (requests : List Request) :
    AllSent (s.handleAll requests).2 := by
  induction requests generalizing s with
  | nil => exact fun _ ha => absurd ha List.not_mem_nil
  | cons r rest ih =>
      have hready : Dependable (s.ready r).transport := by
        cases r with
        | wait nanos => exact dependable_apply h (.wait nanos)
        | emit m => exact h
        | flush => exact h
        | refuse => exact h
        | leaveOut => exact h
      rcases attemptAll_dependable hready (s.batch.handle s.limit r).2 with ⟨hlast, hr⟩
      rw [← handle_eq] at hlast hr
      intro a ha
      rcases List.mem_append.mp ha with hold | hnew
      · exact hr a hold
      · exact ih hlast a hnew

end Sink

end Dependable

/-! ### Links whose target takes everything -/

/-- Every attempt to connect succeeds, and every connection takes what it is given. -/
def Stream.Link.Obliging (l : Stream.Link) : Prop :=
  (∀ n, ∃ peer, l.answer n = .ok peer ∧ peer.Obliging) ∧
    ∀ c, l.slot.held = some c → c.peer.Obliging

/-- There is a socket, and it carries every datagram as a whole. -/
def Datagram.Link.Obliging (l : Datagram.Link) : Prop :=
  ∃ s, l.socket = some s ∧ ∀ message, ∃ n, s.carry message = .ok n ∧ message.size ≤ n

/-- A link whose target takes everything. -/
def Link.Obliging : Link → Prop
  | .datagram l => l.Obliging
  | .stream l => l.Obliging
  | .idle => True

theorem Stream.Link.sendAnew_obliging {l : Stream.Link} (h : l.Obliging) (packet : ByteArray) :
    (l.sendAnew packet).1.Obliging ∧ (l.sendAnew packet).2 = .ok () := by
  rcases h.1 l.attempts with ⟨peer, hanswer, hpeer⟩
  have hfresh : (Connection.fresh peer).peer.Obliging := hpeer
  rcases Connection.write_obliging hfresh packet with ⟨c, hwrite, hc⟩
  have hsend : l.sendAnew packet =
      ({ l with attempts := l.attempts + 1, slot := l.slot.hold c }, .ok ()) := by
    simp only [Stream.Link.sendAnew, Stream.Link.connect, hanswer, Except.map, hwrite]
  rw [hsend]
  refine ⟨⟨h.1, ?_⟩, rfl⟩
  intro c' hc'
  cases hc'
  exact hc

theorem Stream.Link.send_obliging {l : Stream.Link} (h : l.Obliging) (message : ByteArray) :
    (l.send message).1.Obliging ∧ (l.send message).2 = .ok () := by
  cases hs : l.slot.held with
  | none =>
      have hsend : l.send message = l.sendAnew (message.push lineFeed) := by
        simp only [Stream.Link.send, Slot.write, hs]
      rw [hsend]
      exact sendAnew_obliging h _
  | some c =>
      rcases Connection.write_obliging (h.2 c hs) (message.push lineFeed) with ⟨c', hwrite, hc'⟩
      have hsend : l.send message = ({ l with slot := l.slot.hold c' }, .ok ()) := by
        simp only [Stream.Link.send, Slot.write, hs, hwrite]
      rw [hsend]
      refine ⟨⟨h.1, ?_⟩, rfl⟩
      intro c'' hc''
      cases hc''
      exact hc'

theorem Datagram.Link.send_obliging {l : Datagram.Link} (h : l.Obliging) (message : ByteArray) :
    (l.send message).1.Obliging ∧ (l.send message).2 = .ok () := by
  rcases h with ⟨s, hs, hcarry⟩
  rcases hcarry message with ⟨n, hn, hsize⟩
  have hwhole : ¬ n < message.size := Nat.not_lt.mpr hsize
  simp only [Datagram.Link.send, hs, hn, if_neg hwhole]
  exact ⟨⟨s, rfl, hcarry⟩, trivial⟩

/-- A target that takes everything makes the link dependable. -/
theorem Link.dependable_of_obliging {l : Link} (h : l.Obliging) : Dependable l := by
  refine dependable_of_invariant Link.Obliging ?_ ?_ h
  · intro l packet hl
    cases l with
    | datagram l => exact l.send_obliging hl packet
    | stream l => exact l.send_obliging hl packet
    | idle => exact ⟨trivial, rfl⟩
  · intro l nanos hl
    cases l with
    | datagram l => exact hl
    | stream l => exact hl
    | idle => exact trivial

end Statsd

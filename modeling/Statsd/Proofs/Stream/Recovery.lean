import Statsd.Proofs.Stream.Integrity
import Statsd.Proofs.Stream.Script

/-!
# Statsd.Proofs.Stream.Recovery — a link works again as soon as its target does

The answer to a send tells in which of two states it has left the link: with a
connection in use, or with none. So whatever went wrong before, the next send
connects, and all that matters is whether it can.

* **Step**: a connection is in use after a send exactly if the send was answered
  well (`Link.send_connected_iff`). Where an attempt to connect would succeed and
  the new connection take the packet (`Link.Ready`), a send fails only by tearing
  the packet on the connection in use (`Link.send_error_iff`).
* **Run**: while the target is up (`Link.TargetUp`) at most one send fails, as
  only a connection from before can fail (`Link.failures_le_one`).

`recovery` says so of all links, hence of those after any history of sends,
and whatever their target has done to its connections meanwhile.
-/

namespace Statsd.Stream

/-! ## Far ends that take every byte -/

/-- What one write has taken before has no say in whether the rest fails. -/
theorem Exchange.after_failure (x : Exchange) (chunk : ByteArray) :
    (x.after chunk).failure? = x.failure? := rfl

/-- The first answer of a far end that takes every packet is no failure, and it
takes every packet after this answer too. -/
theorem takes_all_tail {answer : WriteResult} {script : List WriteResult} {room : Option Nat}
    (h : ∀ packet, (writeScripted (answer :: script) room packet).failure? = none) :
    (answer = .interrupted ∨ ∃ n, answer = .accepted (n + 1)) ∧
      ∀ packet, (writeScripted script room packet).failure? = none := by
  -- a packet with a byte meets the first answer
  have hbyte : ByteArray.empty.push 0 ≠ ByteArray.empty := push_ne_empty _ _
  cases answer with
  | failed e =>
      have hmeets := h (ByteArray.empty.push 0)
      rw [writeScripted_failed script room hbyte] at hmeets
      cases hmeets
  | interrupted =>
      refine ⟨Or.inl rfl, ?_⟩
      intro packet
      by_cases hpacket : packet = ByteArray.empty
      · rw [hpacket, writeScripted_empty]
        rfl
      · have hwhole := h packet
        rw [writeScripted_interrupted script room hpacket, Exchange.after_failure] at hwhole
        exact hwhole
  | accepted n =>
      cases n with
      | zero =>
          have hmeets := h (ByteArray.empty.push 0)
          rw [writeScripted_zero script room hbyte] at hmeets
          cases hmeets
      | succ n =>
          refine ⟨Or.inr ⟨n, rfl⟩, ?_⟩
          intro packet
          -- with as many bytes in front as the first answer takes, the rest meets the others
          let front := (List.replicate (n + 1) (0 : UInt8)).toByteArray
          have hfront : front.size = n + 1 := by
            rw [List.size_toByteArray, List.length_replicate]
          have hsize : (front ++ packet).size = front.size + packet.size := ByteArray.size_append
          have hne : front ++ packet ≠ ByteArray.empty := by
            rw [Ne, ← ByteArray.size_eq_zero_iff]
            omega
          have hmin : min (n + 1) (front ++ packet).size = n + 1 := by omega
          have hbehind : (front ++ packet).extract (n + 1) (front ++ packet).size = packet :=
            ByteArray.extract_append_eq_right hfront.symm hsize
          have hwhole := h (front ++ packet)
          rw [writeScripted_accepted script room hne n, hmin, hbehind, Exchange.after_failure]
            at hwhole
          exact hwhole

/-- Obliging far ends are exactly those that take every byte of every packet. -/
theorem Peer.obliging_iff (p : Peer) :
    p.Obliging ↔ ∀ packet, (p.write packet).failure? = none := by
  constructor
  · intro h packet
    exact (writeScripted_obliging p.script p.room packet h).1
  · obtain ⟨script, room⟩ := p
    intro h
    induction script with
    | nil =>
        refine ⟨?_, fun _ hanswer => absurd hanswer List.not_mem_nil⟩
        cases room with
        | none => rfl
        | some n =>
            -- one byte more than there is room for
            let packet := (List.replicate (n + 1) (0 : UInt8)).toByteArray
            have hsize : packet.size = n + 1 := by
              rw [List.size_toByteArray, List.length_replicate]
            have hne : packet ≠ ByteArray.empty := by
              rw [Ne, ← ByteArray.size_eq_zero_iff]
              omega
            have hfull : ¬ packet.size ≤ n := by omega
            have hwhole := h packet
            rw [Peer.write, writeScripted, if_neg (mt isEmpty_iff.mp hne)] at hwhole
            simp only [writeUnscripted, if_neg hfull] at hwhole
            split at hwhole
            · cases hwhole
            · cases hwhole
    | cons answer script ih =>
        obtain ⟨hanswer, htail⟩ := takes_all_tail h
        obtain ⟨hroom, hscript⟩ := ih htail
        refine ⟨hroom, ?_⟩
        intro a ha
        rcases List.mem_cons.mp ha with heq | hmem
        · rw [heq]
          exact hanswer
        · exact hscript a hmem

namespace Link

/-! ## One send -/

/-- The next attempt to connect succeeds, and the new connection takes the whole packet. -/
def Ready (l : Link) (packet : ByteArray) : Prop :=
  ∃ peer, l.answer l.attempts = .ok peer ∧ (peer.write packet).failure? = none

/-- The connection in use takes at least one byte of the packet but not all of
them, and then fails. -/
def Tears (l : Link) (packet : ByteArray) (e : Failure) : Prop :=
  ∃ c, l.slot.held = some c ∧ Torn (c.peer.write packet).taken packet ∧
    (c.peer.write packet).failure? = some e

section Send

variable {l : Link} {c : Connection} {message : ByteArray} {e : Failure}

theorem send_unheld (hs : l.slot.held = none) :
    l.send message = l.sendAnew (message.push lineFeed) := by
  simp only [send, Slot.write, hs]

/-- The connection in use takes the whole packet. -/
theorem send_whole (hs : l.slot.held = some c)
    (h : (c.peer.write (message.push lineFeed)).failure? = none) :
    l.send message =
      ({ l with slot := l.slot.hold (c.write (message.push lineFeed)).1 }, .ok ()) := by
  obtain ⟨⟨held, closed⟩, attempts, answer⟩ := l
  cases hs
  simp only [send, Slot.write_whole h, Slot.hold]

/-- The connection in use takes nothing of the packet: it is sent on a new one. -/
theorem send_lost (hs : l.slot.held = some c)
    (h : (c.peer.write (message.push lineFeed)).failure? = some e)
    (hnone : (c.peer.write (message.push lineFeed)).taken = ByteArray.empty) :
    l.send message =
      Link.sendAnew { l with slot := l.slot.close (c.write (message.push lineFeed)).1 }
        (message.push lineFeed) := by
  obtain ⟨⟨held, closed⟩, attempts, answer⟩ := l
  cases hs
  simp only [send, Slot.write_cut h, hnone, if_true, Slot.close]

/-- The connection in use takes part of the packet: it is not sent again. -/
theorem send_torn (hs : l.slot.held = some c)
    (h : (c.peer.write (message.push lineFeed)).failure? = some e)
    (hpart : (c.peer.write (message.push lineFeed)).taken ≠ ByteArray.empty) :
    l.send message =
      ({ l with slot := l.slot.close (c.write (message.push lineFeed)).1 }, .error e) := by
  obtain ⟨⟨held, closed⟩, attempts, answer⟩ := l
  cases hs
  simp only [send, Slot.write_cut h, if_neg hpart, Slot.close]

end Send

/-- A new connection is in use exactly if it took the packet. -/
theorem sendAnew_connected_iff {l : Link} (hs : l.slot.held = none) (packet : ByteArray) :
    (l.sendAnew packet).1.isConnected = true ↔ (l.sendAnew packet).2 = .ok () := by
  rcases l.sendAnew_cases packet with ⟨e, hsend⟩ | ⟨c, hsend, -⟩ | ⟨c, e, hsend, -⟩
  · simp [hsend, isConnected, hs]
  · simp [hsend, isConnected, Slot.hold]
  · simp [hsend, isConnected, Slot.close]

/-- After a send a connection is in use exactly if the send was answered well. -/
theorem send_connected_iff (l : Link) (message : ByteArray) :
    (l.send message).1.isConnected = true ↔ (l.send message).2 = .ok () := by
  cases hs : l.slot.held with
  | none =>
      rw [send_unheld hs]
      exact sendAnew_connected_iff hs _
  | some c =>
      cases hfailure : (c.peer.write (message.push lineFeed)).failure? with
      | none => simp [send_whole hs hfailure, isConnected, Slot.hold]
      | some e =>
          by_cases hpart : (c.peer.write (message.push lineFeed)).taken = ByteArray.empty
          · -- the connection was given up before the new one is opened
            rw [send_lost hs hfailure hpart]
            exact sendAnew_connected_iff rfl _
          · simp [send_torn hs hfailure hpart, isConnected, Slot.close]

/-- A link whose target is ready sends the packet on a new connection. -/
theorem sendAnew_ready {l : Link} {packet : ByteArray} (h : l.Ready packet) :
    ∃ peer, l.answer l.attempts = .ok peer ∧
      l.sendAnew packet =
        ({ l with
            attempts := l.attempts + 1
            slot := l.slot.hold ((Connection.fresh peer).write packet).1 }, .ok ()) := by
  obtain ⟨peer, hanswer, hwhole⟩ := h
  have hwrite : (Connection.fresh peer).write packet =
      (((Connection.fresh peer).write packet).1, .ok ()) := by
    simp only [Connection.write, Connection.fresh, Exchange.outcome, hwhole]
  refine ⟨peer, hanswer, ?_⟩
  rw [sendAnew, connect, hanswer]
  simp only [Except.map]
  rw [hwrite]

/-- With no connection in use, all depends on the next attempt to connect. -/
theorem send_ready {l : Link} (hs : l.slot.held = none) {message : ByteArray}
    (h : l.Ready (message.push lineFeed)) : (l.send message).2 = .ok () := by
  obtain ⟨peer, -, hsend⟩ := sendAnew_ready h
  rw [send_unheld hs, hsend]

theorem tears_iff {l : Link} {c : Connection} (hs : l.slot.held = some c) (packet : ByteArray)
    (e : Failure) :
    l.Tears packet e ↔
      Torn (c.peer.write packet).taken packet ∧ (c.peer.write packet).failure? = some e := by
  simp only [Tears, hs, Option.some.injEq, exists_eq_left']

/-- Where the next attempt to connect would do, a send fails exactly if the
connection in use tears the packet. -/
theorem send_error_iff {l : Link} {message : ByteArray} (h : l.Ready (message.push lineFeed))
    (e : Failure) :
    (l.send message).2 = .error e ↔ l.Tears (message.push lineFeed) e := by
  cases hs : l.slot.held with
  | none => simp [send_ready hs h, Tears, hs]
  | some c =>
      rw [tears_iff hs]
      have hcovers := writeScripted_covers c.peer.script c.peer.room (message.push lineFeed)
      cases hfailure : (c.peer.write (message.push lineFeed)).failure? with
      | none => simp [send_whole hs hfailure]
      | some e' =>
          by_cases hpart : (c.peer.write (message.push lineFeed)).taken = ByteArray.empty
          · -- lost with the connection, so it goes to the new one
            obtain ⟨peer, -, hsend⟩ := sendAnew_ready
              (l := { l with slot := l.slot.close (c.write (message.push lineFeed)).1 }) h
            simp [send_lost hs hfailure hpart, hsend, Torn, hpart]
          · have htorn : Torn (c.peer.write (message.push lineFeed)).taken
                (message.push lineFeed) := by
              rcases hcovers with ⟨hwhole, -⟩ | ⟨e'', -, hcut⟩
              · exact absurd (hfailure.symm.trans hwhole) (Option.some_ne_none e')
              · exact ⟨hpart, hcut⟩
            simp [send_torn hs hfailure hpart, htorn]

/-- A send that fails leaves no connection in use. -/
theorem held_of_error {l : Link} {message : ByteArray} {e : Failure}
    (h : (l.send message).2 = .error e) : (l.send message).1.slot.held = none := by
  have hidle : ¬ (l.send message).1.isConnected = true := by
    rw [send_connected_iff, h]
    intro hok
    cases hok
  simpa [isConnected] using hidle

/-! ## While the target is up -/

/-- From now on every attempt to connect succeeds, and every new connection takes
every byte. -/
def TargetUp (l : Link) : Prop :=
  ∀ n, l.attempts ≤ n → ∃ peer, l.answer n = .ok peer ∧ peer.Obliging

/-- The connection in use, if there is one, takes every byte. -/
def Sound (l : Link) : Prop := ∀ c, l.slot.held = some c → c.peer.Obliging

theorem TargetUp.ready {l : Link} (h : l.TargetUp) (packet : ByteArray) : l.Ready packet := by
  obtain ⟨peer, hanswer, hpeer⟩ := h l.attempts (Nat.le_refl _)
  exact ⟨peer, hanswer, peer.obliging_iff.mp hpeer packet⟩

theorem sendAnew_answer (l : Link) (packet : ByteArray) :
    (l.sendAnew packet).1.answer = l.answer := by
  rcases l.sendAnew_cases packet with ⟨e, hsend⟩ | ⟨c, hsend, -⟩ | ⟨c, e, hsend, -⟩
  · rw [hsend]
  · rw [hsend]
  · rw [hsend]

/-- Sending does not change how the target answers. -/
theorem send_answer (l : Link) (message : ByteArray) : (l.send message).1.answer = l.answer := by
  rcases l.slot.write_cases (message.push lineFeed) with
    ⟨-, hwrite⟩ | ⟨c, c', -, hwrite, -⟩ | ⟨c, c', e, -, hwrite, -⟩ | ⟨c, c', e, part, -, hwrite, -⟩
  · simp only [send, hwrite, sendAnew_answer]
  · simp only [send, hwrite]
  · simp only [send, hwrite, sendAnew_answer]
  · simp only [send, hwrite]

theorem TargetUp.send {l : Link} (h : l.TargetUp) (message : ByteArray) :
    (l.send message).1.TargetUp := by
  obtain ⟨k, part, hplaced⟩ := send_placement l message
  intro n hn
  rw [send_answer]
  exact h n (Nat.le_trans hplaced.attempts_ge hn)

/-- While the target is up, a sound link answers well and stays sound. -/
theorem send_sound {l : Link} (hup : l.TargetUp) (hsound : l.Sound) (message : ByteArray) :
    (l.send message).2 = .ok () ∧ (l.send message).1.Sound := by
  cases hs : l.slot.held with
  | none =>
      obtain ⟨peer, hanswer, hsend⟩ := sendAnew_ready (hup.ready (message.push lineFeed))
      obtain ⟨peer', hanswer', hpeer⟩ := hup l.attempts (Nat.le_refl _)
      cases hanswer.symm.trans hanswer'
      rw [send_unheld hs, hsend]
      refine ⟨rfl, ?_⟩
      intro c hc
      cases hc
      exact (writeScripted_obliging peer.script peer.room _ hpeer).2
  | some c =>
      obtain ⟨hwhole, hpeer⟩ := writeScripted_obliging c.peer.script c.peer.room
        (message.push lineFeed) (hsound c hs)
      rw [send_whole hs hwhole]
      refine ⟨rfl, ?_⟩
      intro c' hc'
      cases hc'
      exact hpeer

/-- The receipts of a history of sends that failed. -/
def failures (l : Link) (messages : List ByteArray) : List Receipt :=
  (l.receipts messages).filter fun r => r.answer ≠ .ok ()

theorem failures_cons (l : Link) (m : ByteArray) (rest : List ByteArray) :
    l.failures (m :: rest) =
      if (l.send m).2 = .ok () then (l.send m).1.failures rest
      else l.receipt m :: (l.send m).1.failures rest := by
  by_cases hok : (l.send m).2 = .ok ()
  · have hanswer : ¬ (l.receipt m).answer ≠ .ok () := fun h => h hok
    rw [if_pos hok, failures, receipts, List.filter_cons_of_neg (by simpa using hanswer), failures]
  · have hanswer : (l.receipt m).answer ≠ .ok () := hok
    rw [if_neg hok, failures, receipts, List.filter_cons_of_pos (by simpa using hanswer), failures]

/-- While the target is up, no send of a sound link fails. -/
theorem failures_sound {l : Link} (hup : l.TargetUp) (hsound : l.Sound)
    (messages : List ByteArray) : l.failures messages = [] := by
  induction messages generalizing l with
  | nil => rfl
  | cons m rest ih =>
      obtain ⟨hok, hafter⟩ := send_sound hup hsound m
      rw [failures_cons, if_pos hok]
      exact ih (hup.send m) hafter

/-- While the target is up, only a connection from before can fail, and with the
first failure that one is gone. -/
theorem failures_le_one {l : Link} (hup : l.TargetUp) (messages : List ByteArray) :
    (l.failures messages).length ≤ 1 := by
  induction messages generalizing l with
  | nil => exact Nat.zero_le 1
  | cons m rest ih =>
      rw [failures_cons]
      cases hanswer : (l.send m).2 with
      | ok _ =>
          rw [if_pos rfl]
          exact ih (hup.send m)
      | error e =>
          have hsound : (l.send m).1.Sound := by
            intro c hc
            rw [held_of_error hanswer] at hc
            cases hc
          have hbad : (Except.error e : Except Failure Unit) ≠ .ok () := by
            intro hok
            cases hok
          rw [if_neg hbad, failures_sound (hup.send m) hsound rest]
          exact Nat.le_refl 1

/-! ## The law of a link that comes back -/

/-- After any history of a link, whatever its target has answered:

* a connection is in use after a send exactly if the send was answered well;
* if the next attempt to connect succeeds and the new connection takes the whole
  packet, a send fails exactly if the connection in use tears the packet, and with
  the failure of that connection;
* if the next attempt does so for the packet behind a failed one, that packet is
  answered well;
* if from some time on every attempt succeeds and every new connection takes every
  byte, at most one send fails ever after. -/
theorem recovery (start : Link) (history : List ByteArray) :
    let l := start.sendAll history
    (∀ message, (l.send message).1.isConnected = true ↔ (l.send message).2 = .ok ()) ∧
    (∀ message, l.Ready (message.push lineFeed) →
      ∀ e, (l.send message).2 = .error e ↔ l.Tears (message.push lineFeed) e) ∧
    (∀ message e, (l.send message).2 = .error e →
      ∀ next, (l.send message).1.Ready (next.push lineFeed) →
        ((l.send message).1.send next).2 = .ok ()) ∧
    (l.TargetUp → ∀ more, (l.failures more).length ≤ 1) := by
  intro l
  refine ⟨send_connected_iff l, ?_, ?_, ?_⟩
  · intro message hready e
    exact send_error_iff hready e
  · intro message e herror next hready
    exact send_ready (held_of_error herror) hready
  · intro hup more
    exact failures_le_one hup more

/-- A target whose first connection tears the second packet, and then is up. -/
theorem recovery_torn :
    let e : Failure := .system .brokenPipe
    let start := Link.start true fun n =>
      if n = 0 then .ok ⟨[.accepted 3, .accepted 2, .failed e], none⟩ else .ok Peer.willing
    let l := start.sendAll [⟨#[97, 98]⟩]
    let cut : ByteArray := ⟨#[100, 101, 102]⟩
    let next : ByteArray := ⟨#[103]⟩
    l.TargetUp ∧ l.Ready (cut.push lineFeed) ∧ l.Tears (cut.push lineFeed) e ∧
      (l.send cut).2 = .error e ∧ ¬ (l.send cut).1.isConnected = true ∧
      ((l.send cut).1.send next).2 = .ok () ∧ (l.failures [cut, next, cut]).length ≤ 1 := by
  intro e start l cut next
  have hattempts : l.attempts = 1 := by decide +kernel
  have hup : l.TargetUp := by
    intro n hn
    have hlater : l.answer = start.answer := by
      simp only [l, sendAll, send_answer]
    have hn : n ≠ 0 := by omega
    refine ⟨Peer.willing, ?_, willing_obliging⟩
    rw [hlater]
    exact if_neg hn
  have hready : l.Ready (cut.push lineFeed) := hup.ready _
  have hready' : (l.send cut).1.Ready (next.push lineFeed) := (hup.send cut).ready _
  obtain ⟨hconnected, hcauses, hreturns, hbound⟩ := recovery start [⟨#[97, 98]⟩]
  have herror : (l.send cut).2 = .error e := by decide +kernel
  refine ⟨hup, hready, (hcauses cut hready e).mp herror, herror, ?_, ?_, ?_⟩
  · rw [hconnected cut, herror]
    intro hok
    cases hok
  · exact hreturns cut e herror next hready'
  · exact hbound hup [cut, next, cut]

end Link

end Statsd.Stream

import Statsd.Stream.Link
import Statsd.Proofs.Bytes

/-!
# Statsd.Proofs.Stream.Writer — what one packet comes to on one connection

Whatever a far end answers, the writer offers the bytes of a packet in order
and each of them once. So the bytes taken are a first part of the packet, and
the packet is given up exactly if that part is not the whole.

* `Cut part packet` says that `part` is a first part of `packet` and not all of it.
* `writeScripted_covers` is the loop lemma, by induction on the script.
* `Connection.write_cases` is all that the rest of the theory needs to know of
  a write; `Slot.write_cases` and `Link.sendAnew_cases` say the same of the
  connection in use and of a new one.
* A far end that answers with positive counts only takes every packet
  (`Peer.Obliging`, `Connection.write_obliging`).
-/

namespace Statsd.Stream

/-! ## First parts of a packet -/

/-- A first part of a packet, and not the whole of it. -/
def Cut (part packet : ByteArray) : Prop :=
  ∃ left, left ≠ ByteArray.empty ∧ part ++ left = packet

/-- A first part of a packet that is neither empty nor the whole. -/
def Torn (part packet : ByteArray) : Prop :=
  part ≠ ByteArray.empty ∧ Cut part packet

theorem cut_ne {part packet : ByteArray} (h : Cut part packet) : part ≠ packet := by
  rcases h with ⟨left, hleft, hpacket⟩
  intro heq
  apply hleft
  have hsize : part.size + left.size = part.size := by
    rw [← ByteArray.size_append, hpacket, heq]
  rw [← ByteArray.size_eq_zero_iff]
  omega

/-- Nothing is a first part of every packet that has bytes. -/
theorem cut_empty {packet : ByteArray} (h : packet ≠ ByteArray.empty) :
    Cut ByteArray.empty packet :=
  ⟨packet, h, ByteArray.empty_append⟩

/-- A first part of what is left, behind what was taken before. -/
theorem cut_append {chunk part rest : ByteArray} (h : Cut part rest) :
    Cut (chunk ++ part) (chunk ++ rest) := by
  rcases h with ⟨left, hleft, hrest⟩
  exact ⟨left, hleft, by rw [ByteArray.append_assoc, hrest]⟩

/-! ## The writing loop -/

/-- An exchange in which the whole packet was taken, or part of it and then a failure. -/
def Exchange.Covers (x : Exchange) (packet : ByteArray) : Prop :=
  (x.failure? = .none ∧ x.taken = packet) ∨ (∃ e, x.failure? = some e ∧ Cut x.taken packet)

theorem stop_covers (peer : Peer) (e : Failure) {packet : ByteArray}
    (h : packet ≠ ByteArray.empty) : (Exchange.stop peer e).Covers packet :=
  Or.inr ⟨e, rfl, cut_empty h⟩

theorem none_covers (peer : Peer) : (Exchange.none peer).Covers ByteArray.empty :=
  Or.inl ⟨rfl, rfl⟩

/-- A write that took `chunk`, in front of an exchange for the rest. -/
theorem after_covers (chunk : ByteArray) {x : Exchange} {rest : ByteArray} (h : x.Covers rest) :
    (x.after chunk).Covers (chunk ++ rest) := by
  rcases h with ⟨hok, htaken⟩ | ⟨e, herr, hcut⟩
  · exact Or.inl ⟨hok, by simp only [Exchange.after, htaken]⟩
  · exact Or.inr ⟨e, herr, cut_append hcut⟩

theorem writeUnscripted_covers (room : Option Nat) {rest : ByteArray}
    (h : rest ≠ ByteArray.empty) : (writeUnscripted room rest).Covers rest := by
  have hwhole : ∀ peer, ((Exchange.none peer).after rest).Covers rest := by
    intro peer
    simpa using after_covers rest (none_covers peer)
  cases room with
  | none => exact hwhole Peer.willing
  | some n =>
      simp only [writeUnscripted]
      split
      · exact hwhole _
      · rename_i hroom
        split
        · exact stop_covers _ _ h
        · -- the room ends inside the packet: part of it is taken, and then the write blocks
          have hleft : rest.extract n rest.size ≠ ByteArray.empty := by
            rw [Ne, ByteArray.extract_eq_empty_iff]
            omega
          have hcovers := after_covers (rest.extract 0 n)
            (stop_covers ⟨[], some 0⟩ (.system .wouldBlock) hleft)
          rwa [extract_append_rest rest (by omega)] at hcovers

/-- The loop offers what is left and nothing else, so its exchange covers the packet. -/
theorem writeScripted_covers (script : List WriteResult) (room : Option Nat) (rest : ByteArray) :
    (writeScripted script room rest).Covers rest := by
  fun_induction writeScripted script room rest with
  | case1 room rest hempty =>
      rw [isEmpty_iff.mp hempty]
      exact none_covers _
  | case2 room rest hne =>
      exact writeUnscripted_covers room (mt isEmpty_iff.mpr hne)
  | case3 answer script room rest hempty =>
      rw [isEmpty_iff.mp hempty]
      exact none_covers _
  | case4 script room rest hne n k hk =>
      exact stop_covers _ _ (mt isEmpty_iff.mpr hne)
  | case5 script room rest hne n k hk ih =>
      -- `k` bytes are taken, and the loop goes on behind them
      have hcovers := after_covers (rest.extract 0 k) ih
      rwa [extract_append_rest rest (Nat.min_le_right n rest.size)] at hcovers
  | case6 script room rest hne ih =>
      -- an interrupted write has taken nothing
      have hcovers := after_covers ByteArray.empty ih
      rwa [ByteArray.empty_append] at hcovers
  | case7 script room rest hne e =>
      exact stop_covers _ _ (mt isEmpty_iff.mpr hne)

/-! ## A write on a connection -/

/-- All that a write on a connection can come to: the whole packet is taken and
the answer is good, or a first part is taken and the answer tells how long it is. -/
theorem Connection.write_cases (c : Connection) (packet : ByteArray) :
    (∃ c', c.write packet = (c', .ok ()) ∧ c'.accepted = c.accepted ++ packet ∧
      c'.read = c.read) ∨
    (∃ c' e part, c.write packet = (c', .error e) ∧ c'.accepted = c.accepted ++ part ∧
      c'.read = c.read ∧ Cut part packet ∧ e.written = part.size) := by
  rcases writeScripted_covers c.peer.script c.peer.room packet with
    ⟨hok, htaken⟩ | ⟨e, herr, hcut⟩
  · left
    refine ⟨(c.write packet).1, ?_, ?_, rfl⟩
    · simp only [Connection.write, Peer.write, Exchange.outcome, hok]
    · simp only [Connection.write, Peer.write, htaken]
  · right
    refine ⟨(c.write packet).1, ⟨(c.peer.write packet).taken.size, e⟩,
      (c.peer.write packet).taken, ?_, rfl, rfl, hcut, rfl⟩
    simp only [Connection.write, Peer.write, Exchange.outcome, herr]

/-! ## A write at the slot, and a write on a new connection -/

/-- All that a write at the slot can come to. -/
theorem Slot.write_cases (s : Slot) (packet : ByteArray) :
    (s.held = none ∧ s.write packet = (s, .notConnected)) ∨
    (∃ c c', s.held = some c ∧ s.write packet = (s.hold c', .done) ∧
      c'.accepted = c.accepted ++ packet ∧ c'.read = c.read) ∨
    (∃ c c' e, s.held = some c ∧ s.write packet = (s.close c', .lost e) ∧
      c'.accepted = c.accepted ++ ByteArray.empty ∧ c'.read = c.read) ∨
    (∃ c c' e part, s.held = some c ∧ s.write packet = (s.close c', .broken e) ∧
      c'.accepted = c.accepted ++ part ∧ Torn part packet) := by
  cases hs : s.held with
  | none => exact Or.inl ⟨rfl, by simp only [write, hs]⟩
  | some c =>
      right
      rcases c.write_cases packet with
        ⟨c', hwrite, haccepted, hread⟩ | ⟨c', e, part, hwrite, haccepted, hread, hcut, hwritten⟩
      · left
        exact ⟨c, c', rfl, by simp only [write, hs, hwrite], haccepted, hread⟩
      · right
        by_cases hpart : part = ByteArray.empty
        · left
          have hzero : e.written = 0 := by rw [hwritten, hpart, ByteArray.size_empty]
          exact ⟨c, c', e.failure, rfl, by simp only [write, hs, hwrite, hzero, if_true],
            hpart ▸ haccepted, hread⟩
        · right
          have hpos : e.written ≠ 0 := by
            rw [hwritten]
            exact mt ByteArray.size_eq_zero_iff.mp hpart
          exact ⟨c, c', e.failure, part, rfl, by simp only [write, hs, hwrite, hpos, if_false],
            haccepted, hpart, hcut⟩

/-- All that sending on a new connection can come to: there is none, or it takes
the packet and is kept, or it takes less and is given up. -/
theorem Link.sendAnew_cases (l : Link) (packet : ByteArray) :
    (∃ e, l.sendAnew packet = ({ l with attempts := l.attempts + 1 }, .error e)) ∨
    (∃ c, l.sendAnew packet =
        ({ l with attempts := l.attempts + 1, slot := l.slot.hold c }, .ok ()) ∧
      c.accepted = packet ∧ c.read = none) ∨
    (∃ c e, l.sendAnew packet =
        ({ l with attempts := l.attempts + 1, slot := l.slot.close c }, .error e) ∧
      Cut c.accepted packet) := by
  cases hanswer : l.answer l.attempts with
  | error e =>
      left
      exact ⟨e, by simp only [sendAnew, connect, hanswer, Except.map]⟩
  | ok peer =>
      right
      rcases (Connection.fresh peer).write_cases packet with
        ⟨c, hwrite, haccepted, hread⟩ | ⟨c, e, part, hwrite, haccepted, -, hcut, -⟩
      · left
        exact ⟨c, by simp only [sendAnew, connect, hanswer, Except.map, hwrite],
          haccepted.trans ByteArray.empty_append, hread⟩
      · right
        have hpart : c.accepted = part := haccepted.trans ByteArray.empty_append
        exact ⟨c, e.failure, by simp only [sendAnew, connect, hanswer, Except.map, hwrite],
          hpart.symm ▸ hcut⟩

/-! ## Far ends that take everything -/

/-- A far end whose every answer takes at least one byte or asks to try again. -/
def Peer.Obliging (p : Peer) : Prop :=
  p.room = none ∧ ∀ a ∈ p.script, a = .interrupted ∨ ∃ n, a = .accepted (n + 1)

theorem willing_obliging : Peer.willing.Obliging := ⟨rfl, fun _ h => by cases h⟩

/-- The answers behind the first one of an obliging far end. -/
theorem obliging_tail {a : WriteResult} {script : List WriteResult} {room : Option Nat}
    (h : Peer.Obliging ⟨a :: script, room⟩) : Peer.Obliging ⟨script, room⟩ :=
  ⟨h.1, fun b hb => h.2 b (List.mem_cons_of_mem a hb)⟩

/-- An obliging far end takes a packet as a whole, and stays obliging. -/
theorem writeScripted_obliging (script : List WriteResult) (room : Option Nat) (rest : ByteArray)
    (h : Peer.Obliging ⟨script, room⟩) :
    (writeScripted script room rest).failure? = none ∧
      (writeScripted script room rest).peer.Obliging := by
  fun_induction writeScripted script room rest with
  | case1 room rest hempty => exact ⟨rfl, h⟩
  | case2 room rest hne =>
      have hroom : room = none := h.1
      rw [hroom]
      exact ⟨rfl, willing_obliging⟩
  | case3 answer script room rest hempty => exact ⟨rfl, h⟩
  | case4 script room rest hne n k hk =>
      -- a write of a packet with bytes takes at least one of them
      exfalso
      have hsize : rest.size ≠ 0 := fun h0 =>
        hne (isEmpty_iff.mpr (ByteArray.size_eq_zero_iff.mp h0))
      rcases h.2 _ (List.mem_cons_self ..) with hint | ⟨m, hm⟩
      · cases hint
      · cases hm
        omega
  | case5 script room rest hne n k hk ih => exact ih (obliging_tail h)
  | case6 script room rest hne ih => exact ih (obliging_tail h)
  | case7 script room rest hne e =>
      rcases h.2 _ (List.mem_cons_self ..) with hint | ⟨m, hm⟩
      · cases hint
      · cases hm

theorem Connection.write_obliging {c : Connection} (hc : c.peer.Obliging) (packet : ByteArray) :
    ∃ c', c.write packet = (c', .ok ()) ∧ c'.peer.Obliging := by
  have h := writeScripted_obliging c.peer.script c.peer.room packet hc
  refine ⟨(c.write packet).1, ?_, h.2⟩
  simp only [Connection.write, Peer.write, Exchange.outcome, h.1]

end Statsd.Stream

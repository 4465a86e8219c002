import Statsd.Proofs.Stream.Writer

/-!
# Statsd.Proofs.Stream.Integrity — whole packets on a stream, and each at most once

A history of a link is the sequence of its sends, each with a `Receipt`: the
packet, the bytes that every connection took of it, and the answer.

1. **Step**: `send_placement` says all that one send can do. It puts a first
   part of its packet on one connection, which had not been given up before;
   the answer is good exactly if that part is the whole packet; and a
   connection that took only a part is given up.
2. **Run**: `taken_sendAll` and `receipts_intact` carry this over a history: a
   connection holds whole packets in the order of the sends, and behind them
   at most one torn packet, with which it was given up.
3. `stream_integrity` joins the two for all answers of a target.

How the target answers is a parameter throughout: any answer to each attempt
to connect, and on each connection any list of answers to its writes. A
history makes finitely many writes, so such a list can hold all of them.
-/

namespace Statsd.Stream

/-! ## The bytes of a connection -/

namespace Slot

/-- How many connections have been given up. They are the first ones that were opened. -/
def givenUp (s : Slot) : Nat := s.closed.length

/-- The bytes that the `k`-th connection has taken, in the order in which
connections are opened; none if there are fewer. -/
def taken (s : Slot) (k : Nat) : ByteArray :=
  (s.connections[k]?.map (·.accepted)).getD ByteArray.empty

theorem givenUp_close (s : Slot) (c : Connection) : (s.close c).givenUp = s.givenUp + 1 := by
  rw [givenUp, close, List.length_append, List.length_singleton, givenUp]

/-- The connections of a slot, one by one: those given up, the one in use, and no more. -/
theorem taken_lt (closed : List Connection) (held : Option Connection) {j : Nat}
    (h : j < closed.length) : (Slot.mk held closed).taken j = (closed[j]).accepted := by
  rw [taken, connections, List.getElem?_append_left h, List.getElem?_eq_getElem h]
  rfl

theorem taken_none_ge (closed : List Connection) {j : Nat} (h : closed.length ≤ j) :
    (Slot.mk none closed).taken j = ByteArray.empty := by
  rw [taken, connections, Option.toList_none, List.append_nil, List.getElem?_eq_none h]
  rfl

theorem taken_some_length (closed : List Connection) (c : Connection) :
    (Slot.mk (some c) closed).taken closed.length = c.accepted := by
  rw [taken, connections, Option.toList_some, List.getElem?_concat_length]
  rfl

theorem taken_some_gt (closed : List Connection) (c : Connection) {j : Nat}
    (h : closed.length < j) : (Slot.mk (some c) closed).taken j = ByteArray.empty := by
  have hlen : (closed ++ [c]).length ≤ j := by
    rw [List.length_append, List.length_singleton]
    exact h
  rw [taken, connections, Option.toList_some, List.getElem?_eq_none hlen]
  rfl

/-- Giving a connection up does not touch its bytes. -/
theorem taken_close (s : Slot) (c : Connection) (j : Nat) :
    (s.close c).taken j = (s.hold c).taken j := by
  rw [taken, taken, connections, connections, close, hold, Option.toList_none, List.append_nil,
    Option.toList_some]

/-- A connection is put in use where there was none. -/
theorem taken_hold_none {s : Slot} (hs : s.held = none) (c : Connection) (j : Nat) :
    (s.hold c).taken j = s.taken j ++ if j = s.givenUp then c.accepted else ByteArray.empty := by
  rcases s with ⟨held, closed⟩
  cases hs
  rcases Nat.lt_trichotomy j closed.length with hlt | heq | hgt
  · rw [hold, taken_lt closed _ hlt, taken_lt closed _ hlt, givenUp, if_neg (Nat.ne_of_lt hlt),
      ByteArray.append_empty]
  · rw [hold, heq, taken_some_length, taken_none_ge closed (Nat.le_refl _), givenUp, if_pos rfl,
      ByteArray.empty_append]
  · rw [hold, taken_some_gt closed c hgt, taken_none_ge closed (Nat.le_of_lt hgt), givenUp,
      if_neg (Nat.ne_of_gt hgt), ByteArray.append_empty]

/-- The connection in use takes more bytes. -/
theorem taken_hold_some {s : Slot} {c c' : Connection} {part : ByteArray} (hs : s.held = some c)
    (hc : c'.accepted = c.accepted ++ part) (j : Nat) :
    (s.hold c').taken j = s.taken j ++ if j = s.givenUp then part else ByteArray.empty := by
  rcases s with ⟨held, closed⟩
  cases hs
  rcases Nat.lt_trichotomy j closed.length with hlt | heq | hgt
  · rw [hold, taken_lt closed _ hlt, taken_lt closed _ hlt, givenUp, if_neg (Nat.ne_of_lt hlt),
      ByteArray.append_empty]
  · rw [hold, heq, taken_some_length, taken_some_length, givenUp, if_pos rfl, hc]
  · rw [hold, taken_some_gt closed c' hgt, taken_some_gt closed c hgt, givenUp,
      if_neg (Nat.ne_of_gt hgt), ByteArray.append_empty]

/-- All that a write at the slot can come to, by the bytes that connections have taken. -/
theorem write_taken (s : Slot) (packet : ByteArray) :
    (s.held = none ∧ s.write packet = (s, .notConnected)) ∨
    (∃ c, s.write packet = (s.hold c, .done) ∧
      ∀ j, (s.hold c).taken j = s.taken j ++ if j = s.givenUp then packet else ByteArray.empty) ∨
    (∃ c e, s.write packet = (s.close c, .lost e) ∧ ∀ j, (s.close c).taken j = s.taken j) ∨
    (∃ c e part, s.write packet = (s.close c, .broken e) ∧ Torn part packet ∧
      ∀ j, (s.close c).taken j = s.taken j ++ if j = s.givenUp then part else ByteArray.empty) := by
  rcases s.write_cases packet with
    h | ⟨c, c', hs, hwrite, hc, -⟩ | ⟨c, c', e, hs, hwrite, hc, -⟩ |
    ⟨c, c', e, part, hs, hwrite, hc, htorn⟩
  · exact Or.inl h
  · exact Or.inr (Or.inl ⟨c', hwrite, taken_hold_some hs hc⟩)
  · refine Or.inr (Or.inr (Or.inl ⟨c', e, hwrite, ?_⟩))
    intro j
    rw [taken_close, taken_hold_some hs hc, ite_self, ByteArray.append_empty]
  · refine Or.inr (Or.inr (Or.inr ⟨c', e, part, hwrite, htorn, ?_⟩))
    intro j
    rw [taken_close, taken_hold_some hs hc]

end Slot

/-! ## Histories -/

namespace Link

/-- A link at its start: it may connect ahead of the first packet. -/
def start (early : Bool) (answer : Nat → ConnectResult) : Link :=
  if early then (init answer).connectEarly else init answer

/-- A link after it has sent some messages. -/
def sendAll (l : Link) : List ByteArray → Link
  | [] => l
  | m :: rest => (l.send m).1.sendAll rest

end Link

/-- What can be told of one send: what was to be sent, what the caller heard,
and what happened on the connections meanwhile. -/
structure Receipt where
  /-- The message with its line feed. -/
  packet : ByteArray
  answer : Except Failure Unit
  /-- The bytes that the `k`-th connection took. -/
  placed : Nat → ByteArray
  /-- How many attempts to connect were made. -/
  attempts : Nat

namespace Link

/-- The receipt of sending a message: the bytes and attempts by which the link
after the send differs from the one before. -/
def receipt (l : Link) (message : ByteArray) : Receipt :=
  let after := (l.send message).1
  { packet := message.push lineFeed
    answer := (l.send message).2
    placed := fun k => (after.slot.taken k).extract (l.slot.taken k).size (after.slot.taken k).size
    attempts := after.attempts - l.attempts }

/-- The receipts of sending some messages, in order. -/
def receipts (l : Link) : List ByteArray → List Receipt
  | [] => []
  | m :: rest => l.receipt m :: (l.send m).1.receipts rest

end Link

/-! ## One send -/

/-- What one send does to a link: it puts `part` on the `k`-th connection. -/
structure Placement (l after : Link) (packet : ByteArray) (answer : Except Failure Unit)
    (k : Nat) (part : ByteArray) : Prop where
  /-- Every connection keeps its bytes, and only the `k`-th gets some. -/
  taken : ∀ j, after.slot.taken j = l.slot.taken j ++ if j = k then part else ByteArray.empty
  /-- The `k`-th connection had not been given up. -/
  fresh : l.slot.givenUp ≤ k
  /-- The whole packet and a good answer, or less; a connection with less is given up. -/
  outcome : (answer = .ok () ∧ part = packet) ∨
    ((∃ e, answer = .error e) ∧ Cut part packet ∧
      (part ≠ ByteArray.empty → k < after.slot.givenUp))
  /-- What has been given up stays given up. -/
  givenUp : l.slot.givenUp ≤ after.slot.givenUp
  attempts_ge : l.attempts ≤ after.attempts
  attempts_le : after.attempts ≤ l.attempts + 1

/-- With no connection in use, a send connects once and puts its bytes there. -/
theorem sendAnew_placement {l : Link} (hl : l.slot.held = none) {packet : ByteArray}
    (hp : packet ≠ ByteArray.empty) :
    ∃ part, Placement l (l.sendAnew packet).1 packet (l.sendAnew packet).2 l.slot.givenUp part := by
  rcases l.sendAnew_cases packet with ⟨e, hsend⟩ | ⟨c, hsend, hc, -⟩ | ⟨c, e, hsend, hcut⟩
  · -- no connection: nothing is placed
    rw [hsend]
    refine ⟨ByteArray.empty, ?_, Nat.le_refl _, ?_, Nat.le_refl _, Nat.le_succ _, Nat.le_refl _⟩
    · intro j
      rw [ite_self, ByteArray.append_empty]
    · exact Or.inr ⟨⟨e, rfl⟩, cut_empty hp, fun h => absurd rfl h⟩
  · -- the new connection takes the packet and is kept
    rw [hsend]
    refine ⟨packet, ?_, Nat.le_refl _, Or.inl ⟨rfl, rfl⟩, Nat.le_refl _, Nat.le_succ _,
      Nat.le_refl _⟩
    intro j
    rw [← hc]
    exact Slot.taken_hold_none hl c j
  · -- the new connection fails and is given up at once
    have hup : (l.slot.close c).givenUp = l.slot.givenUp + 1 := Slot.givenUp_close l.slot c
    rw [hsend]
    refine ⟨c.accepted, ?_, Nat.le_refl _, ?_, ?_, Nat.le_succ _, Nat.le_refl _⟩
    · intro j
      rw [← Slot.taken_hold_none hl c j]
      exact Slot.taken_close l.slot c j
    · refine Or.inr ⟨⟨e, rfl⟩, hcut, fun _ => ?_⟩
      rw [hup]
      exact Nat.lt_succ_self _
    · rw [hup]
      exact Nat.le_succ _

/-- All that one send can do. -/
theorem send_placement (l : Link) (message : ByteArray) :
    ∃ k part, Placement l (l.send message).1 (message.push lineFeed) (l.send message).2 k part := by
  have hp : message.push lineFeed ≠ ByteArray.empty := push_ne_empty message lineFeed
  generalize hpacket : message.push lineFeed = packet at hp
  rcases l.slot.write_taken packet with
    ⟨hheld, hwrite⟩ | ⟨c, hwrite, htaken⟩ | ⟨c, e, hwrite, htaken⟩ |
    ⟨c, e, part, hwrite, htorn, htaken⟩
  · -- no connection in use
    have hsend : l.send message = l.sendAnew packet := by
      simp only [Link.send, hpacket, hwrite]
    rw [hsend]
    exact ⟨l.slot.givenUp, sendAnew_placement hheld hp⟩
  · -- the connection in use takes the packet
    have hsend : l.send message = ({ l with slot := l.slot.hold c }, .ok ()) := by
      simp only [Link.send, hpacket, hwrite]
    rw [hsend]
    exact ⟨l.slot.givenUp, packet, htaken, Nat.le_refl _, Or.inl ⟨rfl, rfl⟩, Nat.le_refl _,
      Nat.le_refl _, Nat.le_succ _⟩
  · -- nothing was taken: the connection is given up and the packet goes to a new one
    have hsend : l.send message = Link.sendAnew { l with slot := l.slot.close c } packet := by
      simp only [Link.send, hpacket, hwrite]
    have hup : l.slot.givenUp ≤ (l.slot.close c).givenUp := by
      rw [Slot.givenUp_close]
      exact Nat.le_succ _
    rcases sendAnew_placement (l := { l with slot := l.slot.close c }) rfl hp with ⟨part, h⟩
    rw [hsend]
    refine ⟨_, part, ?_, hup, h.outcome, Nat.le_trans hup h.givenUp, h.attempts_ge, h.attempts_le⟩
    intro j
    rw [h.taken j]
    exact congrArg (· ++ _) (htaken j)
  · -- the packet is cut, and not sent again
    have hsend : l.send message = ({ l with slot := l.slot.close c }, .error e) := by
      simp only [Link.send, hpacket, hwrite]
    have hup : (l.slot.close c).givenUp = l.slot.givenUp + 1 := Slot.givenUp_close l.slot c
    rw [hsend]
    refine ⟨l.slot.givenUp, part, htaken, Nat.le_refl _, Or.inr ⟨⟨e, rfl⟩, htorn.2, ?_⟩, ?_,
      Nat.le_refl _, Nat.le_succ _⟩
    · intro _
      rw [hup]
      exact Nat.lt_succ_self _
    · rw [hup]
      exact Nat.le_succ _

/-! ## Receipts -/

/-- A receipt tells of a placement: the answer, the attempts and the bytes of
its send, which are on one connection. -/
theorem receipt_placement (l : Link) (message : ByteArray) :
    ∃ k part, Placement l (l.send message).1 (message.push lineFeed) (l.send message).2 k part ∧
      ∀ j, (l.receipt message).placed j = if j = k then part else ByteArray.empty := by
  rcases send_placement l message with ⟨k, part, h⟩
  refine ⟨k, part, h, ?_⟩
  intro j
  simp only [Link.receipt, h.taken j]
  exact ByteArray.extract_append_eq_right rfl ByteArray.size_append

/-- A connection has its bytes from before and what the receipt says. -/
theorem taken_send (l : Link) (message : ByteArray) (k : Nat) :
    (l.send message).1.slot.taken k = l.slot.taken k ++ (l.receipt message).placed k := by
  rcases receipt_placement l message with ⟨i, part, h, hplaced⟩
  rw [h.taken k, hplaced k]

theorem index_eq {j k : Nat} {part : ByteArray}
    (h : (if j = k then part else ByteArray.empty) ≠ ByteArray.empty) : j = k := by
  by_cases hjk : j = k
  · exact hjk
  · exact absurd (if_neg hjk) h

/-- One send puts bytes on at most one connection. -/
theorem placed_unique (l : Link) (message : ByteArray) {i j : Nat}
    (hi : (l.receipt message).placed i ≠ ByteArray.empty)
    (hj : (l.receipt message).placed j ≠ ByteArray.empty) : i = j := by
  rcases receipt_placement l message with ⟨k, part, -, hplaced⟩
  rw [hplaced] at hi hj
  exact (index_eq hi).trans (index_eq hj).symm

/-- A send is answered well exactly if one connection took the whole packet. -/
theorem answer_iff_whole (l : Link) (message : ByteArray) :
    (l.receipt message).answer = .ok () ↔
      ∃ k, (l.receipt message).placed k = (l.receipt message).packet := by
  rcases receipt_placement l message with ⟨k, part, h, hplaced⟩
  have hanswer : (l.receipt message).answer = (l.send message).2 := rfl
  have hpacket : (l.receipt message).packet = message.push lineFeed := rfl
  rw [hanswer, hpacket]
  constructor
  · intro hok
    rcases h.outcome with ⟨-, hpart⟩ | ⟨⟨e, herr⟩, -, -⟩
    · exact ⟨k, by rw [hplaced, if_pos rfl, hpart]⟩
    · rw [herr] at hok
      cases hok
  · rintro ⟨j, hj⟩
    rw [hplaced] at hj
    have hjk : j = k := index_eq (by rw [hj]; exact push_ne_empty message lineFeed)
    rw [if_pos hjk] at hj
    rcases h.outcome with ⟨hok, -⟩ | ⟨-, hcut, -⟩
    · exact hok
    · exact absurd hj (cut_ne hcut)

/-- What a send puts on a connection is nothing, the whole packet, or a torn
packet with which the connection is given up. -/
theorem placed_cases (l : Link) (message : ByteArray) (k : Nat) :
    (l.receipt message).placed k = ByteArray.empty ∨
    (l.receipt message).placed k = (l.receipt message).packet ∨
    (Torn ((l.receipt message).placed k) (l.receipt message).packet ∧
      k < (l.send message).1.slot.givenUp) := by
  rcases receipt_placement l message with ⟨i, part, h, hplaced⟩
  rw [hplaced]
  by_cases hki : k = i
  · rw [if_pos hki]
    rcases h.outcome with ⟨-, hpart⟩ | ⟨-, hcut, hup⟩
    · exact Or.inr (Or.inl hpart)
    · by_cases hempty : part = ByteArray.empty
      · exact Or.inl hempty
      · exact Or.inr (Or.inr ⟨⟨hempty, hcut⟩, hki ▸ hup hempty⟩)
  · exact Or.inl (if_neg hki)

/-- A connection that has been given up takes nothing. -/
theorem placed_givenUp (l : Link) (message : ByteArray) {k : Nat} (hk : k < l.slot.givenUp) :
    (l.receipt message).placed k = ByteArray.empty := by
  rcases receipt_placement l message with ⟨i, part, h, hplaced⟩
  have hfresh : l.slot.givenUp ≤ i := h.fresh
  rw [hplaced, if_neg (by omega)]

theorem givenUp_send (l : Link) (message : ByteArray) :
    l.slot.givenUp ≤ (l.send message).1.slot.givenUp := by
  rcases send_placement l message with ⟨k, part, h⟩
  exact h.givenUp

theorem receipt_attempts_le (l : Link) (message : ByteArray) :
    (l.receipt message).attempts ≤ 1 := by
  rcases send_placement l message with ⟨k, part, h⟩
  have hle : (l.send message).1.attempts ≤ l.attempts + 1 := h.attempts_le
  simp only [Link.receipt]
  omega

/-! ## Runs -/

theorem givenUp_sendAll (l : Link) (messages : List ByteArray) :
    l.slot.givenUp ≤ (l.sendAll messages).slot.givenUp := by
  induction messages generalizing l with
  | nil => exact Nat.le_refl _
  | cons m rest ih => exact Nat.le_trans (givenUp_send l m) (ih (l.send m).1)

/-- Every receipt of a history is that of one send from some state of the link. -/
theorem mem_receipts {l : Link} {messages : List ByteArray} {r : Receipt}
    (h : r ∈ l.receipts messages) : ∃ (before : Link) (m : ByteArray), r = before.receipt m := by
  induction messages generalizing l with
  | nil => cases h
  | cons m rest ih =>
      rcases List.mem_cons.mp h with heq | hrest
      · exact ⟨l, m, heq⟩
      · exact ih hrest

theorem receipts_packets (l : Link) (messages : List ByteArray) :
    (l.receipts messages).map (·.packet) = messages.map (·.push lineFeed) := by
  induction messages generalizing l with
  | nil => rfl
  | cons m rest ih =>
      simp only [Link.receipts, List.map_cons, ih]
      rfl

/-- A connection has its bytes from before and, in order, those of the receipts. -/
theorem taken_sendAll (l : Link) (messages : List ByteArray) (k : Nat) :
    (l.sendAll messages).slot.taken k =
      l.slot.taken k ++ concat ((l.receipts messages).map (·.placed k)) := by
  induction messages generalizing l with
  | nil => exact ByteArray.append_empty.symm
  | cons m rest ih =>
      simp only [Link.sendAll, Link.receipts, List.map_cons, concat_cons]
      rw [ih, taken_send, ByteArray.append_assoc]

/-- A connection that has been given up takes nothing in the whole history. -/
theorem placed_receipts_givenUp {l : Link} {k : Nat} (hk : k < l.slot.givenUp)
    (messages : List ByteArray) :
    ∀ r ∈ l.receipts messages, r.placed k = ByteArray.empty := by
  induction messages generalizing l with
  | nil =>
      intro r hr
      cases hr
  | cons m rest ih =>
      intro r hr
      rcases List.mem_cons.mp hr with heq | hrest
      · rw [heq]
        exact placed_givenUp l m hk
      · exact ih (Nat.lt_of_lt_of_le hk (givenUp_send l m)) r hrest

/-- The sends that put bytes on the `k`-th connection. -/
def sendsOn (k : Nat) (receipts : List Receipt) : List Receipt :=
  receipts.filter fun r => !(r.placed k).isEmpty

/-- Of the sends that put bytes on a connection, first those whose packet it
took as a whole, and then at most one whose packet was torn, with which the
connection was given up. -/
structure Intact (l : Link) (receipts : List Receipt) (k : Nat) (whole torn : List Receipt) :
    Prop where
  sends : sendsOn k receipts = whole ++ torn
  whole_placed : ∀ r ∈ whole, r.placed k = r.packet
  torn_length : torn.length ≤ 1
  torn_placed : ∀ r ∈ torn, Torn (r.placed k) r.packet
  torn_givenUp : torn ≠ [] → k < l.slot.givenUp

theorem sendsOn_cons (k : Nat) (r : Receipt) (rest : List Receipt) :
    sendsOn k (r :: rest) =
      if (r.placed k).isEmpty then sendsOn k rest else r :: sendsOn k rest := by
  by_cases h : (r.placed k).isEmpty = true
  · rw [if_pos h, sendsOn, List.filter_cons_of_neg (by simpa using h), sendsOn]
  · rw [if_neg h, sendsOn, List.filter_cons_of_pos (by simpa using h), sendsOn]

/-- Every connection is intact after every history. -/
theorem receipts_intact (l : Link) (messages : List ByteArray) (k : Nat) :
    ∃ whole torn, Intact (l.sendAll messages) (l.receipts messages) k whole torn := by
  induction messages generalizing l with
  | nil => exact ⟨[], [], rfl, by simp, by simp, by simp, fun h => absurd rfl h⟩
  | cons m rest ih =>
      rcases placed_cases l m k with hempty | hwhole | ⟨htorn, hup⟩
      · -- nothing on this connection: the send does not show
        rcases ih (l.send m).1 with ⟨whole, torn, h⟩
        refine ⟨whole, torn, ?_, h.whole_placed, h.torn_length, h.torn_placed, h.torn_givenUp⟩
        rw [Link.receipts, sendsOn_cons, if_pos (isEmpty_iff.mpr hempty)]
        exact h.sends
      · -- a whole packet in front of what follows
        rcases ih (l.send m).1 with ⟨whole, torn, h⟩
        have hne : (l.receipt m).placed k ≠ ByteArray.empty := by
          rw [hwhole]
          exact push_ne_empty m lineFeed
        refine ⟨l.receipt m :: whole, torn, ?_, ?_, h.torn_length, h.torn_placed, h.torn_givenUp⟩
        · rw [Link.receipts, sendsOn_cons, if_neg (mt isEmpty_iff.mp hne), h.sends,
            List.cons_append]
        · intro r hr
          rcases List.mem_cons.mp hr with heq | hrest
          · rw [heq, hwhole]
          · exact h.whole_placed r hrest
      · -- a torn packet: the connection is given up, so nothing follows
        refine ⟨[], [l.receipt m], ?_, by simp, Nat.le_refl 1, ?_, ?_⟩
        · have hnone : sendsOn k ((l.send m).1.receipts rest) = [] := by
            rw [sendsOn, List.filter_eq_nil_iff]
            intro r hr
            simpa [isEmpty_iff] using placed_receipts_givenUp hup rest r hr
          rw [Link.receipts, sendsOn_cons, if_neg (mt isEmpty_iff.mp htorn.1), hnone,
            List.nil_append]
        · intro r hr
          rw [List.mem_singleton.mp hr]
          exact htorn
        · intro _
          exact Nat.lt_of_lt_of_le hup (givenUp_sendAll (l.send m).1 rest)

/-- Sends that put nothing on a connection do not count for its bytes. -/
theorem concat_sendsOn (k : Nat) (receipts : List Receipt) :
    concat (receipts.map (·.placed k)) = concat ((sendsOn k receipts).map (·.placed k)) := by
  induction receipts with
  | nil => rfl
  | cons r rest ih =>
      rw [sendsOn_cons]
      split
      · rename_i hempty
        rw [List.map_cons, concat_cons, isEmpty_iff.mp hempty, ByteArray.empty_append, ih]
      · rw [List.map_cons, concat_cons, List.map_cons, concat_cons, ih]

/-- The bytes of an intact connection that had none at the start. -/
theorem taken_intact {l : Link} {messages : List ByteArray} {k : Nat} {whole torn : List Receipt}
    (hstart : l.slot.taken k = ByteArray.empty)
    (h : Intact (l.sendAll messages) (l.receipts messages) k whole torn) :
    (l.sendAll messages).slot.taken k =
      concat (whole.map (·.packet)) ++ concat (torn.map (·.placed k)) := by
  have hwhole : whole.map (·.placed k) = whole.map (·.packet) :=
    List.map_congr_left h.whole_placed
  rw [taken_sendAll, hstart, ByteArray.empty_append, concat_sendsOn, h.sends, List.map_append,
    concat_append, hwhole]

/-- At the start there is no connection, or a new one that was opened early. -/
theorem start_slot (early : Bool) (answer : Nat → ConnectResult) :
    (Link.start early answer).slot = Slot.empty ∨
      ∃ peer, (Link.start early answer).slot = Slot.empty.hold (Connection.fresh peer) := by
  cases early with
  | false => exact Or.inl rfl
  | true =>
      simp only [Link.start, if_true, Link.connectEarly, Link.connect, Link.init]
      cases answer 0 with
      | error e => exact Or.inl rfl
      | ok peer => exact Or.inr ⟨peer, rfl⟩

/-- No connection has taken a byte at the start. -/
theorem taken_start (early : Bool) (answer : Nat → ConnectResult) (k : Nat) :
    (Link.start early answer).slot.taken k = ByteArray.empty := by
  have hempty : Slot.empty.taken k = ByteArray.empty := Slot.taken_none_ge [] (Nat.zero_le k)
  rcases start_slot early answer with hslot | ⟨peer, hslot⟩
  · rw [hslot]
    exact hempty
  · rw [hslot, Slot.taken_hold_none rfl, hempty, ByteArray.empty_append]
    exact ite_self _

/-! ## The law of a history -/

/-- Whatever the target answers, connected early or not, and whatever is sent:

* the bytes on a connection are whole packets in the order of their sends, and
  behind them at most one torn packet; a connection with a torn packet has been
  given up, and one that has been given up takes no byte ever after;
* a send puts bytes on at most one connection;
* it is answered well exactly if one connection took its whole packet;
* it makes at most one attempt to connect. -/
theorem stream_integrity (early : Bool) (answer : Nat → ConnectResult)
    (messages : List ByteArray) :
    let l := (Link.start early answer).sendAll messages
    let receipts := (Link.start early answer).receipts messages
    receipts.map (·.packet) = messages.map (·.push lineFeed) ∧
    (∀ k, ∃ whole torn, Intact l receipts k whole torn ∧
      l.slot.taken k = concat (whole.map (·.packet)) ++ concat (torn.map (·.placed k))) ∧
    (∀ k, k < l.slot.givenUp → ∀ more, (l.sendAll more).slot.taken k = l.slot.taken k) ∧
    (∀ r ∈ receipts, ∀ j k, r.placed j ≠ ByteArray.empty → r.placed k ≠ ByteArray.empty → j = k) ∧
    (∀ r ∈ receipts, r.answer = .ok () ↔ ∃ k, r.placed k = r.packet) ∧
    (∀ r ∈ receipts, r.attempts ≤ 1) := by
  intro l receipts
  refine ⟨receipts_packets _ messages, ?_, ?_, ?_, ?_, ?_⟩
  · intro k
    rcases receipts_intact (Link.start early answer) messages k with ⟨whole, torn, h⟩
    exact ⟨whole, torn, h, taken_intact (taken_start early answer k) h⟩
  · intro k hk more
    have hnone : concat ((l.receipts more).map (·.placed k)) = ByteArray.empty := by
      apply concat_eq_empty
      intro b hb
      rcases List.mem_map.mp hb with ⟨r, hr, hb⟩
      rw [← hb]
      exact placed_receipts_givenUp hk more r hr
    rw [taken_sendAll, hnone, ByteArray.append_empty]
  · intro r hr j k hj hk
    rcases mem_receipts hr with ⟨before, m, rfl⟩
    exact placed_unique before m hj hk
  · intro r hr
    rcases mem_receipts hr with ⟨before, m, rfl⟩
    exact answer_iff_whole before m
  · intro r hr
    rcases mem_receipts hr with ⟨before, m, rfl⟩
    exact receipt_attempts_le before m

end Statsd.Stream

import Mathlib.Data.Stream.Init
import Statsd.Proofs.Stream.Writer

/-!
# Statsd.Proofs.Stream.Script — packets against any sequence of answers

Packets are written one after the other to one connection, whose far end
answers the writes as it likes (`Connection.writeAll`).

1. **Outcome**: the packets in front of the first failure are taken as a whole,
   the one that meets it is cut, and nothing is written behind it
   (`GivenUpAt`). The kind that is reported is that of the first answer that is
   neither a count nor an interruption (`Peer.firstKind?`).
2. **Pieces**: two scripts that differ in interruptions, and in how a count is
   split, come to the same (`Recut`, `writeAll_recut`). A count says how much
   was taken, so it must not exceed what was offered (`Offered`).
3. **End**: of an endless sequence of answers only finitely many are asked for,
   unless from some answer on all are interruptions (`Lively`,
   `writeAll_endless`).

`written_until_cut` joins the three.
-/

namespace Statsd.Stream

open scoped Bytes

/-! ## One answer at a time -/

/-- With nothing left to write no answer is asked for. -/
theorem writeScripted_empty (script : List WriteResult) (room : Option Nat) :
    writeScripted script room ByteArray.empty = .none ⟨script, room⟩ := by
  cases script with
  | nil => rfl
  | cons answer script => rfl

section Answer

variable (script : List WriteResult) (room : Option Nat) {rest : ByteArray}

/-- A count is taken, as far as there is something to take. -/
theorem writeScripted_accepted (hrest : rest ≠ ByteArray.empty) (n : Nat) :
    writeScripted (.accepted (n + 1) :: script) room rest =
      (writeScripted script room (rest.extract (min (n + 1) rest.size) rest.size)).after
        (rest.extract 0 (min (n + 1) rest.size)) := by
  have hsize : rest.size ≠ 0 := mt ByteArray.size_eq_zero_iff.mp hrest
  have htakes : min (n + 1) rest.size ≠ 0 := by omega
  rw [writeScripted, if_neg (mt isEmpty_iff.mp hrest)]
  exact if_neg htakes

theorem writeScripted_zero (hrest : rest ≠ ByteArray.empty) :
    writeScripted (.accepted 0 :: script) room rest = .stop ⟨script, room⟩ .nothingTaken := by
  rw [writeScripted, if_neg (mt isEmpty_iff.mp hrest)]
  exact if_pos (Nat.zero_min rest.size)

theorem writeScripted_interrupted (hrest : rest ≠ ByteArray.empty) :
    writeScripted (.interrupted :: script) room rest =
      (writeScripted script room rest).after ByteArray.empty := by
  rw [writeScripted, if_neg (mt isEmpty_iff.mp hrest)]

theorem writeScripted_failed (hrest : rest ≠ ByteArray.empty) (e : Failure) :
    writeScripted (.failed e :: script) room rest = .stop ⟨script, room⟩ e := by
  rw [writeScripted, if_neg (mt isEmpty_iff.mp hrest)]

end Answer

/-! ## The kind of a failure -/

/-- The kind of failure that an answer is for a packet with bytes, if it is one.
A write that takes no byte is a failure of its own kind. -/
def WriteResult.kind? : WriteResult → Option FailureKind
  | .accepted 0 => some .writeZero
  | .accepted (_ + 1) => none
  | .interrupted => none
  | .failed e => some e.kind

/-- The kind of the first failure among the answers of a far end. One that runs
out of room blocks. -/
def Peer.firstKind? (p : Peer) : Option FailureKind :=
  (p.script.findSome? WriteResult.kind?).or (p.room.map fun _ => .wouldBlock)

/-- An exchange that fails does so with this kind, and one that does not leaves it ahead. -/
structure Exchange.Meets (x : Exchange) (kind? : Option FailureKind) : Prop where
  failed : ∀ e, x.failure? = some e → kind? = some e.kind
  ahead : x.failure? = .none → x.peer.firstKind? = kind?

theorem meets_stop (peer : Peer) (e : Failure) : (Exchange.stop peer e).Meets (some e.kind) := by
  constructor
  · intro e' he'
    cases he'
    rfl
  · intro hnone
    cases hnone

theorem meets_none (peer : Peer) : (Exchange.none peer).Meets peer.firstKind? := by
  constructor
  · intro e he
    cases he
  · intro _
    rfl

/-- What one write has taken before has no say in what follows. -/
theorem Exchange.Meets.after {x : Exchange} {kind? : Option FailureKind} (h : x.Meets kind?)
    (chunk : ByteArray) : (x.after chunk).Meets kind? := ⟨h.failed, h.ahead⟩

theorem writeUnscripted_meets (room : Option Nat) (rest : ByteArray) :
    (writeUnscripted room rest).Meets (Peer.firstKind? ⟨[], room⟩) := by
  unfold writeUnscripted
  cases room with
  | none => exact (meets_none Peer.willing).after rest
  | some n =>
      dsimp only
      split
      · exact (meets_none ⟨[], some (n - rest.size)⟩).after rest
      · split
        · exact meets_stop _ _
        · exact (meets_stop _ _).after _

/-- Answers that are no failure are passed over until one is. -/
theorem writeScripted_meets (script : List WriteResult) (room : Option Nat) (rest : ByteArray) :
    (writeScripted script room rest).Meets (Peer.firstKind? ⟨script, room⟩) := by
  induction script generalizing rest with
  | nil =>
      rw [writeScripted]
      split
      · exact meets_none _
      · exact writeUnscripted_meets room rest
  | cons answer script ih =>
      by_cases hrest : rest = ByteArray.empty
      · rw [hrest, writeScripted_empty]
        exact meets_none _
      · cases answer with
        | accepted n =>
            cases n with
            | zero =>
                rw [writeScripted_zero script room hrest]
                exact meets_stop _ _
            | succ n =>
                rw [writeScripted_accepted script room hrest]
                exact (ih _).after _
        | interrupted =>
            rw [writeScripted_interrupted script room hrest]
            exact (ih rest).after _
        | failed e =>
            rw [writeScripted_failed script room hrest]
            exact meets_stop _ _

/-! ## Packets one after the other -/

/-- Write packets one after the other at a slot. -/
def Slot.writeAll (s : Slot) : List ByteArray → Slot × List WriteOutcome
  | [] => (s, [])
  | packet :: rest =>
    let (s, outcome) := s.write packet
    let (s, outcomes) := s.writeAll rest
    (s, outcome :: outcomes)

/-- Write packets one after the other to a connection in use. -/
def Connection.writeAll (c : Connection) (packets : List ByteArray) : Slot × List WriteOutcome :=
  (Slot.mk (some c) []).writeAll packets

/-- A packet that is taken as a whole leaves the connection in use. -/
theorem Slot.write_whole {closed : List Connection} {c : Connection} {packet : ByteArray}
    (h : (c.peer.write packet).failure? = none) :
    (Slot.mk (some c) closed).write packet = (⟨some (c.write packet).1, closed⟩, .done) := by
  have hanswer : (c.write packet).2 = .ok () := by
    simp only [Connection.write, Exchange.outcome, h]
  rcases hwrite : c.write packet with ⟨c', answer⟩
  rw [hwrite] at hanswer
  cases hanswer
  simp only [Slot.write, hwrite, hold]

/-- A packet that is cut costs the connection. -/
theorem Slot.write_cut {closed : List Connection} {c : Connection} {packet : ByteArray}
    {e : Failure} (h : (c.peer.write packet).failure? = some e) :
    (Slot.mk (some c) closed).write packet =
      (⟨none, closed ++ [(c.write packet).1]⟩,
        if (c.peer.write packet).taken = ByteArray.empty then .lost e else .broken e) := by
  have hanswer : (c.write packet).2 = .error ⟨(c.peer.write packet).taken.size, e⟩ := by
    simp only [Connection.write, Exchange.outcome, h]
  rcases hwrite : c.write packet with ⟨c', answer⟩
  rw [hwrite] at hanswer
  cases hanswer
  simp only [Slot.write, hwrite, close, ByteArray.size_eq_zero_iff]

/-- Without a connection nothing is written. -/
theorem Slot.writeAll_closed (closed : List Connection) (packets : List ByteArray) :
    (Slot.mk none closed).writeAll packets =
      (⟨none, closed⟩, packets.map fun _ => .notConnected) := by
  induction packets with
  | nil => rfl
  | cons packet rest ih =>
      have hwrite : (Slot.mk none closed).write packet = (⟨none, closed⟩, .notConnected) := rfl
      simp only [writeAll, hwrite, ih, List.map_cons]

/-- All packets were taken as a whole, and the connection is still in use. -/
structure AllTaken (c : Connection) (packets : List ByteArray) (x : Slot × List WriteOutcome) :
    Prop where
  outcomes : x.2 = packets.map fun _ => .done
  slot : ∃ c', x.1 = ⟨some c', []⟩ ∧ c'.accepted = c.accepted ++ concat packets

/-- The connection was given up at `packet`, of which it had taken `part`. -/
structure GivenUpAt (c : Connection) (before : List ByteArray) (packet : ByteArray)
    (later : List ByteArray) (part : ByteArray) (e : Failure) (x : Slot × List WriteOutcome) :
    Prop where
  /-- The packet is lost if nothing of it was taken, and broken otherwise. Those
  behind it find no connection. -/
  outcomes : x.2 = before.map (fun _ => .done) ++
    (if part = ByteArray.empty then .lost e else .broken e) :: later.map fun _ => .notConnected
  slot : ∃ c', x.1 = ⟨none, [c']⟩ ∧ c'.accepted = c.accepted ++ concat before ++ part
  cut : Cut part packet
  kind : c.peer.firstKind? = some e.kind
  /-- The packets behind it change nothing: they make no write. -/
  rest : x.1 = ((Slot.mk (some c) []).writeAll (before ++ [packet])).1

/-- A packet taken as a whole goes in front of those that follow it. -/
theorem GivenUpAt.cons {c : Connection} {first packet part : ByteArray}
    {before later : List ByteArray} {e : Failure} (hfirst : (c.peer.write first).failure? = none)
    (htaken : (c.write first).1.accepted = c.accepted ++ first)
    (hpeer : (c.write first).1.peer.firstKind? = c.peer.firstKind?)
    (h : GivenUpAt (c.write first).1 before packet later part e
      ((Slot.mk (some (c.write first).1) []).writeAll (before ++ packet :: later))) :
    GivenUpAt c (first :: before) packet later part e
      ((Slot.mk (some c) []).writeAll (first :: before ++ packet :: later)) := by
  have hstep : ∀ packets, (Slot.mk (some c) []).writeAll (first :: packets) =
      (((Slot.mk (some (c.write first).1) []).writeAll packets).1,
        .done :: ((Slot.mk (some (c.write first).1) []).writeAll packets).2) := by
    intro packets
    simp only [Slot.writeAll, Slot.write_whole hfirst]
  constructor
  · rw [List.cons_append, hstep, h.outcomes]
    rfl
  · obtain ⟨c', hslot, haccepted⟩ := h.slot
    refine ⟨c', ?_, ?_⟩
    · rw [List.cons_append, hstep]
      exact hslot
    · rw [haccepted, htaken, concat_cons]
      simp only [ByteArray.append_assoc]
  · exact h.cut
  · exact hpeer ▸ h.kind
  · rw [List.cons_append, List.cons_append, hstep, hstep]
    exact h.rest

/-- All that writing some packets to a connection can come to. -/
theorem Slot.writeAll_cases (c : Connection) (packets : List ByteArray) :
    AllTaken c packets ((Slot.mk (some c) []).writeAll packets) ∨
    ∃ before packet later part e, packets = before ++ packet :: later ∧
      GivenUpAt c before packet later part e ((Slot.mk (some c) []).writeAll packets) := by
  -- the connection changes from packet to packet, so it varies in the induction
  induction packets generalizing c with
  | nil =>
      left
      constructor
      · rfl
      · exact ⟨c, rfl, ByteArray.append_empty.symm⟩
  | cons first rest ih =>
      have hmeets := writeScripted_meets c.peer.script c.peer.room first
      rcases writeScripted_covers c.peer.script c.peer.room first with
        ⟨hwhole, htaken⟩ | ⟨e, hfailed, hcut⟩
      · -- taken as a whole: the rest finds the connection with what is left of its answers
        have hfirst : (c.peer.write first).failure? = none := hwhole
        have haccepted : (c.write first).1.accepted = c.accepted ++ first :=
          congrArg (c.accepted ++ ·) htaken
        have hpeer : (c.write first).1.peer.firstKind? = c.peer.firstKind? := hmeets.ahead hwhole
        rcases ih (c.write first).1 with hall | ⟨before, packet, later, part, e, heq, hgiven⟩
        · left
          obtain ⟨c', hslot, hbytes⟩ := hall.slot
          constructor
          · simp only [Slot.writeAll, Slot.write_whole hfirst, hall.outcomes, List.map_cons]
          · refine ⟨c', ?_, ?_⟩
            · simp only [Slot.writeAll, Slot.write_whole hfirst]
              exact hslot
            · rw [hbytes, haccepted, concat_cons, ByteArray.append_assoc]
        · right
          subst heq
          exact ⟨first :: before, packet, later, part, e, rfl,
            hgiven.cons hfirst haccepted hpeer⟩
      · -- cut: the connection is gone for the rest
        right
        have hfirst : (c.peer.write first).failure? = some e := hfailed
        have hall : ∀ packets, (Slot.mk (some c) []).writeAll (first :: packets) =
            (⟨none, [(c.write first).1]⟩,
              (if (c.peer.write first).taken = ByteArray.empty then .lost e else .broken e) ::
                packets.map fun _ => .notConnected) := by
          intro packets
          simp only [Slot.writeAll, Slot.write_cut hfirst, Slot.writeAll_closed, List.nil_append]
        refine ⟨[], first, rest, (c.peer.write first).taken, e, rfl, ?_⟩
        constructor
        · rw [hall]
          rfl
        · rw [hall]
          refine ⟨(c.write first).1, rfl, ?_⟩
          rw [concat_nil, ByteArray.append_empty]
          rfl
        · exact hcut
        · exact hmeets.failed e hfailed
        · rw [List.nil_append, hall, hall]

/-! ## The same answers in other pieces -/

/-- The second script has the same answers as the first, but for interruptions
that were put in or left out and counts that were split. -/
inductive Recut : List WriteResult → List WriteResult → Prop where
  | nil : Recut [] []
  | same {s t : List WriteResult} (answer : WriteResult) (h : Recut s t) :
      Recut (answer :: s) (answer :: t)
  | insert {s t : List WriteResult} (h : Recut s t) : Recut s (.interrupted :: t)
  | delete {s t : List WriteResult} (h : Recut s t) : Recut (.interrupted :: s) t
  | split {s t : List WriteResult} (m n : Nat)
      (h : Recut (.accepted (m + 1) :: .accepted (n + 1) :: s) t) :
      Recut (.accepted (m + n + 2) :: s) t

/-- Every count that is an answer to a write of these packets is within what
that write offers. -/
inductive Offered : List WriteResult → List ByteArray → Prop where
  | unanswered (packets : List ByteArray) : Offered [] packets
  | finished (script : List WriteResult) : Offered script []
  | empty {script : List WriteResult} {packets : List ByteArray} (h : Offered script packets) :
      Offered script (ByteArray.empty :: packets)
  | accepted {script : List WriteResult} {rest : ByteArray} {packets : List ByteArray} {n : Nat}
      (hsize : n + 1 ≤ rest.size) (h : Offered script (rest.extract (n + 1) rest.size :: packets)) :
      Offered (.accepted (n + 1) :: script) (rest :: packets)
  | interrupted {script : List WriteResult} {rest : ByteArray} {packets : List ByteArray}
      (h : Offered script (rest :: packets)) : Offered (.interrupted :: script) (rest :: packets)
  | zero (script : List WriteResult) (packets : List ByteArray) :
      Offered (.accepted 0 :: script) packets
  | failed (e : Failure) (script : List WriteResult) (packets : List ByteArray) :
      Offered (.failed e :: script) packets

theorem Recut.refl (script : List WriteResult) : Recut script script := by
  induction script with
  | nil => exact .nil
  | cons answer script ih => exact .same answer ih

/-- Two exchanges in which the same was taken and the same went wrong, and after
which the same answers are left but for their pieces. -/
structure Exchange.Agrees (x y : Exchange) : Prop where
  taken : y.taken = x.taken
  failure : y.failure? = x.failure?
  room : y.peer.room = x.peer.room
  script : x.failure? = .none → Recut x.peer.script y.peer.script

namespace Exchange.Agrees

theorem refl (x : Exchange) : x.Agrees x := ⟨rfl, rfl, rfl, fun _ => .refl _⟩

theorem after {x y : Exchange} (h : x.Agrees y) (chunk : ByteArray) :
    (x.after chunk).Agrees (y.after chunk) := by
  constructor
  · exact congrArg (chunk ++ ·) h.taken
  · exact h.failure
  · exact h.room
  · exact h.script

/-- An interruption takes nothing on either side. -/
theorem after_empty {x y : Exchange} (h : x.Agrees y) : x.Agrees (y.after ByteArray.empty) := by
  constructor
  · exact ByteArray.empty_append.trans h.taken
  · exact h.failure
  · exact h.room
  · exact h.script

theorem empty_after {x y : Exchange} (h : x.Agrees y) : (x.after ByteArray.empty).Agrees y := by
  constructor
  · exact h.taken.trans ByteArray.empty_append.symm
  · exact h.failure
  · exact h.room
  · exact h.script

theorem stop (s t : List WriteResult) (room : Option Nat) (e : Failure) :
    (Exchange.stop ⟨s, room⟩ e).Agrees (Exchange.stop ⟨t, room⟩ e) := by
  refine ⟨rfl, rfl, rfl, ?_⟩
  intro hnone
  cases hnone

theorem none {s t : List WriteResult} (h : Recut s t) (room : Option Nat) :
    (writeScripted s room ByteArray.empty).Agrees (writeScripted t room ByteArray.empty) := by
  rw [writeScripted_empty, writeScripted_empty]
  exact ⟨rfl, rfl, rfl, fun _ => h⟩

end Exchange.Agrees

/-- What is left behind two chunks is what is left behind both at once. -/
theorem extract_behind (rest : ByteArray) (m n : Nat) :
    (rest.extract (m + 1) rest.size).extract (n + 1) (rest.extract (m + 1) rest.size).size =
      rest.extract (m + n + 2) rest.size := by
  have hfrom : m + 1 + (n + 1) = m + n + 2 := by omega
  have hto : min (m + 1 + (min rest.size rest.size - (m + 1))) rest.size = rest.size := by omega
  rw [ByteArray.size_extract, ByteArray.extract_extract, hfrom, hto]

section Chunks

variable {rest : ByteArray} {m n : Nat}

/-- The second of two chunks is next to the first. -/
theorem extract_next (hsize : m + n + 2 ≤ rest.size) :
    rest.extract 0 (m + 1) ++ (rest.extract (m + 1) rest.size).extract 0 (n + 1) =
      rest.extract 0 (m + n + 2) := by
  have hto : min (m + 1 + (n + 1)) rest.size = m + n + 2 := by omega
  rw [ByteArray.extract_extract, Nat.add_zero, hto]
  exact (ByteArray.extract_eq_extract_append_extract (m + 1) (by omega) (by omega)).symm

/-- A count that is split takes one write more, and nothing else is different. -/
theorem writeScripted_split (script : List WriteResult) (room : Option Nat)
    (hsize : m + n + 2 ≤ rest.size) :
    writeScripted (.accepted (m + 1) :: .accepted (n + 1) :: script) room rest =
      { writeScripted (.accepted (m + n + 2) :: script) room rest with
        calls := (writeScripted (.accepted (m + n + 2) :: script) room rest).calls + 1 } := by
  have hrest : rest ≠ ByteArray.empty := by
    rw [Ne, ← ByteArray.size_eq_zero_iff]
    omega
  have hleft : (rest.extract (m + 1) rest.size).size = rest.size - (m + 1) := by
    rw [ByteArray.size_extract, Nat.min_self]
  have hleft_ne : rest.extract (m + 1) rest.size ≠ ByteArray.empty := by
    rw [Ne, ← ByteArray.size_eq_zero_iff]
    omega
  have hfirst : min (m + 1) rest.size = m + 1 := by omega
  have hsecond : min (n + 1) (rest.extract (m + 1) rest.size).size = n + 1 := by omega
  have hboth : min (m + n + 1 + 1) rest.size = m + n + 2 := by omega
  rw [writeScripted_accepted _ room hrest m, hfirst, writeScripted_accepted script room hleft_ne n,
    hsecond, writeScripted_accepted script room hrest (m + n + 1), hboth, extract_behind]
  simp only [Exchange.after, ← ByteArray.append_assoc, extract_next hsize]

end Chunks

/-- What is offered with the first answers, if the packet has bytes. -/
theorem Offered.accepted_inv {script : List WriteResult} {rest : ByteArray}
    {later : List ByteArray} {n : Nat} (hrest : rest ≠ ByteArray.empty)
    (h : Offered (.accepted (n + 1) :: script) (rest :: later)) :
    n + 1 ≤ rest.size ∧ Offered script (rest.extract (n + 1) rest.size :: later) := by
  cases h with
  | empty h => exact absurd rfl hrest
  | accepted hsize h => exact ⟨hsize, h⟩

theorem Offered.interrupted_inv {script : List WriteResult} {rest : ByteArray}
    {later : List ByteArray} (hrest : rest ≠ ByteArray.empty)
    (h : Offered (.interrupted :: script) (rest :: later)) : Offered script (rest :: later) := by
  cases h with
  | empty h => exact absurd rfl hrest
  | interrupted h => exact h

/-- Writing one packet against answers in other pieces comes to the same. -/
theorem writeScripted_recut {s t : List WriteResult} (h : Recut s t) (room : Option Nat)
    {rest : ByteArray} {later : List ByteArray} (hoffered : Offered s (rest :: later)) :
    (writeScripted s room rest).Agrees (writeScripted t room rest) := by
  -- what is left of the packet shrinks with the answers, so it varies in the induction
  induction h generalizing rest with
  | nil => exact .refl _
  | @same s t answer h ih =>
      by_cases hrest : rest = ByteArray.empty
      · rw [hrest]
        exact .none (.same answer h) room
      · cases answer with
        | accepted n =>
            cases n with
            | zero =>
                rw [writeScripted_zero s room hrest, writeScripted_zero t room hrest]
                exact .stop s t room _
            | succ n =>
                obtain ⟨hsize, hoffered⟩ := hoffered.accepted_inv hrest
                have hmin : min (n + 1) rest.size = n + 1 := by omega
                rw [writeScripted_accepted s room hrest, writeScripted_accepted t room hrest, hmin]
                exact (ih hoffered).after _
        | interrupted =>
            rw [writeScripted_interrupted s room hrest, writeScripted_interrupted t room hrest]
            exact (ih (hoffered.interrupted_inv hrest)).after _
        | failed e =>
            rw [writeScripted_failed s room hrest, writeScripted_failed t room hrest]
            exact .stop s t room e
  | @insert s t h ih =>
      by_cases hrest : rest = ByteArray.empty
      · rw [hrest]
        exact .none h.insert room
      · rw [writeScripted_interrupted t room hrest]
        exact (ih hoffered).after_empty
  | @delete s t h ih =>
      by_cases hrest : rest = ByteArray.empty
      · rw [hrest]
        exact .none h.delete room
      · rw [writeScripted_interrupted s room hrest]
        exact (ih (hoffered.interrupted_inv hrest)).empty_after
  | @split s t m n h ih =>
      by_cases hrest : rest = ByteArray.empty
      · rw [hrest]
        exact .none (h.split m n) room
      · -- the pieces of the count are within what is offered, as the count was
        obtain ⟨hsize, hleft⟩ := hoffered.accepted_inv hrest
        have hpieces : Offered (.accepted (m + 1) :: .accepted (n + 1) :: s) (rest :: later) := by
          have hsecond : n + 1 ≤ (rest.extract (m + 1) rest.size).size := by
            rw [ByteArray.size_extract]
            omega
          refine .accepted (by omega) (.accepted hsecond ?_)
          rw [extract_behind]
          exact hleft
        have hagrees := ih hpieces
        rw [writeScripted_split s room hsize] at hagrees
        exact ⟨hagrees.taken, hagrees.failure, hagrees.room, hagrees.script⟩

/-- A packet without bytes asks for no answer. -/
theorem Offered.tail {script : List WriteResult} {packets : List ByteArray}
    (h : Offered script (ByteArray.empty :: packets)) : Offered script packets := by
  generalize hall : ByteArray.empty :: packets = all at h
  induction h with
  | unanswered _ => exact .unanswered packets
  | finished _ => cases hall
  | empty h _ =>
      cases hall
      exact h
  | accepted hsize _ _ =>
      cases hall
      rw [ByteArray.size_empty] at hsize
      omega
  | @interrupted script rest later h ih =>
      cases hall
      cases packets with
      | nil => exact .finished _
      | cons p ps => exact .interrupted (ih rfl)
  | zero script _ => exact .zero script packets
  | failed e script _ => exact .failed e script packets

theorem writeUnscripted_script (room : Option Nat) (rest : ByteArray) :
    (writeUnscripted room rest).peer.script = [] := by
  unfold writeUnscripted
  cases room with
  | none => rfl
  | some n =>
      dsimp only
      split
      · rfl
      · split
        · rfl
        · rfl

/-- The answers that are left behind a packet are within what the others offer. -/
theorem writeScripted_offered {script : List WriteResult} (room : Option Nat) {rest : ByteArray}
    {later : List ByteArray} (h : Offered script (rest :: later))
    (hwhole : (writeScripted script room rest).failure? = none) :
    Offered (writeScripted script room rest).peer.script later := by
  induction script generalizing rest with
  | nil =>
      have hscript : (writeScripted [] room rest).peer.script = [] := by
        rw [writeScripted]
        split
        · rfl
        · exact writeUnscripted_script room rest
      rw [hscript]
      exact .unanswered later
  | cons answer script ih =>
      by_cases hrest : rest = ByteArray.empty
      · subst hrest
        rw [writeScripted_empty]
        exact h.tail
      · cases answer with
        | accepted n =>
            cases n with
            | zero =>
                rw [writeScripted_zero script room hrest] at hwhole
                cases hwhole
            | succ n =>
                obtain ⟨hsize, hleft⟩ := h.accepted_inv hrest
                have hmin : min (n + 1) rest.size = n + 1 := by omega
                rw [writeScripted_accepted script room hrest, hmin] at hwhole ⊢
                exact ih hleft hwhole
        | interrupted =>
            rw [writeScripted_interrupted script room hrest] at hwhole ⊢
            exact ih (h.interrupted_inv hrest) hwhole
        | failed e =>
            rw [writeScripted_failed script room hrest] at hwhole
            cases hwhole

/-- Two connections with the same bytes, whose answers differ in their pieces,
take the same of some packets. -/
theorem Slot.writeAll_recut {s t : List WriteResult} (h : Recut s t) {room : Option Nat}
    {packets : List ByteArray} (hoffered : Offered s packets) {c d : Connection}
    (hc : c.peer = ⟨s, room⟩) (hd : d.peer = ⟨t, room⟩) (hbytes : d.accepted = c.accepted) :
    let x := (Slot.mk (some c) []).writeAll packets
    let y := (Slot.mk (some d) []).writeAll packets
    y.2 = x.2 ∧ y.1.connections.map (·.accepted) = x.1.connections.map (·.accepted) := by
  induction packets generalizing s t room c d with
  | nil => exact ⟨rfl, congrArg (fun bytes => [bytes]) hbytes⟩
  | cons packet later ih =>
      have hagrees := writeScripted_recut h room hoffered
      have hxc : c.peer.write packet = writeScripted s room packet := by rw [hc]; rfl
      have hyd : d.peer.write packet = writeScripted t room packet := by rw [hd]; rfl
      have hwritten : (d.write packet).1.accepted = (c.write packet).1.accepted := by
        simp only [Connection.write, hxc, hyd, hbytes, hagrees.taken]
      cases hfailure : (writeScripted s room packet).failure? with
      | none =>
          have hcw : (c.peer.write packet).failure? = none := by rw [hxc, hfailure]
          have hdw : (d.peer.write packet).failure? = none := by
            rw [hyd, hagrees.failure, hfailure]
          have hcpeer : (c.write packet).1.peer =
              ⟨(writeScripted s room packet).peer.script,
                (writeScripted s room packet).peer.room⟩ := by
            simp only [Connection.write, hxc]
          have hdpeer : (d.write packet).1.peer =
              ⟨(writeScripted t room packet).peer.script,
                (writeScripted s room packet).peer.room⟩ := by
            simp only [Connection.write, hyd, ← hagrees.room]
          have hleft := writeScripted_offered room hoffered hfailure
          have hrest := ih (hagrees.script hfailure) hleft hcpeer hdpeer hwritten
          simp only [Slot.writeAll, Slot.write_whole hcw, Slot.write_whole hdw]
          exact ⟨congrArg (WriteOutcome.done :: ·) hrest.1, hrest.2⟩
      | some e =>
          have hcw : (c.peer.write packet).failure? = some e := by rw [hxc, hfailure]
          have hdw : (d.peer.write packet).failure? = some e := by
            rw [hyd, hagrees.failure, hfailure]
          simp only [Slot.writeAll, Slot.write_cut hcw, Slot.write_cut hdw, Slot.writeAll_closed,
            hxc, hyd, hagrees.taken, Slot.connections, Option.toList_none, List.append_nil,
            List.nil_append, List.map_cons, List.map_nil, hwritten, and_self]

/-! ## Endless sequences of answers -/

/-- An endless sequence of answers that are not all interruptions from some answer on. -/
def Lively (answers : Stream' WriteResult) : Prop :=
  ∀ n, ∃ m, n ≤ m ∧ answers.get m ≠ .interrupted

theorem Lively.drop {answers : Stream' WriteResult} (h : Lively answers) (k : Nat) :
    Lively (answers.drop k) := by
  intro n
  obtain ⟨m, hm, hanswer⟩ := h (k + n)
  refine ⟨m - k, by omega, ?_⟩
  rw [Stream'.get_drop, show k + (m - k) = m by omega]
  exact hanswer

/-- A packet is written with the first `n` answers of an endless sequence;
whatever is put behind these is left for the packets that follow. -/
def WrittenWith (answers : Stream' WriteResult) (packet : ByteArray) (n : Nat)
    (taken : ByteArray) (failure? : Option Failure) : Prop :=
  ∀ more room,
    writeScripted (answers.take n ++ more) room packet = ⟨taken, n, ⟨more, room⟩, failure?⟩

/-- A first answer that is no interruption ends the packet, or leaves less of it. -/
theorem writtenWith_of_head {answers : Stream' WriteResult} {packet : ByteArray}
    (hpacket : packet ≠ ByteArray.empty) (hhead : answers.head ≠ .interrupted)
    (hless : ∀ left : ByteArray, left.size < packet.size →
      ∃ n taken failure?, WrittenWith answers.tail left n taken failure?) :
    ∃ n taken failure?, WrittenWith answers packet n taken failure? := by
  cases hanswer : answers.head with
  | interrupted => exact absurd hanswer hhead
  | accepted n =>
      cases n with
      | zero =>
          refine ⟨1, ByteArray.empty, some .nothingTaken, ?_⟩
          intro more room
          rw [Stream'.take_succ, hanswer, Stream'.take_zero, List.cons_append, List.nil_append,
            writeScripted_zero more room hpacket]
          rfl
      | succ k =>
          have hsize : packet.size ≠ 0 := mt ByteArray.size_eq_zero_iff.mp hpacket
          have hshorter : (packet.extract (min (k + 1) packet.size) packet.size).size <
              packet.size := by
            rw [ByteArray.size_extract]
            omega
          obtain ⟨n, taken, failure?, hwritten⟩ := hless _ hshorter
          refine ⟨n + 1, packet.extract 0 (min (k + 1) packet.size) ++ taken, failure?, ?_⟩
          intro more room
          rw [Stream'.take_succ, hanswer, List.cons_append, writeScripted_accepted _ room hpacket,
            hwritten more room]
          rfl
  | failed e =>
      refine ⟨1, ByteArray.empty, some e, ?_⟩
      intro more room
      rw [Stream'.take_succ, hanswer, Stream'.take_zero, List.cons_append, List.nil_append,
        writeScripted_failed more room hpacket]
      rfl

/-- Every packet is written with finitely many answers. -/
theorem exists_writtenWith {answers : Stream' WriteResult} (h : Lively answers)
    (packet : ByteArray) : ∃ n taken failure?, WrittenWith answers packet n taken failure? := by
  -- a count makes the packet shorter, an interruption brings the next other answer closer
  induction hsize : packet.size using Nat.strong_induction_on generalizing answers packet with
  | h size ih =>
      by_cases hpacket : packet = ByteArray.empty
      · refine ⟨0, ByteArray.empty, none, ?_⟩
        intro more room
        rw [hpacket, Stream'.take_zero, List.nil_append, writeScripted_empty]
        rfl
      · obtain ⟨j, -, hj⟩ := h 0
        induction j generalizing answers with
        | zero =>
            apply writtenWith_of_head hpacket hj
            intro left hleft
            exact ih left.size (hsize ▸ hleft) (h.drop 1) left rfl
        | succ j ihj =>
            by_cases hhead : answers.head = .interrupted
            · obtain ⟨n, taken, failure?, hwritten⟩ := ihj (h.drop 1) hj
              refine ⟨n + 1, taken, failure?, ?_⟩
              intro more room
              have htail : writeScripted (answers.tail.take n ++ more) room packet = _ :=
                hwritten more room
              rw [Stream'.take_succ, hhead, List.cons_append,
                writeScripted_interrupted _ room hpacket, htail]
              simp only [Exchange.after, ByteArray.empty_append]
            · apply writtenWith_of_head hpacket hhead
              intro left hleft
              exact ih left.size (hsize ▸ hleft) (h.drop 1) left rfl

/-- Packets are written with finitely many answers of an endless sequence, one for
each write, and what is put behind these answers makes no difference. -/
theorem Slot.writeAll_endless {answers : Stream' WriteResult} (h : Lively answers)
    (packets : List ByteArray) :
    ∃ n outcomes bytes, ∀ more room (c : Connection), c.peer = ⟨answers.take n ++ more, room⟩ →
      let x := (Slot.mk (some c) []).writeAll packets
      x.2 = outcomes ∧ x.1.connections.map (·.accepted) = [c.accepted ++ bytes] ∧
        x.1.connections.map (·.calls) = [c.calls + n] := by
  induction packets generalizing answers with
  | nil =>
      refine ⟨0, [], ByteArray.empty, ?_⟩
      intro more room c hc
      refine ⟨rfl, ?_, rfl⟩
      rw [ByteArray.append_empty]
      rfl
  | cons packet later ih =>
      obtain ⟨n, taken, failure?, hwritten⟩ := exists_writtenWith h packet
      cases failure? with
      | none =>
          -- the packets behind it find the sequence without the answers it has used
          obtain ⟨k, outcomes, bytes, hlater⟩ := ih (h.drop n)
          refine ⟨n + k, .done :: outcomes, taken ++ bytes, ?_⟩
          intro more room c hc
          have hx : c.peer.write packet =
              ⟨taken, n, ⟨(answers.drop n).take k ++ more, room⟩, none⟩ := by
            rw [Peer.write, hc, Stream'.take_add, List.append_assoc]
            exact hwritten _ room
          have hwhole : (c.peer.write packet).failure? = none := congrArg Exchange.failure? hx
          obtain ⟨houtcomes, hbytes, hcalls⟩ := hlater more room (c.write packet).1
            (congrArg Exchange.peer hx)
          have haccepted : (c.write packet).1.accepted = c.accepted ++ taken :=
            congrArg (fun x : Exchange => c.accepted ++ x.taken) hx
          have hwrites : (c.write packet).1.calls = c.calls + n :=
            congrArg (fun x : Exchange => c.calls + x.calls) hx
          rw [haccepted, ByteArray.append_assoc] at hbytes
          rw [hwrites, Nat.add_assoc] at hcalls
          simp only [Slot.writeAll, Slot.write_whole hwhole, houtcomes]
          exact ⟨trivial, hbytes, hcalls⟩
      | some e =>
          refine ⟨n, (if taken = ByteArray.empty then .lost e else .broken e) ::
            later.map (fun _ => .notConnected), taken, ?_⟩
          intro more room c hc
          have hx : c.peer.write packet = ⟨taken, n, ⟨more, room⟩, some e⟩ := by
            rw [Peer.write, hc]
            exact hwritten more room
          have hcut : (c.peer.write packet).failure? = some e := congrArg Exchange.failure? hx
          simp only [Slot.writeAll, Slot.write_cut hcut, Slot.writeAll_closed, hx, List.nil_append]
          refine ⟨trivial, ?_, ?_⟩
          · exact congrArg (fun x : Exchange => [c.accepted ++ x.taken]) hx
          · exact congrArg (fun x : Exchange => [c.calls + x.calls]) hx

/-! ## The law of a connection -/

/-- Whatever a far end answers to the writes of some packets:

* the connection takes whole packets in their order, until it takes only a first
  part of one. That one is broken if the part has bytes and lost if it has none,
  with the kind of the first answer that is a failure; the packets behind it
  make no write;
* interruptions that are put in or left out, and counts that are split, change
  neither the outcomes nor the bytes taken;
* against an endless sequence of answers the packets come to an end after
  finitely many writes, unless only interruptions follow from some answer on. -/
theorem written_until_cut (c : Connection) (packets : List ByteArray) :
    (AllTaken c packets (c.writeAll packets) ∨
      ∃ before packet later part e, packets = before ++ packet :: later ∧
        GivenUpAt c before packet later part e (c.writeAll packets)) ∧
    (∀ script, Offered c.peer.script packets → Recut c.peer.script script →
      let x := c.writeAll packets
      let y := ({ c with peer := ⟨script, c.peer.room⟩ } : Connection).writeAll packets
      y.2 = x.2 ∧ y.1.connections.map (·.accepted) = x.1.connections.map (·.accepted)) ∧
    (∀ answers, Lively answers → ∃ n outcomes bytes, ∀ more room,
      let x := ({ c with peer := ⟨answers.take n ++ more, room⟩ } : Connection).writeAll packets
      x.2 = outcomes ∧ x.1.connections.map (·.accepted) = [c.accepted ++ bytes] ∧
        x.1.connections.map (·.calls) = [c.calls + n]) := by
  refine ⟨Slot.writeAll_cases c packets, ?_, ?_⟩
  · intro script hoffered hrecut
    exact Slot.writeAll_recut hrecut hoffered rfl rfl rfl
  · intro answers hlively
    obtain ⟨n, outcomes, bytes, hwritten⟩ := Slot.writeAll_endless hlively packets
    refine ⟨n, outcomes, bytes, ?_⟩
    intro more room
    exact hwritten more room { c with peer := ⟨answers.take n ++ more, room⟩ } rfl

/-- Three packets, of which the second is cut after two of its four bytes, with the
answers as they came and with an interruption and a count split in two. -/
theorem written_until_cut_split :
    let e : Failure := .system .brokenPipe
    let c := Connection.fresh ⟨[.accepted 3, .accepted 2, .failed e], none⟩
    let script : List WriteResult :=
      [.accepted 1, .interrupted, .accepted 2, .accepted 2, .failed e]
    let packets : List ByteArray := [⟨#[97, 98, 99]⟩, ⟨#[100, 101, 102, 103]⟩, ⟨#[104]⟩]
    let y := ({ c with peer := ⟨script, none⟩ } : Connection).writeAll packets
    Offered c.peer.script packets ∧ Recut c.peer.script script ∧
      Lively (Stream'.const (.accepted 1)) ∧
      y.2 = [.done, .broken e, .notConnected] ∧
      y.1.connections.map (·.accepted) = [⟨#[97, 98, 99, 100, 101]⟩] ∧
      ∃ n outcomes bytes, ∀ more room,
        let x := ({ c with peer := ⟨(Stream'.const (.accepted 1)).take n ++ more, room⟩ } :
          Connection).writeAll packets
        x.2 = outcomes ∧ x.1.connections.map (·.accepted) = [c.accepted ++ bytes] ∧
          x.1.connections.map (·.calls) = [c.calls + n] := by
  intro e c script packets y
  have hoffered : Offered c.peer.script packets := by
    refine .accepted (by decide) ?_
    rw [show (ByteArray.mk #[97, 98, 99]).extract (2 + 1) _ = ByteArray.empty by decide +kernel]
    exact .empty (.accepted (by decide) (.failed e [] _))
  have hrecut : Recut c.peer.script script :=
    .split 0 1 (.same _ (.insert (.same _ (.refl _))))
  have hlively : Lively (Stream'.const (.accepted 1)) := by
    intro n
    refine ⟨n, Nat.le_refl n, ?_⟩
    rw [Stream'.get_const]
    exact fun h => WriteResult.noConfusion h
  obtain ⟨houtcomes, hbytes⟩ := (written_until_cut c packets).2.1 script hoffered hrecut
  refine ⟨hoffered, hrecut, hlively, ?_, ?_, (written_until_cut c packets).2.2 _ hlively⟩
  · exact houtcomes.trans (by decide +kernel)
  · exact hbytes.trans (by decide +kernel)

end Statsd.Stream

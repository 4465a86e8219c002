import Mathlib.Data.List.Flatten
import Statsd.Proofs.Batch.Fewest
import Statsd.Proofs.Config
import Statsd.Proofs.Session.Passed
import Statsd.Proofs.Session.Transparency

/-!
# Statsd.Proofs.Session.Payload — batches that are too large for a datagram

A datagram of more than 65507 bytes does not go out. Without a batch size only
a message of that size is lost; with one, a packet may be lost that holds
several messages, each of which would have gone out.

* `Link.heard` is what a target hears over a link, line by line. Over a network
  that carries datagrams whole or not at all it hears the packets that are not
  too large (`run_heard`).
* So a batch size keeps the lines of a group or loses them with its packet
  (`keptLines`, `lightLines_packets`). A group of several messages has the batch
  size at most, so nothing is lost to a batch size of at most 65507
  (`batched_lines`).
* A larger batch size is accepted all the same. Two messages that it lets be
  joined are both lost if they are too large together (`pair_heard`, `pair_lost`).
-/

namespace Statsd

open Net (Endpoint Host Target maxDatagram carryWhole)

/-! ## Packets that go out -/

/-- A packet that is not too large for a datagram. -/
def Packet.Light (p : Packet) : Prop := p.data.size ≤ maxDatagram

instance (p : Packet) : Decidable p.Light := inferInstanceAs (Decidable (_ ≤ _))

/-- The lines of those packets that are not too large for a datagram. -/
def lightLines (packets : List Packet) : List Line :=
  (packets.filter (·.Light)).flatMap fun p => splitLines p.data

theorem lightLines_append (ps qs : List Packet) :
    lightLines (ps ++ qs) = lightLines ps ++ lightLines qs := by
  unfold lightLines
  rw [List.filter_append, List.flatMap_append]

theorem lightLines_flatten (groups : List (List Packet)) :
    lightLines groups.flatten = groups.flatMap lightLines := by
  induction groups with
  | nil => rfl
  | cons g rest ih => rw [List.flatten_cons, lightLines_append, ih, List.flatMap_cons]

/-- Light packets keep all their lines. -/
theorem lightLines_of_light {packets : List Packet} (h : ∀ p ∈ packets, p.Light) :
    lightLines packets = packets.flatMap fun p => splitLines p.data := by
  unfold lightLines
  rw [List.filter_eq_self.mpr fun p hp => decide_eq_true (h p hp)]

/-- Over a socket that carries a datagram as a whole or not at all, what is not
too large is delivered. -/
theorem Datagram.Link.delivered_whole {l : Datagram.Link} {s : Datagram.Socket}
    (hsocket : l.socket = some s) (hcarry : s.carry = carryWhole) :
    l.delivered = l.offered.filter fun d => d.size ≤ maxDatagram := by
  unfold delivered
  rw [hsocket]
  apply List.filter_congr
  intro d _
  rw [hcarry, carryWhole]
  by_cases hsize : d.size ≤ maxDatagram
  · rw [if_pos hsize, decide_eq_true hsize]
    exact decide_eq_true (Nat.le_refl _)
  · rw [if_neg hsize, decide_eq_false hsize]

namespace Link

/-- The lines that the target hears. -/
def heard (l : Link) : List Line := endedLines l.received

/-- There is a socket, and it carries a datagram as a whole or not at all. -/
def Whole : Link → Prop
  | .datagram l => ∃ s, l.socket = some s ∧ s.carry = carryWhole
  | _ => False

/-- Datagrams are heard line by line. -/
theorem heard_datagram (l : Datagram.Link) :
    (Link.datagram l).heard = l.delivered.flatMap splitLines := endedLines_terminated l.delivered

/-- A packet is heard unless it is too large. -/
theorem send_whole {l : Link} (h : l.Whole) (p : Packet) :
    (Transport.send l p.data).1.Whole ∧
      (Transport.send l p.data).1.heard = l.heard ++ lightLines [p] := by
  cases l with
  | stream l => exact absurd h id
  | idle => exact absurd h id
  | datagram l =>
      rcases h with ⟨s, hsocket, hcarry⟩
      let after : Datagram.Link := { l with offered := l.offered ++ [p.data] }
      have hsend : (Transport.send (Link.datagram l) p.data).1 = .datagram after :=
        congrArg Link.datagram (Datagram.Link.send_connected hsocket p.data)
      have hafter :
          after.delivered = (l.offered ++ [p.data]).filter fun d => d.size ≤ maxDatagram :=
        Datagram.Link.delivered_whole hsocket hcarry
      have hlight : ([p.data].filter fun d => d.size ≤ maxDatagram) =
          ([p].filter (·.Light)).map (·.data) :=
        List.filter_map (f := Packet.data) (l := [p])
      rw [hsend]
      refine ⟨⟨s, hsocket, hcarry⟩, ?_⟩
      rw [heard_datagram, heard_datagram, hafter, List.filter_append, List.flatMap_append, hlight,
        List.flatMap_map, Datagram.Link.delivered_whole hsocket hcarry]
      rfl

end Link

/-! ## Runs over datagrams -/

namespace Session

/-- Over a network that carries datagrams whole or not at all, the target hears
the packets of a run that are not too large. -/
theorem run_heard (limit : Option Nat) {link : Link} (hwhole : link.Whole) (hfresh : link.Fresh)
    (scope : Prefix) (live : Bool) (draws : Generator) (ops : List Op) :
    let x := (Session.init (Sink.init limit link) scope live draws).run ops
    x.1.sink.transport.heard = lightLines ((Event.attempts x.2).map (·.packet)) := by
  intro x
  let start := Session.init (Sink.init limit link) scope live draws
  have hrun := run_follows start ops
  let Heard (l : Link) (past : List Attempt) : Prop :=
    l.Whole ∧ l.heard = lightLines (past.map (·.packet))
  have hstart : Heard start.sink.transport [] := by
    refine ⟨hwhole, ?_⟩
    show endedLines link.received = []
    rw [(Link.fresh_received hfresh).2]
    rfl
  have hlast : Heard (start.sink.handleAll (start.front.allRequests ops)).1.transport
      ([] ++ (start.sink.handleAll (start.front.allRequests ops)).2) := by
    refine Sink.handleAll_invariant ?_ ?_ hstart (start.front.allRequests ops)
    · rintro s past p ⟨hs, hheard⟩
      rcases Link.send_whole hs p with ⟨hafter, hmore⟩
      refine ⟨hafter, ?_⟩
      rw [List.map_append, lightLines_append, ← hheard]
      exact hmore
    · rintro t past nanos ⟨ht, hheard⟩
      cases t with
      | datagram l => exact ⟨ht, hheard⟩
      | stream l => exact absurd ht id
      | idle => exact absurd ht id
  rw [List.nil_append, ← hrun.sink, ← hrun.attempts] at hlast
  exact hlast.2

end Session

/-! ## Groups that are lost -/

/-- The lines of a group of messages, if the group as a packet is not too large. -/
def keptLines (g : List Packet) : List Line :=
  if (Packet.join g).Light then lightLines g else []

/-- A message of a packet that is not too large is not too large. -/
theorem light_of_join {g : List Packet} (h : (Packet.join g).Light) : ∀ p ∈ g, p.Light := by
  intro p hp
  rcases List.append_of_mem hp with ⟨before, behind, rfl⟩
  have hsize := Batch.size_join_le before (List.cons_ne_nil p []) behind
  rw [List.append_assoc, List.singleton_append, Packet.join_singleton] at hsize
  exact Nat.le_trans hsize h

/-- What is heard of a packet are all light lines of its messages, or nothing. -/
theorem lightLines_join {g : List Packet} (hg : g ≠ []) :
    lightLines [Packet.join g] = keptLines g := by
  unfold keptLines
  by_cases hlight : (Packet.join g).Light
  · have hone : ∀ p ∈ [Packet.join g], p.Light := by
      intro p hp
      rw [List.mem_singleton.mp hp]
      exact hlight
    rw [if_pos hlight, lightLines_of_light hone, lightLines_of_light (light_of_join hlight),
      List.flatMap_singleton, splitLines_join hg]
  · have hnone : [Packet.join g].filter (·.Light) = [] :=
      List.filter_cons_of_neg (by simpa using hlight)
    rw [if_neg hlight, lightLines, hnone, List.flatMap_nil]

theorem lightLines_packets {groups : List (List Packet)} (h : ∀ g ∈ groups, g ≠ []) :
    lightLines (groups.map Packet.join) = groups.flatMap keptLines := by
  induction groups with
  | nil => rfl
  | cons g rest ih =>
      have hg : g ≠ [] := h g (List.mem_cons_self ..)
      have hrest : ∀ g ∈ rest, g ≠ [] := fun g' hg' => h g' (List.mem_cons_of_mem g hg')
      rw [List.map_cons, ← List.singleton_append, lightLines_append, lightLines_join hg, ih hrest,
        List.flatMap_cons]

/-- A group that is kept whole keeps its lines, and one of a single message has
none to lose. -/
theorem keptLines_eq {g : List Packet} (h : (Packet.join g).Light ∨ g.length = 1) :
    keptLines g = lightLines g := by
  by_cases hlight : (Packet.join g).Light
  · exact if_pos hlight
  · rcases List.length_eq_one_iff.mp (h.resolve_left hlight) with ⟨m, rfl⟩
    exact (lightLines_join (List.cons_ne_nil m [])).symm

theorem keptLines_sublist (g : List Packet) : (keptLines g).Sublist (lightLines g) := by
  unfold keptLines
  split
  · exact List.Sublist.refl _
  · exact List.nil_sublist _

/-- Messages that are packets by themselves. -/
theorem map_join_of_single {groups : List (List Packet)} (h : ∀ g ∈ groups, g.length = 1) :
    groups.map Packet.join = groups.flatten := by
  induction groups with
  | nil => rfl
  | cons g rest ih =>
      rcases List.length_eq_one_iff.mp (h g (List.mem_cons_self ..)) with ⟨m, rfl⟩
      rw [List.map_cons, ih fun g' hg' => h g' (List.mem_cons_of_mem _ hg'), List.flatten_cons]
      rfl

namespace Session

variable {σ : Type} [Transport σ]

/-- Without a batch size every message is a packet. -/
theorem run_unbatched (t : σ) (scope : Prefix) (live : Bool) (draws : Generator) (ops : List Op) :
    let x := (Session.init (Sink.init none t) scope live draws).run ops
    (Event.attempts x.2).map (·.packet) = Event.messages x.2 := by
  intro x
  rcases run_partition none t scope live draws ops with ⟨-, sent, kept, hpart⟩
  have hkept : kept = [] := hpart.kept_open
  have hpackets : (Event.attempts x.2).map (·.packet) = sent.map Packet.join := hpart.packets
  rw [hpackets, ← hpart.all, hkept, List.append_nil]
  exact map_join_of_single hpart.sent_groups

/-- After a flush all messages have gone out in groups. -/
theorem run_flushed (limit : Option Nat) (t : σ) (scope : Prefix) (draws : Generator)
    {ops : List Op} {i : Nat}
    (hi : (((Session.init (Sink.init limit t) scope true draws).run ops).1.client? i).isSome) :
    let x := (Session.init (Sink.init limit t) scope true draws).run (ops ++ [.flush i])
    ∃ groups, Batch.Partition limit (x.1.sink.batch, (Event.attempts x.2).map (·.packet))
      (Event.messages x.2) groups [] := by
  intro x
  rcases run_partition limit t scope true draws (ops ++ [.flush i]) with ⟨-, groups, kept, hpart⟩
  have hsteady := steady_run (steady_init limit t scope draws) ops
  have hempty : x.1.sink.batch = Batch.empty := by
    show ((Session.init (Sink.init limit t) scope true draws).run
      (ops ++ [.flush i])).1.sink.batch = _
    rw [run_concat]
    exact (flush_drop_empty hsteady hi).1
  have hkept : kept = [] := hpart.holds.data_empty_iff.mp (congrArg Batch.data hempty)
  exact ⟨groups, hkept ▸ hpart⟩

end Session

/-! ## Two messages -/

namespace Metric

/-- A metric at the full rate passes without a draw, unless it is refused. -/
theorem passed_of_full {m : Metric} (hrefusal : m.refusal? = none) (hrate : Binary64.one ≤ m.rate)
    (g : Generator) : m.fate g = .passed ∧ m.drawsAfter g = g := by
  have hsampled : sampled m.rate g = (true, g) := if_pos hrate
  unfold fate drawsAfter
  rw [hrefusal, hsampled]
  exact ⟨rfl, rfl⟩

end Metric

namespace Batch

/-- Two messages that fit in one packet go out as one. -/
theorem pair_joined {limit : Nat} {m m' : Packet} (hm : m.Sound) (hm' : m'.Sound)
    (hfits : m.data.size + 1 + m'.data.size ≤ limit) :
    (Batch.empty.handleAll (some limit) [.emit m, .emit m', .flush]).2 = [Packet.join [m, m']] := by
  have hone : Batch.empty.push limit m = (Batch.empty.append m, []) := by
    have hlarge : ¬ limit ≤ m.data.size := by omega
    simp only [push, hlarge, if_false]
    rfl
  have hkept : (Batch.empty.append m).Holds [m] := holds_empty.append hm
  have htwo : (Batch.empty.append m).push limit m' = ((Batch.empty.append m).append m', []) := by
    have hlarge : ¬ limit ≤ m'.data.size := by omega
    have hroom : (Batch.empty.append m).fits limit m' = true :=
      (hkept.fits_iff limit m').mpr (Or.inr hfits)
    simp only [push, hroom, hlarge, if_true, if_false]
  have hboth : ((Batch.empty.append m).append m').Holds [m, m'] := hkept.append hm'
  have hflush :
      ((Batch.empty.append m).append m').flush = (Batch.empty, [Packet.join [m, m']]) := by
    have hempty : ((Batch.empty.append m).append m').isEmpty = false := by
      rw [← Bool.not_eq_true, hboth.isEmpty_iff]
      exact List.cons_ne_nil m [m']
    simp only [flush, hempty, Bool.false_eq_true, if_false, hboth.packet]
  simp only [handleAll, handle, hone, htwo, hflush, List.nil_append, List.append_nil]

end Batch

namespace Session

section Pair

variable {m m' : Metric} (hm : m.refusal? = none) (hm' : m'.refusal? = none)
variable (hrate : Binary64.one ≤ m.rate) (hrate' : Binary64.one ≤ m'.rate)
variable {link : Link} (hwhole : link.Whole) (hfresh : link.Fresh) (scope : Prefix)
  (draws : Generator)

include hm hm' hrate hrate'

/-- Two metrics at the full rate, at the start of a run: what the sink is asked. -/
theorem pair_requests {σ : Type} (sink : Sink σ) (rest : List Op) :
    let front := (Session.init sink scope true draws).front
    front.allRequests (.emit 0 m :: .emit 0 m' :: rest) =
      .emit (m.message scope) :: .emit (m'.message scope) :: front.allRequests rest := by
  intro front
  rcases Metric.passed_of_full hm hrate draws with ⟨hfate, hdraws⟩
  rcases Metric.passed_of_full hm' hrate' draws with ⟨hfate', hdraws'⟩
  have hfirst : front.step (.emit 0 m) = front := by
    show { front with draws := m.drawsAfter draws } = front
    rw [hdraws]
    rfl
  have hsecond : front.step (.emit 0 m') = front := by
    show { front with draws := m'.drawsAfter draws } = front
    rw [hdraws']
    rfl
  have hrequests : front.requests (.emit 0 m) ++ front.requests (.emit 0 m') =
      [m.request scope draws, m'.request scope draws] := rfl
  rw [Metric.request, Metric.request, hfate, hfate'] at hrequests
  rw [Front.allRequests, hfirst, Front.allRequests, hsecond, ← List.append_assoc, hrequests]
  rfl

include hwhole hfresh

/-- Without a batch size both are heard, if neither is too large. -/
theorem pair_heard (hlight : ∀ p ∈ [m.message scope, m'.message scope], p.Light) :
    ((Session.init (Sink.init none link) scope true draws).run
      [.emit 0 m, .emit 0 m']).1.sink.transport.heard =
        splitLines (m.message scope).data ++ splitLines (m'.message scope).data := by
  let start := Session.init (Sink.init none link) scope true draws
  have hpackets : (Event.attempts (start.run [.emit 0 m, .emit 0 m']).2).map (·.packet) =
      [m.message scope, m'.message scope] := by
    rw [(run_follows start _).attempts, (Sink.handleAll_batch start.sink _).2.2,
      pair_requests hm hm' hrate hrate']
    rfl
  rw [run_heard none hwhole hfresh, hpackets, lightLines_of_light hlight, List.flatMap_cons,
    List.flatMap_singleton]

/-- With a batch size that lets them be joined neither is heard, if both
together are too large. -/
theorem pair_lost {limit : Nat}
    (hlarge : maxDatagram < (m.message scope).data.size + 1 + (m'.message scope).data.size)
    (hfits : (m.message scope).data.size + 1 + (m'.message scope).data.size ≤ limit) :
    ((Session.init (Sink.init (some limit) link) scope true draws).run
      [.emit 0 m, .emit 0 m', .flush 0]).1.sink.transport.heard = [] := by
  let start := Session.init (Sink.init (some limit) link) scope true draws
  have hpackets : (Event.attempts (start.run [.emit 0 m, .emit 0 m', .flush 0]).2).map (·.packet) =
      [Packet.join [m.message scope, m'.message scope]] := by
    rw [(run_follows start _).attempts, (Sink.handleAll_batch start.sink _).2.2,
      pair_requests hm hm' hrate hrate']
    exact Batch.pair_joined (m.message_sound scope) (m'.message_sound scope) hfits
  have hheavy : ¬ (Packet.join [m.message scope, m'.message scope]).Light := by
    have hjoin := Batch.size_join_concat (List.cons_ne_nil (m.message scope) []) (m'.message scope)
    rw [Packet.join_singleton, List.singleton_append] at hjoin
    unfold Packet.Light
    omega
  rw [run_heard (some limit) hwhole hfresh, hpackets, lightLines_join (List.cons_ne_nil _ _),
    keptLines, if_neg hheavy]

end Pair

end Session

/-! ## With a batch size and without one -/

/-- Over datagrams that are carried as a whole or not at all a client starts
with a link of this kind. -/
theorem Config.connected_whole (c : Config) (t : Target) {h : Host}
    (hcarry : h.carry = carryWhole) :
    (c.connected t h).Whole ∧ (c.connected t h).Fresh :=
  ⟨⟨⟨h.carry⟩, rfl, hcarry⟩, .datagram _ rfl⟩

namespace Session

/-- What a batch size does to the lines that a target hears. Let a client be
built for a datagram target that resolves, once without a batch size and once
with one, on a network that delivers just the datagrams of at most 65507 bytes,
and let the second run end with a flush. Then

* with a batch size of at most 65507 both targets hear the same lines in the same order;
* with any batch size, what the second one hears is a part of what the first
  one hears, in the same order, so no line is heard twice or out of turn;
* what it does not hear are the lines of groups that are too large as one
  packet, which then has two messages at least and the batch size at most. -/
theorem batched_lines {c : Config} {t : Target} {h : Host} {endpoint : Endpoint}
    {draws : Generator} {size : UInt64} {plain batched : Session Link}
    (hbackend : c.backend = .datagram t) (hnone : c.batchSize = none)
    (hresolve : h.resolve t.host t.port = .ok endpoint) (hcarry : h.carry = carryWhole)
    (hplain : (c.build h draws).2 = .ready plain)
    (hbatched : ((c.set (.batchSize size)).build h draws).2 = .ready batched)
    {ops : List Op} {i : Nat} (hi : ((batched.run ops).1.client? i).isSome) :
    let lines := (plain.run ops).1.sink.transport.heard
    let x := batched.run (ops ++ [.flush i])
    let heard := x.1.sink.transport.heard
    (size.toNat ≤ maxDatagram → heard = lines) ∧ heard.Sublist lines ∧
      ∃ groups : List (List Packet),
        groups.flatten = Event.messages x.2 ∧
        (Event.attempts x.2).map (·.packet) = groups.map Packet.join ∧
        lines = groups.flatMap lightLines ∧
        heard = groups.flatMap keptLines ∧
        ∀ g ∈ groups, keptLines g ≠ lightLines g →
          2 ≤ g.length ∧ maxDatagram < (Packet.join g).data.size ∧
            (Packet.join g).data.size ≤ size.toNat := by
  intro lines x heard
  -- both start over the same kind of link
  have hplain := Config.build_datagram hbackend hresolve hplain
  have hbatched := Config.build_datagram (c := c.set (.batchSize size)) hbackend hresolve hbatched
  rcases c.connected_whole t hcarry with ⟨hwhole, hfresh⟩
  have hstart₁ : plain = Session.init (Sink.init none (c.connected t h)) c.scope true draws := by
    rw [hplain, Config.sessionOver, hnone]
    rfl
  have hstart₂ : batched =
      Session.init (Sink.init (some size.toNat) (c.connected t h)) c.scope true draws := hbatched
  clear hplain hbatched
  subst hstart₁ hstart₂
  -- what is heard are the messages on the one hand and their groups on the other
  have hmessages : Event.messages x.2 = Event.messages ((Session.init
      (Sink.init none (c.connected t h)) c.scope true draws).run ops).2 := by
    rw [messages_run, messages_run, Front.passed_flush]
    rfl
  rcases run_flushed (some size.toNat) (c.connected t h) c.scope draws hi with ⟨groups, hpart⟩
  have hall : groups.flatten = Event.messages x.2 := by
    rw [← hpart.all, List.append_nil]
  have hpackets : (Event.attempts x.2).map (·.packet) = groups.map Packet.join := hpart.packets
  have hlines : lines = groups.flatMap lightLines := by
    rw [← lightLines_flatten, hall, hmessages, ← run_unbatched]
    exact run_heard none hwhole hfresh c.scope true draws ops
  have hne : ∀ g ∈ groups, g ≠ [] := fun g hg => Batch.group_ne_nil (hpart.sent_groups g hg)
  have hheard : heard = groups.flatMap keptLines := by
    rw [← lightLines_packets hne, ← hpackets]
    exact run_heard (some size.toNat) hwhole hfresh c.scope true draws (ops ++ [.flush i])
  -- a group that loses lines is too large as a packet, and has several messages
  have hlost : ∀ g ∈ groups, keptLines g ≠ lightLines g →
      2 ≤ g.length ∧ maxDatagram < (Packet.join g).data.size ∧
        (Packet.join g).data.size ≤ size.toNat := by
    intro g hg hdiff
    rcases not_or.mp (mt keptLines_eq hdiff) with ⟨hheavy, hmany⟩
    have hlength : 2 ≤ g.length := by
      have hpos := List.length_pos_iff.mpr (hne g hg)
      omega
    exact ⟨hlength, Nat.lt_of_not_le hheavy, (hpart.sent_groups g hg).2.1 hlength⟩
  refine ⟨?_, ?_, groups, hall, hpackets, hlines, hheard, hlost⟩
  · intro hsize
    rw [hheard, hlines, List.flatMap_def, List.flatMap_def]
    refine congrArg List.flatten (List.map_congr_left fun g hg => ?_)
    by_contra hdiff
    rcases hlost g hg hdiff with ⟨-, hlarge, hfits⟩
    omega
  · rw [hheard, hlines]
    exact List.Sublist.flatMap_right groups fun g _ => keptLines_sublist g

/-- A counter and a negative gauge, in packets of 512 bytes. -/
theorem batched_lines_small :
    let c : Config := default
    let hits := Metric.always "hits" .increment
    let level := Metric.always "level" (.gauge (.whole (-5)))
    let ops := [Op.emit 0 hits, .emit 0 level]
    ∃ plain batched,
      (c.build Host.loopback ⟨0⟩).2 = .ready plain ∧
      ((c.set (.batchSize 512)).build Host.loopback ⟨0⟩).2 = .ready batched ∧
      ((batched.run ops).1.client? 0).isSome ∧
      (batched.run (ops ++ [.flush 0])).1.sink.transport.heard =
        (plain.run ops).1.sink.transport.heard := by
  intro c hits level ops
  have hplain := Config.build_local (c := c) rfl ⟨0⟩ (by decide) (by decide) (by decide)
  have hbatched := Config.build_local (c := c.set (.batchSize 512)) rfl ⟨0⟩ (by decide)
    (by decide) (by decide)
  have hi : ((((c.set (.batchSize 512)).sessionOver
      (c.connected Config.localTarget Host.loopback) ⟨0⟩).run ops).1.client? 0).isSome := by
    rw [← Option.isSome_map (f := Client.quiet), ← front_client?, (run_follows _ ops).front]
    rfl
  rcases batched_lines (t := Config.localTarget) rfl rfl Config.resolve_local rfl hplain hbatched hi
    with ⟨hsame, -⟩
  exact ⟨_, _, hplain, hbatched, hi, hsame (by decide)⟩

end Session

/-! ## A batch size that loses lines -/

/-- A counter whose name is one letter 40000 times. -/
def Metric.long (c : Char) : Metric :=
  .always (String.ofList (List.replicate 40000 c)) .increment

namespace Metric

theorem long_refusal (c : Char) : (long c).refusal? = none := by
  have hname : (long c).name.isEmpty = false := by
    rw [← Bool.not_eq_true, String.isEmpty_iff, ← String.toList_inj]
    show (String.ofList (List.replicate 40000 c)).toList ≠ _
    rw [String.toList_ofList]
    exact List.ne_nil_of_length_pos (by rw [List.length_replicate]; omega)
  unfold refusal?
  rw [hname]
  rfl

theorem long_lineFeed {c : Char} (hc : '\n' ≠ c) : '\n' ∉ (long c).name.toList := by
  show '\n' ∉ (String.ofList (List.replicate 40000 c)).toList
  rw [String.toList_ofList]
  intro hmem
  exact hc (List.eq_of_mem_replicate hmem)

/-- The message of such a counter has four bytes besides the name. -/
theorem long_size {c : Char} (hc : c.val ≤ 0x7f) :
    ((long c).message Prefix.empty).data.size = 40004 := by
  have hreset : ¬ (long c).resets = true := Bool.false_ne_true
  have hname : fullName Prefix.empty (long c).name = String.ofList (List.replicate 40000 c) :=
    if_pos rfl
  have hvalue : bytesOf (long c).observation.text = bytesOf (Decimal.ofInt 1) := rfl
  have hkind : (long c).observation.kind.code = "c" := rfl
  have hrate : ¬ namesRate (long c).rate = true := by
    show ¬ namesRate Binary64.one = true
    decide
  have hascii : ∀ c' ∈ List.replicate 40000 c, c'.val ≤ 0x7f := by
    intro c' hc'
    rw [List.eq_of_mem_replicate hc']
    exact hc
  have hrest : (bytesOf ":").length + (bytesOf (Decimal.ofInt 1)).length + (bytesOf "|").length +
      (bytesOf "c").length + (bytesOf "").length = 4 := by decide
  calc ((long c).message Prefix.empty).data.size
      = (bytesOf ((long c).text Prefix.empty)).length := Array.length_toList.symm
    _ = 40000 + 4 := by
        rw [text, if_neg hreset, valueLine, hname, hkind, if_neg hrate, bytesOf_append,
          bytesOf_append, bytesOf_append, bytesOf_append, bytesOf_append, hvalue,
          bytesOf_ofList hascii, ← hrest]
        simp only [List.length_append, List.length_map, List.length_replicate]
        omega

end Metric

namespace Session

/-- A batch size of 100000 bytes is accepted, and loses both of two lines that
are heard without one: they are joined to a packet of 80009 bytes. -/
theorem batched_lines_lost :
    let c : Config := default
    let a := Metric.long 'a'
    let b := Metric.long 'b'
    Host.loopback.carry = carryWhole ∧
    ∃ plain batched,
      (c.build Host.loopback ⟨0⟩).2 = .ready plain ∧
      ((c.set (.batchSize 100000)).build Host.loopback ⟨0⟩).2 = .ready batched ∧
      (plain.run [.emit 0 a, .emit 0 b]).1.sink.transport.heard =
        a.lines Prefix.empty ++ b.lines Prefix.empty ∧
      (batched.run ([.emit 0 a, .emit 0 b] ++ [.flush 0])).1.sink.transport.heard = [] ∧
      a.lines Prefix.empty ++ b.lines Prefix.empty ≠ [] := by
  intro c a b
  have hplain := Config.build_local (c := c) rfl ⟨0⟩ (by decide) (by decide) (by decide)
  have hbatched := Config.build_local (c := c.set (.batchSize 100000)) rfl ⟨0⟩ (by decide)
    (by decide) (by decide)
  rcases c.connected_whole Config.localTarget (h := Host.loopback) rfl with ⟨hwhole, hfresh⟩
  have ha : a.refusal? = none := Metric.long_refusal 'a'
  have hb : b.refusal? = none := Metric.long_refusal 'b'
  have hone : Binary64.one ≤ Binary64.one := by decide
  have hsize : (a.message Prefix.empty).data.size = 40004 := Metric.long_size (by decide)
  have hsize' : (b.message Prefix.empty).data.size = 40004 := Metric.long_size (by decide)
  have hlight : ∀ p ∈ [a.message Prefix.empty, b.message Prefix.empty], p.Light := by
    intro p hp
    unfold Packet.Light maxDatagram
    rcases List.mem_pair.mp hp with rfl | rfl
    · omega
    · omega
  have hlines : splitLines (a.message Prefix.empty).data = a.lines Prefix.empty :=
    Metric.splitLines_message ha (Metric.long_lineFeed (by decide)) Prefix.empty
  have hlines' : splitLines (b.message Prefix.empty).data = b.lines Prefix.empty :=
    Metric.splitLines_message hb (Metric.long_lineFeed (by decide)) Prefix.empty
  have hheard := pair_heard ha hb hone hone hwhole hfresh Prefix.empty ⟨0⟩ hlight
  rw [hlines, hlines'] at hheard
  have hfits :
      (a.message Prefix.empty).data.size + 1 + (b.message Prefix.empty).data.size ≤ 100000 := by
    omega
  have hlost := pair_lost ha hb hone hone hwhole hfresh Prefix.empty ⟨0⟩
    (by unfold maxDatagram; omega) hfits
  refine ⟨rfl, Session.init (Sink.init none (c.connected Config.localTarget Host.loopback))
    Prefix.empty true ⟨0⟩, Session.init (Sink.init (some 100000)
    (c.connected Config.localTarget Host.loopback)) Prefix.empty true ⟨0⟩, hplain, hbatched,
    hheard, ?_, ?_⟩
  · rw [List.cons_append, List.cons_append, List.nil_append]
    exact hlost
  · exact List.append_ne_nil_of_left_ne_nil (hlines ▸ splitLines_ne_nil _) _

end Session

end Statsd

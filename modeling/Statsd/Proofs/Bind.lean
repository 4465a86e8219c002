import Statsd.Proofs.Config
import Statsd.Proofs.Session.Front
import Statsd.Proofs.Stream.Recovery

/-!
# Statsd.Proofs.Bind — a local address of another family than the target

A local address of another family than the target is refused as soon as there is
a socket, for datagrams and for streams. So a socket fails for the mismatch, or
because the host made none (`Net.Host.openSocket_other_family`). What this comes
to depends on the transport.

* A datagram socket is made when the client is, so the client is not made.
* A stream is connected ahead of the first packet, and a failure to connect is
  no error, whatever the cause. So the client is made over a link that is not
  connected and never will be (`Stream.Link.Unreachable`).
* **Step**: a send over such a link fails for the same cause and leaves it as it
  is (`Stream.Link.send_unreachable`).
* **Run**: so every packet that is ever attempted fails (`Session.run_unreachable`).

`Config.bind_family` says so of every configuration with such an address.
-/

namespace Statsd

open Net (Address Endpoint Family Host SocketKind Target)

/-! ## Sockets -/

/-- A sequence of two calls fails as the first one does, or else as the second one does. -/
theorem bind_error_iff {ε α β : Type} (x : Except ε α) (f : α → Except ε β) (e : ε) :
    (x >>= f) = .error e ↔ x = .error e ∨ ∃ a, x = .ok a ∧ f a = .error e := by
  cases x with
  | error e' => simp only [bind, Except.bind, Except.error.injEq, reduceCtorEq, false_and,
      exists_false, or_false]
  | ok a => simp only [bind, Except.bind, reduceCtorEq, Except.ok.injEq, false_or,
      exists_eq_left']

theorem Net.Host.asked_ok {α : Type} {x : Except SystemError α} {a : α}
    (hx : Host.asked x = .ok a) : x = .ok a := by
  cases x with
  | ok a' => cases hx; rfl
  | error e => cases hx

/-- What the system answers is not about families. -/
theorem Net.Host.asked_ne {α : Type} (x : Except SystemError α) :
    Host.asked x ≠ .error .familyMismatch := by
  intro hx
  cases x with
  | ok a => cases hx
  | error e => cases hx

/-- What a socket for a family fails for if its local address is of another one:
the mismatch, unless the host does not even make a socket. -/
def Net.Host.mismatchCause (h : Host) (kind : SocketKind) (family : Family) : Failure :=
  match h.make kind family with
  | .ok _ => .familyMismatch
  | .error e => .system e

theorem Net.Host.mismatchCause_of_make {h : Host} {kind : SocketKind} {family : Family}
    (hmake : h.make kind family = .ok ()) : h.mismatchCause kind family = .familyMismatch := by
  rw [Host.mismatchCause, hmake]

/-- A socket with a local address of another family than its target is not opened. -/
theorem Net.Host.openSocket_other_family {h : Host} {target : Endpoint} {b : Address}
    (hfamily : b.family ≠ target.address.family) (kind : SocketKind) :
    h.openSocket target (some b) kind =
      .error (h.mismatchCause kind target.address.family) := by
  rw [Host.openSocket, Host.mismatchCause, bind_error_iff]
  cases hmake : h.make kind target.address.family with
  | error e => exact Or.inl rfl
  | ok u =>
    refine Or.inr ⟨(), rfl, ?_⟩
    rw [bind_error_iff]
    exact Or.inl (if_neg hfamily)

/-- A socket fails for the mismatch exactly if it was made and its local address
is of another family. -/
theorem Net.Host.openSocket_mismatch (h : Host) (target : Endpoint) (b : Address)
    (kind : SocketKind) :
    h.openSocket target (some b) kind = .error .familyMismatch ↔
      h.make kind target.address.family = .ok () ∧ b.family ≠ target.address.family := by
  constructor
  · intro hopen
    rw [Host.openSocket, bind_error_iff, bind_error_iff] at hopen
    obtain hmake | ⟨_, hmade, hbind | ⟨-, -, hroute⟩⟩ := hopen
    · exact absurd hmake (Host.asked_ne _)
    · refine ⟨Host.asked_ok hmade, ?_⟩
      -- with one family the system is asked for the address
      intro hfamily
      rw [Host.bindFor, if_pos hfamily] at hbind
      exact Host.asked_ne _ hbind
    · exact absurd hroute (Host.asked_ne _)
  · rintro ⟨hmake, hfamily⟩
    rw [Host.openSocket_other_family hfamily, Host.mismatchCause_of_make hmake]

/-- A stream from such a local address fails as its socket does. -/
theorem Net.Host.openStream_other_family {h : Host} {target : Endpoint} {b : Address}
    (hfamily : b.family ≠ target.address.family) :
    h.openStream target (some b) =
      .error (h.mismatchCause .stream target.address.family) := by
  rw [Host.openStream, bind_error_iff]
  exact Or.inl (Host.openSocket_other_family hfamily .stream)

/-! ## Links that cannot connect -/

namespace Stream.Link

/-- No connection is in use, and every attempt to connect fails for this cause. -/
structure Unreachable (l : Link) (e : Failure) : Prop where
  held : l.slot.held = none
  answer : ∀ n, l.answer n = .error e

/-- To connect early does not help. -/
theorem connectEarly_unreachable (e : Failure) :
    (Link.init fun _ => .error e).connectEarly.Unreachable e := ⟨rfl, fun _ => rfl⟩

/-- A send fails, and so will the next one. -/
theorem send_unreachable {l : Link} {e : Failure} (h : l.Unreachable e) (message : ByteArray) :
    (l.send message).1.Unreachable e ∧ (l.send message).2 = .error e := by
  have hconnect : l.connect = ({ l with attempts := l.attempts + 1 }, .error e) := by
    rw [connect, h.answer]
    rfl
  have hsend : l.send message = ({ l with attempts := l.attempts + 1 }, .error e) := by
    rw [send_unheld h.held, sendAnew, hconnect]
  rw [hsend]
  exact ⟨⟨h.held, h.answer⟩, rfl⟩

end Stream.Link

namespace Session

/-- Over a link that cannot connect every packet fails, whatever is done. -/
theorem run_unreachable {s : Session Link} {l : Stream.Link} {e : Failure}
    (htransport : s.sink.transport = .stream l) (h : l.Unreachable e) (ops : List Op) :
    ∀ a ∈ Event.attempts (s.run ops).2, a.failure? = some e := by
  -- what every send keeps: the link as it is, and only failures
  let Lost (t : Link) (past : List Attempt) : Prop :=
    (∃ l, t = .stream l ∧ l.Unreachable e) ∧ ∀ a ∈ past, a.failure? = some e
  have hstart : Lost s.sink.transport [] := ⟨⟨l, htransport, h⟩, by simp⟩
  have hlast : Lost (s.sink.handleAll (s.front.allRequests ops)).1.transport
      ([] ++ (s.sink.handleAll (s.front.allRequests ops)).2) := by
    refine Sink.handleAll_invariant ?_ ?_ hstart (s.front.allRequests ops)
    · rintro sink past p ⟨⟨l, hl, hl'⟩, hpast⟩
      obtain ⟨hafter, hanswer⟩ := Stream.Link.send_unreachable hl' p.data
      have hsend : Transport.send sink.transport p.data =
          (Link.stream (l.send p.data).1, .error e) := by
        rw [hl, ← hanswer]
        rfl
      constructor
      · exact ⟨_, by rw [Sink.attempt, hsend], hafter⟩
      · intro a ha
        obtain hold | hnew := List.mem_append.mp ha
        · exact hpast a hold
        · rw [List.mem_singleton.mp hnew, Sink.attempt, hsend]
    · rintro t past nanos ⟨⟨l, rfl, hl⟩, hpast⟩
      exact ⟨⟨l, rfl, hl⟩, hpast⟩
  rw [(run_follows s ops).attempts]
  exact hlast.2

end Session

/-! ## Clients -/

namespace Config

/-- A client for a datagram target that resolves is refused for the cause for
which its socket is. -/
theorem build_datagram_refused {c : Config} {t : Target} {h : Host} {endpoint : Endpoint}
    (draws : Generator) (cause : Failure) (hbackend : c.backend = .datagram t)
    (hcheck : checkTarget t = .ok ())
    (hresolve : h.resolve t.host t.port = .ok endpoint)
    (hbatch : c.batchSize ≠ some 0) (htimeout : c.sendTimeout ≠ 0) :
    (c.build h draws).2 = .refused (.socketError cause) ↔
      h.openSocket endpoint t.bind (.datagram c.sendBufferSize) = .error cause := by
  unfold build
  rw [if_neg hbatch, if_neg htimeout]
  unfold openLink openDatagram
  rw [hbackend]
  dsimp only
  rw [hcheck, hresolve]
  dsimp only
  cases hsocket : h.openSocket endpoint t.bind (.datagram c.sendBufferSize) with
  | ok u =>
    dsimp only [Except.map]
    unfold Session.overLink
    split
    · simp only [reduceCtorEq]
    · simp only [reduceCtorEq]
  | error e =>
    dsimp only [Except.map]
    rw [BuildResult.refused.injEq, BuildError.socketError.injEq, Except.error.injEq]

/-- **What a local address of another family comes to.** Let the host of a target
be an address, its port not 0, and the settings pass their checks.

* If the local address is of another family than the target, no client is made
  for datagrams, for the cause for which the socket fails. It is the mismatch
  exactly if the families differ and the host makes sockets for the target.
* For a stream a client is never refused. It is made, if there is memory for its
  batch.
* If the local address is of another family, every packet that this client ever
  attempts fails for the cause for which its socket does: the mismatch too, if
  the host makes sockets for the target. -/
theorem bind_family (c : Config) (h : Host) (draws : Generator) {host : String} {a : Address}
    (hhost : Address.parse? host = some a) {port : UInt16} (hport : port ≠ 0) (b : Address)
    (hbatch : c.batchSize ≠ some 0) (htimeout : c.sendTimeout ≠ 0) :
    let datagram := c.set (.backend (.datagram ⟨host, port, some b⟩))
    let stream := c.set (.backend (.stream ⟨host, port, some b⟩))
    (b.family ≠ a.family → (datagram.build h draws).2 =
      .refused (.socketError (h.mismatchCause (.datagram c.sendBufferSize) a.family))) ∧
    ((datagram.build h draws).2 = .refused (.socketError .familyMismatch) ↔
      h.make (.datagram c.sendBufferSize) a.family = .ok () ∧ b.family ≠ a.family) ∧
    (∀ e, (stream.build h draws).2 ≠ .refused e) ∧
    ((c.batchSize.getD 0).toNat ≤ maxBuffer → ∃ s, (stream.build h draws).2 = .ready s) ∧
    (b.family ≠ a.family → ∀ s, (stream.build h draws).2 = .ready s →
      ∀ ops, ∀ attempt ∈ Event.attempts (s.run ops).2,
        attempt.failure? = some (h.mismatchCause .stream a.family)) := by
  intro datagram stream
  obtain ⟨hcheck, hresolve⟩ := resolve_literal hhost hport (some b) h
  have hstream := build_stream (c := stream) draws rfl hcheck hresolve hbatch htimeout
  -- the socket for datagrams is made with the client
  have hdatagram : ∀ cause, (datagram.build h draws).2 = .refused (.socketError cause) ↔
      h.openSocket ⟨a, port⟩ (some b) (.datagram c.sendBufferSize) = .error cause := fun cause =>
    build_datagram_refused (c := datagram) draws cause rfl hcheck hresolve hbatch htimeout
  refine ⟨?_, ?_, ?_, ?_, ?_⟩
  · intro hfamily
    exact (hdatagram _).mpr (Host.openSocket_other_family hfamily _)
  · rw [hdatagram]
    exact h.openSocket_mismatch ⟨a, port⟩ b _
  · -- there is no way to refuse a stream once its target is resolved
    intro e he
    rw [hstream, Session.overLink] at he
    split at he
    · contradiction
    · contradiction
  · intro hsize
    have hroom : ¬ maxBuffer < (stream.batchSize.getD 0).toNat := Nat.not_lt.mpr hsize
    rw [hstream, Session.overLink, if_neg hroom]
    exact ⟨_, rfl⟩
  · -- the attempt ahead of the first packet has failed, and so will every other
    intro hfamily s hs ops
    rw [hstream, Host.openStream_other_family hfamily] at hs
    have hstart := overLink_ready hs
    have hlost := Stream.Link.connectEarly_unreachable (h.mismatchCause .stream a.family)
    exact Session.run_unreachable (by rw [hstart]; rfl) hlost ops

/-- To the daemon of this host, from the local address of the other family: no
client is made for datagrams, and one that never sends a packet for a stream. -/
theorem bind_family_loopback :
    let t : Target := ⟨"127.0.0.1", 8125, some (.v6 #v[0, 0, 0, 0, 0, 0, 0, 1])⟩
    (((default : Config).set (.backend (.datagram t))).build Host.loopback ⟨0⟩).2 =
        .refused (.socketError .familyMismatch) ∧
      ∃ s, (((default : Config).set (.backend (.stream t))).build Host.loopback ⟨0⟩).2 =
          .ready s ∧
        ∀ ops, ∀ attempt ∈ Event.attempts (s.run ops).2,
          attempt.failure? = some .familyMismatch := by
  intro t
  have hport : (8125 : UInt16) ≠ 0 := by decide
  have hfamily : (Address.v6 #v[0, 0, 0, 0, 0, 0, 0, 1]).family ≠
      (Address.v4 #v[127, 0, 0, 1]).family := by decide
  obtain ⟨-, hdatagram, -, hready, hlost⟩ := bind_family default Host.loopback ⟨0⟩ parse_localhost
    hport (.v6 #v[0, 0, 0, 0, 0, 0, 0, 1]) (by decide) (by decide)
  obtain ⟨s, hs⟩ := hready (by decide)
  exact ⟨hdatagram.mpr ⟨rfl, hfamily⟩, s, hs, hlost hfamily s hs⟩

/-- So a client for a stream is made although the two addresses are of different families. -/
theorem mismatched_stream_ready :
    let b : Address := .v6 #v[0, 0, 0, 0, 0, 0, 0, 1]
    let t : Target := ⟨"127.0.0.1", 8125, some b⟩
    (∃ a, Address.parse? t.host = some a ∧ b.family ≠ a.family) ∧
      ∃ s, (((default : Config).set (.backend (.stream t))).build Host.loopback ⟨0⟩).2 =
        .ready s := by
  intro b t
  have hport : (8125 : UInt16) ≠ 0 := by decide
  obtain ⟨hcheck, hresolve⟩ := resolve_literal parse_localhost hport t.bind Host.loopback
  refine ⟨⟨_, parse_localhost, by decide⟩, ?_⟩
  rw [build_stream (t := t) ⟨0⟩ rfl hcheck hresolve (by decide) (by decide)]
  exact ⟨_, rfl⟩

end Config

end Statsd

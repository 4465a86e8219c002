import Statsd.Config
import Statsd.Proofs.Datagram.Resolve

/-!
# Statsd.Proofs.Config — what building a client comes to

* A client that is made has a link, or discards (`build_ready`).
* For a datagram target that resolves the link is the one with the host's
  socket (`build_datagram`), and the client is made if its settings pass the
  checks and the host has a socket for it (`build_connected`).
* For a stream target that resolves the client is made whatever the attempt to
  connect comes to (`build_stream`).
* So a client for the daemon of this host is made on a host that reaches itself
  (`build_local`).
-/

namespace Statsd

open Net (Address Endpoint Host Target)

namespace Config

/-- The session that a client starts with, over a link. -/
def sessionOver (c : Config) (link : Link) (draws : Generator) : Session Link :=
  Session.init (Sink.init (c.batchSize.map UInt64.toNat) link) c.scope true draws

/-- The link to a datagram target that resolves on a host. -/
def connected (c : Config) (t : Target) (h : Host) : Link :=
  .datagram ((Datagram.Link.init t c.retryInterval).withSocket ⟨h.carry⟩)

theorem overLink_ready {c : Config} {link : Link} {draws : Generator} {s : Session Link}
    (h : Session.overLink c link draws = .ready s) : s = c.sessionOver link draws := by
  unfold Session.overLink at h
  split at h
  · cases h
  · cases h
    rfl

/-- A client that is made has a link, or discards. -/
theorem build_ready {c : Config} {h : Host} {draws : Generator} {s : Session Link}
    (hready : (c.build h draws).2 = .ready s) :
    ((c.openLink h).2 = .ok none ∧ s = Session.discarding draws) ∨
      ∃ link, (c.openLink h).2 = .ok (some link) ∧ s = c.sessionOver link draws := by
  unfold build at hready
  split at hready
  · cases hready
  · split at hready
    · cases hready
    · split at hready
      · cases hready
      · rename_i log hlink
        cases hready
        exact Or.inl ⟨congrArg Prod.snd hlink, rfl⟩
      · rename_i log link hlink
        exact Or.inr ⟨link, congrArg Prod.snd hlink, overLink_ready hready⟩

/-- The link to a datagram target that resolves has a socket. -/
theorem openLink_datagram {c : Config} {t : Target} {h : Host} {endpoint : Endpoint}
    {link : Option Link} (hbackend : c.backend = .datagram t)
    (hresolve : h.resolve t.host t.port = .ok endpoint) (hlink : (c.openLink h).2 = .ok link) :
    link = some (c.connected t h) := by
  unfold openLink at hlink
  rw [hbackend] at hlink
  dsimp only at hlink
  split at hlink
  · cases hlink
  · unfold openDatagram at hlink
    rw [hresolve] at hlink
    dsimp only at hlink
    split at hlink
    · cases hlink
    · cases hlink
      rfl

/-- A client for a datagram target that resolves starts with the link to it. -/
theorem build_datagram {c : Config} {t : Target} {h : Host} {endpoint : Endpoint}
    {draws : Generator} {s : Session Link} (hbackend : c.backend = .datagram t)
    (hresolve : h.resolve t.host t.port = .ok endpoint) (hready : (c.build h draws).2 = .ready s) :
    s = c.sessionOver (c.connected t h) draws := by
  rcases build_ready hready with ⟨hlink, -⟩ | ⟨link, hlink, hs⟩
  · cases openLink_datagram hbackend hresolve hlink
  · cases openLink_datagram hbackend hresolve hlink
    exact hs

/-- Settings that pass the checks leave the rest to the link. -/
theorem build_of_link {c : Config} {h : Host} {log : List LogEntry} {link : Link}
    (draws : Generator) (hlink : c.openLink h = (log, .ok (some link)))
    (hbatch : c.batchSize ≠ some 0) (htimeout : c.sendTimeout ≠ 0) :
    (c.build h draws).2 = Session.overLink c link draws := by
  rw [build, if_neg hbatch, if_neg htimeout, hlink]

/-- A client for a datagram target that resolves is made, if its settings pass
the checks and the host has a socket for it. -/
theorem build_connected {c : Config} {t : Target} {h : Host} {endpoint : Endpoint}
    (draws : Generator) (hbackend : c.backend = .datagram t) (hcheck : checkTarget t = .ok ())
    (hresolve : h.resolve t.host t.port = .ok endpoint)
    (hsocket : h.openSocket endpoint t.bind (.datagram c.sendBufferSize) = .ok ())
    (hbatch : c.batchSize ≠ some 0) (htimeout : c.sendTimeout ≠ 0)
    (hsize : (c.batchSize.getD 0).toNat ≤ maxBuffer) :
    (c.build h draws).2 = .ready (c.sessionOver (c.connected t h) draws) := by
  have hdatagram : c.openDatagram t h = ([], .ok (c.connected t h)) := by
    unfold openDatagram
    rw [hresolve]
    dsimp only
    rw [hsocket]
    rfl
  have hlink : c.openLink h = ([], .ok (some (c.connected t h))) := by
    unfold openLink
    rw [hbackend]
    dsimp only
    rw [hcheck, hdatagram]
    rfl
  rw [build_of_link draws hlink hbatch htimeout, Session.overLink, if_neg (Nat.not_lt.mpr hsize)]
  rfl

/-- A client for a stream target that resolves is made, whatever the attempt to
connect comes to. -/
theorem build_stream {c : Config} {t : Target} {h : Host} {endpoint : Endpoint} (draws : Generator)
    (hbackend : c.backend = .stream t) (hcheck : checkTarget t = .ok ())
    (hresolve : h.resolve t.host t.port = .ok endpoint)
    (hbatch : c.batchSize ≠ some 0) (htimeout : c.sendTimeout ≠ 0) :
    (c.build h draws).2 =
      Session.overLink c
        (.stream (Stream.Link.init fun _ => h.openStream endpoint t.bind).connectEarly) draws := by
  have hlink : c.openLink h = ([], .ok (some
      (.stream (Stream.Link.init fun _ => h.openStream endpoint t.bind).connectEarly))) := by
    unfold openLink openStream
    rw [hbackend]
    dsimp only
    rw [hcheck, hresolve]
    rfl
  exact build_of_link draws hlink hbatch htimeout

/-- A host that is an address is one, and the target passes the checks. -/
theorem resolve_literal {host : String} {a : Address} (hhost : Address.parse? host = some a)
    {port : UInt16} (hport : port ≠ 0) (bind : Option Address) (h : Host) :
    checkTarget ⟨host, port, bind⟩ = .ok () ∧ h.resolve host port = .ok ⟨a, port⟩ := by
  constructor
  · have hnonempty : ¬ host.isEmpty = true := by
      intro hempty
      have hnone : Address.parse? "" = none := by decide
      rw [String.isEmpty_iff.mp hempty, hnone] at hhost
      contradiction
    rw [checkTarget, if_neg hnonempty, if_neg hport]
  · rw [Host.resolve, hhost]

/-! ## The daemon of this host -/

/-- Where the daemon of this host listens by custom. -/
def localTarget : Target := ⟨"127.0.0.1", 8125, none⟩

theorem parse_localhost : Address.parse? "127.0.0.1" = some (.v4 #v[127, 0, 0, 1]) := by
  decide +kernel

theorem resolve_local :
    Host.loopback.resolve localTarget.host localTarget.port = .ok ⟨.v4 #v[127, 0, 0, 1], 8125⟩ :=
  (resolve_literal parse_localhost (by decide) none Host.loopback).2

/-- A client for the daemon of this host is made. -/
theorem build_local {c : Config} (hbackend : c.backend = default) (draws : Generator)
    (hbatch : c.batchSize ≠ some 0) (htimeout : c.sendTimeout ≠ 0)
    (hsize : (c.batchSize.getD 0).toNat ≤ maxBuffer) :
    (c.build Host.loopback draws).2 =
      .ready (c.sessionOver (c.connected localTarget Host.loopback) draws) :=
  build_connected draws hbackend rfl resolve_local rfl hbatch htimeout hsize

end Config

end Statsd

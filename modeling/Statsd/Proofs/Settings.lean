import Statsd.Proofs.Config

/-!
# Statsd.Proofs.Settings — the last value of each field, and the first fault

Settings may be given in any order and any number of times, and several of them
may be wrong at once. What building a client comes to is said in three layers.

* **Values**: of each field the value given last counts, whatever was given for
  it before and for the other fields in between (`Config.setAll_eq_given`).
* **Faults**: `Config.faults` lists all that is wrong with the values on a host,
  each fault found apart from the others. The first one of the list is reported,
  and nothing is logged.
* **Clients**: without a fault a client is made. `Config.Begins` says what it
  starts with, and `Backend.warnings` what has been logged by then.

`Config.Builds` says once in which ways building can end, and `Config.build_builds`
that there are no others. `Config.first_fault_decides` puts the layers together.
-/

namespace Statsd

open Net (Address Endpoint Host Target)

/-! ## The last value of each field -/

/-- The value that settings give last for a field, or else the one there was before. -/
def lastGiven {α : Type} (field : Setting → Option α) (settings : List Setting) (before : α) : α :=
  (settings.filterMap field).getLast?.getD before

theorem lastGiven_cons {α : Type} (field : Setting → Option α) (x : Setting)
    (settings : List Setting) (before : α) :
    lastGiven field (x :: settings) before =
      lastGiven field settings ((field x).getD before) := by
  unfold lastGiven
  cases hx : field x with
  | none => rw [List.filterMap_cons_none hx, Option.getD_none]
  | some a => rw [List.filterMap_cons_some hx, List.getLast?_cons, Option.getD_some, Option.getD_some]

namespace Config

/-- The configuration in which each field has the value given last for it. -/
def given (c : Config) (settings : List Setting) : Config where
  backend := lastGiven (fun | .backend b => some b | _ => none) settings c.backend
  scope := lastGiven (fun | .scope p => some p | _ => none) settings c.scope
  batchSize := lastGiven (fun | .batchSize size => some (some size) | _ => none) settings c.batchSize
  sendBufferSize :=
    lastGiven (fun | .sendBufferSize size => some (some size) | _ => none) settings c.sendBufferSize
  sendTimeout := lastGiven (fun | .sendTimeout nanos => some nanos | _ => none) settings c.sendTimeout
  retryInterval :=
    lastGiven (fun | .retryInterval nanos => some nanos | _ => none) settings c.retryInterval

/-- A setting is the value before all that are given after it. -/
theorem given_cons (c : Config) (x : Setting) (settings : List Setting) :
    c.given (x :: settings) = (c.set x).given settings := by
  unfold given
  simp only [lastGiven_cons]
  cases x <;> rfl

/-- Setting fields one after the other leaves each with the value given last. -/
theorem setAll_eq_given (c : Config) (settings : List Setting) :
    c.setAll settings = c.given settings := by
  induction settings generalizing c with
  | nil => rfl
  | cons x rest ih =>
    rw [given_cons, ← ih (c.set x)]
    rfl

end Config

/-! ## All that is wrong -/

/-- A fault that is there under a condition. -/
def faultIf (wrong : Prop) [Decidable wrong] (e : BuildError) : List BuildError :=
  if wrong then [e] else []

theorem mem_faultIf {wrong : Prop} [Decidable wrong] {e x : BuildError} :
    x ∈ faultIf wrong e ↔ wrong ∧ x = e := by
  unfold faultIf
  split
  · simp only [List.mem_singleton, true_and, *]
  · simp only [List.not_mem_nil, false_and, *]

namespace Backend

/-- What is wrong with a target as such. -/
def targetFaults (t : Target) : List BuildError :=
  faultIf (t.host = "") .emptyHost ++ faultIf (t.port = 0) .invalidPort

/-- What is wrong with a target that has to resolve. -/
def resolveFaults (t : Target) (h : Host) : List BuildError :=
  match h.resolve t.host t.port with
  | .ok _ => []
  | .error cause => [.resolveFailed t.host t.port cause]

/-- What is wrong with a backend on a host. A datagram target need not resolve. -/
def faults (h : Host) : Backend → List BuildError
  | .datagram t => targetFaults t
  | .stream t => targetFaults t ++ resolveFaults t h
  | .discard => []

/-- What is logged about a backend: a datagram target that does not resolve. -/
def warnings (h : Host) : Backend → List LogEntry
  | .datagram t =>
    match h.resolve t.host t.port with
    | .ok _ => []
    | .error _ => [.unresolvedTarget t.host t.port]
  | .stream _ => []
  | .discard => []

/-- The link that a client for a backend starts with. A datagram link has a
socket exactly if its target resolves; a stream need not be connected. -/
def StartsWith (h : Host) : Backend → Link → Prop
  | .datagram t, link => ∃ l, link = .datagram l ∧ l.target = t ∧
      (l.isConnected = true ↔ ∃ endpoint, h.resolve t.host t.port = .ok endpoint)
  | .stream t, link => ∃ l endpoint, link = .stream l ∧
      h.resolve t.host t.port = .ok endpoint ∧
      (l.isConnected = true ↔ ∃ peer, h.openStream endpoint t.bind = .ok peer)
  | .discard, link => link = .idle

end Backend

namespace Config

/-- All that is wrong with settings on a host, in the order in which it counts. -/
def faults (c : Config) (h : Host) : List BuildError :=
  faultIf (c.batchSize = some 0) .zeroBatchSize ++ faultIf (c.sendTimeout = 0) .zeroSendTimeout ++
    c.backend.faults h

/-- A client as it is made: nothing is counted, nothing is joined and nothing has
been reported. With a target it has the prefix of the settings; without one it
discards everything. -/
structure Begins (c : Config) (h : Host) (s : Session Link) : Prop where
  client : ∃ client, s.clients = [some client] ∧ client.reported = none ∧
    (client.live = true ↔ c.backend ≠ .discard) ∧
    client.scope = if c.backend = .discard then Prefix.empty else c.scope
  counters : s.sink.counters = Counters.zero
  batch : s.sink.batch = Batch.empty
  limit : c.backend ≠ .discard → s.sink.limit = c.batchSize.map UInt64.toNat
  link : c.backend.StartsWith h s.sink.transport

/-- The host has a socket for a datagram target, if it resolves. -/
def HasSocket (c : Config) (h : Host) : Prop :=
  ∀ t endpoint, c.backend = .datagram t → h.resolve t.host t.port = .ok endpoint →
    h.openSocket endpoint t.bind (.datagram c.sendBufferSize) = .ok ()

/-! ## Building a client -/

/-- The ways in which building a client can end. -/
inductive Builds (c : Config) (h : Host) (draws : Generator) :
    List LogEntry × BuildResult → Prop where
  /-- Something is wrong; the first fault is reported. -/
  | fault {e : BuildError} (hfault : (c.faults h).head? = some e) :
      Builds c h draws ([], .refused e)
  /-- Nothing is wrong with a datagram target, but the host has no socket for it. -/
  | noSocket {t : Target} {endpoint : Endpoint} {cause : Failure} (hsound : c.faults h = [])
      (hbackend : c.backend = .datagram t) (hresolve : h.resolve t.host t.port = .ok endpoint)
      (hsocket : h.openSocket endpoint t.bind (.datagram c.sendBufferSize) = .error cause) :
      Builds c h draws ([], .refused (.socketError cause))
  /-- There is no target. -/
  | discard (hsound : c.faults h = []) (hbackend : c.backend = .discard) :
      Builds c h draws ([], .ready (Session.discarding draws))
  /-- There is a link, and the rest is a matter of memory. -/
  | link {l : Link} (hsound : c.faults h = []) (hbackend : c.backend ≠ .discard)
      (hsocket : c.HasSocket h) (hlink : c.backend.StartsWith h l) :
      Builds c h draws (c.backend.warnings h, Session.overLink c l draws)

/-- The settings are checked in front of the target, the batch before the timeout. -/
theorem head_faults (c : Config) (h : Host) :
    (c.faults h).head? =
      if c.batchSize = some 0 then some .zeroBatchSize
      else if c.sendTimeout = 0 then some .zeroSendTimeout
      else (c.backend.faults h).head? := by
  unfold faults faultIf
  split
  · rfl
  · split
    · rfl
    · rfl

/-- Settings that pass leave the faults of the backend. -/
theorem faults_of_pass {c : Config} (h : Host) (hbatch : c.batchSize ≠ some 0)
    (htimeout : c.sendTimeout ≠ 0) : c.faults h = c.backend.faults h := by
  rw [faults, faultIf, faultIf, if_neg hbatch, if_neg htimeout]
  rfl

/-- A target is checked for its faults as such. -/
theorem checkTarget_eq (t : Target) :
    checkTarget t =
      match (Backend.targetFaults t).head? with
      | some e => .error e
      | none => .ok () := by
  unfold checkTarget Backend.targetFaults faultIf
  simp only [String.isEmpty_iff]
  split
  · rfl
  · split
    · rfl
    · rfl

/-- A stream that is connected ahead is connected if the host says so. -/
theorem connectEarly_connected (answer : Stream.ConnectResult) :
    (Stream.Link.init fun _ => answer).connectEarly.isConnected = true ↔
      ∃ peer, answer = .ok peer := by
  cases answer with
  | ok peer => exact ⟨fun _ => ⟨peer, rfl⟩, fun _ => rfl⟩
  | error e =>
    constructor
    · intro hconnected
      cases hconnected
    · rintro ⟨peer, hpeer⟩
      cases hpeer

theorem build_datagram_builds {c : Config} {t : Target} (h : Host) (draws : Generator)
    (hbackend : c.backend = .datagram t) (hbatch : c.batchSize ≠ some 0)
    (htimeout : c.sendTimeout ≠ 0) : c.Builds h draws (c.build h draws) := by
  have hother : c.backend ≠ .discard := by rw [hbackend]; exact Backend.noConfusion
  have hfaults : c.faults h = Backend.targetFaults t := by
    rw [faults_of_pass h hbatch htimeout, hbackend]
    rfl
  have hwarnings : c.backend.warnings h = (Backend.datagram t).warnings h :=
    congrArg (Backend.warnings h) hbackend
  rw [build, if_neg hbatch, if_neg htimeout, openLink, hbackend]
  dsimp only
  rw [checkTarget_eq]
  cases hhead : (Backend.targetFaults t).head? with
  | some e => exact .fault (by rw [hfaults, hhead])
  | none =>
    have hsound : c.faults h = [] := by rw [hfaults, List.head?_eq_none_iff.mp hhead]
    unfold openDatagram
    cases hresolve : h.resolve t.host t.port with
    | error cause =>
      -- the link has no socket, and the target will be resolved on send
      have hsocket : c.HasSocket h := by
        intro t' endpoint ht' hendpoint
        cases hbackend.symm.trans ht'
        cases hresolve.symm.trans hendpoint
      have hlink : c.backend.StartsWith h (.datagram (Datagram.Link.init t c.retryInterval)) := by
        rw [hbackend]
        refine ⟨_, rfl, rfl, ?_⟩
        simp [hresolve, Datagram.Link.init, Datagram.Link.isConnected]
      have hbuilds : c.Builds h draws _ := .link hsound hother hsocket hlink
      rw [hwarnings, Backend.warnings, hresolve] at hbuilds
      exact hbuilds
    | ok endpoint =>
      dsimp only
      cases hopen : h.openSocket endpoint t.bind (.datagram c.sendBufferSize) with
      | error cause => exact .noSocket hsound hbackend hresolve hopen
      | ok _ =>
        have hsocket : c.HasSocket h := by
          intro t' endpoint' ht' hendpoint
          cases hbackend.symm.trans ht'
          cases hresolve.symm.trans hendpoint
          exact hopen
        have hlink : c.backend.StartsWith h (c.connected t h) := by
          rw [hbackend]
          exact ⟨_, rfl, rfl, fun _ => ⟨endpoint, hresolve⟩, fun _ => rfl⟩
        have hbuilds : c.Builds h draws _ := .link hsound hother hsocket hlink
        rw [hwarnings, Backend.warnings, hresolve] at hbuilds
        exact hbuilds

theorem build_stream_builds {c : Config} {t : Target} (h : Host) (draws : Generator)
    (hbackend : c.backend = .stream t) (hbatch : c.batchSize ≠ some 0)
    (htimeout : c.sendTimeout ≠ 0) : c.Builds h draws (c.build h draws) := by
  have hother : c.backend ≠ .discard := by rw [hbackend]; exact Backend.noConfusion
  have hfaults : c.faults h = Backend.targetFaults t ++ Backend.resolveFaults t h := by
    rw [faults_of_pass h hbatch htimeout, hbackend]
    rfl
  have hwarnings : c.backend.warnings h = [] := congrArg (Backend.warnings h) hbackend
  rw [build, if_neg hbatch, if_neg htimeout, openLink, hbackend]
  dsimp only
  rw [checkTarget_eq]
  cases hhead : (Backend.targetFaults t).head? with
  | some e => exact .fault (by rw [hfaults, List.head?_append, hhead, Option.some_or])
  | none =>
    rw [List.head?_eq_none_iff.mp hhead, List.nil_append, Backend.resolveFaults] at hfaults
    unfold openStream
    cases hresolve : h.resolve t.host t.port with
    | error cause =>
      rw [hresolve] at hfaults
      exact .fault (by rw [hfaults]; rfl)
    | ok endpoint =>
      rw [hresolve] at hfaults
      have hsocket : c.HasSocket h := by
        intro t' endpoint' ht'
        cases hbackend.symm.trans ht'
      have hlink : c.backend.StartsWith h
          (.stream (Stream.Link.init fun _ => h.openStream endpoint t.bind).connectEarly) := by
        rw [hbackend]
        exact ⟨_, endpoint, rfl, hresolve, connectEarly_connected _⟩
      have hbuilds : c.Builds h draws _ := .link hfaults hother hsocket hlink
      rw [hwarnings] at hbuilds
      exact hbuilds

/-- Building a client ends in one of these ways. -/
theorem build_builds (c : Config) (h : Host) (draws : Generator) :
    c.Builds h draws (c.build h draws) := by
  by_cases hbatch : c.batchSize = some 0
  · rw [build, if_pos hbatch]
    exact .fault (by rw [head_faults, if_pos hbatch])
  · by_cases htimeout : c.sendTimeout = 0
    · rw [build, if_neg hbatch, if_pos htimeout]
      exact .fault (by rw [head_faults, if_neg hbatch, if_pos htimeout])
    · cases hbackend : c.backend with
      | datagram t => exact build_datagram_builds h draws hbackend hbatch htimeout
      | stream t => exact build_stream_builds h draws hbackend hbatch htimeout
      | discard =>
        have hsound : c.faults h = [] := by
          rw [faults_of_pass h hbatch htimeout, hbackend]
          rfl
        rw [build, if_neg hbatch, if_neg htimeout, openLink, hbackend]
        exact .discard hsound hbackend

/-- The first fault is reported. -/
theorem build_of_fault {c : Config} {h : Host} {e : BuildError} (draws : Generator)
    (hfault : (c.faults h).head? = some e) : c.build h draws = ([], .refused e) := by
  have hbuilds := build_builds c h draws
  generalize c.build h draws = built at hbuilds ⊢
  cases hbuilds with
  | fault hfirst => rw [Option.some.inj (hfirst.symm.trans hfault)]
  | noSocket hsound hbackend hresolve hsocket =>
    rw [hsound] at hfault
    contradiction
  | discard hsound hbackend =>
    rw [hsound] at hfault
    contradiction
  | link hsound hbackend hsocket hlink =>
    rw [hsound] at hfault
    contradiction

/-- Nothing else is reported but that the host has no socket. -/
theorem build_refused {c : Config} {h : Host} {draws : Generator} {e : BuildError}
    (hrefused : (c.build h draws).2 = .refused e) :
    (c.faults h).head? = some e ∨ ∃ cause, e = .socketError cause := by
  have hbuilds := build_builds c h draws
  generalize c.build h draws = built at hbuilds hrefused
  cases hbuilds with
  | fault hfirst =>
    cases hrefused
    exact Or.inl hfirst
  | noSocket hsound hbackend hresolve hsocket =>
    cases hrefused
    exact Or.inr ⟨_, rfl⟩
  | discard hsound hbackend => cases hrefused
  | link hsound hbackend hsocket hlink =>
    dsimp only [Session.overLink] at hrefused
    split at hrefused
    · cases hrefused
    · cases hrefused

/-- A prefix is not among what settings can be wrong about. -/
theorem head_faults_ne_invalidPrefix (c : Config) (h : Host) (e : PrefixError) :
    (c.faults h).head? ≠ some (.invalidPrefix e) := by
  intro hhead
  have hmem : BuildError.invalidPrefix e ∈ c.faults h := List.mem_of_head? hhead
  unfold faults Backend.faults Backend.targetFaults Backend.resolveFaults at hmem
  simp only [List.mem_append, mem_faultIf, reduceCtorEq, and_false, false_or] at hmem
  split at hmem
  · simp only [List.mem_append, mem_faultIf, reduceCtorEq, and_false, or_self] at hmem
  · simp only [List.mem_append, mem_faultIf, reduceCtorEq, and_false, or_self, false_or] at hmem
    split at hmem
    · cases hmem
    · simp only [List.mem_singleton, reduceCtorEq] at hmem
  · cases hmem

/-! ## What is assumed of the host -/

/-- The host has what settings ask for besides an address of the target: memory
for the batch and, if a datagram target resolves, a socket for it. -/
structure Supported (c : Config) (h : Host) : Prop where
  /-- The batch is no larger than a buffer can be. -/
  batch : ∀ size, c.batchSize = some size → size.toNat ≤ maxBuffer
  /-- There is a socket for the family of the target, with the send buffer asked for. -/
  make : ∀ t endpoint, c.backend = .datagram t → h.resolve t.host t.port = .ok endpoint →
    h.make (.datagram c.sendBufferSize) endpoint.address.family = .ok ()
  /-- A local address is of the family of the target. -/
  family : ∀ t endpoint b, c.backend = .datagram t → h.resolve t.host t.port = .ok endpoint →
    t.bind = some b → b.family = endpoint.address.family
  /-- A socket can have the local address. -/
  bind : ∀ t b, c.backend = .datagram t → t.bind = some b → h.bind b = .ok ()
  /-- A socket can be connected to the target. -/
  route : ∀ t endpoint, c.backend = .datagram t → h.resolve t.host t.port = .ok endpoint →
    h.route endpoint.address = .ok ()

theorem Supported.hasSocket {c : Config} {h : Host} (hsupported : c.Supported h) :
    c.HasSocket h := by
  intro t endpoint hbackend hresolve
  have hbind : h.bindFor endpoint.address.family t.bind = .ok () := by
    cases hb : t.bind with
    | none => rfl
    | some b =>
      have hfamily := hsupported.family t endpoint b hbackend hresolve hb
      rw [Host.bindFor, if_pos hfamily, hsupported.bind t b hbackend hb]
      rfl
  rw [Host.openSocket, hsupported.make t endpoint hbackend hresolve, hbind,
    hsupported.route t endpoint hbackend hresolve]
  rfl

theorem Supported.overLink {c : Config} {h : Host} (hsupported : c.Supported h) (link : Link)
    (draws : Generator) : Session.overLink c link draws = .ready (c.sessionOver link draws) := by
  have hsize : ¬ maxBuffer < (c.batchSize.getD 0).toNat := by
    rw [Nat.not_lt]
    cases hbatch : c.batchSize with
    | none => exact Nat.zero_le _
    | some size => exact hsupported.batch size hbatch
  rw [Session.overLink, if_neg hsize]
  rfl

/-- Without a fault a client is made. -/
theorem build_of_sound {c : Config} {h : Host} (draws : Generator) (hsupported : c.Supported h)
    (hfaults : c.faults h = []) :
    ∃ s, c.build h draws = (c.backend.warnings h, .ready s) ∧ c.Begins h s := by
  have hbuilds := build_builds c h draws
  generalize c.build h draws = built at hbuilds ⊢
  cases hbuilds with
  | fault hfirst =>
    rw [hfaults] at hfirst
    contradiction
  | noSocket hsound hbackend hresolve hsocket =>
    rw [hsupported.hasSocket _ _ hbackend hresolve] at hsocket
    contradiction
  | discard hsound hbackend =>
    refine ⟨Session.discarding draws, ?_, ?_⟩
    · rw [hbackend]
      rfl
    · constructor
      · exact ⟨_, rfl, rfl, by simp [hbackend], by rw [if_pos hbackend]⟩
      · rfl
      · rfl
      · exact fun hother => absurd hbackend hother
      · rw [hbackend]
        rfl
  | @link l hsound hbackend hsocket hlink =>
    refine ⟨c.sessionOver l draws, ?_, ?_⟩
    · rw [hsupported.overLink]
    · constructor
      · exact ⟨_, rfl, rfl, by simp [hbackend], by rw [if_neg hbackend]⟩
      · rfl
      · rfl
      · exact fun _ => rfl
      · exact hlink

/-- **The first fault decides.** Give settings in any order, to a configuration
with any prefix, and build it on a host that supports what they come to.

* Each field has the value given last for it, and nothing else counts.
* An error is reported exactly if it is the first of all faults there are, and
  then nothing is logged.
* Without a fault a client is made, with the prefix of the settings, no counts
  and an empty batch. A datagram target that does not resolve leaves one warning
  and no socket; a stream is there whether or not it could be connected.
* A client for a target by name is refused for its prefix exactly if the prefix
  does not parse, whatever else is wrong. -/
theorem first_fault_decides (scope : Prefix) (settings : List Setting) (h : Host)
    (draws : Generator) (hsupported : ((withPrefix scope).given settings).Supported h) :
    let c := (withPrefix scope).given settings
    let built := ((withPrefix scope).setAll settings).build h draws
    (withPrefix scope).setAll settings = c ∧
    (∀ e, built = ([], .refused e) ↔ (c.faults h).head? = some e) ∧
    (c.faults h = [] → ∃ s, built = (c.backend.warnings h, .ready s) ∧ c.Begins h s) ∧
    ∀ (host : String) (port : UInt16) (text : String) (channel : Channel) (e : PrefixError),
      connect host port text channel h draws = ([], .refused (.invalidPrefix e)) ↔
        Prefix.parse text = .error e := by
  intro c built
  have hset : (withPrefix scope).setAll settings = c := setAll_eq_given _ settings
  have hbuilt : built = c.build h draws := congrArg (fun c => c.build h draws) hset
  refine ⟨hset, ?_, ?_, ?_⟩
  · intro e
    rw [hbuilt]
    constructor
    · intro hrefused
      cases hhead : (c.faults h).head? with
      | some first =>
        rw [build_of_fault draws hhead, Prod.mk.injEq, BuildResult.refused.injEq] at hrefused
        rw [hrefused.2]
      | none =>
        obtain ⟨s, hready, -⟩ := build_of_sound draws hsupported (List.head?_eq_none_iff.mp hhead)
        rw [hready] at hrefused
        cases congrArg Prod.snd hrefused
    · exact build_of_fault draws
  · rw [hbuilt]
    exact build_of_sound draws hsupported
  · intro host port text channel e
    unfold connect
    cases hparse : Prefix.parse text with
    | error first =>
      simp only [Prod.mk.injEq, true_and, BuildResult.refused.injEq, BuildError.invalidPrefix.injEq,
        Except.error.injEq]
    | ok p =>
      dsimp only
      simp only [reduceCtorEq, iff_false]
      intro hrefused
      obtain hhead | ⟨cause, hcause⟩ := build_refused (congrArg Prod.snd hrefused)
      · exact head_faults_ne_invalidPrefix _ h e hhead
      · cases hcause

/-- Of a stream without a host and a port, no batch, no timeout, and then a
datagram target, a timeout and a batch, the latter three count. -/
theorem first_fault_decides_overwritten :
    let t : Target := ⟨"127.0.0.1", 8125, some (.v4 #v[127, 0, 0, 1])⟩
    let settings : List Setting :=
      [.backend (.stream ⟨"", 0, none⟩), .batchSize 0, .sendTimeout 0,
        .backend (.datagram t), .sendTimeout 1, .batchSize 512]
    let c := (withPrefix Prefix.empty).given settings
    c.Supported Host.loopback ∧ c.faults Host.loopback = [] ∧
      ∃ s, ((withPrefix Prefix.empty).setAll settings).build Host.loopback ⟨0⟩ = ([], .ready s) ∧
        c.Begins Host.loopback s := by
  intro t settings c
  have hport : t.port ≠ 0 := by decide
  obtain ⟨-, hresolve⟩ := resolve_literal parse_localhost hport t.bind Host.loopback
  have hbackend : c.backend = .datagram t := rfl
  have hsupported : c.Supported Host.loopback := by
    constructor
    · intro size hsize
      cases hsize
      decide
    · intro t' endpoint ht' hendpoint
      rfl
    · intro t' endpoint b ht' hendpoint hb
      cases hbackend.symm.trans ht'
      rw [hresolve, Except.ok.injEq] at hendpoint
      cases hb
      rw [← hendpoint]
    · intro t' b ht' hb
      cases hbackend.symm.trans ht'
      cases hb
      rfl
    · intro t' endpoint ht' hendpoint
      rfl
  have hfaults : c.faults Host.loopback = [] := by decide
  have hwarnings : c.backend.warnings Host.loopback = [] := by
    rw [hbackend, Backend.warnings, hresolve]
  obtain ⟨-, -, hready, -⟩ := first_fault_decides Prefix.empty settings Host.loopback ⟨0⟩ hsupported
  rw [hwarnings] at hready
  exact ⟨hsupported, hfaults, hready hfaults⟩

end Config

end Statsd

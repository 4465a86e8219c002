import Statsd.Proofs.Session.Accounting
import Statsd.Proofs.Sink.Delivery
import Statsd.Proofs.Stream.Integrity

/-!
# Statsd.Proofs.Session.Transparency — the target cannot tell how lines were packed

Two runs of the same operations may differ in their packet size, in their
transport and in where they flush. If every packet goes out and all clients
have been dropped, the messages are the same and so is what the target has seen.

1. A flush does not move the front, so both runs ask the same messages of their
   sinks (`Front.run_filter`).
2. The last client that is dropped leaves the batch empty (`Covered`,
   `run_settled`), so the groups that went out are all the messages.
3. A stream puts a line feed behind each packet and each datagram is read as
   ending a line, so where the groups were cut does not show
   (`run_received_of_empty`, `run_received`).
-/

namespace Statsd

/-- Where messages are cut into packets does not show once every packet is terminated. -/
theorem terminated_join {groups : List (List Packet)} (h : ∀ g ∈ groups, g ≠ []) :
    terminated ((groups.map Packet.join).map (·.data)) =
      terminated (groups.flatten.map (·.data)) := by
  have hne : ∀ g ∈ groups.map (List.map (·.data)), g ≠ [] := by
    intro g hg
    rcases List.mem_map.mp hg with ⟨g', hg', rfl⟩
    simpa using h g' hg'
  calc terminated ((groups.map Packet.join).map (·.data))
      = terminated ((groups.map (List.map (·.data))).map joined) := by
        rw [List.map_map, List.map_map]
        rfl
    _ = terminated (groups.map (List.map (·.data))).flatten := terminated_joined hne
    _ = terminated (groups.flatten.map (·.data)) := by rw [List.map_flatten]

/-! ## Links at their start -/

/-- A link over which nothing has been sent. A stream may have been connected early. -/
inductive Link.Fresh : Link → Prop where
  | datagram (l : Datagram.Link) (h : l.offered = []) : Fresh (.datagram l)
  | stream (early : Bool) (answer : Nat → Stream.ConnectResult) :
      Fresh (.stream (Stream.Link.start early answer))

theorem Link.fresh_received {l : Link} (h : l.Fresh) :
    l.Attentive ∧ l.received = ByteArray.empty := by
  cases h with
  | datagram l hoffered =>
      refine ⟨trivial, ?_⟩
      have hnone : l.delivered = [] := by
        rw [Datagram.Link.delivered]
        split
        · rfl
        · rw [hoffered, List.filter_nil]
      rw [received, hnone, terminated_nil]
  | stream early answer =>
      have harrived := Stream.Link.arrived_eq (Stream.Link.start early answer)
      rcases Stream.start_slot early answer with hslot | ⟨peer, hslot⟩
      · constructor
        · intro c hc
          rw [hslot] at hc
          cases hc
        · rw [received, harrived, hslot]
          rfl
      · constructor
        · intro c hc
          rw [hslot] at hc
          cases hc
          rfl
        · rw [received, harrived, hslot]
          rfl

/-! ## Flushes -/

/-- Whether an operation asks for a flush and does nothing else. -/
def Op.isFlush : Op → Bool
  | .flush _ => true
  | _ => false

namespace Front

/-- The front of a session does not see flushes: without them it sends the same
metrics and messages, and comes to the same state. -/
theorem run_filter (f : Front) (ops : List Op) :
    f.run (ops.filter (!·.isFlush)) = f.run ops ∧
      f.sends (ops.filter (!·.isFlush)) = f.sends ops ∧
      Request.messages (f.allRequests (ops.filter (!·.isFlush))) =
        Request.messages (f.allRequests ops) := by
  induction ops generalizing f with
  | nil => exact ⟨rfl, rfl, rfl⟩
  | cons op rest ih =>
      rcases ih (f.step op) with ⟨hrun, hsends, hmessages⟩
      cases hflush : op.isFlush with
      | false =>
          -- the operation stays in both sequences
          have hfilter : (op :: rest).filter (!·.isFlush) = op :: rest.filter (!·.isFlush) :=
            List.filter_cons_of_pos (by simp only [hflush, Bool.not_false])
          rw [hfilter]
          simp only [run, sends, allRequests, Request.messages_append, hrun, hsends, hmessages,
            and_self]
      | true =>
          have hfilter : (op :: rest).filter (!·.isFlush) = rest.filter (!·.isFlush) := by
            apply List.filter_cons_of_neg
            simp only [hflush, Bool.not_true, Bool.false_eq_true, not_false_eq_true]
          cases op with
          | flush i =>
              -- a flush leaves the front as it is, and has no message
              have hstep : f.step (.flush i) = f := rfl
              have hnone : Request.messages (f.requests (.flush i)) = [] := by
                simp only [requests, sending?]
                split
                · rfl
                · rfl
              rw [hstep] at hrun hsends hmessages
              rw [hfilter]
              simp only [run, sends, allRequests, Request.messages_append, hstep, hnone, hrun,
                hsends, hmessages, sending?, Option.map_none, Option.toList_none, List.nil_append,
                and_self]
          | _ => cases hflush

/-! ## The last client -/

/-- Without a client nothing is asked of the sink, except that it lets time pass. -/
theorem requests_of_deserted {f : Front} (h : ∀ i, f.live? i = none) (op : Op) :
    f.requests op = [] ∨ ∃ nanos, f.requests op = [.wait nanos] := by
  have hclosing : ∀ k, f.closing? k = none := by
    intro k
    rw [closing?]
    split
    · rfl
    · rw [h, Option.map_none, ite_self]
  cases op with
  | wait nanos => exact Or.inr ⟨nanos, rfl⟩
  | emit i m =>
      left
      simp only [requests, sending?, h, Option.map_none]
  | endSpan k ending =>
      left
      cases ending with
      | cancel => rfl
      | send => simp only [requests, sending?, hclosing]
      | drop => simp only [requests, sending?, hclosing]
      | panic => simp only [requests, sending?, hclosing]
  | flush i =>
      left
      simp only [requests, sending?, h, Option.isSome_none, Bool.false_eq_true, if_false]
  | drop i =>
      left
      simp only [requests, sending?, h, Option.isSome_none, Bool.false_eq_true, if_false]
  | abandon i m => exact Or.inl rfl
  | derive i sub => exact Or.inl rfl
  | startSpan i name => exact Or.inl rfl
  | rateSpan k rate => exact Or.inl rfl

end Front

namespace Session

section Covered

variable {σ : Type} [Transport σ]

/-- What is kept in the batch has a client that will flush it. -/
def Covered (s : Session σ) : Prop :=
  s.sink.batch = Batch.empty ∨ ∃ i, (s.client? i).isSome

theorem covered_step {limit : Option Nat} {s : Session σ} (hs : Steady limit s) (h : s.Covered)
    (op : Op) : (s.step op).1.Covered := by
  by_cases hclients : ∃ i, (s.client? i).isSome
  · rcases hclients with ⟨i, hi⟩
    by_cases hop : op = .drop i
    · -- a client that is dropped flushes
      rw [hop]
      exact Or.inl (flush_drop_empty hs hi).2
    · -- a client that is not stays
      right
      obtain ⟨c, hc⟩ := Option.isSome_iff_exists.mp hi
      obtain ⟨c', hc', -⟩ := client_stays hc hop
      exact ⟨i, Option.isSome_of_eq_some hc'⟩
  · -- nobody is there to ask anything of the sink
    have hempty : s.sink.batch = Batch.empty := h.resolve_right hclients
    have hnone : ∀ i, s.front.live? i = none := by
      intro i
      have hi : s.client? i = none := by
        rw [← Option.not_isSome_iff_eq_none]
        exact fun hsome => hclients ⟨i, hsome⟩
      rw [Front.live?, front_client?, hi]
      rfl
    left
    rw [(step_follows s op).sink]
    rcases Front.requests_of_deserted hnone op with hrequests | ⟨nanos, hrequests⟩
    · rw [hrequests]
      exact hempty
    · rw [hrequests]
      exact hempty

/-- When all clients have been dropped, nothing is kept. -/
theorem run_settled {limit : Option Nat} {s : Session σ} (hs : Steady limit s) (h : s.Covered)
    (ops : List Op) (hdropped : ∀ i, (s.run ops).1.client? i = none) :
    (s.run ops).1.sink.batch = Batch.empty := by
  induction ops generalizing s with
  | nil =>
      rcases h with hempty | ⟨i, hi⟩
      · exact hempty
      · rw [show s.client? i = none from hdropped i] at hi
        cases hi
  | cons op rest ih => exact ih (steady_step hs op) (covered_step hs h op) hdropped

end Covered

/-! ## One run -/

/-- Over a dependable link a target has seen the messages of a run, each with a
line feed behind it, as soon as nothing is kept. -/
theorem run_received_of_empty (limit : Option Nat) {link : Link} (hfresh : link.Fresh)
    (hdep : Dependable link) (scope : Prefix) (draws : Generator) (ops : List Op) :
    let x := (Session.init (Sink.init limit link) scope true draws).run ops
    x.1.sink.batch = Batch.empty →
      x.1.sink.transport.received = terminated ((Event.messages x.2).map (·.data)) := by
  intro x hbatch
  let start := Session.init (Sink.init limit link) scope true draws
  have hrun := run_follows start ops
  have hsent : Sink.AllSent (start.sink.handleAll (start.front.allRequests ops)).2 :=
    Sink.handleAll_dependable hdep _
  rcases run_partition limit link scope true draws ops with ⟨-, sent, kept, hpart⟩
  have hkept : kept = [] := by
    rw [← hpart.holds.data_empty_iff]
    exact congrArg Batch.data hbatch
  rcases Link.fresh_received hfresh with ⟨hattentive, hempty⟩
  have hstart : start.sink.transport.received = ByteArray.empty := hempty
  have hreceived := Sink.handleAll_received hattentive (start.front.allRequests ops) hsent
  rw [← hrun.sink, ← hrun.attempts, hstart, ByteArray.empty_append] at hreceived
  -- what was received is what went out, and that is all groups
  calc x.1.sink.transport.received
      = terminated (((Event.attempts x.2).map (·.packet)).map (·.data)) := by
        rw [hreceived, List.map_map]
        rfl
    _ = terminated ((sent.map Packet.join).map (·.data)) := by rw [← hpart.packets]
    _ = terminated (sent.flatten.map (·.data)) :=
        terminated_join fun g hg => Batch.group_ne_nil (hpart.sent_groups g hg)
    _ = terminated ((Event.messages x.2).map (·.data)) := by
        rw [← hpart.all, hkept, List.append_nil]

/-- What every run over a dependable link comes to once all clients have been
dropped: the target has seen the messages, each with a line feed behind it, and
only refusals count as lost. -/
theorem run_received (limit : Option Nat) {link : Link} (hfresh : link.Fresh)
    (hdep : Dependable link) (scope : Prefix) (draws : Generator) (ops : List Op) :
    let start := Session.init (Sink.init limit link) scope true draws
    let x := start.run ops
    let sends := start.front.sends ops
    (∀ i, x.1.client? i = none) →
      x.1.sink.transport.received = terminated ((Event.messages x.2).map (·.data)) ∧
      x.1.sink.counters.sentLines = UInt64.ofNat (Fate.passedLines sends) ∧
      x.1.sink.counters.droppedLines = UInt64.ofNat (Fate.number .refused sends) ∧
      x.1.sink.counters.sampledOut = UInt64.ofNat (Fate.number .leftOut sends) := by
  intro start x sends hdropped
  -- nothing is kept, and no packet is lost on the way
  have hbatch : x.1.sink.batch = Batch.empty :=
    run_settled (steady_init limit link scope draws) (Or.inr ⟨0, rfl⟩) ops hdropped
  have hrun := run_follows start ops
  have hsent : Sink.AllSent (Event.attempts x.2) := by
    rw [hrun.attempts]
    exact Sink.handleAll_dependable hdep _
  have hlost : Attempt.lost (Event.attempts x.2) = [] := by
    rw [Attempt.lost, List.map_eq_nil_iff, List.filter_eq_nil_iff]
    intro a ha
    simp only [hsent a ha, Option.isSome_none, Bool.false_eq_true, not_false_eq_true]
  have hcounters := run_counters limit link scope true draws ops
  have hlines : lineCount (Attempt.delivered (Event.attempts x.2)) +
      lineCount (Attempt.lost (Event.attempts x.2)) + x.1.sink.batch.lines =
        Fate.passedLines (start.front.sends ops) := run_lines limit link scope true draws ops
  refine ⟨?_, ?_, ?_, ?_⟩
  · exact run_received_of_empty limit hfresh hdep scope draws ops hbatch
  · have hnone : x.1.sink.batch.lines = 0 := congrArg Batch.lines hbatch
    rw [hlost, hnone] at hlines
    rw [hcounters, ← hlines]
    rfl
  · rw [hcounters, hlost]
    rfl
  · rw [hcounters]

/-! ## Two runs -/

/-- Packing is transparent. Let two runs differ in the packet size (or in
having none), in the link and in where they flush, over links on which every
send succeeds. Once all clients have been dropped

* both have written the same messages in the same order;
* both targets have seen just these, each with a line feed behind it, whether
  as one stream or as datagrams that are read as ending a line;
* both have counted the same lines as sent and as lost, and the same metrics as
  left out. -/
theorem transparency (limit₁ limit₂ : Option Nat) {link₁ link₂ : Link}
    (hfresh₁ : link₁.Fresh) (hfresh₂ : link₂.Fresh)
    (hdep₁ : Dependable link₁) (hdep₂ : Dependable link₂) (scope : Prefix) (draws : Generator)
    {ops₁ ops₂ : List Op} (hops : ops₁.filter (!·.isFlush) = ops₂.filter (!·.isFlush))
    (hdropped : ∀ i,
      ((Session.init (Sink.init limit₁ link₁) scope true draws).run ops₁).1.client? i = none) :
    let x := (Session.init (Sink.init limit₁ link₁) scope true draws).run ops₁
    let y := (Session.init (Sink.init limit₂ link₂) scope true draws).run ops₂
    Event.messages x.2 = Event.messages y.2 ∧
    x.1.sink.transport.received = terminated ((Event.messages x.2).map (·.data)) ∧
    y.1.sink.transport.received = terminated ((Event.messages x.2).map (·.data)) ∧
    x.1.sink.counters.sentLines = y.1.sink.counters.sentLines ∧
    x.1.sink.counters.droppedLines = y.1.sink.counters.droppedLines ∧
    x.1.sink.counters.sampledOut = y.1.sink.counters.sampledOut := by
  intro x y
  let start₁ := Session.init (Sink.init limit₁ link₁) scope true draws
  let start₂ := Session.init (Sink.init limit₂ link₂) scope true draws
  -- the fronts are the same at the start, and both go the way of the operations without flushes
  have hfront : start₂.front = start₁.front := rfl
  have hrun₁ := run_follows start₁ ops₁
  have hrun₂ := run_follows start₂ ops₂
  rcases Front.run_filter start₁.front ops₁ with ⟨hlast₁, hsends₁, hmessages₁⟩
  rcases Front.run_filter start₁.front ops₂ with ⟨hlast₂, hsends₂, hmessages₂⟩
  have hlast : x.1.front = y.1.front := by
    rw [hrun₁.front, hrun₂.front, hfront, ← hlast₁, hops, hlast₂]
  have hsends : start₁.front.sends ops₁ = start₂.front.sends ops₂ := by
    rw [hfront, ← hsends₁, hops, hsends₂]
  have hmessages : Event.messages x.2 = Event.messages y.2 := by
    rw [hrun₁.messages, hrun₂.messages, hfront, ← hmessages₁, hops, hmessages₂]
  have hdropped₂ : ∀ i, y.1.client? i = none := by
    intro i
    have hi : (x.1.client? i).map Client.quiet = (y.1.client? i).map Client.quiet := by
      rw [← front_client?, ← front_client?, hlast]
    rw [hdropped i, Option.map_none] at hi
    exact Option.map_eq_none_iff.mp hi.symm
  rcases run_received limit₁ hfresh₁ hdep₁ scope draws ops₁ hdropped with
    ⟨hreceived₁, hsent₁, hlost₁, hout₁⟩
  rcases run_received limit₂ hfresh₂ hdep₂ scope draws ops₂ hdropped₂ with
    ⟨hreceived₂, hsent₂, hlost₂, hout₂⟩
  refine ⟨hmessages, hreceived₁, ?_, ?_, ?_, ?_⟩
  · rw [hmessages]
    exact hreceived₂
  · rw [hsent₁, hsent₂, ← hsends]
  · rw [hlost₁, hlost₂, ← hsends]
  · rw [hout₁, hout₂, ← hsends]

/-- A counter and a negative gauge, once line by line over a stream that was
connected early, and once in packets of 512 bytes over datagrams, with a flush in
between: the same three lines are received. -/
theorem transparency_stream_datagram :
    let stream := Link.stream (Stream.Link.start true fun _ => .ok Stream.Peer.willing)
    let socket : Datagram.Socket := ⟨fun message => .ok message.size⟩
    let datagram := Link.datagram
      { Datagram.Link.init ⟨"daemon", 8125, none⟩ 0 with socket := some socket }
    let hits := Metric.always "hits" .increment
    let level := Metric.always "level" (.gauge (.whole (-5)))
    let x := (Session.init (Sink.init none stream) Prefix.empty true ⟨0⟩).run
      [.emit 0 hits, .emit 0 level, .drop 0]
    let y := (Session.init (Sink.init (some 512) datagram) Prefix.empty true ⟨0⟩).run
      [.emit 0 hits, .flush 0, .emit 0 level, .drop 0]
    let lines := "hits:1|c\nlevel:0|g\nlevel:-5|g\n".toUTF8
    stream.Fresh ∧ datagram.Fresh ∧ stream.Obliging ∧ datagram.Obliging ∧
      (∀ i, x.1.client? i = none) ∧
      x.1.sink.transport.received = lines ∧ y.1.sink.transport.received = lines ∧
      x.1.sink.transport.received = y.1.sink.transport.received := by
  intro stream socket datagram hits level x y lines
  have hstream : stream.Obliging := by
    refine ⟨fun n => ⟨Stream.Peer.willing, rfl, Stream.willing_obliging⟩, ?_⟩
    intro c hc
    cases hc
    exact Stream.willing_obliging
  have hdatagram : datagram.Obliging :=
    ⟨socket, rfl, fun message => ⟨message.size, rfl, Nat.le_refl _⟩⟩
  have hfresh₁ : stream.Fresh := .stream true _
  have hfresh₂ : datagram.Fresh := .datagram _ rfl
  have hdropped : ∀ i, x.1.client? i = none := by
    have hclients : x.1.front.clients = [none] := by
      rw [(run_follows _ _).front]
      rfl
    intro i
    rw [← Option.map_eq_none_iff (f := Client.quiet), ← front_client?, hclients]
    cases i with
    | zero => rfl
    | succ i => rfl
  have hops : [Op.emit 0 hits, .emit 0 level, .drop 0].filter (!·.isFlush) =
      [Op.emit 0 hits, .flush 0, .emit 0 level, .drop 0].filter (!·.isFlush) := rfl
  rcases transparency none (some 512) hfresh₁ hfresh₂ (Link.dependable_of_obliging hstream)
    (Link.dependable_of_obliging hdatagram) Prefix.empty ⟨0⟩ hops hdropped with
    ⟨-, hreceived₁, hreceived₂, -⟩
  have hsame : x.1.sink.transport.received = y.1.sink.transport.received := by
    simp only [x, y, hreceived₁, hreceived₂]
  have hlines : x.1.sink.transport.received = lines := by decide +kernel
  exact ⟨hfresh₁, hfresh₂, hstream, hdatagram, hdropped, hlines, hsame.symm.trans hlines, hsame⟩

end Session

end Statsd

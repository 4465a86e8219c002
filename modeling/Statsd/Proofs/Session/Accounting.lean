import Statsd.Proofs.Session.Front
import Statsd.Proofs.Sink.Tally

/-!
# Statsd.Proofs.Session.Accounting — no line is lost from the books

Every metric that a client sends is refused, left out or passed on
(`Front.sends`), and every line that is passed on is sent, lost or kept. The
four counters and the batch say how many of each.

* `Metric.weight` is how many lines a metric is worth.
* **Step**: `books_requests` reads what an operation asks of the sink off the
  metric that it sends; `steady_step` says what the operation keeps.
* **Run**: `books_allRequests` and `steady_run`, by induction; `run_partition`
  puts the messages of a run into groups and `accounting` adds it all up.
-/

namespace Statsd

/-! ## Lines of a metric -/

namespace Metric

/-- How many lines a metric is worth: an absolute gauge below 0 needs a second one. -/
def weight (m : Metric) : Nat :=
  match m.observation with
  | .gauge level => if level.text.toList.head? = some '-' then 2 else 1
  | _ => 1

theorem message_lines (m : Metric) (scope : Prefix) : (m.message scope).lines = m.weight := by
  rcases m with ⟨name, observation, rate⟩
  cases observation with
  | gauge level =>
      simp only [message, Packet.ofString, resets, isNegativeText, weight, beq_iff_eq]
  | count n => rfl
  | adjust delta => rfl
  | timing millis => rfl
  | member text => rfl

/-- A text has no byte exactly if its parts have none. -/
theorem toUTF8_append_eq_empty {s t : String} :
    (s ++ t).toUTF8 = ByteArray.empty ↔
      s.toUTF8 = ByteArray.empty ∧ t.toUTF8 = ByteArray.empty := ByteArray.append_eq_empty_iff

/-- A value line has a colon at least. -/
theorem valueLine_ne_empty (m : Metric) (scope : Prefix) :
    (m.valueLine scope).toUTF8 ≠ ByteArray.empty := by
  intro h
  rw [valueLine, toUTF8_append_eq_empty, toUTF8_append_eq_empty, toUTF8_append_eq_empty,
    toUTF8_append_eq_empty, toUTF8_append_eq_empty] at h
  have hcolon : ":".toUTF8 ≠ ByteArray.empty := by decide
  exact hcolon h.1.1.1.1.2

/-- What is written for a metric is never empty. -/
theorem message_sound (m : Metric) (scope : Prefix) : (m.message scope).Sound := by
  constructor
  · rw [message, Packet.ofString, text]
    dsimp only
    split
    · intro h
      exact valueLine_ne_empty m scope (toUTF8_append_eq_empty.mp h).2
    · exact valueLine_ne_empty m scope
  · rw [message, Packet.ofString]
    dsimp only
    split
    · exact Nat.zero_lt_two
    · exact Nat.zero_lt_one

/-- What a metric asks of the sink is a refusal, a metric left out, or its message. -/
theorem request_cases (m : Metric) (scope : Prefix) (g : Generator) :
    (m.fate g = .refused ∧ m.request scope g = .refuse) ∨
      (m.fate g = .leftOut ∧ m.request scope g = .leaveOut) ∨
      (m.fate g = .passed ∧ m.request scope g = .emit (m.message scope)) := by
  rw [request]
  cases m.fate g with
  | refused => exact Or.inl ⟨rfl, rfl⟩
  | leftOut => exact Or.inr (Or.inl ⟨rfl, rfl⟩)
  | passed => exact Or.inr (Or.inr ⟨rfl, rfl⟩)

end Metric

/-! ## Sums over what is sent -/

namespace Fate

/-- How many of some metrics met a fate. -/
def number (fate : Fate) (sends : List (Metric × Fate)) : Nat := sends.countP (·.2 = fate)

/-- The lines of the metrics that were passed on. -/
def passedLines : List (Metric × Fate) → Nat
  | [] => 0
  | (m, .passed) :: rest => m.weight + passedLines rest
  | _ :: rest => passedLines rest

theorem number_append (fate : Fate) (xs ys : List (Metric × Fate)) :
    number fate (xs ++ ys) = number fate xs + number fate ys := List.countP_append

theorem passedLines_append (xs ys : List (Metric × Fate)) :
    passedLines (xs ++ ys) = passedLines xs + passedLines ys := by
  induction xs with
  | nil => exact (Nat.zero_add _).symm
  | cons x xs ih =>
      rcases x with ⟨m, fate⟩
      cases fate with
      | passed => simp only [List.cons_append, passedLines, ih, Nat.add_assoc]
      | refused => exact ih
      | leftOut => exact ih

end Fate

namespace Request

/-- Requests that say of some metrics what became of them, and with messages
that can be written. -/
structure Books (requests : List Request) (sends : List (Metric × Fate)) : Prop where
  refused : requests.count .refuse = Fate.number .refused sends
  leftOut : requests.count .leaveOut = Fate.number .leftOut sends
  lines : lineCount (messages requests) = Fate.passedLines sends
  sound : ∀ m ∈ messages requests, m.Sound

theorem Books.append {rs rs' : List Request} {xs ys : List (Metric × Fate)}
    (h : Books rs xs) (h' : Books rs' ys) : Books (rs ++ rs') (xs ++ ys) := by
  refine ⟨?_, ?_, ?_, ?_⟩
  · rw [List.count_append, Fate.number_append, h.refused, h'.refused]
  · rw [List.count_append, Fate.number_append, h.leftOut, h'.leftOut]
  · rw [messages_append, lineCount_append, Fate.passedLines_append, h.lines, h'.lines]
  · intro m hm
    rw [messages_append] at hm
    rcases List.mem_append.mp hm with hold | hnew
    · exact h.sound m hold
    · exact h'.sound m hnew

theorem books_nil : Books [] [] :=
  ⟨rfl, rfl, rfl, fun _ hm => absurd hm List.not_mem_nil⟩

theorem books_flush : Books [.flush] [] :=
  ⟨rfl, rfl, rfl, fun _ hm => absurd hm List.not_mem_nil⟩

theorem books_wait (nanos : Nat) : Books [.wait nanos] [] :=
  ⟨rfl, rfl, rfl, fun _ hm => absurd hm List.not_mem_nil⟩

/-- A metric is in the books by its fate. -/
theorem books_request (m : Metric) (scope : Prefix) (g : Generator) :
    Books [m.request scope g] [(m, m.fate g)] := by
  rcases m.request_cases scope g with ⟨hfate, hrequest⟩ | ⟨hfate, hrequest⟩ | ⟨hfate, hrequest⟩
  · rw [hfate, hrequest]
    exact ⟨rfl, rfl, rfl, fun _ hm => absurd hm List.not_mem_nil⟩
  · rw [hfate, hrequest]
    exact ⟨rfl, rfl, rfl, fun _ hm => absurd hm List.not_mem_nil⟩
  · -- passed on: the lines of the message are the weight of the metric
    rw [hfate, hrequest]
    refine ⟨rfl, rfl, ?_, ?_⟩
    · exact congrArg (· + 0) (m.message_lines scope)
    · intro m' hm'
      rw [List.mem_singleton.mp hm']
      exact m.message_sound scope

end Request

namespace Front

/-- The requests of an operation have its metric in the books, if it sends one. -/
theorem books_requests (f : Front) (op : Op) : Request.Books (f.requests op) (f.sends [op]) := by
  cases hsending : f.sending? op with
  | some x =>
      rcases x with ⟨c, m⟩
      simp only [requests, sends, hsending, Option.map_some, Option.toList_some, List.append_nil]
      exact Request.books_request m c.scope f.draws
  | none =>
      have hnone : f.sends [op] = [] := by
        simp only [sends, hsending, Option.map_none, Option.toList_none, List.append_nil]
      rw [hnone]
      obtain hidle | hflush | ⟨nanos, hwait⟩ := requests_of_silent hsending
      · rw [hidle]
        exact Request.books_nil
      · rw [hflush]
        exact Request.books_flush
      · rw [hwait]
        exact Request.books_wait nanos

/-- The requests of some operations have their metrics in the books. -/
theorem books_allRequests (f : Front) (ops : List Op) :
    Request.Books (f.allRequests ops) (f.sends ops) := by
  induction ops generalizing f with
  | nil => exact Request.books_nil
  | cons op rest ih =>
      have hsends : f.sends (op :: rest) = f.sends [op] ++ (f.step op).sends rest := by
        simp only [sends, List.append_nil]
      rw [hsends]
      exact (books_requests f op).append (ih (f.step op))

/-! ## Clients that do not discard -/

/-- No client discards. -/
def Live (f : Front) : Prop := ∀ c, some c ∈ f.clients → c.live = true

theorem live_step {f : Front} (h : f.Live) (op : Op) : (f.step op).Live := by
  intro c hc
  rcases f.step_clients op with hsame | ⟨i, -, hset⟩ | ⟨parent, child, hparent, hlive, hnew⟩
  · exact h c (hsame ▸ hc)
  · rw [hset] at hc
    rcases List.mem_or_eq_of_mem_set hc with hold | hnone
    · exact h c hold
    · cases hnone
  · rw [hnew] at hc
    rcases List.mem_append.mp hc with hold | hlast
    · exact h c hold
    · cases List.mem_singleton.mp hlast
      exact hlive.trans (h parent hparent)

/-- A client that is there can flush. -/
theorem live?_of_live {f : Front} (h : f.Live) {i : Nat} (hi : ((f.clients[i]?).join).isSome) :
    (f.live? i).isSome := by
  rcases Option.isSome_iff_exists.mp hi with ⟨c, hc⟩
  have hmem : some c ∈ f.clients := List.mem_of_getElem? (Option.join_eq_some_iff.mp hc)
  rw [live?, hc, Option.filter_some, if_pos (h c hmem)]
  rfl

end Front

/-! ## Sessions that do not discard -/

namespace Session

variable {σ : Type}

/-- What holds of a session that does not discard at every point: its batch keeps
a group, and no client discards. -/
structure Steady (limit : Option Nat) (s : Session σ) : Prop where
  limit_eq : s.sink.limit = limit
  batch : ∃ kept, s.sink.batch.Holds kept ∧ Batch.Open limit kept
  live : s.front.Live

theorem steady_init (limit : Option Nat) (t : σ) (scope : Prefix) (draws : Generator) :
    Steady limit (Session.init (Sink.init limit t) scope true draws) := by
  refine ⟨rfl, ⟨[], Batch.holds_empty, Batch.open_nil limit⟩, ?_⟩
  intro c hc
  cases List.mem_singleton.mp hc
  rfl

variable [Transport σ]

theorem steady_step {limit : Option Nat} {s : Session σ} (h : Steady limit s) (op : Op) :
    Steady limit (s.step op).1 := by
  have hstep := step_follows s op
  have hbatch := Sink.handleAll_batch s.sink (s.front.requests op)
  rcases h.batch with ⟨kept, hholds, hopen⟩
  rcases Batch.handleAll_partition hholds hopen (s.front.requests op)
    (Front.books_requests s.front op).sound with ⟨sent, kept', hpart⟩
  refine ⟨?_, ⟨kept', ?_, hpart.kept_open⟩, ?_⟩
  · rw [hstep.sink, hbatch.2.1]
    exact h.limit_eq
  · rw [hstep.sink, hbatch.1, h.limit_eq]
    exact hpart.holds
  · rw [hstep.front]
    exact Front.live_step h.live op

theorem steady_run {limit : Option Nat} {s : Session σ} (h : Steady limit s) (ops : List Op) :
    Steady limit (s.run ops).1 := by
  induction ops generalizing s with
  | nil => exact h
  | cons op rest ih => exact ih (steady_step h op)

/-- A flush or a drop of a client that is there leaves nothing in the batch. -/
theorem flush_drop_empty {limit : Option Nat} {s : Session σ} (h : Steady limit s) {i : Nat}
    (hi : (s.client? i).isSome) :
    (s.step (.flush i)).1.sink.batch = Batch.empty ∧
      (s.step (.drop i)).1.sink.batch = Batch.empty := by
  have hlive : (s.front.live? i).isSome := by
    apply Front.live?_of_live h.live
    rw [front_client?, Option.isSome_map]
    exact hi
  have hflush := (step_follows s (.flush i)).sink
  have hdrop := (step_follows s (.drop i)).sink
  simp only [Front.requests, Front.sending?, hlive, if_true] at hflush hdrop
  have hempty : (s.sink.handle .flush).1.batch = Batch.empty := by
    rcases h.batch with ⟨kept, hholds, hopen⟩
    rw [(Sink.handle_batch s.sink .flush).1, h.limit_eq]
    exact Batch.handle_flush_empty hholds hopen
  constructor
  · rw [hflush]
    exact hempty
  · rw [hdrop]
    exact hempty

/-- The packets and the batch of a run are its messages, cut into groups. -/
theorem run_partition (limit : Option Nat) (t : σ) (scope : Prefix) (live : Bool)
    (draws : Generator) (ops : List Op) :
    let x := (Session.init (Sink.init limit t) scope live draws).run ops
    (∀ m ∈ Event.messages x.2, m.Sound) ∧
      ∃ sent kept, Batch.Partition limit (x.1.sink.batch, (Event.attempts x.2).map (·.packet))
        (Event.messages x.2) sent kept := by
  intro x
  let start := Session.init (Sink.init limit t) scope live draws
  have hrun := run_follows start ops
  have hbatch := Sink.handleAll_batch start.sink (start.front.allRequests ops)
  have hsound : ∀ m ∈ Event.messages x.2, m.Sound := by
    rw [hrun.messages]
    exact (Front.books_allRequests start.front ops).sound
  rcases Batch.handleAll_partition Batch.holds_empty (Batch.open_nil limit)
    (start.front.allRequests ops) (hrun.messages ▸ hsound) with ⟨sent, kept, h⟩
  refine ⟨hsound, sent, kept, ?_⟩
  have hpair : (x.1.sink.batch, (Event.attempts x.2).map (·.packet)) =
      Batch.empty.handleAll limit (start.front.allRequests ops) := by
    rw [hrun.sink, hrun.attempts, hbatch.1, hbatch.2.2]
    rfl
  rw [hpair, hrun.messages]
  exact h

/-- The counters after a run, as sums over its attempts and its metrics. -/
theorem run_counters (limit : Option Nat) (t : σ) (scope : Prefix) (live : Bool)
    (draws : Generator) (ops : List Op) :
    let start := Session.init (Sink.init limit t) scope live draws
    let x := start.run ops
    let attempts := Event.attempts x.2
    let sends := start.front.sends ops
    x.1.sink.counters =
      { sentPackets := UInt64.ofNat (Attempt.delivered attempts).length
        sentLines := UInt64.ofNat (lineCount (Attempt.delivered attempts))
        droppedLines :=
          UInt64.ofNat (Fate.number .refused sends + lineCount (Attempt.lost attempts))
        sampledOut := UInt64.ofNat (Fate.number .leftOut sends) } := by
  intro start x attempts sends
  have hrun := run_follows start ops
  have hbooks := Front.books_allRequests start.front ops
  have hcounters := Sink.handleAll_counters start.sink (start.front.allRequests ops)
  have hzero : start.sink.counters = ⟨0, 0, 0, 0⟩ := rfl
  rw [← hrun.sink, ← hrun.attempts, hbooks.refused, hbooks.leftOut, hzero] at hcounters
  simpa only [UInt64.zero_add] using hcounters

/-- Every line passed on has been sent, has been lost or is kept. -/
theorem run_lines (limit : Option Nat) (t : σ) (scope : Prefix) (live : Bool)
    (draws : Generator) (ops : List Op) :
    let start := Session.init (Sink.init limit t) scope live draws
    let x := start.run ops
    let attempts := Event.attempts x.2
    lineCount (Attempt.delivered attempts) + lineCount (Attempt.lost attempts) +
      x.1.sink.batch.lines = Fate.passedLines (start.front.sends ops) := by
  intro start x attempts
  rcases run_partition limit t scope live draws ops with ⟨_, sent, kept, hpart⟩
  have hmessages : Event.messages x.2 = Request.messages (start.front.allRequests ops) :=
    (run_follows start ops).messages
  calc lineCount (Attempt.delivered attempts) + lineCount (Attempt.lost attempts) +
        x.1.sink.batch.lines
      = lineCount (attempts.map (·.packet)) + x.1.sink.batch.lines := by
        rw [Attempt.lineCount_delivered_lost]
    _ = lineCount (Event.messages x.2) := hpart.lines
    _ = Fate.passedLines (start.front.sends ops) := by
        rw [hmessages, (Front.books_allRequests start.front ops).lines]

/-- The books of a session that does not discard, over any transport and with
any packet size or none, after any operations:

* every metric left out is counted, and no other;
* lines sent, lost and kept are the refusals and the lines passed on;
* lines lost are the refusals and the lines of the packets that failed;
* packets and lines sent are those of the packets that went out, of which each
  has a line at least;
* nothing is kept without a packet size, nor after a client has flushed or has
  been dropped. -/
theorem accounting (limit : Option Nat) (t : σ) (scope : Prefix) (draws : Generator)
    (ops : List Op) :
    let start := Session.init (Sink.init limit t) scope true draws
    let now := (start.run ops).1
    let counters := now.sink.counters
    let attempts := Event.attempts (start.run ops).2
    let sends := start.front.sends ops
    let refused := Fate.number .refused sends
    let delivered := Attempt.delivered attempts
    counters.sampledOut = UInt64.ofNat (Fate.number .leftOut sends) ∧
    counters.sentLines + counters.droppedLines + UInt64.ofNat now.sink.batch.lines =
      UInt64.ofNat (refused + Fate.passedLines sends) ∧
    counters.droppedLines = UInt64.ofNat (refused + lineCount (Attempt.lost attempts)) ∧
    (counters.sentPackets = UInt64.ofNat delivered.length ∧
      counters.sentLines = UInt64.ofNat (lineCount delivered) ∧
      delivered.length ≤ lineCount delivered ∧
      (lineCount delivered < UInt64.size → counters.sentPackets ≤ counters.sentLines)) ∧
    (limit = none → now.sink.batch.lines = 0) ∧
    ∀ i, (now.client? i).isSome →
      (now.step (.flush i)).1.sink.batch.lines = 0 ∧
        (now.step (.drop i)).1.sink.batch.lines = 0 := by
  intro start now counters attempts sends refused delivered
  have hcounters : counters =
      { sentPackets := UInt64.ofNat delivered.length
        sentLines := UInt64.ofNat (lineCount delivered)
        droppedLines := UInt64.ofNat (refused + lineCount (Attempt.lost attempts))
        sampledOut := UInt64.ofNat (Fate.number .leftOut sends) } :=
    run_counters limit t scope true draws ops
  have hlines : lineCount delivered + lineCount (Attempt.lost attempts) + now.sink.batch.lines =
      Fate.passedLines sends := run_lines limit t scope true draws ops
  have hsteady : Steady limit now := steady_run (steady_init limit t scope draws) ops
  rcases run_partition limit t scope true draws ops with ⟨hsound, sent, kept, hpart⟩
  -- every packet is a group of messages, each of which has a line
  have hpositive : ∀ p ∈ delivered, 0 < p.lines := by
    intro p hp
    rcases List.mem_map.mp hp with ⟨a, ha, rfl⟩
    exact hpart.lines_pos hsound (List.mem_map_of_mem (List.mem_filter.mp ha).1)
  have hle : delivered.length ≤ lineCount delivered := length_le_lineCount hpositive
  refine ⟨?_, ?_, ?_, ⟨?_, ?_, hle, ?_⟩, ?_, ?_⟩
  · rw [hcounters]
  · rw [hcounters, ← hlines]
    simp only [UInt64.ofNat_add]
    ac_rfl
  · rw [hcounters]
  · rw [hcounters]
  · rw [hcounters]
  · intro hsmall
    rw [hcounters, UInt64.le_iff_toNat_le, UInt64.toNat_ofNat_of_lt' hsmall,
      UInt64.toNat_ofNat_of_lt' (Nat.lt_of_le_of_lt hle hsmall)]
    exact hle
  · -- without a packet size the group that is kept is the empty one
    intro hnone
    subst hnone
    have hkept : kept = [] := hpart.kept_open
    have hholds := hpart.holds
    rw [hkept] at hholds
    exact congrArg Batch.lines (Batch.eq_empty_of_holds hholds)
  · intro i hi
    have hempty := flush_drop_empty hsteady hi
    exact ⟨congrArg Batch.lines hempty.1, congrArg Batch.lines hempty.2⟩

/-- Where ten bytes go out at most, a counter is sent and the two lines of a gauge
are lost with their packet. One more is lost for want of a name, and a rate of 0
leaves one out. -/
example :
    let socket : Datagram.Socket :=
      ⟨fun d => if d.size ≤ 10 then .ok d.size else .error .messageTooLong⟩
    let link := (Datagram.Link.init ⟨"daemon", 8125, none⟩ 0).withSocket socket
    let x := (Session.init (Sink.init none link) Prefix.empty true ⟨0⟩).run
      [.emit 0 (.always "hits" .increment), .emit 0 (.always "level" (.gauge (.whole (-5)))),
        .emit 0 (.always "" .increment), .emit 0 ⟨"hits", .increment, ⟨0⟩⟩]
    Event.attempts x.2 =
        [⟨.ofString "hits:1|c" 1, none⟩,
          ⟨.ofString "level:0|g\nlevel:-5|g" 2, some (.system .messageTooLong)⟩] ∧
      x.1.sink.counters =
        { sentPackets := 1, sentLines := 1, droppedLines := 3, sampledOut := 1 } := by
  decide +kernel

end Session

end Statsd

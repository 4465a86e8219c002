import Statsd.Proofs.Session.Passed
import Statsd.Proofs.Session.Transparency

/-!
# Statsd.Proofs.Daemon.Gauges — what gauges mean to a daemon

A daemon keeps a value for each name. A gauge value with a sign changes what it
keeps, and one without replaces it. So a negative level cannot be set by one
line, and the client sends two.

* `Gauges.hear` is what the daemon does with a line, and `Gauges.apply` what a
  call is to do: set the full name to a level, or add an amount to it.
* **Step**: the lines of one metric do what the metric is to do
  (`hear_lines`). A negative level is a reset and then an adjustment from 0.
* **Run**: the lines of some metrics do what these are to do, one after the
  other (`hear_flatMap_lines`). The lines of one metric stay together and in
  order on every way to the daemon, so packing does not matter
  (`gauge_meaning`).
-/

namespace Statsd

/-- The values that a daemon keeps, by name. -/
abbrev Gauges := Line → Option Int

namespace Gauges

/-- Replace the value of a name. -/
def set (gauges : Gauges) (name : Line) (value : Int) : Gauges :=
  fun other => if other = name then some value else gauges other

/-- Change the value of a name; without one it starts from 0. -/
def add (gauges : Gauges) (name : Line) (delta : Int) : Gauges :=
  gauges.set name ((gauges name).getD 0 + delta)

/-- What the parts of a line do: a gauge value with a sign is added, one without
replaces. Other types are not about gauges. -/
def take (gauges : Gauges) (r : Reading) : Gauges :=
  if r.kind = bytesOf "g" then
    match readInt r.value with
    | none => gauges
    | some value =>
      if isSigned r.value then gauges.add r.name value else gauges.set r.name value
  else gauges

/-- What a line does. -/
def hear (gauges : Gauges) (line : Line) : Gauges :=
  match readLine line with
  | none => gauges
  | some r => gauges.take r

/-- What a call is to do. -/
def apply (gauges : Gauges) (x : Passed) : Gauges :=
  match x.2.observation with
  | .gauge (.whole level) => gauges.set (bytesOf x.fullName) level
  | .adjust delta => gauges.add (bytesOf x.fullName) delta
  | _ => gauges

/-! ## Setting and adding -/

@[simp] theorem set_self (gauges : Gauges) (name : Line) (value : Int) :
    gauges.set name value name = some value := if_pos rfl

theorem set_set (gauges : Gauges) (name : Line) (first second : Int) :
    (gauges.set name first).set name second = gauges.set name second := by
  funext other
  unfold set
  split
  · rfl
  · rfl

/-- To set a level is to reset to 0 and to add the level. -/
theorem add_set_zero (gauges : Gauges) (name : Line) (level : Int) :
    (gauges.set name 0).add name level = gauges.set name level := by
  unfold add
  rw [set_self, set_set, Option.getD_some, Int.zero_add]

/-! ## One metric -/

/-- A line without a gauge changes nothing. -/
theorem take_of_kind {r : Reading} (h : r.kind ≠ bytesOf "g") (gauges : Gauges) :
    gauges.take r = gauges := if_neg h

/-- A gauge value with a sign is added. -/
theorem take_signed {r : Reading} {value : Int} (hkind : r.kind = bytesOf "g")
    (hvalue : readInt r.value = some value) (hsign : isSigned r.value = true) (gauges : Gauges) :
    gauges.take r = gauges.add r.name value := by
  unfold take
  rw [if_pos hkind, hvalue]
  exact if_pos hsign

/-- A gauge value without a sign replaces. -/
theorem take_plain {r : Reading} {value : Int} (hkind : r.kind = bytesOf "g")
    (hvalue : readInt r.value = some value) (hsign : isSigned r.value = false) (gauges : Gauges) :
    gauges.take r = gauges.set r.name value := by
  unfold take
  rw [if_pos hkind, hvalue]
  exact if_neg (Bool.eq_false_iff.mp hsign)

end Gauges

/-- The text of an integer begins with a minus exactly if it is negative. -/
theorem isNegativeText_ofInt (n : Int) : isNegativeText (Decimal.ofInt n) = decide (n < 0) := by
  unfold isNegativeText Decimal.ofInt
  by_cases hneg : n < 0
  · rw [if_pos hneg, String.toList_append, decide_eq_true hneg]
    rfl
  · rw [if_neg hneg, decide_eq_false hneg, Decimal.ofNat, String.toList_ofList]
    cases hds : Decimal.digitsOf n.natAbs with
    | nil => exact absurd hds Nat.toDigits_ne_nil
    | cons c rest =>
        have hdigit : c.isDigit = true := isDigit_of_mem_digitsOf (hds ▸ List.mem_cons_self ..)
        have hminus : c ≠ '-' := by
          rintro rfl
          exact absurd hdigit (by decide)
        rw [List.head?_cons, beq_eq_false_iff_ne]
        intro heq
        exact hminus (Option.some.inj heq)

namespace Passed

/-- A metric that a daemon with whole values can follow: it has not been refused,
its name has no colon, and if it is a level, then a whole one. -/
structure Legible (x : Passed) : Prop where
  refusal : x.2.refusal? = none
  name : ':' ∉ x.2.name.toList
  level : ∀ level, x.2.observation = .gauge level → ∃ n, level = .whole n

/-- A daemon reads what was written, so hearing the lines is taking their parts. -/
theorem hear_readings {x : Passed} (h : x.Legible) (gauges : Gauges) :
    x.lines.foldl Gauges.hear gauges = (x.2.readings x.1).foldl Gauges.take gauges := by
  obtain ⟨hreset, hvalue⟩ := Metric.readLine_lines h.refusal h.name x.1
  have hreads : ∀ r ∈ x.2.readings x.1, readLine r.written = some r := by
    intro r hr
    unfold Metric.readings at hr
    obtain hmem | hmem := List.mem_append.mp hr
    · split at hmem
      · rw [List.mem_singleton.mp hmem]
        exact hreset
      · cases hmem
    · rw [List.mem_singleton.mp hmem]
      exact hvalue
  unfold lines Metric.lines
  generalize x.2.readings x.1 = rs at hreads
  induction rs generalizing gauges with
  | nil => rfl
  | cons r rest ih =>
      have hr : gauges.hear r.written = gauges.take r := by
        unfold Gauges.hear
        rw [hreads r (List.mem_cons_self ..)]
      rw [List.map_cons, List.foldl_cons, List.foldl_cons, hr]
      exact ih _ fun r' hr' => hreads r' (List.mem_cons_of_mem r hr')

/-- The lines of a metric do what the metric is to do. -/
theorem hear_lines {x : Passed} (h : x.Legible) (gauges : Gauges) :
    x.lines.foldl Gauges.hear gauges = gauges.apply x := by
  rw [hear_readings h]
  obtain ⟨scope, m⟩ := x
  rcases m with ⟨name, observation, rate⟩
  let value := Metric.valueReading scope ⟨name, observation, rate⟩
  let reset := Metric.resetReading scope ⟨name, observation, rate⟩
  cases observation with
  | count n =>
      have hkind : value.kind ≠ bytesOf "g" := show bytesOf "c" ≠ bytesOf "g" by decide
      exact Gauges.take_of_kind hkind gauges
  | timing millis =>
      have hkind : value.kind ≠ bytesOf "g" := show bytesOf "ms" ≠ bytesOf "g" by decide
      exact Gauges.take_of_kind hkind gauges
  | member text =>
      have hkind : value.kind ≠ bytesOf "g" := show bytesOf "s" ≠ bytesOf "g" by decide
      exact Gauges.take_of_kind hkind gauges
  | adjust delta =>
      -- the sign is always there
      exact Gauges.take_signed (r := value) rfl (readInt_ofIntSigned delta)
        (isSigned_ofIntSigned delta) gauges
  | gauge level =>
      obtain ⟨n, rfl⟩ := h.level level rfl
      have hresets : (Metric.mk name (.gauge (.whole n)) rate).resets = decide (n < 0) :=
        isNegativeText_ofInt n
      have hsigned : isSigned value.value = decide (n < 0) := isSigned_ofInt n
      unfold Metric.readings
      rw [hresets]
      by_cases hneg : n < 0
      · -- the reset sets 0, and the value is added to it
        rw [decide_eq_true hneg] at hsigned ⊢
        have hplain : isSigned reset.value = false := show isSigned (bytesOf "0") = false by decide
        calc (gauges.take reset).take value
            = (gauges.set reset.name 0).take value := by
              rw [Gauges.take_plain (r := reset) rfl (readInt_ofInt 0) hplain]
          _ = (gauges.set value.name 0).add value.name n :=
              Gauges.take_signed (r := value) rfl (readInt_ofInt n) hsigned _
          _ = gauges.set value.name n := Gauges.add_set_zero gauges value.name n
      · rw [decide_eq_false hneg] at hsigned ⊢
        exact Gauges.take_plain (r := value) rfl (readInt_ofInt n) hsigned gauges

/-- The lines of some metrics do what these are to do, one after the other. -/
theorem hear_flatMap_lines {xs : List Passed} (h : ∀ x ∈ xs, x.Legible) (gauges : Gauges) :
    (xs.flatMap lines).foldl Gauges.hear gauges = xs.foldl Gauges.apply gauges := by
  induction xs generalizing gauges with
  | nil => rfl
  | cons x xs ih =>
      rw [List.flatMap_cons, List.foldl_append, hear_lines (h x (List.mem_cons_self ..)),
        List.foldl_cons]
      exact ih (fun y hy => h y (List.mem_cons_of_mem x hy)) _

/-- A whole level has a reset line exactly if it is negative, and nothing else has one. -/
theorem resets_iff {x : Passed} (h : x.Legible) :
    x.2.resets = true ↔ ∃ n : Int, n < 0 ∧ x.2.observation = .gauge (.whole n) := by
  obtain ⟨scope, m⟩ := x
  rcases m with ⟨name, observation, rate⟩
  constructor
  · intro hresets
    cases observation with
    | gauge level =>
        obtain ⟨n, rfl⟩ := h.level level rfl
        have hnegative : isNegativeText (Decimal.ofInt n) = true := hresets
        rw [isNegativeText_ofInt] at hnegative
        exact ⟨n, of_decide_eq_true hnegative, rfl⟩
    | count n => cases hresets
    | adjust delta => cases hresets
    | timing millis => cases hresets
    | member text => cases hresets
  · rintro ⟨n, hneg, rfl⟩
    exact (isNegativeText_ofInt n).trans (decide_eq_true hneg)

end Passed

/-! ## A run -/

namespace Session

/-- Gauges mean what they say. Let clients share a sink over a link on which
every send succeeds, with any packet size or none, and let them send levels that
are whole, amounts and whatever else, under names without colons and line feeds.
After any operations and a flush

* a daemon that starts with any values and hears all lines has those that the
  metrics passed on are to give, one after the other: a level sets the full
  name, and an amount is added to it;
* over any transport, each packet holds the lines of some metrics that were
  passed on one after the other, and of each metric that has a reset line the
  value line is the next one;
* a reset line is that of a negative level. -/
theorem gauge_meaning (limit : Option Nat) {link : Link} (hfresh : link.Fresh)
    (hdep : Dependable link) (scope : Prefix) (draws : Generator) {ops : List Op} {i : Nat}
    (hnames : ∀ name ∈ ops.filterMap Op.name?, ':' ∉ name.toList ∧ '\n' ∉ name.toList)
    (hwhole : ∀ j m level, .emit j m ∈ ops → m.observation = .gauge level →
      ∃ n, level = .whole n)
    (hclient :
      (((Session.init (Sink.init limit link) scope true draws).run ops).1.client? i).isSome)
    (gauges : Gauges) :
    let start := Session.init (Sink.init limit link) scope true draws
    let flushed := ops ++ [.flush i]
    let passed := start.front.passed ops
    let lines := fun y : Passed => (if y.2.resets then [bytesOf (y.2.resetLine y.1)] else []) ++
      [bytesOf (y.2.valueLine y.1)]
    (endedLines (start.run flushed).1.sink.transport.received).foldl Gauges.hear gauges =
      passed.foldl Gauges.apply gauges ∧
    (∀ (τ : Type) [Transport τ] (t : τ),
      let attempts := Event.attempts
        ((Session.init (Sink.init limit t) scope true draws).run flushed).2
      ∃ (groups : List (List Passed)) (rest : List Passed), groups.flatten ++ rest = passed ∧
        (attempts.map fun a => splitLines a.packet.data) = groups.map (·.flatMap lines)) ∧
    ∀ y ∈ passed, y.2.resets = true ↔
      ∃ n : Int, n < 0 ∧ y.2.observation = .gauge (.whole n) := by
  intro start flushed passed lines
  have hpassed : start.front.passed flushed = passed := Front.passed_flush start.front ops i
  have hfeed : ∀ name ∈ flushed.filterMap Op.name?, '\n' ∉ name.toList := by
    intro name hname
    rw [List.filterMap_append] at hname
    obtain hname | hnone := List.mem_append.mp hname
    · exact (hnames name hname).2
    · cases hnone
  have hlegible : ∀ y ∈ passed, y.Legible := by
    intro y hy
    obtain ⟨hrefusal, horigin, hname⟩ := Front.of_mem_passed hy
    refine ⟨hrefusal, (hnames _ hname).1, ?_⟩
    intro level hlevel
    obtain ⟨j, hj⟩ | ⟨d, hd⟩ := horigin
    · exact hwhole j y.2 level hj hlevel
    · -- a duration is no level
      rw [hd] at hlevel
      cases hlevel
  have hlines : Passed.lines = lines := funext Passed.lines_eq
  refine ⟨?_, ?_, fun y hy => Passed.resets_iff (hlegible y hy)⟩
  · have hbatch : (start.run flushed).1.sink.batch = Batch.empty := by
      rw [run_concat]
      exact (flush_drop_empty (steady_run (steady_init limit link scope draws) ops) hclient).1
    have hclean : Passed.Clean passed := by
      rw [← hpassed]
      exact clean_passed (Sink.init limit link) scope true draws hfeed
    have hheard : endedLines (start.run flushed).1.sink.transport.received =
        passed.flatMap Passed.lines := by
      rw [run_received_of_empty limit hfresh hdep scope draws flushed hbatch, endedLines_terminated,
        messages_run, hpassed, List.map_map, List.flatMap_map, List.flatMap_def, List.flatMap_def]
      exact congrArg List.flatten (List.map_congr_left fun y hy =>
        Passed.splitLines_message hclean hy)
    rw [hheard]
    exact Passed.hear_flatMap_lines hlegible gauges
  · intro τ _ t attempts
    obtain ⟨groups, rest, hgroups, hattempts, -⟩ := run_packet_lines limit t scope true draws hfeed
    refine ⟨groups, rest, hgroups.trans hpassed, ?_⟩
    rw [← hlines]
    exact hattempts

/-- Two clients set and change one gauge, which they name differently, in packets
of 20 bytes over a stream that was connected early. -/
theorem gauge_meaning_colliding_names :
    let link := Link.stream (Stream.Link.start true fun _ => .ok Stream.Peer.willing)
    let ops : List Op :=
      [.derive 0 "db", .emit 0 (.always "load" (.gauge (.whole 5))),
        .emit 1 (.always "size" (.gauge (.whole (-3)))), .emit 0 (.always "db.size" (.adjust 1))]
    let start := Session.init (Sink.init (some 20) link) Prefix.empty true ⟨0⟩
    let heard := endedLines (start.run (ops ++ [.flush 0])).1.sink.transport.received
    link.Fresh ∧ link.Obliging ∧ ((start.run ops).1.client? 0).isSome ∧
      (start.front.passed ops).map Passed.fullName = ["load", "db.size", "db.size"] ∧
      heard.foldl Gauges.hear (fun _ => some 7) (bytesOf "db.size") = some (-2) := by
  intro link ops start heard
  have hclient : ((start.run ops).1.client? 0).isSome := by decide +kernel +revert
  have hnames : ∀ name ∈ ops.filterMap Op.name?, ':' ∉ name.toList ∧ '\n' ∉ name.toList := by
    decide +kernel +revert
  have hfull : (start.front.passed ops).map Passed.fullName = ["load", "db.size", "db.size"] := by
    decide +kernel +revert
  have hsize : (start.front.passed ops).foldl Gauges.apply (fun _ => some 7) (bytesOf "db.size") =
      some (-2) := by decide +kernel +revert
  have hobliging : link.Obliging := by
    refine ⟨fun n => ⟨Stream.Peer.willing, rfl, Stream.willing_obliging⟩, ?_⟩
    intro c hc
    cases hc
    exact Stream.willing_obliging
  have hfresh : link.Fresh := .stream true _
  have hwhole : ∀ j m level, Op.emit j m ∈ ops → m.observation = .gauge level →
      ∃ n, level = .whole n := by
    intro j m level hmem hlevel
    simp only [ops, List.mem_cons, List.not_mem_nil, reduceCtorEq, Op.emit.injEq, or_false,
      false_or] at hmem
    obtain ⟨-, rfl⟩ | ⟨-, rfl⟩ | ⟨-, rfl⟩ := hmem
    · exact ⟨5, (Observation.gauge.inj hlevel).symm⟩
    · exact ⟨-3, (Observation.gauge.inj hlevel).symm⟩
    · cases hlevel
  obtain ⟨hheard, -, -⟩ := gauge_meaning (some 20) hfresh (Link.dependable_of_obliging hobliging)
    Prefix.empty ⟨0⟩ hnames hwhole hclient fun _ => some 7
  refine ⟨hfresh, hobliging, hclient, hfull, ?_⟩
  show (endedLines _).foldl Gauges.hear _ _ = _
  rw [hheard]
  exact hsize

end Session

end Statsd

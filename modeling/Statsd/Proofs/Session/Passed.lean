import Statsd.Proofs.Daemon.Reader

/-!
# Statsd.Proofs.Session.Passed — the metrics that are written, and their packets

A session writes the metrics whose fate is to be passed on, each with the
prefix of the client that sends it (`Front.passed`). This is what its packets
are about:

* The messages of a run are those of the metrics passed on (`messages_run`),
  and each such metric was given by an operation (`of_mem_passed`).
* The packets of a run hold the metrics in order, cut into groups. No metric
  is in two packets, so its lines follow one another in one packet
  (`run_groups`, `splitLines_join`).
-/

namespace Statsd

/-- The name that an operation gives to what it sends, now or later. -/
def Op.name? : Op → Option String
  | .emit _ m => some m.name
  | .startSpan _ name => some name
  | _ => none

/-- A metric with the prefix of the client that sends it. -/
abbrev Passed := Prefix × Metric

namespace Passed

/-- The message that is written. -/
def message (x : Passed) : Packet := x.2.message x.1

/-- Its lines. -/
def lines (x : Passed) : List Line := x.2.lines x.1

/-- The name that a daemon knows it by. -/
def fullName (x : Passed) : String := Metric.fullName x.1 x.2.name

/-- The lines of a metric: where there is a reset line, the value line is the next one. -/
theorem lines_eq (x : Passed) :
    x.lines = (if x.2.resets then [bytesOf (x.2.resetLine x.1)] else []) ++
      [bytesOf (x.2.valueLine x.1)] := by
  unfold lines Metric.lines Metric.readings
  rw [Metric.bytesOf_resetLine, Metric.bytesOf_valueLine, List.map_append]
  split
  · rfl
  · rfl

end Passed

/-! ## Passing on -/

namespace Front

/-- What an operation passes on: at most one metric. -/
def passing (f : Front) (op : Op) : List Passed :=
  match f.sending? op with
  | some (c, m) => if m.fate f.draws = .passed then [(c.scope, m)] else []
  | none => []

/-- What a sequence of operations passes on, in order. -/
def passed (f : Front) : List Op → List Passed
  | [] => []
  | op :: rest => f.passing op ++ (f.step op).passed rest

/-- The messages that an operation asks the sink to take are those of what it passes on. -/
theorem messages_requests (f : Front) (op : Op) :
    Request.messages (f.requests op) = (f.passing op).map Passed.message := by
  unfold passing
  cases hsending : f.sending? op with
  | some x =>
      obtain ⟨c, m⟩ := x
      unfold requests
      rw [hsending]
      dsimp only
      obtain ⟨hfate, hrequest⟩ | ⟨hfate, hrequest⟩ | ⟨hfate, hrequest⟩ :=
        m.request_cases c.scope f.draws
      · rw [hfate, hrequest]
        rfl
      · rw [hfate, hrequest]
        rfl
      · rw [hfate, hrequest]
        rfl
  | none =>
      -- a flush and the time have no message
      obtain hidle | hflush | ⟨nanos, hwait⟩ := requests_of_silent hsending
      · rw [hidle]
        rfl
      · rw [hflush]
        rfl
      · rw [hwait]
        rfl

theorem messages_allRequests (f : Front) (ops : List Op) :
    Request.messages (f.allRequests ops) = (f.passed ops).map Passed.message := by
  induction ops generalizing f with
  | nil => rfl
  | cons op rest ih =>
      rw [allRequests, Request.messages_append, messages_requests, ih, passed, List.map_append]

/-- A flush passes nothing on. -/
theorem passed_flush (f : Front) (ops : List Op) (i : Nat) :
    f.passed (ops ++ [.flush i]) = f.passed ops := by
  induction ops generalizing f with
  | nil => rfl
  | cons op rest ih => exact congrArg (f.passing op ++ ·) (ih (f.step op))

/-! ### Where the metrics come from -/

/-- The names of the spans. -/
def spanNames (f : Front) : List String := f.spans.map (·.name)

/-- A change that keeps the name of a span keeps all names. -/
theorem spanNames_mapSpan (f : Front) (k : Nat) {change : Span → Span}
    (h : ∀ span, (change span).name = span.name) :
    (f.mapSpan k change).spanNames = f.spanNames := by
  unfold spanNames mapSpan
  dsimp only
  apply List.ext_getElem?
  intro j
  rw [List.getElem?_map, List.getElem?_map, List.getElem?_modify]
  cases f.spans[j]? with
  | none => rfl
  | some span =>
      by_cases hkj : k = j
      · simp only [hkj, if_true, Option.map_eq_map, Option.map_some, h]
      · simp only [hkj, if_false, Option.map_eq_map, Option.map_some]

/-- An operation adds the name of the span that it starts, and no other. -/
theorem spanNames_step (f : Front) (op : Op) :
    (f.step op).spanNames = f.spanNames ∨
      ∃ i name, op = .startSpan i name ∧ (f.step op).spanNames = f.spanNames ++ [name] := by
  cases op with
  | startSpan i name =>
      right
      refine ⟨i, name, rfl, ?_⟩
      show List.map _ (f.spans ++ [_]) = _
      rw [List.map_append]
      rfl
  | rateSpan k rate => exact Or.inl (spanNames_mapSpan f k fun _ => rfl)
  | endSpan k ending => exact Or.inl (spanNames_mapSpan f k fun _ => rfl)
  | derive i sub =>
      left
      show ((f.move (.derive i sub)).spanNames) = _
      unfold move
      dsimp only
      split
      · unfold derive
        split
        · rfl
        · rfl
      · rfl
  | emit i m => exact Or.inl rfl
  | abandon i m => exact Or.inl rfl
  | flush i => exact Or.inl rfl
  | drop i => exact Or.inl rfl
  | wait nanos => exact Or.inl rfl

/-- The name of a span was there before the operation, or the operation gives it. -/
theorem mem_spanNames_step {f : Front} {op : Op} {name : String}
    (h : name ∈ (f.step op).spanNames) : name ∈ f.spanNames ∨ op.name? = some name := by
  obtain hsame | ⟨i, new, rfl, hnew⟩ := f.spanNames_step op
  · exact Or.inl (hsame ▸ h)
  · rw [hnew, List.mem_append, List.mem_singleton] at h
    obtain hold | rfl := h
    · exact Or.inl hold
    · exact Or.inr rfl

/-- What is passed on has not been refused, and is the metric of the operation or
the duration of a span. -/
theorem of_mem_passing {f : Front} {op : Op} {x : Passed} (h : x ∈ f.passing op) :
    x.2.refusal? = none ∧ ((∃ i, op = .emit i x.2) ∨
      (x.2.name ∈ f.spanNames ∧ ∃ d, x.2.observation = .duration d)) := by
  unfold passing at h
  cases hsending : f.sending? op with
  | none =>
      rw [hsending] at h
      cases h
  | some y =>
      obtain ⟨c, m⟩ := y
      rw [hsending] at h
      dsimp only at h
      split at h
      · rename_i hfate
        rw [List.mem_singleton] at h
        subst h
        refine ⟨(Metric.of_fate_passed hfate).1, ?_⟩
        -- an operation that sends is the metric itself or the end of a span
        have hclosing : ∀ k, f.closing? k = some (c, m) →
            m.name ∈ f.spanNames ∧ ∃ d, m.observation = .duration d := by
          intro k hk
          unfold closing? at hk
          split at hk
          · cases hk
          · rename_i span hspan
            split at hk
            · cases hk
            · obtain ⟨c', -, heq⟩ := Option.map_eq_some_iff.mp hk
              cases heq
              exact ⟨List.mem_map_of_mem (List.mem_of_getElem? hspan), _, rfl⟩
        cases op with
        | emit i m' =>
            left
            obtain ⟨c', -, heq⟩ := Option.map_eq_some_iff.mp hsending
            cases heq
            exact ⟨i, rfl⟩
        | endSpan k ending =>
            right
            cases ending with
            | cancel => cases hsending
            | send => exact hclosing k hsending
            | drop => exact hclosing k hsending
            | panic => exact hclosing k hsending
        | abandon i m' => cases hsending
        | flush i => cases hsending
        | drop i => cases hsending
        | derive i sub => cases hsending
        | startSpan i name => cases hsending
        | rateSpan k rate => cases hsending
        | wait nanos => cases hsending
      · cases h

/-- What a run passes on has not been refused, was given by one of the
operations or is the duration of a span, and has a name that was given. -/
theorem of_mem_passed {f : Front} {ops : List Op} {x : Passed} (h : x ∈ f.passed ops) :
    x.2.refusal? = none ∧
      ((∃ i, .emit i x.2 ∈ ops) ∨ ∃ d, x.2.observation = .duration d) ∧
      x.2.name ∈ f.spanNames ++ ops.filterMap Op.name? := by
  induction ops generalizing f with
  | nil => cases h
  | cons op rest ih =>
      obtain hnow | hlater := List.mem_append.mp h
      · obtain ⟨hrefusal, ⟨i, rfl⟩ | ⟨hname, hduration⟩⟩ := of_mem_passing hnow
        · refine ⟨hrefusal, Or.inl ⟨i, List.mem_cons_self ..⟩, List.mem_append_right _ ?_⟩
          exact List.mem_cons_self ..
        · exact ⟨hrefusal, Or.inr hduration, List.mem_append_left _ hname⟩
      · obtain ⟨hrefusal, horigin, hname⟩ := ih hlater
        refine ⟨hrefusal, ?_, ?_⟩
        · obtain ⟨i, hi⟩ | hduration := horigin
          · exact Or.inl ⟨i, List.mem_cons_of_mem op hi⟩
          · exact Or.inr hduration
        · -- a name of the rest was there, is given by the first operation, or comes later
          rw [List.mem_append] at hname ⊢
          obtain hspan | hgiven := hname
          · obtain hold | hnew := mem_spanNames_step hspan
            · exact Or.inl hold
            · exact Or.inr (List.mem_filterMap.mpr ⟨op, List.mem_cons_self .., hnew⟩)
          · obtain ⟨op', hop', heq⟩ := List.mem_filterMap.mp hgiven
            exact Or.inr (List.mem_filterMap.mpr ⟨op', List.mem_cons_of_mem op hop', heq⟩)

end Front

/-! ## Packets and their lines -/

/-- Groups of images are images of groups. -/
theorem exists_groups_of_map {α β : Type} {f : α → β} {sent : List (List β)} {kept : List β}
    {xs : List α} (h : sent.flatten ++ kept = xs.map f) :
    ∃ (groups : List (List α)) (rest : List α), groups.flatten ++ rest = xs ∧
      sent = groups.map (List.map f) ∧ kept = rest.map f := by
  induction sent generalizing xs with
  | nil => exact ⟨[], xs, rfl, rfl, h⟩
  | cons g sent ih =>
      rw [List.flatten_cons, List.append_assoc] at h
      obtain ⟨ys, zs, rfl, hys, hzs⟩ := List.map_eq_append_iff.mp h.symm
      obtain ⟨groups, rest, rfl, rfl, rfl⟩ := ih hzs.symm
      refine ⟨ys :: groups, rest, ?_, ?_, rfl⟩
      · rw [List.flatten_cons, List.append_assoc]
      · rw [List.map_cons, hys]

namespace Session

variable {σ : Type} [Transport σ]

/-- A run in two parts. -/
theorem run_append (s : Session σ) (past later : List Op) :
    (s.run (past ++ later)).1 = ((s.run past).1.run later).1 := by
  induction past generalizing s with
  | nil => rfl
  | cons op rest ih => exact ih (s.step op).1

/-- A run with one operation more. -/
theorem run_concat (s : Session σ) (ops : List Op) (op : Op) :
    (s.run (ops ++ [op])).1 = ((s.run ops).1.step op).1 := s.run_append ops [op]

/-- The messages of a run are those of what it passes on. -/
theorem messages_run (s : Session σ) (ops : List Op) :
    Event.messages (s.run ops).2 = (s.front.passed ops).map Passed.message := by
  rw [(run_follows s ops).messages, Front.messages_allRequests]

/-- What a run passes on is cut into groups, one for each packet, and the rest is kept. -/
theorem run_groups (limit : Option Nat) (t : σ) (scope : Prefix) (live : Bool) (draws : Generator)
    (ops : List Op) :
    let start := Session.init (Sink.init limit t) scope live draws
    let x := start.run ops
    ∃ (groups : List (List Passed)) (rest : List Passed),
      groups.flatten ++ rest = start.front.passed ops ∧
      (∀ g ∈ groups, g ≠ []) ∧
      (Event.attempts x.2).map (·.packet) =
        groups.map (fun g => Packet.join (g.map Passed.message)) ∧
      x.1.sink.batch.Holds (rest.map Passed.message) := by
  intro start x
  obtain ⟨-, sent, kept, hpart⟩ := run_partition limit t scope live draws ops
  have hall := hpart.all
  rw [messages_run] at hall
  obtain ⟨groups, rest, hpassed, rfl, rfl⟩ := exists_groups_of_map hall
  refine ⟨groups, rest, hpassed, ?_, ?_, hpart.holds⟩
  · intro g hg hnil
    have hgroup := hpart.sent_groups (g.map Passed.message) (List.mem_map_of_mem hg)
    exact Batch.group_ne_nil hgroup (List.map_eq_nil_iff.mpr hnil)
  · have hpackets := hpart.packets
    rw [List.map_map] at hpackets
    exact hpackets

end Session

/-! ## Lines -/

/-- A packet has as many lines as it says. -/
def Packet.Lined (p : Packet) : Prop := (splitLines p.data).length = p.lines

/-- A joined packet has the lines of its messages. -/
theorem splitLines_join {g : List Packet} (hg : g ≠ []) :
    splitLines (Packet.join g).data = g.flatMap fun m => splitLines m.data := by
  have hne : g.map (·.data) ≠ [] := mt List.map_eq_nil_iff.mp hg
  show splitLines (joined (g.map (·.data))) = _
  rw [splitLines_joined hne, List.flatMap_map]

namespace Passed

/-- Metrics that can be cut into lines again: none has been refused, and no name
holds a line feed. -/
def Clean (xs : List Passed) : Prop :=
  ∀ x ∈ xs, x.2.refusal? = none ∧ '\n' ∉ x.2.name.toList

theorem splitLines_message {x : Passed} {xs : List Passed} (h : Clean xs) (hx : x ∈ xs) :
    splitLines x.message.data = x.lines := Metric.splitLines_message (h x hx).1 (h x hx).2 x.1

/-- The packet of some metrics has their lines, and as many as it says. -/
theorem splitLines_join {xs : List Passed} (h : Clean xs) (hne : xs ≠ []) :
    splitLines (Packet.join (xs.map message)).data = xs.flatMap lines := by
  have hmap : xs.map message ≠ [] := mt List.map_eq_nil_iff.mp hne
  rw [Statsd.splitLines_join hmap, List.flatMap_map, List.flatMap_def, List.flatMap_def,
    List.map_congr_left fun x hx => splitLines_message h hx]

theorem length_flatMap_lines (xs : List Passed) :
    (xs.flatMap lines).length = lineCount (xs.map message) := by
  induction xs with
  | nil => rfl
  | cons x xs ih =>
      rw [List.flatMap_cons, List.length_append, ih, List.map_cons, lineCount]
      exact congrArg (· + _) (Metric.length_lines x.1 x.2)

end Passed

namespace Session

variable {σ : Type}

/-- A run whose operations give names without line feeds passes on metrics that
can be cut into lines again. -/
theorem clean_passed (sink : Sink σ) (scope : Prefix) (live : Bool) (draws : Generator)
    {ops : List Op} (hnames : ∀ name ∈ ops.filterMap Op.name?, '\n' ∉ name.toList) :
    Passed.Clean ((Session.init sink scope live draws).front.passed ops) := by
  intro x hx
  obtain ⟨hrefusal, -, hname⟩ := Front.of_mem_passed hx
  exact ⟨hrefusal, hnames _ hname⟩

variable [Transport σ]

/-- The lines of the packets of a run are those of the metrics that it passes on,
group by group, and every packet has as many as it says. -/
theorem run_packet_lines (limit : Option Nat) (t : σ) (scope : Prefix) (live : Bool)
    (draws : Generator) {ops : List Op}
    (hnames : ∀ name ∈ ops.filterMap Op.name?, '\n' ∉ name.toList) :
    let start := Session.init (Sink.init limit t) scope live draws
    let attempts := Event.attempts (start.run ops).2
    ∃ (groups : List (List Passed)) (rest : List Passed),
      groups.flatten ++ rest = start.front.passed ops ∧
      (attempts.map fun a => splitLines a.packet.data) = groups.map (·.flatMap Passed.lines) ∧
      ∀ a ∈ attempts, a.packet.Lined := by
  intro start attempts
  obtain ⟨groups, rest, hpassed, hne, hpackets, -⟩ := run_groups limit t scope live draws ops
  have hclean : Passed.Clean (start.front.passed ops) :=
    clean_passed (Sink.init limit t) scope live draws hnames
  have hgroup : ∀ g ∈ groups, splitLines (Packet.join (g.map Passed.message)).data =
      g.flatMap Passed.lines := by
    intro g hg
    apply Passed.splitLines_join _ (hne g hg)
    intro x hx
    apply hclean x
    rw [← hpassed]
    exact List.mem_append_left _ (List.mem_flatten.mpr ⟨g, hg, hx⟩)
  refine ⟨groups, rest, hpassed, ?_, ?_⟩
  · calc attempts.map (fun a => splitLines a.packet.data)
        = (attempts.map (·.packet)).map (fun p => splitLines p.data) := by rw [List.map_map]; rfl
      _ = groups.map (fun g => splitLines (Packet.join (g.map Passed.message)).data) := by
          rw [hpackets, List.map_map]
          rfl
      _ = groups.map (·.flatMap Passed.lines) := List.map_congr_left hgroup
  · intro a ha
    have hmem : a.packet ∈ groups.map fun g => Packet.join (g.map Passed.message) := by
      rw [← hpackets]
      exact List.mem_map_of_mem ha
    obtain ⟨g, hg, heq⟩ := List.mem_map.mp hmem
    rw [← heq, Packet.Lined, hgroup g hg, Passed.length_flatMap_lines]
    rfl

end Session

end Statsd

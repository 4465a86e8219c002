import Mathlib.Data.Finset.Card
import Mathlib.Data.Finset.Filter
import Mathlib.Data.Finset.Range
import Statsd.Proofs.Session.Draws

/-!
# Statsd.Proofs.Session.Spans — a span is one observation, or none

What a span sends when it ends can be told without any span: its client, its
name, the time since it was started and the rate that it was given last are all
in the operations up to then. So a run with spans is a run without them, in
which one metric is sent where a span ends.

* `begun` are the spans that some operations start, with all that came after
  (`Began`). `Op.unspanned` puts in the place of an operation what it does
  without spans: starting a span and giving it a rate is nothing, and ending it
  is sending its observation, the first time, unless it is cancelled.
* `Tracks` ties the spans of a session to those that have begun.
* **Step**: an operation keeps this (`Tracks.step`), and does to all but the
  spans what is put in its place (`step_unspanned`).
* **Run**: so do all of them (`run_unspanned`), and what is sent in the place
  of spans is one metric for each that was ended and not cancelled
  (`emits_unspanned`).
-/

namespace Statsd

/-! ## Spans by the operations -/

/-- How an operation ends a span, if it does. -/
def Op.endingOf? (k : Nat) : Op → Option Ending
  | .endSpan j ending => if j = k then some ending else none
  | _ => none

/-- A span that was started, and all operations since. -/
structure Began where
  client : Nat
  name : String
  since : List Op

/-- The spans that some operations start, in the order in which they are started. -/
def begun : List Op → List Began
  | [] => []
  | .startSpan i name :: rest => ⟨i, name, rest⟩ :: begun rest
  | _ :: rest => begun rest

/-- The span that an operation starts, if it does. -/
def Op.began? : Op → Option Began
  | .startSpan i name => some ⟨i, name, []⟩
  | _ => none

namespace Began

/-- The time since the span was started, in nanoseconds. -/
def elapsed (b : Began) : Nat := b.since.foldl (fun time op => time + op.nanos) 0

/-- The last rate that the span was given, and 1 if it was given none. -/
def rate (k : Nat) (b : Began) : Binary64 :=
  (b.since.filterMap (Op.rateOf? k)).getLastD Binary64.one

/-- How the span has ended first, if it has. -/
def ending? (k : Nat) (b : Began) : Option Ending := b.since.findSome? (Op.endingOf? k)

/-- What the span observes if it ends now. -/
def observation (k : Nat) (b : Began) : Metric :=
  (Metric.always b.name (.duration (Duration.ofNanos b.elapsed))).withRate (b.rate k)

/-- One operation more. -/
def add (b : Began) (op : Op) : Began := { b with since := b.since ++ [op] }

theorem add_elapsed (b : Began) (op : Op) : (b.add op).elapsed = b.elapsed + op.nanos := by
  rw [elapsed, add, List.foldl_append]
  rfl

theorem add_rate (k : Nat) (b : Began) (op : Op) :
    (b.add op).rate k = (op.rateOf? k).getD (b.rate k) := by
  unfold rate add
  rw [List.filterMap_append]
  cases hrate : op.rateOf? k with
  | none => simp [hrate]
  | some rate => simp [hrate]

theorem add_ending? (k : Nat) (b : Began) (op : Op) :
    (b.add op).ending? k = (b.ending? k).or (op.endingOf? k) := by
  simp only [ending?, add, List.findSome?_append, List.findSome?_singleton]

end Began

/-- The spans that have begun with one operation more. -/
theorem begun_concat (past : List Op) (op : Op) :
    begun (past ++ [op]) = (begun past).map (·.add op) ++ op.began?.toList := by
  induction past with
  | nil =>
      cases op with
      | _ => rfl
  | cons first rest ih =>
      cases first with
      | startSpan i name =>
          simp only [List.cons_append, begun, ih, List.map_cons]
          rfl
      | _ => simp only [List.cons_append, begun, ih]

/-- What ending a span sends after some operations, and on which client: its
observation, if it ends for the first time and is not cancelled. -/
def observed? (past : List Op) (k : Nat) (ending : Ending) : Option (Nat × Metric) :=
  match (begun past)[k]? with
  | none => none
  | some b =>
    if ending = .cancel ∨ (b.ending? k).isSome then none else some (b.client, b.observation k)

namespace Op

/-- What an operation is without spans, after some others. -/
def unspanned (past : List Op) : Op → List Op
  | .startSpan _ _ => []
  | .rateSpan _ _ => []
  | .endSpan k ending => ((observed? past k ending).map fun x => .emit x.1 x.2).toList
  | op => [op]

theorem unspanned_endSpan (past : List Op) (k : Nat) (ending : Ending) :
    unspanned past (.endSpan k ending) =
      ((observed? past k ending).map fun x => .emit x.1 x.2).toList := rfl

/-- What some operations are without spans, after some others. -/
def allUnspanned (past : List Op) : List Op → List Op
  | [] => []
  | op :: rest => op.unspanned past ++ allUnspanned (past ++ [op]) rest

end Op

/-! ## How many spans are observed -/

/-- How a span ended first, among some operations. -/
def ended? (ops : List Op) (k : Nat) : Option Ending := ((begun ops)[k]?).bind (Began.ending? k)

/-- The spans that were ended and not cancelled. -/
def sentSpans (ops : List Op) : Finset Nat :=
  (Finset.range (begun ops).length).filter fun k =>
    ended? ops k ≠ none ∧ ended? ops k ≠ some .cancel

/-- Whether an operation sends a metric without a span. -/
def Op.emits : Op → Bool
  | .emit _ _ => true
  | _ => false

/-- A span has ended before, or one operation more ends it. -/
theorem ended?_concat (past : List Op) (op : Op) (k : Nat) :
    ended? (past ++ [op]) k =
      ((begun past)[k]?).bind fun b => (b.ending? k).or (op.endingOf? k) := by
  unfold ended?
  rw [begun_concat, List.getElem?_append, List.length_map]
  split
  · rw [List.getElem?_map]
    cases (begun past)[k]? with
    | none => rfl
    | some b => exact b.add_ending? k op
  · rename_i hlast
    rw [List.getElem?_eq_none (Nat.le_of_not_lt hlast)]
    -- a span that has just begun has not ended
    cases hnew : op.began?.toList[k - (begun past).length]? with
    | none => rfl
    | some b =>
        cases op with
        | startSpan i name =>
            rw [List.mem_singleton.mp (List.mem_of_getElem? hnew)]
            rfl
        | _ => cases hnew

theorem mem_sentSpans {ops : List Op} {k : Nat} :
    k ∈ sentSpans ops ↔ ended? ops k ≠ none ∧ ended? ops k ≠ some .cancel := by
  unfold sentSpans
  rw [Finset.mem_filter, Finset.mem_range, and_iff_right_iff_imp]
  rintro ⟨hended, -⟩
  by_contra hlast
  apply hended
  unfold ended?
  rw [List.getElem?_eq_none (Nat.le_of_not_lt hlast)]
  rfl

theorem Op.eq_of_endingOf? {op : Op} {k : Nat} {ending : Ending}
    (h : op.endingOf? k = some ending) : op = .endSpan k ending := by
  cases op with
  | endSpan j ending' =>
      unfold endingOf? at h
      dsimp only at h
      split at h
      · rename_i hjk
        cases h
        rw [hjk]
      · cases h
  | _ => cases h

/-- What is observed when a span ends is that of a span that has not ended. -/
theorem of_observed? {past : List Op} {k : Nat} {ending : Ending} {x : Nat × Metric}
    (h : observed? past k ending = some x) :
    ∃ b, (begun past)[k]? = some b ∧ b.ending? k = none ∧ ending ≠ .cancel ∧
      x = (b.client, b.observation k) := by
  unfold observed? at h
  cases hbegun : (begun past)[k]? with
  | none =>
      rw [hbegun] at h
      cases h
  | some b =>
      rw [hbegun] at h
      dsimp only at h
      split at h
      · cases h
      · rename_i hopen
        cases h
        rw [not_or, Option.not_isSome_iff_eq_none] at hopen
        exact ⟨b, rfl, hopen.2, hopen.1, rfl⟩

/-- An operation that ends no span for the first time but by cancelling it sends none. -/
theorem sentSpans_concat {past : List Op} {op : Op}
    (h : ∀ k ending, op = .endSpan k ending → observed? past k ending = none) :
    sentSpans (past ++ [op]) = sentSpans past := by
  ext j
  rw [mem_sentSpans, mem_sentSpans, ended?_concat]
  unfold ended?
  cases hbegun : (begun past)[j]? with
  | none => rfl
  | some b =>
      rw [Option.bind_some, Option.bind_some]
      cases hbefore : b.ending? j with
      | some ending => rfl
      | none =>
          cases hending : op.endingOf? j with
          | none => rfl
          | some ending =>
              have hnone := h j ending (op.eq_of_endingOf? hending)
              have hcancel : ending = .cancel := by
                by_contra hsends
                unfold observed? at hnone
                rw [hbegun] at hnone
                simp [hbefore, hsends] at hnone
              rw [hcancel]
              simp

/-- A span that ends for the first time, and is not cancelled, is one that is sent more. -/
theorem sentSpans_observed {past : List Op} {k : Nat} {ending : Ending} {x : Nat × Metric}
    (h : observed? past k ending = some x) :
    k ∉ sentSpans past ∧
      sentSpans (past ++ [.endSpan k ending]) = insert k (sentSpans past) := by
  obtain ⟨b, hbegun, hopen, hsends, -⟩ := of_observed? h
  have hbefore : ended? past k = none := by
    unfold ended?
    rw [hbegun, Option.bind_some, hopen]
  constructor
  · rw [mem_sentSpans]
    rintro ⟨hended, -⟩
    exact hended hbefore
  · ext j
    rw [Finset.mem_insert, mem_sentSpans, mem_sentSpans, ended?_concat]
    by_cases hjk : j = k
    · subst hjk
      simp [hbegun, hopen, Op.endingOf?, hsends]
    · have hother : (Op.endSpan k ending).endingOf? j = none := if_neg (Ne.symm hjk)
      simp only [hother, Option.or_none, hjk, false_or]
      rfl

/-- An operation sends a metric more without spans exactly if it sends one span more. -/
theorem emits_unspanned (past : List Op) (op : Op) :
    (op.unspanned past).countP Op.emits + (sentSpans past).card =
      [op].countP Op.emits + (sentSpans (past ++ [op])).card := by
  have hsame : (∀ k ending, op = .endSpan k ending → observed? past k ending = none) →
      (op.unspanned past).countP Op.emits = [op].countP Op.emits →
      (op.unspanned past).countP Op.emits + (sentSpans past).card =
        [op].countP Op.emits + (sentSpans (past ++ [op])).card := by
    intro hnone hcount
    rw [sentSpans_concat hnone, hcount]
  cases op with
  | endSpan k ending =>
      cases hobserved : observed? past k ending with
      | none =>
          apply hsame
          · intro k' ending' heq
            cases heq
            exact hobserved
          · rw [Op.unspanned_endSpan, hobserved]
            rfl
      | some x =>
          obtain ⟨hnew, hinsert⟩ := sentSpans_observed hobserved
          have hone : ((some x).map fun x => Op.emit x.1 x.2).toList.countP Op.emits = 1 := rfl
          have hzero : [Op.endSpan k ending].countP Op.emits = 0 := rfl
          rw [Op.unspanned_endSpan, hobserved, hinsert, Finset.card_insert_of_notMem hnew, hone,
            hzero]
          omega
  | _ => exact hsame (fun _ _ heq => nomatch heq) rfl

/-- Without spans some operations send one metric more for each span that is sent. -/
theorem emits_allUnspanned (past ops : List Op) :
    (Op.allUnspanned past ops).countP Op.emits + (sentSpans past).card =
      ops.countP Op.emits + (sentSpans (past ++ ops)).card := by
  induction ops generalizing past with
  | nil =>
      rw [List.append_nil]
      rfl
  | cons op rest ih =>
      have hop := emits_unspanned past op
      have hrest := ih (past ++ [op])
      rw [List.append_assoc, List.singleton_append] at hrest
      have hcons : (op :: rest).countP Op.emits = [op].countP Op.emits + rest.countP Op.emits := by
        rw [← List.countP_append, List.singleton_append]
      rw [Op.allUnspanned, List.countP_append, hcons]
      omega

/-! ## Spans of a session -/

/-- What an operation does to a span that is there. -/
def Op.onSpan (k : Nat) (op : Op) (span : Span) : Span :=
  match op with
  | .rateSpan j rate => if j = k then { span with rate } else span
  | .endSpan j _ => if j = k then { span with finished := true } else span
  | _ => span

/-- A span as a session has it at some time. -/
def Began.span (k now : Nat) (b : Began) : Span :=
  { client := b.client, name := b.name, rate := b.rate k, start := now - b.elapsed
    finished := (b.ending? k).isSome }

/-- The span of one operation more is what that operation makes of it. -/
theorem Began.span_add (k now : Nat) (b : Began) (op : Op) :
    (b.add op).span k (now + op.nanos) = op.onSpan k (b.span k now) := by
  have hstart : now + op.nanos - (b.elapsed + op.nanos) = now - b.elapsed :=
    Nat.add_sub_add_right now op.nanos b.elapsed
  unfold span
  rw [add_elapsed, add_rate, add_ending?, hstart]
  cases op with
  | rateSpan j rate =>
      by_cases hjk : j = k
      · simp [Op.rateOf?, Op.endingOf?, Op.onSpan, add, hjk]
      · simp [Op.rateOf?, Op.endingOf?, Op.onSpan, add, hjk]
  | endSpan j ending =>
      by_cases hjk : j = k
      · simp [Op.rateOf?, Op.endingOf?, Op.onSpan, add, hjk]
      · simp [Op.rateOf?, Op.endingOf?, Op.onSpan, add, hjk]
  | _ => simp [Op.rateOf?, Op.endingOf?, Op.onSpan, add]

namespace Front

/-- An operation that leaves every span as it is leaves the spans as they are. -/
theorem mapIdx_onSpan {op : Op} (h : ∀ k span, op.onSpan k span = span) (spans : List Span) :
    spans.mapIdx (fun k => op.onSpan k) = spans := by
  apply List.ext_getElem?
  intro k
  rw [List.getElem?_mapIdx, show op.onSpan k = id from funext (h k), Option.map_id]
  rfl

/-- To change one span is to change every span that has its number. -/
theorem modify_eq_mapIdx (spans : List Span) (j : Nat) (change : Span → Span) :
    spans.modify j change = spans.mapIdx fun k span => if j = k then change span else span := by
  apply List.ext_getElem?
  intro k
  rw [List.getElem?_modify, List.getElem?_mapIdx]
  by_cases hjk : j = k
  · simp only [hjk, if_true]
    rfl
  · simp only [hjk, if_false]
    rfl

/-- The spans after an operation: those from before, as it has changed them, and the
one that it starts. -/
theorem step_spans (f : Front) (op : Op) :
    (f.step op).spans = f.spans.mapIdx (fun k => op.onSpan k) ++
      (op.began?.map (Began.span f.spans.length f.clock)).toList := by
  have hkept : op.began? = none → (f.step op).spans = f.spans.mapIdx (fun k => op.onSpan k) →
      (f.step op).spans = f.spans.mapIdx (fun k => op.onSpan k) ++
        (op.began?.map (Began.span f.spans.length f.clock)).toList := by
    intro hnone hstep
    rw [hstep, hnone, Option.map_none, Option.toList_none, List.append_nil]
  cases op with
  | startSpan i name =>
      rw [mapIdx_onSpan fun _ _ => rfl]
      rfl
  | rateSpan j rate => exact hkept rfl (modify_eq_mapIdx f.spans j _)
  | endSpan j ending => exact hkept rfl (modify_eq_mapIdx f.spans j _)
  | derive i sub =>
      apply hkept rfl
      rw [mapIdx_onSpan fun _ _ => rfl]
      exact (f.step_derive i sub).1
  | _ => exact hkept rfl (mapIdx_onSpan (fun _ _ => rfl) f.spans).symm

/-- The spans of the clients' side are those that have begun, and none of them began
before the clock started. -/
structure Tracks (f : Front) (past : List Op) : Prop where
  spans : f.spans = (begun past).mapIdx fun k => Began.span k f.clock
  elapsed : ∀ b ∈ begun past, b.elapsed ≤ f.clock

theorem Tracks.step {f : Front} {past : List Op} (h : f.Tracks past) (op : Op) :
    (f.step op).Tracks (past ++ [op]) := by
  have hclock := f.step_clock op
  have hlength : f.spans.length = (begun past).length := by rw [h.spans, List.length_mapIdx]
  constructor
  · have hnew : (op.began?.map (Began.span f.spans.length f.clock)).toList =
        op.began?.toList.mapIdx fun k =>
          Began.span (k + (begun past).length) (f.step op).clock := by
      cases op with
      | startSpan i name =>
          rw [hlength, hclock]
          simp [Op.began?, Op.nanos]
      | _ => rfl
    have hold : f.spans.mapIdx (fun k => op.onSpan k) =
        ((begun past).map (·.add op)).mapIdx fun k => Began.span k (f.step op).clock := by
      rw [hclock, h.spans, List.mapIdx_mapIdx]
      apply List.ext_getElem?
      intro k
      rw [List.getElem?_mapIdx, List.getElem?_mapIdx, List.getElem?_map, Option.map_map]
      congr 1
      funext b
      exact (Began.span_add k f.clock b op).symm
    rw [step_spans, begun_concat, List.mapIdx_append, hold, hnew, List.length_map]
  · intro b hb
    rw [begun_concat] at hb
    rw [hclock]
    rcases List.mem_append.mp hb with hold | hnew
    · obtain ⟨b', hb', rfl⟩ := List.mem_map.mp hold
      rw [Began.add_elapsed]
      exact Nat.add_le_add_right (h.elapsed b' hb') op.nanos
    · cases op with
      | startSpan i name =>
          rw [List.mem_singleton.mp hnew]
          exact Nat.zero_le _
      | _ => cases hnew

end Front

/-! ## Sessions without spans -/

namespace Session

variable {σ : Type}

/-- The same session with other spans. -/
def withSpans (s : Session σ) (spans : List Span) : Session σ := { s with spans }

/-- What a span sends when it ends is told by the operations up to then. -/
theorem sends?_of_tracks {s : Session σ} {past : List Op} (h : s.front.Tracks past) (k : Nat)
    (ending : Ending) : s.sends? (.endSpan k ending) = observed? past k ending := by
  have hspans : s.spans = (begun past).mapIdx fun k => Began.span k s.clock := h.spans
  have hget : s.spans[k]? = ((begun past)[k]?).map (Began.span k s.clock) := by
    rw [hspans, List.getElem?_mapIdx]
  by_cases hcancel : ending = .cancel
  · subst hcancel
    unfold observed?
    cases (begun past)[k]? with
    | none => rfl
    | some b => rfl
  · rw [sends?_endSpan s k hcancel]
    unfold sends? observed?
    dsimp only
    rw [hget]
    cases hbegun : (begun past)[k]? with
    | none => rfl
    | some b =>
        have hsince : b.elapsed ≤ s.clock := h.elapsed b (List.mem_of_getElem? hbegun)
        have helapsed : s.clock - (s.clock - b.elapsed) = b.elapsed := Nat.sub_sub_self hsince
        simp only [Option.map_some, Began.span, helapsed, hcancel, false_or]
        rfl

section Spanless

variable [Transport σ] (s : Session σ) (spans : List Span) (i : Nat)

/-! Nothing that is done on a client looks at the spans. -/

omit [Transport σ] in
theorem report_withSpans (c : Client) (attempts : List Attempt) :
    (s.withSpans spans).report i c attempts =
      ((s.report i c attempts).1.withSpans spans, (s.report i c attempts).2) := by
  unfold report
  cases Attempt.firstFailure? attempts with
  | none => rfl
  | some e => rfl

theorem write_withSpans (c : Client) (message : Packet) :
    (s.withSpans spans).write i c message =
      ((s.write i c message).1.withSpans spans, (s.write i c message).2) :=
  congrArg (fun x : Session σ × List Event => (x.1, Event.emitted i message :: x.2))
    (report_withSpans { s with sink := (s.sink.emit message).1 } spans i c (s.sink.emit message).2)

theorem sample_withSpans (c : Client) (m : Metric) :
    (s.withSpans spans).sample i c m =
      ((s.sample i c m).1.withSpans spans, (s.sample i c m).2) := by
  have hdraws : (s.withSpans spans).draws = s.draws := rfl
  unfold sample
  rw [hdraws]
  rcases sampled m.rate s.draws with ⟨kept, draws⟩
  cases kept with
  | true =>
      exact congrArg (fun x : Session σ × List Event =>
        (x.1, (if Binary64.one ≤ m.rate then [] else [Event.drew i]) ++ x.2))
        (write_withSpans { s with draws } spans i c (m.message c.scope))
  | false => rfl

theorem emit_withSpans (m : Metric) :
    (s.withSpans spans).emit i m = ((s.emit i m).1.withSpans spans, (s.emit i m).2) := by
  have hclient : (s.withSpans spans).client? i = s.client? i := rfl
  unfold emit
  rw [hclient]
  cases s.client? i with
  | none => rfl
  | some c =>
      dsimp only
      split
      · rfl
      · cases m.refusal? with
        | some reason => rfl
        | none => exact sample_withSpans s spans i c m

theorem flush_withSpans :
    (s.withSpans spans).flush i = ((s.flush i).1.withSpans spans, (s.flush i).2) := by
  have hclient : (s.withSpans spans).client? i = s.client? i := rfl
  unfold flush
  rw [hclient]
  cases s.client? i with
  | none => rfl
  | some c =>
      dsimp only
      split
      · rfl
      · exact report_withSpans { s with sink := s.sink.flush.1 } spans i c s.sink.flush.2

omit [Transport σ] in
theorem derive_withSpans (sub : Prefix) :
    (s.withSpans spans).derive i sub = (s.derive i sub).withSpans spans := by
  have hclient : (s.withSpans spans).client? i = s.client? i := rfl
  unfold derive
  rw [hclient]
  cases s.client? i with
  | none => rfl
  | some c => rfl

end Spanless

variable [Transport σ]

/-- An operation that is not on a span does not look at the spans. -/
theorem step_withSpans (s : Session σ) (spans : List Span) {op : Op} {past : List Op}
    (hop : op.unspanned past = [op]) :
    (s.withSpans spans).step op = ((s.step op).1.withSpans spans, (s.step op).2) := by
  cases op with
  | emit i m => exact emit_withSpans s spans i m
  | abandon i m => rfl
  | flush i => exact flush_withSpans s spans i
  | drop i =>
      exact congrArg (fun x : Session σ × List Event => (x.1.setClient i none, x.2))
        (flush_withSpans s spans i)
  | derive i sub =>
      unfold step
      dsimp only
      cases Prefix.parse sub with
      | ok p => exact congrArg (fun s : Session σ => (s, [])) (derive_withSpans s spans i p)
      | error e => rfl
  | wait nanos => rfl
  | startSpan i name => cases hop
  | rateSpan k rate => cases hop
  | endSpan k ending =>
      exfalso
      rw [Op.unspanned_endSpan] at hop
      cases hobserved : observed? past k ending with
      | none =>
          rw [hobserved] at hop
          cases hop
      | some x =>
          rw [hobserved] at hop
          cases hop

/-- Besides changing spans, ending one is sending what it observes. -/
theorem endSpan_observed {s : Session σ} {past : List Op} (h : s.front.Tracks past) (k : Nat)
    (ending : Ending) :
    match observed? past k ending with
    | some (i, m) =>
      s.endSpan k ending = ((s.emit i m).1.withSpans (s.endSpan k ending).1.spans, (s.emit i m).2)
    | none => s.endSpan k ending = (s.withSpans (s.endSpan k ending).1.spans, []) := by
  rw [← sends?_of_tracks h k ending]
  by_cases hcancel : ending = .cancel
  · subst hcancel
    rw [endSpan_cancel]
    show (s.cancel k, []) = (s.withSpans (s.cancel k).spans, [])
    unfold cancel
    cases s.spans[k]? with
    | none => rfl
    | some span => rfl
  · rw [endSpan_eq_finish s k hcancel, sends?_endSpan s k hcancel]
    cases hsends : s.sends? (.endSpan k .drop) with
    | none =>
        dsimp only
        rw [finish_of_silent hsends]
        rfl
    | some x =>
        obtain ⟨spans, hfinish⟩ := finish_of_sends hsends
        have hemit := emit_withSpans s spans x.1 x.2
        have hall : s.finish k = ((s.emit x.1 x.2).1.withSpans spans, (s.emit x.1 x.2).2) :=
          hfinish.trans hemit
        dsimp only
        rw [hall]
        rfl

/-- An operation does to all but the spans what is put in its place. -/
theorem step_unspanned {s : Session σ} {past : List Op} (h : s.front.Tracks past) (op : Op) :
    (s.withSpans []).run (op.unspanned past) = ((s.step op).1.withSpans [], (s.step op).2) := by
  have hone : op.unspanned past = [op] →
      (s.withSpans []).run (op.unspanned past) = ((s.step op).1.withSpans [], (s.step op).2) := by
    intro hop
    rw [hop]
    simp only [run, step_withSpans s [] hop, List.append_nil]
  cases op with
  | startSpan i name => rfl
  | rateSpan k rate =>
      unfold step
      dsimp only
      cases s.spans[k]? with
      | none => rfl
      | some span => rfl
  | endSpan k ending =>
      have hends := endSpan_observed h k ending
      rw [Op.unspanned_endSpan]
      cases hobserved : observed? past k ending with
      | none =>
          rw [hobserved] at hends
          dsimp only at hends
          show _ = ((s.endSpan k ending).1.withSpans [], (s.endSpan k ending).2)
          rw [hends]
          rfl
      | some x =>
          rw [hobserved] at hends
          dsimp only at hends
          show (s.withSpans []).run [.emit x.1 x.2] =
            ((s.endSpan k ending).1.withSpans [], (s.endSpan k ending).2)
          rw [hends]
          simp only [run, step, emit_withSpans, List.append_nil]
          rfl
  | _ => exact hone rfl

/-! ### Runs -/

/-- A run in two parts, with all that is seen of it. -/
theorem run_append_events (s : Session σ) (ops later : List Op) :
    s.run (ops ++ later) =
      (((s.run ops).1.run later).1, (s.run ops).2 ++ ((s.run ops).1.run later).2) := by
  induction ops generalizing s with
  | nil => rfl
  | cons op rest ih => simp only [List.cons_append, run, ih, List.append_assoc]

theorem tracks_step {s : Session σ} {past : List Op} (h : s.front.Tracks past) (op : Op) :
    (s.step op).1.front.Tracks (past ++ [op]) := by
  rw [(step_follows s op).front]
  exact h.step op

theorem tracks_run {s : Session σ} {past : List Op} (h : s.front.Tracks past) (ops : List Op) :
    (s.run ops).1.front.Tracks (past ++ ops) := by
  induction ops generalizing s past with
  | nil =>
      rw [List.append_nil]
      exact h
  | cons op rest ih =>
      have hrest := ih (tracks_step h op)
      rw [List.append_assoc] at hrest
      exact hrest

/-- A run does to all but the spans what the run without spans does. -/
theorem run_unspanned {s : Session σ} {past : List Op} (h : s.front.Tracks past)
    (ops : List Op) :
    (s.withSpans []).run (Op.allUnspanned past ops) =
      ((s.run ops).1.withSpans [], (s.run ops).2) := by
  induction ops generalizing s past with
  | nil => rfl
  | cons op rest ih =>
      rw [Op.allUnspanned, run_append_events, step_unspanned h op]
      dsimp only
      rw [ih (tracks_step h op)]
      rfl

-- of two spans the one that is not cancelled is one timing, where it ends first
example (rate : Binary64) :
    Op.allUnspanned [] [.startSpan 0 "a", .wait 3, .startSpan 1 "b", .rateSpan 0 rate, .wait 2,
      .endSpan 1 .cancel, .endSpan 0 .send, .wait 4, .endSpan 0 .drop, .endSpan 1 .drop] =
    [.wait 3, .wait 2,
      .emit 0 ((Metric.always "a" (.duration (Duration.ofNanos 5))).withRate rate), .wait 4] := rfl

omit [Transport σ] in
theorem tracks_init (sink : Sink σ) (scope : Prefix) (live : Bool) (draws : Generator) :
    (Session.init sink scope live draws).front.Tracks [] := by
  constructor
  · rfl
  · intro b hb
    cases hb

/-! ### The law of spans -/

/-- For every run, whatever spans it starts and however they end:

* after any operations, to end a span for the first time, and not by cancelling it, is
  to send its observation on its client: one timing with the time since the start, at
  the last rate that the span was given, or 1 (`observed?`, `Began.observation`). Any
  other end changes nothing but spans and tells nothing;
* a span that is sent or cancelled is dropped afterwards, which does nothing at all;
* so a run without spans, with these observations in the place of the ends, has the
  same events and leaves the same session but for the spans;
* and that run sends one metric more for each span that is ended and not cancelled. -/
theorem spans_observed_once (sink : Sink σ) (scope : Prefix) (live : Bool) (draws : Generator)
    (ops : List Op) :
    let start := Session.init sink scope live draws
    let now := (start.run ops).1
    (∀ k ending,
      let x := now.step (.endSpan k ending)
      match observed? ops k ending with
      | some (i, m) => x = ((now.emit i m).1.withSpans x.1.spans, (now.emit i m).2)
      | none => x = (now.withSpans x.1.spans, [])) ∧
    (∀ k, (now.finish k).1.finish k = ((now.finish k).1, []) ∧
      (now.cancel k).finish k = (now.cancel k, [])) ∧
    start.run (Op.allUnspanned [] ops) = (now.withSpans [], (start.run ops).2) ∧
    (Op.allUnspanned [] ops).countP Op.emits = ops.countP Op.emits + (sentSpans ops).card := by
  intro start now
  have htracks : now.front.Tracks ops := tracks_run (tracks_init sink scope live draws) ops
  refine ⟨endSpan_observed htracks, ?_, ?_, ?_⟩
  · intro k
    have hended : (now.finish k).1.Ended k :=
      ended_of_front (congrArg Front.spans (finish_follows now k).front)
    exact ⟨finish_idle hended, finish_idle (now.cancel_ended k)⟩
  · exact run_unspanned (tracks_init sink scope live draws) ops
  · exact emits_allUnspanned [] ops

/-- A span of a quarter of a second that is sent and then dropped is one line. -/
example :
    let link := (Datagram.Link.init ⟨"daemon", 8125, none⟩ 0).withSocket ⟨fun d => .ok d.size⟩
    let x := (Session.init (Sink.init none link) Prefix.empty true ⟨0⟩).run
      [.startSpan 0 "job", .wait 250000000, .endSpan 0 .send, .wait 1, .endSpan 0 .drop]
    Event.attempts x.2 = [⟨.ofString "job:250.0|ms" 1, none⟩] := by
  decide +kernel

end Session

end Statsd

import Mathlib.Tactic.ByContra
import Statsd.Proofs.Sampling
import Statsd.Proofs.Session.Passed

/-!
# Statsd.Proofs.Session.Draws — which operations draw, and what their lines say of it

A send draws a number exactly if a client that does not discard would write it
and its rate is not 1 or more (`Session.Draws`).

* Every operation is at most one send (`Session.sends?`), and does nothing but
  what `Session.emit` does with it (`step_of_sends`, `step_of_silent`).
* **Step**: `step_sampled` says that the random source moves by one number
  exactly if the operation draws, that the draw decides, and that the line
  names its rate exactly if there was a draw. The rate is then between 0 and 1,
  as no number below 0 is drawn (`zero_less_of_drawn`).
* **Run**: the rate of a span is the last one that it was given (`run_rate`).
-/

namespace Statsd

/-! ## Metrics that are decided by a draw -/

namespace Metric

/-- A metric that is decided by a draw: it is not refused, and its rate is not
1 or more. A rate that is no number is not 1 or more. -/
structure Drawn (m : Metric) : Prop where
  named : m.name ≠ ""
  allowed : ∀ text, m.observation = .member text → memberAllowed text = true
  rate : ¬ Binary64.one ≤ m.rate

theorem refusal_none_iff (m : Metric) :
    m.refusal? = none ↔
      m.name ≠ "" ∧ ∀ text, m.observation = .member text → memberAllowed text = true := by
  rcases m with ⟨name, observation, rate⟩
  unfold refusal?
  by_cases hname : name = ""
  · simp [hname]
  · have hnonempty : name.isEmpty = false := by
      rw [← Bool.not_eq_true, String.isEmpty_iff]
      exact hname
    cases observation with
    | member text => simp [hnonempty, hname]
    | count n => simp [hnonempty, hname]
    | gauge level => simp [hnonempty, hname]
    | adjust delta => simp [hnonempty, hname]
    | timing millis => simp [hnonempty, hname]

theorem drawn_iff (m : Metric) : m.Drawn ↔ m.refusal? = none ∧ ¬ Binary64.one ≤ m.rate := by
  rw [refusal_none_iff]
  constructor
  · intro h
    exact ⟨⟨h.named, h.allowed⟩, h.rate⟩
  · rintro ⟨⟨hnamed, hallowed⟩, hrate⟩
    exact ⟨hnamed, hallowed, hrate⟩

instance (m : Metric) : Decidable m.Drawn := decidable_of_iff _ m.drawn_iff.symm

example : (⟨"hits", .increment, ⟨0x7ff8000000000000⟩⟩ : Metric).Drawn := by decide

/-- A metric that is decided by a draw moves the random source by one number. -/
theorem drawsAfter_of_drawn {m : Metric} (h : m.Drawn) (g : Generator) :
    m.drawsAfter g = g.draw.2 ∧
      m.fate g = if g.draw.1 < m.rate then .passed else .leftOut := by
  rcases m.drawn_iff.mp h with ⟨hrefusal, hrate⟩
  cases hdraw : g.draw with
  | mk x after =>
      have hsampled : sampled m.rate g = (decide (x < m.rate), after) := by
        rw [sampled, if_neg hrate, hdraw]
      unfold drawsAfter fate
      rw [hrefusal, hsampled]
      simp only [Option.isSome_none, Bool.false_eq_true, if_false, decide_eq_true_eq, true_and]

/-- Every other metric leaves the random source alone. -/
theorem drawsAfter_of_not_drawn {m : Metric} (h : ¬ m.Drawn) (g : Generator) :
    m.drawsAfter g = g := by
  unfold drawsAfter
  cases hrefusal : m.refusal? with
  | some reason => rfl
  | none =>
      have hone : Binary64.one ≤ m.rate := by
        by_contra hrate
        exact h (m.drawn_iff.mpr ⟨hrefusal, hrate⟩)
      rw [sampled, if_pos hone]
      rfl

/-- What passes by a draw has a rate between 0 and 1. -/
theorem zero_less_of_drawn {m : Metric} (h : m.Drawn) {g : Generator} (hfate : m.fate g = .passed) :
    Binary64.zero < m.rate ∧ m.rate < Binary64.one := by
  have hless : g.draw.1 < m.rate := by
    by_contra hnot
    rw [(drawsAfter_of_drawn h g).2, if_neg hnot] at hfate
    cases hfate
  have hnames := namesRate_of_sampled (of_fate_passed hfate).2
  rw [decide_eq_false h.rate] at hnames
  exact ⟨⟨by decide +kernel, hless.2.1, Int.lt_of_le_of_lt g.draw_rank hless.2.2⟩,
    of_decide_eq_true hnames⟩

/-- The text of a metric, with what stands behind its value line. -/
def spelled (m : Metric) (scope : Prefix) (suffix : String) : String :=
  (if m.resets then fullName scope m.name ++ ":0|g" ++ "\n" else "") ++
    (fullName scope m.name ++ ":" ++ m.observation.text ++ "|" ++ m.observation.kind.code ++ suffix)

/-- The rate stands behind the value line, and only there. -/
theorem text_eq_spelled (m : Metric) (scope : Prefix) :
    m.text scope = m.spelled scope (if namesRate m.rate then "|@" ++ m.rate.text else "") := by
  unfold text spelled
  cases m.resets with
  | true => rfl
  | false =>
      rw [if_neg Bool.false_ne_true, if_neg Bool.false_ne_true, String.empty_append]
      rfl

/-- Of several rates the last one counts. -/
theorem rate_foldl_withRate (m : Metric) (rates : List Binary64) :
    (rates.foldl withRate m).rate = rates.getLastD m.rate := by
  induction rates generalizing m with
  | nil => rfl
  | cons rate rest ih =>
      rw [List.foldl_cons, ih, List.getLastD_cons]
      rfl

end Metric

/-! ## Events -/

namespace Event

/-- The client that drew a number. -/
def drawer? : Event → Option Nat
  | .drew i => some i
  | _ => none

/-- What was decided of a metric. -/
def verdict? : Event → Option Fate
  | .refused .. => some .refused
  | .sampledOut _ => some .leftOut
  | .emitted .. => some .passed
  | _ => none

/-- The clients that drew, once for each draw, in order. -/
def drawers (events : List Event) : List Nat := events.filterMap drawer?

/-- What was decided, in order. -/
def verdicts (events : List Event) : List Fate := events.filterMap verdict?

theorem drawers_append (es es' : List Event) :
    drawers (es ++ es') = drawers es ++ drawers es' := List.filterMap_append

theorem verdicts_append (es es' : List Event) :
    verdicts (es ++ es') = verdicts es ++ verdicts es' := List.filterMap_append

end Event

/-! ## One operation -/

namespace Session

variable {σ : Type}

/-- The metric that an operation sends, and the client that is to send it:
a metric is sent, and so is the time of a span that ends for the first time,
unless it is cancelled. -/
def sends? (s : Session σ) : Op → Option (Nat × Metric)
  | .emit i m => some (i, m)
  | .endSpan _ .cancel => none
  | .endSpan k _ =>
    match s.spans[k]? with
    | none => none
    | some span =>
      if span.finished then none
      else
        some (span.client,
          ⟨span.name, .duration (Duration.ofNanos (s.clock - span.start)), span.rate⟩)
  | _ => none

/-- An operation draws: it sends a metric that is decided by a draw, on a client
that is there and does not discard. -/
def Draws (s : Session σ) (op : Op) : Prop :=
  ∃ i c m, s.sends? op = some (i, m) ∧ s.client? i = some c ∧ c.live = true ∧ m.Drawn

/-- A report of packets tells of no draw and no decision. -/
theorem report_quiet (s : Session σ) (i : Nat) (c : Client) (attempts : List Attempt) :
    Event.drawers (s.report i c attempts).2 = [] ∧
      Event.verdicts (s.report i c attempts).2 = [] := by
  have hattempts : Event.drawers (attempts.map (Event.attempted i)) = [] ∧
      Event.verdicts (attempts.map (Event.attempted i)) = [] := by
    constructor
    · unfold Event.drawers
      rw [List.filterMap_map]
      exact List.filterMap_eq_nil_iff.mpr fun a _ => rfl
    · unfold Event.verdicts
      rw [List.filterMap_map]
      exact List.filterMap_eq_nil_iff.mpr fun a _ => rfl
  unfold report
  split
  · exact hattempts
  · dsimp only
    split
    · exact hattempts
    · rw [Event.drawers_append, Event.verdicts_append, hattempts.1, hattempts.2]
      exact ⟨rfl, rfl⟩

variable [Transport σ]

/-- A flush or a drop tells of no draw and no decision. -/
theorem flush_quiet (s : Session σ) (i : Nat) :
    Event.drawers (s.flush i).2 = [] ∧ Event.verdicts (s.flush i).2 = [] := by
  unfold flush
  split
  · exact ⟨rfl, rfl⟩
  · split
    · exact ⟨rfl, rfl⟩
    · exact report_quiet _ _ _ _

/-- What a client that does not discard tells of a metric that is sent. -/
theorem emit_tells (s : Session σ) {i : Nat} {c : Client} (hc : s.client? i = some c)
    (hlive : c.live = true) (m : Metric) :
    Event.drawers (s.emit i m).2 = (if m.Drawn then [i] else []) ∧
      Event.verdicts (s.emit i m).2 = [m.fate s.draws] := by
  cases hrefusal : m.refusal? with
  | some reason =>
      have hnot : ¬ m.Drawn := by
        intro h
        rw [(m.drawn_iff.mp h).1] at hrefusal
        cases hrefusal
      simp only [emit, hc, hlive, hrefusal, Bool.not_true, Bool.false_eq_true, if_false, hnot,
        Metric.fate, Option.isSome_some, if_true]
      exact ⟨rfl, rfl⟩
  | none =>
      have hdrawn : (if m.Drawn then [i] else []) =
          Event.drawers (if Binary64.one ≤ m.rate then [] else [Event.drew i]) := by
        by_cases hone : Binary64.one ≤ m.rate
        · rw [if_pos hone, if_neg fun h => h.rate hone]
          rfl
        · rw [if_neg hone, if_pos (m.drawn_iff.mpr ⟨hrefusal, hone⟩)]
          rfl
      have hsilent :
          Event.verdicts (if Binary64.one ≤ m.rate then [] else [Event.drew i]) = [] := by
        split
        · rfl
        · rfl
      simp only [emit, hc, hlive, hrefusal, Bool.not_true, Bool.false_eq_true, if_false, sample]
      rw [hdrawn, Metric.fate, hrefusal]
      cases (sampled m.rate s.draws).1 with
      | true =>
          -- the message is written and its packets are reported
          simp only [if_true, write, Event.drawers_append, Event.verdicts_append, hsilent]
          constructor
          · exact (congrArg _ (report_quiet _ i c _).1).trans (List.append_nil _)
          · exact congrArg (Fate.passed :: ·) (report_quiet _ i c _).2
      | false =>
          simp only [Bool.false_eq_true, if_false, Event.drawers_append, Event.verdicts_append,
            hsilent]
          exact ⟨List.append_nil _, rfl⟩

/-! ### What an operation does with what it sends -/

omit [Transport σ] in
/-- The front sends what is sent on a client that does not discard. -/
theorem front_sending? (s : Session σ) (op : Op) :
    s.front.sending? op =
      (s.sends? op).bind fun x => (s.front.live? x.1).map fun c => (c, x.2) := by
  have hclosing : ∀ k, s.front.closing? k = (s.sends? (.endSpan k .drop)).bind fun x =>
      (s.front.live? x.1).map fun c => (c, x.2) := by
    intro k
    show (match s.spans[k]? with | none => _ | some span => _) = _
    unfold sends?
    dsimp only
    cases s.spans[k]? with
    | none => rfl
    | some span =>
        dsimp only
        split
        · rfl
        · rfl
  cases op with
  | emit i m => rfl
  | endSpan k ending =>
      cases ending with
      | cancel => rfl
      | send => exact hclosing k
      | drop => exact hclosing k
      | panic => exact hclosing k
  | abandon i m => rfl
  | flush i => rfl
  | drop i => rfl
  | derive i sub => rfl
  | startSpan i name => rfl
  | rateSpan k rate => rfl
  | wait nanos => rfl

omit [Transport σ] in
theorem draws_iff (s : Session σ) (op : Op) :
    s.Draws op ↔ ∃ c m, s.front.sending? op = some (c, m) ∧ m.Drawn := by
  rw [front_sending?]
  constructor
  · rintro ⟨i, c, m, hsends, hc, hlive, hdrawn⟩
    refine ⟨c.quiet, m, ?_, hdrawn⟩
    rw [hsends, Option.bind_some, Front.live?, front_client?, hc, Option.map_some,
      Option.filter_some, if_pos (show c.quiet.live = true from hlive)]
    rfl
  · rintro ⟨c, m, hsending, hdrawn⟩
    rcases Option.bind_eq_some_iff.mp hsending with ⟨⟨i, m'⟩, hsends, hmap⟩
    rcases Option.map_eq_some_iff.mp hmap with ⟨c', hlive, heq⟩
    cases heq
    rcases front_live_some hlive with ⟨c, hc, hclive, -⟩
    exact ⟨i, c, m', hsends, hc, hclive, hdrawn⟩

/-- Ending a span in any way but by cancelling finishes it, and only once. -/
theorem endSpan_eq_finish (s : Session σ) (k : Nat) {ending : Ending} (h : ending ≠ .cancel) :
    s.endSpan k ending = s.finish k := by
  cases ending with
  | cancel => exact absurd rfl h
  | send =>
      have hended : (s.finish k).1.Ended k :=
        ended_of_front (congrArg Front.spans (finish_follows s k).front)
      rw [endSpan]
      dsimp only
      rw [finish_idle hended, List.append_nil]
  | drop => rfl
  | panic => rfl

omit [Transport σ] in
/-- A span that is cancelled has ended. -/
theorem cancel_ended (s : Session σ) (k : Nat) : (s.cancel k).Ended k := by
  intro span hspan
  unfold cancel at hspan
  cases hbefore : s.spans[k]? with
  | none =>
      rw [hbefore] at hspan
      dsimp only at hspan
      rw [hbefore] at hspan
      cases hspan
  | some before =>
      have hlt := (List.getElem?_eq_some_iff.mp hbefore).1
      rw [hbefore] at hspan
      have hset : (s.spans.set k { before with finished := true })[k]? = some span := hspan
      rw [List.getElem?_set_self hlt] at hset
      cases hset
      rfl

/-- Leaving the scope of a cancelled span does nothing. -/
theorem endSpan_cancel (s : Session σ) (k : Nat) : s.endSpan k .cancel = (s.cancel k, []) :=
  finish_idle (s.cancel_ended k)

/-- Cancelling a span tells nothing. -/
theorem cancel_quiet (s : Session σ) (k : Nat) : (s.endSpan k .cancel).2 = [] := by
  rw [endSpan_cancel]

omit [Transport σ] in
/-- What a span sends does not depend on how it ends, unless it is cancelled. -/
theorem sends?_endSpan (s : Session σ) (k : Nat) {ending : Ending} (h : ending ≠ .cancel) :
    s.sends? (.endSpan k ending) = s.sends? (.endSpan k .drop) := by
  cases ending with
  | cancel => exact absurd rfl h
  | send => rfl
  | drop => rfl
  | panic => rfl

/-- A span that ends for the first time sends its metric; besides, it only changes
among the spans. -/
theorem finish_of_sends {s : Session σ} {k i : Nat} {m : Metric}
    (h : s.sends? (.endSpan k .drop) = some (i, m)) :
    ∃ spans, s.finish k = ({ s with spans } : Session σ).emit i m := by
  unfold sends? at h
  dsimp only at h
  unfold finish
  cases hspan : s.spans[k]? with
  | none =>
      rw [hspan] at h
      cases h
  | some span =>
      rw [hspan] at h
      dsimp only at h ⊢
      split at h
      · cases h
      · rename_i hopen
        cases h
        rw [if_neg hopen]
        exact ⟨s.spans.set k { span with finished := true }, rfl⟩

/-- A span that is not there, or has ended before, sends nothing and changes nothing. -/
theorem finish_of_silent {s : Session σ} {k : Nat} (h : s.sends? (.endSpan k .drop) = none) :
    s.finish k = (s, []) := by
  apply finish_idle
  intro span hspan
  by_contra hopen
  unfold sends? at h
  dsimp only at h
  rw [hspan] at h
  dsimp only at h
  rw [if_neg hopen] at h
  cases h

/-- An operation that sends a metric does what sending it does, in a session
with the same clients and the same random source. -/
theorem step_of_sends {s : Session σ} {op : Op} {i : Nat} {m : Metric}
    (h : s.sends? op = some (i, m)) :
    ∃ s' : Session σ, s'.clients = s.clients ∧ s'.draws = s.draws ∧ s.step op = s'.emit i m := by
  cases op with
  | emit i' m' =>
      cases h
      exact ⟨s, rfl, rfl, rfl⟩
  | endSpan k ending =>
      by_cases hcancel : ending = .cancel
      · rw [hcancel] at h
        cases h
      · have hstep : s.step (.endSpan k ending) = s.finish k := endSpan_eq_finish s k hcancel
        rw [sends?_endSpan s k hcancel] at h
        obtain ⟨spans, hfinish⟩ := finish_of_sends h
        exact ⟨{ s with spans }, rfl, rfl, hstep.trans hfinish⟩
  | abandon i' m' => cases h
  | flush i' => cases h
  | drop i' => cases h
  | derive i' sub => cases h
  | startSpan i' name => cases h
  | rateSpan k rate => cases h
  | wait nanos => cases h

/-- An operation that sends no metric tells of no draw and no decision. -/
theorem step_of_silent {s : Session σ} {op : Op} (h : s.sends? op = none) :
    Event.drawers (s.step op).2 = [] ∧ Event.verdicts (s.step op).2 = [] := by
  cases op with
  | emit i m => cases h
  | endSpan k ending =>
      by_cases hcancel : ending = .cancel
      · have hnone : (s.step (.endSpan k ending)).2 = [] := by
          rw [hcancel]
          exact cancel_quiet s k
        rw [hnone]
        exact ⟨rfl, rfl⟩
      · -- the span is not there, or has ended
        rw [sends?_endSpan s k hcancel] at h
        have hnone : s.step (.endSpan k ending) = (s, []) :=
          (endSpan_eq_finish s k hcancel).trans (finish_of_silent h)
        rw [hnone]
        exact ⟨rfl, rfl⟩
  | flush i => exact flush_quiet s i
  | drop i => exact flush_quiet s i
  | derive i sub =>
      unfold step
      dsimp only
      split
      · exact ⟨rfl, rfl⟩
      · exact ⟨rfl, rfl⟩
  | rateSpan k rate =>
      unfold step
      dsimp only
      split
      · exact ⟨rfl, rfl⟩
      · exact ⟨rfl, rfl⟩
  | abandon i m => exact ⟨rfl, rfl⟩
  | startSpan i name => exact ⟨rfl, rfl⟩
  | wait nanos => exact ⟨rfl, rfl⟩

/-- All that an operation can tell of draws and decisions. -/
theorem step_tells (s : Session σ) (op : Op) :
    (s.front.sending? op = none ∧
      Event.drawers (s.step op).2 = [] ∧ Event.verdicts (s.step op).2 = []) ∨
    ∃ i c m, s.sends? op = some (i, m) ∧ s.client? i = some c ∧ c.live = true ∧
      s.front.sending? op = some (c.quiet, m) ∧
      Event.drawers (s.step op).2 = (if m.Drawn then [i] else []) ∧
      Event.verdicts (s.step op).2 = [m.fate s.draws] := by
  have hfront := front_sending? s op
  cases hsends : s.sends? op with
  | none =>
      rw [hsends] at hfront
      exact Or.inl ⟨hfront, step_of_silent hsends⟩
  | some x =>
      rcases x with ⟨i, m⟩
      rw [hsends, Option.bind_some] at hfront
      rcases step_of_sends hsends with ⟨s', hclients, hdraws, hstep⟩
      have hclient : ∀ j, s'.client? j = s.client? j := by
        intro j
        rw [client?, client?, hclients]
      cases hlive : s.front.live? i with
      | none =>
          -- the client is not there, or discards
          rw [hlive] at hfront
          have hlive' : s'.front.live? i = none := by
            rw [Front.live?, front_client?, hclient, ← front_client?]
            exact hlive
          rw [hstep, emit_idle s' hlive' m]
          exact Or.inl ⟨hfront, rfl, rfl⟩
      | some c =>
          rw [hlive] at hfront
          rcases front_live_some hlive with ⟨c, hc, hclive, rfl⟩
          have htells := emit_tells s' ((hclient i).trans hc) hclive m
          rw [hdraws, ← hstep] at htells
          exact Or.inr ⟨i, c, m, rfl, hc, hclive, hfront, htells⟩

/-! ### The step -/

/-- What an operation has to do with the random source. -/
structure SampledStep (s : Session σ) (op : Op) : Prop where
  /-- An operation that draws moves the random source by one number. One client
  says so, and the number decides of one metric. -/
  draws : s.Draws op →
    (s.step op).1.draws = s.draws.draw.2 ∧
      ∃ i m, s.sends? op = some (i, m) ∧ Event.drawers (s.step op).2 = [i] ∧
        Event.verdicts (s.step op).2 = [if s.draws.draw.1 < m.rate then .passed else .leftOut]
  /-- Any other operation leaves the random source alone. -/
  keeps : ¬ s.Draws op → (s.step op).1.draws = s.draws ∧ Event.drawers (s.step op).2 = []
  /-- What is written is one message. The rate stands behind its value line
  exactly if there was a draw, and is then between 0 and 1. Nothing stands
  behind a reset line. -/
  names : ∀ message ∈ Event.messages (s.step op).2, Event.messages (s.step op).2 = [message] ∧
    ∃ i c m suffix, s.sends? op = some (i, m) ∧ s.client? i = some c ∧ c.live = true ∧
      message = Packet.ofString (m.spelled c.scope suffix) (if m.resets then 2 else 1) ∧
      (s.Draws op → suffix = "|@" ++ m.rate.text ∧ Binary64.zero < m.rate ∧
        m.rate < Binary64.one) ∧
      (¬ s.Draws op → suffix = "")

/-- Draws, decisions and the rates in lines agree, for every operation. -/
theorem step_sampled (s : Session σ) (op : Op) : SampledStep s op := by
  have hfollows := step_follows s op
  have hdraws : (s.step op).1.draws = s.front.drawsAfter op := congrArg Front.draws hfollows.front
  have hmessages : Event.messages (s.step op).2 = (s.front.passing op).map Passed.message :=
    hfollows.messages.trans (s.front.messages_requests op)
  unfold Front.drawsAfter at hdraws
  unfold Front.passing at hmessages
  rcases step_tells s op with ⟨hsending, hdrawers, -⟩ |
    ⟨i, c, m, hsends, hc, hlive, hsending, hdrawers, hverdicts⟩
  · -- nothing is sent, or on a client that discards
    have hidle : ¬ s.Draws op := by
      rw [draws_iff, hsending]
      rintro ⟨c, m, hnone, -⟩
      cases hnone
    rw [hsending] at hdraws hmessages
    refine ⟨fun h => absurd h hidle, fun _ => ⟨hdraws, hdrawers⟩, ?_⟩
    intro message hmem
    rw [hmessages] at hmem
    cases hmem
  · have hiff : s.Draws op ↔ m.Drawn := by
      rw [draws_iff, hsending]
      constructor
      · rintro ⟨c', m', heq, hdrawn⟩
        cases heq
        exact hdrawn
      · intro hdrawn
        exact ⟨_, m, rfl, hdrawn⟩
    rw [hsending] at hdraws hmessages
    dsimp only at hdraws hmessages
    refine ⟨?_, ?_, ?_⟩
    · intro h
      have hdrawn := hiff.mp h
      rcases Metric.drawsAfter_of_drawn hdrawn s.front.draws with ⟨hafter, hfate⟩
      refine ⟨hdraws.trans hafter, i, m, hsends, ?_, ?_⟩
      · rw [hdrawers, if_pos hdrawn]
      · rw [hverdicts]
        exact congrArg (fun fate => [fate]) hfate
    · intro h
      have hnot := mt hiff.mpr h
      refine ⟨hdraws.trans (Metric.drawsAfter_of_not_drawn hnot _), ?_⟩
      rw [hdrawers, if_neg hnot]
    · intro message hmem
      rw [hmessages] at hmem
      split at hmessages
      · rename_i hfate
        rw [if_pos hfate] at hmem
        rw [List.mem_singleton.mp hmem]
        have hnames := Metric.namesRate_of_sampled (Metric.of_fate_passed hfate).2
        refine ⟨hmessages, i, c, m, if namesRate m.rate then "|@" ++ m.rate.text else "",
          hsends, hc, hlive, ?_, ?_, ?_⟩
        · show m.message c.scope = _
          rw [Metric.message, m.text_eq_spelled]
        · intro h
          have hdrawn := hiff.mp h
          rw [decide_eq_false hdrawn.rate] at hnames
          exact ⟨if_pos hnames, Metric.zero_less_of_drawn hdrawn hfate⟩
        · intro h
          have hone : Binary64.one ≤ m.rate := by
            by_contra hrate
            exact h (hiff.mpr (m.drawn_iff.mpr ⟨(Metric.of_fate_passed hfate).1, hrate⟩))
          rw [decide_eq_true hone] at hnames
          exact if_neg (by rw [hnames]; exact Bool.false_ne_true)
      · rename_i hfate
        rw [if_neg hfate] at hmem
        cases hmem

end Session

/-! ## The rate of a span -/

/-- The rate that an operation gives a span. -/
def Op.rateOf? (k : Nat) : Op → Option Binary64
  | .rateSpan j rate => if j = k then some rate else none
  | _ => none

namespace Front

/-- The rate of a span that is there. -/
def rate? (f : Front) (k : Nat) : Option Binary64 := (f.spans[k]?).map (·.rate)

/-- A span keeps its rate, unless the operation gives it another one. -/
theorem rate_step {f : Front} {k : Nat} {rate : Binary64} (h : f.rate? k = some rate) (op : Op) :
    (f.step op).rate? k = some ((op.rateOf? k).getD rate) := by
  unfold rate? at h ⊢
  rcases Option.map_eq_some_iff.mp h with ⟨span, hspan, rfl⟩
  cases op with
  | rateSpan j new =>
      have hchanged : (f.step (.rateSpan j new)).spans[k]? = _ :=
        getElem?_modify_of_some hspan j _
      rw [hchanged, Option.map_some, Op.rateOf?]
      by_cases hjk : j = k
      · rw [if_pos hjk, if_pos hjk]
        rfl
      · rw [if_neg hjk, if_neg hjk]
        rfl
  | endSpan j ending =>
      have hchanged : (f.step (.endSpan j ending)).spans[k]? = _ :=
        getElem?_modify_of_some hspan j _
      rw [hchanged, Option.map_some]
      split
      · rfl
      · rfl
  | startSpan i name =>
      have hlt : k < f.spans.length := (List.getElem?_eq_some_iff.mp hspan).1
      show ((f.spans ++ [_])[k]?).map (·.rate) = _
      rw [List.getElem?_append_left hlt]
      exact h
  | derive i sub =>
      rw [(f.step_derive i sub).1]
      exact h
  | emit i m => exact h
  | abandon i m => exact h
  | flush i => exact h
  | drop i => exact h
  | wait nanos => exact h

theorem rate_run {f : Front} {k : Nat} {rate : Binary64} (h : f.rate? k = some rate)
    (ops : List Op) :
    (f.run ops).rate? k = some ((ops.filterMap (Op.rateOf? k)).getLastD rate) := by
  induction ops generalizing f rate with
  | nil => exact h
  | cons op rest ih =>
      have hrest := ih (rate_step h op)
      rw [run, hrest]
      cases hgiven : op.rateOf? k with
      | none => rw [List.filterMap_cons_none hgiven, Option.getD_none]
      | some new => rw [List.filterMap_cons_some hgiven, Option.getD_some, List.getLastD_cons]

end Front

/-- The rate of a span is the last one that it was given, and 1 before that. -/
theorem Session.run_rate {σ : Type} [Transport σ] (s : Session σ) (i : Nat) (name : String)
    (ops : List Op) :
    ((s.run (.startSpan i name :: ops)).1.spans[s.spans.length]?).map (·.rate) =
      some ((ops.filterMap (Op.rateOf? s.spans.length)).getLastD Binary64.one) := by
  have hstart : (s.front.step (.startSpan i name)).rate? s.spans.length = some Binary64.one := by
    show ((s.spans ++ [_])[s.spans.length]?).map (·.rate) = _
    rw [List.getElem?_concat_length]
    rfl
  have hspans : (s.run (.startSpan i name :: ops)).1.spans =
      (s.front.run (.startSpan i name :: ops)).spans := congrArg Front.spans (run_follows s _).front
  rw [hspans]
  exact Front.rate_run hstart ops

end Statsd

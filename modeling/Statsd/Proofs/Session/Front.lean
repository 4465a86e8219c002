import Mathlib.Data.List.Basic
import Statsd.Session
import Statsd.Proofs.Sink.Request

/-!
# Statsd.Proofs.Session.Front — a session as its clients' side and its sink

The clients, the spans, the random source and the clock of a session never look
at the sink. So a session is two machines in a row:

* `Front` is the clients' side. `Front.step` is an operation on it, and
  `Front.requests` what the operation asks of the sink.
* A metric has one of three fates before anything is written (`Metric.fate`),
  each with its request.
* **Step**: `step_follows` says that an operation of a session is that of its
  front, with the requests handled by its sink.
* **Run**: `run_follows` says the same of a sequence of operations.

All that a session reports of its packets and messages can then be had from
theorems about requests.
-/

namespace Statsd

/-! ## Fates -/

/-- What is decided of a metric before it is written. -/
inductive Fate where
  /-- It has no name, or a member that would break the line. -/
  | refused
  /-- Its rate leaves it out. -/
  | leftOut
  /-- It is written and given to the sink. -/
  | passed
deriving DecidableEq, Repr

namespace Metric

/-- The fate of a metric, from the state of the random source. -/
def fate (m : Metric) (g : Generator) : Fate :=
  if m.refusal?.isSome then .refused
  else if (sampled m.rate g).1 then .passed
  else .leftOut

/-- The random source after the decision. A metric that is refused draws nothing. -/
def drawsAfter (m : Metric) (g : Generator) : Generator :=
  if m.refusal?.isSome then g else (sampled m.rate g).2

/-- What the fate of a metric asks of the sink. -/
def request (m : Metric) (scope : Prefix) (g : Generator) : Request :=
  match m.fate g with
  | .refused => .refuse
  | .leftOut => .leaveOut
  | .passed => .emit (m.message scope)

end Metric

/-! ## Reports -/

namespace Event

/-- The attempt that an event reports. -/
def attempt? : Event → Option Attempt
  | .attempted _ a => some a
  | _ => none

/-- The message that an event reports. -/
def message? : Event → Option Packet
  | .emitted _ m => some m
  | _ => none

/-- The attempts among some events, in order. -/
def attempts (events : List Event) : List Attempt := events.filterMap attempt?

/-- The messages among some events, in order. -/
def messages (events : List Event) : List Packet := events.filterMap message?

theorem attempts_append (es es' : List Event) :
    attempts (es ++ es') = attempts es ++ attempts es' := List.filterMap_append

theorem messages_append (es es' : List Event) :
    messages (es ++ es') = messages es ++ messages es' := List.filterMap_append

theorem attempts_map (i : Nat) (as : List Attempt) :
    attempts (as.map (Event.attempted i)) = as := by
  induction as with
  | nil => rfl
  | cons a as ih => exact congrArg (a :: ·) ih

theorem messages_map (i : Nat) (as : List Attempt) :
    messages (as.map (Event.attempted i)) = [] := by
  induction as with
  | nil => rfl
  | cons a as ih => exact ih

end Event

/-! ## The clients' side -/

/-- How much time an operation lets pass. -/
def Op.nanos : Op → Nat
  | .wait n => n
  | _ => 0

/-- A client without what it has reported. -/
def Client.quiet (c : Client) : Client := { c with reported := none }

/-- All of a session but its sink and what its clients have reported. -/
structure Front where
  clients : List (Option Client)
  spans : List Span
  draws : Generator
  clock : Nat

/-- The clients' side of a session. -/
def Session.front {σ : Type} (s : Session σ) : Front :=
  ⟨s.clients.map (Option.map Client.quiet), s.spans, s.draws, s.clock⟩

/-- A span that is there is changed if it is the one to change. -/
theorem getElem?_modify_of_some {spans : List Span} {k : Nat} {span : Span}
    (h : spans[k]? = some span) (j : Nat) (change : Span → Span) :
    (spans.modify j change)[k]? = some (if j = k then change span else span) := by
  rw [List.getElem?_modify, h]
  by_cases hjk : j = k
  · simp only [hjk, if_true]
    rfl
  · simp only [hjk, if_false]
    rfl

namespace Front

/-- A client that has not been dropped and does not discard. -/
def live? (f : Front) (i : Nat) : Option Client :=
  ((f.clients[i]?).join).filter (·.live)

/-- What ending a span would send, with the client that would send it. -/
def closing? (f : Front) (k : Nat) : Option (Client × Metric) :=
  match f.spans[k]? with
  | none => none
  | some span =>
    if span.finished then none
    else
      let elapsed := Duration.ofNanos (f.clock - span.start)
      (f.live? span.client).map fun c => (c, ⟨span.name, .duration elapsed, span.rate⟩)

/-- The metric that an operation sends, with the client that sends it. -/
def sending? (f : Front) : Op → Option (Client × Metric)
  | .emit i m => (f.live? i).map fun c => (c, m)
  | .endSpan _ .cancel => none
  | .endSpan k _ => f.closing? k
  | _ => none

/-- What an operation asks of the sink. -/
def requests (f : Front) (op : Op) : List Request :=
  match f.sending? op with
  | some (c, m) => [m.request c.scope f.draws]
  | none =>
    match op with
    | .flush i => if (f.live? i).isSome then [.flush] else []
    | .drop i => if (f.live? i).isSome then [.flush] else []
    | .wait nanos => [.wait nanos]
    | _ => []

/-- The random source after an operation. -/
def drawsAfter (f : Front) (op : Op) : Generator :=
  match f.sending? op with
  | some (_, m) => m.drawsAfter f.draws
  | none => f.draws

/-- Make a client whose prefix has `sub` behind that of another one. -/
def derive (f : Front) (i : Nat) (sub : Prefix) : Front :=
  match (f.clients[i]?).join with
  | none => f
  | some c =>
    let child : Client :=
      { scope := c.scope.join sub, live := c.live, born := f.clock, reported := none }
    { f with clients := f.clients ++ [some child] }

/-- Change a span, if it is there. -/
def mapSpan (f : Front) (k : Nat) (change : Span → Span) : Front :=
  { f with spans := f.spans.modify k change }

/-- What an operation changes besides the random source. -/
def move (f : Front) : Op → Front
  | .drop i => { f with clients := f.clients.set i none }
  | .derive i sub =>
    match Prefix.parse sub with
    | .ok p => f.derive i p
    | .error _ => f
  | .startSpan i name =>
    let span : Span :=
      { client := i, name, rate := Binary64.one, start := f.clock, finished := false }
    { f with spans := f.spans ++ [span] }
  | .rateSpan k rate => f.mapSpan k fun span => { span with rate }
  | .endSpan k _ => f.mapSpan k fun span => { span with finished := true }
  | .wait nanos => { f with clock := f.clock + nanos }
  | _ => f

/-- One operation. -/
def step (f : Front) (op : Op) : Front := { f.move op with draws := f.drawsAfter op }

/-- A sequence of operations. -/
def run (f : Front) : List Op → Front
  | [] => f
  | op :: rest => (f.step op).run rest

/-- What a sequence of operations asks of the sink. -/
def allRequests (f : Front) : List Op → List Request
  | [] => []
  | op :: rest => f.requests op ++ (f.step op).allRequests rest

/-- The metrics that a sequence of operations sends, with their fates. -/
def sends (f : Front) : List Op → List (Metric × Fate)
  | [] => []
  | op :: rest =>
    ((f.sending? op).map fun x => (x.2, x.2.fate f.draws)).toList ++ (f.step op).sends rest

/-- An operation that sends no metric asks the sink for a flush or lets time pass, if anything. -/
theorem requests_of_silent {f : Front} {op : Op} (h : f.sending? op = none) :
    f.requests op = [] ∨ f.requests op = [.flush] ∨ ∃ nanos, f.requests op = [.wait nanos] := by
  unfold requests
  rw [h]
  cases op with
  | flush i =>
      dsimp only
      split
      · exact Or.inr (Or.inl rfl)
      · exact Or.inl rfl
  | drop i =>
      dsimp only
      split
      · exact Or.inr (Or.inl rfl)
      · exact Or.inl rfl
  | wait nanos => exact Or.inr (Or.inr ⟨nanos, rfl⟩)
  | emit i m => exact Or.inl rfl
  | abandon i m => exact Or.inl rfl
  | derive i sub => exact Or.inl rfl
  | startSpan i name => exact Or.inl rfl
  | rateSpan k rate => exact Or.inl rfl
  | endSpan k ending => exact Or.inl rfl

/-- All that an operation can do to the clients. -/
theorem step_clients (f : Front) (op : Op) :
    (f.step op).clients = f.clients ∨
    (∃ i, op = .drop i ∧ (f.step op).clients = f.clients.set i none) ∨
    (∃ parent child, some parent ∈ f.clients ∧ child.live = parent.live ∧
      (f.step op).clients = f.clients ++ [some child]) := by
  cases op with
  | drop i => exact Or.inr (Or.inl ⟨i, rfl, rfl⟩)
  | derive i sub =>
      simp only [step, move]
      cases Prefix.parse sub with
      | error e => exact Or.inl rfl
      | ok p =>
          simp only [derive]
          cases hparent : (f.clients[i]?).join with
          | none => exact Or.inl rfl
          | some parent =>
              have hmem : some parent ∈ f.clients :=
                List.mem_of_getElem? (Option.join_eq_some_iff.mp hparent)
              let child : Client :=
                { scope := parent.scope.join p, live := parent.live, born := f.clock
                  reported := none }
              exact Or.inr (Or.inr ⟨parent, child, hmem, rfl, rfl⟩)
  | emit i m => exact Or.inl rfl
  | abandon i m => exact Or.inl rfl
  | flush i => exact Or.inl rfl
  | startSpan i name => exact Or.inl rfl
  | rateSpan k rate => exact Or.inl rfl
  | endSpan k ending => exact Or.inl rfl
  | wait nanos => exact Or.inl rfl

/-- A client stays as it is until it is dropped. -/
theorem client_stays {f : Front} {i : Nat} {c : Client} (hc : (f.clients[i]?).join = some c)
    {op : Op} (hop : op ≠ .drop i) : ((f.step op).clients[i]?).join = some c := by
  rcases f.step_clients op with hsame | ⟨j, rfl, hset⟩ | ⟨parent, child, -, -, hnew⟩
  · rw [hsame]
    exact hc
  · have hji : j ≠ i := fun h => hop (h ▸ rfl)
    rw [hset, List.getElem?_set_ne hji]
    exact hc
  · have hlt : i < f.clients.length :=
      (List.getElem?_eq_some_iff.mp (Option.join_eq_some_iff.mp hc)).1
    rw [hnew, List.getElem?_append_left hlt]
    exact hc

/-- All that making a client does: it adds a client if the prefix is accepted and
the client is there that it is made from. -/
theorem step_derive (f : Front) (i : Nat) (sub : String) :
    (f.step (.derive i sub)).spans = f.spans ∧ (f.step (.derive i sub)).clock = f.clock ∧
      (f.step (.derive i sub)).clients =
        match Prefix.parse sub, (f.clients[i]?).join with
        | .ok p, some c =>
          f.clients ++ [some { scope := c.scope.join p, live := c.live, born := f.clock
                               reported := none }]
        | _, _ => f.clients := by
  simp only [step, move]
  cases Prefix.parse sub with
  | error e => exact ⟨rfl, rfl, rfl⟩
  | ok p =>
      simp only [derive]
      cases (f.clients[i]?).join with
      | none => exact ⟨rfl, rfl, rfl⟩
      | some c => exact ⟨rfl, rfl, rfl⟩

/-- Only waiting lets time pass. -/
theorem step_clock (f : Front) (op : Op) : (f.step op).clock = f.clock + op.nanos := by
  cases op with
  | derive i sub => exact (f.step_derive i sub).2.1
  | _ => rfl

end Front

/-! ## A step of a session -/

/-- A part of a step does to the session what some requests do to the sink, and
reports just this. It leaves the given front. -/
structure Follows {σ : Type} [Transport σ] (s : Session σ) (x : Session σ × List Event)
    (front : Front) (requests : List Request) : Prop where
  front : x.1.front = front
  sink : x.1.sink = (s.sink.handleAll requests).1
  attempts : Event.attempts x.2 = (s.sink.handleAll requests).2
  messages : Event.messages x.2 = Request.messages requests

namespace Session

variable {σ : Type}

/-! ### The front of a changed session -/

/-- A lookup in the front. -/
theorem front_client? (s : Session σ) (i : Nat) :
    (s.front.clients[i]?).join = (s.client? i).map Client.quiet := by
  simp only [front, client?, List.getElem?_map]
  cases h : s.clients[i]? with
  | none => rfl
  | some slot => rfl

theorem front_live_some {s : Session σ} {i : Nat} {c : Client} (h : s.front.live? i = some c) :
    ∃ c', s.client? i = some c' ∧ c'.live = true ∧ c = c'.quiet := by
  rw [Front.live?, front_client?] at h
  rcases Option.filter_eq_some_iff.mp h with ⟨hmap, hlive⟩
  rcases Option.map_eq_some_iff.mp hmap with ⟨c', hc', hquiet⟩
  subst hquiet
  exact ⟨c', hc', hlive, rfl⟩

theorem front_live_none {s : Session σ} {i : Nat} (h : s.front.live? i = none) {c : Client}
    (hc : s.client? i = some c) : c.live = false := by
  rw [Front.live?, front_client?, hc, Option.map_some, Option.filter_eq_none_iff] at h
  simpa [Client.quiet] using h c.quiet rfl

/-- What a client has reported is not seen in the front. -/
theorem front_setClient_quiet {s : Session σ} {i : Nat} {c c' : Client}
    (hc : s.client? i = some c) (hquiet : c'.quiet = c.quiet) :
    (s.setClient i (some c')).front = s.front := by
  have hslot : s.clients[i]? = some (some c) := Option.join_eq_some_iff.mp hc
  have hclients : (s.clients.set i (some c')).map (Option.map Client.quiet) =
      s.clients.map (Option.map Client.quiet) := by
    apply List.ext_getElem?
    intro j
    rw [List.getElem?_map, List.getElem?_map, List.getElem?_set]
    by_cases hij : i = j
    · subst hij
      have hlt : i < s.clients.length := (List.getElem?_eq_some_iff.mp hslot).1
      rw [if_pos rfl, if_pos hlt, hslot, Option.map_some, Option.map_some, Option.map_some,
        Option.map_some, hquiet]
    · rw [if_neg hij]
  simp only [front, setClient, hclients]

theorem front_setClient_none (s : Session σ) (i : Nat) :
    (s.setClient i none).front = { s.front with clients := s.front.clients.set i none } := by
  simp only [front, setClient, List.map_set, Option.map_none]

theorem front_derive (s : Session σ) (i : Nat) (sub : Prefix) :
    (s.derive i sub).front = s.front.derive i sub := by
  rw [Front.derive, front_client?, derive]
  cases s.client? i with
  | none => rfl
  | some c =>
      simp only [front, Option.map_some, List.map_append, List.map_cons, List.map_nil]
      rfl

theorem derive_frame (s : Session σ) (i : Nat) (sub : Prefix) :
    (s.derive i sub).sink = s.sink ∧ (s.derive i sub).draws = s.draws := by
  rw [derive]
  cases s.client? i with
  | none => exact ⟨rfl, rfl⟩
  | some c => exact ⟨rfl, rfl⟩

/-! ### Spans -/

/-- A change that leaves the span as it is, if it is there, changes nothing. -/
theorem mapSpan_of_fixed {f : Front} {k : Nat} {change : Span → Span}
    (h : ∀ span, f.spans[k]? = some span → change span = span) : f.mapSpan k change = f := by
  have hmodify : f.spans.modify k change = f.spans := by
    cases hspan : f.spans[k]? with
    | none => exact List.modify_eq_self (List.getElem?_eq_none_iff.mp hspan)
    | some span =>
        rcases List.getElem?_eq_some_iff.mp hspan with ⟨hlt, hget⟩
        rw [List.modify_eq_set_getElem?, hspan]
        show f.spans.set k (change span) = f.spans
        rw [h span hspan, ← hget, List.set_getElem_self]
  simp only [Front.mapSpan, hmodify]

/-- A span that is not there is not changed. -/
theorem mapSpan_of_none {f : Front} {k : Nat} (h : f.spans[k]? = none) (change : Span → Span) :
    f.mapSpan k change = f := by
  apply mapSpan_of_fixed
  intro span hspan
  rw [h] at hspan
  cases hspan

theorem front_setSpan (s : Session σ) {k : Nat} {span : Span} (hspan : s.spans[k]? = some span)
    (change : Span → Span) :
    (s.setSpan k (change span)).front = s.front.mapSpan k change := by
  have hfront : s.front.spans[k]? = some span := hspan
  have hmodify : s.front.spans.modify k change = s.spans.set k (change span) := by
    rw [List.modify_eq_set_getElem?, hfront]
    rfl
  simp only [Front.mapSpan, hmodify]
  rfl

/-- A span that has ended, or is not there. -/
def Ended (s : Session σ) (k : Nat) : Prop :=
  ∀ span, s.spans[k]? = some span → span.finished = true

/-- Ending a span in the front ends it in the session. -/
theorem ended_of_front {s : Session σ} {f : Front} {k : Nat}
    (h : s.front.spans = f.spans.modify k fun span => { span with finished := true }) :
    s.Ended k := by
  intro span hspan
  have hfront : s.front.spans[k]? = some span := hspan
  rw [h, List.getElem?_modify_eq] at hfront
  rcases Option.map_eq_some_iff.mp hfront with ⟨before, _, hafter⟩
  rw [← hafter]

/-! ### Parts of a step -/

/-- A report changes nothing of the front but shows every attempt. -/
theorem report_spec (s : Session σ) {i : Nat} {c : Client} (hc : s.client? i = some c)
    (attempts : List Attempt) :
    (s.report i c attempts).1.front = s.front ∧ (s.report i c attempts).1.sink = s.sink ∧
      Event.attempts (s.report i c attempts).2 = attempts ∧
      Event.messages (s.report i c attempts).2 = [] := by
  rw [report]
  cases Attempt.firstFailure? attempts with
  | none => exact ⟨rfl, rfl, Event.attempts_map i attempts, Event.messages_map i attempts⟩
  | some e =>
      -- a warning is neither an attempt nor a message, whether it is given or not
      refine ⟨front_setClient_quiet hc rfl, rfl, ?_, ?_⟩
      · dsimp only
        split
        · exact Event.attempts_map i attempts
        · rw [Event.attempts_append, Event.attempts_map]
          exact List.append_nil attempts
      · dsimp only
        split
        · exact Event.messages_map i attempts
        · rw [Event.messages_append, Event.messages_map]
          rfl

variable [Transport σ]

/-- Nothing is asked of the sink. -/
theorem follows_idle {s s' : Session σ} (hsink : s'.sink = s.sink) :
    Follows s (s', []) s'.front [] := ⟨rfl, hsink, rfl, rfl⟩

/-- One thing is asked of the sink; its message, if it has one, and its attempts are reported. -/
theorem report_follows (s : Session σ) {i : Nat} {c : Client} (hc : s.client? i = some c)
    (r : Request) :
    let x := ({ s with sink := (s.sink.handle r).1 } : Session σ).report i c (s.sink.handle r).2
    Follows s (x.1, r.message?.toList.map (Event.emitted i) ++ x.2) s.front [r] := by
  intro x
  rcases report_spec { s with sink := (s.sink.handle r).1 } hc (s.sink.handle r).2 with
    ⟨hfront, hsink, hattempts, hmessages⟩
  refine ⟨hfront, hsink, ?_, ?_⟩
  · have hnone : Event.attempts (r.message?.toList.map (Event.emitted i)) = [] := by
      cases r.message? with
      | none => rfl
      | some m => rfl
    rw [Event.attempts_append, hnone, List.nil_append]
    exact hattempts.trans (List.append_nil _).symm
  · have hsome : Event.messages (r.message?.toList.map (Event.emitted i)) = r.message?.toList := by
      cases r.message? with
      | none => rfl
      | some m => rfl
    rw [Event.messages_append, hsome, Request.messages_cons]
    exact congrArg (r.message?.toList ++ ·) hmessages

/-- The events of a draw say nothing of messages or packets. -/
theorem drawn_reports (i : Nat) (rate : Binary64) (es : List Event) :
    let drawn := if Binary64.one ≤ rate then [] else [Event.drew i]
    Event.attempts (drawn ++ es) = Event.attempts es ∧
      Event.messages (drawn ++ es) = Event.messages es := by
  intro drawn
  by_cases hone : Binary64.one ≤ rate
  · simp only [drawn, hone, if_true, List.nil_append, and_self]
  · simp only [drawn, hone, if_false]
    exact ⟨rfl, rfl⟩

/-- A metric that is not refused is decided by its rate. -/
theorem sample_follows (s : Session σ) {i : Nat} {c : Client} (hc : s.client? i = some c)
    {m : Metric} (hrefusal : m.refusal? = none) :
    Follows s (s.sample i c m) { s.front with draws := m.drawsAfter s.draws }
      [m.request c.scope s.draws] := by
  have hdraws : m.drawsAfter s.draws = (sampled m.rate s.draws).2 := by
    simp only [Metric.drawsAfter, hrefusal, Option.isSome_none, Bool.false_eq_true, if_false]
  rw [hdraws]
  cases hkept : (sampled m.rate s.draws).1 with
  | true =>
      -- passed on: the message goes to the sink after the draw
      have hrequest : m.request c.scope s.draws = .emit (m.message c.scope) := by
        simp only [Metric.request, Metric.fate, hrefusal, hkept, Option.isSome_none,
          Bool.false_eq_true, if_true, if_false]
      have hwrite := report_follows { s with draws := (sampled m.rate s.draws).2 } hc
        (.emit (m.message c.scope))
      simp only [hrequest, sample, hkept, if_true]
      exact ⟨hwrite.front, hwrite.sink, (drawn_reports i m.rate _).1.trans hwrite.attempts,
        (drawn_reports i m.rate _).2.trans hwrite.messages⟩
  | false =>
      -- left out: only the counter moves
      have hrequest : m.request c.scope s.draws = .leaveOut := by
        simp only [Metric.request, Metric.fate, hrefusal, hkept, Option.isSome_none,
          Bool.false_eq_true, if_false]
      simp only [hrequest, sample, hkept, Bool.false_eq_true, if_false]
      exact ⟨rfl, rfl, (drawn_reports i m.rate _).1, (drawn_reports i m.rate _).2⟩

/-- A metric of a client that sends is one request, and moves the random source. -/
theorem emit_follows (s : Session σ) {i : Nat} {c : Client} (h : s.front.live? i = some c)
    (m : Metric) :
    Follows s (s.emit i m) { s.front with draws := m.drawsAfter s.draws }
      [m.request c.scope s.draws] := by
  -- the client in the front is the one of the session, but for what it has reported
  rcases front_live_some h with ⟨c, hc, hlive, rfl⟩
  cases hrefusal : m.refusal? with
  | some reason =>
      -- refused before anything is drawn
      simp only [emit, hc, hlive, Metric.drawsAfter, Metric.request, Metric.fate, hrefusal,
        Option.isSome_some, Bool.not_true, Bool.false_eq_true, if_true, if_false]
      exact ⟨rfl, rfl, rfl, rfl⟩
  | none =>
      simp only [emit, hc, hlive, hrefusal, Bool.not_true, Bool.false_eq_true, if_false]
      exact sample_follows s hc hrefusal

/-- A client that is not there or discards does nothing with a metric. -/
theorem emit_idle (s : Session σ) {i : Nat} (h : s.front.live? i = none) (m : Metric) :
    s.emit i m = (s, []) := by
  cases hc : s.client? i with
  | none => simp only [emit, hc]
  | some c => simp only [emit, hc, front_live_none h hc, Bool.not_false, if_true]

theorem flush_follows (s : Session σ) (i : Nat) :
    Follows s (s.flush i) s.front (if (s.front.live? i).isSome then [.flush] else []) := by
  cases h : s.front.live? i with
  | none =>
      have hidle : s.flush i = (s, []) := by
        cases hc : s.client? i with
        | none => simp only [flush, hc]
        | some c => simp only [flush, hc, front_live_none h hc, Bool.not_false, if_true]
      rw [hidle]
      exact follows_idle rfl
  | some c =>
      rcases front_live_some h with ⟨c, hc, hlive, rfl⟩
      simp only [flush, hc, hlive, Bool.not_true, Bool.false_eq_true, if_false]
      exact report_follows s hc .flush

theorem drop_follows (s : Session σ) (i : Nat) :
    Follows s (s.drop i) { s.front with clients := s.front.clients.set i none }
      (if (s.front.live? i).isSome then [.flush] else []) := by
  have h := flush_follows s i
  refine ⟨?_, h.sink, h.attempts, h.messages⟩
  calc ((s.flush i).1.setClient i none).front
      = { (s.flush i).1.front with clients := (s.flush i).1.front.clients.set i none } :=
        front_setClient_none _ i
    _ = { s.front with clients := s.front.clients.set i none } := by rw [h.front]

/-- A span that has ended does not end again. -/
theorem finish_idle {s : Session σ} {k : Nat} (h : s.Ended k) : s.finish k = (s, []) := by
  cases hspan : s.spans[k]? with
  | none => simp only [finish, hspan]
  | some span => simp only [finish, hspan, h span hspan, if_true]

theorem finish_follows (s : Session σ) (k : Nat) :
    Follows s (s.finish k) (s.front.step (.endSpan k .drop))
      (s.front.requests (.endSpan k .drop)) := by
  by_cases hended : s.Ended k
  · -- nothing is sent, and to end it once more changes nothing
    have hclosing : s.front.closing? k = none := by
      cases hspan : s.spans[k]? with
      | none => simp only [Front.closing?, show s.front.spans[k]? = none from hspan]
      | some span =>
          simp only [Front.closing?, show s.front.spans[k]? = some span from hspan,
            hended span hspan, if_true]
    have hfixed : (s.front.mapSpan k fun span => { span with finished := true }) = s.front := by
      apply mapSpan_of_fixed
      intro span hspan
      rw [← hended span hspan]
    simp only [Front.step, Front.drawsAfter, Front.requests, Front.sending?, hclosing, Front.move,
      hfixed, finish_idle hended]
    exact follows_idle rfl
  · -- the span is marked before its metric is sent
    simp only [Ended, Classical.not_forall] at hended
    rcases hended with ⟨span, hspan, hopen⟩
    have hfinished : span.finished = false := Bool.eq_false_iff.mpr hopen
    have hfspan : s.front.spans[k]? = some span := hspan
    let metric : Metric :=
      ⟨span.name, .duration (Duration.ofNanos (s.clock - span.start)), span.rate⟩
    have hfinish : s.finish k =
        (s.setSpan k { span with finished := true }).emit span.client metric := by
      simp only [finish, hspan, hfinished, Bool.false_eq_true, if_false]
      rfl
    have hclosing : s.front.closing? k = (s.front.live? span.client).map fun c => (c, metric) := by
      simp only [Front.closing?, hfspan, hfinished, Bool.false_eq_true, if_false]
      rfl
    have hmarked := front_setSpan s hspan fun span => { span with finished := true }
    rw [hfinish]
    cases hlive : s.front.live? span.client with
    | none =>
        -- its client is gone, or discards
        rw [hlive] at hclosing
        rw [emit_idle (s.setSpan k { span with finished := true }) hlive metric]
        simp only [Front.step, Front.drawsAfter, Front.requests, Front.sending?, hclosing,
          Front.move, Option.map_none]
        exact ⟨hmarked, rfl, rfl, rfl⟩
    | some c =>
        rw [hlive] at hclosing
        have hemit := emit_follows (s.setSpan k { span with finished := true }) hlive metric
        simp only [Front.step, Front.drawsAfter, Front.requests, Front.sending?, hclosing,
          Front.move, Option.map_some]
        rw [hmarked] at hemit
        exact ⟨hemit.front, hemit.sink, hemit.attempts, hemit.messages⟩

/-- Leaving the scope of a span that was sent or cancelled before does nothing. -/
theorem endSpan_follows (s : Session σ) (k : Nat) (ending : Ending) :
    Follows s (s.endSpan k ending) (s.front.step (.endSpan k ending))
      (s.front.requests (.endSpan k ending)) := by
  have hfinish := finish_follows s k
  cases ending with
  | send =>
      -- the span is finished once, and leaving its scope finds it so
      have hended : (s.finish k).1.Ended k := ended_of_front (congrArg Front.spans hfinish.front)
      simp only [endSpan, finish_idle hended, List.append_nil]
      exact hfinish
  | cancel =>
      -- the span is marked, and leaving its scope finds it so
      have hcancel : (s.cancel k).front =
          s.front.mapSpan k fun span => { span with finished := true } := by
        cases hspan : s.spans[k]? with
        | none =>
            have hnone : s.front.spans[k]? = none := hspan
            simp only [cancel, hspan, mapSpan_of_none hnone]
        | some span =>
            simp only [cancel, hspan]
            exact front_setSpan s hspan fun span => { span with finished := true }
      have hsink : (s.cancel k).sink = s.sink := by
        rw [cancel]
        split
        · rfl
        · rfl
      have hended : (s.cancel k).Ended k := ended_of_front (congrArg Front.spans hcancel)
      rw [endSpan, finish_idle hended]
      exact ⟨hcancel, hsink, rfl, rfl⟩
  | drop => exact hfinish
  | panic => exact hfinish

/-! ### A step and a run -/

/-- An operation of a session is that of its front, with its requests handled by the sink. -/
theorem step_follows (s : Session σ) (op : Op) :
    Follows s (s.step op) (s.front.step op) (s.front.requests op) := by
  cases op with
  | emit i m =>
      cases hlive : s.front.live? i with
      | none =>
          simp only [step, emit_idle s hlive, Front.step, Front.drawsAfter, Front.requests,
            Front.sending?, hlive, Front.move, Option.map_none]
          exact follows_idle rfl
      | some c =>
          simp only [step, Front.step, Front.drawsAfter, Front.requests, Front.sending?, hlive,
            Front.move, Option.map_some]
          exact emit_follows s hlive m
  | abandon i m => exact follows_idle rfl
  | flush i => exact flush_follows s i
  | drop i => exact drop_follows s i
  | derive i sub =>
      simp only [step, Front.step, Front.drawsAfter, Front.requests, Front.sending?, Front.move]
      cases Prefix.parse sub with
      | ok p =>
          rcases derive_frame s i p with ⟨hsink, hdraws⟩
          have hfront : (s.derive i p).front.draws = s.front.draws := hdraws
          have hderive : (s.derive i p).front =
              { s.front.derive i p with draws := s.front.draws } := by
            rw [← front_derive, ← hfront]
          exact ⟨hderive, hsink, rfl, rfl⟩
      | error e => exact follows_idle rfl
  | startSpan i name => exact follows_idle rfl
  | rateSpan k rate =>
      simp only [step, Front.step, Front.drawsAfter, Front.requests, Front.sending?, Front.move]
      cases hspan : s.spans[k]? with
      | none =>
          have hnone : s.front.spans[k]? = none := hspan
          rw [mapSpan_of_none hnone]
          exact follows_idle rfl
      | some span =>
          rw [← front_setSpan s hspan fun span => { span with rate }]
          exact follows_idle rfl
  | endSpan k ending => exact endSpan_follows s k ending
  | wait nanos => exact ⟨rfl, rfl, rfl, rfl⟩

/-- A client stays as it is until it is dropped, but for what it has reported. -/
theorem client_stays {s : Session σ} {i : Nat} {c : Client} (hc : s.client? i = some c) {op : Op}
    (hop : op ≠ .drop i) : ∃ c', (s.step op).1.client? i = some c' ∧ c'.quiet = c.quiet := by
  have hfront : (s.front.clients[i]?).join = some c.quiet := by
    rw [front_client?, hc, Option.map_some]
  have hstays := Front.client_stays hfront hop
  rw [← (step_follows s op).front, front_client?] at hstays
  exact Option.map_eq_some_iff.mp hstays

/-- A sequence of operations of a session is that of its front, with its requests
handled by the sink. -/
theorem run_follows (s : Session σ) (ops : List Op) :
    Follows s (s.run ops) (s.front.run ops) (s.front.allRequests ops) := by
  induction ops generalizing s with
  | nil => exact follows_idle rfl
  | cons op rest ih =>
      -- the front after the first operation is the one that the others start from
      have hstep := step_follows s op
      have hrest := ih (s.step op).1
      rw [hstep.front] at hrest
      refine ⟨hrest.front, ?_, ?_, ?_⟩
      · simp only [run, Front.allRequests, Sink.handleAll_append, hrest.sink, hstep.sink]
      · simp only [run, Front.allRequests, Sink.handleAll_append, Event.attempts_append,
          hrest.attempts, hstep.attempts, hstep.sink]
      · simp only [run, Front.allRequests, Event.messages_append, Request.messages_append,
          hrest.messages, hstep.messages]

end Session

end Statsd

import Statsd.Log
import Statsd.Metric
import Statsd.Sampling
import Statsd.Sink

/-!
# Statsd.Session — clients that share a sink

A session is a tree of clients over one sink, the random source of the caller
and the time. Clients are numbered in the order in which they are made.

* `Session.step` is one operation, `Session.run` a sequence of them. Both give
  the session afterwards and the events in order; the log is a part of the
  events (`Event.log?`).
* `Session.emit` decides on a metric in a fixed order: a discarding client
  does nothing; an empty name or a member that breaks the line is refused;
  then the rate decides; only then a message is written and given to the sink.
* A failure among the packets of a call is reported by the client that made
  the call, once in each window of 64 seconds of its life
  (`Session.report`).
* A timing span sends one observation when it ends, however it ends, unless it
  is cancelled (`Session.finish`).
* A client that is dropped flushes the sink.
-/

namespace Statsd

/-! ## State -/

/-- A client: what is its own, besides the sink that it shares. -/
structure Client where
  /-- What it puts in front of names. -/
  scope : Prefix
  /-- Whether it sends anything; a client that does not discards everything. -/
  live : Bool
  /-- When it was made, in nanoseconds. -/
  born : Nat
  /-- The window of its last warning. -/
  reported : Option Nat
deriving DecidableEq

/-- The length of a window in which a client warns at most once: 64 seconds. -/
def reportWindow : Nat := 64 * Duration.nanosPerSecond

/-- The window of a client's life at some time. -/
def Client.window (c : Client) (now : Nat) : Nat := (now - c.born) / reportWindow

/-- A timing measurement that has been started. -/
structure Span where
  client : Nat
  name : String
  rate : Binary64
  start : Nat
  /-- Whether it has been sent or cancelled. -/
  finished : Bool
deriving DecidableEq

/-- The ways a span can end. -/
inductive Ending where
  /-- It is sent explicitly. -/
  | send
  /-- It is abandoned. -/
  | cancel
  /-- Its scope ends. -/
  | drop
  /-- Its scope is unwound. -/
  | panic
deriving DecidableEq, Repr

/-- A sink, its clients and spans, the random source and the time. -/
structure Session (σ : Type) where
  sink : Sink σ
  /-- The clients in the order in which they were made; a dropped one leaves its place empty. -/
  clients : List (Option Client)
  spans : List Span
  draws : Generator
  /-- The time, in nanoseconds. -/
  clock : Nat

/-- What can be seen to happen in a session. -/
inductive Event where
  /-- A client refused a metric of this name. -/
  | refused (client : Nat) (reason : Metric.Refusal) (name : String)
  /-- A client drew a number to decide on a metric. -/
  | drew (client : Nat)
  /-- A client left a metric out. -/
  | sampledOut (client : Nat)
  /-- A client wrote a message. -/
  | emitted (client : Nat) (message : Packet)
  /-- A call on a client attempted a packet. -/
  | attempted (client : Nat) (attempt : Attempt)
  /-- A client warned that a packet could not be sent. -/
  | warned (client : Nat)

/-- The log entry that an event leaves, if any. -/
def Event.log? : Event → Option LogEntry
  | .refused _ .emptyName _ => some .emptyName
  | .refused _ .reservedMember name => some (.reservedMember name)
  | .warned _ => some .sendFailed
  | _ => none

/-- The operations of a session. -/
inductive Op where
  /-- Send a metric. -/
  | emit (client : Nat) (metric : Metric)
  /-- Make a metric ready and never send it. -/
  | abandon (client : Nat) (metric : Metric)
  /-- Send what has been joined so far. -/
  | flush (client : Nat)
  /-- Give a client up. -/
  | drop (client : Nat)
  /-- Make a client with a longer prefix. -/
  | derive (client : Nat) (sub : String)
  /-- Start a timing span. -/
  | startSpan (client : Nat) (name : String)
  /-- Give a span a rate. -/
  | rateSpan (span : Nat) (rate : Binary64)
  /-- End a span. -/
  | endSpan (span : Nat) (ending : Ending)
  /-- Let time pass. -/
  | wait (nanos : Nat)
deriving DecidableEq

namespace Session

variable {σ : Type}

/-- A session with one client. -/
def init (sink : Sink σ) (scope : Prefix) (live : Bool) (draws : Generator) : Session σ :=
  { sink, clients := [some { scope, live, born := 0, reported := none }], spans := [], draws
    clock := 0 }

/-- A client that has not been dropped. -/
def client? (s : Session σ) (i : Nat) : Option Client := (s.clients[i]?).join

/-- Put a client in the place of one. -/
def setClient (s : Session σ) (i : Nat) (c : Option Client) : Session σ :=
  { s with clients := s.clients.set i c }

/-- Change the counters of the sink. -/
def count (s : Session σ) (f : Counters → Counters) : Session σ :=
  { s with sink := { s.sink with counters := f s.sink.counters } }

/-! ## Operations -/

/-- Report the packets that a call on a client attempted. -/
def report (s : Session σ) (i : Nat) (c : Client) (attempts : List Attempt) :
    Session σ × List Event :=
  let events := attempts.map (Event.attempted i)
  match Attempt.firstFailure? attempts with
  | none => (s, events)
  | some _ =>
    let window := c.window s.clock
    (s.setClient i (some { c with reported := some window }),
      if c.reported = some window then events else events ++ [.warned i])

variable [Transport σ]

/-- Give a message to the sink, for a client. -/
def write (s : Session σ) (i : Nat) (c : Client) (message : Packet) : Session σ × List Event :=
  let (sink, attempts) := s.sink.emit message
  let (s, events) := { s with sink }.report i c attempts
  (s, .emitted i message :: events)

/-- Decide whether a metric is sent at its rate, and send it if so. -/
def sample (s : Session σ) (i : Nat) (c : Client) (m : Metric) : Session σ × List Event :=
  let (kept, draws) := sampled m.rate s.draws
  let drawn := if Binary64.one ≤ m.rate then [] else [Event.drew i]
  let s := { s with draws }
  if kept then
    let (s, events) := s.write i c (m.message c.scope)
    (s, drawn ++ events)
  else (s.count Counters.addSampledOut, drawn ++ [.sampledOut i])

/-- Send a metric on a client. -/
def emit (s : Session σ) (i : Nat) (m : Metric) : Session σ × List Event :=
  match s.client? i with
  | none => (s, [])
  | some c =>
    if !c.live then (s, [])
    else
      match m.refusal? with
      | some reason => (s.count (·.addDropped 1), [.refused i reason m.name])
      | none => s.sample i c m

/-- Send what has been joined so far, for a client. -/
def flush (s : Session σ) (i : Nat) : Session σ × List Event :=
  match s.client? i with
  | none => (s, [])
  | some c =>
    if !c.live then (s, [])
    else
      let (sink, attempts) := s.sink.flush
      { s with sink }.report i c attempts

/-- Give a client up; it flushes first. -/
def drop (s : Session σ) (i : Nat) : Session σ × List Event :=
  let (s, events) := s.flush i
  (s.setClient i none, events)

/-- Make a client whose prefix has `sub` behind that of another one. -/
def derive (s : Session σ) (i : Nat) (sub : Prefix) : Session σ :=
  match s.client? i with
  | none => s
  | some c =>
    let child : Client := { scope := c.scope.join sub, live := c.live, born := s.clock, reported := none }
    { s with clients := s.clients ++ [some child] }

/-- Start a span on a client. -/
def startSpan (s : Session σ) (i : Nat) (name : String) : Session σ :=
  let span : Span := { client := i, name, rate := Binary64.one, start := s.clock, finished := false }
  { s with spans := s.spans ++ [span] }

/-- Change a span. -/
def setSpan (s : Session σ) (k : Nat) (span : Span) : Session σ :=
  { s with spans := s.spans.set k span }

/-- Send a span's duration, unless the span is finished. -/
def finish (s : Session σ) (k : Nat) : Session σ × List Event :=
  match s.spans[k]? with
  | none => (s, [])
  | some span =>
    if span.finished then (s, [])
    else
      let elapsed := Duration.ofNanos (s.clock - span.start)
      let metric : Metric := ⟨span.name, .duration elapsed, span.rate⟩
      (s.setSpan k { span with finished := true }).emit span.client metric

/-- Mark a span as finished without sending anything. -/
def cancel (s : Session σ) (k : Nat) : Session σ :=
  match s.spans[k]? with
  | none => s
  | some span => s.setSpan k { span with finished := true }

/-- End a span. Whatever ends it, leaving its scope finishes it once more. -/
def endSpan (s : Session σ) (k : Nat) : Ending → Session σ × List Event
  | .send =>
    let (s, events) := s.finish k
    let (s, more) := s.finish k
    (s, events ++ more)
  | .cancel => (s.cancel k).finish k
  | .drop => s.finish k
  | .panic => s.finish k

/-- Let time pass. -/
def wait (s : Session σ) (nanos : Nat) : Session σ :=
  { s with
    clock := s.clock + nanos
    sink := { s.sink with transport := Transport.wait s.sink.transport nanos } }

/-! ## Runs -/

/-- One operation. An operation on a client that is not there does nothing. -/
def step (s : Session σ) : Op → Session σ × List Event
  | .emit i m => s.emit i m
  | .abandon _ _ => (s, [])
  | .flush i => s.flush i
  | .drop i => s.drop i
  | .derive i sub =>
    match Prefix.parse sub with
    | .ok p => (s.derive i p, [])
    | .error _ => (s, [])
  | .startSpan i name => (s.startSpan i name, [])
  | .rateSpan k rate =>
    match s.spans[k]? with
    | none => (s, [])
    | some span => (s.setSpan k { span with rate }, [])
  | .endSpan k ending => s.endSpan k ending
  | .wait nanos => (s.wait nanos, [])

/-- A sequence of operations. -/
def run (s : Session σ) : List Op → Session σ × List Event
  | [] => (s, [])
  | op :: rest =>
    let (s, events) := s.step op
    let (s, more) := s.run rest
    (s, events ++ more)

/-- The operations that give up all clients there are, in order. -/
def dropAll (s : Session σ) : List Op :=
  (List.range s.clients.length).map Op.drop

end Session

end Statsd

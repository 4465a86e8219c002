import Statsd.Sink

/-!
# Statsd.Proofs.Sink.Request — a sink as a machine, and its batch apart

Everything that a session does with its sink is one of five requests. Two
things are known of a request before anything is said about what it is good for:

* **The batch does not see the transport** (`handle_batch`): which packets are
  attempted, and what is kept, is a function of the batch and the limit alone
  (`Batch.handle`), so it is the same whichever packets fail (`trace_eq`).
* **The counters are read off the attempts** (`handle_counters`): apart from
  them a request counts a refusal or a metric left out, and nothing else.
-/

namespace Statsd

/-- What can be asked of a sink. -/
inductive Request where
  /-- Take a message. -/
  | emit (m : Packet)
  /-- Send what has been joined. -/
  | flush
  /-- Count a metric that was refused. -/
  | refuse
  /-- Count a metric that sampling left out. -/
  | leaveOut
  /-- Let so many nanoseconds pass. -/
  | wait (nanos : Nat)
deriving DecidableEq

namespace Request

/-- The message of a request, if it has one. -/
def message? : Request → Option Packet
  | .emit m => some m
  | _ => none

/-- The messages of some requests, in order. -/
def messages (requests : List Request) : List Packet := requests.filterMap message?

theorem messages_cons (r : Request) (rest : List Request) :
    messages (r :: rest) = r.message?.toList ++ messages rest := by
  cases r with
  | emit m => rfl
  | flush => rfl
  | refuse => rfl
  | leaveOut => rfl
  | wait nanos => rfl

theorem messages_append (rs rs' : List Request) :
    messages (rs ++ rs') = messages rs ++ messages rs' := List.filterMap_append

/-- What a request counts by itself, whatever packets it makes the sink attempt. -/
def count (c : Counters) : Request → Counters
  | .refuse => c.addDropped 1
  | .leaveOut => c.addSampledOut
  | _ => c

end Request

/-! ## The batch -/

namespace Batch

/-- What a request does to a batch: the batch afterwards, and the packets that
go out. Without a limit nothing is kept and every message is a packet. -/
def handle (limit : Option Nat) (b : Batch) : Request → Batch × List Packet
  | .emit m =>
    match limit with
    | none => (b, [m])
    | some limit => b.push limit m
  | .flush =>
    match limit with
    | none => (b, [])
    | some _ => b.flush
  | _ => (b, [])

/-- Some requests, one after the other. -/
def handleAll (limit : Option Nat) (b : Batch) : List Request → Batch × List Packet
  | [] => (b, [])
  | r :: rest =>
    let (b, sent) := b.handle limit r
    let (b, more) := handleAll limit b rest
    (b, sent ++ more)

end Batch

/-! ## The sink -/

namespace Sink

variable {σ τ : Type} [Transport σ] [Transport τ]

/-- What a request does to a sink, and the packets that it attempts. -/
def handle (s : Sink σ) : Request → Sink σ × List Attempt
  | .emit m => s.emit m
  | .flush => s.flush
  | .refuse => ({ s with counters := s.counters.addDropped 1 }, [])
  | .leaveOut => ({ s with counters := s.counters.addSampledOut }, [])
  | .wait nanos => ({ s with transport := Transport.wait s.transport nanos }, [])

/-- Some requests, one after the other. -/
def handleAll (s : Sink σ) : List Request → Sink σ × List Attempt
  | [] => (s, [])
  | r :: rest =>
    let (s, attempts) := s.handle r
    let (s, more) := s.handleAll rest
    (s, attempts ++ more)

/-- What can be seen of the batch in the course of some requests: after each,
the packets that it attempted and what is kept. -/
def trace (s : Sink σ) : List Request → List (List Packet × Batch)
  | [] => []
  | r :: rest =>
    let (s, attempts) := s.handle r
    (attempts.map (·.packet), s.batch) :: s.trace rest

theorem handleAll_append (s : Sink σ) (rs rs' : List Request) :
    s.handleAll (rs ++ rs') =
      (((s.handleAll rs).1.handleAll rs').1,
        (s.handleAll rs).2 ++ ((s.handleAll rs).1.handleAll rs').2) := by
  induction rs generalizing s with
  | nil => rfl
  | cons r rs ih => simp only [List.cons_append, handleAll, ih, List.append_assoc]

/-! ### Attempts -/

/-- Attempting packets touches neither the batch nor the limit, and every packet is attempted. -/
theorem attemptAll_frame (s : Sink σ) (packets : List Packet) :
    (s.attemptAll packets).1.batch = s.batch ∧ (s.attemptAll packets).1.limit = s.limit ∧
      (s.attemptAll packets).2.map (·.packet) = packets := by
  induction packets generalizing s with
  | nil => exact ⟨rfl, rfl, rfl⟩
  | cons p rest ih =>
      have h := ih (s.attempt p).1
      refine ⟨h.1, h.2.1, ?_⟩
      simp only [attemptAll, List.map_cons, h.2.2]
      rfl

/-- Attempting packets counts each of them as sent or as lost. -/
theorem attemptAll_counters (s : Sink σ) (packets : List Packet) :
    (s.attemptAll packets).1.counters =
      (s.attemptAll packets).2.foldl Counters.addAttempt s.counters := by
  induction packets generalizing s with
  | nil => rfl
  | cons p rest ih =>
      simp only [attemptAll, List.foldl_cons]
      exact ih (s.attempt p).1

/-! ### One request -/

/-- A sink as a request finds it when it comes to attempt its packets. -/
def ready (s : Sink σ) (r : Request) : Sink σ :=
  { s with
    batch := (s.batch.handle s.limit r).1
    transport := match r with
      | .wait nanos => Transport.wait s.transport nanos
      | _ => s.transport
    counters := Request.count s.counters r }

/-- A request is done by attempting what leaves the batch. -/
theorem handle_eq (s : Sink σ) (r : Request) :
    s.handle r = (s.ready r).attemptAll (s.batch.handle s.limit r).2 := by
  rcases s with ⟨limit, batch, transport, counters⟩
  cases r with
  | emit m =>
      cases limit with
      | none => rfl
      | some limit => rfl
  | flush =>
      cases limit with
      | none => rfl
      | some limit => rfl
  | refuse => rfl
  | leaveOut => rfl
  | wait nanos => rfl

/-- The batch of a sink goes its own way. -/
theorem handle_batch (s : Sink σ) (r : Request) :
    (s.handle r).1.batch = (s.batch.handle s.limit r).1 ∧ (s.handle r).1.limit = s.limit ∧
      (s.handle r).2.map (·.packet) = (s.batch.handle s.limit r).2 := by
  rw [handle_eq]
  exact attemptAll_frame (s.ready r) _

/-- A request counts what it is about and then its attempts. -/
theorem handle_counters (s : Sink σ) (r : Request) :
    (s.handle r).1.counters =
      (s.handle r).2.foldl Counters.addAttempt (Request.count s.counters r) := by
  rw [handle_eq]
  exact attemptAll_counters (s.ready r) _

/-! ### Some requests -/

section Invariant

variable {R : σ → List Attempt → Prop}

theorem attemptAll_invariant
    (hsend : ∀ (s : Sink σ) (past : List Attempt) (p : Packet), R s.transport past →
      R (s.attempt p).1.transport (past ++ [(s.attempt p).2]))
    {s : Sink σ} {past : List Attempt} (h : R s.transport past) (packets : List Packet) :
    R (s.attemptAll packets).1.transport (past ++ (s.attemptAll packets).2) := by
  induction packets generalizing s past with
  | nil =>
      rw [show (s.attemptAll []).2 = [] from rfl, List.append_nil]
      exact h
  | cons p rest ih =>
      have hrest := ih (hsend s past p h)
      rw [List.append_assoc] at hrest
      exact hrest

/-- What ties a transport to the packets attempted so far holds after any
requests, if every send and every wait keeps it. -/
theorem handleAll_invariant
    (hsend : ∀ (s : Sink σ) (past : List Attempt) (p : Packet), R s.transport past →
      R (s.attempt p).1.transport (past ++ [(s.attempt p).2]))
    (hwait : ∀ (t : σ) (past : List Attempt) (nanos : Nat), R t past →
      R (Transport.wait t nanos) past)
    {s : Sink σ} {past : List Attempt} (h : R s.transport past) (requests : List Request) :
    R (s.handleAll requests).1.transport (past ++ (s.handleAll requests).2) := by
  induction requests generalizing s past with
  | nil =>
      rw [show (s.handleAll []).2 = [] from rfl, List.append_nil]
      exact h
  | cons r rest ih =>
      have hready : R (s.ready r).transport past := by
        cases r with
        | wait nanos => exact hwait s.transport past nanos h
        | emit m => exact h
        | flush => exact h
        | refuse => exact h
        | leaveOut => exact h
      have hr := attemptAll_invariant hsend hready (s.batch.handle s.limit r).2
      rw [← handle_eq] at hr
      have hrest := ih hr
      rw [List.append_assoc] at hrest
      exact hrest

end Invariant

theorem handleAll_batch (s : Sink σ) (requests : List Request) :
    (s.handleAll requests).1.batch = (s.batch.handleAll s.limit requests).1 ∧
      (s.handleAll requests).1.limit = s.limit ∧
      (s.handleAll requests).2.map (·.packet) = (s.batch.handleAll s.limit requests).2 := by
  induction requests generalizing s with
  | nil => exact ⟨rfl, rfl, rfl⟩
  | cons r rest ih =>
      have hr := handle_batch s r
      have hrest := ih (s.handle r).1
      rw [hr.1, hr.2.1] at hrest
      refine ⟨hrest.1, hrest.2.1, ?_⟩
      simp only [handleAll, Batch.handleAll, List.map_append, hr.2.2, hrest.2.2]

/-- Two sinks with one limit and one batch attempt the same packets and keep the
same, whatever becomes of the packets. -/
theorem trace_eq {s : Sink σ} {u : Sink τ} (hlimit : s.limit = u.limit) (hbatch : s.batch = u.batch)
    (requests : List Request) : s.trace requests = u.trace requests := by
  induction requests generalizing s u with
  | nil => rfl
  | cons r rest ih =>
      have hs := handle_batch s r
      have hu := handle_batch u r
      have hb : (s.handle r).1.batch = (u.handle r).1.batch := by rw [hs.1, hu.1, hlimit, hbatch]
      have hp : (s.handle r).2.map (·.packet) = (u.handle r).2.map (·.packet) := by
        rw [hs.2.2, hu.2.2, hlimit, hbatch]
      have hl : (s.handle r).1.limit = (u.handle r).1.limit := by rw [hs.2.1, hu.2.1, hlimit]
      simp only [trace, hp, hb, ih hl hb]

end Sink

end Statsd

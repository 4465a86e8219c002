import Statsd.Proofs.Sink.Request

/-!
# Statsd.Proofs.Sink.Answer — what a call on a sink answers

A call attempts its packets one after the other, and a failure does not keep the
next one back. The caller hears of one failure only.

* `Sink.emitAnswered` and `Sink.flushAnswered` are the calls branch by branch, with
  the answer that each branch passes on.
* The answer is an error exactly if a packet failed, and then the failure of the
  first that did (`Attempt.Answers`, `Sink.emitAnswered_eq`, `Sink.flushAnswered_eq`).
-/

namespace Statsd

namespace Attempt

/-- The failure of the first packet that failed, as the answer to a call. -/
def answer (attempts : List Attempt) : Except Failure Unit :=
  match firstFailure? attempts with
  | none => .ok ()
  | some e => .error e

/-- An answer that tells of the first failure among some attempts. -/
structure Answers (attempts : List Attempt) (answer : Except Failure Unit) : Prop where
  /-- It is an error exactly if a packet failed. -/
  failed : (∃ e, answer = .error e) ↔ ∃ a ∈ attempts, a.failure? ≠ none
  /-- The error is the failure of the first packet that failed. -/
  first : ∀ e, answer = .error e ↔
    ∃ before a after, attempts = before ++ a :: after ∧
      (∀ b ∈ before, b.failure? = none) ∧ a.failure? = some e

/-- Some packet failed, or none did. -/
theorem firstFailure_cases (attempts : List Attempt) :
    (firstFailure? attempts = none ∧ ∀ a ∈ attempts, a.failure? = none) ∨
      ∃ e, firstFailure? attempts = some e ∧ ∃ a ∈ attempts, a.failure? ≠ none := by
  cases hfirst : firstFailure? attempts with
  | none =>
      left
      exact ⟨rfl, List.findSome?_eq_none_iff.mp hfirst⟩
  | some e =>
      right
      obtain ⟨a, ha, hfailed⟩ := List.exists_of_findSome?_eq_some hfirst
      refine ⟨e, rfl, a, ha, ?_⟩
      rw [hfailed]
      exact Option.some_ne_none e

theorem answer_error_iff (attempts : List Attempt) (e : Failure) :
    answer attempts = .error e ↔ firstFailure? attempts = some e := by
  unfold answer
  cases firstFailure? attempts with
  | none => simp
  | some e' => simp

theorem answer_answers (attempts : List Attempt) : Answers attempts (answer attempts) := by
  constructor
  · simp only [answer_error_iff]
    rcases firstFailure_cases attempts with ⟨hfirst, hsent⟩ | ⟨e, hfirst, hfailed⟩
    · rw [hfirst]
      constructor
      · rintro ⟨e, he⟩
        cases he
      · rintro ⟨a, ha, hfailed⟩
        exact absurd (hsent a ha) hfailed
    · exact ⟨fun _ => hfailed, fun _ => ⟨e, hfirst⟩⟩
  · intro e
    rw [answer_error_iff, firstFailure?, List.findSome?_eq_some_iff]
    constructor
    · rintro ⟨before, a, after, heq, ha, hbefore⟩
      exact ⟨before, a, after, heq, hbefore, ha⟩
    · rintro ⟨before, a, after, heq, hbefore, ha⟩
      exact ⟨before, a, after, heq, ha, hbefore⟩

/-- The answer to some attempts is that of the first one, if it failed. -/
theorem answer_cons (a : Attempt) (rest : List Attempt) :
    answer (a :: rest) = (answer [a]).bind fun _ => answer rest := by
  unfold answer firstFailure?
  cases ha : a.failure? with
  | none => simp [ha, Except.bind]
  | some e => simp [ha, Except.bind]

end Attempt

namespace Sink

variable {σ : Type} [Transport σ]

/-- Give one packet to the transport, and pass its answer on. -/
def sendAnswered (s : Sink σ) (p : Packet) : Sink σ × Except Failure Unit :=
  ((s.attempt p).1, (Transport.send s.transport p.data).2)

/-- Take a message, with the answer to the caller. If the batch goes out first, its
failure comes before that of the message. -/
def emitAnswered (s : Sink σ) (m : Packet) : Sink σ × Except Failure Unit :=
  match s.limit with
  | none => s.sendAnswered m
  | some limit =>
    let (s, pushed) :=
      if s.batch.fits limit m then (s, .ok ())
      else sendAnswered { s with batch := Batch.empty } s.batch.packet
    if limit ≤ m.data.size then
      let (s, sent) := s.sendAnswered m
      (s, pushed.bind fun _ => sent)
    else ({ s with batch := s.batch.append m }, pushed)

/-- Send what has been joined so far, with the answer to the caller. -/
def flushAnswered (s : Sink σ) : Sink σ × Except Failure Unit :=
  match s.limit with
  | none => (s, .ok ())
  | some _ =>
    if s.batch.isEmpty then (s, .ok ())
    else sendAnswered { s with batch := Batch.empty } s.batch.packet

theorem attempt_answer (s : Sink σ) (p : Packet) :
    Attempt.answer [(s.attempt p).2] = (s.sendAnswered p).2 := by
  cases hanswer : (Transport.send s.transport p.data).2 with
  | ok _ => simp [Attempt.answer, Attempt.firstFailure?, attempt, sendAnswered, hanswer]
  | error e => simp [Attempt.answer, Attempt.firstFailure?, attempt, sendAnswered, hanswer]

/-- The answer of a call is that of its attempts. -/
theorem emitAnswered_eq (s : Sink σ) (m : Packet) :
    s.emitAnswered m = ((s.emit m).1, Attempt.answer (s.emit m).2) := by
  obtain ⟨limit, batch, transport, counters⟩ := s
  cases limit with
  | none =>
      rw [show Attempt.answer (emit ⟨none, batch, transport, counters⟩ m).2 = _ from
        attempt_answer ⟨none, batch, transport, counters⟩ m]
      rfl
  | some limit =>
      unfold emitAnswered emit Batch.push
      dsimp only
      cases hfits : batch.fits limit m with
      | true =>
          by_cases hlarge : limit ≤ m.data.size
          · -- the message alone
            simp only [hlarge, if_true, List.nil_append, attemptAll]
            rw [attempt_answer]
            rfl
          · simp only [hlarge, if_true, if_false, attemptAll]
            rfl
      | false =>
          by_cases hlarge : limit ≤ m.data.size
          · -- the batch, and then the message
            simp only [hlarge, Bool.false_eq_true, if_true, if_false, List.singleton_append,
              attemptAll]
            rw [Attempt.answer_cons, attempt_answer, attempt_answer]
            rfl
          · simp only [hlarge, Bool.false_eq_true, if_false, attemptAll]
            rw [attempt_answer]
            rfl

theorem flushAnswered_eq (s : Sink σ) :
    s.flushAnswered = (s.flush.1, Attempt.answer s.flush.2) := by
  obtain ⟨limit, batch, transport, counters⟩ := s
  cases limit with
  | none => rfl
  | some limit =>
      unfold flushAnswered flush Batch.flush
      dsimp only
      cases hempty : batch.isEmpty with
      | true => rfl
      | false =>
          simp only [Bool.false_eq_true, if_false, attemptAll]
          rw [attempt_answer]
          rfl

/-- A message that does not fit and is as large as a packet makes two attempts:
that of the batch and its own. -/
theorem emit_both {s : Sink σ} {limit : Nat} {m : Packet} (hlimit : s.limit = some limit)
    (hfits : s.batch.fits limit m = false) (hlarge : limit ≤ m.data.size) :
    (s.emit m).2.map (·.packet) = [s.batch.packet, m] := by
  have hpackets := (s.handle_batch (.emit m)).2.2
  simpa only [handle, Batch.handle, hlimit, Batch.push, hfits, hlarge, Bool.false_eq_true,
    if_false, if_true, List.singleton_append] using hpackets

end Sink

end Statsd

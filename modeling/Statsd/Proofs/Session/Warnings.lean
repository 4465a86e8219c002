import Statsd.Proofs.Session.Draws
import Statsd.Proofs.Sink.Answer
import Statsd.Stream.Link

/-!
# Statsd.Proofs.Session.Warnings — who hears of a packet that failed

A packet may hold lines of many clients, but it is attempted in the course of a
call on one of them. That client hears of its failure, and warns of the first
that it hears of in a window.

* **Step**: `step_told` says what an operation can do to what clients have
  reported. In the first window of the session a client has reported something
  exactly if a packet failed in a call on it (`Recorded`), and `step_recorded`
  keeps this.
* **Run**: `run_recorded` carries it over a run, and `warned_once` counts the warnings.
-/

namespace Statsd

/-! ## Warnings -/

namespace Event

/-- The client that warned. -/
def warner? : Event → Option Nat
  | .warned i => some i
  | _ => none

/-- The clients that warned, once for each warning, in order. -/
def warners (events : List Event) : List Nat := events.filterMap warner?

theorem warners_append (es es' : List Event) :
    warners (es ++ es') = warners es ++ warners es' := List.filterMap_append

theorem warners_map (i : Nat) (as : List Attempt) :
    warners (as.map (Event.attempted i)) = [] := by
  induction as with
  | nil => rfl
  | cons a as ih => exact ih

/-- There is a log entry for every warning. -/
theorem count_sendFailed (events : List Event) :
    (events.filterMap log?).count .sendFailed = (warners events).length := by
  induction events with
  | nil => rfl
  | cons event rest ih =>
      cases event with
      | warned i =>
          show (LogEntry.sendFailed :: rest.filterMap log?).count .sendFailed =
            (i :: warners rest).length
          rw [List.count_cons_self, List.length_cons, ih]
      | refused i reason name =>
          cases reason with
          | emptyName =>
              show (LogEntry.emptyName :: rest.filterMap log?).count .sendFailed = _
              rw [List.count_cons_of_ne (by decide)]
              exact ih
          | reservedMember =>
              have hne : LogEntry.reservedMember name ≠ .sendFailed := by
                intro h
                cases h
              show (LogEntry.reservedMember name :: rest.filterMap log?).count .sendFailed = _
              rw [List.count_cons_of_ne hne]
              exact ih
      | drew i => exact ih
      | sampledOut i => exact ih
      | emitted i m => exact ih
      | attempted i a => exact ih

end Event

/-- In the first window of a session every client is in the first of its life. -/
theorem Client.window_first (c : Client) {now : Nat} (h : now < reportWindow) :
    c.window now = 0 := Nat.div_eq_of_lt (by omega)

namespace Session

variable {σ : Type}

/-! ### Calls -/

/-- A call on client `i` tells of its attempts. If all packets went out, nothing else
has happened to the clients; otherwise the client has reported in its window, and has
warned unless it had reported there before. -/
inductive Told (s : Session σ) (i : Nat) (x : Session σ × List Event) : Prop where
  | quiet (hsent : ∀ a ∈ Event.attempts x.2, a.failure? = none) (hclients : x.1.clients = s.clients)
      (hwarners : Event.warners x.2 = [])
  | failed (c : Client) (hc : s.client? i = some c)
      (hfailed : ∃ a ∈ Event.attempts x.2, a.failure? ≠ none)
      (hclients : x.1.clients =
        s.clients.set i (some { c with reported := some (c.window s.clock) }))
      (hwarners : Event.warners x.2 = if c.reported = some (c.window s.clock) then [] else [i])

/-- A call is told in the same way from any session with these clients at this time. -/
theorem Told.congr {s s' : Session σ} {i : Nat} {x : Session σ × List Event} (h : Told s' i x)
    (hclients : s'.clients = s.clients) (hclock : s'.clock = s.clock) : Told s i x := by
  have hclient : s'.client? i = s.client? i := by rw [client?, client?, hclients]
  cases h with
  | quiet hsent hsame hwarners => exact .quiet hsent (hsame.trans hclients) hwarners
  | failed c hc hfailed hset hwarners =>
      rw [hclients, hclock] at hset
      rw [hclock] at hwarners
      exact .failed c (hclient.symm.trans hc) hfailed hset hwarners

/-- What is neither an attempt nor a warning may come in front. -/
theorem Told.cons {s : Session σ} {i : Nat} {x : Session σ × List Event} (h : Told s i x)
    {front : List Event} (hattempts : Event.attempts front = [])
    (hwarners : Event.warners front = []) : Told s i (x.1, front ++ x.2) := by
  have ha : Event.attempts (front ++ x.2) = Event.attempts x.2 := by
    rw [Event.attempts_append, hattempts, List.nil_append]
  have hw : Event.warners (front ++ x.2) = Event.warners x.2 := by
    rw [Event.warners_append, hwarners, List.nil_append]
  cases h with
  | quiet hsent hclients hnone =>
      exact .quiet (by rw [ha]; exact hsent) hclients (hw.trans hnone)
  | failed c hc hfailed hclients hwarned =>
      exact .failed c hc (by rw [ha]; exact hfailed) hclients (hw.trans hwarned)

theorem told_idle (s : Session σ) (i : Nat) : Told s i (s, []) :=
  .quiet (fun _ h => absurd h List.not_mem_nil) rfl rfl

theorem report_told (s : Session σ) {i : Nat} {c : Client} (hc : s.client? i = some c)
    (attempts : List Attempt) : Told s i (s.report i c attempts) := by
  have hshown : Event.attempts (s.report i c attempts).2 = attempts :=
    (s.report_spec hc attempts).2.2.1
  rcases Attempt.firstFailure_cases attempts with ⟨hfirst, hsent⟩ | ⟨e, hfirst, hfailed⟩
  · refine .quiet (by rw [hshown]; exact hsent) ?_ ?_
    · simp only [report, hfirst]
    · simp only [report, hfirst, Event.warners_map]
  · refine .failed c hc (by rw [hshown]; exact hfailed) ?_ ?_
    · simp only [report, hfirst, setClient]
    · simp only [report, hfirst]
      split
      · exact Event.warners_map i attempts
      · rw [Event.warners_append, Event.warners_map]
        rfl

/-! ### The first window -/

/-- In the first window a client has reported something exactly if a packet failed in
a call on it, which `failed` tells. A client that has not been made has not failed. -/
structure Recorded (s : Session σ) (i : Nat) (failed : Prop) : Prop where
  silent : ¬ failed → ∀ c, s.client? i = some c → c.reported = none
  reported : failed → ∀ c, s.client? i = some c → c.reported = some 0
  made : failed → i < s.clients.length

section Recorded

variable {s s' : Session σ} {i : Nat} {failed : Prop}

/-- A client stays recorded if it is left alone or dropped. -/
theorem Recorded.of_client (h : s.Recorded i failed)
    (hclient : s'.client? i = s.client? i ∨ s'.client? i = none)
    (hlength : s.clients.length ≤ s'.clients.length) : s'.Recorded i failed := by
  have hback : ∀ c, s'.client? i = some c → s.client? i = some c := by
    intro c hc
    rcases hclient with hsame | hgone
    · exact hsame ▸ hc
    · rw [hgone] at hc
      cases hc
  constructor
  · intro hnot c hc
    exact h.silent hnot c (hback c hc)
  · intro hfailed c hc
    exact h.reported hfailed c (hback c hc)
  · intro hfailed
    exact Nat.lt_of_lt_of_le (h.made hfailed) hlength

theorem Recorded.of_clients (h : s.Recorded i failed) (hclients : s'.clients = s.clients) :
    s'.Recorded i failed := by
  have hlength : s'.clients.length = s.clients.length := congrArg List.length hclients
  apply h.of_client _ (Nat.le_of_eq hlength.symm)
  left
  rw [client?, client?, hclients]

/-- A new client has reported nothing, and none of its calls can have failed. -/
theorem Recorded.of_append (h : s.Recorded i failed) {child : Client}
    (hchild : child.reported = none) (hclients : s'.clients = s.clients ++ [some child]) :
    s'.Recorded i failed := by
  have hlength : s'.clients.length = s.clients.length + 1 := by
    rw [hclients, List.length_append, List.length_singleton]
  rcases Nat.lt_trichotomy i s.clients.length with hlt | heq | hgt
  · have hsame : s'.client? i = s.client? i := by
      rw [client?, client?, hclients, List.getElem?_append_left hlt]
    exact h.of_client (Or.inl hsame) (by omega)
  · have hnew : s'.client? i = some child := by
      rw [client?, hclients, heq, List.getElem?_concat_length]
      rfl
    constructor
    · intro _ c hc
      rw [hnew] at hc
      cases hc
      exact hchild
    · intro hfailed
      exact absurd (h.made hfailed) (by omega)
    · intro hfailed
      exact absurd (h.made hfailed) (by omega)
  · have hnone : s'.client? i = none := by
      rw [client?, List.getElem?_eq_none (by omega)]
      rfl
    exact h.of_client (Or.inr hnone) (by omega)

/-- A call that changes the record of its client leaves the others alone. -/
theorem client?_set_ne {j : Nat} {slot : Option Client} (hji : j ≠ i)
    (hclients : s'.clients = s.clients.set j slot) : s'.client? i = s.client? i := by
  rw [client?, client?, hclients, List.getElem?_set_ne hji]

/-- Dropping a client keeps the records. -/
theorem Recorded.of_drop (h : s.Recorded i failed) {j : Nat}
    (hclients : s'.clients = s.clients.set j none) : s'.Recorded i failed := by
  have hlength : s'.clients.length = s.clients.length := by rw [hclients, List.length_set]
  apply h.of_client _ (Nat.le_of_eq hlength.symm)
  by_cases hji : j = i
  · right
    subst hji
    rw [client?, hclients, List.getElem?_set]
    split
    · split
      · rfl
      · rfl
    · contradiction
  · left
    exact client?_set_ne hji hclients

/-- What a call tells in the first window: the record of its client, if a packet fails
in it, and one warning, if none has failed in a call on that client before. -/
theorem Told.recorded {j : Nat} {x : Session σ × List Event} (h : Told s j x)
    (hclock : s.clock < reportWindow) (hrecorded : s.Recorded i failed) :
    let fails := j = i ∧ ∃ a ∈ Event.attempts x.2, a.failure? ≠ none
    x.1.Recorded i (failed ∨ fails) ∧
      (fails ∧ ¬ failed → Event.warners x.2 = [i]) ∧
      (¬ (fails ∧ ¬ failed) → i ∉ Event.warners x.2) := by
  intro fails
  cases h with
  | quiet hsent hclients hwarners =>
      have hnot : ¬ fails := by
        rintro ⟨-, a, ha, hfailed⟩
        exact hfailed (hsent a ha)
      rw [or_iff_left hnot, hwarners]
      refine ⟨hrecorded.of_clients hclients, ?_, ?_⟩
      · rintro ⟨hfails, -⟩
        exact absurd hfails hnot
      · intro _
        exact List.not_mem_nil
  | failed c hc hfailed hclients hwarners =>
      rw [c.window_first hclock] at hclients hwarners
      have hlength : x.1.clients.length = s.clients.length := by
        rw [hclients, List.length_set]
      by_cases hji : j = i
      · subst hji
        have hfails : fails := ⟨rfl, hfailed⟩
        have hlt : j < s.clients.length :=
          (List.getElem?_eq_some_iff.mp (Option.join_eq_some_iff.mp hc)).1
        have hset : x.1.client? j = some { c with reported := some 0 } := by
          rw [client?, hclients, List.getElem?_set_self hlt]
          rfl
        refine ⟨⟨?_, ?_, ?_⟩, ?_, ?_⟩
        · intro hnot
          exact absurd (Or.inr hfails) hnot
        · intro _ c' hc'
          rw [hset] at hc'
          cases hc'
          rfl
        · intro _
          omega
        · rintro ⟨-, hfirst⟩
          rw [hwarners, hrecorded.silent hfirst c hc]
          rfl
        · intro hlater
          have hbefore : failed := by
            by_contra hfirst
            exact hlater ⟨hfails, hfirst⟩
          rw [hwarners, hrecorded.reported hbefore c hc, if_pos rfl]
          exact List.not_mem_nil
      · -- the record of another client
        have hnot : ¬ fails := fun hfails => hji hfails.1
        rw [or_iff_left hnot]
        refine ⟨hrecorded.of_client (Or.inl (client?_set_ne hji hclients)) (by omega), ?_, ?_⟩
        · rintro ⟨hfails, -⟩
          exact absurd hfails hnot
        · intro _ hmem
          rw [hwarners] at hmem
          split at hmem
          · cases hmem
          · exact hji (List.mem_singleton.mp hmem).symm

end Recorded

/-! ### Calls on a client -/

variable [Transport σ]

theorem flush_told (s : Session σ) (i : Nat) : Told s i (s.flush i) := by
  unfold flush
  cases hc : s.client? i with
  | none => exact told_idle s i
  | some c =>
      dsimp only
      split
      · exact told_idle s i
      · exact (report_told { s with sink := s.sink.flush.1 } hc _).congr rfl rfl

theorem write_told (s : Session σ) {i : Nat} {c : Client} (hc : s.client? i = some c)
    (message : Packet) : Told s i (s.write i c message) := by
  have hreport := report_told { s with sink := (s.sink.emit message).1 } hc (s.sink.emit message).2
  have hattempts : Event.attempts [.emitted i message] = [] := rfl
  exact (hreport.cons hattempts rfl).congr rfl rfl

theorem emit_told (s : Session σ) (i : Nat) (m : Metric) : Told s i (s.emit i m) := by
  unfold emit
  cases hc : s.client? i with
  | none => exact told_idle s i
  | some c =>
      dsimp only
      split
      · exact told_idle s i
      · cases m.refusal? with
        | some reason => exact .quiet (fun _ h => absurd h List.not_mem_nil) rfl rfl
        | none =>
            -- a draw is neither an attempt nor a warning
            let drawn := if Binary64.one ≤ m.rate then [] else [Event.drew i]
            have hattempts : Event.attempts drawn = [] := by
              simp only [drawn]
              split
              · rfl
              · rfl
            have hwarners : Event.warners drawn = [] := by
              simp only [drawn]
              split
              · rfl
              · rfl
            have hkept := write_told { s with draws := (sampled m.rate s.draws).2 } hc
              (m.message c.scope)
            simp only [sample]
            split
            · exact (hkept.cons hattempts hwarners).congr rfl rfl
            · refine .quiet ?_ rfl ?_
              · intro a ha
                have hnone : Event.attempts (drawn ++ [.sampledOut i]) = [] := by
                  rw [Event.attempts_append, hattempts]
                  rfl
                rw [hnone] at ha
                cases ha
              · rw [Event.warners_append, hwarners]
                rfl

/-- A span that ends for the first time makes a call on its client. -/
theorem finish_told (s : Session σ) {k i : Nat} {m : Metric}
    (h : s.sends? (.endSpan k .drop) = some (i, m)) : Told s i (s.finish k) := by
  obtain ⟨spans, hfinish⟩ := finish_of_sends h
  rw [hfinish]
  exact (emit_told { s with spans } i m).congr rfl rfl

/-! ### One operation -/

omit [Transport σ] in
/-- The client on which an operation makes a call, if it makes one: a metric is sent,
a span ends, or the client is flushed or dropped. -/
def caller? (s : Session σ) : Op → Option Nat
  | .flush i => some i
  | .drop i => some i
  | op => (s.sends? op).map (·.1)

/-- An operation is a call on client `i` in which a packet fails. -/
def Fails (s : Session σ) (op : Op) (i : Nat) : Prop :=
  s.caller? op = some i ∧ ∃ a ∈ Event.attempts (s.step op).2, a.failure? ≠ none

/-- Among some operations there is a call on client `i` in which a packet fails. -/
def Failed (s : Session σ) (ops : List Op) (i : Nat) : Prop :=
  ∃ before op after, ops = before ++ op :: after ∧ (s.run before).1.Fails op i

/-- All that an operation does to what clients have reported: without a call a
client may be new, and has reported nothing; after a call its client may be gone. -/
theorem step_told (s : Session σ) (op : Op) :
    (s.caller? op = none ∧ (s.step op).2 = [] ∧
      ((s.step op).1.clients = s.clients ∨
        ∃ child : Client, child.reported = none ∧
          (s.step op).1.clients = s.clients ++ [some child])) ∨
    ∃ i x, s.caller? op = some i ∧ Told s i x ∧ (s.step op).2 = x.2 ∧
      ((s.step op).1.clients = x.1.clients ∨
        (s.step op).1.clients = x.1.clients.set i none) := by
  cases op with
  | emit i m => exact Or.inr ⟨i, s.emit i m, rfl, emit_told s i m, rfl, Or.inl rfl⟩
  | flush i => exact Or.inr ⟨i, s.flush i, rfl, flush_told s i, rfl, Or.inl rfl⟩
  | drop i => exact Or.inr ⟨i, s.flush i, rfl, flush_told s i, rfl, Or.inr rfl⟩
  | endSpan k ending =>
      by_cases hcancel : ending = .cancel
      · subst hcancel
        have hclients : (s.cancel k).clients = s.clients := by
          unfold cancel
          split
          · rfl
          · rfl
        have hstep : s.step (.endSpan k .cancel) = (s.cancel k, []) := endSpan_cancel s k
        rw [hstep]
        exact Or.inl ⟨rfl, rfl, Or.inl hclients⟩
      · have hstep : s.step (.endSpan k ending) = s.finish k := endSpan_eq_finish s k hcancel
        have hcaller : s.caller? (.endSpan k ending) =
            (s.sends? (.endSpan k .drop)).map (·.1) := by
          rw [← sends?_endSpan s k hcancel]
          rfl
        rw [hstep, hcaller]
        cases hdrop : s.sends? (.endSpan k .drop) with
        | none =>
            rw [finish_of_silent hdrop]
            exact Or.inl ⟨rfl, rfl, Or.inl rfl⟩
        | some y => exact Or.inr ⟨y.1, s.finish k, rfl, finish_told s hdrop, rfl, Or.inl rfl⟩
  | derive i sub =>
      refine Or.inl ⟨rfl, ?_⟩
      unfold step
      dsimp only
      cases Prefix.parse sub with
      | error e => exact ⟨rfl, Or.inl rfl⟩
      | ok p =>
          refine ⟨rfl, ?_⟩
          unfold derive
          cases s.client? i with
          | none => exact Or.inl rfl
          | some c => exact Or.inr ⟨_, rfl, rfl⟩
  | rateSpan k rate =>
      refine Or.inl ⟨rfl, ?_⟩
      unfold step
      dsimp only
      split
      · exact ⟨rfl, Or.inl rfl⟩
      · exact ⟨rfl, Or.inl rfl⟩
  | abandon i m => exact Or.inl ⟨rfl, rfl, Or.inl rfl⟩
  | startSpan i name => exact Or.inl ⟨rfl, rfl, Or.inl rfl⟩
  | wait nanos => exact Or.inl ⟨rfl, rfl, Or.inl rfl⟩

/-! ### Runs in the first window -/

/-- Time does not go back. -/
theorem clock_step (s : Session σ) (op : Op) : s.clock ≤ (s.step op).1.clock := by
  have hclock : (s.step op).1.clock = (s.front.step op).clock :=
    congrArg Front.clock (step_follows s op).front
  rw [hclock, Front.step_clock]
  exact Nat.le_add_right s.clock op.nanos

theorem clock_run (s : Session σ) (ops : List Op) : s.clock ≤ (s.run ops).1.clock := by
  induction ops generalizing s with
  | nil => exact Nat.le_refl _
  | cons op rest ih => exact Nat.le_trans (s.clock_step op) (ih (s.step op).1)

/-- An operation in the first window keeps the records, and makes its warning. -/
theorem step_recorded {s : Session σ} {i : Nat} {failed : Prop} (hrecorded : s.Recorded i failed)
    (hclock : s.clock < reportWindow) (op : Op) :
    (s.step op).1.Recorded i (failed ∨ s.Fails op i) ∧
      (s.Fails op i ∧ ¬ failed → Event.warners (s.step op).2 = [i]) ∧
      (¬ (s.Fails op i ∧ ¬ failed) → i ∉ Event.warners (s.step op).2) := by
  rcases s.step_told op with
    ⟨hcaller, hevents, hclients⟩ | ⟨j, x, hcaller, htold, hevents, hclients⟩
  · have hnot : ¬ s.Fails op i := by
      rintro ⟨hcalls, -⟩
      rw [hcaller] at hcalls
      cases hcalls
    rw [or_iff_left hnot, hevents]
    refine ⟨?_, ?_, ?_⟩
    · rcases hclients with hsame | ⟨child, hchild, happend⟩
      · exact hrecorded.of_clients hsame
      · exact hrecorded.of_append hchild happend
    · rintro ⟨hfails, -⟩
      exact absurd hfails hnot
    · intro _
      exact List.not_mem_nil
  · have hfails : s.Fails op i ↔ j = i ∧ ∃ a ∈ Event.attempts x.2, a.failure? ≠ none := by
      rw [Fails, hcaller, hevents, Option.some.injEq]
    rw [hfails, hevents]
    obtain ⟨hafter, hwarns, hquiet⟩ := htold.recorded hclock hrecorded
    refine ⟨?_, hwarns, hquiet⟩
    rcases hclients with hsame | hdropped
    · exact hafter.of_clients hsame
    · exact hafter.of_drop hdropped

theorem failed_cons (s : Session σ) (op : Op) (rest : List Op) (i : Nat) :
    s.Failed (op :: rest) i ↔ s.Fails op i ∨ (s.step op).1.Failed rest i := by
  constructor
  · rintro ⟨before, op', after, heq, hfails⟩
    rcases List.cons_eq_append_iff.mp heq with ⟨rfl, hhead⟩ | ⟨before', rfl, hrest⟩
    · cases hhead
      exact Or.inl hfails
    · exact Or.inr ⟨before', op', after, hrest, hfails⟩
  · rintro (hfails | ⟨before, op', after, heq, hfails⟩)
    · exact ⟨[], op, rest, rfl, hfails⟩
    · exact ⟨op :: before, op', after, by rw [heq]; rfl, hfails⟩

theorem not_failed_nil (s : Session σ) (i : Nat) : ¬ s.Failed [] i := by
  rintro ⟨before, op, after, heq, -⟩
  exact absurd heq.symm (List.append_ne_nil_of_right_ne_nil before (List.cons_ne_nil op after))

/-- A run in the first window keeps the records, and a client warns in it once if
this is the first time that a packet fails in a call on it. -/
theorem run_recorded {s : Session σ} {i : Nat} {failed : Prop} (hrecorded : s.Recorded i failed)
    {ops : List Op} (hclock : (s.run ops).1.clock < reportWindow) :
    (s.run ops).1.Recorded i (failed ∨ s.Failed ops i) ∧
      (s.Failed ops i ∧ ¬ failed → (Event.warners (s.run ops).2).count i = 1) ∧
      (¬ (s.Failed ops i ∧ ¬ failed) → i ∉ Event.warners (s.run ops).2) := by
  induction ops generalizing s failed with
  | nil =>
      have hnot := s.not_failed_nil i
      rw [or_iff_left hnot]
      refine ⟨hrecorded, ?_, ?_⟩
      · rintro ⟨hfailed, -⟩
        exact absurd hfailed hnot
      · intro _
        exact List.not_mem_nil
  | cons op rest ih =>
      have hnow : s.clock < reportWindow :=
        Nat.lt_of_le_of_lt (s.clock_run (op :: rest)) hclock
      obtain ⟨hafter, hwarns, hquiet⟩ := step_recorded hrecorded hnow op
      obtain ⟨hlast, hcount, hnone⟩ := ih hafter hclock
      have hevents : Event.warners (s.run (op :: rest)).2 =
          Event.warners (s.step op).2 ++ Event.warners ((s.step op).1.run rest).2 :=
        Event.warners_append _ _
      rw [failed_cons, hevents]
      refine ⟨?_, ?_, ?_⟩
      · rw [← or_assoc]
        exact hlast
      · rintro ⟨hfailed, hfirst⟩
        rw [List.count_append]
        by_cases hfails : s.Fails op i
        · -- the first failure is in this call: nothing more is warned of in the others
          rw [hwarns ⟨hfails, hfirst⟩, List.count_singleton_self,
            List.count_eq_zero.mpr (hnone fun h => h.2 (Or.inr hfails))]
        · have hlater : (s.step op).1.Failed rest i := by
            rcases hfailed with hfails' | hlater
            · exact absurd hfails' hfails
            · exact hlater
          rw [List.count_eq_zero.mpr (hquiet fun h => hfails h.1),
            hcount ⟨hlater, fun h => h.elim hfirst hfails⟩]
      · intro hnot hmem
        rcases List.mem_append.mp hmem with hstep | hrest
        · exact hquiet (fun h => hnot ⟨Or.inl h.1, h.2⟩) hstep
        · exact hnone (fun h => hnot ⟨Or.inr h.1, fun hfailed => h.2 (Or.inl hfailed)⟩) hrest

/-! ### Sends that come to nothing -/

/-- A metric that is refused or left out makes no attempt. -/
theorem attempts_of_not_passed {s : Session σ} {op : Op} {i : Nat} {m : Metric}
    (hsends : s.sends? op = some (i, m)) (hfate : m.fate s.draws ≠ .passed) :
    Event.attempts (s.step op).2 = [] := by
  rw [(step_follows s op).attempts]
  have hfront := front_sending? s op
  rw [hsends, Option.bind_some] at hfront
  have hquiet : ∀ scope, (s.sink.handleAll [m.request scope s.front.draws]).2 = [] := by
    intro scope
    have hfate' : m.fate s.front.draws ≠ .passed := hfate
    unfold Metric.request
    cases hcase : m.fate s.front.draws with
    | refused => rfl
    | leftOut => rfl
    | passed => exact absurd hcase hfate'
  cases hlive : s.front.live? i with
  | some c =>
      rw [hlive, Option.map_some] at hfront
      unfold Front.requests
      rw [hfront]
      exact hquiet c.scope
  | none =>
      -- nothing is asked of the sink for a client that is gone, or discards
      rw [hlive, Option.map_none] at hfront
      unfold Front.requests
      rw [hfront]
      cases op with
      | emit i' m' => rfl
      | endSpan k ending => rfl
      | abandon i' m' => cases hsends
      | flush i' => cases hsends
      | drop i' => cases hsends
      | derive i' sub => cases hsends
      | startSpan i' name => cases hsends
      | rateSpan k rate => cases hsends
      | wait nanos => cases hsends

/-- Without an attempt there is no warning. -/
theorem warners_of_attempts_nil {s : Session σ} {op : Op}
    (h : Event.attempts (s.step op).2 = []) : Event.warners (s.step op).2 = [] := by
  rcases s.step_told op with ⟨-, hevents, -⟩ | ⟨i, x, -, htold, hevents, -⟩
  · rw [hevents]
    rfl
  · rw [hevents] at h ⊢
    cases htold with
    | quiet hsent hclients hwarners => exact hwarners
    | failed c hc hfailed hclients hwarners =>
        obtain ⟨a, ha, -⟩ := hfailed
        rw [h] at ha
        cases ha

/-- Making a client, or failing to make one, tells nothing. -/
theorem derive_quiet (s : Session σ) (i : Nat) (sub : String) :
    (s.step (.derive i sub)).2 = [] := by
  rcases s.step_told (.derive i sub) with ⟨-, hevents, -⟩ | ⟨j, x, hcaller, -⟩
  · exact hevents
  · cases hcaller

/-! ### The law of warnings -/

omit [Transport σ] in
theorem init_recorded (sink : Sink σ) (scope : Prefix) (live : Bool) (draws : Generator)
    (i : Nat) : (Session.init sink scope live draws).Recorded i False := by
  refine ⟨?_, False.elim, False.elim⟩
  intro _ c hc
  have hslot : (Session.init sink scope live draws).clients[i]? = some (some c) :=
    Option.join_eq_some_iff.mp hc
  have hmem : some c ∈ (Session.init sink scope live draws).clients := List.mem_of_getElem? hslot
  cases List.mem_singleton.mp hmem
  rfl

/-- A call on the sink answers with an error exactly if a packet that it attempted
failed, and then with the failure of the first one; a message that pushes the batch
out and is too large to be kept makes two attempts. In a run within the first window,
over any transport:

* a call warns once if a packet fails in it and none has failed in a call on the same
  client before, and not otherwise, whosever lines the packet holds;
* so a client warns once in the run if a packet fails in a call on it, and else never,
  and there is a log entry for each of the warnings;
* a metric that is refused or left out, and a client that is made or not made, bring
  no attempt and no warning. -/
theorem warned_once (sink : Sink σ) (scope : Prefix) (live : Bool) (draws : Generator)
    (ops : List Op)
    (hclock : ((Session.init sink scope live draws).run ops).1.clock < reportWindow) :
    let start := Session.init sink scope live draws
    (∀ (s : Sink σ) (m : Packet), (s.emitAnswered m).1 = (s.emit m).1 ∧
      Attempt.Answers (s.emit m).2 (s.emitAnswered m).2 ∧
      (∀ limit, s.limit = some limit → s.batch.fits limit m = false → limit ≤ m.data.size →
        (s.emit m).2.map (·.packet) = [s.batch.packet, m])) ∧
    (∀ s : Sink σ, s.flushAnswered.1 = s.flush.1 ∧
      Attempt.Answers s.flush.2 s.flushAnswered.2) ∧
    (∀ before op after, ops = before ++ op :: after → ∀ i,
      let now := (start.run before).1
      (now.Fails op i ∧ ¬ start.Failed before i → Event.warners (now.step op).2 = [i]) ∧
      (¬ (now.Fails op i ∧ ¬ start.Failed before i) → i ∉ Event.warners (now.step op).2)) ∧
    (∀ i, (start.Failed ops i → (Event.warners (start.run ops).2).count i = 1) ∧
      (¬ start.Failed ops i → i ∉ Event.warners (start.run ops).2)) ∧
    ((start.run ops).2.filterMap Event.log?).count .sendFailed =
      (Event.warners (start.run ops).2).length ∧
    (∀ (s : Session σ) (op : Op) (i : Nat) (m : Metric), s.sends? op = some (i, m) →
      m.fate s.draws ≠ .passed →
      Event.attempts (s.step op).2 = [] ∧ Event.warners (s.step op).2 = []) ∧
    (∀ (s : Session σ) (i : Nat) (sub : String), (s.step (.derive i sub)).2 = []) := by
  intro start
  refine ⟨?_, ?_, ?_, ?_, Event.count_sendFailed _, ?_, derive_quiet⟩
  · intro s m
    rw [s.emitAnswered_eq m]
    refine ⟨rfl, Attempt.answer_answers _, ?_⟩
    intro limit hlimit hfits hlarge
    exact Sink.emit_both hlimit hfits hlarge
  · intro s
    rw [s.flushAnswered_eq]
    exact ⟨rfl, Attempt.answer_answers _⟩
  · intro before op after hops i now
    have hrun : (start.run ops).1 = (now.run (op :: after)).1 := by
      rw [hops]
      exact start.run_append before (op :: after)
    have hnow : now.clock < reportWindow := by
      have hle : now.clock ≤ (now.run (op :: after)).1.clock := now.clock_run (op :: after)
      rw [← hrun] at hle
      exact Nat.lt_of_le_of_lt hle hclock
    have hbefore := (run_recorded (init_recorded sink scope live draws i) hnow).1
    rw [false_or] at hbefore
    exact (step_recorded hbefore hnow op).2
  · intro i
    have hall := run_recorded (init_recorded sink scope live draws i) hclock
    constructor
    · intro hfailed
      exact hall.2.1 ⟨hfailed, not_false⟩
    · intro hnot
      exact hall.2.2 fun h => hnot h.1
  · intro s op i m hsends hfate
    have hnone := attempts_of_not_passed hsends hfate
    exact ⟨hnone, warners_of_attempts_nil hnone⟩

/-- Two clients over a target that is not there. The sub client pushes out a packet
with a line of the root, and warns; the root flushes one with a line of the sub
client, and warns too. What fails after that is not warned of again. -/
theorem warned_once_shared :
    let link := Stream.Link.init fun _ => .error (.system .connectionRefused)
    let start := Session.init (Sink.init (some 8) link) Prefix.empty true ⟨0⟩
    let push := Op.emit 1 (.always "bb" .increment)
    let ops : List Op := [.derive 0 "", .emit 0 (.always "a" .increment), push, .flush 0, push,
      .emit 0 (.always "" .increment), .derive 0 "a|b", .drop 1]
    let warners := Event.warners (start.run ops).2
    (start.run ops).1.clock < reportWindow ∧ warners = [1, 0] ∧
      start.Failed ops 1 ∧ warners.count 1 = 1 ∧ ¬ start.Failed ops 2 := by
  intro link start push ops warners
  have hclock : (start.run ops).1.clock < reportWindow := by decide +kernel
  have hwarners : warners = [1, 0] := by decide +kernel
  obtain ⟨-, -, -, hcounts, -⟩ := warned_once (Sink.init (some 8) link) Prefix.empty true ⟨0⟩ ops
    hclock
  have hfailed : start.Failed ops 1 := by
    refine ⟨[.derive 0 "", .emit 0 (.always "a" .increment)], push, _, rfl, rfl, ?_⟩
    decide +kernel
  refine ⟨hclock, hwarners, hfailed, (hcounts 1).1 hfailed, ?_⟩
  intro hnone
  have hcount := (hcounts 2).1 hnone
  rw [show Event.warners (start.run ops).2 = [1, 0] from hwarners] at hcount
  cases hcount

end Session

end Statsd

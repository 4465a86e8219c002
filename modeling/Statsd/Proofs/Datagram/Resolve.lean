import Mathlib.Data.List.Chain
import Statsd.Datagram

/-!
# Statsd.Proofs.Datagram.Resolve — one resolve at a time, and not too often

A datagram link is driven by one caller, by the clock and by the resolves that
it has started. `Act` is what can happen to it next, and `Link.actAll` any
order of such acts; only a resolve that runs can end.

The flag, the throttle time and the socket of a link are written on different
paths: by a send that starts a resolve, and by a resolve that ends. What a
caller can rely on is said of the resolves themselves, by how many run and when
each was started.

* `Link.Disciplined` is the inductive invariant. It ties the flag to the
  number of resolves that run, and the throttle time to the last start.
* **Step**: `send_cases` says all that a send can do; `disciplined_act` is the
  invariant's step lemma.
* **Run**: `disciplined_actAll`, and `actAll_connected` for a link that has its
  socket.
* `resolve_discipline` packages what holds after any acts, and what the next
  act can do then.
-/

namespace Statsd.Datagram

/-- What can happen to a link. -/
inductive Act where
  /-- The caller sends a message. -/
  | send (message : ByteArray)
  /-- A resolve ends. -/
  | complete (result : Except Failure Socket)
  /-- Time passes. -/
  | wait (nanos : Nat)

namespace Link

/-- The link after an act. Where no resolve runs, none can end. -/
def act (l : Link) : Act → Link
  | .send message => (l.send message).1
  | .complete result => if l.running = 0 then l else l.complete result
  | .wait nanos => l.wait nanos

/-- The link after some acts, in order. -/
def actAll (l : Link) : List Act → Link
  | [] => l
  | a :: rest => (l.act a).actAll rest

/-- A link at its start, with a socket or without one. -/
def start (target : Net.Target) (interval : Nat) (socket : Option Socket) : Link :=
  { init target interval with socket }

/-! ## What a send can do -/

/-- The link after it has started a resolve. -/
def resolved (l : Link) : Link :=
  { l with
    resolving := true
    lastStart := some l.clock
    running := l.running + 1
    starts := l.starts ++ [l.clock] }

/-- A resolve runs, or the last one was started less than the interval ago. -/
def Busy (l : Link) : Prop :=
  l.running ≠ 0 ∨ ∃ t, l.starts.getLast? = some t ∧ l.clock < t + l.retryInterval

/-- All that a send can do to a link: it offers the message to the socket, it
is refused a resolve, or it starts one. -/
theorem send_cases (l : Link) (message : ByteArray) :
    (∃ s, l.socket = some s ∧
      (l.send message).1 = { l with offered := l.offered ++ [message] }) ∨
    (l.socket = none ∧ (l.throttled || l.resolving) = true ∧ (l.send message).1 = l) ∨
    (l.socket = none ∧ (l.throttled || l.resolving) = false ∧
      (l.send message).1 = l.resolved) := by
  unfold send
  cases hsocket : l.socket with
  | some s =>
      left
      refine ⟨s, rfl, ?_⟩
      dsimp only
      split
      · rfl
      · rfl
  | none =>
      right
      unfold startResolve
      cases hrefused : l.throttled || l.resolving with
      | true => exact Or.inl ⟨rfl, rfl, rfl⟩
      | false => exact Or.inr ⟨rfl, rfl, rfl⟩

/-- All that an act can do to a link. -/
theorem act_cases (l : Link) (a : Act) :
    l.act a = l ∨
    (∃ message, l.act a = { l with offered := l.offered ++ [message] }) ∨
    (∃ message, a = .send message ∧ l.socket = none ∧ (l.throttled || l.resolving) = false ∧
      l.act a = l.resolved) ∨
    (l.running ≠ 0 ∧ ∃ result, l.act a = l.complete result) ∨
    (∃ nanos, l.act a = l.wait nanos) := by
  cases a with
  | send message =>
      obtain ⟨s, -, h⟩ | ⟨-, -, h⟩ | ⟨hsocket, hfree, h⟩ := l.send_cases message
      · exact Or.inr (Or.inl ⟨message, h⟩)
      · exact Or.inl h
      · exact Or.inr (Or.inr (Or.inl ⟨message, rfl, hsocket, hfree, h⟩))
  | complete result =>
      by_cases hzero : l.running = 0
      · exact Or.inl (if_pos hzero)
      · exact Or.inr (Or.inr (Or.inr (Or.inl ⟨hzero, result, if_neg hzero⟩)))
  | wait nanos => exact Or.inr (Or.inr (Or.inr (Or.inr ⟨nanos, rfl⟩)))

/-- The end of a resolve changes the socket, the flag and the number of those that run. -/
theorem complete_frame (l : Link) (result : Except Failure Socket) :
    l.complete result =
      { l with
        socket := (l.complete result).socket
        resolving := false
        running := l.running - 1 } := by
  cases result with
  | ok s => rfl
  | error e => rfl

/-- No act changes where a link sends to, nor its interval. -/
theorem act_frame (l : Link) (a : Act) :
    (l.act a).target = l.target ∧ (l.act a).retryInterval = l.retryInterval := by
  obtain h | ⟨message, h⟩ | ⟨message, -, -, -, h⟩ | ⟨-, result, h⟩ | ⟨nanos, h⟩ := l.act_cases a
  · rw [h]
    exact ⟨rfl, rfl⟩
  · rw [h]
    exact ⟨rfl, rfl⟩
  · rw [h]
    exact ⟨rfl, rfl⟩
  · rw [h, complete_frame]
    exact ⟨rfl, rfl⟩
  · rw [h]
    exact ⟨rfl, rfl⟩

theorem actAll_frame (l : Link) (acts : List Act) :
    (l.actAll acts).target = l.target ∧ (l.actAll acts).retryInterval = l.retryInterval := by
  induction acts generalizing l with
  | nil => exact ⟨rfl, rfl⟩
  | cons a rest ih =>
      obtain ⟨htarget, hinterval⟩ := l.act_frame a
      obtain ⟨htarget', hinterval'⟩ := ih (l.act a)
      exact ⟨htarget'.trans htarget, hinterval'.trans hinterval⟩

/-- Only a send that finds no socket starts a resolve. -/
theorem act_starts (l : Link) (a : Act) :
    (l.act a).starts = l.starts ∨
      ∃ message, a = .send message ∧ l.socket = none ∧
        (l.act a).starts = l.starts ++ [l.clock] := by
  obtain h | ⟨message, h⟩ | ⟨message, hsend, hsocket, -, h⟩ | ⟨-, result, h⟩ | ⟨nanos, h⟩ :=
    l.act_cases a
  · left
    rw [h]
  · left
    rw [h]
  · right
    refine ⟨message, hsend, hsocket, ?_⟩
    rw [h]
    rfl
  · left
    rw [h, complete_frame]
  · left
    rw [h]
    rfl

/-! ## The inductive invariant -/

/-- What holds of a link at every point: its flag and its throttle time tell
the truth about the resolves, and a link with a socket has none running. -/
structure Disciplined (l : Link) : Prop where
  running_eq : l.running = if l.resolving then 1 else 0
  last_eq : l.lastStart = l.starts.getLast?
  past : ∀ t ∈ l.starts, t ≤ l.clock
  spaced : l.starts.IsChain fun a b => a + l.retryInterval ≤ b
  settled : l.socket.isSome → l.running = 0

theorem disciplined_start (target : Net.Target) (interval : Nat) (socket : Option Socket) :
    (start target interval socket).Disciplined := by
  constructor
  · rfl
  · rfl
  · intro t ht
    cases ht
  · exact List.IsChain.nil
  · intro _
    rfl

theorem running_le_one {l : Link} (h : l.Disciplined) : l.running ≤ 1 := by
  rw [h.running_eq]
  split
  · exact Nat.le_refl 1
  · exact Nat.zero_le 1

/-- A send is refused a resolve exactly when one runs or the last start is too recent. -/
theorem refused_iff_busy {l : Link} (h : l.Disciplined) :
    (l.throttled || l.resolving) = true ↔ l.Busy := by
  have hrunning : l.running ≠ 0 ↔ l.resolving = true := by
    rw [h.running_eq]
    cases l.resolving <;> simp
  have hthrottled : l.throttled = true ↔
      ∃ t, l.starts.getLast? = some t ∧ l.clock < t + l.retryInterval := by
    unfold throttled
    rw [h.last_eq]
    cases hlast : l.starts.getLast? with
    | none => simp
    | some t =>
        -- the last start is not ahead of the clock, so the difference is the time since
        have ht : t ≤ l.clock := h.past t (List.mem_of_getLast? hlast)
        simp only [decide_eq_true_eq, Option.some.injEq, exists_eq_left']
        omega
  rw [Bool.or_eq_true, hthrottled, ← hrunning]
  unfold Busy
  exact Or.comm

/-- A start keeps the invariant: it comes when nothing runs, and not too early. -/
theorem disciplined_resolved {l : Link} (h : l.Disciplined) (hsocket : l.socket = none)
    (hidle : ¬ l.Busy) : l.resolved.Disciplined := by
  unfold Busy at hidle
  rw [not_or] at hidle
  obtain ⟨hrunning, hlast⟩ := hidle
  have hzero : l.running = 0 := Decidable.not_not.mp hrunning
  constructor
  · show l.running + 1 = 1
    omega
  · show some l.clock = (l.starts ++ [l.clock]).getLast?
    simp
  · intro t ht
    show t ≤ l.clock
    rcases List.mem_append.mp ht with hold | hnew
    · exact h.past t hold
    · rw [List.mem_singleton.mp hnew]
  · show (l.starts ++ [l.clock]).IsChain fun a b => a + l.retryInterval ≤ b
    rw [List.isChain_append]
    refine ⟨h.spaced, List.isChain_singleton _, ?_⟩
    intro a ha b hb
    have hb' : l.clock = b := by simpa using hb
    rw [← hb']
    exact Nat.le_of_not_lt fun hearly => hlast ⟨a, ha, hearly⟩
  · intro hsome
    have hnone : l.resolved.socket = none := hsocket
    rw [hnone] at hsome
    cases hsome

theorem disciplined_act {l : Link} (h : l.Disciplined) (a : Act) : (l.act a).Disciplined := by
  obtain hact | ⟨message, hact⟩ | ⟨message, -, hsocket, hfree, hact⟩ | ⟨hrunning, result, hact⟩ |
    ⟨nanos, hact⟩ := l.act_cases a
  · rw [hact]
    exact h
  · rw [hact]
    exact ⟨h.running_eq, h.last_eq, h.past, h.spaced, h.settled⟩
  · rw [hact]
    refine disciplined_resolved h hsocket ?_
    rw [← refused_iff_busy h, hfree]
    exact Bool.false_ne_true
  · -- no other resolve runs than the one that ends
    have hlast : l.running - 1 = 0 := Nat.sub_eq_zero_of_le (running_le_one h)
    rw [hact, complete_frame]
    exact ⟨hlast, h.last_eq, h.past, h.spaced, fun _ => hlast⟩
  · rw [hact]
    refine ⟨h.running_eq, h.last_eq, ?_, h.spaced, h.settled⟩
    intro t ht
    exact Nat.le_trans (h.past t ht) (Nat.le_add_right _ _)

theorem disciplined_actAll {l : Link} (h : l.Disciplined) (acts : List Act) :
    (l.actAll acts).Disciplined := by
  induction acts generalizing l with
  | nil => exact h
  | cons a rest ih => exact ih (disciplined_act h a)

/-! ## A link with its socket -/

/-- An act on a link that has its socket neither replaces it nor starts a resolve. -/
theorem act_connected {l : Link} {s : Socket} (hsocket : l.socket = some s)
    (hzero : l.running = 0) (a : Act) :
    (l.act a).socket = some s ∧ (l.act a).running = 0 ∧ (l.act a).starts = l.starts := by
  obtain h | ⟨message, h⟩ | ⟨message, -, hnone, -⟩ | ⟨hrunning, -⟩ | ⟨nanos, h⟩ := l.act_cases a
  · rw [h]
    exact ⟨hsocket, hzero, rfl⟩
  · rw [h]
    exact ⟨hsocket, hzero, rfl⟩
  · rw [hnone] at hsocket
    cases hsocket
  · exact absurd hzero hrunning
  · rw [h]
    exact ⟨hsocket, hzero, rfl⟩

theorem actAll_connected {l : Link} {s : Socket} (hsocket : l.socket = some s)
    (hzero : l.running = 0) (acts : List Act) :
    (l.actAll acts).socket = some s ∧ (l.actAll acts).running = 0 ∧
      (l.actAll acts).starts = l.starts := by
  induction acts generalizing l with
  | nil => exact ⟨hsocket, hzero, rfl⟩
  | cons a rest ih =>
      obtain ⟨hs, hz, hstarts⟩ := act_connected hsocket hzero a
      obtain ⟨hs', hz', hstarts'⟩ := ih hs hz
      exact ⟨hs', hz', hstarts'.trans hstarts⟩

/-! ## What the caller sees -/

/-- A send without a socket is answered as not connected, and no datagram leaves. -/
theorem send_unconnected {l : Link} (hsocket : l.socket = none) (message : ByteArray) :
    (l.send message).2 = .error (.unresolved l.target.host l.target.port) ∧
      (l.send message).1.offered = l.offered := by
  constructor
  · unfold send
    rw [hsocket]
  · obtain ⟨s, hsome, -⟩ | ⟨-, -, hsend⟩ | ⟨-, -, hsend⟩ := l.send_cases message
    · rw [hsocket] at hsome
      cases hsome
    · rw [hsend]
    · rw [hsend]
      rfl

/-- A send with a socket offers its message as one datagram, and does nothing else. -/
theorem send_connected {l : Link} {s : Socket} (hsocket : l.socket = some s)
    (message : ByteArray) :
    (l.send message).1 = { l with offered := l.offered ++ [message] } := by
  obtain ⟨s', -, hsend⟩ | ⟨hnone, -⟩ | ⟨hnone, -⟩ := l.send_cases message
  · exact hsend
  · rw [hnone] at hsocket
    cases hsocket
  · rw [hnone] at hsocket
    cases hsocket

/-- Without a socket, a send changes nothing if the link is busy, and starts a
resolve if it is not. -/
theorem send_busy {l : Link} (h : l.Disciplined) (hsocket : l.socket = none)
    (message : ByteArray) :
    (l.Busy → (l.send message).1 = l) ∧ (¬ l.Busy → (l.send message).1 = l.resolved) := by
  rw [← refused_iff_busy h]
  obtain ⟨s, hsome, -⟩ | ⟨-, hrefused, hsend⟩ | ⟨-, hfree, hsend⟩ := l.send_cases message
  · rw [hsocket] at hsome
    cases hsome
  · exact ⟨fun _ => hsend, fun hfree => absurd hrefused hfree⟩
  · refine ⟨fun hrefused => ?_, fun _ => hsend⟩
    rw [hfree] at hrefused
    cases hrefused

/-- A resolve that ends finds no socket, and leaves what it has come to. -/
theorem complete_running {l : Link} (h : l.Disciplined) (hrunning : l.running ≠ 0)
    (result : Except Failure Socket) :
    l.socket = none ∧ (l.act (.complete result)).running = 0 ∧
      (l.act (.complete result)).socket = result.toOption := by
  have hnone : l.socket = none := by
    rw [← Option.not_isSome_iff_eq_none]
    exact fun hsome => hrunning (h.settled hsome)
  have hlast : l.running - 1 = 0 := Nat.sub_eq_zero_of_le (running_le_one h)
  have hact : l.act (.complete result) = l.complete result := if_neg hrunning
  rw [hact]
  cases result with
  | ok s =>
      refine ⟨hnone, hlast, ?_⟩
      show some (l.socket.getD s) = some s
      rw [hnone]
      rfl
  | error e => exact ⟨hnone, hlast, hnone⟩

/-! ## The discipline -/

/-- Any retry interval, with a socket at the start or without one, and any
order of sends, ends of resolves and passing of time:

* at most one resolve runs, and two starts are at least the interval apart;
* only a send that finds no socket starts a resolve; once there is a socket, it
  stays, nothing runs and nothing is started any more;
* a resolve that ends finds no socket; it leaves its own one if it has
  succeeded and none if it has not, and nothing runs afterwards;
* a send without a socket is answered as not connected and offers nothing to
  the network; a send with one offers its message as one datagram and changes
  nothing else;
* a send without a socket changes nothing while a resolve runs or the last
  start is too recent, and starts one in every other case. -/
theorem resolve_discipline (target : Net.Target) (interval : Nat) (socket : Option Socket)
    (acts : List Act) :
    let l := (start target interval socket).actAll acts
    (l.running ≤ 1 ∧ l.starts.IsChain fun a b => a + interval ≤ b) ∧
    (∀ a, (l.act a).starts = l.starts ∨
      ∃ message, a = .send message ∧ l.socket = none ∧
        (l.act a).starts = l.starts ++ [l.clock]) ∧
    (∀ s, l.socket = some s → ∀ more, (l.actAll more).socket = some s ∧
      (l.actAll more).running = 0 ∧ (l.actAll more).starts = l.starts) ∧
    (l.running ≠ 0 → ∀ result, l.socket = none ∧ (l.act (.complete result)).running = 0 ∧
      (l.act (.complete result)).socket = result.toOption) ∧
    (∀ message, l.socket = none →
      (∃ e, (l.send message).2 = .error e ∧ e.kind = .notConnected ∧
        e.message = Failure.unresolvedMessage target.host (Decimal.ofNat target.port.toNat)) ∧
      (l.send message).1.offered = l.offered) ∧
    (∀ message s, l.socket = some s →
      (l.send message).1 = { l with offered := l.offered ++ [message] }) ∧
    (∀ message, l.socket = none →
      (l.running ≠ 0 ∨ ∃ t, l.starts.getLast? = some t ∧ l.clock < t + interval) →
      (l.send message).1 = l) ∧
    (∀ message, l.socket = none → l.running = 0 →
      (∀ t, l.starts.getLast? = some t → t + interval ≤ l.clock) →
      (l.send message).1.running = 1 ∧ (l.send message).1.starts = l.starts ++ [l.clock]) := by
  intro l
  have h : l.Disciplined := disciplined_actAll (disciplined_start target interval socket) acts
  have hframe : l.target = target ∧ l.retryInterval = interval :=
    (start target interval socket).actAll_frame acts
  obtain ⟨htarget, hinterval⟩ := hframe
  refine ⟨⟨running_le_one h, ?_⟩, l.act_starts, ?_, complete_running h, ?_, ?_, ?_, ?_⟩
  · rw [← hinterval]
    exact h.spaced
  · intro s hs more
    have hsome : l.socket.isSome := by
      rw [hs]
      rfl
    exact actAll_connected hs (h.settled hsome) more
  · intro message hnone
    obtain ⟨hanswer, hoffered⟩ := send_unconnected hnone message
    rw [htarget] at hanswer
    exact ⟨⟨_, hanswer, rfl, rfl⟩, hoffered⟩
  · intro message s hs
    exact send_connected hs message
  · intro message hnone hbusy
    rw [← hinterval] at hbusy
    exact (send_busy h hnone message).1 hbusy
  · intro message hnone hzero hlate
    have hidle : ¬ l.Busy := by
      rintro (hrunning | ⟨t, hlast, hearly⟩)
      · exact hrunning hzero
      · have ht := hlate t hlast
        omega
    rw [(send_busy h hnone message).2 hidle]
    refine ⟨?_, rfl⟩
    show l.running + 1 = 1
    omega

end Link

end Statsd.Datagram

import Statsd.Link
import Statsd.Proofs.Session.Draws

/-!
# Statsd.Proofs.Session.Omission — operations that do not draw can be left out

All clients of a caller draw from one random source, so a draw decides of every
later one. What does not draw has no say in this: it can be left out of a run,
and every metric that is still sent meets the same fate.

Clients and spans are numbered as they are made, so leaving operations out
renumbers the others.

* `Names` are new numbers for things that were numbered before, and
  `Numbering` those of the clients and spans (`Numbering.op?` is an operation
  with the new numbers). An operation that is left out takes the client or span
  that it makes, changes or gives up with it: what is left does not refer to it.
* `Shadow` is what holds of the clients' sides of the two runs at every point:
  what has a number in both is alike in all that decides of a metric.
* **Step**: an operation that is left out, or that is done in both runs, keeps
  this (`Shadow.forget`, `Shadow.keep`).
* **Run**: so the metrics that are sent in both meet the same fates
  (`omitted_verdicts`).
-/

namespace Statsd

/-! ## New numbers -/

/-- New numbers of things that are numbered as they are made, for those that are
still to be used, and how many there are by the new numbers. -/
structure Names where
  names : List (Option Nat)
  count : Nat

namespace Names

/-- So many things, each under its own number. -/
def start (n : Nat) : Names := ⟨(List.range n).map some, n⟩

/-- The new number of a thing. -/
def name? (N : Names) (i : Nat) : Option Nat := (N.names[i]?).join

/-- One thing more. -/
def add (N : Names) : Names := ⟨N.names ++ [some N.count], N.count + 1⟩

/-- One thing more that has no new number. -/
def skip (N : Names) : Names := ⟨N.names ++ [none], N.count⟩

/-- A thing is not to be used any more. -/
def lose (N : Names) (i : Nat) : Names := ⟨N.names.set i none, N.count⟩

theorem name?_lt {N : Names} {i i' : Nat} (h : N.name? i = some i') : i < N.names.length := by
  have hget : N.names[i]? = some (some i') := Option.join_eq_some_iff.mp h
  exact (List.getElem?_eq_some_iff.mp hget).1

theorem name?_append {names : List (Option Nat)} {x : Option Nat} {count i i' : Nat}
    (h : (Names.mk (names ++ [x]) count).name? i = some i') :
    (Names.mk names count).name? i = some i' ∨ (i = names.length ∧ x = some i') := by
  have hget : (names ++ [x])[i]? = some (some i') := Option.join_eq_some_iff.mp h
  rcases Nat.lt_trichotomy i names.length with hlt | heq | hgt
  · rw [List.getElem?_append_left hlt] at hget
    exact Or.inl (Option.join_eq_some_iff.mpr hget)
  · rw [heq, List.getElem?_concat_length] at hget
    exact Or.inr ⟨heq, Option.some.inj hget⟩
  · have hlong : (names ++ [x]).length ≤ i := by
      rw [List.length_append]
      exact hgt
    rw [List.getElem?_eq_none hlong] at hget
    cases hget

theorem name?_add {N : Names} {i i' : Nat} (h : N.add.name? i = some i') :
    N.name? i = some i' ∨ (i = N.names.length ∧ i' = N.count) := by
  rcases name?_append h with hold | ⟨hi, hnew⟩
  · exact Or.inl hold
  · exact Or.inr ⟨hi, (Option.some.inj hnew).symm⟩

theorem name?_skip {N : Names} {i i' : Nat} (h : N.skip.name? i = some i') :
    N.name? i = some i' := by
  rcases name?_append h with hold | ⟨-, hnone⟩
  · exact hold
  · cases hnone

theorem name?_lose {N : Names} {i j j' : Nat} (h : (N.lose i).name? j = some j') :
    i ≠ j ∧ N.name? j = some j' := by
  have hget : (N.names.set i none)[j]? = some (some j') := Option.join_eq_some_iff.mp h
  rw [List.getElem?_set] at hget
  by_cases hij : i = j
  · rw [if_pos hij] at hget
    split at hget
    · cases hget
    · cases hget
  · rw [if_neg hij] at hget
    exact ⟨hij, Option.join_eq_some_iff.mpr hget⟩

/-- The new numbers of `n` things of which there are `n'` by the new numbers. -/
structure Fits (N : Names) (n n' : Nat) : Prop where
  length : N.names.length = n
  count : N.count = n'
  lt : ∀ i i', N.name? i = some i' → i' < n'
  inj : ∀ i j i', N.name? i = some i' → N.name? j = some i' → i = j

theorem name?_start {n i i' : Nat} (h : (start n).name? i = some i') : i < n ∧ i' = i := by
  have hlt : i < n := by
    have hlength := name?_lt h
    rw [start, List.length_map, List.length_range] at hlength
    exact hlength
  have hget : ((List.range n).map some)[i]? = some (some i') := Option.join_eq_some_iff.mp h
  rw [List.getElem?_map, List.getElem?_range hlt] at hget
  cases hget
  exact ⟨hlt, rfl⟩

theorem fits_start (n : Nat) : (start n).Fits n n := by
  refine ⟨?_, rfl, ?_, ?_⟩
  · rw [start, List.length_map, List.length_range]
  · intro i i' h
    rcases name?_start h with ⟨hlt, rfl⟩
    exact hlt
  · intro i j i' hi hj
    rw [← (name?_start hi).2, (name?_start hj).2]

theorem Fits.add {N : Names} {n n' : Nat} (h : N.Fits n n') : N.add.Fits (n + 1) (n' + 1) := by
  refine ⟨?_, ?_, ?_, ?_⟩
  · rw [Names.add, List.length_append, h.length]
    rfl
  · rw [Names.add, h.count]
  · intro i i' hi
    rcases name?_add hi with hold | ⟨-, rfl⟩
    · exact Nat.lt_succ_of_lt (h.lt i i' hold)
    · rw [h.count]
      exact Nat.lt_succ_self n'
  · intro i j i' hi hj
    rcases name?_add hi with hold | ⟨rfl, rfl⟩
    · rcases name?_add hj with hold' | ⟨-, rfl⟩
      · exact h.inj i j i' hold hold'
      · have hlt := h.lt i _ hold
        rw [h.count] at hlt
        exact absurd hlt (Nat.lt_irrefl n')
    · rcases name?_add hj with hold' | ⟨rfl, -⟩
      · have hlt := h.lt j _ hold'
        rw [h.count] at hlt
        exact absurd hlt (Nat.lt_irrefl n')
      · rfl

theorem Fits.skip {N : Names} {n n' : Nat} (h : N.Fits n n') : N.skip.Fits (n + 1) n' := by
  refine ⟨?_, h.count, ?_, ?_⟩
  · rw [Names.skip, List.length_append, h.length]
    rfl
  · intro i i' hi
    exact h.lt i i' (name?_skip hi)
  · intro i j i' hi hj
    exact h.inj i j i' (name?_skip hi) (name?_skip hj)

theorem Fits.lose {N : Names} {n n' : Nat} (h : N.Fits n n') (i : Nat) : (N.lose i).Fits n n' := by
  refine ⟨?_, h.count, ?_, ?_⟩
  · rw [Names.lose, List.length_set, h.length]
  · intro j j' hj
    exact h.lt j j' (name?_lose hj).2
  · intro j k j' hj hk
    exact h.inj j k j' (name?_lose hj).2 (name?_lose hk).2

end Names

/-! ## Clients and spans -/

/-- New numbers of the clients and the spans. -/
structure Numbering where
  clients : Names
  spans : Names

namespace Numbering

/-- Everything under its own number. -/
def start (f : Front) : Numbering := ⟨Names.start f.clients.length, Names.start f.spans.length⟩

/-- An operation with the new numbers. There is none if the operation is on a
client or a span that is not to be used any more, or ends a span of such a client. -/
def op? (nu : Numbering) (f : Front) : Op → Option Op
  | .emit i m => (nu.clients.name? i).map fun i => .emit i m
  | .abandon i m => (nu.clients.name? i).map fun i => .abandon i m
  | .flush i => (nu.clients.name? i).map fun i => .flush i
  | .drop i => (nu.clients.name? i).map fun i => .drop i
  | .derive i sub => (nu.clients.name? i).map fun i => .derive i sub
  | .startSpan i name => (nu.clients.name? i).map fun i => .startSpan i name
  | .rateSpan k rate => (nu.spans.name? k).map fun k => .rateSpan k rate
  | .endSpan k ending =>
    match (f.spans[k]?).bind fun span => nu.clients.name? span.client with
    | some _ => (nu.spans.name? k).map fun k => .endSpan k ending
    | none => none
  | .wait nanos => some (.wait nanos)

/-- The numbers after an operation that is done in both runs. -/
def keep (nu : Numbering) (f : Front) : Op → Numbering
  | .derive i sub =>
    if f.clients.length < (f.step (.derive i sub)).clients.length then
      { nu with clients := nu.clients.add }
    else nu
  | .startSpan _ _ => { nu with spans := nu.spans.add }
  | _ => nu

/-- The numbers after an operation that is left out. -/
def forget (nu : Numbering) (f : Front) : Op → Numbering
  | .derive i sub =>
    if f.clients.length < (f.step (.derive i sub)).clients.length then
      { nu with clients := nu.clients.skip }
    else nu
  | .startSpan _ _ => { nu with spans := nu.spans.skip }
  | .drop i => { nu with clients := nu.clients.lose i }
  | .rateSpan k _ => { nu with spans := nu.spans.lose k }
  | .endSpan k _ => { nu with spans := nu.spans.lose k }
  | _ => nu

/-- What is left of a run when the operations marked `false` are left out, with
the new numbers. There is nothing if an operation that is left would refer to
what has been left out. -/
def left? (nu : Numbering) (f : Front) : List (Op × Bool) → Option (List Op)
  | [] => some []
  | (op, true) :: rest =>
    match nu.op? f op, (nu.keep f op).left? (f.step op) rest with
    | some op', some left => some (op' :: left)
    | _, _ => none
  | (op, false) :: rest => (nu.forget f op).left? (f.step op) rest

end Numbering

/-! ## What is alike in both runs -/

/-- What is known of a client: whether it is there, and whether it discards. -/
def standing (cs : List (Option Client)) (i : Nat) : Option Bool := ((cs[i]?).join).map (·.live)

/-- The clients of both runs: those with a new number are there, or discard, in
both alike. -/
structure ClientsAlike (N : Names) (cs cs' : List (Option Client)) : Prop where
  fits : N.Fits cs.length cs'.length
  standing : ∀ i i', N.name? i = some i' → standing cs' i' = standing cs i

/-- A span of both runs, but for its times. The names are those of the clients. -/
structure Twin (N : Names) (span span' : Span) : Prop where
  name : span'.name = span.name
  rate : span'.rate = span.rate
  finished : span'.finished = span.finished
  there : span.client < N.names.length
  client : ∀ i', N.name? span.client = some i' → span'.client = i'

/-- The spans of both runs: those with a new number are the same. -/
structure SpansAlike (nu : Numbering) (spans spans' : List Span) : Prop where
  fits : nu.spans.Fits spans.length spans'.length
  twins : ∀ k k', nu.spans.name? k = some k' → ∃ span span', spans[k]? = some span ∧
    spans'[k']? = some span' ∧ Twin nu.clients span span'

/-- The clients' side of a run, and that of what is left of it. -/
structure Shadow (nu : Numbering) (f f' : Front) : Prop where
  draws : f'.draws = f.draws
  clients : ClientsAlike nu.clients f.clients f'.clients
  spans : SpansAlike nu f.spans f'.spans

theorem shadow_start {f : Front} (h : ∀ span ∈ f.spans, span.client < f.clients.length) :
    Shadow (Numbering.start f) f f := by
  refine ⟨rfl, ⟨Names.fits_start _, ?_⟩, ⟨Names.fits_start _, ?_⟩⟩
  · intro i i' hi
    rw [(Names.name?_start hi).2]
  · intro k k' hk
    rcases Names.name?_start hk with ⟨hlt, rfl⟩
    have hspan : f.spans[k']? = some f.spans[k'] := List.getElem?_eq_getElem hlt
    refine ⟨_, _, hspan, hspan, rfl, rfl, rfl, ?_, ?_⟩
    · have hthere := h _ (List.getElem_mem hlt)
      rw [← (Names.fits_start f.clients.length).length] at hthere
      exact hthere
    · intro i' hi
      exact (Names.name?_start hi).2.symm

/-! ### Clients -/

theorem standing_concat (cs : List (Option Client)) (child : Client) (i : Nat) :
    standing (cs ++ [some child]) i =
      if i = cs.length then some child.live else standing cs i := by
  unfold standing
  rcases Nat.lt_trichotomy i cs.length with hlt | heq | hgt
  · rw [List.getElem?_append_left hlt, if_neg (Nat.ne_of_lt hlt)]
  · rw [if_pos heq, heq, List.getElem?_concat_length]
    rfl
  · have hlong : (cs ++ [some child]).length ≤ i := by
      rw [List.length_append]
      exact hgt
    rw [if_neg (Nat.ne_of_gt hgt), List.getElem?_eq_none hlong,
      List.getElem?_eq_none (Nat.le_of_lt hgt)]

theorem standing_set_none (cs : List (Option Client)) (j i : Nat) :
    standing (cs.set j none) i = if j = i then none else standing cs i := by
  unfold standing
  rw [List.getElem?_set]
  by_cases hji : j = i
  · rw [if_pos hji, if_pos hji]
    split
    · rfl
    · rfl
  · rw [if_neg hji, if_neg hji]

/-- Making a client: it is like the one that it is made from, and is made if that one
is there and the prefix is accepted. -/
theorem Front.derive_cases (f : Front) (i : Nat) (sub : String) :
    ((f.step (.derive i sub)).clients = f.clients ∧
      (standing f.clients i = none ∨ ∃ e, Prefix.parse sub = .error e)) ∨
    ∃ child p, (f.step (.derive i sub)).clients = f.clients ++ [some child] ∧
      standing f.clients i = some child.live ∧ Prefix.parse sub = .ok p := by
  rw [(f.step_derive i sub).2.2]
  unfold standing
  cases Prefix.parse sub with
  | error e => exact Or.inl ⟨rfl, Or.inr ⟨e, rfl⟩⟩
  | ok p =>
      cases (f.clients[i]?).join with
      | none => exact Or.inl ⟨rfl, Or.inl rfl⟩
      | some c => exact Or.inr ⟨_, p, rfl, rfl, rfl⟩

namespace ClientsAlike

variable {N : Names} {cs cs' : List (Option Client)}

/-- A client is made in the longer run only. -/
theorem skip (h : ClientsAlike N cs cs') (child : Client) :
    ClientsAlike N.skip (cs ++ [some child]) cs' := by
  refine ⟨?_, ?_⟩
  · rw [List.length_append]
    exact h.fits.skip
  · intro i i' hi
    have hold := Names.name?_skip hi
    have hlt := Names.name?_lt hold
    rw [h.fits.length] at hlt
    rw [standing_concat, if_neg (Nat.ne_of_lt hlt)]
    exact h.standing i i' hold

/-- A client is made in both runs. -/
theorem add (h : ClientsAlike N cs cs') {child child' : Client} (hlive : child'.live = child.live) :
    ClientsAlike N.add (cs ++ [some child]) (cs' ++ [some child']) := by
  refine ⟨?_, ?_⟩
  · rw [List.length_append, List.length_append]
    exact h.fits.add
  · intro i i' hi
    rw [standing_concat, standing_concat]
    rcases Names.name?_add hi with hold | ⟨hlast, hlast'⟩
    · have hlt := Names.name?_lt hold
      rw [h.fits.length] at hlt
      rw [if_neg (Nat.ne_of_lt hlt), if_neg (Nat.ne_of_lt (h.fits.lt i i' hold))]
      exact h.standing i i' hold
    · rw [h.fits.length] at hlast
      rw [h.fits.count] at hlast'
      rw [if_pos hlast, if_pos hlast', hlive]

/-- A client is given up in the longer run only. -/
theorem lose (h : ClientsAlike N cs cs') (j : Nat) :
    ClientsAlike (N.lose j) (cs.set j none) cs' := by
  refine ⟨?_, ?_⟩
  · rw [List.length_set]
    exact h.fits.lose j
  · intro i i' hi
    rcases Names.name?_lose hi with ⟨hji, hold⟩
    rw [standing_set_none, if_neg hji]
    exact h.standing i i' hold

/-- A client is given up in both runs. -/
theorem drop (h : ClientsAlike N cs cs') {j j' : Nat} (hj : N.name? j = some j') :
    ClientsAlike N (cs.set j none) (cs'.set j' none) := by
  refine ⟨?_, ?_⟩
  · rw [List.length_set, List.length_set]
    exact h.fits
  · intro i i' hi
    rw [standing_set_none, standing_set_none]
    by_cases hji : j = i
    · have hsame : j' = i' := by
        rw [hji, hi] at hj
        exact (Option.some.inj hj).symm
      rw [if_pos hji, if_pos hsame]
    · have hdiff : j' ≠ i' := by
        intro hsame
        rw [← hsame] at hi
        exact hji (h.fits.inj j i j' hj hi)
      rw [if_neg hji, if_neg hdiff]
      exact h.standing i i' hi

end ClientsAlike

/-! ### Spans -/

/-- New numbers of clients that were there remain what they were, or are lost. -/
theorem Twin.mono {N M : Names} {span span' : Span} (h : Twin N span span')
    (hlength : N.names.length ≤ M.names.length)
    (hold : ∀ i i', i < N.names.length → M.name? i = some i' → N.name? i = some i') :
    Twin M span span' :=
  ⟨h.name, h.rate, h.finished, Nat.lt_of_lt_of_le h.there hlength,
    fun i' hi => h.client i' (hold _ i' h.there hi)⟩

namespace SpansAlike

variable {nu : Numbering} {spans spans' : List Span}

/-- The numbers of the clients change. -/
theorem mono (h : SpansAlike nu spans spans') {M : Names}
    (hlength : nu.clients.names.length ≤ M.names.length)
    (hold : ∀ i i', i < nu.clients.names.length → M.name? i = some i' →
      nu.clients.name? i = some i') :
    SpansAlike { nu with clients := M } spans spans' := by
  refine ⟨h.fits, ?_⟩
  intro k k' hk
  rcases h.twins k k' hk with ⟨span, span', hspan, hspan', htwin⟩
  exact ⟨span, span', hspan, hspan', htwin.mono hlength hold⟩

/-- A span is started in the longer run only. -/
theorem skip (h : SpansAlike nu spans spans') (span : Span) :
    SpansAlike { nu with spans := nu.spans.skip } (spans ++ [span]) spans' := by
  refine ⟨?_, ?_⟩
  · rw [List.length_append]
    exact h.fits.skip
  · intro k k' hk
    rcases h.twins k k' (Names.name?_skip hk) with ⟨a, a', ha, ha', htwin⟩
    rw [List.getElem?_append_left (List.getElem?_eq_some_iff.mp ha).1]
    exact ⟨a, a', ha, ha', htwin⟩

/-- A span is started in both runs. -/
theorem add (h : SpansAlike nu spans spans') {span span' : Span}
    (htwin : Twin nu.clients span span') :
    SpansAlike { nu with spans := nu.spans.add } (spans ++ [span]) (spans' ++ [span']) := by
  refine ⟨?_, ?_⟩
  · rw [List.length_append, List.length_append]
    exact h.fits.add
  · intro k k' hk
    rcases Names.name?_add hk with hold | ⟨hlast, hlast'⟩
    · rcases h.twins k k' hold with ⟨a, a', ha, ha', htwin⟩
      rw [List.getElem?_append_left (List.getElem?_eq_some_iff.mp ha).1,
        List.getElem?_append_left (List.getElem?_eq_some_iff.mp ha').1]
      exact ⟨a, a', ha, ha', htwin⟩
    · rw [h.fits.length] at hlast
      rw [h.fits.count] at hlast'
      rw [hlast, hlast', List.getElem?_concat_length, List.getElem?_concat_length]
      exact ⟨span, span', rfl, rfl, htwin⟩

/-- A span is changed in the longer run only. -/
theorem lose (h : SpansAlike nu spans spans') (j : Nat) (change : Span → Span) :
    SpansAlike { nu with spans := nu.spans.lose j } (spans.modify j change) spans' := by
  refine ⟨?_, ?_⟩
  · rw [List.length_modify]
    exact h.fits.lose j
  · intro k k' hk
    rcases Names.name?_lose hk with ⟨hjk, hold⟩
    rcases h.twins k k' hold with ⟨a, a', ha, ha', htwin⟩
    refine ⟨a, a', ?_, ha', htwin⟩
    rw [getElem?_modify_of_some ha, if_neg hjk]

/-- A span is changed in both runs alike. -/
theorem change (h : SpansAlike nu spans spans') {j j' : Nat} (hj : nu.spans.name? j = some j')
    {change : Span → Span}
    (htwin : ∀ a a', Twin nu.clients a a' → Twin nu.clients (change a) (change a')) :
    SpansAlike nu (spans.modify j change) (spans'.modify j' change) := by
  refine ⟨?_, ?_⟩
  · rw [List.length_modify, List.length_modify]
    exact h.fits
  · intro k k' hk
    rcases h.twins k k' hk with ⟨a, a', ha, ha', htwin'⟩
    rw [getElem?_modify_of_some ha, getElem?_modify_of_some ha']
    by_cases hjk : j = k
    · have hsame : j' = k' := by
        rw [hjk, hk] at hj
        exact (Option.some.inj hj).symm
      rw [if_pos hjk, if_pos hsame]
      exact ⟨_, _, rfl, rfl, htwin a a' htwin'⟩
    · have hdiff : j' ≠ k' := by
        intro hsame
        rw [← hsame] at hk
        exact hjk (h.fits.inj j k j' hj hk)
      rw [if_neg hjk, if_neg hdiff]
      exact ⟨a, a', rfl, rfl, htwin'⟩

end SpansAlike

/-! ## Metrics that are alike -/

namespace Metric

/-- Metrics that a draw decides alike. -/
structure Alike (m m' : Metric) : Prop where
  refusal : m'.refusal? = m.refusal?
  rate : m'.rate = m.rate

theorem Alike.fate {m m' : Metric} (h : Alike m m') (g : Generator) :
    m'.fate g = m.fate g ∧ m'.drawsAfter g = m.drawsAfter g := by
  unfold Metric.fate drawsAfter
  rw [h.refusal, h.rate]
  exact ⟨rfl, rfl⟩

/-- Two durations under one name are refused or not alike. -/
theorem alike_duration (name : String) (d d' : Duration) (rate : Binary64) :
    Alike ⟨name, .duration d, rate⟩ ⟨name, .duration d', rate⟩ := by
  refine ⟨?_, rfl⟩
  unfold refusal? Observation.duration
  dsimp only

end Metric

namespace Front

/-- What two fronts send, decided alike. -/
def SendAlike (x x' : Option (Client × Metric)) : Prop :=
  (x = none ∧ x' = none) ∨
    ∃ c c' m m', x = some (c, m) ∧ x' = some (c', m') ∧ Metric.Alike m m'

/-- Of two clients of the same standing both or none send. -/
theorem sendAlike_of_standing {f f' : Front} {i i' : Nat}
    (h : standing f'.clients i' = standing f.clients i) {m m' : Metric} (hm : Metric.Alike m m') :
    SendAlike ((f.live? i).map fun c => (c, m)) ((f'.live? i').map fun c => (c, m')) := by
  unfold standing at h
  unfold live?
  cases hc : (f.clients[i]?).join with
  | none =>
      rw [hc, Option.map_none, Option.map_eq_none_iff] at h
      rw [h]
      exact Or.inl ⟨rfl, rfl⟩
  | some c =>
      rw [hc, Option.map_some] at h
      rcases Option.map_eq_some_iff.mp h with ⟨c', hc', hlive⟩
      rw [hc', Option.filter_some, Option.filter_some, hlive]
      cases c.live with
      | true => exact Or.inr ⟨c, c', m, m', rfl, rfl, hm⟩
      | false => exact Or.inl ⟨rfl, rfl⟩

end Front

namespace Shadow

variable {nu : Numbering} {f f' : Front}

theorem sendAlike_closing (h : Shadow nu f f') {k k' i' : Nat} (hk : nu.spans.name? k = some k')
    (hi : ((f.spans[k]?).bind fun span => nu.clients.name? span.client) = some i') :
    Front.SendAlike (f.closing? k) (f'.closing? k') := by
  rcases h.spans.twins k k' hk with ⟨span, span', hspan, hspan', htwin⟩
  rw [hspan, Option.bind_some] at hi
  have hstanding := h.clients.standing _ _ hi
  unfold Front.closing?
  rw [hspan, hspan']
  dsimp only
  rw [htwin.finished, htwin.client i' hi, htwin.name, htwin.rate]
  cases span.finished with
  | true => exact Or.inl ⟨rfl, rfl⟩
  | false => exact Front.sendAlike_of_standing hstanding (Metric.alike_duration _ _ _ _)

/-- What is left sends what it sent. -/
theorem sendAlike (h : Shadow nu f f') {op op' : Op} (hop : nu.op? f op = some op') :
    Front.SendAlike (f.sending? op) (f'.sending? op') := by
  cases op with
  | emit i m =>
      rcases Option.map_eq_some_iff.mp hop with ⟨i', hi, rfl⟩
      exact Front.sendAlike_of_standing (h.clients.standing i i' hi) ⟨rfl, rfl⟩
  | endSpan k ending =>
      unfold Numbering.op? at hop
      dsimp only at hop
      split at hop
      · rename_i i' hi
        rcases Option.map_eq_some_iff.mp hop with ⟨k', hk, rfl⟩
        cases ending with
        | cancel => exact Or.inl ⟨rfl, rfl⟩
        | send => exact h.sendAlike_closing hk hi
        | drop => exact h.sendAlike_closing hk hi
        | panic => exact h.sendAlike_closing hk hi
      · cases hop
  | abandon i m =>
      rcases Option.map_eq_some_iff.mp hop with ⟨i', -, rfl⟩
      exact Or.inl ⟨rfl, rfl⟩
  | flush i =>
      rcases Option.map_eq_some_iff.mp hop with ⟨i', -, rfl⟩
      exact Or.inl ⟨rfl, rfl⟩
  | drop i =>
      rcases Option.map_eq_some_iff.mp hop with ⟨i', -, rfl⟩
      exact Or.inl ⟨rfl, rfl⟩
  | derive i sub =>
      rcases Option.map_eq_some_iff.mp hop with ⟨i', -, rfl⟩
      exact Or.inl ⟨rfl, rfl⟩
  | startSpan i name =>
      rcases Option.map_eq_some_iff.mp hop with ⟨i', -, rfl⟩
      exact Or.inl ⟨rfl, rfl⟩
  | rateSpan k rate =>
      rcases Option.map_eq_some_iff.mp hop with ⟨k', -, rfl⟩
      exact Or.inl ⟨rfl, rfl⟩
  | wait nanos =>
      cases hop
      exact Or.inl ⟨rfl, rfl⟩

/-- So it draws alike, and decides alike. -/
theorem drawsAfter_eq (h : Shadow nu f f') {op op' : Op} (hop : nu.op? f op = some op') :
    f'.drawsAfter op' = f.drawsAfter op ∧
      (f'.sending? op').map (fun x => x.2.fate f'.draws) =
        (f.sending? op).map (fun x => x.2.fate f.draws) := by
  unfold Front.drawsAfter
  rcases h.sendAlike hop with ⟨hnone, hnone'⟩ | ⟨c, c', m, m', hsome, hsome', halike⟩
  · rw [hnone, hnone', h.draws]
    exact ⟨rfl, rfl⟩
  · rw [hsome, hsome', h.draws]
    exact ⟨(halike.fate f.draws).2, congrArg some (halike.fate f.draws).1⟩

/-! ### The step -/

/-- An operation that does not draw is left out. -/
theorem forget (h : Shadow nu f f') {op : Op} (hidle : f.drawsAfter op = f.draws) :
    Shadow (nu.forget f op) (f.step op) f' := by
  have hdraws : f'.draws = (f.step op).draws := h.draws.trans hidle.symm
  cases op with
  | derive i sub =>
      have hspans : SpansAlike nu (f.step (.derive i sub)).spans f'.spans := by
        rw [(f.step_derive i sub).1]
        exact h.spans
      unfold Numbering.forget
      dsimp only
      rcases f.derive_cases i sub with ⟨hsame, -⟩ | ⟨child, p, hnew, -, -⟩
      · rw [if_neg (by rw [hsame]; exact Nat.lt_irrefl _)]
        exact ⟨hdraws, hsame ▸ h.clients, hspans⟩
      · rw [if_pos (by rw [hnew, List.length_append]; exact Nat.lt_succ_self _)]
        refine ⟨hdraws, hnew ▸ h.clients.skip child, hspans.mono ?_ ?_⟩
        · rw [Names.skip, List.length_append]
          exact Nat.le_add_right _ _
        · intro j j' _ hj
          exact Names.name?_skip hj
  | drop i =>
      have hlength : (nu.clients.lose i).names.length = nu.clients.names.length := List.length_set
      refine ⟨hdraws, h.clients.lose i, h.spans.mono (Nat.le_of_eq hlength.symm) ?_⟩
      intro j j' _ hj
      exact (Names.name?_lose hj).2
  | startSpan i name => exact ⟨hdraws, h.clients, h.spans.skip _⟩
  | rateSpan k rate => exact ⟨hdraws, h.clients, h.spans.lose k _⟩
  | endSpan k ending => exact ⟨hdraws, h.clients, h.spans.lose k _⟩
  | emit i m => exact ⟨hdraws, h.clients, h.spans⟩
  | abandon i m => exact ⟨hdraws, h.clients, h.spans⟩
  | flush i => exact ⟨hdraws, h.clients, h.spans⟩
  | wait nanos => exact ⟨hdraws, h.clients, h.spans⟩

/-- A client is made in both runs, or in none: the two that it is made from have
the same standing, and the prefix is the same. -/
theorem keep_derive (h : Shadow nu f f') {i i' : Nat} (hi : nu.clients.name? i = some i')
    (sub : String) (hdraws : (f'.step (.derive i' sub)).draws = (f.step (.derive i sub)).draws) :
    Shadow (nu.keep f (.derive i sub)) (f.step (.derive i sub)) (f'.step (.derive i' sub)) := by
  have hspans : SpansAlike nu (f.step (.derive i sub)).spans (f'.step (.derive i' sub)).spans := by
    rw [(f.step_derive i sub).1, (f'.step_derive i' sub).1]
    exact h.spans
  have hstanding := h.clients.standing i i' hi
  unfold Numbering.keep
  dsimp only
  rcases f.derive_cases i sub with ⟨hsame, hwhy⟩ | ⟨child, p, hnew, hlive, hparse⟩
  · rw [if_neg (by rw [hsame]; exact Nat.lt_irrefl _)]
    rcases f'.derive_cases i' sub with ⟨hsame', -⟩ | ⟨child', p', -, hlive', hparse'⟩
    · refine ⟨hdraws, ?_, hspans⟩
      rw [hsame, hsame']
      exact h.clients
    · rcases hwhy with hnone | ⟨e, herror⟩
      · rw [hstanding, hnone] at hlive'
        cases hlive'
      · rw [herror] at hparse'
        cases hparse'
  · rw [if_pos (by rw [hnew, List.length_append]; exact Nat.lt_succ_self _)]
    rcases f'.derive_cases i' sub with ⟨-, hnone | ⟨e, herror⟩⟩ | ⟨child', p', hnew', hlive', -⟩
    · rw [hstanding, hlive] at hnone
      cases hnone
    · rw [herror] at hparse
      cases hparse
    · rw [hstanding, hlive] at hlive'
      refine ⟨hdraws, ?_, hspans.mono ?_ ?_⟩
      · rw [hnew, hnew']
        exact h.clients.add (Option.some.inj hlive').symm
      · rw [Names.add, List.length_append]
        exact Nat.le_add_right _ _
      · intro j j' hlt hj
        rcases Names.name?_add hj with hold | ⟨hlast, -⟩
        · exact hold
        · exact absurd hlast (Nat.ne_of_lt hlt)

/-- An operation is done in both runs. -/
theorem keep (h : Shadow nu f f') {op op' : Op} (hop : nu.op? f op = some op') :
    Shadow (nu.keep f op) (f.step op) (f'.step op') := by
  have hdraws : (f'.step op').draws = (f.step op).draws := (h.drawsAfter_eq hop).1
  cases op with
  | derive i sub =>
      rcases Option.map_eq_some_iff.mp hop with ⟨i', hi, rfl⟩
      exact h.keep_derive hi sub hdraws
  | drop i =>
      rcases Option.map_eq_some_iff.mp hop with ⟨i', hi, rfl⟩
      exact ⟨hdraws, h.clients.drop hi, h.spans⟩
  | startSpan i name =>
      rcases Option.map_eq_some_iff.mp hop with ⟨i', hi, rfl⟩
      refine ⟨hdraws, h.clients, h.spans.add ⟨rfl, rfl, rfl, Names.name?_lt hi, ?_⟩⟩
      intro j hj
      rw [hi] at hj
      exact Option.some.inj hj
  | rateSpan k rate =>
      rcases Option.map_eq_some_iff.mp hop with ⟨k', hk, rfl⟩
      refine ⟨hdraws, h.clients, h.spans.change hk ?_⟩
      intro a a' htwin
      exact ⟨htwin.name, rfl, htwin.finished, htwin.there, htwin.client⟩
  | endSpan k ending =>
      unfold Numbering.op? at hop
      dsimp only at hop
      split at hop
      · rcases Option.map_eq_some_iff.mp hop with ⟨k', hk, rfl⟩
        refine ⟨hdraws, h.clients, h.spans.change hk ?_⟩
        intro a a' htwin
        exact ⟨htwin.name, htwin.rate, rfl, htwin.there, htwin.client⟩
      · cases hop
  | emit i m =>
      rcases Option.map_eq_some_iff.mp hop with ⟨i', -, rfl⟩
      exact ⟨hdraws, h.clients, h.spans⟩
  | abandon i m =>
      rcases Option.map_eq_some_iff.mp hop with ⟨i', -, rfl⟩
      exact ⟨hdraws, h.clients, h.spans⟩
  | flush i =>
      rcases Option.map_eq_some_iff.mp hop with ⟨i', -, rfl⟩
      exact ⟨hdraws, h.clients, h.spans⟩
  | wait nanos =>
      cases hop
      exact ⟨hdraws, h.clients, h.spans⟩

end Shadow

/-! ## Runs -/

namespace Session

variable {σ : Type} [Transport σ]

/-- What is decided by the operations that are left of a run, one list for each. -/
def verdicts (s : Session σ) : List (Op × Bool) → List (List Fate)
  | [] => []
  | (op, kept) :: rest =>
    let (s, events) := s.step op
    (if kept then [Event.verdicts events] else []) ++ s.verdicts rest

/-- The operations that are left out do not draw. -/
def Spares (s : Session σ) : List (Op × Bool) → Prop
  | [] => True
  | (op, kept) :: rest => (kept = false → ¬ s.Draws op) ∧ (s.step op).1.Spares rest

/-- An operation decides of the metric that its front sends. -/
theorem step_verdicts (s : Session σ) (op : Op) :
    Event.verdicts (s.step op).2 =
      ((s.front.sending? op).map fun x => x.2.fate s.front.draws).toList := by
  rcases step_tells s op with ⟨hsending, -, hverdicts⟩ | ⟨i, c, m, -, -, -, hsending, -, hverdicts⟩
  · rw [hsending, hverdicts]
    rfl
  · rw [hsending, hverdicts]
    rfl

/-- An operation that does not draw leaves the random source of the front alone. -/
theorem drawsAfter_of_idle {s : Session σ} {op : Op} (h : ¬ s.Draws op) :
    s.front.drawsAfter op = s.front.draws := by
  have hfront : (s.step op).1.draws = s.front.drawsAfter op :=
    congrArg Front.draws (step_follows s op).front
  rw [← hfront]
  exact ((step_sampled s op).keeps h).1

/-- In the shadow of a run from which operations that do not draw have been left
out, every metric that is left meets the same fate, and the random source comes
to the same state. -/
theorem omitted_verdicts {nu : Numbering} {s s' : Session σ} (h : Shadow nu s.front s'.front)
    {marked : List (Op × Bool)} {left : List Op} (hleft : nu.left? s.front marked = some left)
    (hidle : s.Spares marked) :
    s'.verdicts (left.map (·, true)) = s.verdicts marked ∧
      (s'.run left).1.draws = (s.run (marked.map (·.1))).1.draws := by
  induction marked generalizing nu s s' left with
  | nil =>
      cases hleft
      exact ⟨rfl, h.draws⟩
  | cons x rest ih =>
      rcases x with ⟨op, kept⟩
      have hstep := (step_follows s op).front
      cases kept with
      | false =>
          have hshadow := h.forget (drawsAfter_of_idle (hidle.1 rfl))
          rw [← hstep] at hshadow
          exact ih hshadow (by rw [hstep]; exact hleft) hidle.2
      | true =>
          unfold Numbering.left? at hleft
          split at hleft
          · rename_i op' left' hop hrest
            cases hleft
            have hshadow := h.keep hop
            rw [← hstep, ← (step_follows s' op').front] at hshadow
            rcases ih hshadow (by rw [hstep]; exact hrest) hidle.2 with ⟨hverdicts, hdraws⟩
            refine ⟨?_, hdraws⟩
            show [Event.verdicts (s'.step op').2] ++ (s'.step op').1.verdicts _ =
              [Event.verdicts (s.step op).2] ++ (s.step op).1.verdicts rest
            rw [hverdicts, step_verdicts, step_verdicts, (h.drawsAfter_eq hop).2]
          · cases hleft

/-- Draws and rates agree over whole runs, on any mix of clients that send and
clients that discard, whatever becomes of the packets.

* At every point the random source moves by one number exactly if the operation
  draws, the number decides of one metric with all its lines, and a value line
  names its rate exactly if there was a draw (`SampledStep`).
* The rate is the last one given, to a metric as to a span.
* Let operations that do not draw be left out, such that what is left refers to
  nothing that has been left out. Then every metric that is left meets the same
  fate as before, and the random source comes to the same state. (Spans that
  there are at the start are on clients that there are.) -/
theorem sampling_agrees (s : Session σ) (ops : List Op) :
    (∀ past op later, ops = past ++ op :: later → SampledStep (s.run past).1 op) ∧
    (∀ past i name later, ops = past ++ .startSpan i name :: later →
      let k := (s.run past).1.spans.length
      ((s.run ops).1.spans[k]?).map (·.rate) =
        some ((later.filterMap (Op.rateOf? k)).getLastD Binary64.one)) ∧
    (∀ (m : Metric) (rates : List Binary64),
      (rates.foldl Metric.withRate m).rate = rates.getLastD m.rate) ∧
    ((∀ span ∈ s.spans, span.client < s.clients.length) →
      ∀ (marked : List (Op × Bool)) (left : List Op), marked.map (·.1) = ops → s.Spares marked →
      (Numbering.start s.front).left? s.front marked = some left →
      s.verdicts (left.map (·, true)) = s.verdicts marked ∧
        (s.run left).1.draws = (s.run ops).1.draws) := by
  refine ⟨?_, ?_, Metric.rate_foldl_withRate, ?_⟩
  · intro past op later _
    exact step_sampled (s.run past).1 op
  · intro past i name later hops k
    rw [hops, run_append]
    exact run_rate (s.run past).1 i name later
  · intro hspans marked left hops hidle hleft
    have hthere : ∀ span ∈ s.front.spans, span.client < s.front.clients.length := by
      intro span hspan
      show span.client < (s.clients.map _).length
      rw [List.length_map]
      exact hspans span hspan
    rw [← hops]
    exact omitted_verdicts (shadow_start hthere) hleft hidle

/-- A client that sends and one that discards. A metric of the second one, a span
that is cancelled and a flush are left out, and what is left of the first one
is renumbered. -/
theorem sampling_agrees_mixed :
    let half : Binary64 := ⟨0x3fe0000000000000⟩
    let sends : Client := ⟨Prefix.empty, true, 0, none⟩
    let discards : Client := ⟨Prefix.empty, false, 0, none⟩
    let s : Session Link := ⟨Sink.init none .idle, [some sends, some discards], [], ⟨0⟩, 0⟩
    let hits : Metric := ⟨"hits", .increment, half⟩
    let marked := [(Op.emit 1 hits, false), (.startSpan 0 "lost", false),
      (.endSpan 0 .cancel, false), (.emit 0 hits, true), (.flush 0, false),
      (.startSpan 0 "kept", true), (.rateSpan 1 half, true), (.endSpan 1 .drop, true)]
    let left := [Op.emit 0 hits, .startSpan 0 "kept", .rateSpan 0 half, .endSpan 0 .drop]
    (∀ span ∈ s.spans, span.client < s.clients.length) ∧ s.Spares marked ∧
      (Numbering.start s.front).left? s.front marked = some left ∧
      s.verdicts (left.map (·, true)) = s.verdicts marked := by
  intro half sends discards s hits marked left
  have hspans : ∀ span ∈ s.spans, span.client < s.clients.length := by
    intro span hspan
    cases hspan
  have hidle : s.Spares marked := by
    refine ⟨?_, ?_, ?_, ?_, ?_, ?_, ?_, ?_, trivial⟩
    · rintro - ⟨i, c, m, hsent, hc, hlive, -⟩
      cases hsent
      cases hc
      cases hlive
    · rintro - ⟨i, c, m, hnone, -⟩
      cases hnone
    · rintro - ⟨i, c, m, hnone, -⟩
      cases hnone
    · intro hkept
      cases hkept
    · rintro - ⟨i, c, m, hnone, -⟩
      cases hnone
    · intro hkept
      cases hkept
    · intro hkept
      cases hkept
    · intro hkept
      cases hkept
  have hleft : (Numbering.start s.front).left? s.front marked = some left := rfl
  rcases sampling_agrees s (marked.map (·.1)) with ⟨-, -, -, homitted⟩
  exact ⟨hspans, hidle, hleft, (homitted hspans marked left rfl hidle hleft).1⟩

end Session

end Statsd

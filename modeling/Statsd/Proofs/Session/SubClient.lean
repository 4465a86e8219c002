import Statsd.Link
import Statsd.Proofs.Prefix
import Statsd.Proofs.Session.Draws

/-!
# Statsd.Proofs.Session.SubClient — a sub client is its parent with longer names

A client made from another one shares its sink. All that it adds is a prefix,
which can as well be written in front of the names: whatever is done on the sub
client can be done on its parent.

* `Op.onParent` is an operation on the sub client as one on its parent.
* `Stands` is what holds of the clients' sides of the two runs at every point:
  the parent is there as long as the sub client is, and spans of the sub client
  are spans of the parent.
* **Step**: the two operations ask the same of the sink and keep this
  (`Stands.requests`, `Stands.step`), as a metric of the sub client has the
  message of the one with the longer name (`Metric.request_join`).
* **Run**: so the sinks are the same after every step (`run_onParent`).
-/

namespace Statsd

/-! ## Names -/

/-- A metric name behind a prefix. A name that is empty stays so. -/
def nameBehind (sub name : String) : String := if name = "" then "" else sub ++ "." ++ name

/-- The same metric with its name behind a prefix. -/
def Metric.behind (sub : String) (m : Metric) : Metric := { m with name := nameBehind sub m.name }

theorem nameBehind_eq_empty (sub name : String) : nameBehind sub name = "" ↔ name = "" := by
  unfold nameBehind
  by_cases hname : name = ""
  · rw [if_pos hname]
    exact ⟨fun _ => hname, fun _ => rfl⟩
  · rw [if_neg hname]
    exact ⟨fun h => absurd h (Prefix.dotted_ne_empty sub name), fun h => absurd h hname⟩

namespace Metric

/-- The longer name makes no difference to what is decided of a metric. -/
theorem refusal_behind (sub : String) (m : Metric) : (m.behind sub).refusal? = m.refusal? := by
  have hempty : (nameBehind sub m.name).isEmpty = m.name.isEmpty := by
    rw [Bool.eq_iff_iff, String.isEmpty_iff, String.isEmpty_iff]
    exact nameBehind_eq_empty sub m.name
  unfold refusal? behind
  dsimp only
  rw [hempty]

theorem fate_behind (sub : String) (m : Metric) (g : Generator) :
    (m.behind sub).fate g = m.fate g ∧ (m.behind sub).drawsAfter g = m.drawsAfter g := by
  unfold fate drawsAfter
  rw [refusal_behind]
  exact ⟨rfl, rfl⟩

/-- With a name that is not empty a metric has the same message under the longer
prefix as with the longer name. -/
theorem message_join (p : Prefix) {q : Prefix} (hq : q.text ≠ "") {m : Metric}
    (hname : m.name ≠ "") :
    m.message (p.join q) = (m.behind q.text).message p := by
  have hfull : fullName (p.join q) m.name = fullName p (nameBehind q.text m.name) := by
    rw [fullName_join p hq, nameBehind, if_neg hname]
  have hvalue : m.valueLine (p.join q) = (m.behind q.text).valueLine p := by
    unfold valueLine
    rw [hfull]
    rfl
  have hreset : m.resetLine (p.join q) = (m.behind q.text).resetLine p := by
    unfold resetLine
    rw [hfull]
    rfl
  unfold message text
  rw [hvalue, hreset]
  rfl

/-- A metric under the longer prefix asks the same of the sink as with the longer name. -/
theorem request_join (p : Prefix) {q : Prefix} (hq : q.text ≠ "") (m : Metric) (g : Generator) :
    (m.behind q.text).request p g = m.request (p.join q) g := by
  unfold request
  rw [(m.fate_behind q.text g).1]
  cases hfate : m.fate g with
  | refused => rfl
  | leftOut => rfl
  | passed =>
      have hnamed := (m.refusal_none_iff.mp (of_fate_passed hfate).1).1
      dsimp only
      rw [message_join p hq hnamed]

end Metric

/-! ## Operations on the parent -/

/-- What is done on client `k`, done on client `p` with what stands behind the
prefix `sub` of `k`. Instead of giving `k` up, `p` is flushed. -/
def Op.onParent (p k : Nat) (sub : String) : Op → Op
  | .emit i m => if i = k then .emit p (m.behind sub) else .emit i m
  | .abandon i m => if i = k then .abandon p (m.behind sub) else .abandon i m
  | .flush i => if i = k then .flush p else .flush i
  | .drop i => if i = k then .flush p else .drop i
  | .derive i t => if i = k then .derive p (Prefix.behind sub t) else .derive i t
  | .startSpan i name => if i = k then .startSpan p (nameBehind sub name) else .startSpan i name
  | op => op

/-- The client that an operation is on, directly or by one of its spans. -/
def Front.subject? (f : Front) : Op → Option Nat
  | .emit i _ => some i
  | .abandon i _ => some i
  | .flush i => some i
  | .drop i => some i
  | .derive i _ => some i
  | .startSpan i _ => some i
  | .rateSpan j _ => (f.spans[j]?).map (·.client)
  | .endSpan j _ => (f.spans[j]?).map (·.client)
  | .wait _ => none

/-- A client that is there. -/
def Front.There (f : Front) (i : Nat) : Prop := ((f.clients[i]?).join).isSome = true

/-- An operation that is on client `k` finds it there, and does not give client
`p` up before it. -/
structure Front.Within (f : Front) (p k : Nat) (op : Op) : Prop where
  there : f.subject? op = some k → f.There k
  inner : op = .drop p → ¬ f.There k

instance (f : Front) (i : Nat) : Decidable (f.There i) := inferInstanceAs (Decidable (_ = true))

instance (f : Front) (p k : Nat) (op : Op) : Decidable (f.Within p k op) :=
  decidable_of_iff ((f.subject? op = some k → f.There k) ∧ (op = .drop p → ¬ f.There k))
    ⟨fun h => ⟨h.1, h.2⟩, fun h => ⟨h.there, h.inner⟩⟩

/-- All operations of a run do so. -/
def Front.Inside (f : Front) (p k : Nat) : List Op → Prop
  | [] => True
  | op :: rest => f.Within p k op ∧ (f.step op).Inside p k rest

instance Front.decidableInside (p k : Nat) :
    (f : Front) → (ops : List Op) → Decidable (f.Inside p k ops)
  | _, [] => inferInstanceAs (Decidable True)
  | f, op :: rest =>
    have := decidableInside p k (f.step op) rest
    inferInstanceAs (Decidable (_ ∧ _))

/-! ## What holds in both runs -/

/-- A span of client `k`, as one of client `p`. -/
def Span.onParent (p : Nat) (sub : String) (span : Span) : Span :=
  { span with client := p, name := nameBehind sub span.name }

/-- The clients of a run with a sub client `k` of `p`, and those of the run in
which all is done on the parent. There the sub client is never given up. -/
structure ClientsStand (p k : Nat) (q : Prefix) (cs cs' : List (Option Client)) : Prop where
  distinct : p ≠ k
  length : cs'.length = cs.length
  others : ∀ i, i ≠ k → cs'[i]? = cs[i]?
  kept : ∃ c, cs'[k]? = some (some c) ∧
    (cs[k]? = some none ∨ cs[k]? = some (some c) ∧
      ∃ parent, cs[p]? = some (some parent) ∧ c.scope = parent.scope.join q ∧ c.live = parent.live)

/-- The spans of both runs: they are the same, but for those that are started on
the parent instead of the sub client. -/
structure SpansStand (p k : Nat) (sub : String) (spans spans' : List Span) : Prop where
  length : spans'.length = spans.length
  twins : ∀ (j : Nat) (span : Span), spans[j]? = some span →
    spans'[j]? = some span ∨ (span.client = k ∧ spans'[j]? = some (span.onParent p sub))

/-- The clients' sides of both runs. -/
structure Stands (p k : Nat) (q : Prefix) (f f' : Front) : Prop where
  draws : f'.draws = f.draws
  clock : f'.clock = f.clock
  clients : ClientsStand p k q f.clients f'.clients
  spans : SpansStand p k q.text f.spans f'.spans

/-! ### Clients -/

namespace ClientsStand

variable {p k : Nat} {q : Prefix} {cs cs' : List (Option Client)}

/-- As long as the sub client is there, so is its parent, with the shorter prefix. -/
theorem parent (h : ClientsStand p k q cs cs') (hk : (cs[k]?).join.isSome = true) :
    ∃ c parent, cs[k]? = some (some c) ∧ cs'[k]? = some (some c) ∧
      cs[p]? = some (some parent) ∧ cs'[p]? = some (some parent) ∧
      c.scope = parent.scope.join q ∧ c.live = parent.live := by
  rcases h.kept with ⟨c, hkept, hgone | ⟨hc, parent, hparent, hscope, hlive⟩⟩
  · rw [hgone] at hk
    cases hk
  · have hparent' := h.others p h.distinct
    rw [hparent] at hparent'
    exact ⟨c, parent, hc, hkept, hparent, hparent', hscope, hlive⟩

theorem lt (h : ClientsStand p k q cs cs') : k < cs.length := by
  rcases h.kept with ⟨c, hkept, -⟩
  rw [← h.length]
  exact (List.getElem?_eq_some_iff.mp hkept).1

/-- The sub client is given up, and there it stays. -/
theorem drop_sub (h : ClientsStand p k q cs cs') : ClientsStand p k q (cs.set k none) cs' := by
  rcases h.kept with ⟨c, hkept, -⟩
  refine ⟨h.distinct, ?_, ?_, c, hkept, Or.inl (List.getElem?_set_self h.lt)⟩
  · rw [List.length_set]
    exact h.length
  · intro i hi
    rw [List.getElem?_set_ne (Ne.symm hi)]
    exact h.others i hi

/-- Another client is given up, the parent only after the sub client. -/
theorem drop (h : ClientsStand p k q cs cs') {i : Nat} (hi : i ≠ k)
    (hinner : i = p → ¬ (cs[k]?).join.isSome = true) :
    ClientsStand p k q (cs.set i none) (cs'.set i none) := by
  refine ⟨h.distinct, ?_, ?_, ?_⟩
  · rw [List.length_set, List.length_set]
    exact h.length
  · intro j hj
    rw [List.getElem?_set, List.getElem?_set, h.length, h.others j hj]
  · rcases h.kept with ⟨c, hkept, hwhich⟩
    rw [List.getElem?_set_ne hi, List.getElem?_set_ne hi]
    refine ⟨c, hkept, ?_⟩
    rcases hwhich with hgone | ⟨hc, parent, hparent, hscope, hlive⟩
    · exact Or.inl hgone
    · have hip : i ≠ p := by
        intro hip
        apply hinner hip
        rw [hc]
        rfl
      rw [List.getElem?_set_ne hip]
      exact Or.inr ⟨hc, parent, hparent, hscope, hlive⟩

/-- The same client is made in both runs. -/
theorem add (h : ClientsStand p k q cs cs') (x : Option Client) :
    ClientsStand p k q (cs ++ [x]) (cs' ++ [x]) := by
  have hlt := h.lt
  refine ⟨h.distinct, ?_, ?_, ?_⟩
  · rw [List.length_append, List.length_append, h.length]
  · intro i hi
    rw [List.getElem?_append, List.getElem?_append, h.length, h.others i hi]
  · rcases h.kept with ⟨c, hkept, hwhich⟩
    rw [List.getElem?_append_left hlt, List.getElem?_append_left (h.length ▸ hlt)]
    refine ⟨c, hkept, ?_⟩
    rcases hwhich with hgone | ⟨hc, parent, hparent, hscope, hlive⟩
    · exact Or.inl hgone
    · rw [List.getElem?_append_left (List.getElem?_eq_some_iff.mp hparent).1]
      exact Or.inr ⟨hc, parent, hparent, hscope, hlive⟩

end ClientsStand

/-! ### Spans -/

namespace SpansStand

variable {p k : Nat} {sub : String} {spans spans' : List Span}

/-- A span is started in both runs. -/
theorem add (h : SpansStand p k sub spans spans') {span span' : Span}
    (hspan : span' = span ∨ (span.client = k ∧ span' = span.onParent p sub)) :
    SpansStand p k sub (spans ++ [span]) (spans' ++ [span']) := by
  refine ⟨?_, ?_⟩
  · rw [List.length_append, List.length_append, h.length]
    rfl
  · intro j a ha
    rw [List.getElem?_append] at ha ⊢
    rw [h.length]
    split at ha
    · rename_i hlt
      rw [if_pos hlt]
      exact h.twins j a ha
    · rename_i hge
      rw [if_neg hge]
      rcases List.getElem?_eq_some_iff.mp ha with ⟨hzero, hget⟩
      have hj : j - spans.length = 0 := Nat.lt_one_iff.mp hzero
      simp only [hj] at ha ⊢
      cases ha
      rcases hspan with rfl | ⟨hclient, rfl⟩
      · exact Or.inl rfl
      · exact Or.inr ⟨hclient, rfl⟩

/-- A span is changed in both runs, in what does not depend on the client and the name. -/
theorem change (h : SpansStand p k sub spans spans') (j : Nat) {change : Span → Span}
    (hclient : ∀ span, (change span).client = span.client)
    (hparent : ∀ span, change (span.onParent p sub) = (change span).onParent p sub) :
    SpansStand p k sub (spans.modify j change) (spans'.modify j change) := by
  refine ⟨?_, ?_⟩
  · rw [List.length_modify, List.length_modify]
    exact h.length
  · intro i a ha
    rw [List.getElem?_modify] at ha ⊢
    rcases Option.map_eq_some_iff.mp ha with ⟨span, hspan, rfl⟩
    rcases h.twins i span hspan with hsame | ⟨hk, hmoved⟩
    · rw [hsame]
      exact Or.inl rfl
    · rw [hmoved]
      by_cases hji : j = i
      · simp only [hji, if_true, hclient]
        exact Or.inr ⟨hk, congrArg some (hparent span)⟩
      · simp only [hji, if_false]
        exact Or.inr ⟨hk, rfl⟩

end SpansStand

/-! ## The step -/

/-- Metrics sent on two clients that are the same to the sink and to the random source. -/
def SendSame (x x' : Option (Client × Metric)) : Prop :=
  (x = none ∧ x' = none) ∨
    ∃ c c' m m', x = some (c, m) ∧ x' = some (c', m') ∧
      ∀ g, m'.request c'.scope g = m.request c.scope g ∧ m'.drawsAfter g = m.drawsAfter g

theorem SendSame.of_eq {x x' : Option (Client × Metric)} (h : x' = x) : SendSame x x' := by
  rw [h]
  cases x with
  | none => exact Or.inl ⟨rfl, rfl⟩
  | some y => exact Or.inr ⟨y.1, y.1, y.2, y.2, rfl, rfl, fun g => ⟨rfl, rfl⟩⟩

namespace Stands

variable {p k : Nat} {q : Prefix} {f f' : Front}

theorem live?_other (h : Stands p k q f f') {i : Nat} (hi : i ≠ k) : f'.live? i = f.live? i := by
  unfold Front.live?
  rw [h.clients.others i hi]

/-- The sub client sends if the parent does, and under the longer prefix. -/
theorem live?_sub (h : Stands p k q f f') (hk : f.There k) :
    f'.live? k = f.live? k ∧
    ((f.live? k = none ∧ f'.live? p = none) ∨
      ∃ c parent, f.live? k = some c ∧ f'.live? p = some parent ∧
        c.scope = parent.scope.join q) := by
  rcases h.clients.parent hk with ⟨c, parent, hc, hc', -, hparent, hscope, hlive⟩
  unfold Front.live?
  rw [hc, hc', hparent]
  refine ⟨rfl, ?_⟩
  rw [Option.join_some, Option.join_some, Option.filter_some, Option.filter_some, hlive]
  cases parent.live with
  | true => exact Or.inr ⟨c, parent, rfl, rfl, hscope⟩
  | false => exact Or.inl ⟨rfl, rfl⟩

/-- A metric sent on the sub client is the one with the longer name sent on the parent. -/
theorem sendSame_metric (h : Stands p k q f f') (hq : q.text ≠ "") (hk : f.There k) (m : Metric) :
    SendSame ((f.live? k).map fun c => (c, m))
      ((f'.live? p).map fun c => (c, m.behind q.text)) := by
  rcases (h.live?_sub hk).2 with ⟨hnone, hnone'⟩ | ⟨c, parent, hlive, hlive', hscope⟩
  · rw [hnone, hnone']
    exact Or.inl ⟨rfl, rfl⟩
  · rw [hlive, hlive']
    refine Or.inr ⟨c, parent, m, m.behind q.text, rfl, rfl, fun g => ?_⟩
    refine ⟨?_, (m.fate_behind q.text g).2⟩
    rw [hscope]
    exact m.request_join parent.scope hq g

/-- What the end of a span sends is the same, whichever client it has been started on. -/
theorem sendSame_closing (h : Stands p k q f f') (hq : q.text ≠ "") (j : Nat)
    (hk : (f.spans[j]?).map (·.client) = some k → f.There k) :
    SendSame (f.closing? j) (f'.closing? j) := by
  unfold Front.closing?
  rw [h.clock]
  cases hspan : f.spans[j]? with
  | none =>
      have hnone : f'.spans[j]? = none := by
        rw [List.getElem?_eq_none_iff, h.spans.length]
        exact List.getElem?_eq_none_iff.mp hspan
      rw [hnone]
      exact Or.inl ⟨rfl, rfl⟩
  | some span =>
      rw [hspan, Option.map_some] at hk
      rcases h.spans.twins j span hspan with hsame | ⟨hclient, hmoved⟩
      · -- the span is the same, and so is its client
        have hlive : f'.live? span.client = f.live? span.client := by
          by_cases hsub : span.client = k
          · rw [hsub]
            exact (h.live?_sub (hk (congrArg some hsub))).1
          · exact h.live?_other hsub
        apply SendSame.of_eq
        rw [hsame]
        dsimp only
        rw [hlive]
      · -- the span is one of the sub client
        rw [hmoved]
        dsimp only [Span.onParent]
        cases span.finished with
        | true => exact Or.inl ⟨rfl, rfl⟩
        | false =>
            rw [hclient]
            exact h.sendSame_metric hq (hk (congrArg some hclient)) _

/-- Both operations send the same. -/
theorem sendSame (h : Stands p k q f f') (hq : q.text ≠ "") {op : Op} (hwithin : f.Within p k op) :
    SendSame (f.sending? op) (f'.sending? (op.onParent p k q.text)) := by
  cases op with
  | emit i m =>
      by_cases hi : i = k
      · subst hi
        have hsub : (Op.emit i m).onParent p i q.text = .emit p (m.behind q.text) := if_pos rfl
        rw [hsub]
        exact h.sendSame_metric hq (hwithin.there rfl) m
      · have hother : (Op.emit i m).onParent p k q.text = .emit i m := if_neg hi
        rw [hother]
        apply SendSame.of_eq
        unfold Front.sending?
        dsimp only
        rw [h.live?_other hi]
  | endSpan j ending =>
      have hclosing := h.sendSame_closing hq j hwithin.there
      cases ending with
      | cancel => exact Or.inl ⟨rfl, rfl⟩
      | send => exact hclosing
      | drop => exact hclosing
      | panic => exact hclosing
  | abandon i m =>
      unfold Op.onParent
      dsimp only
      split
      · exact Or.inl ⟨rfl, rfl⟩
      · exact Or.inl ⟨rfl, rfl⟩
  | flush i =>
      unfold Op.onParent
      dsimp only
      split
      · exact Or.inl ⟨rfl, rfl⟩
      · exact Or.inl ⟨rfl, rfl⟩
  | drop i =>
      unfold Op.onParent
      dsimp only
      split
      · exact Or.inl ⟨rfl, rfl⟩
      · exact Or.inl ⟨rfl, rfl⟩
  | derive i t =>
      unfold Op.onParent
      dsimp only
      split
      · exact Or.inl ⟨rfl, rfl⟩
      · exact Or.inl ⟨rfl, rfl⟩
  | startSpan i name =>
      unfold Op.onParent
      dsimp only
      split
      · exact Or.inl ⟨rfl, rfl⟩
      · exact Or.inl ⟨rfl, rfl⟩
  | rateSpan j rate => exact Or.inl ⟨rfl, rfl⟩
  | wait nanos => exact Or.inl ⟨rfl, rfl⟩

/-- Both operations draw the same. -/
theorem drawsAfter_eq (h : Stands p k q f f') (hq : q.text ≠ "") {op : Op}
    (hwithin : f.Within p k op) :
    f'.drawsAfter (op.onParent p k q.text) = f.drawsAfter op := by
  unfold Front.drawsAfter
  rcases h.sendSame hq hwithin with ⟨hnone, hnone'⟩ | ⟨c, c', m, m', hsome, hsome', hsame⟩
  · rw [hnone, hnone']
    exact h.draws
  · rw [hsome, hsome', h.draws]
    exact (hsame f.draws).2

/-- A sub client is there to flush exactly if its parent is. -/
theorem flushes_eq (h : Stands p k q f f') (hk : f.There k) :
    (f'.live? p).isSome = (f.live? k).isSome := by
  rcases (h.live?_sub hk).2 with ⟨hnone, hnone'⟩ | ⟨c, parent, hlive, hlive', -⟩
  · rw [hnone, hnone']
  · rw [hlive, hlive']
    rfl

/-- Both operations ask the same of the sink. -/
theorem requests (h : Stands p k q f f') (hq : q.text ≠ "") {op : Op} (hwithin : f.Within p k op) :
    f'.requests (op.onParent p k q.text) = f.requests op := by
  have hsends := h.sendSame hq hwithin
  rcases hsends with ⟨hnone, hnone'⟩ | ⟨c, c', m, m', hsome, hsome', hsame⟩
  · unfold Front.requests
    rw [hnone, hnone']
    cases op with
    | flush i =>
        by_cases hi : i = k
        · subst hi
          simp only [Op.onParent, if_true, h.flushes_eq (hwithin.there rfl)]
        · simp only [Op.onParent, hi, if_false, h.live?_other hi]
    | drop i =>
        by_cases hi : i = k
        · subst hi
          simp only [Op.onParent, if_true, h.flushes_eq (hwithin.there rfl)]
        · simp only [Op.onParent, hi, if_false, h.live?_other hi]
    | emit i m =>
        by_cases hi : i = k
        · simp only [Op.onParent, hi, if_true]
        · simp only [Op.onParent, hi, if_false]
    | abandon i m =>
        by_cases hi : i = k
        · simp only [Op.onParent, hi, if_true]
        · simp only [Op.onParent, hi, if_false]
    | derive i t =>
        by_cases hi : i = k
        · simp only [Op.onParent, hi, if_true]
        · simp only [Op.onParent, hi, if_false]
    | startSpan i name =>
        by_cases hi : i = k
        · simp only [Op.onParent, hi, if_true]
        · simp only [Op.onParent, hi, if_false]
    | rateSpan j rate => rfl
    | endSpan j ending => rfl
    | wait nanos => rfl
  · unfold Front.requests
    rw [hsome, hsome', h.draws]
    exact congrArg (fun r => [r]) (hsame f.draws).1

/-- A client made from another one than the sub client. -/
theorem derive_other (h : Stands p k q f f') {i : Nat} (hi : i ≠ k) (t : String) :
    ClientsStand p k q (f.step (.derive i t)).clients (f'.step (.derive i t)).clients := by
  rw [(f.step_derive i t).2.2, (f'.step_derive i t).2.2, h.clients.others i hi, h.clock]
  cases Prefix.parse t with
  | error e => exact h.clients
  | ok r =>
      cases (f.clients[i]?).join with
      | none => exact h.clients
      | some c => exact h.clients.add _

/-- A client made from the sub client is the same as the one that is made from
the parent with the joined prefix. -/
theorem derive_sub (h : Stands p k q f f') (hq : q.text ≠ "") (hk : f.There k) (t : String) :
    ClientsStand p k q (f.step (.derive k t)).clients
      (f'.step (.derive p (Prefix.behind q.text t))).clients := by
  rcases h.clients.parent hk with ⟨c, parent, hc, -, -, hparent, hscope, hlive⟩
  have hparse : Prefix.parse q.text = .ok q := Prefix.parse_of_clean q.clean
  rw [(f.step_derive k t).2.2, (f'.step_derive p _).2.2, hc, hparent, h.clock, Option.join_some,
    Option.join_some]
  rcases Prefix.parse_behind hparse hq t with ⟨r, ht, hbehind⟩ | ⟨e, ht, hbehind⟩
  · rw [ht, hbehind]
    dsimp only
    rw [hscope, hlive, Prefix.join_assoc]
    exact h.clients.add _
  · rw [ht, hbehind]
    exact h.clients

/-- Both operations keep what holds. -/
theorem step (h : Stands p k q f f') (hq : q.text ≠ "") {op : Op} (hwithin : f.Within p k op) :
    Stands p k q (f.step op) (f'.step (op.onParent p k q.text)) := by
  have hdraws : (f'.step (op.onParent p k q.text)).draws = (f.step op).draws :=
    h.drawsAfter_eq hq hwithin
  cases op with
  | emit i m =>
      by_cases hi : i = k
      · have hop : (Op.emit i m).onParent p k q.text = .emit p (m.behind q.text) := if_pos hi
        rw [hop] at hdraws ⊢
        exact ⟨hdraws, h.clock, h.clients, h.spans⟩
      · have hop : (Op.emit i m).onParent p k q.text = .emit i m := if_neg hi
        rw [hop] at hdraws ⊢
        exact ⟨hdraws, h.clock, h.clients, h.spans⟩
  | abandon i m =>
      by_cases hi : i = k
      · have hop : (Op.abandon i m).onParent p k q.text = .abandon p (m.behind q.text) := if_pos hi
        rw [hop] at hdraws ⊢
        exact ⟨hdraws, h.clock, h.clients, h.spans⟩
      · have hop : (Op.abandon i m).onParent p k q.text = .abandon i m := if_neg hi
        rw [hop] at hdraws ⊢
        exact ⟨hdraws, h.clock, h.clients, h.spans⟩
  | flush i =>
      by_cases hi : i = k
      · have hop : (Op.flush i).onParent p k q.text = .flush p := if_pos hi
        rw [hop] at hdraws ⊢
        exact ⟨hdraws, h.clock, h.clients, h.spans⟩
      · have hop : (Op.flush i).onParent p k q.text = .flush i := if_neg hi
        rw [hop] at hdraws ⊢
        exact ⟨hdraws, h.clock, h.clients, h.spans⟩
  | drop i =>
      by_cases hi : i = k
      · -- the sub client is given up, and the parent flushes for it
        have hop : (Op.drop i).onParent p k q.text = .flush p := if_pos hi
        rw [hop] at hdraws ⊢
        subst hi
        exact ⟨hdraws, h.clock, h.clients.drop_sub, h.spans⟩
      · have hop : (Op.drop i).onParent p k q.text = .drop i := if_neg hi
        rw [hop] at hdraws ⊢
        have hinner : i = p → ¬ f.There k := by
          intro hip
          apply hwithin.inner
          rw [hip]
        exact ⟨hdraws, h.clock, h.clients.drop hi hinner, h.spans⟩
  | derive i t =>
      by_cases hi : i = k
      · have hop : (Op.derive i t).onParent p k q.text = .derive p (Prefix.behind q.text t) :=
          if_pos hi
        rw [hop] at hdraws ⊢
        subst hi
        refine ⟨hdraws, ?_, h.derive_sub hq (hwithin.there rfl) t, ?_⟩
        · rw [(f.step_derive _ _).2.1, (f'.step_derive _ _).2.1]
          exact h.clock
        · rw [(f.step_derive _ _).1, (f'.step_derive _ _).1]
          exact h.spans
      · have hop : (Op.derive i t).onParent p k q.text = .derive i t := if_neg hi
        rw [hop] at hdraws ⊢
        refine ⟨hdraws, ?_, h.derive_other hi t, ?_⟩
        · rw [(f.step_derive _ _).2.1, (f'.step_derive _ _).2.1]
          exact h.clock
        · rw [(f.step_derive _ _).1, (f'.step_derive _ _).1]
          exact h.spans
  | startSpan i name =>
      by_cases hi : i = k
      · -- the span is started on the parent
        have hop : (Op.startSpan i name).onParent p k q.text =
            .startSpan p (nameBehind q.text name) := if_pos hi
        rw [hop] at hdraws ⊢
        refine ⟨hdraws, h.clock, h.clients, h.spans.add (Or.inr ⟨hi, ?_⟩)⟩
        rw [h.clock]
        rfl
      · have hop : (Op.startSpan i name).onParent p k q.text = .startSpan i name := if_neg hi
        rw [hop] at hdraws ⊢
        refine ⟨hdraws, h.clock, h.clients, h.spans.add (Or.inl ?_)⟩
        rw [h.clock]
  | rateSpan j rate =>
      exact ⟨hdraws, h.clock, h.clients, h.spans.change j (fun _ => rfl) fun _ => rfl⟩
  | endSpan j ending =>
      exact ⟨hdraws, h.clock, h.clients, h.spans.change j (fun _ => rfl) fun _ => rfl⟩
  | wait nanos => exact ⟨hdraws, congrArg (· + nanos) h.clock, h.clients, h.spans⟩

end Stands

/-! ## Runs -/

theorem Front.Inside.of_append {f : Front} {p k : Nat} {past later : List Op}
    (h : f.Inside p k (past ++ later)) : f.Inside p k past := by
  induction past generalizing f with
  | nil => trivial
  | cons op rest ih => exact ⟨h.1, ih h.2⟩

namespace Session

variable {σ : Type} [Transport σ]

/-- What is seen of two runs is the same: the packets and the messages, the sink
with its batch, its counters and its transport, the random source and the time. -/
structure SameRun (x y : Session σ × List Event) : Prop where
  attempts : Event.attempts y.2 = Event.attempts x.2
  messages : Event.messages y.2 = Event.messages x.2
  sink : y.1.sink = x.1.sink
  draws : y.1.draws = x.1.draws
  clock : y.1.clock = x.1.clock

/-- What is done on the sub client can as well be done on its parent. -/
theorem run_onParent {p k : Nat} {q : Prefix} {s s' : Session σ} (h : Stands p k q s.front s'.front)
    (hsink : s'.sink = s.sink) (hq : q.text ≠ "") {ops : List Op}
    (hinside : s.front.Inside p k ops) :
    SameRun (s.run ops) (s'.run (ops.map (Op.onParent p k q.text))) := by
  induction ops generalizing s s' with
  | nil => exact ⟨rfl, rfl, hsink, h.draws, h.clock⟩
  | cons op rest ih =>
      have hstep := step_follows s op
      have hstep' := step_follows s' (op.onParent p k q.text)
      rw [h.requests hq hinside.1] at hstep'
      have hstands := h.step hq hinside.1
      rw [← hstep.front, ← hstep'.front] at hstands
      have hsame : (s'.step (op.onParent p k q.text)).1.sink = (s.step op).1.sink := by
        rw [hstep.sink, hstep'.sink, hsink]
      have hrest := ih hstands hsame (by rw [hstep.front]; exact hinside.2)
      refine ⟨?_, ?_, hrest.sink, hrest.draws, hrest.clock⟩
      · show Event.attempts ((s'.step _).2 ++ _) = Event.attempts ((s.step op).2 ++ _)
        rw [Event.attempts_append, Event.attempts_append, hstep.attempts, hstep'.attempts, hsink]
        exact congrArg _ hrest.attempts
      · show Event.messages ((s'.step _).2 ++ _) = Event.messages ((s.step op).2 ++ _)
        rw [Event.messages_append, Event.messages_append, hstep.messages, hstep'.messages]
        exact congrArg _ hrest.messages

omit [Transport σ] in
/-- As soon as it is made the sub client stands beside its parent. -/
theorem stands_start {s : Session σ} {p : Nat} {sub : String} {q : Prefix}
    (hparse : Prefix.parse sub = .ok q) (hp : (s.client? p).isSome) :
    Stands p s.clients.length q (s.front.step (.derive p sub)) (s.front.step (.derive p sub)) := by
  rcases Option.isSome_iff_exists.mp hp with ⟨parent, hparent⟩
  have hfront : (s.front.clients[p]?).join = some parent.quiet := by
    rw [front_client?, hparent, Option.map_some]
  have hget : s.front.clients[p]? = some (some parent.quiet) := Option.join_eq_some_iff.mp hfront
  have hlt : p < s.front.clients.length := (List.getElem?_eq_some_iff.mp hget).1
  have hlength : s.front.clients.length = s.clients.length := List.length_map _
  have hclients := (s.front.step_derive p sub).2.2
  rw [hparse, hfront] at hclients
  refine ⟨rfl, rfl, ⟨?_, rfl, fun i _ => rfl, ?_⟩, ⟨rfl, fun j span hspan => Or.inl hspan⟩⟩
  · rw [← hlength]
    exact Nat.ne_of_lt hlt
  · rw [hclients, ← hlength, List.getElem?_concat_length, List.getElem?_append_left hlt]
    exact ⟨_, rfl, Or.inr ⟨rfl, parent.quiet, hget, rfl, rfl⟩⟩

/-- A sub client is its parent with longer names. Let a client `k` be made from
a client `p` with a prefix that is accepted and not empty, and let a run use it
only while it is there, and not give its parent up before it. In the same run,
let all be done on the parent instead: metrics and spans with the prefix and a
dot in front of names that are not empty, sub clients with the joined prefix,
and a flush instead of giving the sub client up. Then after every step the
packets and the messages so far are the same, and so are the batch, the
counters, the transport, the random source and the time. -/
theorem sub_client_is_parent {s : Session σ} {p : Nat} {sub : String} {q : Prefix}
    (hparse : Prefix.parse sub = .ok q) (hsub : sub ≠ "") (hp : (s.client? p).isSome)
    {ops : List Op} (hinside : (s.front.step (.derive p sub)).Inside p s.clients.length ops) :
    ∀ past later, ops = past ++ later →
      let made := (s.step (.derive p sub)).1
      SameRun (made.run past) (made.run (past.map (Op.onParent p s.clients.length sub))) := by
  intro past later hops made
  have htext : q.text = sub := Prefix.text_of_parse hparse
  have hfront : made.front = s.front.step (.derive p sub) := (step_follows s _).front
  have hstands := stands_start hparse hp
  rw [← hfront] at hstands hinside
  rw [hops] at hinside
  have hrun := run_onParent hstands rfl (by rw [htext]; exact hsub) hinside.of_append
  rw [htext] at hrun
  exact hrun

/-- Under a client with a prefix, a sub client sends a counter, a gauge below 0
and the time of a span, makes a client of its own and is given up. -/
theorem sub_client_is_parent_nested :
    let scope : Prefix := ⟨"app", by decide⟩
    let s : Session Link := Session.init (Sink.init (some 512) .idle) scope true ⟨0⟩
    let hits := Metric.always "hits" .increment
    let level := Metric.always "level" (.gauge (.whole (-5)))
    let ops := [Op.emit 1 hits, .emit 1 level, .startSpan 1 "query", .wait 1000, .endSpan 0 .drop,
      .derive 1 "pool", .emit 2 hits, .drop 1, .emit 0 hits]
    let made := (s.step (.derive 0 "db")).1
    Prefix.parse "db" = .ok ⟨"db", by decide⟩ ∧ (s.client? 0).isSome ∧
      (s.front.step (.derive 0 "db")).Inside 0 1 ops ∧
      ops.map (Op.onParent 0 1 "db") =
        [.emit 0 (Metric.always "db.hits" .increment),
          .emit 0 (Metric.always "db.level" (.gauge (.whole (-5)))), .startSpan 0 "db.query",
          .wait 1000, .endSpan 0 .drop, .derive 0 "db.pool", .emit 2 hits, .flush 0, .emit 0 hits] ∧
      SameRun (made.run ops) (made.run (ops.map (Op.onParent 0 1 "db"))) := by
  intro scope s hits level ops made
  have hparse : Prefix.parse "db" = .ok ⟨"db", by decide⟩ := Prefix.parse_of_clean (by decide)
  have hinside : (s.front.step (.derive 0 "db")).Inside 0 1 ops := by decide
  have hall : ops = ops ++ [] := (List.append_nil ops).symm
  have hsame := sub_client_is_parent hparse (by decide) rfl hinside ops [] hall
  exact ⟨hparse, rfl, hinside, by decide, hsame⟩

end Session

end Statsd

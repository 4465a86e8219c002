import Statsd.Link
import Statsd.Proofs.Prefix
import Statsd.Proofs.Session.Front

/-!
# Statsd.Proofs.Session.Lineage — the prefix of a client, from the clients it was made from

A client is made from another one, which was made from another one, and so on
up to a first client. Meanwhile anything else may be done, and any other client
may be given up.

* `Lineage` are the runs that make such a chain, one part after the other. A part
  that is refused makes no client, and the chain goes on where it was.
* **Step**: what is done meanwhile leaves the last client as it is
  (`client_stays`), and a part that is accepted is joined behind its prefix
  (`derive_scope`).
* **Run**: so the prefix of the last client is the chain of joins of the parts
  that are accepted, behind the prefix of the first one (`Lineage.scope`).
* What such a chain of joins is, and that it can be made in any order, is known
  of prefixes alone (`prefix_algebra`).
-/

namespace Statsd

namespace Session

variable {σ : Type} [Transport σ]

/-- A run from session `s` to session `s'` that makes the client `j` from the
client `i` through any number of clients, and tries these parts on the way. -/
inductive Lineage (s : Session σ) (i : Nat) : List String → Session σ → Nat → Prop where
  /-- The first client. -/
  | start : Lineage s i [] s i
  /-- A client is made from the last one. -/
  | made {parts : List String} {s' : Session σ} {j : Nat} {t : String} {q : Prefix}
      (h : Lineage s i parts s' j) (ht : Prefix.parse t = .ok q) :
      Lineage s i (parts ++ [t]) (s'.step (.derive j t)).1 s'.clients.length
  /-- The part is refused. -/
  | refused {parts : List String} {s' : Session σ} {j : Nat} {t : String} {e : PrefixError}
      (h : Lineage s i parts s' j) (ht : Prefix.parse t = .error e) :
      Lineage s i (parts ++ [t]) (s'.step (.derive j t)).1 j
  /-- Anything else is done, but for giving the last client up. -/
  | meanwhile {parts : List String} {s' : Session σ} {j : Nat} {op : Op}
      (h : Lineage s i parts s' j) (hop : op ≠ .drop j) : Lineage s i parts (s'.step op).1 j

/-- A part that is accepted makes a client with it behind the prefix. -/
theorem derive_scope {s : Session σ} {i : Nat} {c : Client} (hc : s.client? i = some c) {t : String}
    {q : Prefix} (ht : Prefix.parse t = .ok q) :
    ∃ c', (s.step (.derive i t)).1.client? s.clients.length = some c' ∧
      c'.scope = c.scope.join q := by
  let child : Client :=
    { scope := c.scope.join q, live := c.live, born := s.clock, reported := none }
  have hclients : (s.step (.derive i t)).1.clients = s.clients ++ [some child] := by
    simp only [step, ht, derive, hc, child]
  refine ⟨child, ?_, rfl⟩
  rw [client?, hclients, List.getElem?_concat_length]
  rfl

/-- The prefix of the last client of a chain. -/
theorem Lineage.scope {s s' : Session σ} {i j : Nat} {parts : List String}
    (h : Lineage s i parts s' j) {c : Client} (hc : s.client? i = some c) :
    ∃ c', s'.client? j = some c' ∧ c'.scope = c.scope.joinAll (Prefix.accepted parts) := by
  induction h with
  | start => exact ⟨c, hc, rfl⟩
  | @made parts s' j t q h ht ih =>
    obtain ⟨last, hlast, hscope⟩ := ih
    obtain ⟨child, hchild, hjoin⟩ := derive_scope hlast ht
    refine ⟨child, hchild, ?_⟩
    rw [hjoin, hscope, Prefix.accepted_concat, Prefix.joinAll_append, ht]
    rfl
  | @refused parts s' j t e h ht ih =>
    -- no client is made, and the part is not among those that are accepted
    have hsame : (s'.step (.derive j t)).1 = s' := by simp only [step, ht]
    have hparts : Prefix.accepted (parts ++ [t]) = Prefix.accepted parts := by
      rw [Prefix.accepted_concat, ht]
      exact List.append_nil _
    rw [hsame, hparts]
    exact ih
  | meanwhile h hop ih =>
    obtain ⟨last, hlast, hscope⟩ := ih
    obtain ⟨later, hlater, hquiet⟩ := client_stays hlast hop
    refine ⟨later, hlater, ?_⟩
    calc later.scope = later.quiet.scope := rfl
      _ = last.quiet.scope := by rw [hquiet]
      _ = c.scope.joinAll (Prefix.accepted _) := hscope

/-- **Prefixes and their joins.**

* A text is accepted as a prefix exactly if it holds no `:`, `|` or `@` and no
  control character; then it is kept as it is. Any other text is refused for the
  first character that offends.
* The text of a chain of joins is that of the parts that are accepted and not
  empty, in order, with a dot between two. It is accepted again, as the prefix
  that it is the text of.
* Joining is associative, and the empty prefix is its unit on both sides, so the
  result of any number of joins does not depend on how they are grouped.
* The prefix of a client that is made through any chain of clients is the chain
  of joins behind the prefix of the first one. -/
theorem prefix_algebra (s : Session σ) :
    (∀ t, (∃ p, Prefix.parse t = .ok p) ↔ Prefix.Admissible t) ∧
    (∀ t p, Prefix.parse t = .ok p → p.text = t) ∧
    (∀ t e, Prefix.parse t = .error e ↔
      ∃ before c after, t.toList = before ++ c :: after ∧
        (∀ b ∈ before, ¬ Prefix.Reserved b ∧ ¬ Prefix.Control b) ∧
        ((Prefix.Reserved c ∧ e = .reservedDelimiter c) ∨
          (Prefix.Control c ∧ e = .controlChar))) ∧
    (∀ (p : Prefix) (parts : List String),
      let joined := p.joinAll (Prefix.accepted parts)
      joined.text =
          Prefix.dotted (p.text :: parts.filter fun t => decide (Prefix.Admissible t)) ∧
        Prefix.parse joined.text = .ok joined) ∧
    (∀ p q r : Prefix, (p.join q).join r = p.join (q.join r)) ∧
    (∀ p : Prefix, p.join Prefix.empty = p ∧ Prefix.empty.join p = p) ∧
    (∀ t : Prefix.Grouping, t.value = Prefix.empty.joinAll t.parts) ∧
    (∀ i c parts s' j, s.client? i = some c → Lineage s i parts s' j →
      ∃ c', s'.client? j = some c' ∧ c'.scope = c.scope.joinAll (Prefix.accepted parts)) := by
  refine ⟨Prefix.parse_ok_iff, ?_, Prefix.parse_error_iff, ?_, Prefix.join_assoc, ?_,
    Prefix.Grouping.value_eq, ?_⟩
  · intro t p h
    exact Prefix.text_of_parse h
  · intro p parts joined
    constructor
    · rw [Prefix.text_joinAll, Prefix.text_accepted]
    · exact Prefix.parse_of_clean joined.clean
  · intro p
    exact ⟨p.join_empty, p.empty_join⟩
  · intro i c parts s' j hc h
    exact h.scope hc

/-- Below a client with a prefix, one is made with a part of its own, one with an
empty part after a part was refused, and one more after the one before it was
given up. -/
theorem prefix_algebra_chain :
    let s : Session Link := Session.init (Sink.init (some 512) .idle) ⟨"app", by decide⟩ true ⟨0⟩
    let ops := [Op.derive 0 "db", .derive 1 "a:b", .derive 1 "", .drop 1, .derive 2 "pool"]
    Lineage s 0 ["db", "a:b", "", "pool"] (s.run ops).1 3 ∧
      ∃ c, (s.run ops).1.client? 3 = some c ∧ c.scope.text = "app.db.pool" := by
  intro s ops
  have hdb : Prefix.parse "db" = .ok ⟨"db", by decide⟩ := Prefix.parse_of_clean (by decide)
  have hcolon : Prefix.parse "a:b" = .error (.reservedDelimiter ':') :=
    Prefix.parse_of_fault (by decide)
  have hempty : Prefix.parse "" = .ok ⟨"", by decide⟩ := Prefix.parse_of_clean (by decide)
  have hpool : Prefix.parse "pool" = .ok ⟨"pool", by decide⟩ := Prefix.parse_of_clean (by decide)
  have hbefore : Lineage s 0 ["db", "a:b", ""] (s.run (ops.take 3)).1 2 :=
    ((Lineage.start.made hdb).refused hcolon).made hempty
  have hdrop : Op.drop 1 ≠ .drop 2 := by decide
  have hchain : Lineage s 0 ["db", "a:b", "", "pool"] (s.run ops).1 3 :=
    (hbefore.meanwhile hdrop).made hpool
  obtain ⟨-, -, -, hjoined, -, -, -, hlineage⟩ := prefix_algebra s
  obtain ⟨c, hc, hscope⟩ := hlineage 0 _ _ _ 3 rfl hchain
  refine ⟨hchain, c, hc, ?_⟩
  rw [hscope, (hjoined _ _).1]
  decide

end Session

end Statsd

import Mathlib.Tactic.ByContra
import Statsd.Link
import Statsd.Proofs.Prefix
import Statsd.Proofs.Text
import Statsd.Proofs.Session.Front

/-!
# Statsd.Proofs.Session.Members — which members of a set are written

A member stands between the delimiters of its line, so a member that holds one
of them, or breaks the line, is not written.

* The test looks at the bytes of the encoding. All that it looks for is below
  `0x80`, and such a byte is a character of its own (`Metric.memberAllowed_iff`).
* A member that fails is dropped before its rate is looked at, and nothing but
  the counter of dropped lines is touched (`member_rule`).
* A prefix is tested character by character, and for all control characters.
  The two tests differ in just the characters from U+0080 to U+009F, which have
  two bytes each, and none below `0x80` (`control_member_written`).
-/

namespace Statsd

namespace Metric

/-- A control character of ASCII. -/
def AsciiControl (c : Char) : Prop := c.toNat < 0x20 ∨ c.toNat = 0x7f

/-- A text that leaves the line around it as it is. -/
def Unbroken (text : String) : Prop := ∀ c ∈ text.toList, c ≠ ':' ∧ c ≠ '|' ∧ ¬ AsciiControl c

instance (c : Char) : Decidable (AsciiControl c) := inferInstanceAs (Decidable (_ ∨ _))
instance (text : String) : Decidable (Unbroken text) := List.decidableBAll _ text.toList

/-- The code points that break a line. -/
def Breaks (n : Nat) : Prop := n = 0x3a ∨ n = 0x7c ∨ n < 0x20 ∨ n = 0x7f

theorem breaksLine_iff (b : UInt8) : breaksLine b = true ↔ Breaks b.toNat := by
  simp only [breaksLine, Breaks, Bool.or_eq_true, beq_iff_eq, decide_eq_true_eq,
    UInt8.lt_iff_toNat_lt, ← UInt8.toNat_inj]
  constructor
  · rintro (((h | h) | h) | h)
    · exact Or.inr (Or.inl h)
    · exact Or.inl h
    · exact Or.inr (Or.inr (Or.inl h))
    · exact Or.inr (Or.inr (Or.inr h))
  · rintro (h | h | h | h)
    · exact Or.inl (Or.inl (Or.inr h))
    · exact Or.inl (Or.inl (Or.inl h))
    · exact Or.inl (Or.inr h)
    · exact Or.inr h

theorem not_breaks_iff (c : Char) : ¬ Breaks c.toNat ↔ c ≠ ':' ∧ c ≠ '|' ∧ ¬ AsciiControl c := by
  have hcolon : c.toNat = 0x3a ↔ c = ':' := by rw [← Char.toNat_inj]; exact Iff.rfl
  have hbar : c.toNat = 0x7c ↔ c = '|' := by rw [← Char.toNat_inj]; exact Iff.rfl
  simp only [Breaks, AsciiControl, hcolon, hbar, not_or]

/-- A member is allowed exactly if its characters leave the line as it is. -/
theorem memberAllowed_iff (text : String) : memberAllowed text = true ↔ Unbroken text := by
  have hbytes : memberAllowed text = true ↔ ∀ b ∈ bytesOf text, ¬ Breaks b.toNat := by
    rw [memberAllowed, Bool.not_eq_true', ← Array.any_toList, List.any_eq_false]
    simp only [breaksLine_iff]
    exact Iff.rfl
  rw [hbytes]
  simp only [Unbroken, ← not_breaks_iff]
  constructor
  · intro h c hc hbreaks
    -- what breaks the line is below 0x80, and is its own encoding
    have hsmall : c.toNat < 0x80 := by
      unfold Breaks at hbreaks
      omega
    have hlow : c.val < 0x80 := UInt32.lt_iff_toNat_lt.mpr hsmall
    have hbyte : c.val.toUInt8.toNat = c.toNat := toNat_byte hlow
    exact h _ (byte_mem_bytesOf hc hlow) (hbyte ▸ hbreaks)
  · intro h b hb hbreaks
    -- such a byte is no part of the encoding of another character
    have hsmall : b.toNat < 0x80 := by
      unfold Breaks at hbreaks
      omega
    obtain ⟨c, hc, hsame⟩ := mem_bytesOf hb (UInt8.lt_iff_toNat_lt.mpr hsmall)
    have hcode : c.toNat = b.toNat := hsame
    exact h c hc (hcode ▸ hbreaks)

/-- On texts without the control characters behind ASCII the two rules for
control characters are one. -/
theorem unbroken_iff_of_no_high {text : String}
    (h : ∀ c ∈ text.toList, ¬ (0x80 ≤ c.toNat ∧ c.toNat ≤ 0x9f)) :
    Unbroken text ↔ ∀ c ∈ text.toList, c ≠ ':' ∧ c ≠ '|' ∧ ¬ Prefix.Control c := by
  have hcontrol : ∀ c ∈ text.toList, AsciiControl c ↔ Prefix.Control c := by
    intro c hc
    have hhigh := h c hc
    unfold AsciiControl Prefix.Control
    omega
  unfold Unbroken
  constructor
  · intro hunbroken c hc
    obtain ⟨hcolon, hbar, hascii⟩ := hunbroken c hc
    exact ⟨hcolon, hbar, mt (hcontrol c hc).mpr hascii⟩
  · intro hclean c hc
    obtain ⟨hcolon, hbar, hno⟩ := hclean c hc
    exact ⟨hcolon, hbar, mt (hcontrol c hc).mp hno⟩

/-- A member that is not allowed is the only reason to refuse a set with a name. -/
theorem refusal_member {name : String} (hname : name ≠ "") (member : String) (rate : Binary64) :
    (⟨name, .member member, rate⟩ : Metric).refusal? =
      if memberAllowed member then none else some .reservedMember := by
  unfold refusal?
  rw [if_neg (mt String.isEmpty_iff.mp hname)]

end Metric

namespace Session

variable {σ : Type} [Transport σ]

/-- **Which members are written.** On a client that does not discard, in any state:

* a member without a colon, a bar and a control character of ASCII is left to
  its rate;
* any other member is dropped before its rate is looked at, whatever the rate
  is, and nothing changes but that one more dropped line is counted;
* so whatever is written of a set has such a member;
* for members without a character from U+0080 to U+009F this is the rule for
  the control characters of prefixes. -/
theorem member_rule (s : Session σ) {i : Nat} {c : Client} (hc : s.client? i = some c)
    (hlive : c.live = true) {name : String} (hname : name ≠ "") (member : String)
    (rate : Binary64) :
    let m : Metric := ⟨name, .member member, rate⟩
    (Metric.Unbroken member → s.emit i m = s.sample i c m) ∧
    (¬ Metric.Unbroken member →
      s.emit i m = (s.count (·.addDropped 1), [.refused i .reservedMember name])) ∧
    (∀ message, Event.emitted i message ∈ (s.emit i m).2 → Metric.Unbroken member) ∧
    ((∀ ch ∈ member.toList, ¬ (0x80 ≤ ch.toNat ∧ ch.toNat ≤ 0x9f)) →
      (Metric.Unbroken member ↔
        ∀ ch ∈ member.toList, ch ≠ ':' ∧ ch ≠ '|' ∧ ¬ Prefix.Control ch)) := by
  intro m
  -- a set with a name is refused for its member or not at all
  have hrefusal := Metric.refusal_member hname member rate
  have hallowed := Metric.memberAllowed_iff member
  have hkept : Metric.Unbroken member → s.emit i m = s.sample i c m := by
    intro h
    rw [if_pos (hallowed.mpr h)] at hrefusal
    simp only [emit, hc, hlive, m, hrefusal, Bool.not_true, Bool.false_eq_true, if_false]
  have hdropped : ¬ Metric.Unbroken member →
      s.emit i m = (s.count (·.addDropped 1), [.refused i .reservedMember name]) := by
    intro h
    rw [if_neg (mt hallowed.mp h)] at hrefusal
    simp only [emit, hc, hlive, m, hrefusal, Bool.not_true, Bool.false_eq_true, if_false]
  refine ⟨hkept, hdropped, ?_, Metric.unbroken_iff_of_no_high⟩
  intro message hmessage
  by_contra hbroken
  rw [hdropped hbroken] at hmessage
  simp only [List.mem_singleton, reduceCtorEq] at hmessage

/-- A bar in a member keeps it from being written, at any rate. -/
theorem member_rule_bar :
    let s : Session Link := Session.init (Sink.init (some 512) .idle) Prefix.empty true ⟨0⟩
    let m : Metric := ⟨"users", .member "a|b", ⟨0x3fe0000000000000⟩⟩
    ¬ Metric.Unbroken "a|b" ∧
      s.emit 0 m = (s.count (·.addDropped 1), [.refused 0 .reservedMember "users"]) := by
  intro s m
  have hclient : s.client? 0 = some ⟨Prefix.empty, true, 0, none⟩ := rfl
  have hnamed : "users" ≠ "" := by decide
  have hbroken : ¬ Metric.Unbroken "a|b" := by decide
  obtain ⟨-, hdropped, -, -⟩ := member_rule s hclient rfl hnamed "a|b" m.rate
  exact ⟨hbroken, hdropped hbroken⟩

/-- A member with a control character behind ASCII is written, though a prefix
with it is refused. -/
theorem control_member_written :
    let s : Session Link := Session.init (Sink.init (some 512) .idle) Prefix.empty true ⟨0⟩
    let m : Metric := ⟨"users", .member "a\u0080b", Binary64.one⟩
    Prefix.parse "a\u0080b" = .error .controlChar ∧
      Event.messages (s.emit 0 m).2 = [⟨"users:a\u0080b|s".toUTF8, 1⟩] := by
  intro s m
  have hlive : s.front.live? 0 = some ⟨Prefix.empty, true, 0, none⟩ := rfl
  have hrequest : m.request Prefix.empty ⟨0⟩ = .emit ⟨"users:a\u0080b|s".toUTF8, 1⟩ := by
    decide +kernel
  constructor
  · exact Prefix.parse_of_fault (by decide)
  · -- the message that a metric comes to is the one that it asks the sink to take
    rw [(emit_follows s hlive m).messages, Request.messages_cons]
    change (m.request Prefix.empty ⟨0⟩).message?.toList ++ _ = _
    rw [hrequest]
    rfl

end Session

end Statsd

import Statsd.Metric

/-!
# Statsd.Proofs.Prefix — prefixes in front of prefixes

* A text is accepted as a prefix, and then as it is, exactly if it holds no
  character that offends (`parse_ok_iff`). Of one that is refused the first such
  character decides what is reported (`parse_error_iff`).
* A dot and a prefix in front of a text change nothing of that (`parse_behind`).
* Joining is associative (`join_assoc`) with the empty prefix as its unit, so a
  chain of joins can be made in any order (`Grouping.value_eq`).
* The text of a chain of joins is that of its parts that are not empty, with a
  dot between two (`text_joinAll`).
* A prefix that is not empty can be taken into the name (`fullName_join`).
-/

namespace Statsd

namespace Prefix

theorem ext_text {p q : Prefix} (h : p.text = q.text) : p = q := by
  cases p
  cases q
  cases h
  rfl

/-- A text without fault is accepted as it is. -/
theorem parse_of_clean {s : String} (h : firstFault? s = none) : parse s = .ok ⟨s, h⟩ := by
  unfold parse
  split
  · rename_i e hfault
    rw [h] at hfault
    cases hfault
  · rfl

/-- A text with a fault is refused for it. -/
theorem parse_of_fault {s : String} {e : PrefixError} (h : firstFault? s = some e) :
    parse s = .error e := by
  unfold parse
  split
  · rename_i e' hfault
    rw [h] at hfault
    cases hfault
    rfl
  · rename_i hclean
    rw [h] at hclean
    cases hclean

theorem text_of_parse {s : String} {p : Prefix} (h : parse s = .ok p) : p.text = s := by
  cases hfault : firstFault? s with
  | none =>
      rw [parse_of_clean hfault] at h
      cases h
      rfl
  | some e =>
      rw [parse_of_fault hfault] at h
      cases h

/-! ## What is accepted -/

/-- A character that separates the parts of a line. -/
def Reserved (c : Char) : Prop := c = ':' ∨ c = '|' ∨ c = '@'

/-- A control character: one of the general category Cc. -/
def Control (c : Char) : Prop := c.toNat ≤ 0x1f ∨ (0x7f ≤ c.toNat ∧ c.toNat ≤ 0x9f)

/-- A text that holds neither. -/
def Admissible (s : String) : Prop := ∀ c ∈ s.toList, ¬ Reserved c ∧ ¬ Control c

instance (c : Char) : Decidable (Reserved c) := inferInstanceAs (Decidable (_ ∨ _ ∨ _))
instance (c : Char) : Decidable (Control c) := inferInstanceAs (Decidable (_ ∨ _ ∧ _))
instance (s : String) : Decidable (Admissible s) := List.decidableBAll _ s.toList

theorem isDelimiter_iff (c : Char) : isDelimiter c = true ↔ Reserved c := by
  simp only [isDelimiter, Reserved, Bool.or_eq_true, beq_iff_eq, or_assoc]

theorem isControl_iff (c : Char) : isControl c = true ↔ Control c := by
  simp only [isControl, Control, Bool.or_eq_true, Bool.and_eq_true, decide_eq_true_eq,
    UInt32.le_iff_toNat_le]
  exact Iff.rfl

/-- No delimiter is a control character. -/
theorem not_control_of_reserved {c : Char} (h : Reserved c) : ¬ Control c := by
  obtain rfl | rfl | rfl := h
  all_goals decide

/-- The fault of a character says what the character is. -/
theorem charFault?_eq_some (c : Char) (e : PrefixError) :
    charFault? c = some e ↔
      (Reserved c ∧ e = .reservedDelimiter c) ∨ (Control c ∧ e = .controlChar) := by
  unfold charFault?
  -- delimiters are looked for first, but no character is of both kinds
  by_cases hdelimiter : Reserved c
  · have hcontrol := not_control_of_reserved hdelimiter
    rw [if_pos ((isDelimiter_iff c).mpr hdelimiter), Option.some.injEq, eq_comm]
    simp only [hdelimiter, hcontrol, true_and, false_and, or_false]
  · rw [if_neg (mt (isDelimiter_iff c).mp hdelimiter)]
    by_cases hcontrol : Control c
    · rw [if_pos ((isControl_iff c).mpr hcontrol), Option.some.injEq, eq_comm]
      simp only [hdelimiter, hcontrol, true_and, false_and, false_or]
    · rw [if_neg (mt (isControl_iff c).mp hcontrol)]
      simp only [hdelimiter, hcontrol, false_and, or_false, reduceCtorEq]

theorem charFault?_eq_none (c : Char) : charFault? c = none ↔ ¬ Reserved c ∧ ¬ Control c := by
  rw [← not_or]
  constructor
  · rintro hnone (h | h)
    · cases hnone.symm.trans ((charFault?_eq_some c _).mpr (Or.inl ⟨h, rfl⟩))
    · cases hnone.symm.trans ((charFault?_eq_some c _).mpr (Or.inr ⟨h, rfl⟩))
  · intro h
    rw [Option.eq_none_iff_forall_ne_some]
    intro e he
    obtain ⟨hdelimiter, -⟩ | ⟨hcontrol, -⟩ := (charFault?_eq_some c e).mp he
    · exact h (Or.inl hdelimiter)
    · exact h (Or.inr hcontrol)

theorem firstFault?_eq_none (s : String) : firstFault? s = none ↔ Admissible s := by
  simp only [firstFault?, List.findSome?_eq_none_iff, charFault?_eq_none, Admissible]

/-- A text is accepted exactly if it is admissible. -/
theorem parse_ok_iff (s : String) : (∃ p, parse s = .ok p) ↔ Admissible s := by
  rw [← firstFault?_eq_none]
  constructor
  · rintro ⟨p, hp⟩
    rw [← text_of_parse hp]
    exact p.clean
  · intro h
    exact ⟨⟨s, h⟩, parse_of_clean h⟩

/-- A text is refused for its first character that offends. -/
theorem parse_error_iff (s : String) (e : PrefixError) :
    parse s = .error e ↔
      ∃ before c after, s.toList = before ++ c :: after ∧
        (∀ b ∈ before, ¬ Reserved b ∧ ¬ Control b) ∧
        ((Reserved c ∧ e = .reservedDelimiter c) ∨ (Control c ∧ e = .controlChar)) := by
  have hfault : parse s = .error e ↔ firstFault? s = some e := by
    constructor
    · intro h
      cases hfirst : firstFault? s with
      | none => cases (parse_of_clean hfirst).symm.trans h
      | some e' => cases (parse_of_fault hfirst).symm.trans h; rfl
    · exact parse_of_fault
  rw [hfault, firstFault?, List.findSome?_eq_some_iff]
  simp only [charFault?_eq_some, charFault?_eq_none]
  constructor
  · rintro ⟨before, c, after, hsplit, hc, hbefore⟩
    exact ⟨before, c, after, hsplit, hbefore, hc⟩
  · rintro ⟨before, c, after, hsplit, hbefore, hc⟩
    exact ⟨before, c, after, hsplit, hc, hbefore⟩

/-! ## Joins -/

/-- A clean text with a dot in front of another text has the faults of that text. -/
theorem firstFault?_behind {a : String} (ha : firstFault? a = none) (b : String) :
    firstFault? (a ++ "." ++ b) = firstFault? b := by
  simp only [firstFault?, String.toList_append, List.findSome?_append] at *
  rw [ha]
  rfl

theorem isEmpty_eq (p : Prefix) : p.isEmpty = true ↔ p.text = "" := String.isEmpty_iff

/-- The text of a join: what is empty adds nothing, not even a dot. -/
theorem text_join (p q : Prefix) :
    (p.join q).text =
      if q.text = "" then p.text else if p.text = "" then q.text else p.text ++ "." ++ q.text := by
  unfold join
  by_cases hq : q.text = ""
  · rw [if_pos (q.isEmpty_eq.mpr hq), if_pos hq]
  · rw [if_neg (mt q.isEmpty_eq.mp hq), if_neg hq]
    by_cases hp : p.text = ""
    · rw [if_pos (p.isEmpty_eq.mpr hp), if_pos hp]
    · rw [if_neg (mt p.isEmpty_eq.mp hp), if_neg hp]

theorem dotted_ne_empty (a b : String) : a ++ "." ++ b ≠ "" := by
  intro h
  have hlist := congrArg String.toList h
  rw [String.toList_append, String.toList_append] at hlist
  exact absurd (List.append_eq_nil_iff.mp (List.append_eq_nil_iff.mp hlist).1).2 (by decide)

/-- It does not matter in which order prefixes are joined. -/
theorem join_assoc (p q r : Prefix) : (p.join q).join r = p.join (q.join r) := by
  apply ext_text
  rw [text_join, text_join, text_join, text_join]
  by_cases hr : r.text = ""
  · rw [if_pos hr, if_pos hr]
  · rw [if_neg hr, if_neg hr]
    by_cases hq : q.text = ""
    · rw [if_pos hq, if_pos hq, if_neg hr]
    · rw [if_neg hq, if_neg hq, if_neg (dotted_ne_empty _ _)]
      by_cases hp : p.text = ""
      · rw [if_pos hp, if_pos hp, if_neg hq]
      · rw [if_neg hp, if_neg hp, if_neg (dotted_ne_empty _ _)]
        simp only [String.append_assoc]

theorem join_empty (p : Prefix) : p.join empty = p := rfl

theorem empty_join (p : Prefix) : empty.join p = p := by
  apply ext_text
  rw [text_join]
  split
  · rename_i hp
    exact hp.symm
  · rfl

/-- The prefixes among some texts, in order. -/
def accepted (parts : List String) : List Prefix := parts.filterMap fun t => (parse t).toOption

theorem accepted_concat (parts : List String) (t : String) :
    accepted (parts ++ [t]) = accepted parts ++ ((parse t).toOption).toList := by
  rw [accepted, accepted, List.filterMap_append]
  rfl

theorem joinAll_append (p : Prefix) (parts more : List Prefix) :
    p.joinAll (parts ++ more) = (p.joinAll parts).joinAll more := List.foldl_append

theorem text_accepted (parts : List String) :
    (accepted parts).map text = parts.filter fun t => decide (Admissible t) := by
  induction parts with
  | nil => rfl
  | cons t rest ih =>
    rw [accepted, List.filterMap_cons, List.filter_cons]
    cases hparse : parse t with
    | ok p =>
      have hgood : Admissible t := (parse_ok_iff t).mp ⟨p, hparse⟩
      simp only [hgood, decide_true, if_true]
      exact List.cons_eq_cons.mpr ⟨text_of_parse hparse, ih⟩
    | error e =>
      have hbad : ¬ Admissible t := by
        intro hgood
        obtain ⟨p, hp⟩ := (parse_ok_iff t).mpr hgood
        cases hp.symm.trans hparse
      simp only [hbad, decide_false, Bool.false_eq_true, if_false]
      exact ih

/-- The texts that are not empty, with a dot between two. -/
def dotted (texts : List String) : String := ".".intercalate (texts.filter fun t => decide (t ≠ ""))

theorem nonempty_cons {a : String} (ha : a ≠ "") (texts : List String) :
    ((a :: texts).filter fun t => decide (t ≠ "")) = a :: texts.filter fun t => decide (t ≠ "") :=
  List.filter_cons_of_pos (decide_eq_true ha)

theorem dotted_cons_empty (texts : List String) : dotted ("" :: texts) = dotted texts := rfl

/-- Two texts in front can be taken as one. -/
theorem dotted_cons_cons {a b : String} (ha : a ≠ "") (hb : b ≠ "") (texts : List String) :
    dotted (a :: b :: texts) = dotted ((a ++ "." ++ b) :: texts) := by
  unfold dotted
  rw [nonempty_cons ha, nonempty_cons hb, nonempty_cons (dotted_ne_empty a b),
    String.intercalate_cons_cons]
  cases texts.filter fun t => decide (t ≠ "") with
  | nil => rw [String.intercalate_singleton, String.intercalate_singleton]
  | cons c rest =>
    rw [String.intercalate_cons_cons, String.intercalate_cons_cons]
    simp only [String.append_assoc]

/-- The text of a chain of joins: its parts that are not empty, in order, with a
dot between two. -/
theorem text_joinAll (p : Prefix) (parts : List Prefix) :
    (p.joinAll parts).text = dotted (p.text :: parts.map text) := by
  -- a join takes the first part into the prefix, so the prefix varies
  induction parts generalizing p with
  | nil =>
    rw [List.map_nil, dotted]
    by_cases hp : p.text = ""
    · rw [hp]
      exact hp
    · rw [nonempty_cons hp]
      exact String.intercalate_singleton.symm
  | cons q rest ih =>
    have hstep : (p.joinAll (q :: rest)).text = dotted ((p.join q).text :: rest.map text) :=
      ih (p.join q)
    rw [hstep, text_join, List.map_cons]
    by_cases hq : q.text = ""
    · -- an empty part adds nothing, on either side
      rw [if_pos hq, hq]
      by_cases hp : p.text = ""
      · rw [hp]
        rfl
      · unfold dotted
        rw [nonempty_cons hp, nonempty_cons hp]
        rfl
    · rw [if_neg hq]
      by_cases hp : p.text = ""
      · rw [if_pos hp, hp, dotted_cons_empty]
      · rw [if_neg hp, dotted_cons_cons hp hq]

/-! ## The order of joins -/

/-- An order in which some prefixes are joined. -/
inductive Grouping where
  | part (p : Prefix)
  | join (left right : Grouping)

namespace Grouping

/-- What is joined, in order. -/
def parts : Grouping → List Prefix
  | .part p => [p]
  | .join left right => left.parts ++ right.parts

/-- The result of the joins. -/
def value : Grouping → Prefix
  | .part p => p
  | .join left right => left.value.join right.value

end Grouping

/-- A join behind a chain of joins can be made before it. -/
theorem join_joinAll (p q : Prefix) (parts : List Prefix) :
    p.join (q.joinAll parts) = (p.join q).joinAll parts := by
  induction parts generalizing q with
  | nil => rfl
  | cons r rest ih =>
    calc p.join (q.joinAll (r :: rest)) = p.join ((q.join r).joinAll rest) := rfl
      _ = (p.join (q.join r)).joinAll rest := ih (q.join r)
      _ = ((p.join q).join r).joinAll rest := by rw [join_assoc]

/-- The result does not depend on the order of the joins. -/
theorem Grouping.value_eq (t : Grouping) : t.value = empty.joinAll t.parts := by
  induction t with
  | part p => exact (empty_join p).symm
  | join left right ihl ihr =>
    calc left.value.join right.value = left.value.join (empty.joinAll right.parts) := by rw [← ihr]
      _ = left.value.joinAll right.parts := join_joinAll left.value empty right.parts
      _ = (empty.joinAll left.parts).joinAll right.parts := by rw [← ihl]
      _ = empty.joinAll (left.parts ++ right.parts) := (joinAll_append empty _ _).symm

/-! ## A prefix in front of a text -/

/-- The text of one prefix behind that of another one. -/
def behind (sub t : String) : String := if t = "" then sub else sub ++ "." ++ t

/-- A text behind an accepted prefix that is not empty is accepted or refused as
it is alone, and what is accepted is the join. -/
theorem parse_behind {sub : String} {q : Prefix} (hsub : parse sub = .ok q) (hne : sub ≠ "")
    (t : String) :
    (∃ r, parse t = .ok r ∧ parse (behind sub t) = .ok (q.join r)) ∨
      ∃ e, parse t = .error e ∧ parse (behind sub t) = .error e := by
  have htext : q.text = sub := text_of_parse hsub
  have hclean : firstFault? sub = none := htext ▸ q.clean
  by_cases ht : t = ""
  · left
    refine ⟨empty, ?_, ?_⟩
    · rw [ht]
      exact parse_of_clean rfl
    · rw [behind, if_pos ht, hsub]
      exact congrArg Except.ok (ext_text (by rw [text_join]; rfl))
  · rw [behind, if_neg ht]
    cases hfault : firstFault? t with
    | some e =>
        have hdotted := (firstFault?_behind hclean t).trans hfault
        exact Or.inr ⟨e, parse_of_fault hfault, parse_of_fault hdotted⟩
    | none =>
        have hdotted := (firstFault?_behind hclean t).trans hfault
        refine Or.inl ⟨⟨t, hfault⟩, parse_of_clean hfault, ?_⟩
        rw [parse_of_clean hdotted]
        refine congrArg Except.ok (ext_text ?_)
        rw [text_join, if_neg ht, htext, if_neg hne]

end Prefix

/-- A prefix that is not empty can be taken into the name. -/
theorem Metric.fullName_join (p : Prefix) {q : Prefix} (hq : q.text ≠ "") (name : String) :
    fullName (p.join q) name = fullName p (q.text ++ "." ++ name) := by
  unfold fullName
  by_cases hp : p.text = ""
  · have hjoin : (p.join q).text = q.text := by rw [Prefix.text_join, if_neg hq, if_pos hp]
    rw [if_pos (p.isEmpty_eq.mpr hp), if_neg (by rw [Prefix.isEmpty_eq, hjoin]; exact hq), hjoin]
  · have hjoin : (p.join q).text = p.text ++ "." ++ q.text := by
      rw [Prefix.text_join, if_neg hq, if_neg hp]
    rw [if_neg (mt p.isEmpty_eq.mp hp), if_neg, hjoin]
    · simp only [String.append_assoc]
    · rw [Prefix.isEmpty_eq, hjoin]
      exact Prefix.dotted_ne_empty _ _

end Statsd

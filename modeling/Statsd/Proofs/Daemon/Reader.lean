import Statsd.Proofs.Session.Accounting
import Statsd.Proofs.Text

/-!
# Statsd.Proofs.Daemon.Reader — a daemon reads what was written

A daemon cuts a line at its delimiters: the name ends at the first colon, the
value at the next bar, and behind the type there may be a rate.

* `readLine` is this reader. It undoes `Reading.written`, if no part of the
  reading holds the delimiter that ends it (`readLine_written`), and it never
  passes over a byte (`written_readLine`).
* What ends a part early is never in it. A prefix has been checked
  (`not_mem_fullName`), a number has no delimiter, and a set member with one is
  refused (`not_mem_text`).
* So the message of a metric has the lines of the metric (`Metric.lines`,
  `splitLines_message`), and each of them reads back (`message_reads_back`).
-/

namespace Statsd

/-- The byte behind the name. -/
def colon : UInt8 := 0x3a

/-- The byte behind the value, and in front of the rate. -/
def bar : UInt8 := 0x7c

/-- The byte that says that a rate follows. -/
def atSign : UInt8 := 0x40

/-! ## The reader -/

/-- What stands in front of the first `sep` and what stands behind it. -/
def cutAt (sep : UInt8) : Line → Option (Line × Line)
  | [] => none
  | b :: rest =>
    if b = sep then some ([], rest)
    else (cutAt sep rest).map fun parts => (b :: parts.1, parts.2)

theorem cutAt_append {sep : UInt8} {first : Line} (h : sep ∉ first) (rest : Line) :
    cutAt sep (first ++ sep :: rest) = some (first, rest) := by
  induction first with
  | nil => exact if_pos rfl
  | cons b first ih =>
      obtain ⟨hb, hfirst⟩ := not_or.mp (mt List.mem_cons.mpr h)
      rw [List.cons_append, cutAt, if_neg (Ne.symm hb), ih hfirst]
      rfl

theorem cutAt_none {sep : UInt8} {line : Line} (h : sep ∉ line) : cutAt sep line = none := by
  induction line with
  | nil => rfl
  | cons b line ih =>
      obtain ⟨hb, hline⟩ := not_or.mp (mt List.mem_cons.mpr h)
      rw [cutAt, if_neg (Ne.symm hb), ih hline]
      rfl

/-- A cut takes nothing away but the separator. -/
theorem append_of_cutAt {sep : UInt8} {line first rest : Line}
    (h : cutAt sep line = some (first, rest)) : first ++ sep :: rest = line := by
  induction line generalizing first with
  | nil => cases h
  | cons b line ih =>
      rw [cutAt] at h
      split at h
      · rename_i hb
        cases h
        rw [hb]
        rfl
      · obtain ⟨parts, hparts, heq⟩ := Option.map_eq_some_iff.mp h
        cases heq
        rw [List.cons_append, ih hparts]

/-- The parts of a line. -/
structure Reading where
  name : Line
  value : Line
  kind : Line
  rate : Option Line
deriving DecidableEq

namespace Reading

/-- The bytes behind the type: a bar, an at sign and the rate, if there is one. -/
def tail : Option Line → Line
  | none => []
  | some rate => bar :: atSign :: rate

/-- The line that has the parts. -/
def written (r : Reading) : Line := r.name ++ colon :: (r.value ++ bar :: (r.kind ++ tail r.rate))

/-- What is neither in a part nor a delimiter is not in the line. -/
theorem not_mem_written {r : Reading} {b : UInt8} (hname : b ∉ r.name) (hvalue : b ∉ r.value)
    (hkind : b ∉ r.kind) (hrate : ∀ rate, r.rate = some rate → b ∉ rate)
    (hdelimiter : b ∉ [colon, bar, atSign]) : b ∉ r.written := by
  simp only [List.mem_cons, List.not_mem_nil, or_false, not_or] at hdelimiter
  obtain ⟨hcolon, hbar, hat⟩ := hdelimiter
  have htail : b ∉ tail r.rate := by
    cases hr : r.rate with
    | none => exact List.not_mem_nil
    | some rate =>
        rw [tail, List.mem_cons, List.mem_cons, not_or, not_or]
        exact ⟨hbar, hat, hrate rate hr⟩
  unfold written
  simp only [List.mem_append, List.mem_cons, not_or]
  exact ⟨hname, hcolon, hvalue, hbar, hkind, htail⟩

/-- No part holds the delimiter that ends it. -/
structure Delimited (r : Reading) : Prop where
  name : colon ∉ r.name
  value : bar ∉ r.value
  kind : bar ∉ r.kind

end Reading

/-- Read a line: the name up to the first colon, the value up to the next bar,
the type, and the rate behind `|@`, if there is one. -/
def readLine (line : Line) : Option Reading :=
  match cutAt colon line with
  | none => none
  | some (name, rest) =>
    match cutAt bar rest with
    | none => none
    | some (value, rest) =>
      match cutAt bar rest with
      | none => some ⟨name, value, rest, none⟩
      | some (_, []) => none
      | some (kind, b :: rate) => if b = atSign then some ⟨name, value, kind, some rate⟩ else none

/-- What was written is read. -/
theorem readLine_written {r : Reading} (h : r.Delimited) : readLine r.written = some r := by
  rcases r with ⟨name, value, kind, rate⟩
  unfold readLine Reading.written
  rw [cutAt_append h.name]
  dsimp only
  rw [cutAt_append h.value]
  dsimp only
  cases rate with
  | none =>
      rw [Reading.tail, List.append_nil, cutAt_none h.kind]
  | some rate =>
      rw [Reading.tail, cutAt_append h.kind]
      exact if_pos rfl

/-- Whatever is read, every byte of the line has been used. -/
theorem written_readLine {line : Line} {r : Reading} (h : readLine line = some r) :
    r.written = line := by
  unfold readLine at h
  split at h
  · cases h
  · rename_i name rest hname
    split at h
    · cases h
    · rename_i value rest' hvalue
      split at h
      · -- no rate follows
        cases h
        rw [Reading.written, Reading.tail, List.append_nil, append_of_cutAt hvalue,
          append_of_cutAt hname]
      · cases h
      · rename_i kind b rate hkind
        split at h
        · rename_i hb
          cases h
          rw [Reading.written, Reading.tail, ← hb, append_of_cutAt hkind, append_of_cutAt hvalue,
            append_of_cutAt hname]
        · cases h

/-! ## What the parts of a line cannot hold -/

/-- A checked prefix has no character with a fault. -/
theorem Prefix.not_mem_text (p : Prefix) {c : Char} (hc : charFault? c ≠ none) :
    c ∉ p.text.toList := fun hmem => hc (List.findSome?_eq_none_iff.mp p.clean c hmem)

namespace Metric

/-- A character that a prefix cannot have is in a full name only if it is in the name. -/
theorem not_mem_fullName (scope : Prefix) {name : String} {c : Char} (hc : charFault? c ≠ none)
    (hdot : c ≠ '.') (hname : c ∉ name.toList) : c ∉ (fullName scope name).toList := by
  unfold fullName
  split
  · exact hname
  · rw [String.toList_append, String.toList_append, List.mem_append, List.mem_append]
    rintro ((hscope | hmid) | hlast)
    · exact scope.not_mem_text hc hscope
    · exact hdot (List.mem_singleton.mp hmid)
    · exact hname hlast

/-- A value holds no byte that breaks a line: a number has none, and a member with
one is refused. -/
theorem not_mem_text {m : Metric} (h : m.refusal? = none) {c : Char} (hlow : c.val < 0x80)
    (hnumeral : isNumeral c = false) (hbreaks : breaksLine c.val.toUInt8 = true) :
    c.val.toUInt8 ∉ bytesOf m.observation.text := by
  rcases m with ⟨name, observation, rate⟩
  cases observation with
  | count n => exact not_mem_bytesOf ((numeral_ofInt n).not_mem hnumeral) hlow
  | gauge level =>
      cases level with
      | whole n => exact not_mem_bytesOf ((numeral_ofInt n).not_mem hnumeral) hlow
      | double x => exact not_mem_bytesOf ((numeral_text _ _ x.value).not_mem hnumeral) hlow
      | single x => exact not_mem_bytesOf ((numeral_text _ _ x.value).not_mem hnumeral) hlow
  | adjust delta => exact not_mem_bytesOf ((numeral_ofIntSigned delta).not_mem hnumeral) hlow
  | timing millis => exact not_mem_bytesOf ((numeral_text _ _ millis.value).not_mem hnumeral) hlow
  | member text =>
      intro hmem
      have hallowed : memberAllowed text = true := by
        unfold refusal? at h
        split at h
        · cases h
        · dsimp only at h
          split at h
          · assumption
          · cases h
      rw [memberAllowed, Bool.not_eq_true', Array.any_eq_false'] at hallowed
      exact hallowed _ (Array.mem_toList_iff.mp hmem) hbreaks

/-! ## The lines of a metric -/

/-- The parts of the line that sets a gauge to 0. -/
def resetReading (scope : Prefix) (m : Metric) : Reading :=
  ⟨bytesOf (fullName scope m.name), bytesOf "0", bytesOf "g", none⟩

/-- The parts of the line that holds the value. -/
def valueReading (scope : Prefix) (m : Metric) : Reading :=
  { name := bytesOf (fullName scope m.name)
    value := bytesOf m.observation.text
    kind := bytesOf m.observation.kind.code
    rate := if namesRate m.rate then some (bytesOf m.rate.text) else none }

/-- The parts of all lines of a metric, in order. -/
def readings (scope : Prefix) (m : Metric) : List Reading :=
  (if m.resets then [m.resetReading scope] else []) ++ [m.valueReading scope]

/-- The lines of a metric, in order. -/
def lines (scope : Prefix) (m : Metric) : List Line := (m.readings scope).map Reading.written

theorem bytesOf_resetLine (scope : Prefix) (m : Metric) :
    bytesOf (m.resetLine scope) = (m.resetReading scope).written := by
  have hend : bytesOf ":0|g" =
      colon :: (bytesOf "0" ++ bar :: (bytesOf "g" ++ Reading.tail none)) := by decide
  rw [resetLine, bytesOf_append, hend]
  rfl

theorem bytesOf_valueLine (scope : Prefix) (m : Metric) :
    bytesOf (m.valueLine scope) = (m.valueReading scope).written := by
  have hcolon : bytesOf ":" = [colon] := by decide
  have hbar : bytesOf "|" = [bar] := by decide
  have htail : bytesOf (if namesRate m.rate then "|@" ++ m.rate.text else "") =
      Reading.tail (m.valueReading scope).rate := by
    unfold valueReading
    dsimp only
    split
    · have hat : bytesOf "|@" = [bar, atSign] := by decide
      rw [bytesOf_append, hat]
      rfl
    · rfl
  rw [valueLine, bytesOf_append, bytesOf_append, bytesOf_append, bytesOf_append, bytesOf_append,
    hcolon, hbar, htail, Reading.written]
  simp only [List.append_assoc, List.singleton_append]
  rfl

/-- A metric has as many lines as its message says. -/
theorem length_lines (scope : Prefix) (m : Metric) :
    (m.lines scope).length = (m.message scope).lines := by
  unfold lines readings message Packet.ofString
  rw [List.length_map]
  dsimp only
  split
  · rfl
  · rfl

/-- The types have no delimiter and no line feed. -/
theorem not_mem_code (kind : Kind) : bar ∉ bytesOf kind.code ∧ lineFeed ∉ bytesOf kind.code := by
  cases kind with
  | counter => decide
  | gauge => decide
  | timing => decide
  | set => decide

/-- No line of a metric has a line feed, if its name has none. -/
theorem lineFeed_not_mem {m : Metric} (h : m.refusal? = none) (hname : '\n' ∉ m.name.toList)
    (scope : Prefix) :
    lineFeed ∉ (m.resetReading scope).written ∧ lineFeed ∉ (m.valueReading scope).written := by
  have hlow : ('\n').val < 0x80 := by decide
  have hdelimiter : lineFeed ∉ [colon, bar, atSign] := by decide
  have hfull : lineFeed ∉ bytesOf (fullName scope m.name) :=
    not_mem_bytesOf (not_mem_fullName scope (by decide) (by decide) hname) hlow
  have htext : lineFeed ∉ bytesOf m.observation.text := not_mem_text h hlow (by decide) (by decide)
  have hrate : lineFeed ∉ bytesOf m.rate.text :=
    not_mem_bytesOf ((numeral_text _ _ m.rate.value).not_mem (by decide)) hlow
  constructor
  · have hzero : lineFeed ∉ bytesOf "0" := by decide
    have hgauge : lineFeed ∉ bytesOf "g" := by decide
    refine Reading.not_mem_written hfull hzero hgauge ?_ hdelimiter
    intro rate hnone
    cases hnone
  · refine Reading.not_mem_written hfull htext (not_mem_code _).2 ?_ hdelimiter
    intro rate hsome
    have hnamed : (if namesRate m.rate then some (bytesOf m.rate.text) else none) = some rate :=
      hsome
    split at hnamed
    · cases hnamed
      exact hrate
    · cases hnamed

/-- The message of a metric is cut into the lines of the metric. -/
theorem splitLines_message {m : Metric} (h : m.refusal? = none) (hname : '\n' ∉ m.name.toList)
    (scope : Prefix) : splitLines (m.message scope).data = m.lines scope := by
  have hfree := lineFeed_not_mem h hname scope
  have hvalue : splitLines (m.valueLine scope).toUTF8 = [(m.valueReading scope).written] := by
    rw [← bytesOf_valueLine] at hfree ⊢
    exact splitLines_of_not_mem hfree.2
  have hreset : splitLines (m.resetLine scope).toUTF8 = [(m.resetReading scope).written] := by
    rw [← bytesOf_resetLine] at hfree ⊢
    exact splitLines_of_not_mem hfree.1
  unfold message Packet.ofString text lines readings
  dsimp only
  split
  · -- the reset line, a line feed and the value line
    have hpush : (m.resetLine scope ++ "\n" ++ m.valueLine scope).toUTF8 =
        (m.resetLine scope).toUTF8.push lineFeed ++ (m.valueLine scope).toUTF8 := by
      apply eq_of_toList
      rw [ByteArray.toList_data_append, toList_push]
      show bytesOf _ = bytesOf _ ++ bytesOf "\n" ++ bytesOf _
      rw [bytesOf_append, bytesOf_append]
    rw [hpush, splitLines_push_append, hreset, hvalue]
    rfl
  · rw [hvalue]
    rfl

/-- Each line of a metric reads back, if its name has no colon. -/
theorem readLine_lines {m : Metric} (h : m.refusal? = none) (hname : ':' ∉ m.name.toList)
    (scope : Prefix) :
    readLine (m.resetReading scope).written = some (m.resetReading scope) ∧
      readLine (m.valueReading scope).written = some (m.valueReading scope) := by
  have hfull : colon ∉ bytesOf (fullName scope m.name) :=
    not_mem_bytesOf (not_mem_fullName scope (by decide) (by decide) hname) (by decide)
  have htext : bar ∉ bytesOf m.observation.text :=
    not_mem_text (c := '|') h (by decide) (by decide) (by decide)
  constructor
  · have hzero : bar ∉ bytesOf "0" := by decide
    have hgauge : bar ∉ bytesOf "g" := by decide
    exact readLine_written ⟨hfull, hzero, hgauge⟩
  · exact readLine_written ⟨hfull, htext, (not_mem_code _).1⟩

theorem one_isNaN : Binary64.one.isNaN = false := by decide +kernel

/-- A rate at which something is sent is a number, so the line names it exactly
if it is not 1 or more. -/
theorem namesRate_of_sampled {rate : Binary64} {g : Generator} (h : (sampled rate g).1 = true) :
    namesRate rate = !decide (Binary64.one ≤ rate) := by
  unfold namesRate
  by_cases hone : Binary64.one ≤ rate
  · have hless : ¬ rate < Binary64.one := fun hlt => Int.not_le.mpr hlt.2.2 hone.2.2
    rw [decide_eq_false hless, decide_eq_true hone]
    rfl
  · -- a number was drawn below the rate, which is therefore a number itself
    have hnumber : rate.isNaN = false := by
      cases hdraw : g.draw with
      | mk x after =>
          rw [sampled, if_neg hone, hdraw] at h
          have hless : x < rate := of_decide_eq_true h
          exact hless.2.1
    have hless : rate < Binary64.one :=
      ⟨hnumber, one_isNaN, Int.not_le.mp fun hrank => hone ⟨one_isNaN, hnumber, hrank⟩⟩
    rw [decide_eq_true hless, decide_eq_false hone]
    rfl

/-- A metric that is passed on has not been refused, and its rate has let it through. -/
theorem of_fate_passed {m : Metric} {g : Generator} (h : m.fate g = .passed) :
    m.refusal? = none ∧ (sampled m.rate g).1 = true := by
  unfold fate at h
  split at h
  · cases h
  · rename_i hrefusal
    split at h
    · rename_i hkept
      exact ⟨Option.not_isSome_iff_eq_none.mp hrefusal, hkept⟩
    · cases h

/-- What is written is the message of a metric that is passed on. -/
theorem of_request_emit {m : Metric} {scope : Prefix} {g : Generator} {message : Packet}
    (h : m.request scope g = .emit message) : m.fate g = .passed ∧ message = m.message scope := by
  obtain ⟨-, hrequest⟩ | ⟨-, hrequest⟩ | ⟨hfate, hrequest⟩ := m.request_cases scope g
  · rw [hrequest] at h
    cases h
  · rw [hrequest] at h
    cases h
  · rw [hrequest] at h
    cases h
    exact ⟨hfate, rfl⟩

end Metric

/-! ## What the values mean -/

/-- What can be read off the value of each operation. -/
structure Observation.ReadsBack (o : Observation) (value : Line) : Prop where
  count : ∀ n : Int, o = .count n → readInt value = some n
  increment : o = .increment → readInt value = some 1
  decrement : o = .decrement → readInt value = some (-1)
  incrementBy : ∀ d : Int64, o = .incrementBy d → readInt value = some d.toInt
  /-- The least amount has no negative; the greatest one stands for it. -/
  decrementBy : ∀ d : Int64, o = .decrementBy d →
    readInt value = some (if d = Int64.minValue then Int64.maxValue.toInt else -d.toInt)
  gauge : ∀ n : Int, o = .gauge (.whole n) → readInt value = some n
  gaugeDelta : ∀ d : Int64, o = .gaugeDelta d →
    readInt value = some d.toInt ∧ isSigned value = true
  member : ∀ text : String, o = .member text → value = bytesOf text

theorem Observation.toInt_saturatingNeg (d : Int64) :
    (saturatingNeg d).toInt =
      if d = Int64.minValue then Int64.maxValue.toInt else -d.toInt := by
  unfold saturatingNeg
  split
  · rfl
  · rename_i hmin
    have hne : d.toInt ≠ -2 ^ 63 := fun heq => hmin (Int64.toInt_inj.mp heq)
    have hlow : -2 ^ 63 ≤ d.toInt := Int64.le_toInt d
    have hhigh : d.toInt < 2 ^ 63 := Int64.toInt_lt d
    rw [Int64.toInt_neg]
    apply Int.bmod_eq_of_le
    · omega
    · omega

/-- The text of an observation reads back. -/
theorem Observation.readsBack_text (o : Observation) : o.ReadsBack (bytesOf o.text) := by
  constructor
  · rintro n rfl
    exact readInt_ofInt n
  · rintro rfl
    exact readInt_ofInt 1
  · rintro rfl
    exact readInt_ofInt (-1)
  · rintro d rfl
    exact readInt_ofInt d.toInt
  · rintro d rfl
    rw [← toInt_saturatingNeg]
    exact readInt_ofInt _
  · rintro n rfl
    exact readInt_ofInt n
  · rintro d rfl
    exact ⟨readInt_ofIntSigned d.toInt, isSigned_ofIntSigned d.toInt⟩
  · rintro text rfl
    rfl

/-- Decoding undoes encoding. Let a metric be written for a client, with a name
that holds no colon and no line feed. Its message is cut into as many lines as
it says. The last one is the value line: every byte of it is read, its parts are
the full name, the text of the value, the type and the rate, the latter if it is
below 1, and the value reads back as what was observed. In front of it there may
be a line that sets a gauge of this name to 0. -/
theorem Metric.message_reads_back (scope : Prefix) {m : Metric} {g : Generator} {message : Packet}
    (hcolon : ':' ∉ m.name.toList) (hfeed : '\n' ∉ m.name.toList)
    (hemitted : m.request scope g = .emit message) :
    let full := if scope.text = "" then m.name else scope.text ++ "." ++ m.name
    (splitLines message.data).length = message.lines ∧
    ∃ resets line r,
      splitLines message.data = resets ++ [line] ∧
      resets.map readLine =
        (if m.resets then [some ⟨bytesOf full, bytesOf "0", bytesOf "g", none⟩] else []) ∧
      readLine line = some r ∧
      r.written = line ∧
      r.name = bytesOf full ∧
      r.value = bytesOf m.observation.text ∧
      r.kind = bytesOf m.observation.kind.code ∧
      r.rate = (if Binary64.one ≤ m.rate then none else some (bytesOf m.rate.text)) ∧
      m.observation.ReadsBack r.value := by
  intro full
  obtain ⟨hpassed, rfl⟩ := of_request_emit hemitted
  obtain ⟨hrefusal, hkept⟩ := of_fate_passed hpassed
  have hfull : fullName scope m.name = full := by
    unfold fullName Prefix.isEmpty
    simp only [String.isEmpty_iff]
    rfl
  have hlines : splitLines (m.message scope).data = m.lines scope :=
    splitLines_message hrefusal hfeed scope
  have hread := readLine_lines hrefusal hcolon scope
  have hrate : (m.valueReading scope).rate =
      if Binary64.one ≤ m.rate then none else some (bytesOf m.rate.text) := by
    unfold valueReading
    dsimp only
    rw [namesRate_of_sampled hkept]
    by_cases hone : Binary64.one ≤ m.rate
    · simp only [hone, decide_true, Bool.not_true, Bool.false_eq_true, if_false, if_true]
    · simp only [hone, decide_false, Bool.not_false, if_true, if_false]
  have hreset : m.resetReading scope = ⟨bytesOf full, bytesOf "0", bytesOf "g", none⟩ := by
    unfold resetReading
    rw [hfull]
  refine ⟨?_, ?_⟩
  · rw [hlines]
    exact length_lines scope m
  · refine ⟨(if m.resets then [m.resetReading scope] else []).map Reading.written,
      (m.valueReading scope).written, m.valueReading scope, ?_, ?_, hread.2,
      written_readLine hread.2, ?_, rfl, rfl, hrate, m.observation.readsBack_text⟩
    · rw [hlines, lines, readings, List.map_append]
      rfl
    · split
      · rw [← hreset, List.map_singleton, List.map_singleton, hread.1]
      · rfl
    · exact congrArg bytesOf hfull

/-- A gauge at -5, at a rate of 0.75 and under a name with a bar in it. -/
theorem Metric.message_reads_back_sampled_level :
    let scope : Prefix := ⟨"app", rfl⟩
    let m : Metric := ⟨"a|b", .gauge (.whole (-5)), ⟨0x3fe8000000000000⟩⟩
    m.request scope ⟨0⟩ = .emit (m.message scope) ∧
    (splitLines (m.message scope).data).length = 2 ∧
    ∃ resets line r,
      splitLines (m.message scope).data = resets ++ [line] ∧
      resets.map readLine = [some ⟨bytesOf "app.a|b", bytesOf "0", bytesOf "g", none⟩] ∧
      readLine line = some r ∧
      r = ⟨bytesOf "app.a|b", bytesOf "-5", bytesOf "g", some (bytesOf "0.75")⟩ ∧
      readInt r.value = some (-5) := by
  intro scope m
  have hkept : (sampled m.rate ⟨0⟩).1 = true := by
    have hone : ¬ Binary64.one ≤ m.rate := by decide +kernel
    have hdraw : Generator.draw ⟨0⟩ =
        (Generator.fraction (Generator.next ⟨0⟩).word, Generator.next ⟨0⟩) := by
      rw [Generator.draw, if_pos Generator.fraction_after_zero]
    have hless : Generator.fraction (Generator.next ⟨0⟩).word < m.rate := by decide +kernel
    rw [sampled, if_neg hone, hdraw]
    exact decide_eq_true hless
  have hemitted : m.request scope ⟨0⟩ = .emit (m.message scope) := by
    have hrefusal : m.refusal? = none := by decide
    simp only [Metric.request, Metric.fate, hrefusal, hkept, Option.isSome_none,
      Bool.false_eq_true, if_true, if_false]
  obtain ⟨hlength, resets, line, r, hlines, hresets, hline, -, hname, hvalue, hkind, hrate,
    hread⟩ := Metric.message_reads_back scope (by decide) (by decide) hemitted
  refine ⟨hemitted, hlength, resets, line, r, hlines, hresets, hline, ?_, hread.gauge (-5) rfl⟩
  have hsome : r.rate = some (bytesOf "0.75") := by
    have htext : m.rate.text = "0.75" := by decide +kernel
    have hone : ¬ Binary64.one ≤ m.rate := by decide +kernel
    rw [hrate, if_neg hone, htext]
  rcases r with ⟨name, value, kind, rate⟩
  cases hname
  cases hvalue
  cases hkind
  cases hsome
  rfl

end Statsd

import Statsd.Number.Decimal
import Statsd.Proofs.Lines

/-!
# Statsd.Proofs.Text — texts as bytes, and numbers that read back

The line format has no escaping. What may stand between two of its delimiters
is therefore a matter of which bytes a text can have:

* A byte below `0x80` in the bytes of a text is a character of it
  (`mem_bytesOf`). All delimiters are such bytes, so a text without a delimiter
  has bytes without one, whatever else is in it.
* Numbers are written with few characters, and none of them is a delimiter
  (`Numeral`, `numeral_text`).
* `readInt` reads an integer from its bytes. It undoes both ways in which
  integers are written (`readInt_ofInt`, `readInt_ofIntSigned`).
-/

namespace Statsd

/-- The bytes of a text. -/
def bytesOf (s : String) : Line := s.toUTF8.data.toList

theorem bytesOf_append (s t : String) : bytesOf (s ++ t) = bytesOf s ++ bytesOf t := by
  unfold bytesOf
  rw [String.toUTF8_eq_toByteArray, String.toByteArray_append, ByteArray.toList_data_append]
  rfl

/-- The bytes of a text are those of its characters. -/
theorem bytesOf_eq_flatMap (s : String) : bytesOf s = s.toList.flatMap String.utf8EncodeChar := by
  unfold bytesOf
  rw [String.toUTF8_eq_toByteArray, ← String.utf8Encode_toList, List.utf8Encode,
    List.data_toByteArray]

/-! ## Bytes that are characters -/

/-- A character of more than one byte has no byte below `0x80`. -/
theorem le_of_mem_encodeChar {c : Char} {b : UInt8} (hsize : c.utf8Size ≠ 1)
    (hb : b ∈ String.utf8EncodeChar c) : 0x80 ≤ b := by
  -- one case for each number of bytes; each byte has the mark of a first or of a later one
  obtain h1 | h2 | h3 | h4 := c.utf8Size_eq
  · exact absurd h1 hsize
  · rw [String.utf8EncodeChar_eq_cons_cons h2] at hb
    simp only [List.mem_cons, List.not_mem_nil, or_false] at hb
    obtain rfl | rfl := hb <;> exact UInt8.le_trans (by decide) UInt8.right_le_or
  · rw [String.utf8EncodeChar_eq_cons_cons_cons h3] at hb
    simp only [List.mem_cons, List.not_mem_nil, or_false] at hb
    obtain rfl | rfl | rfl := hb <;> exact UInt8.le_trans (by decide) UInt8.right_le_or
  · rw [String.utf8EncodeChar_eq_cons_cons_cons_cons h4] at hb
    simp only [List.mem_cons, List.not_mem_nil, or_false] at hb
    obtain rfl | rfl | rfl | rfl := hb <;> exact UInt8.le_trans (by decide) UInt8.right_le_or

/-- A byte below `0x80` stands for itself in the encoding of a character. -/
theorem mem_encodeChar {c : Char} {b : UInt8} (hb : b ∈ String.utf8EncodeChar c) (hlow : b < 0x80) :
    c.val.toNat = b.toNat := by
  by_cases hsize : c.utf8Size = 1
  · rw [String.utf8EncodeChar_eq_singleton hsize, List.mem_singleton] at hb
    have hsmall : c.val.toNat ≤ 0x7f :=
      UInt32.le_iff_toNat_le.mp (Char.utf8Size_eq_one_iff.mp hsize)
    rw [hb, UInt32.toNat_toUInt8]
    omega
  · have hle : 0x80 ≤ b := le_of_mem_encodeChar hsize hb
    rw [UInt8.le_iff_toNat_le] at hle
    rw [UInt8.lt_iff_toNat_lt] at hlow
    omega

/-- A byte below `0x80` of a text is one of its characters. -/
theorem mem_bytesOf {s : String} {b : UInt8} (hb : b ∈ bytesOf s) (hlow : b < 0x80) :
    ∃ c ∈ s.toList, c.val.toNat = b.toNat := by
  rw [bytesOf_eq_flatMap, List.mem_flatMap] at hb
  obtain ⟨c, hc, hbc⟩ := hb
  exact ⟨c, hc, mem_encodeChar hbc hlow⟩

/-- A character of ASCII is one byte. -/
theorem encodeChar_ascii {c : Char} (h : c.val ≤ 0x7f) :
    String.utf8EncodeChar c = [c.val.toUInt8] :=
  String.utf8EncodeChar_eq_singleton (Char.utf8Size_eq_one_iff.mpr h)

/-- The byte of a character of ASCII is its code point. -/
theorem toNat_byte {c : Char} (hlow : c.val < 0x80) : c.val.toUInt8.toNat = c.val.toNat := by
  have hsmall : c.val.toNat < 0x80 := UInt32.lt_iff_toNat_lt.mp hlow
  rw [UInt32.toNat_toUInt8]
  omega

/-- A text with a character of ASCII has its byte. -/
theorem byte_mem_bytesOf {s : String} {c : Char} (hc : c ∈ s.toList) (hlow : c.val < 0x80) :
    c.val.toUInt8 ∈ bytesOf s := by
  have hascii : c.val ≤ 0x7f :=
    UInt32.le_iff_toNat_le.mpr (Nat.le_of_lt_succ (UInt32.lt_iff_toNat_lt.mp hlow))
  rw [bytesOf_eq_flatMap, List.mem_flatMap]
  refine ⟨c, hc, ?_⟩
  rw [encodeChar_ascii hascii]
  exact List.mem_singleton.mpr rfl

/-- A text without a character of ASCII has no such byte. -/
theorem not_mem_bytesOf {s : String} {c : Char} (hc : c ∉ s.toList) (hlow : c.val < 0x80) :
    c.val.toUInt8 ∉ bytesOf s := by
  intro hb
  have hsmall : c.val.toNat < 0x80 := UInt32.lt_iff_toNat_lt.mp hlow
  have hbyte := toNat_byte hlow
  obtain ⟨c', hc', hval⟩ := mem_bytesOf hb (UInt8.lt_iff_toNat_lt.mpr (by rw [hbyte]; exact hsmall))
  have hsame : c' = c := Char.ext (UInt32.toNat_inj.mp (hval.trans hbyte))
  exact hc (hsame ▸ hc')

/-- In a text of ASCII each character is one byte. -/
theorem bytesOf_ofList {cs : List Char} (h : ∀ c ∈ cs, c.val ≤ 0x7f) :
    bytesOf (String.ofList cs) = cs.map (·.val.toUInt8) := by
  rw [bytesOf_eq_flatMap, String.toList_ofList]
  induction cs with
  | nil => rfl
  | cons c rest ih =>
      have hone := encodeChar_ascii (h c (List.mem_cons_self ..))
      rw [List.flatMap_cons, hone, ih fun c' hc' => h c' (List.mem_cons_of_mem c hc')]
      rfl

/-! ## The characters of numbers -/

/-- Whether numbers are written with a character: a digit, a sign, the point,
or a letter of an exponent, of an infinity or of what is no number. -/
def isNumeral (c : Char) : Bool :=
  c.isDigit || ['+', '-', '.', 'e', 'N', 'a', 'i', 'n', 'f'].contains c

/-- A text that a number may have. -/
def Numeral (cs : List Char) : Prop := cs.all isNumeral = true

theorem numeral_iff {cs : List Char} : Numeral cs ↔ ∀ c ∈ cs, isNumeral c = true :=
  List.all_eq_true

theorem Numeral.append {as bs : List Char} (ha : Numeral as) (hb : Numeral bs) :
    Numeral (as ++ bs) := by
  unfold Numeral at *
  rw [List.all_append, ha, hb]
  rfl

theorem Numeral.cons {a : Char} {bs : List Char} (ha : isNumeral a = true) (hb : Numeral bs) :
    Numeral (a :: bs) := by
  unfold Numeral at *
  rw [List.all_cons, ha, hb]
  rfl

theorem Numeral.subset {as bs : List Char} (hb : Numeral bs) (h : as ⊆ bs) : Numeral as :=
  numeral_iff.mpr fun c hc => numeral_iff.mp hb c (h hc)

/-- What no number is written with is not in its text. -/
theorem Numeral.not_mem {cs : List Char} (h : Numeral cs) {c : Char} (hc : isNumeral c = false) :
    c ∉ cs := by
  intro hmem
  rw [numeral_iff.mp h c hmem] at hc
  cases hc

theorem isDigit_of_mem_digitsOf {n : Nat} {c : Char} (h : c ∈ Decimal.digitsOf n) :
    c.isDigit = true := Nat.isDigit_of_mem_toDigits (by decide) (by decide) h

theorem numeral_digitsOf (n : Nat) : Numeral (Decimal.digitsOf n) := by
  rw [numeral_iff]
  intro c hc
  unfold isNumeral
  rw [isDigit_of_mem_digitsOf hc, Bool.true_or]

theorem numeral_ofNat (n : Nat) : Numeral (Decimal.ofNat n).toList := by
  unfold Decimal.ofNat
  rw [String.toList_ofList]
  exact numeral_digitsOf n

theorem numeral_ofInt (n : Int) : Numeral (Decimal.ofInt n).toList := by
  unfold Decimal.ofInt
  split
  · rw [String.toList_append]
    exact Numeral.append rfl (numeral_ofNat _)
  · exact numeral_ofNat _

theorem numeral_ofIntSigned (n : Int) : Numeral (Decimal.ofIntSigned n).toList := by
  unfold Decimal.ofIntSigned
  split
  · exact numeral_ofInt n
  · rw [String.toList_append]
    exact Numeral.append rfl (numeral_ofInt n)

theorem numeral_zeros (n : Nat) : Numeral (Layout.zeros n) := by
  rw [numeral_iff]
  intro c hc
  rw [List.eq_of_mem_replicate hc]
  rfl

theorem numeral_pointed {cs : List Char} (h : Numeral cs) : Numeral (Layout.pointed cs) := by
  unfold Layout.pointed
  split
  · exact h
  · exact h
  · rename_i c rest _
    have hc : isNumeral c = true := numeral_iff.mp h c (List.mem_cons_self ..)
    exact Numeral.cons hc (Numeral.cons rfl (h.subset (List.subset_cons_self c rest)))

/-- Positional or not, a decimal is a numeral. -/
theorem numeral_render (l : Layout) (d : Decimal) : Numeral (l.render d) := by
  have hds := numeral_digitsOf d.digits
  have htake := fun n => hds.subset (List.take_subset n _)
  have hdrop := fun n => hds.subset (List.drop_subset n _)
  unfold Layout.render
  dsimp only
  split
  · exact (hds.append (numeral_zeros _)).append rfl
  · split
    · exact (htake _).append (Numeral.cons rfl (hdrop _))
    · split
      · exact Numeral.cons rfl (Numeral.cons rfl ((numeral_zeros _).append hds))
      · exact (numeral_pointed hds).append (Numeral.cons rfl (numeral_ofInt _))

/-- Whatever a floating-point value is, its text is a numeral. -/
theorem numeral_text (l : Layout) (F : Format) (v : Value) : Numeral (l.text F v).toList := by
  unfold Layout.text
  cases v with
  | nan =>
      show Numeral "NaN".toList
      rfl
  | infinite negative =>
      show Numeral (if negative then "-inf" else "inf").toList
      split
      · rfl
      · rfl
  | finite negative m q =>
      have hunsigned : Numeral
          (if m = 0 then ['0', '.', '0'] else l.render (Around.ofBinary F m q).shortest) := by
        split
        · rfl
        · exact numeral_render l _
      dsimp only
      rw [String.toList_ofList]
      split
      · exact Numeral.cons rfl hunsigned
      · exact hunsigned

/-! ## Reading integers -/

/-- The number whose digits are `n` and then those of the line. -/
def readDigits (n : Nat) : Line → Option Nat
  | [] => some n
  | b :: rest => if 0x30 ≤ b ∧ b ≤ 0x39 then readDigits (10 * n + (b.toNat - 0x30)) rest else none

/-- A natural number, with one digit at least. -/
def readNat (line : Line) : Option Nat :=
  if line.isEmpty then none else readDigits 0 line

/-- The bytes of the two signs. -/
def plus : UInt8 := 0x2b

def minus : UInt8 := 0x2d

/-- An integer, with or without a sign. -/
def readInt : Line → Option Int
  | [] => none
  | b :: rest =>
    if b = minus then (readNat rest).map fun n : Nat => -(n : Int)
    else if b = plus then (readNat rest).map Int.ofNat
    else (readNat (b :: rest)).map Int.ofNat

/-- Whether a line begins with a sign. -/
def isSigned (line : Line) : Bool :=
  match line with
  | [] => false
  | b :: _ => b == plus || b == minus

/-- A digit is one byte, between those of `0` and `9`. -/
theorem toNat_of_isDigit {c : Char} (h : c.isDigit = true) :
    c.val.toUInt8.toNat = c.val.toNat ∧ 0x30 ≤ c.val.toNat ∧ c.val.toNat ≤ 0x39 := by
  rw [Char.isDigit, Bool.and_eq_true, decide_eq_true_eq, decide_eq_true_eq, ge_iff_le,
    UInt32.le_iff_toNat_le, UInt32.le_iff_toNat_le] at h
  have hlow : 48 ≤ c.val.toNat := h.1
  have hhigh : c.val.toNat ≤ 57 := h.2
  refine ⟨?_, hlow, hhigh⟩
  rw [UInt32.toNat_toUInt8]
  omega

theorem readDigits_map {cs : List Char} (h : ∀ c ∈ cs, c.isDigit = true) (n : Nat) :
    readDigits n (cs.map (·.val.toUInt8)) = some (Nat.ofDigitChars 10 cs n) := by
  -- what has been read is where the rest starts, so it varies in the induction
  induction cs generalizing n with
  | nil => rfl
  | cons c rest ih =>
      obtain ⟨hbyte, hdigit⟩ := toNat_of_isDigit (h c (List.mem_cons_self ..))
      have hrange : (0x30 : UInt8) ≤ c.val.toUInt8 ∧ c.val.toUInt8 ≤ 0x39 := by
        rw [UInt8.le_iff_toNat_le, UInt8.le_iff_toNat_le, hbyte]
        exact hdigit
      have hvalue : c.toNat - '0'.toNat = c.val.toUInt8.toNat - 0x30 := by
        rw [hbyte]
        rfl
      rw [List.map_cons, readDigits, if_pos hrange, Nat.ofDigitChars_cons, hvalue]
      exact ih (fun c' hc' => h c' (List.mem_cons_of_mem c hc')) _

/-- The bytes of a natural number. -/
theorem bytesOf_ofNat (n : Nat) :
    bytesOf (Decimal.ofNat n) = (Decimal.digitsOf n).map (·.val.toUInt8) := by
  unfold Decimal.ofNat
  apply bytesOf_ofList
  intro c hc
  obtain ⟨-, -, hhigh⟩ := toNat_of_isDigit (isDigit_of_mem_digitsOf hc)
  exact UInt32.le_iff_toNat_le.mpr (Nat.le_trans hhigh (by decide))

theorem readNat_ofNat (n : Nat) : readNat (bytesOf (Decimal.ofNat n)) = some n := by
  have hne : Decimal.digitsOf n ≠ [] := Nat.toDigits_ne_nil
  have hlist : ((Decimal.digitsOf n).map (·.val.toUInt8)).isEmpty = false := by
    rw [List.isEmpty_map, List.isEmpty_eq_false_iff]
    exact hne
  rw [bytesOf_ofNat, readNat, hlist, readDigits_map fun c hc => isDigit_of_mem_digitsOf hc]
  exact congrArg some Nat.ofDigitChars_ten_toDigits

/-- The first byte of a natural number is a digit, and no sign. -/
theorem bytesOf_ofNat_cons (n : Nat) :
    ∃ b rest, bytesOf (Decimal.ofNat n) = b :: rest ∧ b ≠ minus ∧ b ≠ plus := by
  rw [bytesOf_ofNat]
  cases hds : Decimal.digitsOf n with
  | nil => exact absurd hds Nat.toDigits_ne_nil
  | cons c rest =>
      have hdigit : c.isDigit = true := isDigit_of_mem_digitsOf (hds ▸ List.mem_cons_self ..)
      obtain ⟨hbyte, hlow, -⟩ := toNat_of_isDigit hdigit
      refine ⟨c.val.toUInt8, rest.map (·.val.toUInt8), rfl, ?_, ?_⟩
      · intro heq
        rw [heq] at hbyte
        have hminus : minus.toNat = 45 := rfl
        omega
      · intro heq
        rw [heq] at hbyte
        have hplus : plus.toNat = 43 := rfl
        omega

/-- A number without a sign is read as it stands. -/
theorem readInt_ofNat (n : Nat) : readInt (bytesOf (Decimal.ofNat n)) = some (n : Int) := by
  obtain ⟨b, rest, hbytes, hminus, hplus⟩ := bytesOf_ofNat_cons n
  have hread := readNat_ofNat n
  rw [hbytes] at hread ⊢
  rw [readInt, if_neg hminus, if_neg hplus, hread]
  rfl

/-- An integer reads back. -/
theorem readInt_ofInt (n : Int) : readInt (bytesOf (Decimal.ofInt n)) = some n := by
  unfold Decimal.ofInt
  by_cases hneg : n < 0
  · have hsign : bytesOf "-" = [minus] := by decide
    rw [if_pos hneg, bytesOf_append, hsign, List.singleton_append, readInt, if_pos rfl,
      readNat_ofNat, Option.map_some]
    congr 1
    omega
  · rw [if_neg hneg, readInt_ofNat]
    congr 1
    omega

/-- An integer with its sign reads back. -/
theorem readInt_ofIntSigned (n : Int) : readInt (bytesOf (Decimal.ofIntSigned n)) = some n := by
  unfold Decimal.ofIntSigned
  by_cases hneg : n < 0
  · rw [if_pos hneg]
    exact readInt_ofInt n
  · have hsign : bytesOf "+" = [plus] := by decide
    have hminus : plus ≠ minus := by decide
    rw [if_neg hneg, Decimal.ofInt, if_neg hneg, bytesOf_append, hsign, List.singleton_append,
      readInt, if_neg hminus, if_pos rfl, readNat_ofNat, Option.map_some]
    congr 1
    exact Int.natAbs_of_nonneg (Int.not_lt.mp hneg)

/-- An integer has a sign exactly if it is negative. -/
theorem isSigned_ofInt (n : Int) : isSigned (bytesOf (Decimal.ofInt n)) = decide (n < 0) := by
  unfold Decimal.ofInt
  by_cases hneg : n < 0
  · have hsign : bytesOf "-" = [minus] := by decide
    rw [if_pos hneg, bytesOf_append, hsign, decide_eq_true hneg]
    rfl
  · obtain ⟨b, rest, hbytes, hminus, hplus⟩ := bytesOf_ofNat_cons n.natAbs
    rw [if_neg hneg, hbytes, decide_eq_false hneg, isSigned, beq_false_of_ne hplus,
      beq_false_of_ne hminus]
    rfl

/-- Where the sign carries the meaning, it is there. -/
theorem isSigned_ofIntSigned (n : Int) : isSigned (bytesOf (Decimal.ofIntSigned n)) = true := by
  unfold Decimal.ofIntSigned
  by_cases hneg : n < 0
  · rw [if_pos hneg, isSigned_ofInt, decide_eq_true hneg]
  · have hsign : bytesOf "+" = [plus] := by decide
    rw [if_neg hneg, bytesOf_append, hsign]
    rfl

end Statsd

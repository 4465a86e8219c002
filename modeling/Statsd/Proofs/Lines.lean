import Statsd.Proofs.Bytes

/-!
# Statsd.Proofs.Lines — byte strings read line by line

A target reads what it gets line by line. `splitLines` cuts a byte string at
its line feeds; on a stream only those lines count that a line feed has ended
(`endedLines`), as the rest may be the beginning of a line that is still to come.

* Joined and terminated byte strings have the lines of their parts
  (`splitLines_joined`, `endedLines_terminated`).
* Where a stream stands behind a line feed (`AtLineStart`), what follows adds
  its own lines and nothing else (`endedLines_append`).
* A first part of a byte string has first ended lines (`endedLines_prefix`).
-/

namespace Statsd

/-- The bytes of a line, without the line feed that ends it. -/
abbrev Line := List UInt8

/-- The stretches of a byte string between its line feeds. -/
def splitLines (b : ByteArray) : List Line := b.data.toList.splitOn lineFeed

/-- The stretches of a byte string that a line feed ends. -/
def endedLines (b : ByteArray) : List Line := (splitLines b).dropLast

theorem toList_push (b : ByteArray) (x : UInt8) : (b.push x).data.toList = b.data.toList ++ [x] :=
  Array.toList_push

/-- Byte strings with the same bytes are the same. -/
theorem eq_of_toList {a b : ByteArray} (h : a.data.toList = b.data.toList) : a = b :=
  ByteArray.ext (Array.toList_inj.mp h)

theorem splitLines_ne_nil (b : ByteArray) : splitLines b ≠ [] :=
  List.splitOn_ne_nil lineFeed _

/-- A byte string without a line feed is one line. -/
theorem splitLines_of_not_mem {b : ByteArray} (h : lineFeed ∉ b.data.toList) :
    splitLines b = [b.data.toList] := List.splitOn_eq_singleton h

/-- A line feed parts the lines before it from those behind it. -/
theorem splitLines_push_append (a b : ByteArray) :
    splitLines (a.push lineFeed ++ b) = splitLines a ++ splitLines b := by
  unfold splitLines
  rw [ByteArray.toList_data_append, toList_push, List.append_assoc]
  exact List.splitOn_append_cons_self a.data.toList b.data.toList

theorem endedLines_push_append (a b : ByteArray) :
    endedLines (a.push lineFeed ++ b) = splitLines a ++ endedLines b := by
  unfold endedLines
  rw [splitLines_push_append, List.dropLast_append_of_ne_nil (splitLines_ne_nil b)]

@[simp] theorem endedLines_empty : endedLines ByteArray.empty = [] := rfl

theorem endedLines_push (a : ByteArray) : endedLines (a.push lineFeed) = splitLines a := by
  have h := endedLines_push_append a ByteArray.empty
  rwa [ByteArray.append_empty, endedLines_empty, List.append_nil] at h

/-! ## The two framings -/

/-- A joined list has the lines of its parts. -/
theorem splitLines_joined {bs : List ByteArray} (h : bs ≠ []) :
    splitLines (joined bs) = bs.flatMap splitLines := by
  induction bs with
  | nil => exact absurd rfl h
  | cons b rest ih =>
      cases rest with
      | nil => simp [joined]
      | cons c rest =>
          have hrest : splitLines (joined (c :: rest)) = (c :: rest).flatMap splitLines :=
            ih (List.cons_ne_nil c rest)
          rw [joined, splitLines_push_append, hrest]
          rfl

/-- A terminated list ends all lines of its parts. -/
theorem endedLines_terminated (bs : List ByteArray) :
    endedLines (terminated bs) = bs.flatMap splitLines := by
  induction bs with
  | nil => rfl
  | cons b rest ih => rw [terminated_cons, endedLines_push_append, ih, List.flatMap_cons]

/-! ## Streams -/

/-- Nothing has come yet, or a line feed was the last byte. -/
def AtLineStart (b : ByteArray) : Prop :=
  b = ByteArray.empty ∨ ∃ a : ByteArray, b = a.push lineFeed

theorem atLineStart_append_push (a b : ByteArray) : AtLineStart (a ++ b.push lineFeed) :=
  Or.inr ⟨a ++ b, append_push a b lineFeed⟩

/-- Behind a line feed, more bytes end their own lines. -/
theorem endedLines_append {a : ByteArray} (h : AtLineStart a) (b : ByteArray) :
    endedLines (a ++ b) = endedLines a ++ endedLines b := by
  obtain rfl | ⟨a, rfl⟩ := h
  · rw [ByteArray.empty_append, endedLines_empty, List.nil_append]
  · rw [endedLines_push_append, endedLines_push]

/-- The lines that have been ended stay so, whatever follows. -/
theorem endedLines_prefix (a b : ByteArray) : endedLines a <+: endedLines (a ++ b) := by
  -- by induction on the number of bytes, line by line
  induction hsize : a.size using Nat.strongRecOn generalizing a with
  | ind n ih =>
      by_cases hfeed : lineFeed ∈ a.data.toList
      · obtain ⟨first, rest, hsplit, -⟩ := List.eq_append_cons_of_mem hfeed
        have ha : a = (ByteArray.mk first.toArray).push lineFeed ++ ByteArray.mk rest.toArray := by
          apply eq_of_toList
          rw [hsplit, ByteArray.toList_data_append, toList_push]
          simp
        have hshort : (ByteArray.mk rest.toArray).size < n := by
          rw [← hsize, ha, ByteArray.size_append, ByteArray.size_push]
          omega
        rw [ha, ByteArray.append_assoc, endedLines_push_append, endedLines_push_append,
          List.prefix_append_right_inj]
        exact ih _ hshort (ByteArray.mk rest.toArray) rfl
      · have hnone : endedLines a = [] := by
          unfold endedLines
          rw [splitLines_of_not_mem hfeed]
          rfl
        rw [hnone]
        exact List.nil_prefix

/-- A first part of a byte string that ends in a line feed, and not the whole of
it, does not end the last line. -/
theorem endedLines_part {part left a : ByteArray} (hleft : left ≠ ByteArray.empty)
    (h : part ++ left = a.push lineFeed) : endedLines part <+: endedLines a := by
  have hlist : part.data.toList ++ left.data.toList = a.data.toList ++ [lineFeed] := by
    rw [← ByteArray.toList_data_append, h, toList_push]
  have hne : left.data.toList ≠ [] := fun hnil => hleft (eq_of_toList hnil)
  have ha : a = part ++ ByteArray.mk left.data.toList.dropLast.toArray := by
    apply eq_of_toList
    have hdrop := congrArg List.dropLast hlist
    rw [List.dropLast_append_of_ne_nil hne, List.dropLast_concat] at hdrop
    rw [ByteArray.toList_data_append]
    exact hdrop.symm
  rw [ha]
  exact endedLines_prefix part _

end Statsd

import Statsd.Packet

/-!
# Statsd.Proofs.Bytes — byte strings put one behind the other

A packet joins its messages and a stream terminates its packets; here both
framings are functions of the list of byte strings that went in.

* `concat` puts byte strings one behind the other with nothing in between.
* `joined` has a line feed between two of them, `terminated` one behind each.
* One line feed behind a joined list terminates it (`joined_push`), so a list
  that is cut into parts, each of which is joined and terminated, gives the
  same bytes as the list terminated as a whole (`terminated_joined`).
-/

namespace Statsd

/-! ## Concatenation -/

/-- Byte strings one behind the other. -/
def concat : List ByteArray → ByteArray
  | [] => ByteArray.empty
  | b :: rest => b ++ concat rest

@[simp] theorem concat_nil : concat [] = ByteArray.empty := rfl

@[simp] theorem concat_cons (b : ByteArray) (rest : List ByteArray) :
    concat (b :: rest) = b ++ concat rest := rfl

theorem concat_append (as bs : List ByteArray) :
    concat (as ++ bs) = concat as ++ concat bs := by
  induction as with
  | nil => simp
  | cons a as ih => simp only [List.cons_append, concat_cons, ih, ByteArray.append_assoc]

theorem concat_singleton (b : ByteArray) : concat [b] = b := by simp

/-- Collecting from the left is concatenation. -/
theorem foldl_concat {α : Type} (f : α → ByteArray) (xs : List α) (start : ByteArray) :
    xs.foldl (fun bytes x => bytes ++ f x) start = start ++ concat (xs.map f) := by
  induction xs generalizing start with
  | nil => simp
  | cons x xs ih =>
      simp only [List.foldl_cons, ih, List.map_cons, concat_cons, ByteArray.append_assoc]

/-- Byte strings that are all empty add nothing. -/
theorem concat_eq_empty {bs : List ByteArray} (h : ∀ b ∈ bs, b = ByteArray.empty) :
    concat bs = ByteArray.empty := by
  induction bs with
  | nil => rfl
  | cons b bs ih =>
      rw [concat_cons, h b (List.mem_cons_self ..),
        ih fun c hc => h c (List.mem_cons_of_mem b hc), ByteArray.append_empty]

/-! ## One byte more -/

theorem append_push (a b : ByteArray) (x : UInt8) : a ++ b.push x = (a ++ b).push x := by
  rw [← ByteArray.append_toByteArray_singleton, ← ByteArray.append_toByteArray_singleton,
    ByteArray.append_assoc]

theorem push_ne_empty (b : ByteArray) (x : UInt8) : b.push x ≠ ByteArray.empty := by
  intro h
  have hsize : (b.push x).size = 0 := by rw [h, ByteArray.size_empty]
  rw [ByteArray.size_push] at hsize
  omega

/-! ## Parts of a byte string -/

/-- The bytes on either side of a place in a byte string. -/
theorem extract_append_rest (b : ByteArray) {k : Nat} (h : k ≤ b.size) :
    b.extract 0 k ++ b.extract k b.size = b := by
  rw [← ByteArray.extract_eq_extract_append_extract k (Nat.zero_le k) h,
    ByteArray.extract_zero_size]

theorem isEmpty_iff {b : ByteArray} : b.isEmpty = true ↔ b = ByteArray.empty := by
  rw [← ByteArray.size_eq_zero_iff, ByteArray.isEmpty, beq_iff_eq]

/-! ## The two framings -/

/-- Byte strings with a line feed between each two. -/
def joined : List ByteArray → ByteArray
  | [] => ByteArray.empty
  | [b] => b
  | b :: c :: rest => b.push lineFeed ++ joined (c :: rest)

/-- Byte strings with a line feed behind each. -/
def terminated (bs : List ByteArray) : ByteArray :=
  concat (bs.map (·.push lineFeed))

@[simp] theorem terminated_nil : terminated [] = ByteArray.empty := rfl

theorem terminated_cons (b : ByteArray) (rest : List ByteArray) :
    terminated (b :: rest) = b.push lineFeed ++ terminated rest := rfl

theorem terminated_append (as bs : List ByteArray) :
    terminated (as ++ bs) = terminated as ++ terminated bs := by
  simp only [terminated, List.map_append, concat_append]

theorem terminated_singleton (b : ByteArray) : terminated [b] = b.push lineFeed := by
  simp [terminated]

/-- A joined list ends with its last byte string. -/
theorem joined_concat {g : List ByteArray} (hg : g ≠ []) (b : ByteArray) :
    joined (g ++ [b]) = (joined g).push lineFeed ++ b := by
  induction g with
  | nil => exact absurd rfl hg
  | cons a rest ih =>
      cases rest with
      | nil => rfl
      | cons c rest =>
          -- the line feed behind `a` stays where it is
          have hrest : joined ((c :: rest) ++ [b]) = (joined (c :: rest)).push lineFeed ++ b :=
            ih (List.cons_ne_nil c rest)
          calc joined (a :: c :: rest ++ [b])
              = a.push lineFeed ++ joined (c :: rest ++ [b]) := rfl
            _ = a.push lineFeed ++ (joined (c :: rest)).push lineFeed ++ b := by
                rw [hrest, ByteArray.append_assoc]
            _ = (joined (a :: c :: rest)).push lineFeed ++ b := by
                rw [append_push]
                rfl

/-- A line feed behind a joined list terminates it. -/
theorem joined_push {g : List ByteArray} (hg : g ≠ []) :
    (joined g).push lineFeed = terminated g := by
  induction g with
  | nil => exact absurd rfl hg
  | cons a rest ih =>
      cases rest with
      | nil => exact (terminated_singleton a).symm
      | cons c rest =>
          have hrest : (joined (c :: rest)).push lineFeed = terminated (c :: rest) :=
            ih (List.cons_ne_nil c rest)
          rw [terminated_cons, ← hrest, append_push]
          rfl

/-- Where a list is cut does not matter once every part is terminated. -/
theorem terminated_joined {groups : List (List ByteArray)} (h : ∀ g ∈ groups, g ≠ []) :
    terminated (groups.map joined) = terminated groups.flatten := by
  induction groups with
  | nil => rfl
  | cons g groups ih =>
      have hg : g ≠ [] := h g (List.mem_cons_self ..)
      have hrest : ∀ g' ∈ groups, g' ≠ [] := fun g' hg' => h g' (List.mem_cons_of_mem g hg')
      rw [List.map_cons, terminated_cons, joined_push hg, ih hrest, List.flatten_cons,
        terminated_append]

/-- The size of a joined list: the sizes of its parts and the line feeds in between. -/
theorem size_joined_concat {g : List ByteArray} (hg : g ≠ []) (b : ByteArray) :
    (joined (g ++ [b])).size = (joined g).size + 1 + b.size := by
  rw [joined_concat hg, ByteArray.size_append, ByteArray.size_push]

end Statsd

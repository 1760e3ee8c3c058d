/-
Parts of a buffer by their place.

`At buf off part` says that `part` stands at `off`.  A part stays where it is when something is
appended, and when something beside it is overwritten.
-/
import Mathlib.Data.List.TakeDrop

namespace Layout

variable {α : Type}

/-- `part` stands at `off`. -/
def At (buf : List α) (off : Nat) (part : List α) : Prop :=
  ∀ i, i < part.length → buf[off + i]? = part[i]?

/-- `buf[off..off + part.len()].copy_from_slice(part)`. -/
def patch (buf : List α) (off : Nat) (part : List α) : List α :=
  buf.take off ++ part ++ buf.drop (off + part.length)

variable {buf a b : List α} {off : Nat}

theorem At.take_drop (h : At buf off a) : (buf.drop off).take a.length = a := by
  apply List.ext_getElem?
  intro i
  rw [List.getElem?_take, List.getElem?_drop]
  by_cases hi : i < a.length
  · rw [if_pos hi, h i hi]
  · rw [if_neg hi, List.getElem?_eq_none (Nat.le_of_not_lt hi)]

/-- What stands at a place is read off the buffer. -/
theorem At.unique (ha : At buf off a) (hb : At buf off b) (hlen : a.length = b.length) : a = b := by
  rw [← ha.take_drop, hlen, hb.take_drop]

theorem At.le (h : At buf off a) (hne : a ≠ []) : off + a.length ≤ buf.length := by
  have hpos := List.length_pos_iff.mpr hne
  have hlast := h (a.length - 1) (by omega)
  rw [List.getElem?_eq_getElem (by omega : a.length - 1 < a.length)] at hlast
  have := (List.getElem?_eq_some_iff.mp hlast).1
  omega

/-- What is appended stands at the end. -/
theorem at_append : At (buf ++ a) buf.length a := by
  intro i _
  rw [List.getElem?_append_right (Nat.le_add_right _ _), Nat.add_sub_cancel_left]

/-- A part stays when something is appended. -/
theorem At.append (h : At buf off a) (more : List α) : At (buf ++ more) off a := by
  intro i hi
  have hsome := h i hi
  rw [List.getElem?_eq_getElem hi] at hsome
  rw [List.getElem?_append_left (List.getElem?_eq_some_iff.mp hsome).1, h i hi]

theorem At.left (h : At buf off (a ++ b)) : At buf off a := by
  intro i hi
  rw [h i (by rw [List.length_append]; omega), List.getElem?_append_left hi]

theorem At.right (h : At buf off (a ++ b)) : At buf (off + a.length) b := by
  intro i hi
  rw [Nat.add_assoc, h _ (by rw [List.length_append]; omega),
    List.getElem?_append_right (Nat.le_add_right _ _), Nat.add_sub_cancel_left]

/-- Two parts that meet are one. -/
theorem At.join (ha : At buf off a) (hb : At buf (off + a.length) b) : At buf off (a ++ b) := by
  intro i hi
  by_cases hia : i < a.length
  · rw [List.getElem?_append_left hia, ha i hia]
  · rw [List.length_append] at hi
    obtain ⟨j, rfl⟩ := Nat.exists_eq_add_of_le (Nat.le_of_not_lt hia)
    rw [List.getElem?_append_right (Nat.le_add_right _ _), Nat.add_sub_cancel_left,
      ← Nat.add_assoc, hb j (by omega)]

theorem length_patch (h : off + a.length ≤ buf.length) :
    (patch buf off a).length = buf.length := by
  unfold patch
  rw [List.length_append, List.length_append, List.length_take, List.length_drop]
  omega

/-- What is written stands where it was written. -/
theorem at_patch (h : off ≤ buf.length) : At (patch buf off a) off a := by
  have htake : (buf.take off).length = off := by
    rw [List.length_take]
    omega
  have hend : At (buf.take off ++ a) (buf.take off).length a := at_append
  rw [htake] at hend
  exact hend.append _

/-- **What lies beside a part that is overwritten stays.** -/
theorem At.patch {off' : Nat} (h : At buf off a) (hle : off' + b.length ≤ buf.length)
    (hbeside : off + a.length ≤ off' ∨ off' + b.length ≤ off) : At (patch buf off' b) off a := by
  intro i hi
  rw [← h i hi]
  have htake : (buf.take off').length = off' := by
    rw [List.length_take]
    omega
  unfold Layout.patch
  rcases hbeside with hbefore | hbehind
  · rw [List.append_assoc, List.getElem?_append_left (by omega), List.getElem?_take,
      if_pos (by omega)]
  · rw [List.getElem?_append_right (by rw [List.length_append]; omega), List.length_append, htake,
      List.getElem?_drop]
    congr 1
    omega

/-- Two parts that are written next to each other are written as one. -/
theorem patch_patch (h : off ≤ buf.length) :
    patch (patch buf off a) (off + a.length) b = patch buf off (a ++ b) := by
  have hfront : (buf.take off ++ a).length = off + a.length := by
    rw [List.length_append, List.length_take, Nat.min_eq_left h]
  unfold patch
  rw [List.take_left' hfront, ← hfront, ← List.drop_drop, List.drop_left, List.drop_drop, hfront,
    List.length_append, List.append_assoc (buf.take off), Nat.add_assoc]

end Layout

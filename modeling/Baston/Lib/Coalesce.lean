/-
A queue that keeps one entry for each key.

A new entry takes the place of the last one queued under its key: that one is taken out
and the new one goes to the back.  So what the queue holds under a key loses its last
entry and gains the new one, and what it holds under other keys stays.  A reader that
goes by versions ends up with the last entry of a key as long as they increase.
-/
import Mathlib.Data.List.Basic

namespace Coalesce

variable {α : Type}

/-- Take out the last entry that `p` picks. -/
def removeLast (p : α → Bool) (l : List α) : List α := (l.reverse.eraseP p).reverse

theorem filter_eraseP_self (p : α → Bool) (l : List α) :
    (l.eraseP p).filter p = (l.filter p).tail := by
  induction l with
  | nil => rfl
  | cons a rest ih =>
      by_cases ha : p a = true
      · rw [List.eraseP_cons_of_pos ha, List.filter_cons_of_pos ha, List.tail_cons]
      · rw [List.eraseP_cons_of_neg ha, List.filter_cons_of_neg ha, List.filter_cons_of_neg ha, ih]

theorem filter_eraseP_other {p q : α → Bool} (h : ∀ a, q a = true → p a = false) (l : List α) :
    (l.eraseP p).filter q = l.filter q := by
  induction l with
  | nil => rfl
  | cons a rest ih =>
      by_cases ha : p a = true
      · have hq : ¬ q a = true := fun hq => absurd ha (by simp [h a hq])
        rw [List.eraseP_cons_of_pos ha, List.filter_cons_of_neg hq]
      · rw [List.eraseP_cons_of_neg ha, List.filter_cons, List.filter_cons, ih]

/-- Under its own key a queue loses its last entry. -/
theorem filter_removeLast_self (p : α → Bool) (l : List α) :
    (removeLast p l).filter p = (l.filter p).dropLast := by
  unfold removeLast
  rw [List.filter_reverse, filter_eraseP_self, List.filter_reverse, List.tail_reverse,
    List.reverse_reverse]

/-- Under other keys it stays as it was. -/
theorem filter_removeLast_other {p q : α → Bool} (h : ∀ a, q a = true → p a = false)
    (l : List α) : (removeLast p l).filter q = l.filter q := by
  unfold removeLast
  rw [List.filter_reverse, filter_eraseP_other h, List.filter_reverse, List.reverse_reverse]

/-! ### Going by versions -/

variable {N : Type} [LT N] [DecidableLT N] {version : α → N}

/-- Keep the entry with the greater version. -/
def keepGreatest (version : α → N) (held : Option α) (a : α) : Option α :=
  match held with
  | none => some a
  | some b => if version b < version a then some a else some b

/-- **With increasing versions the greatest is the last.** -/
theorem foldl_keepGreatest : ∀ {l : List α} {held : Option α},
    (held.toList ++ l).Pairwise (fun a b => version a < version b) →
      l.foldl (keepGreatest version) held = l.getLast?.or held := by
  intro l
  induction l with
  | nil =>
      intro held _
      rfl
  | cons a rest ih =>
      intro held h
      have hkeep : keepGreatest version held a = some a := by
        cases held with
        | none => rfl
        | some b =>
            have hlt : version b < version a := List.rel_of_pairwise_cons h List.mem_cons_self
            exact if_pos hlt
      have hrest : ((some a).toList ++ rest).Pairwise fun a b => version a < version b :=
        (List.pairwise_append.mp h).2.1
      rw [List.foldl_cons, hkeep, ih hrest]
      cases rest with
      | nil => rfl
      | cons b rest => simp [List.getLast?_cons]

end Coalesce

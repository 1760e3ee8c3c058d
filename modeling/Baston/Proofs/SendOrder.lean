/-
The order candidates are sent in.

The candidates of a tick are sorted by priority, and by id among equals.  As far as
`total_cmp` orders the numbers that is a total order, so the order they are sent in does
not depend on the order they were found in, and what comes first has no lower priority.
-/
import Baston.Proofs.Tick
import Baston.Rage.Exact

namespace Baston.Zone

open Assoc Baston.Rage Std

/-- `f32::total_cmp` compares the keys, which are whole numbers. -/
instance : TransCmp (Scalar.totalCmp : Float32 → Float32 → Ordering) where
  eq_swap := by
    intro a b
    exact OrientedOrd.eq_swap (α := Int)
  isLE_trans := by
    intro a b c
    exact TransOrd.isLE_trans (α := Int)

theorem totalCmp_real (a b : ℝ) : Scalar.totalCmp a b = compare a b := by
  rw [← cmp_eq_compare]
  rfl

instance : TransCmp (Scalar.totalCmp : ℝ → ℝ → Ordering) where
  eq_swap := by
    intro a b
    rw [totalCmp_real, totalCmp_real]
    exact OrientedCmp.eq_swap
  isLE_trans := by
    intro a b c
    rw [totalCmp_real, totalCmp_real, totalCmp_real]
    exact TransCmp.isLE_trans

namespace ClientView

variable {F : Type} [Scalar F]

theorem sendsBefore_iff {a b : Candidate F} :
    sendsBefore a b = true ↔ Scalar.totalCmp b.priority a.priority = .lt
      ∨ (Scalar.totalCmp b.priority a.priority = .eq ∧ a.objectId ≤ b.objectId) := by
  unfold sendsBefore
  cases Scalar.totalCmp b.priority a.priority <;> simp

variable [TransCmp (Scalar.totalCmp : F → F → Ordering)]

theorem sendsBefore_total (a b : Candidate F) :
    sendsBefore a b = true ∨ sendsBefore b a = true := by
  have hswap : Scalar.totalCmp a.priority b.priority
      = (Scalar.totalCmp b.priority a.priority).swap := OrientedCmp.eq_swap
  rw [sendsBefore_iff, sendsBefore_iff, hswap]
  cases Scalar.totalCmp b.priority a.priority with
  | lt => exact .inl (.inl rfl)
  | gt => exact .inr (.inl rfl)
  | eq =>
      rcases UInt16.le_total a.objectId b.objectId with h | h
      · exact .inl (.inr ⟨rfl, h⟩)
      · exact .inr (.inr ⟨rfl, h⟩)

theorem sendsBefore_trans {a b c : Candidate F} (hab : sendsBefore a b = true)
    (hbc : sendsBefore b c = true) : sendsBefore a c = true := by
  rw [sendsBefore_iff] at *
  rcases hab with hab | ⟨hab, hid⟩
  · rcases hbc with hbc | ⟨hbc, -⟩
    · exact .inl (TransCmp.lt_trans hbc hab)
    · exact .inl (TransCmp.lt_of_eq_of_lt hbc hab)
  · rcases hbc with hbc | ⟨hbc, hid'⟩
    · exact .inl (TransCmp.lt_of_lt_of_eq hbc hab)
    · exact .inr ⟨TransCmp.eq_trans hbc hab, UInt16.le_trans hid hid'⟩

/-- Candidates that tie have one id. -/
theorem objectId_eq_of_sendsBefore {a b : Candidate F} (hab : sendsBefore a b = true)
    (hba : sendsBefore b a = true) : a.objectId = b.objectId := by
  have hswap : Scalar.totalCmp a.priority b.priority
      = (Scalar.totalCmp b.priority a.priority).swap := OrientedCmp.eq_swap
  rw [sendsBefore_iff] at hab hba
  rw [hswap] at hba
  rcases hab with hab | ⟨hab, hid⟩
  · rw [hab] at hba
    exact absurd hba (by simp)
  · rw [hab] at hba
    rcases hba with hba | ⟨-, hid'⟩
    · exact absurd hba (by decide)
    · exact UInt16.le_antisymm hid hid'

/-- The candidates, sorted. -/
theorem pairwise_sendOrder (l : List (Candidate F)) :
    (l.insertionSort fun a b => sendsBefore a b).Pairwise fun a b => sendsBefore a b = true := by
  have : Std.Total fun a b : Candidate F => sendsBefore a b = true := ⟨sendsBefore_total⟩
  have : IsTrans (Candidate F) fun a b => sendsBefore a b = true :=
    ⟨fun _ _ _ => sendsBefore_trans⟩
  exact List.pairwise_insertionSort (fun a b => sendsBefore a b = true) l

/-- Candidates with distinct ids are sent in one order, wherever they were found. -/
theorem sendOrder_unique {l l' : List (Candidate F)} (hnodup : (l.map (·.objectId)).Nodup)
    (h : l.Perm l') :
    (l.insertionSort fun a b => sendsBefore a b) = l'.insertionSort fun a b => sendsBefore a b := by
  have hperm := (List.perm_insertionSort (fun a b => sendsBefore a b = true) l).trans
    (h.trans (List.perm_insertionSort (fun a b => sendsBefore a b = true) l').symm)
  refine List.Perm.eq_of_pairwise ?_ (pairwise_sendOrder l) (pairwise_sendOrder l') hperm
  intro a b ha hb hab hba
  rw [List.mem_insertionSort] at ha hb
  exact List.inj_on_of_nodup_map hnodup ha (h.mem_iff.mpr hb) (objectId_eq_of_sendsBefore hab hba)

end ClientView

end Baston.Zone

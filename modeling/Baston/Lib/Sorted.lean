/-
Maps in the order of their keys.

A B-tree map is a list of entries with strictly increasing keys, changed one entry at a time.
-/
import Mathlib.Data.List.Lex
import Mathlib.Data.List.Pairwise
import Mathlib.Order.Lattice

namespace Sorted

variable {κ α : Type} [LinearOrder κ]

/-- The keys increase. -/
def Keys (l : List (κ × α)) : Prop := (l.map Prod.fst).Pairwise (· < ·)

/-- `entry(k)`: what is stored under `k` becomes what `f` makes of it. -/
def alter (k : κ) (f : Option α → α) : List (κ × α) → List (κ × α)
  | [] => [(k, f none)]
  | (k', v) :: rest =>
    if k < k' then (k, f none) :: (k', v) :: rest
    else if k = k' then (k, f (some v)) :: rest
    else (k', v) :: alter k f rest

/-- What is stored under `k`. -/
def get (k : κ) (l : List (κ × α)) : Option α := (l.find? fun p => p.1 = k).map Prod.snd

theorem keys_nil : Keys ([] : List (κ × α)) := List.Pairwise.nil

theorem keys_cons {p : κ × α} {l : List (κ × α)} :
    Keys (p :: l) ↔ (∀ q ∈ l, p.1 < q.1) ∧ Keys l := by
  unfold Keys
  rw [List.map_cons, List.pairwise_cons]
  simp only [List.mem_map, forall_exists_index, and_imp, forall_apply_eq_imp_iff₂]

/-- An entry is the only one of its key. -/
theorem mem_iff_get {l : List (κ × α)} (h : Keys l) {k : κ} {v : α} :
    (k, v) ∈ l ↔ get k l = some v := by
  induction l with
  | nil => simp [get]
  | cons p rest ih =>
      obtain ⟨hlt, hrest⟩ := keys_cons.mp h
      unfold get at ih ⊢
      rw [List.mem_cons, List.find?_cons]
      by_cases hp : p.1 = k
      · have hnot : ¬ (k, v) ∈ rest := fun hmem => absurd (hlt _ hmem) (by rw [hp]; exact lt_irrefl k)
        simp only [hp, decide_true, Option.map_some, Option.some.injEq]
        constructor
        · rintro (heq | hmem)
          · rw [← heq]
          · exact absurd hmem hnot
        · rintro rfl
          exact .inl (by rw [← hp])
      · simp only [hp, decide_false]
        rw [← ih hrest]
        constructor
        · rintro (heq | hmem)
          · exact absurd (by rw [← heq]) hp
          · exact hmem
        · exact .inr

/-- What a change leaves: its own entry, and the others. -/
theorem mem_alter {k : κ} {f : Option α → α} : ∀ {l : List (κ × α)}, Keys l → ∀ {p : κ × α},
    p ∈ alter k f l ↔ p = (k, f (get k l)) ∨ p.1 ≠ k ∧ p ∈ l := by
  intro l
  induction l with
  | nil =>
      intro _ p
      simp [alter, get]
  | cons q rest ih =>
      intro h p
      obtain ⟨k', v⟩ := q
      obtain ⟨hlt, hrest⟩ := keys_cons.mp h
      unfold alter
      split
      · rename_i hbefore
        have hnone : get k ((k', v) :: rest) = none := by
          unfold get
          rw [Option.map_eq_none_iff, List.find?_eq_none]
          intro q hq
          rcases List.mem_cons.mp hq with rfl | hq
          · simpa using hbefore.ne'
          · simpa using (hbefore.trans (hlt q hq)).ne'
        have hne : ∀ q ∈ (k', v) :: rest, q.1 ≠ k := by
          intro q hq
          rcases List.mem_cons.mp hq with rfl | hq
          · exact hbefore.ne'
          · exact (hbefore.trans (hlt q hq)).ne'
        rw [List.mem_cons, hnone]
        exact or_congr_right ⟨fun hp => ⟨hne p hp, hp⟩, fun hp => hp.2⟩
      · rename_i hbefore
        split
        · rename_i heq
          subst heq
          have hsome : get k ((k, v) :: rest) = some v := by
            unfold get
            rw [List.find?_cons]
            simp
          rw [List.mem_cons, List.mem_cons, hsome]
          refine or_congr_right ⟨fun hp => ⟨(hlt p hp).ne', .inr hp⟩, ?_⟩
          rintro ⟨hne, rfl | hp⟩
          · exact absurd rfl hne
          · exact hp
        · rename_i hne
          have hget : get k ((k', v) :: rest) = get k rest := by
            unfold get
            rw [List.find?_cons]
            simp [Ne.symm hne]
          rw [List.mem_cons, ih hrest, hget, List.mem_cons]
          constructor
          · rintro (rfl | heq | ⟨hp, hmem⟩)
            · exact .inr ⟨Ne.symm hne, .inl rfl⟩
            · exact .inl heq
            · exact .inr ⟨hp, .inr hmem⟩
          · rintro (heq | ⟨hp, rfl | hmem⟩)
            · exact .inr (.inl heq)
            · exact .inl rfl
            · exact .inr (.inr ⟨hp, hmem⟩)

theorem keys_alter {k : κ} {f : Option α → α} : ∀ {l : List (κ × α)}, Keys l →
    Keys (alter k f l) := by
  intro l
  induction l with
  | nil =>
      intro _
      exact keys_cons.mpr ⟨by simp, keys_nil⟩
  | cons q rest ih =>
      intro h
      obtain ⟨k', v⟩ := q
      obtain ⟨hlt, hrest⟩ := keys_cons.mp h
      unfold alter
      split
      · rename_i hbefore
        refine keys_cons.mpr ⟨fun q hq => ?_, h⟩
        rcases List.mem_cons.mp hq with rfl | hq
        · exact hbefore
        · exact hbefore.trans (hlt q hq)
      · rename_i hbefore
        split
        · rename_i heq
          subst heq
          exact keys_cons.mpr ⟨hlt, hrest⟩
        · rename_i hne
          refine keys_cons.mpr ⟨fun q hq => ?_, ih hrest⟩
          rcases (mem_alter hrest).mp hq with rfl | ⟨-, hq⟩
          · exact lt_of_le_of_ne (not_lt.mp hbefore) (Ne.symm hne)
          · exact hlt q hq

end Sorted

/-
Two finite maps, each the inverse of the other.

Such a pair is kept by linking two names neither of which is taken, by unlinking two that
belong together, and by giving a name a new partner once its old one has been let go.
-/
import Baston.Lib.Map

namespace Assoc

variable {K V : Type} [DecidableEq K] [DecidableEq V]

/-- What one map files under a key, the other files the key under. -/
def Inverse (f : Map K V) (g : Map V K) : Prop :=
  ∀ k v, f.lookup k = some v ↔ g.lookup v = some k

namespace Inverse

variable {f : Map K V} {g : Map V K} {k : K} {v old : V}

theorem empty : Inverse (∅ : Map K V) (∅ : Map V K) := fun k v => by simp

theorem symm (h : Inverse f g) : Inverse g f := fun v k => (h k v).symm

/-- Two names that are free are linked. -/
theorem link (h : Inverse f g) (hk : f.lookup k = none) (hv : g.lookup v = none) :
    Inverse (f.insert k v) (g.insert v k) := by
  intro k' v'
  rw [Map.lookup_insert_of, Map.lookup_insert_of]
  by_cases hk' : k' = k
  · subst hk'
    by_cases hv' : v' = v
    · subst hv'
      simp
    · rw [if_pos rfl, if_neg hv', ← h k' v', hk]
      simp [Ne.symm hv']
  · by_cases hv' : v' = v
    · subst hv'
      rw [if_neg hk', if_pos rfl, h k' v', hv]
      simp [Ne.symm hk']
    · rw [if_neg hk', if_neg hv']
      exact h k' v'

/-- Two names are linked without unlinking others: right exactly when neither had another partner. -/
theorem link_iff (h : Inverse f g) : Inverse (f.insert k v) (g.insert v k)
    ↔ (∀ v' ∈ f.lookup k, v' = v) ∧ ∀ k' ∈ g.lookup v, k' = k := by
  constructor
  · intro hlinked
    constructor
    · intro v' hv'
      by_contra hne
      have hback : (g.insert v k).lookup v' = some k := by
        rw [Map.lookup_insert_of, if_neg hne]
        exact (h k v').mp hv'
      have hforth := (hlinked k v').mpr hback
      rw [Map.lookup_insert_of, if_pos rfl] at hforth
      exact hne (Option.some.inj hforth).symm
    · intro k' hk'
      by_contra hne
      have hforth : (f.insert k v).lookup k' = some v := by
        rw [Map.lookup_insert_of, if_neg hne]
        exact (h k' v).mpr hk'
      have hback := (hlinked k' v).mp hforth
      rw [Map.lookup_insert_of, if_pos rfl] at hback
      exact hne (Option.some.inj hback).symm
  · rintro ⟨hk, hv⟩ k' v'
    rw [Map.lookup_insert_of, Map.lookup_insert_of]
    by_cases hk' : k' = k
    · subst hk'
      by_cases hv' : v' = v
      · simp [hv']
      · rw [if_pos rfl, if_neg hv', ← h k' v']
        exact iff_of_false (fun heq => hv' (Option.some.inj heq).symm) fun heq => hv' (hk v' heq)
    · by_cases hv' : v' = v
      · subst hv'
        rw [if_neg hk', if_pos rfl, h k' v']
        exact iff_of_false (fun heq => hk' (hv k' heq)) fun heq => hk' (Option.some.inj heq).symm
      · rw [if_neg hk', if_neg hv']
        exact h k' v'

/-- Two names that belong together are unlinked. -/
theorem unlink (h : Inverse f g) (hk : f.lookup k = some v) :
    Inverse (f.erase k) (g.erase v) := by
  intro k' v'
  rw [Map.lookup_erase_of, Map.lookup_erase_of]
  by_cases hk' : k' = k
  · subst hk'
    by_cases hv' : v' = v
    · simp [hv']
    · rw [if_pos rfl, if_neg hv', ← h k' v', hk]
      simp [Ne.symm hv']
  · by_cases hv' : v' = v
    · subst hv'
      rw [if_neg hk', if_pos rfl, h k' v', (h k v').mp hk]
      simp [Ne.symm hk']
    · rw [if_neg hk', if_neg hv']
      exact h k' v'

/-- A name is given a new partner, and its old one is let go. -/
theorem relink (h : Inverse f g) (hk : f.lookup k = some old) (hv : g.lookup v = none) :
    Inverse (f.insert k v) ((g.erase old).insert v k) := by
  have hfree : (g.erase old).lookup v = none := by
    rw [Map.lookup_erase_of]
    split
    · rfl
    · exact hv
  have hlink := (h.unlink hk).link (by rw [Map.lookup_erase_of, if_pos rfl]) hfree
  intro k' v'
  rw [← hlink k' v', Map.lookup_insert_of, Map.lookup_insert_of, Map.lookup_erase_of]
  split
  · rfl
  · rfl

end Inverse

end Assoc

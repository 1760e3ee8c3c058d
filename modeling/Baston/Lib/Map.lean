/-
Finite maps, and the order a hash map hands its entries out in.

A map is a Mathlib association list with distinct keys.  What a hash map does not
promise is the order of an iteration, so nothing here reads the list's own order:
a loop over a map takes an `IterOrder`, an arbitrary rearrangement of the keys, and
a statement quantified over it holds whatever the hash function did.
-/
import Mathlib.Data.List.AList
import Mathlib.Data.List.Sort
import Mathlib.Logic.Function.Basic

namespace Assoc

/-- A finite map from `K` to `V`. -/
abbrev Map (K V : Type) := AList (fun _ : K => V)

/-- One of the orders a hash map may visit its keys in. -/
structure IterOrder (K : Type) where
  arrange : List K → List K
  perm : ∀ l, (arrange l).Perm l

/-- The order the keys are stored in. -/
def IterOrder.stored (K : Type) : IterOrder K := ⟨id, fun _ => List.Perm.refl _⟩

variable {K V W : Type}

/-- What holds of the new value and of all the others holds after an update. -/
theorem forall_update [DecidableEq K] {f : K → V} {k : K} {v : V} {P : K → V → Prop} (hv : P k v)
    (hothers : ∀ k', k' ≠ k → P k' (f k')) (k' : K) : P k' (Function.update f k v k') := by
  by_cases hk : k' = k
  · subst hk
    rw [Function.update_self]
    exact hv
  · rw [Function.update_of_ne hk]
    exact hothers k' hk

namespace Map

theorem keys_map (f : K → V → W) (l : List (Sigma fun _ : K => V)) :
    (l.map fun kv => (⟨kv.1, f kv.1 kv.2⟩ : Sigma fun _ : K => W)).keys = l.keys := by
  simp only [List.keys, List.map_map]
  rfl

/-- Rewrite every value in place. -/
def mapVals (f : K → V → W) (m : Map K V) : Map K W :=
  ⟨m.entries.map fun kv => ⟨kv.1, f kv.1 kv.2⟩, by
    have h := m.nodupKeys
    unfold List.NodupKeys at h ⊢
    rwa [keys_map]⟩

@[simp] theorem keys_mapVals (f : K → V → W) (m : Map K V) :
    (m.mapVals f).keys = m.keys := keys_map f m.entries

@[simp] theorem mem_mapVals (f : K → V → W) (m : Map K V) (k : K) : k ∈ m.mapVals f ↔ k ∈ m := by
  rw [AList.mem_keys, keys_mapVals, ← AList.mem_keys]

variable [DecidableEq K]

private theorem dlookup_map (f : K → V → W) (k : K) :
    ∀ l : List (Sigma fun _ : K => V),
      (l.map fun kv => (⟨kv.1, f kv.1 kv.2⟩ : Sigma fun _ : K => W)).dlookup k
        = (l.dlookup k).map (f k) := by
  intro l
  induction l with
  | nil => rfl
  | cons kv rest ih =>
      obtain ⟨k', v⟩ := kv
      by_cases hk : k' = k
      · subst hk
        simp [List.dlookup_cons_eq]
      · rw [List.map_cons, List.dlookup_cons_ne _ _ (fun h => hk h.symm),
          List.dlookup_cons_ne _ _ (fun h => hk h.symm), ih]

@[simp] theorem lookup_mapVals (f : K → V → W) (m : Map K V) (k : K) :
    (m.mapVals f).lookup k = (m.lookup k).map (f k) :=
  dlookup_map f k m.entries

/-- Rewrite the value at one key, if there is one. -/
def modify (k : K) (f : V → V) (m : Map K V) : Map K V :=
  m.mapVals fun k' v => if k' = k then f v else v

theorem lookup_modify (k k' : K) (f : V → V) (m : Map K V) :
    (m.modify k f).lookup k' = if k' = k then (m.lookup k').map f else m.lookup k' := by
  unfold modify
  rw [lookup_mapVals]
  by_cases h : k' = k
  · simp [h]
  · simp [h]

@[simp] theorem lookup_modify_self (k : K) (f : V → V) (m : Map K V) :
    (m.modify k f).lookup k = (m.lookup k).map f := by
  rw [lookup_modify, if_pos rfl]

@[simp] theorem mem_modify (k k' : K) (f : V → V) (m : Map K V) : k' ∈ m.modify k f ↔ k' ∈ m :=
  mem_mapVals _ m k'

theorem lookup_insert_of (k k' : K) (v : V) (m : Map K V) :
    (m.insert k v).lookup k' = if k' = k then some v else m.lookup k' := by
  by_cases h : k' = k
  · subst h
    simp
  · rw [if_neg h, AList.lookup_insert_ne h]

theorem lookup_erase_of (k k' : K) (m : Map K V) :
    (m.erase k).lookup k' = if k' = k then none else m.lookup k' := by
  by_cases h : k' = k
  · subst h
    simp
  · rw [if_neg h, AList.lookup_erase_ne h]

/-- Drop the entries that fail a test. -/
def retain (p : K → V → Bool) (m : Map K V) : Map K V :=
  ⟨m.entries.filter fun kv => p kv.1 kv.2, m.nodupKeys.sublist List.filter_sublist⟩

theorem lookup_retain (p : K → V → Bool) (m : Map K V) (k : K) :
    (m.retain p).lookup k = (m.lookup k).filter (p k) := by
  have hentry : ∀ v, (m.retain p).lookup k = some v ↔ m.lookup k = some v ∧ p k v = true := by
    intro v
    rw [← Option.mem_def, ← Option.mem_def, AList.mem_lookup_iff, AList.mem_lookup_iff]
    exact List.mem_filter
  refine Option.ext fun v => ?_
  rw [hentry v, Option.filter_eq_some_iff]

/-- The value at `k`, inserting `v` first when there is none. -/
def entryOrInsert (k : K) (v : V) (m : Map K V) : Map K V :=
  if k ∈ m then m else m.insert k v

theorem lookup_entryOrInsert (k k' : K) (v : V) (m : Map K V) :
    (m.entryOrInsert k v).lookup k'
      = if k' = k then some ((m.lookup k).getD v) else m.lookup k' := by
  unfold entryOrInsert
  by_cases hk : k ∈ m
  · rw [if_pos hk]
    obtain ⟨w, hw⟩ := Option.isSome_iff_exists.mp (AList.lookup_isSome.mpr hk)
    by_cases h : k' = k
    · subst h
      simp [hw]
    · rw [if_neg h]
  · rw [if_neg hk, lookup_insert_of, AList.lookup_eq_none.mpr hk]
    rfl

/-- Filing values under keys, each at the end of the list its key has. -/
def group {α : Type} (key : α → K) (val : α → V) (m : Map K (List V)) (l : List α) :
    Map K (List V) :=
  l.foldl (fun m a => m.insert (key a) ((m.lookup (key a)).getD [] ++ [val a])) m

/-- What a key lists after the filing. -/
theorem lookup_group {α : Type} (key : α → K) (val : α → V) (k : K) :
    ∀ (l : List α) (m : Map K (List V)),
      ((m.group key val l).lookup k).getD []
        = (m.lookup k).getD [] ++ (l.filter fun a => key a = k).map val := by
  intro l
  induction l with
  | nil =>
      intro m
      simp [group]
  | cons a rest ih =>
      intro m
      refine (ih _).trans ?_
      rw [lookup_insert_of]
      by_cases h : k = key a
      · subst h
        simp
      · rw [if_neg h, List.filter_cons_of_neg (by simpa using fun heq => h heq.symm)]

/-- Every entry, in one of the orders the map may be visited in. -/
def visit (ord : IterOrder K) (m : Map K V) : List (K × V) :=
  (ord.arrange m.keys).filterMap fun k => (m.lookup k).map fun v => (k, v)

theorem mem_visit {ord : IterOrder K} {m : Map K V} {k : K} {v : V} :
    (k, v) ∈ m.visit ord ↔ m.lookup k = some v := by
  unfold visit
  rw [List.mem_filterMap]
  constructor
  · rintro ⟨k', -, h⟩
    obtain ⟨w, hw, heq⟩ := Option.map_eq_some_iff.mp h
    obtain ⟨rfl, rfl⟩ := Prod.mk.inj heq
    exact hw
  · intro h
    refine ⟨k, ?_, by simp [h]⟩
    rw [(ord.perm m.keys).mem_iff, ← AList.mem_keys, ← AList.lookup_isSome, h]
    rfl

/-- A visit comes by every key once. -/
theorem map_fst_visit (ord : IterOrder K) (m : Map K V) :
    (m.visit ord).map Prod.fst = ord.arrange m.keys := by
  have key : ∀ l : List K, (∀ k ∈ l, k ∈ m) →
      (l.filterMap fun k => (m.lookup k).map fun v => (k, v)).map Prod.fst = l := by
    intro l
    induction l with
    | nil =>
        intro _
        rfl
    | cons k rest ih =>
        intro h
        obtain ⟨v, hv⟩ := Option.isSome_iff_exists.mp
          (AList.lookup_isSome.mpr (h k List.mem_cons_self))
        rw [List.filterMap_cons_some (by rw [hv]; rfl), List.map_cons,
          ih fun k' hk' => h k' (List.mem_cons_of_mem _ hk')]
  refine key _ ?_
  intro k hk
  rw [(ord.perm m.keys).mem_iff] at hk
  exact AList.mem_keys.mpr hk

theorem nodup_visit (ord : IterOrder K) (m : Map K V) : ((m.visit ord).map Prod.fst).Nodup := by
  rw [map_fst_visit, (ord.perm m.keys).nodup_iff]
  exact AList.keys_nodup m

end Map

end Assoc

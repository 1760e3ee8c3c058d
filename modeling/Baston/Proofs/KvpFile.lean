/-
What a flush writes is what opening the file reads back.

A flat key is split at its first separator, and putting the two parts together again gives
the key, so no two keys of the map land in one place of the document and each comes back
under its own name.
-/
import Baston.Scripting.Kvp

namespace Baston.Scripting

open Assoc

theorem flatKey_of_splitOnce : ∀ {flat resource key : Text},
    splitOnce flat = some (resource, key) → flat = flatKey resource key := by
  intro flat
  induction flat with
  | nil =>
      intro resource key h
      exact absurd h (by simp [splitOnce])
  | cons c rest ih =>
      intro resource key h
      unfold splitOnce at h
      split at h
      · next hc =>
          obtain ⟨rfl, rfl⟩ := Prod.mk.inj (Option.some.inj h)
          rw [hc]
          rfl
      · obtain ⟨⟨r, k⟩, hrest, heq⟩ := Option.map_eq_some_iff.mp h
        obtain ⟨rfl, rfl⟩ := Prod.mk.inj heq
        rw [ih hrest]
        rfl

theorem splitOnce_flatKey (resource key : Text) :
    (splitOnce (flatKey resource key)).isSome = true := by
  unfold flatKey
  induction resource with
  | nil => rfl
  | cons c rest ih =>
      rw [List.cons_append, splitOnce]
      split
      · rfl
      · rw [Option.isSome_map]
        exact ih

/-- The value of a document at a resource and a key. -/
def cell (file : KvpFile) (resource key : Text) : Option Text :=
  (file.lookup resource).bind fun values => values.lookup key

theorem cell_fileUnder (file : KvpFile) (entry : Text × Text) (resource key : Text) :
    cell (fileUnder file entry) resource key
      = if splitOnce entry.1 = some (resource, key) then some entry.2
        else cell file resource key := by
  unfold fileUnder resourceOf keyOf cell
  cases hsplit : splitOnce entry.1 with
  | none => simp
  | some parts =>
      obtain ⟨r, k⟩ := parts
      simp only [Option.map_some, Map.lookup_insert_of, Option.some_inj, Prod.mk.injEq]
      by_cases hr : resource = r
      · subst hr
        rw [if_pos rfl, Option.bind_some, Map.lookup_insert_of]
        by_cases hk : key = k
        · rw [if_pos hk, if_pos ⟨rfl, hk.symm⟩]
        · rw [if_neg hk, if_neg fun h => hk h.2.symm]
          cases file.lookup resource with
          | none => rfl
          | some values => rfl
      · rw [if_neg hr, if_neg fun h => hr h.1.symm]

theorem cell_foldl {resource key value : Text} : ∀ {snapshot : List (Text × Text)}
    {file : KvpFile}, (snapshot.map Prod.fst).Nodup →
      (cell (snapshot.foldl fileUnder file) resource key = some value
        ↔ (∃ flat, (flat, value) ∈ snapshot ∧ splitOnce flat = some (resource, key))
          ∨ (cell file resource key = some value
            ∧ ∀ entry ∈ snapshot, splitOnce entry.1 ≠ some (resource, key))) := by
  intro snapshot
  induction snapshot with
  | nil =>
      intro file _
      simp
  | cons entry rest ih =>
      intro file hnodup
      rw [List.map_cons, List.nodup_cons] at hnodup
      rw [List.foldl_cons, ih hnodup.2, cell_fileUnder]
      by_cases hsplit : splitOnce entry.1 = some (resource, key)
      · -- no other entry of the snapshot goes to the same place
        have hrest : ∀ e ∈ rest, splitOnce e.1 ≠ some (resource, key) := by
          intro e he heq
          refine hnodup.1 (List.mem_map.mpr ⟨e, he, ?_⟩)
          rw [flatKey_of_splitOnce heq, flatKey_of_splitOnce hsplit]
        rw [if_pos hsplit, Option.some_inj]
        constructor
        · rintro (⟨flat, hmem, hflat⟩ | ⟨rfl, -⟩)
          · exact absurd hflat (hrest _ hmem)
          · exact .inl ⟨entry.1, List.mem_cons_self, hsplit⟩
        · rintro (⟨flat, hmem, hflat⟩ | ⟨-, hnone⟩)
          · rcases List.mem_cons.mp hmem with heq | hmem
            · rw [← heq]
              exact .inr ⟨rfl, hrest⟩
            · exact absurd hflat (hrest _ hmem)
          · exact absurd hsplit (hnone entry List.mem_cons_self)
      · rw [if_neg hsplit]
        constructor
        · rintro (⟨flat, hmem, hflat⟩ | ⟨hcell, hnone⟩)
          · exact .inl ⟨flat, List.mem_cons_of_mem _ hmem, hflat⟩
          · exact .inr ⟨hcell, List.forall_mem_cons.mpr ⟨hsplit, hnone⟩⟩
        · rintro (⟨flat, hmem, hflat⟩ | ⟨hcell, hnone⟩)
          · rcases List.mem_cons.mp hmem with heq | hmem
            · rw [← heq] at hsplit
              exact absurd hflat hsplit
            · exact .inl ⟨flat, hmem, hflat⟩
          · exact .inr ⟨hcell, (List.forall_mem_cons.mp hnone).2⟩

/-- A map's document has a value exactly where a key of the map leads. -/
theorem cell_byResource (m : Map Text Text) (ord : IterOrder Text) (resource key value : Text) :
    cell (byResource (m.visit ord)) resource key = some value
      ↔ ∃ flat, m.lookup flat = some value ∧ splitOnce flat = some (resource, key) := by
  unfold byResource
  rw [cell_foldl (Map.nodup_visit ord m)]
  simp only [Map.mem_visit]
  constructor
  · rintro (h | ⟨hnone, -⟩)
    · exact h
    · exact absurd hnone (by simp [cell])
  · exact .inl

theorem mem_fileEntries {file : KvpFile} {w : WriteLog.Write Text Text} :
    w ∈ fileEntries file
      ↔ ∃ resource key value, cell file resource key = some value
        ∧ w = ⟨flatKey resource key, some value⟩ := by
  unfold fileEntries cell
  rw [List.mem_flatMap]
  constructor
  · rintro ⟨⟨resource, values⟩, hresource, hw⟩
    obtain ⟨⟨key, value⟩, hvalue, rfl⟩ := List.mem_map.mp hw
    refine ⟨resource, key, value, ?_, rfl⟩
    rw [Map.mem_visit.mp hresource]
    exact Map.mem_visit.mp hvalue
  · rintro ⟨resource, key, value, hcell, rfl⟩
    obtain ⟨values, hvalues, hvalue⟩ := Option.bind_eq_some_iff.mp hcell
    exact ⟨(resource, values), Map.mem_visit.mpr hvalues,
      List.mem_map.mpr ⟨(key, value), Map.mem_visit.mpr hvalue, rfl⟩⟩

/-- **What was written is what is read back.** -/
theorem lookup_load_byResource {m : Map Text Text}
    (hkeys : ∀ flat value, m.lookup flat = some value → (splitOnce flat).isSome = true)
    (ord : IterOrder Text) (flat : Text) :
    (load (some (byResource (m.visit ord)))).lookup flat = m.lookup flat := by
  have hentry : ∀ w ∈ fileEntries (byResource (m.visit ord)), w.key = flat →
      w.image = m.lookup flat := by
    intro w hw hkey
    obtain ⟨resource, key, value, hcell, rfl⟩ := mem_fileEntries.mp hw
    obtain ⟨flat', hlookup, hsplit⟩ := (cell_byResource m ord _ _ _).mp hcell
    rw [← hkey]
    show some value = m.lookup (flatKey resource key)
    rw [← flatKey_of_splitOnce hsplit, hlookup]
  unfold load
  rw [WriteLog.lookup_replay, AList.lookup_empty]
  cases hvalue : m.lookup flat with
  | none =>
      rw [WriteLog.last_eq_none]
      · rfl
      · intro w hw hkey
        obtain ⟨resource, key, value, -, rfl⟩ := mem_fileEntries.mp hw
        have himage := hentry _ hw hkey
        rw [hvalue] at himage
        exact absurd himage (by simp)
  | some value =>
      obtain ⟨⟨resource, key⟩, hsplit⟩ := Option.isSome_iff_exists.mp (hkeys flat value hvalue)
      have hcell := (cell_byResource m ord resource key value).mpr ⟨flat, hvalue, hsplit⟩
      rw [WriteLog.last_eq_of_agree (x := some value)]
      · rfl
      · exact ⟨_, mem_fileEntries.mpr ⟨resource, key, value, hcell, rfl⟩,
          (flatKey_of_splitOnce hsplit).symm⟩
      · intro w hw hkey
        rw [hentry w hw hkey, hvalue]

end Baston.Scripting

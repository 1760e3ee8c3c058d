/-
When a push deletes what is still there.

Deletes are inferred from one list of what the loop saw.  An entity the client owns is
passed over before it gets onto that list, so to the visit that follows it looks the
same as one that despawned or went out of range.
-/
import Baston.Proofs.ClientReplica

namespace Baston.Gateway

open Assoc Baston.Rage Baston.Zone

variable {F : Type}

/-! ### Which ids are deleted -/

section Loop

variable [Scalar F] [BEq F] {now : Nat} {viewerSource : UInt32} {center : Vec3 F} {radius : F}

/-- What the loop has seen, what it remembers, and that it deletes nothing. -/
structure Looked (viewerSource : UInt32) (center : Vec3 F) (radius : F)
    (seen : List (EntityState F)) (start acc : ClientOps F) : Prop where
  visible : ∀ k, k ∈ acc.visible ↔ k ∈ start.visible
    ∨ ∃ s ∈ seen, s.entityId = k ∧ sees viewerSource center radius s = true
  known : ∀ k, k ∉ acc.visible → acc.lastSent.lookup k = start.lastSent.lookup k
  ops : ∀ k, .delete k ∈ acc.ops ↔ .delete k ∈ start.ops

theorem delete_ne_react {known : Option (Nat × EntityState F)} {state : EntityState F}
    {k : EntityId} : .delete k ∉ (react now center known state).toList := by
  intro h
  unfold react at h
  cases known with
  | none => exact absurd (Option.mem_toList.mp h) (by simp)
  | some last =>
      simp only at h
      split at h
      · obtain ⟨d, -, hd⟩ := Option.map_eq_some_iff.mp (Option.mem_toList.mp h)
        exact absurd hd (by simp)
      · exact absurd h (by simp)

/-- One turn. -/
theorem Looked.step {seen : List (EntityState F)} {start acc : ClientOps F}
    (h : Looked viewerSource center radius seen start acc) (s : EntityState F) :
    Looked viewerSource center radius (seen ++ [s]) start
      (considerEntity now viewerSource center radius acc s) := by
  rw [considerEntity_eq]
  by_cases hsees : sees viewerSource center radius s = true
  · rw [if_pos hsees]
    refine ⟨?_, ?_, ?_⟩
    · intro k
      simp only [List.mem_cons, h.visible k, List.mem_append, List.not_mem_nil, or_false]
      constructor
      · rintro (rfl | hold | ⟨t, ht, hid, hsaw⟩)
        · exact .inr ⟨s, .inr rfl, rfl, hsees⟩
        · exact .inl hold
        · exact .inr ⟨t, .inl ht, hid, hsaw⟩
      · rintro (hold | ⟨t, ht | rfl, hid, hsaw⟩)
        · exact .inr (.inl hold)
        · exact .inr (.inr ⟨t, ht, hid, hsaw⟩)
        · exact .inl hid.symm
    · intro k hk
      rw [List.mem_cons, not_or] at hk
      cases react now center (acc.lastSent.lookup s.entityId) s with
      | none => exact h.known k hk.2
      | some op => exact (AList.lookup_insert_ne hk.1).trans (h.known k hk.2)
    · intro k
      rw [List.mem_append]
      exact ⟨fun hk => (h.ops k).mp (hk.resolve_right delete_ne_react),
        fun hk => .inl ((h.ops k).mpr hk)⟩
  · rw [if_neg hsees]
    refine ⟨?_, h.known, h.ops⟩
    intro k
    rw [h.visible k]
    refine or_congr_right ⟨?_, ?_⟩
    · rintro ⟨t, ht, hsaw⟩
      exact ⟨t, List.mem_append_left _ ht, hsaw⟩
    · rintro ⟨t, ht, hid, hsaw⟩
      rcases List.mem_append.mp ht with ht | ht
      · exact ⟨t, ht, hid, hsaw⟩
      · rw [List.mem_singleton.mp ht] at hsaw
        exact absurd hsaw hsees

theorem looked_foldl : ∀ {rest seen : List (EntityState F)} {start acc : ClientOps F},
    Looked viewerSource center radius seen start acc →
      Looked viewerSource center radius (seen ++ rest) start
        (rest.foldl (considerEntity now viewerSource center radius) acc) := by
  intro rest
  induction rest with
  | nil =>
      intro seen start acc h
      rw [List.append_nil]
      exact h
  | cons s rest ih =>
      intro seen start acc h
      have hstep : Looked viewerSource center radius (seen ++ [s]) start
          (considerEntity now viewerSource center radius acc s) := h.step s
      have hnext := ih hstep
      rw [List.append_assoc] at hnext
      exact hnext

end Loop

/-- The visit deletes what it comes by and is not visible. -/
theorem delete_mem_retain {visible : List EntityId} {k : EntityId} :
    ∀ {ids : List EntityId} {acc : ClientOps F},
      (.delete k ∈ (ids.foldl (retainEntity visible) acc).ops
        ↔ .delete k ∈ acc.ops ∨ (k ∈ ids ∧ k ∉ visible)) := by
  intro ids
  induction ids with
  | nil =>
      intro acc
      simp
  | cons id rest ih =>
      intro acc
      rw [List.foldl_cons, ih, List.mem_cons]
      unfold retainEntity
      by_cases hid : id ∈ visible
      · rw [if_pos hid]
        refine or_congr_right (and_congr_left fun hk => ?_)
        exact ⟨.inr, fun h => h.resolve_left fun heq => hk (heq ▸ hid)⟩
      · rw [if_neg hid, List.mem_append, List.mem_singleton, EntityOp.delete.injEq]
        constructor
        · rintro ((hold | rfl) | ⟨hk, hgone⟩)
          · exact .inl hold
          · exact .inr ⟨.inl rfl, hid⟩
          · exact .inr ⟨.inr hk, hgone⟩
        · rintro (hold | ⟨rfl | hk, hgone⟩)
          · exact .inl (.inl hold)
          · exact .inl (.inr rfl)
          · exact .inr ⟨hk, hgone⟩

/-- What a push deletes: what the client knew and the loop did not see. -/
theorem delete_mem_iff [Scalar F] [BEq F] {ord : IterOrder EntityId} {now : Nat}
    {candidates : List (EntityState F)} {tracker : ClientEntityTracker F} {viewerSource : UInt32}
    {center : Vec3 F} {radius : F} {k : EntityId} :
    .delete k ∈ (computeClientOpsFrom ord now candidates tracker viewerSource center radius).2
      ↔ k ∈ tracker.lastSent ∧
        ∀ s ∈ candidates, s.entityId = k → sees viewerSource center radius s = false := by
  have hlooked : Looked viewerSource center radius candidates
      { lastSent := tracker.lastSent } (candidates.foldl
        (considerEntity now viewerSource center radius) { lastSent := tracker.lastSent }) := by
    have hnothing : Looked viewerSource center radius [] { lastSent := tracker.lastSent }
        { lastSent := tracker.lastSent } := by
      refine ⟨?_, fun _ _ => rfl, fun _ => Iff.rfl⟩
      intro k
      simp
    exact looked_foldl hnothing
  simp only [computeClientOpsFrom]
  generalize candidates.foldl (considerEntity now viewerSource center radius)
    { lastSent := tracker.lastSent } = acc at *
  have hno : EntityOp.delete k ∉ acc.ops := fun h => absurd ((hlooked.ops k).mp h) (by simp)
  have hvisible : k ∉ acc.visible
      ↔ ∀ s ∈ candidates, s.entityId = k → sees viewerSource center radius s = false := by
    rw [hlooked.visible k]
    simp
  have hids : k ∉ acc.visible →
      (k ∈ (acc.lastSent.visit ord).map Prod.fst ↔ k ∈ tracker.lastSent) := by
    intro hk
    rw [Map.map_fst_visit, (ord.perm _).mem_iff, ← AList.mem_keys, ← AList.lookup_isSome,
      hlooked.known k hk, AList.lookup_isSome]
  rw [delete_mem_retain, or_iff_right hno, ← hvisible]
  exact and_congr_left hids

/-! ### When that is justified -/

section Justified

variable [Scalar F] [BEq F]

/-- The world has a state of the entity that is within the radius. -/
def InRange (p : Look F) (world : WorldState F) (k : EntityId) (s : EntityState F) : Prop :=
  (∃ id, world.lookup id = some s) ∧ s.entityId = k
    ∧ Scalar.lt p.radius (distance3d p.center s.coords) = false

/-- **Deletes are justified exactly where the client owns nothing it was sent.**  For every world,
viewpoint and tracker, and any candidates that include all that is within the radius: no entity is
deleted that has a state in range, exactly if each entity the client was sent and that has a state
in range has one there that is not the client's own. -/
theorem deletes_justified_iff (p : Look F) (viewerSource : UInt32) (world : WorldState F)
    (tracker : ClientEntityTracker F) :
    (∀ k, .delete k ∈ (p.ops viewerSource world tracker).2 → ¬ ∃ s, InRange p world k s)
      ↔ ∀ k ∈ tracker.lastSent, (∃ s, InRange p world k s) →
        ∃ s, InRange p world k s ∧ s.networkOwner ≠ some viewerSource := by
  have hcandidates : ∀ s, s ∈ p.candidates world
      ↔ (∃ id, world.lookup id = some s) ∧ p.near s = true := by
    intro s
    unfold Look.candidates
    rw [List.mem_filter, List.mem_map]
    refine and_congr_left' ⟨?_, ?_⟩
    · rintro ⟨⟨id, s⟩, hmem, rfl⟩
      exact ⟨id, Map.mem_visit.mp hmem⟩
    · rintro ⟨id, hid⟩
      exact ⟨(id, s), Map.mem_visit.mpr hid, rfl⟩
  have hsees : ∀ s, sees viewerSource p.center p.radius s = true
      ↔ s.networkOwner ≠ some viewerSource
        ∧ Scalar.lt p.radius (distance3d p.center s.coords) = false := by
    intro s
    unfold sees
    simp
  unfold Look.ops
  simp only [delete_mem_iff]
  constructor
  · intro h k hknown hrange
    by_contra hnone
    refine h k ⟨hknown, ?_⟩ hrange
    intro s hs hid
    by_contra hsaw
    obtain ⟨hother, hin⟩ := (hsees s).mp (by simpa using hsaw)
    exact hnone ⟨s, ⟨((hcandidates s).mp hs).1, hid, hin⟩, hother⟩
  · rintro h k ⟨hknown, hunseen⟩ hrange
    obtain ⟨s, ⟨hworld, hid, hin⟩, hother⟩ := h k hknown hrange
    have hnot := hunseen s ((hcandidates s).mpr ⟨hworld, p.covers s hin⟩) hid
    rw [(hsees s).mpr ⟨hother, hin⟩] at hnot
    exact absurd hnot (by decide)

end Justified

/-- The crate as client 1 was sent it, when player 2 had it. -/
def sentForeign : ClientEntityTracker Float32 :=
  ⟨AList.insert 1 (0, { Session.crate 7 0.0 with networkOwner := some 2 }) ∅⟩

/-- **Becoming the owner deletes the entity.**  Client 1 was sent a crate of player 2, right where
it stands, and is given it: the next push deletes the crate from client 1. -/
theorem owned_entity_deleted :
    ¬ ∀ (p : Look Float32) (viewerSource : UInt32) (world : WorldState Float32)
      (tracker : ClientEntityTracker Float32) (k : EntityId),
      .delete k ∈ (p.ops viewerSource world tracker).2 → ¬ ∃ s, InRange p world k s := by
  intro h
  refine h (Session.lookAround 0) 1 Session.crateWorld sentForeign 1 ?_
    ⟨Session.crate 7 0.0, ⟨1, rfl⟩, rfl, ?_⟩
  · unfold Look.ops
    rw [delete_mem_iff]
    refine ⟨by decide, ?_⟩
    intro s hs _
    obtain rfl : s = Session.crate 7 0.0 := by
      have hmem : s ∈ [Session.crate 7 0.0] := hs
      exact List.mem_singleton.mp hmem
    rfl
  · decide +kernel

end Baston.Gateway

/-
What the calls of a zone do to one entity.

A call is seen here from a single entity id: which state the id has afterwards, and for the
players, which ped a source has.  The invariants of the zone are then proved from these
equations alone.
-/
import Baston.Proofs.Handoff

namespace Baston.Zone

open Assoc Baston.Rage

variable {F : Type}

/-! ### The store -/

/-- An update leaves alone what it has no field for. -/
structure SameIdentity (old new : EntityState F) : Prop where
  entityId : new.entityId = old.entityId
  entityType : new.entityType = old.entityType
  networkOwner : new.networkOwner = old.networkOwner
  modelHash : new.modelHash = old.modelHash

theorem SameIdentity.field {α : Type} [BEq α] {state : EntityState F}
    {acc : EntityState F × DirtyFlags} (h : SameIdentity state acc.1) (new : Option α)
    (field : EntityState F → α) {store : α → EntityState F → EntityState F} {flag : DirtyFlags}
    (hstore : ∀ v s, SameIdentity s (store v s)) :
    SameIdentity state (EntityState.diffField new field store flag acc).1 := by
  cases new with
  | none => exact h
  | some v =>
      unfold EntityState.diffField
      by_cases hne : field acc.1 != v
      · have hv := hstore v acc.1
        simp only [hne, if_true]
        exact ⟨hv.entityId.trans h.entityId, hv.entityType.trans h.entityType,
          hv.networkOwner.trans h.networkOwner, hv.modelHash.trans h.modelHash⟩
      · simp only [hne]
        exact h

theorem applyUpdate_sameIdentity [BEq F] (update : EntityStateUpdate F) (state : EntityState F) :
    SameIdentity state (state.applyUpdate update).1 := by
  unfold EntityState.applyUpdate
  iterate 6 refine SameIdentity.field ?_ _ _ (fun _ _ => ⟨rfl, rfl, rfl, rfl⟩)
  exact ⟨rfl, rfl, rfl, rfl⟩

namespace EntityManager

variable {m : EntityManager F}

@[simp] theorem get_spawnEntity (state : EntityState F) (k : EntityId) :
    (m.spawnEntity state).get k = if k = state.entityId then some state else m.get k :=
  Map.lookup_insert_of _ _ _ _

@[simp] theorem get_removeEntity (id k : EntityId) :
    (m.removeEntity id).1.get k = if k = id then none else m.get k := by
  unfold removeEntity
  cases hlive : m.entities.lookup id with
  | none =>
      by_cases hk : k = id
      · rw [if_pos hk, hk]
        exact hlive
      · rw [if_neg hk]
  | some state => exact Map.lookup_erase_of _ _ _

@[simp] theorem get_updateEntity [BEq F] (id : EntityId) (update : EntityStateUpdate F)
    (k : EntityId) :
    (m.updateEntity id update).1.get k
      = if k = id then (m.get k).map fun state => (state.applyUpdate update).1 else m.get k := by
  unfold updateEntity
  cases hlive : m.entities.lookup id with
  | none =>
      by_cases hk : k = id
      · subst hk
        rw [if_pos rfl, get, hlive]
        rfl
      · rw [if_neg hk]
  | some state =>
      have hinsert : (m.entities.insert id (state.applyUpdate update).1).lookup k
          = if k = id then (m.get k).map fun state => (state.applyUpdate update).1
            else m.get k := by
        rw [Map.lookup_insert_of]
        by_cases hk : k = id
        · subst hk
          rw [if_pos rfl, if_pos rfl, get, hlive]
          rfl
        · rw [if_neg hk, if_neg hk]
          rfl
      by_cases hzero : (state.applyUpdate update).2 = 0
      · simp only [hzero]
        exact hinsert
      · simp only [if_neg hzero]
        exact hinsert

@[simp] theorem get_setNetworkOwner (id : EntityId) (owner : Option UInt32) (k : EntityId) :
    (m.setNetworkOwner id owner).1.get k
      = if k = id then (m.get k).map fun state => { state with networkOwner := owner }
        else m.get k := by
  unfold setNetworkOwner
  cases hlive : m.entities.lookup id with
  | none =>
      by_cases hk : k = id
      · subst hk
        rw [if_pos rfl, get, hlive]
        rfl
      · rw [if_neg hk]
  | some state =>
      by_cases hsame : state.networkOwner = owner
      · subst hsame
        simp only [if_true]
        by_cases hk : k = id
        · subst hk
          rw [if_pos rfl, get, hlive]
          rfl
        · rw [if_neg hk]
      · simp only [if_neg hsame]
        show (m.entities.insert id _).lookup k = _
        rw [Map.lookup_insert_of]
        by_cases hk : k = id
        · subst hk
          rw [if_pos rfl, if_pos rfl, get, hlive]
          rfl
        · rw [if_neg hk, if_neg hk]
          rfl

/-- What the last of `restored` under the id says. -/
def carried (restored : List (EntityState F)) (k : EntityId) : Option (EntityState F) :=
  restored.reverse.find? fun state => state.entityId = k

theorem get_spawnAll : ∀ (restored : List (EntityState F)) (m : EntityManager F) (k : EntityId),
    (m.spawnAll restored).get k = (carried restored k).or (m.get k) := by
  intro restored
  induction restored with
  | nil =>
      intro m k
      rfl
  | cons state rest ih =>
      intro m k
      have hrest := ih (m.spawnEntity state) k
      rw [get_spawnEntity] at hrest
      unfold carried at hrest ⊢
      rw [List.reverse_cons, List.find?_append, Option.or_assoc]
      refine hrest.trans ?_
      congr 1
      by_cases hk : k = state.entityId
      · rw [if_pos hk, List.find?_cons_of_pos (by simp [hk])]
        rfl
      · rw [if_neg hk, List.find?_cons_of_neg (by simpa using fun h => hk h.symm)]
        rfl

theorem get_removeAll : ∀ (owned : List (EntityState F)) (m : EntityManager F) (k : EntityId),
    (m.removeAll owned).get k
      = if ∃ state ∈ owned, state.entityId = k then none else m.get k := by
  intro owned
  induction owned with
  | nil =>
      intro m k
      simp [removeAll]
  | cons state rest ih =>
      intro m k
      have hrest := ih (m.removeEntity state.entityId).1 k
      rw [get_removeEntity] at hrest
      refine hrest.trans ?_
      by_cases hk : k = state.entityId
      · have hmem : ∃ s ∈ state :: rest, s.entityId = k := ⟨state, List.mem_cons_self, hk.symm⟩
        rw [if_pos hk, ite_self, if_pos hmem]
      · rw [if_neg hk]
        have hiff : (∃ s ∈ state :: rest, s.entityId = k) ↔ ∃ s ∈ rest, s.entityId = k := by
          constructor
          · rintro ⟨s, hs, hid⟩
            rcases List.mem_cons.mp hs with rfl | hs
            · exact absurd hid.symm hk
            · exact ⟨s, hs, hid⟩
          · rintro ⟨s, hs, hid⟩
            exact ⟨s, List.mem_cons_of_mem _ hs, hid⟩
        simp only [hiff]

end EntityManager

/-! ### A report -/

/-- The vehicle a report says its player sits in. -/
def mounted : Option (EntityExtra F) → Option EntityId
  | some (.player true vehicle) => vehicle
  | _ => none

namespace StateIngest

variable {s : StateIngest F}

theorem get_mount (source : UInt32) (extra : Option (EntityExtra F)) (m : EntityManager F)
    (k : EntityId) :
    (mount source extra m).get k
      = if mounted extra = some k then
          (m.get k).map fun state => { state with networkOwner := some source }
        else m.get k := by
  unfold mount mounted
  split
  · next vehicle =>
      by_cases hother : (m.get vehicle).any fun v => v.networkOwner ≠ some source
      · rw [if_pos hother, EntityManager.get_setNetworkOwner]
        simp only [Option.some.injEq, eq_comm]
      · rw [if_neg hother]
        by_cases hk : k = vehicle
        · subst hk
          simp only [if_true]
          cases hlive : m.get k with
          | none => rfl
          | some state =>
              have howner : state.networkOwner = some source := by
                simpa [hlive] using hother
              rw [Option.map_some, ← howner]
        · have hne : ¬ vehicle = k := fun h => hk h.symm
          simp only [Option.some.injEq, hne, if_false]
  · next hnot =>
      split
      · next vehicle =>
          cases vehicle with
          | none => rw [if_neg nofun]
          | some vehicle => exact absurd rfl (hnot vehicle)
      · rw [if_neg nofun]

/-- The entity a report is written to, when it is neither refused nor the first about it. -/
def target (source : UInt32) (update : ClientStateUpdate F) (s : StateIngest F) :
    Option EntityId :=
  match update.entityId with
  | none => s.playerEntity source
  | some id =>
    if (s.entityManager.get id).any fun state => state.networkOwner = some source then some id
    else none

/-- What becomes of a report. -/
inductive Applied [Scalar F] [BEq F] (now : Nat) (fresh : EntityId) (source : UInt32)
    (update : ClientStateUpdate F) (s : StateIngest F) :
    StateIngest F × Except RejectReason EntityId → Prop
  | written {id : EntityId} : target source update s = some id →
      Applied now fresh source update s (s.write now source id update)
  | firstPed : update.entityId = none → s.playerEntity source = none →
      Applied now fresh source update s
        ((s.spawnPlayerEntity now fresh source update).1, .ok fresh)
  | registered {id : EntityId} : update.entityId = some id → s.entityManager.get id = none →
      update.entityType ≠ .player →
      Applied now fresh source update s ((s.spawnOwnedEntity now source id update).1, .ok id)
  | refused {id : EntityId} {reason : RejectReason} : update.entityId = some id →
      (s.entityManager.get id).isSome ∨ update.entityType = .player →
      target source update s = none →
      Applied now fresh source update s (s, .error reason)

theorem apply_spec [Scalar F] [BEq F] (now : Nat) (fresh : EntityId) (source : UInt32)
    (update : ClientStateUpdate F) (s : StateIngest F) :
    Applied now fresh source update s (s.apply now fresh source update) := by
  unfold apply
  cases hid : update.entityId with
  | none =>
      cases hped : s.playerEntities.lookup source with
      | none => exact .firstPed hid hped
      | some ped =>
          refine .written ?_
          unfold target playerEntity
          rw [hid]
          exact hped
  | some id =>
      simp only []
      cases hlive : s.entityManager.get id with
      | none =>
          by_cases hplayer : update.entityType ≠ .player
          · simp only [if_pos hplayer]
            exact .registered hid hlive hplayer
          · simp only [if_neg hplayer]
            refine .refused hid (.inr (not_not.mp hplayer)) ?_
            unfold target
            rw [hid]
            simp [hlive]
      | some state =>
          by_cases howner : state.networkOwner ≠ some source
          · simp only [if_pos howner]
            refine .refused hid (.inl (by rw [hlive]; rfl)) ?_
            unfold target
            rw [hid]
            simpa [hlive] using howner
          · simp only [if_neg howner]
            refine .written ?_
            unfold target
            rw [hid]
            simpa [hlive] using howner

/-- The part of an accepted report that is written to its entity. -/
def ClientStateUpdate.fields (update : ClientStateUpdate F) : EntityStateUpdate F where
  coords := some update.coords
  heading := some update.heading
  velocity := some update.velocity
  health := some update.health
  armour := some update.armour
  extra := update.extra

section Write

variable [Scalar F] [BEq F] {now : Nat} {source : UInt32} {id : EntityId}
  {update : ClientStateUpdate F}

theorem write_teleports (h : s.teleports now id update.coords = true) :
    s.write now source id update = (s, .error .teleport) := by
  unfold write
  rw [if_pos h]

theorem write_playerEntities :
    (s.write now source id update).1.playerEntities = s.playerEntities := by
  unfold write
  split
  · rfl
  · rfl

/-- What an accepted report leaves under an id. -/
theorem get_write (h : s.teleports now id update.coords = false) (k : EntityId) :
    (s.write now source id update).1.entityManager.get k
      = if k = id then ((mount source update.extra s.entityManager).get k).map fun state =>
            (state.applyUpdate (ClientStateUpdate.fields update)).1
        else (mount source update.extra s.entityManager).get k := by
  unfold write
  rw [h, if_neg Bool.false_ne_true]
  exact EntityManager.get_updateEntity id (ClientStateUpdate.fields update) k

/-- A report that is written to an entity neither adds one nor takes one away. -/
theorem get_write_isSome (k : EntityId) :
    ((s.write now source id update).1.entityManager.get k).isSome
      = (s.entityManager.get k).isSome := by
  cases hnear : s.teleports now id update.coords with
  | true => rw [write_teleports hnear]
  | false =>
      rw [get_write hnear, get_mount]
      split
      · split
        · rw [Option.isSome_map, Option.isSome_map]
        · rw [Option.isSome_map]
      · split
        · rw [Option.isSome_map]
        · rfl

end Write

/-- The report registers a new entity under the id. -/
def registers (k fresh : EntityId) (source : UInt32) (update : ClientStateUpdate F)
    (s : StateIngest F) : Prop :=
  s.entityManager.get k = none
    ∧ (update.entityId = some k ∧ update.entityType ≠ .player
      ∨ update.entityId = none ∧ s.playerEntity source = none ∧ fresh = k)

/-- After a report there is under an id what was there before, or what was registered. -/
theorem get_apply_isSome [Scalar F] [BEq F] (now : Nat) (fresh : EntityId) (source : UInt32)
    (update : ClientStateUpdate F) (k : EntityId) :
    ((s.apply now fresh source update).1.entityManager.get k).isSome
      ↔ (s.entityManager.get k).isSome ∨ registers k fresh source update s := by
  have hspec := apply_spec now fresh source update s
  generalize s.apply now fresh source update = r at hspec
  unfold registers
  cases hspec with
  | @written id htarget =>
      rw [get_write_isSome]
      refine ⟨.inl, ?_⟩
      rintro (hlive | ⟨hfree, ⟨hid, -⟩ | ⟨hid, hped, -⟩⟩)
      · exact hlive
      · unfold target at htarget
        simp [hid, hfree] at htarget
      · unfold target at htarget
        simp [hid, hped] at htarget
  | firstPed hid hped =>
      have hget : (s.spawnPlayerEntity now fresh source update).1.entityManager.get k = _ :=
        EntityManager.get_spawnEntity _ k
      rw [hget]
      by_cases hk : k = fresh
      · subst hk
        rw [if_pos rfl]
        refine iff_of_true rfl ?_
        cases hlive : s.entityManager.get k with
        | some state => exact .inl rfl
        | none => exact .inr ⟨rfl, .inr ⟨hid, hped, rfl⟩⟩
      · rw [if_neg hk]
        refine ⟨.inl, ?_⟩
        rintro (hlive | ⟨-, ⟨hid', -⟩ | ⟨-, -, hfresh⟩⟩)
        · exact hlive
        · rw [hid] at hid'
          cases hid'
        · exact absurd hfresh.symm hk
  | @registered id hid hfree htype =>
      have hget : (s.spawnOwnedEntity now source id update).1.entityManager.get k = _ :=
        EntityManager.get_spawnEntity _ k
      rw [hget]
      by_cases hk : k = id
      · subst hk
        rw [if_pos rfl]
        exact iff_of_true rfl (.inr ⟨hfree, .inl ⟨hid, htype⟩⟩)
      · rw [if_neg hk]
        refine ⟨.inl, ?_⟩
        rintro (hlive | ⟨-, ⟨hid', -⟩ | ⟨hid', -⟩⟩)
        · exact hlive
        · rw [hid] at hid'
          exact absurd (Option.some.inj hid').symm hk
        · rw [hid] at hid'
          cases hid'
  | @refused id reason hid hwhy htarget =>
      refine ⟨.inl, ?_⟩
      rintro (hlive | ⟨hfree, ⟨hid', htype⟩ | ⟨hid', -⟩⟩)
      · exact hlive
      · obtain rfl := Option.some.inj (hid.symm.trans hid')
        rcases hwhy with hlive | hplayer
        · exact hlive
        · exact absurd hplayer htype
      · rw [hid] at hid'
        cases hid'

/-! ### Restoring and dropping a player -/

theorem get_restorePlayerState (now : Nat) (snapshot : PlayerStateSnapshot F) (k : EntityId) :
    (s.restorePlayerState now snapshot).1.entityManager.get k
      = (EntityManager.carried snapshot.entities k).or (s.entityManager.get k) := by
  rw [restorePlayerState_manager, EntityManager.get_spawnAll]

theorem restorePlayerState_playerEntity (now : Nat) (snapshot : PlayerStateSnapshot F)
    (other : UInt32) :
    (s.restorePlayerState now snapshot).1.playerEntity other
      = if other = snapshot.sourceId then
          (snapshot.playerEntity.map fun ped => ped.entityId).or (s.playerEntity other)
        else s.playerEntity other := by
  unfold restorePlayerState playerEntity
  cases snapshot.playerEntity with
  | none => simp
  | some ped =>
      refine (Map.lookup_insert_of _ _ _ _).trans ?_
      rfl

theorem get_onPlayerDropped (source : UInt32) (k : EntityId) :
    (s.onPlayerDropped source).entityManager.get k
      = if s.playerEntity source = some k then none else s.entityManager.get k := by
  unfold onPlayerDropped playerEntity
  cases hped : s.playerEntities.lookup source with
  | none => rw [if_neg nofun]
  | some ped =>
      refine (EntityManager.get_removeEntity ped k).trans ?_
      simp only [Option.some.injEq, eq_comm]

theorem onPlayerDropped_playerEntity (source other : UInt32) :
    (s.onPlayerDropped source).playerEntity other
      = if other = source then none else s.playerEntity other := by
  unfold onPlayerDropped playerEntity
  cases hped : s.playerEntities.lookup source with
  | none =>
      by_cases hother : other = source
      · rw [if_pos hother, hother]
        exact hped
      · rw [if_neg hother]
  | some ped => exact Map.lookup_erase_of _ _ _

end StateIngest

end Baston.Zone

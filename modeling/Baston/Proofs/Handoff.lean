/-
A player's entities handed from one zone to another, seen from the gateway.

Both zones write the same entity ids, and the gateway keeps whatever it was told last.  The
origin's last word about an entity it released is that the entity is gone; the target's is
its live state.  So the handoff shows in the world exactly when the origin has the last word.
-/
import Baston.Proofs.EntityLog
import Baston.Zone.StateIngest

namespace Baston.Zone

open Assoc WriteLog Trace Baston.Gateway

variable {F : Type}

/-! ### The last word about an entity -/

/-- The writes of a stream of batches. -/
def writes (stream : List (List (DirtyEntity F))) : List (Write EntityId (EntityState F)) :=
  (stream.map fun batch => batch.map DirtyEntity.write).flatten

theorem mergeBatches_eq_replay : ∀ (stream : List (List (DirtyEntity F))) (world : WorldState F),
    mergeBatches world stream = replay world (writes stream) := by
  intro stream
  induction stream with
  | nil =>
      intro world
      rfl
  | cons batch rest ih =>
      intro world
      have h := ih (mergeBatch world batch)
      rw [mergeBatch_eq_replay] at h
      simp only [mergeBatches, List.foldl_cons, mergeBatch_eq_replay] at h ⊢
      rw [h]
      simp only [writes, replay, List.map_cons, List.flatten_cons, List.foldl_append]

theorem lookup_mergeBatches (world : WorldState F) (stream : List (List (DirtyEntity F)))
    (id : EntityId) :
    (mergeBatches world stream).lookup id = (last id (writes stream)).getD (world.lookup id) := by
  rw [mergeBatches_eq_replay, lookup_replay]

theorem writes_append (stream stream' : List (List (DirtyEntity F))) :
    writes (stream ++ stream') = writes stream ++ writes stream' := by
  simp only [writes, List.map_append, List.flatten_append]

namespace EntityManager

variable {id : EntityId}

/-- Whatever the gateway holds for the entity, the queue will correct it. -/
def Announced (m : EntityManager F) (id : EntityId) : Prop :=
  ∀ world : WorldState F, m.InStep id (world.lookup id)

/-- A run that never spawns the entity before its removal is flushed keeps it in step. -/
theorem run_inStep [BEq F] {m₀ m : EntityManager F} {past : List (Done F)}
    (run : Run step m₀ past m) (hfiled : Filed m₀.dirtyQueue)
    (hclean : Along (fun _ e => ¬ Respawns e.pre e.op id) past) {world : WorldState F}
    (h : m₀.InStep id (world.lookup id)) :
    Filed m.dirtyQueue ∧ m.InStep id ((mergeBatches world (batches past)).lookup id) := by
  refine run.invariant (I := fun past m => Filed m.dirtyQueue
    ∧ m.InStep id ((mergeBatches world (batches past)).lookup id)) ⟨hfiled, h⟩ ?_ hclean
  rintro past m c a m' - ⟨hfiled, hstep⟩ hperform hnew
  obtain ⟨rfl, rfl⟩ := Prod.mk.inj (Option.some.inj hperform)
  rw [mergeBatches_cons]
  exact ⟨perform_filed hfiled c, perform_inStep hfiled c hnew hstep⟩

/-- **The last word of a zone** about an entity it has announced is the entity's live state,
once that is flushed. -/
theorem last_eq_live [BEq F] {m₀ m : EntityManager F} {past : List (Done F)}
    (run : Run step m₀ past m) (hfiled : Filed m₀.dirtyQueue)
    (hclean : Along (fun _ e => ¬ Respawns e.pre e.op id) past) (h : m₀.Announced id)
    (hflushed : m.dirtyQueue.lookup id = none) (state : EntityState F) :
    last id (writes (batches past)) = some (m.get id) := by
  have hworld : ∀ world : WorldState F,
      (last id (writes (batches past))).getD (world.lookup id) = m.get id := by
    intro world
    have hstep := (run_inStep run hfiled hclean (h world)).2
    unfold InStep promised overlay at hstep
    rw [hflushed, lookup_mergeBatches] at hstep
    exact hstep
  cases hlast : last id (writes (batches past)) with
  | some image =>
      have := hworld ∅
      rw [hlast] at this
      exact congrArg some this
  | none =>
      -- a zone that said nothing would have to be right about any world
      have hempty := hworld ∅
      have hfull := hworld (AList.insert id state ∅)
      rw [hlast] at hempty hfull
      simp only [Option.getD_none, AList.lookup_insert, AList.lookup_empty] at hempty hfull
      rw [← hempty] at hfull
      cases hfull

/-- Every entity is stored under its own id. -/
def Keyed (m : EntityManager F) : Prop := ∀ k state, m.get k = some state → state.entityId = k

theorem perform_keyed [BEq F] {m : EntityManager F} (h : Keyed m) (c : Call F) :
    Keyed (m.perform c).1 := by
  rw [perform_eq_change]
  have hspec := change_spec c m
  generalize m.change c = r at hspec
  intro k state hk
  cases hspec with
  | quiet hlive _ _ _ => exact h k state ((hlive k).symm.trans hk)
  | @stored _ id flags new _ hc hlive =>
      replace hk : (m.entities.insert id new).lookup k = some state := hk
      rw [Map.lookup_insert_of] at hk
      by_cases hid : k = id
      · rw [if_pos hid] at hk
        obtain rfl := Option.some.inj hk
        rw [hid]
        rcases hlive with hspawn | ⟨old, hold, hsame⟩
        · rcases hc with ⟨-, hid⟩ | ⟨update, hup⟩ | ⟨owner, hown⟩
          · exact hid.symm
          · exact absurd (hspawn.symm.trans hup) (by simp)
          · exact absurd (hspawn.symm.trans hown) (by simp)
        · rw [hsame]
          exact h id old hold
      · rw [if_neg hid] at hk
        exact h k state hk
  | @removed id _ _ =>
      replace hk : (m.entities.erase id).lookup k = some state := hk
      rw [Map.lookup_erase_of] at hk
      by_cases hid : k = id
      · rw [if_pos hid] at hk
        cases hk
      · rw [if_neg hid] at hk
        exact h k state hk
  | flushed => exact h k state hk

theorem keyed_of_run [BEq F] {past : List (Done F)} {m : EntityManager F}
    (run : Run step EntityManager.new past m) : Keyed m := by
  refine run.safe (I := Keyed) ?_ ?_
  · intro k state hk
    exact absurd hk (by simp [get, new])
  · intro m c a m' hkeyed h
    obtain ⟨rfl, rfl⟩ := Prod.mk.inj (Option.some.inj h)
    exact perform_keyed hkeyed c

/-- An entity that nothing spawns stays away. -/
theorem run_absent [BEq F] {m₀ m : EntityManager F} {past : List (Done F)}
    (run : Run step m₀ past m) (h : m₀.get id = none)
    (hspawn : ∀ e ∈ past, ∀ state, e.op = .spawnEntity state → state.entityId ≠ id) :
    m.get id = none := by
  refine run.invariant (I := fun _ m => m.get id = none) h ?_ (along_of_forall hspawn)
  intro past m c a m' _ habsent hperform hnew
  obtain ⟨rfl, rfl⟩ := Prod.mk.inj (Option.some.inj hperform)
  show (m.perform c).1.get id = none
  rw [perform_eq_change]
  have hspec := change_spec c m
  generalize m.change c = r at hspec
  cases hspec with
  | quiet hlive _ _ _ => exact (hlive id).trans habsent
  | @stored _ k flags state _ hc hlive =>
      show (m.entities.insert k state).lookup id = none
      rw [Map.lookup_insert_of, if_neg]
      · exact habsent
      · rintro rfl
        rcases hlive with rfl | ⟨old, hold, -⟩
        · rcases hc with ⟨-, hid⟩ | ⟨update, hup⟩ | ⟨owner, hown⟩
          · exact hnew state rfl hid.symm
          · cases hup
          · cases hown
        · exact absurd (hold.symm.trans habsent) (by simp)
  | @removed k state _ =>
      show (m.entities.erase k).lookup id = none
      rw [Map.lookup_erase_of]
      by_cases hk : id = k
      · rw [if_pos hk]
      · rw [if_neg hk]
        exact habsent
  | flushed => exact habsent

/-! ### The origin releases the player -/

/-- The entity is removed, and the gateway will hear of it. -/
structure Gone (m : EntityManager F) (id : EntityId) : Prop where
  filed : Filed m.dirtyQueue
  announced : m.Announced id
  absent : m.get id = none

theorem removeEntity_filed {m : EntityManager F} (h : Filed m.dirtyQueue) (k : EntityId) :
    Filed (m.removeEntity k).1.dirtyQueue := by
  unfold removeEntity
  cases m.entities.lookup k with
  | none => exact h
  | some state => exact markDeleted_filed h

theorem removeEntity_frame (m : EntityManager F) {k : EntityId} (hk : id ≠ k) :
    (m.removeEntity k).1.get id = m.get id
      ∧ (m.removeEntity k).1.dirtyQueue.lookup id = m.dirtyQueue.lookup id := by
  unfold removeEntity
  cases m.entities.lookup k with
  | none => exact ⟨rfl, rfl⟩
  | some state => exact ⟨AList.lookup_erase_ne hk, markDeleted_lookup_ne hk⟩

/-- Removing a live entity announces that it is gone. -/
theorem gone_of_removeEntity {m : EntityManager F} (hfiled : Filed m.dirtyQueue)
    (hlive : (m.get id).isSome) : (m.removeEntity id).1.Gone id := by
  obtain ⟨state, hstate⟩ := Option.isSome_iff_exists.mp hlive
  have hremoved : (m.removeEntity id).1
      = ⟨m.entities.erase id, markDeleted id state m.dirtyQueue⟩ := by
    rw [get] at hstate
    simp only [EntityManager.removeEntity, hstate]
  have habsent : (m.entities.erase id).lookup id = none := AList.lookup_erase _ _
  have hpending : removalPending (markDeleted id state m.dirtyQueue) id = true := by
    rw [markDeleted_removalPending, if_pos rfl]
  rw [hremoved]
  refine ⟨markDeleted_filed hfiled, ?_, habsent⟩
  intro world
  exact (promised_of_removalPending hpending _).trans habsent.symm

theorem Gone.removeEntity {m : EntityManager F} (h : m.Gone id) (k : EntityId) :
    (m.removeEntity k).1.Gone id := by
  by_cases hk : id = k
  · subst hk
    have hsame : (m.removeEntity id).1 = m := by
      have habsent := h.absent
      rw [get] at habsent
      simp only [EntityManager.removeEntity, habsent]
    rw [hsame]
    exact h
  · obtain ⟨hget, hqueue⟩ := removeEntity_frame m hk
    refine ⟨removeEntity_filed h.filed k, ?_, hget.trans h.absent⟩
    intro world
    exact (promised_congr hqueue _).trans ((h.announced world).trans hget.symm)

/-- The loop of a cleanup. -/
def removeAll (owned : List (EntityState F)) (m : EntityManager F) : EntityManager F :=
  owned.foldl (fun m entity => (m.removeEntity entity.entityId).1) m

/-- An entity that is live, or gone already. -/
def Leaving (m : EntityManager F) (id : EntityId) : Prop :=
  (Filed m.dirtyQueue ∧ (m.get id).isSome) ∨ m.Gone id

theorem Leaving.removeEntity_self {m : EntityManager F} (h : m.Leaving id) :
    (m.removeEntity id).1.Gone id := by
  rcases h with ⟨hfiled, hlive⟩ | hgone
  · exact gone_of_removeEntity hfiled hlive
  · exact hgone.removeEntity id

theorem Leaving.removeEntity {m : EntityManager F} (h : m.Leaving id) (k : EntityId) :
    (m.removeEntity k).1.Leaving id := by
  by_cases hk : id = k
  · subst hk
    exact .inr h.removeEntity_self
  · rcases h with ⟨hfiled, hlive⟩ | hgone
    · refine .inl ⟨removeEntity_filed hfiled k, ?_⟩
      rw [(removeEntity_frame m hk).1]
      exact hlive
    · exact .inr (hgone.removeEntity k)

theorem Leaving.removeAll {m : EntityManager F} (h : m.Leaving id)
    (owned : List (EntityState F)) : (m.removeAll owned).Leaving id :=
  List.foldlRecOn (motive := fun m => Leaving m id) owned _ h
    fun _ hm entity _ => hm.removeEntity entity.entityId

theorem Gone.removeAll {m : EntityManager F} (h : m.Gone id) (owned : List (EntityState F)) :
    (m.removeAll owned).Gone id :=
  List.foldlRecOn (motive := fun m => Gone m id) owned _ h
    fun _ hm entity _ => hm.removeEntity entity.entityId

theorem gone_of_removeAll : ∀ {owned : List (EntityState F)} {m : EntityManager F},
    m.Leaving id → (∃ entity ∈ owned, entity.entityId = id) → (m.removeAll owned).Gone id := by
  intro owned
  induction owned with
  | nil =>
      rintro m - ⟨entity, hmem, -⟩
      cases hmem
  | cons entity rest ih =>
      rintro m h ⟨other, hmem, hid⟩
      rcases List.mem_cons.mp hmem with rfl | hmem
      · have hgone : (m.removeEntity other.entityId).1.Gone id := by
          rw [hid]
          exact h.removeEntity_self
        exact hgone.removeAll rest
      · exact ih (h.removeEntity entity.entityId) ⟨other, hmem, hid⟩

end EntityManager

namespace StateIngest

variable {id : EntityId}

/-- The zone holds the entity for the player: it is the player's ped, or network-owned by it. -/
def Holds (s : StateIngest F) (source : UInt32) (id : EntityId) : Prop :=
  ∃ state, s.entityManager.get id = some state
    ∧ (state.networkOwner = some source ∨ s.playerEntities.lookup source = some id)

/-- **A released player's entities are gone**, and the gateway will hear of it. -/
theorem postHandoffCleanup_gone {s : StateIngest F} {source : UInt32}
    (hfiled : Filed s.entityManager.dirtyQueue) (hkeyed : s.entityManager.Keyed)
    (h : s.Holds source id) (ord : IterOrder EntityId) :
    (s.postHandoffCleanup ord source).entityManager.Gone id := by
  obtain ⟨state, hstate, howner⟩ := h
  have hleaving : s.entityManager.Leaving id := .inl ⟨hfiled, by rw [hstate]; rfl⟩
  have hafter := hleaving.removeAll (s.entityManager.entitiesOwnedBy ord source)
  have howned : state.networkOwner = some source →
      (s.entityManager.removeAll (s.entityManager.entitiesOwnedBy ord source)).Gone id := by
    intro hsource
    refine EntityManager.gone_of_removeAll hleaving ⟨state, ?_, hkeyed id state hstate⟩
    unfold EntityManager.entitiesOwnedBy
    rw [List.mem_filter, List.mem_map]
    exact ⟨⟨(id, state), Map.mem_visit.mpr hstate, rfl⟩, by simpa using hsource⟩
  unfold postHandoffCleanup onPlayerDropped
  simp only []
  cases hped : s.playerEntities.lookup source with
  | none =>
      rcases howner with hsource | hped'
      · exact howned hsource
      · rw [hped] at hped'
        cases hped'
  | some ped =>
      rcases howner with hsource | hped'
      · exact (howned hsource).removeEntity ped
      · obtain rfl : ped = id := Option.some.inj (hped.symm.trans hped')
        exact hafter.removeEntity_self

end StateIngest

/-! ### The target restores the player -/

namespace EntityManager

variable {id : EntityId}

/-- No removal of the entity waits in the queue. -/
structure Clear (m : EntityManager F) (id : EntityId) : Prop where
  filed : Filed m.dirtyQueue
  free : removalPending m.dirtyQueue id = false

theorem Clear.spawnEntity {m : EntityManager F} (h : m.Clear id) (state : EntityState F) :
    (m.spawnEntity state).Clear id :=
  ⟨markDirty_filed h.filed, (markDirty_removalPending (by decide) id).trans h.free⟩

theorem announced_of_spawnEntity {m : EntityManager F} {state : EntityState F}
    (h : m.Clear state.entityId) : (m.spawnEntity state).Announced state.entityId := by
  intro world
  have hflags : (DirtyFlags.all.difference .deleted).getLsbD 7 = false := by decide
  have hpromised : promised (m.spawnEntity state).dirtyQueue state.entityId _ = _ :=
    markDirty_promised hflags (world.lookup state.entityId)
  rw [h.free] at hpromised
  have hlive : (m.entities.insert state.entityId state).lookup state.entityId = some state :=
    AList.lookup_insert _
  exact hpromised.trans hlive.symm

theorem Announced.spawnEntity {m : EntityManager F} (h : m.Announced id) (hclear : m.Clear id)
    (state : EntityState F) : (m.spawnEntity state).Announced id := by
  by_cases hid : id = state.entityId
  · subst hid
    exact announced_of_spawnEntity hclear
  · intro world
    have hlive : (m.entities.insert state.entityId state).lookup id = m.entities.lookup id :=
      AList.lookup_insert_ne hid
    exact (promised_congr (markDirty_lookup_ne hid) _).trans ((h world).trans hlive.symm)

/-- The loop of a restore. -/
def spawnAll (restored : List (EntityState F)) (m : EntityManager F) : EntityManager F :=
  restored.foldl (fun m entity => m.spawnEntity entity) m

theorem Clear.spawnAll {m : EntityManager F} (h : m.Clear id) (restored : List (EntityState F)) :
    (m.spawnAll restored).Clear id :=
  List.foldlRecOn (motive := fun m => Clear m id) restored _ h
    fun _ hm entity _ => hm.spawnEntity entity

theorem announced_of_spawnAll : ∀ {restored : List (EntityState F)} {m : EntityManager F},
    m.Clear id → (∃ entity ∈ restored, entity.entityId = id) →
      (m.spawnAll restored).Announced id := by
  intro restored
  induction restored with
  | nil =>
      rintro m - ⟨entity, hmem, -⟩
      cases hmem
  | cons entity rest ih =>
      rintro m h ⟨other, hmem, hid⟩
      rcases List.mem_cons.mp hmem with rfl | hmem
      · subst hid
        have hboth := List.foldlRecOn
          (motive := fun m => Clear m other.entityId ∧ Announced m other.entityId) rest _
          ⟨h.spawnEntity other, announced_of_spawnEntity h⟩
          fun _ hm next _ => ⟨hm.1.spawnEntity next, hm.2.spawnEntity hm.1 next⟩
        exact hboth.2
      · exact ih (h.spawnEntity entity) ⟨other, hmem, hid⟩

end EntityManager

/-- Every entity a snapshot carries. -/
def PlayerStateSnapshot.entities (snapshot : PlayerStateSnapshot F) : List (EntityState F) :=
  snapshot.ownedEntities ++ snapshot.playerEntity.toList

namespace StateIngest

variable {id : EntityId}

theorem restorePlayerState_manager (s : StateIngest F) (now : Nat)
    (snapshot : PlayerStateSnapshot F) :
    (s.restorePlayerState now snapshot).1.entityManager
      = s.entityManager.spawnAll snapshot.entities := by
  unfold restorePlayerState PlayerStateSnapshot.entities EntityManager.spawnAll
  cases snapshot.playerEntity with
  | none => simp only [Option.toList_none, List.append_nil]
  | some ped =>
      simp only [Option.toList_some, List.foldl_append, List.foldl_cons, List.foldl_nil]

end StateIngest

/-! ### Both zones' streams -/

/-- The two zones of a handoff. -/
inductive Side
  | origin | target
  deriving DecidableEq, Repr

/-- What zone A sends about an entity it hands over: any calls, the release of the player, and
any calls that do not bring the entity back, until nothing about it waits for a flush. -/
inductive Released [BEq F] (source : UInt32) (id : EntityId) :
    List (List (DirtyEntity F)) → Prop
  | intro {past later : List (EntityManager.Done F)} {a : StateIngest F} {m : EntityManager F}
      (ord : IterOrder EntityId) (run : Run EntityManager.step .new past a.entityManager)
      (held : a.Holds source id)
      (run' : Run EntityManager.step (a.postHandoffCleanup ord source).entityManager later m)
      (hspawn : ∀ e ∈ later, ∀ state, e.op = .spawnEntity state → state.entityId ≠ id)
      (hflushed : m.dirtyQueue.lookup id = none) :
      Released source id (batches past ++ batches later)

/-- What zone B sends about an entity it takes over, and the manager it ends with: any calls,
the restore of the snapshot, and any calls, until nothing about it waits for a flush.  No
spawn of the entity, the restore included, comes before an earlier removal of it is flushed. -/
inductive Activated [BEq F] (snapshot : PlayerStateSnapshot F) (id : EntityId) :
    List (List (DirtyEntity F)) → EntityManager F → Prop
  | intro {past later : List (EntityManager.Done F)} {b : StateIngest F} {m : EntityManager F}
      (now : Nat) (run : Run EntityManager.step .new past b.entityManager)
      (hmem : ∃ entity ∈ snapshot.entities, entity.entityId = id)
      (hfree : removalPending b.entityManager.dirtyQueue id = false)
      (run' : Run EntityManager.step (b.restorePlayerState now snapshot).1.entityManager later m)
      (hclean : Along (fun _ e => ¬ e.pre.Respawns e.op id) later)
      (hflushed : m.dirtyQueue.lookup id = none) :
      Activated snapshot id (batches past ++ batches later) m

theorem Released.last [BEq F] {source : UInt32} {id : EntityId}
    {stream : List (List (DirtyEntity F))} (h : Released source id stream) :
    last id (writes stream) = some none := by
  cases h with
  | @intro past later a m ord run held run' hspawn hflushed =>
      have booked := EntityManager.booked_of_run run
      have hgone := StateIngest.postHandoffCleanup_gone booked.filed
        (EntityManager.keyed_of_run run) held ord
      obtain ⟨state, -⟩ := held
      have hclean : Along (fun _ e => ¬ e.pre.Respawns e.op id) later := by
        refine along_of_forall ?_
        rintro e he ⟨-, state, hop, hid⟩
        exact hspawn e he state hop hid
      have hlast := EntityManager.last_eq_live run' hgone.filed hclean hgone.announced hflushed state
      rw [EntityManager.run_absent run' hgone.absent hspawn] at hlast
      rw [writes_append, last_append, hlast, Option.some_or]

theorem Activated.last [BEq F] {snapshot : PlayerStateSnapshot F} {id : EntityId}
    {stream : List (List (DirtyEntity F))} {m : EntityManager F}
    (h : Activated snapshot id stream m) : last id (writes stream) = some (m.get id) := by
  cases h with
  | @intro past later b m now run hmem hfree run' hclean hflushed =>
      have booked := EntityManager.booked_of_run run
      have hclear : b.entityManager.Clear id := ⟨booked.filed, hfree⟩
      rw [StateIngest.restorePlayerState_manager] at run'
      have hlast := EntityManager.last_eq_live run' (hclear.spawnAll _).filed hclean
        (EntityManager.announced_of_spawnAll hclear hmem) hflushed hmem.choose
      rw [writes_append, last_append, hlast, Option.some_or]

/-- The zone whose batch about the entity arrived last. -/
def lastWord (id : EntityId) (arrival : List (Side × List (DirtyEntity F))) : Option Side :=
  lastFrom id (arrival.map fun x => (x.1, x.2.map DirtyEntity.write))

/-- **A handoff shows in the aggregated world exactly when the origin has the last word**: the
world ends with the entity in the target's state when, and only when, the last batch about it
to arrive is one of the target's. -/
theorem handoff_invisible_iff [BEq F] {source : UInt32} {snapshot : PlayerStateSnapshot F}
    {id : EntityId} {streamA streamB : List (List (DirtyEntity F))} {m : EntityManager F}
    (hA : Released source id streamA) (hB : Activated snapshot id streamB m)
    (hlive : (m.get id).isSome) {arrival : List (Side × List (DirtyEntity F))}
    (harriveA : sentBy .origin arrival = streamA) (harriveB : sentBy .target arrival = streamB)
    (world : WorldState F) :
    (mergeBatches world (arrival.map Prod.snd)).lookup id = m.get id
      ↔ lastWord id arrival = some .target := by
  have hsent : ∀ side, last id (sentBy side (arrival.map fun x =>
      (x.1, x.2.map DirtyEntity.write))).flatten = last id (writes (sentBy side arrival)) := by
    intro side
    simp only [sentBy, writes, List.filter_map, List.map_map]
    rfl
  have hall : (mergeBatches world (arrival.map Prod.snd)).lookup id = (last id ((arrival.map
      fun x => (x.1, x.2.map DirtyEntity.write)).map Prod.snd).flatten).getD (world.lookup id) := by
    rw [lookup_mergeBatches, writes, List.map_map, List.map_map]
    rfl
  rw [hall]
  unfold lastWord
  generalize (arrival.map fun x => (x.1, x.2.map DirtyEntity.write)) = tagged at hsent ⊢
  have horigin := hA.last
  rw [← harriveA, ← hsent] at horigin
  have htarget := hB.last
  rw [← harriveB, ← hsent] at htarget
  cases hlast : lastFrom id tagged with
  | none =>
      rw [last_sentBy_of_lastFrom_none id .origin hlast] at horigin
      cases horigin
  | some side =>
      obtain ⟨image, hword, hside⟩ := last_of_lastFrom id hlast
      rw [hword, Option.getD_some]
      cases side with
      | origin =>
          obtain rfl : image = none := Option.some.inj (hside.symm.trans horigin)
          refine ⟨?_, by simp⟩
          intro habsent
          rw [← habsent] at hlive
          cases hlive
      | target =>
          obtain rfl : image = m.get id := Option.some.inj (hside.symm.trans htarget)
          exact ⟨fun _ => rfl, fun _ => rfl⟩

/-! ### A crate changes zones -/

section Crate

open EntityManager

/-- Zone A with player 1's crate, which the gateway knows. -/
def crateOrigin : StateIngest Float32 where
  entityManager := ((new.spawnEntity (crate 1)).flushDirty (.stored _)).1
  maxSpeedMps := 50.0

/-- Zone B, where player 1 has not been. -/
def crateTarget : StateIngest Float32 where
  entityManager := new
  maxSpeedMps := 50.0

/-- Player 1 as zone A prepared it. -/
def crateSnapshot : PlayerStateSnapshot Float32 := ⟨1, ⟨0.0, 0.0, 0.0⟩, none, [crate 1]⟩

/-- Zone A after it released the player. -/
def crateReleased : EntityManager Float32 :=
  (crateOrigin.postHandoffCleanup (.stored _) 1).entityManager

/-- Zone B after it restored the player. -/
def crateRestored : EntityManager Float32 :=
  (crateTarget.restorePlayerState 0 crateSnapshot).1.entityManager

def originStream : List (List (DirtyEntity Float32)) :=
  [((new.spawnEntity (crate 1)).flushDirty (.stored _)).2, (crateReleased.flushDirty (.stored _)).2]

def targetStream : List (List (DirtyEntity Float32)) := [(crateRestored.flushDirty (.stored _)).2]

theorem crate_released : Released 1 1 originStream := by
  have run : Run EntityManager.step new [_, _] crateOrigin.entityManager :=
    (Run.nil.snoc (show EntityManager.step (.spawnEntity (crate 1)) new = _ from rfl)).snoc
      (show EntityManager.step (.flushDirty (.stored _)) _ = _ from rfl)
  have run' : Run EntityManager.step crateReleased [_] _ :=
    Run.nil.snoc (show EntityManager.step (.flushDirty (.stored _)) _ = _ from rfl)
  refine Released.intro (.stored _) run ⟨crate 1, rfl, .inl rfl⟩ run' ?_ rfl
  intro e he state hop
  rw [List.mem_singleton.mp he] at hop
  cases hop

theorem crate_activated :
    Activated crateSnapshot 1 targetStream (crateRestored.flushDirty (.stored _)).1 := by
  have run' : Run EntityManager.step crateRestored [_] _ :=
    Run.nil.snoc (show EntityManager.step (.flushDirty (.stored _)) _ = _ from rfl)
  refine Activated.intro 0 (Run.nil : Run EntityManager.step new [] crateTarget.entityManager)
    ⟨crate 1, List.mem_singleton.mpr rfl, rfl⟩ rfl run' ?_ rfl
  refine ⟨?_, trivial⟩
  rintro ⟨-, state, hop, -⟩
  cases hop

/-- The batches in the order A, A, B. -/
def arrivalInOrder : List (Side × List (DirtyEntity Float32)) :=
  originStream.map (Side.origin, ·) ++ targetStream.map (Side.target, ·)

/-- When both of zone A's batches arrive before zone B's, the crate is still there. -/
theorem handoff_invisible_crate :
    (mergeBatches ∅ (arrivalInOrder.map Prod.snd)).lookup 1
      = (crateRestored.flushDirty (.stored _)).1.get 1 := by
  have hword : lastWord 1 arrivalInOrder = some .target := by decide +kernel
  have harriveA : sentBy .origin arrivalInOrder = originStream := rfl
  have harriveB : sentBy .target arrivalInOrder = targetStream := rfl
  exact (handoff_invisible_iff crate_released crate_activated rfl harriveA harriveB ∅).mpr hword

/-- When zone B's batch overtakes zone A's last one, the crate is erased: zone B has it, the
gateway does not. -/
theorem handoff_erased :
    Released 1 1 originStream
      ∧ Activated crateSnapshot 1 targetStream (crateRestored.flushDirty (.stored _)).1
      ∧ ∃ arrival : List (Side × List (DirtyEntity Float32)),
        sentBy .origin arrival = originStream ∧ sentBy .target arrival = targetStream
          ∧ (mergeBatches ∅ (arrival.map Prod.snd)).lookup 1 = none
          ∧ ((crateRestored.flushDirty (.stored _)).1.get 1).isSome := by
  refine ⟨crate_released, crate_activated, ?_⟩
  refine ⟨[(.origin, _), (.target, _), (.origin, _)], rfl, rfl, ?_, rfl⟩
  rw [← Option.isNone_iff_eq_none]
  decide +kernel

end Crate

end Baston.Zone

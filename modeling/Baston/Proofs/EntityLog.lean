/-
The flushed batches of an entity manager, replayed at the gateway.

The manager keeps one pending delta for each entity, so what the gateway will hold after the
next flush is the pending delta where there is one and what it holds already elsewhere.
An entity is in step when that is the entity's live state.  A mutation puts its entity in
step, whatever was pending before, with one exception: a pending removal takes no update,
so an entity that is spawned again before its removal is flushed stays removed for the
gateway.
-/
import Baston.Lib.Trace
import Baston.Lib.WriteLog
import Baston.Gateway.StateAggregator
import Baston.Zone.EntityTasks

namespace Baston.Zone

open Assoc WriteLog Trace Baston.Gateway

variable {F : Type}

/-! ### Flags -/

theorem DirtyFlags.contains_deleted (flags : DirtyFlags) :
    flags.contains .deleted = flags.getLsbD 7 := by
  unfold DirtyFlags.contains DirtyFlags.deleted
  rw [BitVec.and_twoPow]
  cases flags.getLsbD 7 with
  | true => simp
  | false => decide

/-- What the fields diffed so far have done to `state`: it is the same entity, no flag says
deleted, and without a flag nothing has changed. -/
structure Diffed (state : EntityState F) (acc : EntityState F × DirtyFlags) : Prop where
  same : acc.1.entityId = state.entityId
  kept : acc.2.getLsbD 7 = false
  unchanged : acc.2 = 0 → acc.1 = state

theorem Diffed.field {α : Type} [BEq α] {state : EntityState F}
    {acc : EntityState F × DirtyFlags} (h : Diffed state acc) (new : Option α)
    (field : EntityState F → α) {store : α → EntityState F → EntityState F} {flag : DirtyFlags}
    (hstore : ∀ v s, (store v s).entityId = s.entityId) (hflag : flag ≠ 0)
    (hkept : flag.getLsbD 7 = false) :
    Diffed state (EntityState.diffField new field store flag acc) := by
  cases new with
  | none => exact h
  | some v =>
      unfold EntityState.diffField
      by_cases hne : field acc.1 != v
      · simp only [hne, if_true]
        refine ⟨(hstore v acc.1).trans h.same,
          by rw [BitVec.getLsbD_or, h.kept, hkept]; rfl, ?_⟩
        intro hzero
        exact absurd (BitVec.or_eq_zero_iff.mp hzero).2 hflag
      · simp only [hne]
        exact h

theorem applyUpdate_diffed [BEq F] (update : EntityStateUpdate F) (state : EntityState F) :
    Diffed state (state.applyUpdate update) := by
  unfold EntityState.applyUpdate
  iterate 6 refine Diffed.field ?_ _ _ (fun _ _ => rfl) (by decide) (by decide)
  exact ⟨rfl, BitVec.getLsbD_zero, fun _ => rfl⟩

/-! ### Deltas as writes -/

/-- The value a delta gives to its entity. -/
def DirtyEntity.image (d : DirtyEntity F) : Option (EntityState F) :=
  if d.dirtyFields.contains .deleted then none else some d.state

def DirtyEntity.write (d : DirtyEntity F) : Write EntityId (EntityState F) :=
  ⟨d.entityId, d.image⟩

theorem mergeBatch_eq_replay (batch : List (DirtyEntity F)) (world : WorldState F) :
    mergeBatch world batch = replay world (batch.map DirtyEntity.write) := by
  unfold mergeBatch replay
  rw [List.foldl_map]
  congr 1
  funext world d
  unfold mergeDirty put DirtyEntity.write DirtyEntity.image
  by_cases hdel : d.dirtyFields.contains .deleted
  · simp only [hdel, if_true]
  · simp only [hdel]
    rfl

/-- Every pending delta is filed under its own entity. -/
def Filed (queue : Map EntityId (DirtyEntity F)) : Prop :=
  ∀ id d, queue.lookup id = some d → d.entityId = id

/-- A removal of the entity waits in the queue. -/
def removalPending (queue : Map EntityId (DirtyEntity F)) (id : EntityId) : Bool :=
  (queue.lookup id).any fun d => d.dirtyFields.contains .deleted

/-- What a gateway that holds `v` for the entity will hold after a flush. -/
def promised (queue : Map EntityId (DirtyEntity F)) (id : EntityId)
    (v : Option (EntityState F)) : Option (EntityState F) :=
  overlay DirtyEntity.image queue id v

theorem promised_of_removalPending {queue : Map EntityId (DirtyEntity F)} {id : EntityId}
    (h : removalPending queue id = true) (v : Option (EntityState F)) :
    promised queue id v = none := by
  unfold removalPending at h
  obtain ⟨d, hd, hdel⟩ := (Option.any_eq_true _ _).mp h
  simp only [promised, overlay, hd, Option.map_some, Option.getD_some, DirtyEntity.image, hdel,
    if_true]

theorem promised_congr {queue queue' : Map EntityId (DirtyEntity F)} {id : EntityId}
    (h : queue.lookup id = queue'.lookup id) (v : Option (EntityState F)) :
    promised queue id v = promised queue' id v := by
  unfold promised overlay
  rw [h]

@[simp] theorem promised_empty (id : EntityId) (v : Option (EntityState F)) :
    promised ∅ id v = v := by
  simp [promised, overlay]

/-- **A flush gives the gateway what was promised.** -/
theorem lookup_merge_flush {m : EntityManager F} (hfiled : Filed m.dirtyQueue)
    (ord : IterOrder EntityId) (world : WorldState F) (id : EntityId) :
    (mergeBatch world (m.flushDirty ord).2).lookup id
      = promised m.dirtyQueue id (world.lookup id) := by
  have hwrites : ((m.flushDirty ord).2).map DirtyEntity.write
      = drain DirtyEntity.image ord m.dirtyQueue := by
    unfold EntityManager.flushDirty drain
    rw [List.map_map]
    refine List.map_congr_left ?_
    rintro ⟨k, d⟩ hkd
    have hk : d.entityId = k := hfiled k d (Map.mem_visit.mp hkd)
    show d.write = _
    unfold DirtyEntity.write
    rw [hk]
  rw [mergeBatch_eq_replay, hwrites, lookup_replay_drain]
  rfl

/-- The batches of a history, oldest first.  An empty one is not published. -/
def batches {σ ι : Type} (past : List (Entry σ ι (List (DirtyEntity F)))) :
    List (List (DirtyEntity F)) :=
  (past.reverse.map (·.answer)).filter fun batch => !batch.isEmpty

/-- The gateway after every batch of a history, merged in order into an empty world. -/
def replayed {σ ι : Type} (past : List (Entry σ ι (List (DirtyEntity F)))) : WorldState F :=
  mergeBatches ∅ (batches past)

theorem mergeBatches_cons {σ ι : Type} (world : WorldState F)
    (e : Entry σ ι (List (DirtyEntity F))) (past : List (Entry σ ι (List (DirtyEntity F)))) :
    mergeBatches world (batches (e :: past))
      = mergeBatch (mergeBatches world (batches past)) e.answer := by
  have hcons : batches (e :: past)
      = batches past ++ [e.answer].filter fun batch => !batch.isEmpty := by
    simp only [batches, List.reverse_cons, List.map_append, List.filter_append, List.map_cons,
      List.map_nil]
  rw [hcons, mergeBatches, List.foldl_append]
  cases he : e.answer with
  | nil => rfl
  | cons d rest => rfl

theorem replayed_cons {σ ι : Type} (e : Entry σ ι (List (DirtyEntity F)))
    (past : List (Entry σ ι (List (DirtyEntity F)))) :
    replayed (e :: past) = mergeBatch (replayed past) e.answer :=
  mergeBatches_cons ∅ e past

/-! ### What a mark does to the queue -/

namespace EntityManager

variable {queue : Map EntityId (DirtyEntity F)} {id : EntityId} {flags : DirtyFlags}
  {state : EntityState F}

theorem markDirty_lookup_ne {k : EntityId} (hk : k ≠ id) :
    (markDirty id flags state queue).lookup k = queue.lookup k := by
  unfold markDirty
  cases queue.lookup id with
  | none => rw [AList.lookup_insert_ne hk]
  | some pending =>
      by_cases hdel : pending.dirtyFields.contains .deleted
      · simp only [hdel, if_true]
      · simp only [hdel]
        rw [if_neg Bool.false_ne_true, AList.lookup_insert_ne hk]

theorem markDirty_filed (h : Filed queue) : Filed (markDirty id flags state queue) := by
  intro k d hd
  by_cases hk : k = id
  · subst hk
    unfold markDirty at hd
    cases hq : queue.lookup k with
    | none =>
        simp only [hq, AList.lookup_insert, Option.some.injEq] at hd
        rw [← hd]
    | some pending =>
        simp only [hq] at hd
        by_cases hdel : pending.dirtyFields.contains .deleted
        · rw [if_pos hdel] at hd
          exact h k d hd
        · rw [if_neg hdel, AList.lookup_insert, Option.some.injEq] at hd
          rw [← hd]
          exact h k pending hq
  · rw [markDirty_lookup_ne hk] at hd
    exact h k d hd

/-- A mark promises its snapshot, unless the entity's removal is pending. -/
theorem markDirty_promised (hflags : flags.getLsbD 7 = false) (v : Option (EntityState F)) :
    promised (markDirty id flags state queue) id v
      = if removalPending queue id then none else some state := by
  unfold markDirty removalPending promised overlay
  cases hq : queue.lookup id with
  | none =>
      simp only [AList.lookup_insert, Option.map_some, Option.getD_some, Option.any_none,
        DirtyEntity.image, DirtyFlags.contains_deleted, hflags]
  | some pending =>
      by_cases hdel : pending.dirtyFields.contains .deleted
      · simp only [hdel, if_true, hq, Option.map_some, Option.getD_some, Option.any_some,
          DirtyEntity.image]
      · rw [Bool.not_eq_true, DirtyFlags.contains_deleted] at hdel
        simp only [DirtyFlags.contains_deleted, hdel, Bool.false_eq_true, if_false,
          AList.lookup_insert, Option.map_some, Option.getD_some, Option.any_some,
          DirtyEntity.image, BitVec.getLsbD_or, hflags, Bool.or_self]

theorem markDirty_removalPending (hflags : flags.getLsbD 7 = false) (k : EntityId) :
    removalPending (markDirty id flags state queue) k = removalPending queue k := by
  by_cases hk : k = id
  · subst hk
    unfold markDirty removalPending
    cases hq : queue.lookup k with
    | none =>
        simp only [AList.lookup_insert, Option.any_some, Option.any_none,
          DirtyFlags.contains_deleted, hflags]
    | some pending =>
        by_cases hdel : pending.dirtyFields.contains .deleted
        · simp only [hdel, if_true, hq, Option.any_some]
        · rw [Bool.not_eq_true, DirtyFlags.contains_deleted] at hdel
          simp only [DirtyFlags.contains_deleted, hdel, Bool.false_eq_true, if_false,
            AList.lookup_insert, Option.any_some, BitVec.getLsbD_or, hflags, Bool.or_self]
  · unfold removalPending
    rw [markDirty_lookup_ne hk]

theorem markDeleted_filed (h : Filed queue) : Filed (markDeleted id state queue) := by
  intro k d hd
  unfold markDeleted at hd
  rw [Map.lookup_insert_of] at hd
  by_cases hk : k = id
  · rw [if_pos hk, Option.some.injEq] at hd
    rw [← hd, hk]
  · rw [if_neg hk] at hd
    exact h k d hd

theorem markDeleted_lookup_ne {k : EntityId} (hk : k ≠ id) :
    (markDeleted id state queue).lookup k = queue.lookup k :=
  AList.lookup_insert_ne hk

theorem markDeleted_removalPending (k : EntityId) :
    removalPending (markDeleted id state queue) k
      = if k = id then true else removalPending queue k := by
  unfold markDeleted removalPending
  rw [Map.lookup_insert_of]
  by_cases hk : k = id
  · simp only [hk, if_true, Option.any_some]
    decide
  · simp only [hk, if_false]

/-! ### What a call does -/

/-- The first step of a call: nothing, or one entity stored or removed, with the mark that
says so, or a flush. -/
inductive Changed [BEq F] (m : EntityManager F) :
    Call F → EntityManager F × Option (Mark F) × List (DirtyEntity F) → Prop
  | quiet {c : Call F} {m' : EntityManager F}
      (hlive : ∀ k, m'.entities.lookup k = m.entities.lookup k) (hqueue : m'.dirtyQueue = m.dirtyQueue)
      (hc : ∀ ord, c ≠ .flushDirty ord)
      (hgone : ∀ id, c = .removeEntity id → m.entities.lookup id = none) :
      Changed m c (m', none, [])
  | stored {c : Call F} {id : EntityId} {flags : DirtyFlags} {state : EntityState F}
      (hflags : flags.getLsbD 7 = false)
      (hc : c = .spawnEntity state ∧ id = state.entityId
        ∨ (∃ update, c = .updateEntity id update) ∨ ∃ owner, c = .setNetworkOwner id owner)
      (hlive : c = .spawnEntity state
        ∨ ∃ old, m.entities.lookup id = some old ∧ state.entityId = old.entityId) :
      Changed m c ({ m with entities := m.entities.insert id state },
        some (.dirty id flags state), [])
  | removed {id : EntityId} {state : EntityState F} (hlive : m.entities.lookup id = some state) :
      Changed m (.removeEntity id)
        ({ m with entities := m.entities.erase id }, some (.deleted id state), [])
  | flushed {ord : IterOrder EntityId} :
      Changed m (.flushDirty ord) ((m.flushDirty ord).1, none, (m.flushDirty ord).2)

theorem insert_same {m : EntityManager F} {id : EntityId} {state : EntityState F}
    (h : m.entities.lookup id = some state) (k : EntityId) :
    (m.entities.insert id state).lookup k = m.entities.lookup k := by
  rw [Map.lookup_insert_of]
  by_cases hk : k = id
  · rw [if_pos hk, hk, h]
  · rw [if_neg hk]

theorem change_spec [BEq F] (c : Call F) (m : EntityManager F) : Changed m c (m.change c) := by
  cases c with
  | spawnEntity state =>
      have hflags : (DirtyFlags.all.difference .deleted).getLsbD 7 = false := by decide
      exact .stored hflags (.inl ⟨rfl, rfl⟩) (.inl rfl)
  | removeEntity id =>
      cases hlive : m.entities.lookup id with
      | none =>
          simp only [change, hlive]
          refine .quiet (fun _ => rfl) rfl (by simp) ?_
          rintro _ ⟨⟩
          exact hlive
      | some state =>
          simp only [change, hlive]
          exact .removed hlive
  | updateEntity id update =>
      cases hlive : m.entities.lookup id with
      | none =>
          simp only [change, hlive]
          exact .quiet (fun _ => rfl) rfl (by simp) (by simp)
      | some state =>
          simp only [change, hlive]
          have hdiff := applyUpdate_diffed update state
          by_cases hzero : (state.applyUpdate update).2 = 0
          · rw [if_pos hzero, hdiff.unchanged hzero]
            exact .quiet (insert_same hlive) rfl (by simp) (by simp)
          · rw [if_neg hzero]
            exact .stored hdiff.kept (.inr (.inl ⟨update, rfl⟩)) (.inr ⟨state, hlive, hdiff.same⟩)
  | setNetworkOwner id owner =>
      cases hlive : m.entities.lookup id with
      | none =>
          simp only [change, hlive]
          exact .quiet (fun _ => rfl) rfl (by simp) (by simp)
      | some state =>
          simp only [change, hlive]
          by_cases hsame : state.networkOwner = owner
          · rw [if_pos hsame]
            exact .quiet (fun _ => rfl) rfl (by simp) (by simp)
          · rw [if_neg hsame]
            have hflags : DirtyFlags.extra.getLsbD 7 = false := by decide
            exact .stored hflags (.inr (.inr ⟨owner, rfl⟩)) (.inr ⟨state, hlive, rfl⟩)
  | flushDirty ord => exact .flushed

/-- The second step of a call that has one. -/
def finish (r : EntityManager F × Option (Mark F) × List (DirtyEntity F)) :
    EntityManager F × List (DirtyEntity F) :=
  (match r.2.1 with
    | some mark => mark.record r.1
    | none => r.1, r.2.2)

/-- Left alone, a call is its two steps. -/
theorem perform_eq_change [BEq F] (c : Call F) (m : EntityManager F) :
    m.perform c = finish (m.change c) := by
  cases c with
  | spawnEntity state => rfl
  | removeEntity id =>
      cases hlive : m.entities.lookup id <;>
        simp only [perform, removeEntity, change, hlive] <;> rfl
  | updateEntity id update =>
      cases hlive : m.entities.lookup id with
      | none =>
          simp only [perform, updateEntity, change, hlive]
          rfl
      | some state =>
          by_cases hzero : (state.applyUpdate update).2 = 0 <;>
            simp only [perform, updateEntity, change, hlive, hzero, if_true, if_false] <;> rfl
  | setNetworkOwner id owner =>
      cases hlive : m.entities.lookup id with
      | none =>
          simp only [perform, setNetworkOwner, change, hlive]
          rfl
      | some state =>
          by_cases hsame : state.networkOwner = owner <;>
            simp only [perform, setNetworkOwner, change, hlive, hsame, if_true, if_false] <;> rfl
  | flushDirty ord => rfl

/-! ### Staying in step -/

/-- After a flush a gateway that holds `v` for the entity would hold its live state. -/
def InStep (m : EntityManager F) (id : EntityId) (v : Option (EntityState F)) : Prop :=
  promised m.dirtyQueue id v = m.entities.lookup id

/-- The call spawns the entity while its removal is still pending. -/
def Respawns (m : EntityManager F) (c : Call F) (id : EntityId) : Prop :=
  removalPending m.dirtyQueue id = true ∧ ∃ state, c = .spawnEntity state ∧ state.entityId = id

theorem perform_filed [BEq F] {m : EntityManager F} (h : Filed m.dirtyQueue) (c : Call F) :
    Filed (m.perform c).1.dirtyQueue := by
  rw [perform_eq_change]
  have hspec := change_spec c m
  generalize m.change c = r at hspec
  cases hspec with
  | quiet _ hqueue _ _ =>
      show Filed _
      rw [finish, hqueue]
      exact h
  | stored _ _ _ => exact markDirty_filed h
  | removed _ => exact markDeleted_filed h
  | flushed =>
      intro k d hd
      exact absurd hd (by simp [finish, flushDirty])

/-- **Every call keeps an entity in step**, unless it spawns the entity before its removal is
flushed. -/
theorem perform_inStep [BEq F] {m : EntityManager F} {id : EntityId} {world : WorldState F}
    (hfiled : Filed m.dirtyQueue) (c : Call F) (hclean : ¬ Respawns m c id)
    (h : InStep m id (world.lookup id)) :
    InStep (m.perform c).1 id ((mergeBatch world (m.perform c).2).lookup id) := by
  rw [perform_eq_change]
  have hspec := change_spec c m
  generalize m.change c = r at hspec
  unfold InStep at h ⊢
  cases hspec with
  | quiet hlive hqueue _ _ =>
      show promised _ id (world.lookup id) = _
      rw [finish, hqueue, hlive, h]
  | @stored _ id' flags state hflags hc hlive =>
      show promised (markDirty id' flags state m.dirtyQueue) id (world.lookup id)
        = (m.entities.insert id' state).lookup id
      by_cases hid : id = id'
      · subst hid
        have hfree : removalPending m.dirtyQueue id = false := by
          rw [← Bool.not_eq_true]
          intro hpending
          rw [promised_of_removalPending hpending] at h
          rcases hlive with hspawn | ⟨old, hold, -⟩
          · rcases hc with ⟨-, hid⟩ | ⟨update, hup⟩ | ⟨owner, hown⟩
            · exact hclean ⟨hpending, state, hspawn, hid.symm⟩
            · exact absurd (hspawn.symm.trans hup) (by simp)
            · exact absurd (hspawn.symm.trans hown) (by simp)
          · rw [← h] at hold
            cases hold
        rw [markDirty_promised hflags, hfree, AList.lookup_insert]
        rfl
      · rw [promised_congr (markDirty_lookup_ne hid), AList.lookup_insert_ne hid, h]
  | @removed id' state _ =>
      show promised (markDeleted id' state m.dirtyQueue) id (world.lookup id)
        = (m.entities.erase id').lookup id
      by_cases hid : id = id'
      · subst hid
        have hpending : removalPending (markDeleted id state m.dirtyQueue) id = true := by
          rw [markDeleted_removalPending, if_pos rfl]
        rw [promised_of_removalPending hpending, AList.lookup_erase]
      · rw [promised_congr (markDeleted_lookup_ne hid), AList.lookup_erase_ne hid, h]
  | @flushed ord =>
      show promised ∅ id ((mergeBatch world (m.flushDirty ord).2).lookup id) = _
      rw [promised_empty, lookup_merge_flush hfiled, h]
      rfl

/-! ### Runs -/

/-- One call of a run; a call never breaks. -/
def step [BEq F] (c : Call F) (m : EntityManager F) :
    Option (EntityManager F × List (DirtyEntity F)) :=
  some (m.perform c)

abbrev Done (F : Type) := Entry (EntityManager F) (Call F) (List (DirtyEntity F))

/-- The live entities as of the last flush. -/
def liveAtFlush : List (Done F) → Map EntityId (EntityState F)
  | [] => ∅
  | e :: past =>
    match e.op with
    | .flushDirty _ => e.pre.entities
    | _ => liveAtFlush past

/-- The gateway holds exactly the live entities as of the last flush. -/
def Converged (past : List (Done F)) : Prop :=
  ∀ id, (replayed past).lookup id = (liveAtFlush past).lookup id

/-- The entity was live and was removed since the last flush. -/
def RemovedSinceFlush (id : EntityId) : List (Done F) → Prop
  | [] => False
  | e :: past =>
    match e.op with
    | .flushDirty _ => False
    | .removeEntity id' => (id' = id ∧ (e.pre.get id).isSome) ∨ RemovedSinceFlush id past
    | _ => RemovedSinceFlush id past

/-- No flush finds an entity live that was removed since the flush before. -/
def TidyFlush (past : List (Done F)) (e : Done F) : Prop :=
  ∀ ord, e.op = .flushDirty ord → ∀ id, RemovedSinceFlush id past → e.pre.get id = none

/-- The queue knows what was removed since the last flush. -/
structure Booked (past : List (Done F)) (m : EntityManager F) : Prop where
  filed : Filed m.dirtyQueue
  removed : ∀ id, removalPending m.dirtyQueue id = true ↔ RemovedSinceFlush id past

theorem Booked.perform [BEq F] {past : List (Done F)} {m : EntityManager F} (h : Booked past m)
    (c : Call F) : Booked (⟨m, c, (m.perform c).2, (m.perform c).1⟩ :: past) (m.perform c).1 := by
  refine ⟨perform_filed h.filed c, ?_⟩
  intro k
  have hspec := change_spec c m
  have hperform := perform_eq_change c m
  generalize m.perform c = done at hperform
  generalize m.change c = r at hspec hperform
  subst hperform
  cases hspec with
  | quiet _ hqueue hflush hgone =>
      rw [finish, hqueue, h.removed]
      cases c with
      | flushDirty ord => exact absurd rfl (hflush ord)
      | removeEntity id =>
          refine ⟨.inr, ?_⟩
          rintro (⟨rfl, hlive⟩ | hbefore)
          · rw [get, hgone _ rfl] at hlive
            exact absurd hlive (by simp)
          · exact hbefore
      | spawnEntity state => rfl
      | updateEntity id update => rfl
      | setNetworkOwner id owner => rfl
  | @stored _ id flags state hflags hc _ =>
      show removalPending (markDirty id flags state m.dirtyQueue) k = true ↔ _
      rw [markDirty_removalPending hflags, h.removed]
      rcases hc with ⟨rfl, -⟩ | ⟨update, rfl⟩ | ⟨owner, rfl⟩ <;> rfl
  | @removed id state hlive =>
      show removalPending (markDeleted id state m.dirtyQueue) k = true ↔ _
      rw [markDeleted_removalPending]
      by_cases hk : k = id
      · subst hk
        rw [if_pos rfl]
        have hsome : (m.get k).isSome := by rw [get, hlive]; rfl
        exact ⟨fun _ => .inl ⟨rfl, hsome⟩, fun _ => rfl⟩
      · rw [if_neg hk, h.removed]
        refine ⟨.inr, ?_⟩
        rintro (⟨hid, -⟩ | hbefore)
        · exact absurd hid.symm hk
        · exact hbefore
  | flushed =>
      refine ⟨?_, fun hfalse => hfalse.elim⟩
      intro hpending
      exact absurd hpending (by simp [finish, flushDirty, removalPending])

theorem booked_of_run [BEq F] {past : List (Done F)} {m : EntityManager F}
    (run : Run step EntityManager.new past m) : Booked past m := by
  induction run with
  | nil =>
      refine ⟨?_, ?_⟩
      · intro k d hd
        exact absurd hd (by simp [new])
      · intro k
        simp [removalPending, new, RemovedSinceFlush]
  | snoc run h ih =>
      obtain ⟨rfl, rfl⟩ := Prod.mk.inj (Option.some.inj h)
      exact ih.perform _

/-- Along tidy flushes every entity is in step, or was removed since the last flush. -/
theorem inStep_of_tidy [BEq F] {past : List (Done F)} {m : EntityManager F}
    (run : Run step EntityManager.new past m) (tidy : Along TidyFlush past) :
    ∀ id, RemovedSinceFlush id past ∨ InStep m id ((replayed past).lookup id) := by
  refine run.invariant (I := fun past m => ∀ id, RemovedSinceFlush id past
    ∨ InStep m id ((replayed past).lookup id)) (P := TidyFlush) ?_ ?_ tidy
  · intro id
    exact .inr (by simp [InStep, new, replayed, batches, mergeBatches])
  · intro past m c a m' run ih h htidy id
    have booked := booked_of_run run
    obtain ⟨rfl, rfl⟩ := Prod.mk.inj (Option.some.inj h)
    rw [replayed_cons]
    have hkeep : ¬ Respawns m c id → InStep m id ((replayed past).lookup id) →
        RemovedSinceFlush id (⟨m, c, (m.perform c).2, (m.perform c).1⟩ :: past)
          ∨ InStep (m.perform c).1 id
            ((mergeBatch (replayed past) (m.perform c).2).lookup id) :=
      fun hclean hstep => .inr (perform_inStep booked.filed c hclean hstep)
    by_cases hremoved : RemovedSinceFlush id past
    · cases c with
      | flushDirty ord =>
          -- the entity is gone, and so is what the queue promises
          refine hkeep (by rintro ⟨-, state, hc, -⟩; cases hc) ?_
          unfold InStep
          rw [promised_of_removalPending ((booked.removed id).mpr hremoved)]
          exact (htidy ord rfl id hremoved).symm
      | removeEntity id' => exact .inl (.inr hremoved)
      | spawnEntity state => exact .inl hremoved
      | updateEntity id' update => exact .inl hremoved
      | setNetworkOwner id' owner => exact .inl hremoved
    · rcases ih id with hbefore | hstep
      · exact absurd hbefore hremoved
      · exact hkeep (fun hre => hremoved ((booked.removed id).mp hre.1)) hstep

theorem Converged.of_not_flush {past : List (Done F)} {e : Done F} (h : Converged past)
    (hop : ∀ ord, e.op ≠ .flushDirty ord) (hanswer : e.answer = []) : Converged (e :: past) := by
  intro id
  have hlive : liveAtFlush (e :: past) = liveAtFlush past := by
    unfold liveAtFlush
    cases hc : e.op with
    | flushDirty ord => exact absurd hc (hop ord)
    | _ => cases past <;> rfl
  rw [replayed_cons, hanswer, hlive]
  exact h id

/-- At a flush the gateway converges when every entity is in step, and only then. -/
theorem converged_flush_iff {past : List (Done F)} {m : EntityManager F}
    (booked : Booked past m) (ord : IterOrder EntityId) :
    Converged (⟨m, .flushDirty ord, (m.flushDirty ord).2, (m.flushDirty ord).1⟩ :: past)
      ↔ ∀ id, InStep m id ((replayed past).lookup id) := by
  refine forall_congr' ?_
  intro id
  rw [replayed_cons, lookup_merge_flush booked.filed]
  rfl

/-- **Replaying the batches gives the live entities** as of the last flush, at every point of a
run, exactly when no flush finds an entity live that was removed since the flush before. -/
theorem replay_converges_iff [BEq F] {past : List (Done F)} {m : EntityManager F}
    (run : Run step EntityManager.new past m) :
    (∀ later before, past = later ++ before → Converged before) ↔ Along TidyFlush past := by
  induction run with
  | nil =>
      refine ⟨fun _ => trivial, ?_⟩
      intro _ later before hcut id
      obtain ⟨-, rfl⟩ := List.append_eq_nil_iff.mp hcut.symm
      simp [replayed, batches, mergeBatches, liveAtFlush]
  | @snoc past m m' c a run h ih =>
      have booked := booked_of_run run
      constructor
      · intro hconv
        have hbefore : Along TidyFlush past :=
          ih.mp fun later before hcut => hconv (⟨m, c, a, m'⟩ :: later) before (by rw [hcut]; rfl)
        refine ⟨?_, hbefore⟩
        rintro ord rfl id hremoved
        obtain ⟨rfl, rfl⟩ := Prod.mk.inj (Option.some.inj h)
        have hstep := (converged_flush_iff booked ord).mp (hconv [] _ rfl) id
        unfold InStep at hstep
        rw [promised_of_removalPending ((booked.removed id).mpr hremoved)] at hstep
        exact hstep.symm
      · rintro ⟨htidy, hbefore⟩ later before hcut
        cases later with
        | cons e later =>
            obtain ⟨-, hcut⟩ := List.cons.inj hcut
            exact ih.mpr hbefore later before hcut
        | nil =>
            subst hcut
            have hconv : Converged past := ih.mpr hbefore [] past rfl
            obtain ⟨rfl, rfl⟩ := Prod.mk.inj (Option.some.inj h)
            cases c with
            | flushDirty ord =>
                refine (converged_flush_iff booked ord).mpr ?_
                intro id
                rcases inStep_of_tidy run hbefore id with hremoved | hstep
                · unfold InStep
                  rw [promised_of_removalPending ((booked.removed id).mpr hremoved)]
                  exact (htidy ord rfl id hremoved).symm
                · exact hstep
            | spawnEntity state => exact hconv.of_not_flush (by simp) rfl
            | removeEntity id => exact hconv.of_not_flush (by simp) rfl
            | updateEntity id update => exact hconv.of_not_flush (by simp) rfl
            | setNetworkOwner id owner => exact hconv.of_not_flush (by simp) rfl

/-! ### A crate -/

/-- A crate at the origin. -/
def crate (id : EntityId) : EntityState Float32 where
  entityId := id
  entityType := .object
  networkOwner := some 1
  modelHash := 7
  coords := ⟨0.0, 0.0, 0.0⟩
  heading := 0.0
  velocity := ⟨0.0, 0.0, 0.0⟩
  health := 100.0
  armour := 0.0
  extra := .object true

/-- A crate that is spawned, flushed, removed and flushed again is no trouble. -/
theorem replay_converges_crate :
    ∃ (past : List (Done Float32)) (m : EntityManager Float32),
      Run step EntityManager.new past m ∧ past.length = 4 ∧ Converged past := by
  have spawned : Run step EntityManager.new [_, _] _ :=
    (Run.nil.snoc (show step (.spawnEntity (crate 1)) EntityManager.new = _ from rfl)).snoc
      (show step (.flushDirty (.stored _)) _ = _ from rfl)
  have removed : Run step EntityManager.new [_, _, _, _] _ :=
    (spawned.snoc (show step (.removeEntity 1) _ = _ from rfl)).snoc
      (show step (.flushDirty (.stored _)) _ = _ from rfl)
  refine ⟨_, _, removed, rfl, (replay_converges_iff removed).mpr ?_ [] _ rfl⟩
  refine ⟨?_, ?_, ?_, ?_, trivial⟩
  · -- the second flush: the crate is the only entity there was
    intro _ _ id _
    show ((AList.insert 1 (crate 1) ∅).erase 1).lookup id = none
    rw [Map.lookup_erase_of, Map.lookup_insert_of]
    by_cases hid : id = 1
    · rw [if_pos hid]
    · rw [if_neg hid, if_neg hid]
      rfl
  · intro _ h
    cases h
  · intro _ _ id h
    exact h.elim
  · intro _ h
    cases h

/-- A crate that is removed and spawned again before the next flush is lost: the manager has
it, the gateway does not. -/
theorem respawn_lost :
    ∃ (past : List (Done Float32)) (m : EntityManager Float32),
      Run step EntityManager.new past m ∧ ¬ Converged past := by
  obtain ⟨past, m, run, hcheck⟩ := exists_run step EntityManager.new
    [.spawnEntity (crate 1), .flushDirty (.stored _), .removeEntity 1, .spawnEntity (crate 1),
      .flushDirty (.stored _)]
    (fun past _ => ((replayed past).lookup 1).isNone && ((liveAtFlush past).lookup 1).isSome)
    (by decide +kernel)
  refine ⟨past, m, run, ?_⟩
  intro hconv
  rw [hconv 1, Bool.and_eq_true, Option.isNone_iff_eq_none] at hcheck
  rw [hcheck.1] at hcheck
  exact absurd hcheck.2 (by simp)

end EntityManager

end Baston.Zone

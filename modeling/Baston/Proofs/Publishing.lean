/-
Batches that fail to be published.

A tick that fails has already drained the queue, so what it would have told the gateway is
told only when the same entity changes again.  Until then the gateway is out of date about
it, unless the batch held nothing new.
-/
import Baston.Proofs.EntityLog
import Baston.Zone.EntityTasks

namespace Baston.Zone

open Assoc WriteLog Trace Baston.Gateway

variable {F : Type}

namespace Publishing

/-- One activity of a zone, with the batch it published. -/
abbrev Done (F : Type) := Entry (EntityManager F) (Activity F) (List (DirtyEntity F))

/-- The last tick that drained a change of the entity failed, and the entity's state was not
the one the gateway had. -/
def Missed (id : EntityId) : List (Done F) → Prop
  | [] => False
  | e :: past =>
    match e.op with
    | .mutate _ => Missed id past
    | .emit _ result =>
      if e.pre.dirtyQueue.lookup id = none then Missed id past
      else result ≠ .published ∧ (replayed past).lookup id ≠ e.pre.get id

/-- The tick drains something, and publishes it. -/
def Publishes (e : Done F) : Prop :=
  (∃ ord, e.op = .emit ord .published) ∧ ∃ id, e.pre.dirtyQueue.lookup id ≠ none

/-- The last tick that drained anything published it. -/
def Published : List (Done F) → Prop
  | [] => False
  | e :: past =>
    match e.op with
    | .mutate _ => Published past
    | .emit _ result =>
      ((∃ id, e.pre.dirtyQueue.lookup id ≠ none) → result = .published)
        ∧ ((∀ id, e.pre.dirtyQueue.lookup id = none) → Published past)

/-- A tick that publishes finds no entity live whose removal is pending, and everything that
was missed back in the queue. -/
def Repairs (past : List (Done F)) (e : Done F) : Prop :=
  Publishes e → ∀ id,
    (removalPending e.pre.dirtyQueue id = true → e.pre.get id = none)
      ∧ (e.pre.dirtyQueue.lookup id = none → ¬ Missed id past)

/-- The gateway's world is the manager's live entities. -/
def CaughtUp (past : List (Done F)) (m : EntityManager F) : Prop :=
  ∀ id, (replayed past).lookup id = m.get id

/-! ### What one activity does -/

variable {id : EntityId} {m m' : EntityManager F} {ord : IterOrder EntityId}

/-- A tick empties the queue and leaves the live entities alone. -/
theorem emitOnce_manager (result : PublishResult) :
    (emitOnce ord result m).1 = { m with dirtyQueue := ∅ } := by
  unfold emitOnce EntityManager.flushDirty
  simp only []
  split
  · rfl
  · cases result <;> rfl

/-- What the gateway holds after a tick. -/
theorem lookup_merge_emitOnce (hfiled : Filed m.dirtyQueue) (result : PublishResult)
    (world : WorldState F) (id : EntityId) :
    (mergeBatch world (emitOnce ord result m).2).lookup id
      = if result = .published then promised m.dirtyQueue id (world.lookup id)
        else world.lookup id := by
  rw [← lookup_merge_flush hfiled ord]
  unfold emitOnce
  by_cases hempty : (m.flushDirty ord).2.isEmpty = true
  · simp only [hempty, if_true]
    rw [List.isEmpty_iff.mp hempty]
    exact (ite_self _).symm
  · simp only [hempty]
    cases result <;> rfl

theorem promised_of_some {queue : Map EntityId (DirtyEntity F)} {d : DirtyEntity F}
    (h : queue.lookup id = some d) (v : Option (EntityState F)) :
    promised queue id v = d.image := by
  simp only [promised, overlay, h, Option.map_some, Option.getD_some]

theorem promised_of_none {queue : Map EntityId (DirtyEntity F)} (h : queue.lookup id = none)
    (v : Option (EntityState F)) : promised queue id v = v := by
  simp only [promised, overlay, h, Option.map_none, Option.getD_none]

theorem removalPending_of_some {queue : Map EntityId (DirtyEntity F)} {d : DirtyEntity F}
    (h : queue.lookup id = some d) : removalPending queue id = true ↔ d.image = none := by
  unfold removalPending DirtyEntity.image
  rw [h, Option.any_some]
  by_cases hdel : d.dirtyFields.contains .deleted
  · simp [hdel]
  · simp [hdel]

/-- Every delta in the queue is filed under its entity, and carries its live state or its
removal. -/
structure Queued (m : EntityManager F) : Prop where
  filed : Filed m.dirtyQueue
  fresh : ∀ id d, m.dirtyQueue.lookup id = some d →
    d.image = none ∨ d.image = m.entities.lookup id

theorem queued_emitOnce (result : PublishResult) : Queued (emitOnce ord result m).1 := by
  rw [emitOnce_manager]
  refine ⟨?_, ?_⟩
  · intro id d hd
    exact absurd hd (by simp)
  · intro id d hd
    exact absurd hd (by simp)

theorem Queued.perform [BEq F] (h : Queued m) {c : EntityManager.Call F}
    (hc : ∀ ord, c ≠ .flushDirty ord) : Queued (m.perform c).1 := by
  refine ⟨EntityManager.perform_filed h.filed c, ?_⟩
  rw [EntityManager.perform_eq_change]
  have hspec := EntityManager.change_spec c m
  generalize m.change c = r at hspec
  intro id d hd
  cases hspec with
  | quiet hlive hqueue _ _ =>
      simp only [EntityManager.finish] at hd ⊢
      rw [hlive]
      exact h.fresh id d (by rw [← hqueue]; exact hd)
  | @stored _ id' flags state hflags _ _ =>
      change (EntityManager.markDirty id' flags state m.dirtyQueue).lookup id = some d at hd
      show d.image = none ∨ d.image = (m.entities.insert id' state).lookup id
      by_cases hid : id = id'
      · subst hid
        have himage : promised (EntityManager.markDirty id flags state m.dirtyQueue) id none
            = if removalPending m.dirtyQueue id then none else some state :=
          EntityManager.markDirty_promised hflags none
        rw [promised_of_some hd] at himage
        rw [AList.lookup_insert]
        by_cases hpending : removalPending m.dirtyQueue id = true
        · rw [if_pos hpending] at himage
          exact .inl himage
        · rw [if_neg hpending] at himage
          exact .inr himage
      · rw [EntityManager.markDirty_lookup_ne hid] at hd
        rw [AList.lookup_insert_ne hid]
        exact h.fresh id d hd
  | @removed id' state _ =>
      change (EntityManager.markDeleted id' state m.dirtyQueue).lookup id = some d at hd
      show d.image = none ∨ d.image = (m.entities.erase id').lookup id
      by_cases hid : id = id'
      · subst hid
        have hpending :
            removalPending (EntityManager.markDeleted id state m.dirtyQueue) id = true := by
          rw [EntityManager.markDeleted_removalPending, if_pos rfl]
        exact .inl ((removalPending_of_some hd).mp hpending)
      · rw [EntityManager.markDeleted_lookup_ne hid] at hd
        rw [AList.lookup_erase_ne hid]
        exact h.fresh id d hd
  | @flushed ord => exact absurd rfl (hc ord)

theorem markDirty_lookup_ne_none {flags : DirtyFlags} {state : EntityState F}
    {queue : Map EntityId (DirtyEntity F)} :
    (EntityManager.markDirty id flags state queue).lookup id ≠ none := by
  unfold EntityManager.markDirty
  cases hq : queue.lookup id with
  | none => simp
  | some pending =>
      by_cases hdel : pending.dirtyFields.contains .deleted
      · simp [hdel, hq]
      · simp [hdel]

/-- A mutation publishes nothing, and an entity that is not queued after it is as it was. -/
theorem perform_idle [BEq F] {c : EntityManager.Call F} (hc : ∀ ord, c ≠ .flushDirty ord) :
    (m.perform c).2 = [] ∧ ∀ id, (m.perform c).1.dirtyQueue.lookup id = none →
      m.dirtyQueue.lookup id = none ∧ (m.perform c).1.get id = m.get id := by
  rw [EntityManager.perform_eq_change]
  have hspec := EntityManager.change_spec c m
  generalize m.change c = r at hspec
  cases hspec with
  | quiet hlive hqueue _ _ =>
      refine ⟨rfl, ?_⟩
      intro id hnone
      simp only [EntityManager.finish] at hnone ⊢
      exact ⟨by rw [← hqueue]; exact hnone, hlive id⟩
  | @stored _ id' flags state hflags _ _ =>
      refine ⟨rfl, ?_⟩
      intro id hnone
      change (EntityManager.markDirty id' flags state m.dirtyQueue).lookup id = none at hnone
      have hid : id ≠ id' := by
        rintro rfl
        exact markDirty_lookup_ne_none hnone
      rw [EntityManager.markDirty_lookup_ne hid] at hnone
      exact ⟨hnone, AList.lookup_insert_ne hid⟩
  | @removed id' state _ =>
      refine ⟨rfl, ?_⟩
      intro id hnone
      change (EntityManager.markDeleted id' state m.dirtyQueue).lookup id = none at hnone
      have hid : id ≠ id' := by
        rintro rfl
        rw [EntityManager.markDeleted, AList.lookup_insert] at hnone
        cases hnone
      rw [EntityManager.markDeleted_lookup_ne hid] at hnone
      exact ⟨hnone, AList.lookup_erase_ne hid⟩
  | @flushed ord => exact absurd rfl (hc ord)

/-! ### Runs -/

/-- What is known of a run: an entity that is not queued was missed exactly when the gateway
does not have its live state. -/
structure Tracked (past : List (Done F)) (m : EntityManager F) : Prop where
  queued : Queued m
  missed : Along Repairs past → ∀ id, m.dirtyQueue.lookup id = none →
    (Missed id past ↔ (replayed past).lookup id ≠ m.get id)

/-- The gateway after a tick, entity by entity. -/
theorem lookup_replayed_emit (h : Queued m) (result : PublishResult) (past : List (Done F))
    (id : EntityId) :
    (replayed (⟨m, .emit ord result, (emitOnce ord result m).2, (emitOnce ord result m).1⟩
        :: past)).lookup id
      = if result = .published then promised m.dirtyQueue id ((replayed past).lookup id)
        else (replayed past).lookup id := by
  rw [replayed_cons]
  exact lookup_merge_emitOnce h.filed result _ id

theorem Tracked.emit {past : List (Done F)} (h : Tracked past m) (result : PublishResult) :
    Tracked (⟨m, .emit ord result, (emitOnce ord result m).2, (emitOnce ord result m).1⟩ :: past)
      (emitOnce ord result m).1 := by
  refine ⟨queued_emitOnce result, ?_⟩
  rintro ⟨hrepairs, hpast⟩ id -
  have hworld : (replayed (⟨m, .emit ord result, (emitOnce ord result m).2,
      (emitOnce ord result m).1⟩ :: past)).lookup id = _ :=
    lookup_replayed_emit h.queued result past id
  have hget : (emitOnce ord result m).1.get id = m.get id := by
    rw [emitOnce_manager]
    rfl
  rw [hworld, hget]
  show (if m.dirtyQueue.lookup id = none then Missed id past
    else result ≠ .published ∧ (replayed past).lookup id ≠ m.get id) ↔ _
  cases hd : m.dirtyQueue.lookup id with
  | none =>
      rw [if_pos rfl, promised_of_none hd, ite_self]
      exact h.missed hpast id hd
  | some d =>
      rw [if_neg (by simp)]
      by_cases hresult : result = .published
      · rw [if_pos hresult, promised_of_some hd]
        have hlive : d.image = m.get id := by
          rcases h.queued.fresh id d hd with hnone | hlive
          · have hpublishes : Publishes (⟨m, .emit ord result, (emitOnce ord result m).2,
                (emitOnce ord result m).1⟩ : Done F) :=
              ⟨⟨ord, by rw [hresult]⟩, id, by simp [hd]⟩
            rw [hnone]
            exact ((hrepairs hpublishes id).1 ((removalPending_of_some hd).mpr hnone)).symm
          · exact hlive
        exact ⟨fun hmissed => absurd hresult hmissed.1, fun hne => absurd hlive hne⟩
      · rw [if_neg hresult]
        exact ⟨fun hmissed => hmissed.2, fun hne => ⟨hresult, hne⟩⟩

theorem Tracked.mutate [BEq F] {past : List (Done F)} (h : Tracked past m)
    {c : EntityManager.Call F} (hc : ∀ ord, c ≠ .flushDirty ord) :
    Tracked (⟨m, .mutate c, (m.perform c).2, (m.perform c).1⟩ :: past) (m.perform c).1 := by
  obtain ⟨hanswer, hidle⟩ := perform_idle (m := m) hc
  refine ⟨h.queued.perform hc, ?_⟩
  rintro ⟨-, hpast⟩ id hnone
  obtain ⟨hbefore, hget⟩ := hidle id hnone
  rw [replayed_cons, hanswer, hget]
  exact h.missed hpast id hbefore

/-- An activity is a mutation that is not a flush, or a tick. -/
theorem step_cases [BEq F] {op : Activity F} {a : List (DirtyEntity F)}
    (h : op.step m = some (m', a)) :
    (∃ c : EntityManager.Call F, (∀ ord, c ≠ .flushDirty ord) ∧ op = .mutate c
        ∧ m' = (m.perform c).1 ∧ a = (m.perform c).2)
      ∨ ∃ ord result, op = .emit ord result ∧ m' = (emitOnce ord result m).1
        ∧ a = (emitOnce ord result m).2 := by
  cases op with
  | mutate c =>
      have hc : ∀ ord, c ≠ .flushDirty ord := by
        rintro ord rfl
        cases h
      have heq : m.perform c = (m', a) := by
        cases c with
        | flushDirty ord => exact absurd rfl (hc ord)
        | _ => exact Option.some.inj h
      exact .inl ⟨c, hc, rfl, congrArg Prod.fst heq.symm, congrArg Prod.snd heq.symm⟩
  | emit ord result =>
      have heq := Option.some.inj h
      exact .inr ⟨ord, result, rfl, congrArg Prod.fst heq.symm, congrArg Prod.snd heq.symm⟩

theorem run_tracked [BEq F] {past : List (Done F)}
    (run : Run Activity.step EntityManager.new past m) : Tracked past m := by
  induction run with
  | nil =>
      refine ⟨⟨?_, ?_⟩, ?_⟩
      · intro id d hd
        exact absurd hd (by simp [EntityManager.new])
      · intro id d hd
        exact absurd hd (by simp [EntityManager.new])
      · intro _ id _
        simp [Missed, replayed, batches, mergeBatches, EntityManager.new, EntityManager.get]
  | snoc run h ih =>
      rcases step_cases h with ⟨c, hc, rfl, rfl, rfl⟩ | ⟨ord, result, rfl, rfl, rfl⟩
      · exact ih.mutate hc
      · exact ih.emit result

/-- Once everything was repaired, nothing is missed after a tick that published. -/
theorem not_missed_of_published : ∀ {past : List (Done F)}, Along Repairs past →
    Published past → ∀ id, ¬ Missed id past := by
  intro past
  induction past with
  | nil =>
      intro _ h
      exact h.elim
  | cons e past ih =>
      rintro ⟨hrepairs, hpast⟩ hpublished id
      obtain ⟨m, op, a, m'⟩ := e
      cases op with
      | mutate c => exact ih hpast hpublished id
      | emit ord result =>
          obtain ⟨hsome, hnone⟩ := hpublished
          show ¬ if m.dirtyQueue.lookup id = none then Missed id past
            else result ≠ .published ∧ (replayed past).lookup id ≠ m.get id
          by_cases hdrains : ∃ k, m.dirtyQueue.lookup k ≠ none
          · have hresult := hsome hdrains
            by_cases hid : m.dirtyQueue.lookup id = none
            · rw [if_pos hid]
              exact (hrepairs ⟨⟨ord, by rw [hresult]⟩, hdrains⟩ id).2 hid
            · rw [if_neg hid]
              exact fun hmissed => hmissed.1 hresult
          · have hempty : ∀ k, m.dirtyQueue.lookup k = none := by
              intro k
              by_contra hk
              exact hdrains ⟨k, hk⟩
            rw [if_pos (hempty id)]
            exact ih hpast (hnone hempty) id

/-- A tick that leaves the gateway caught up repaired whatever was missed. -/
theorem repairs_of_caughtUp {past : List (Done F)} (h : Tracked past m)
    (hpast : Along Repairs past) (result : PublishResult)
    (hcaught : result = .published → (∃ id, m.dirtyQueue.lookup id ≠ none) → CaughtUp
      (⟨m, .emit ord result, (emitOnce ord result m).2, (emitOnce ord result m).1⟩ :: past)
      (emitOnce ord result m).1) :
    Repairs past ⟨m, .emit ord result, (emitOnce ord result m).2, (emitOnce ord result m).1⟩ := by
  rintro ⟨⟨ord', hop⟩, hdrains⟩ id
  obtain ⟨-, rfl⟩ := Activity.emit.inj hop
  have heq := hcaught rfl hdrains id
  have hget : (emitOnce ord .published m).1.get id = m.get id := by
    rw [emitOnce_manager]
    rfl
  rw [lookup_replayed_emit h.queued .published past id, if_pos rfl, hget] at heq
  refine ⟨?_, ?_⟩
  · intro hpending
    rw [← heq]
    exact promised_of_removalPending hpending _
  · intro hnone hmissed
    rw [promised_of_none hnone] at heq
    exact (h.missed hpast id hnone).mp hmissed heq

/-- **A failed tick loses nothing exactly when a later tick repairs it**: at every moment after
a tick that published, with nothing pending, the gateway has the live entities, precisely when
each tick that publishes finds everything missed back in the queue and no entity live whose
removal is pending. -/
theorem publish_converges_iff [BEq F] {past : List (Done F)}
    (run : Run Activity.step EntityManager.new past m) :
    (∀ later before m', past = later ++ before → Run Activity.step EntityManager.new before m' →
        Published before → (∀ id, m'.dirtyQueue.lookup id = none) → CaughtUp before m')
      ↔ Along Repairs past := by
  refine Run.always_iff_along
    (I := fun past (m : EntityManager F) =>
      Published past → (∀ id, m.dirtyQueue.lookup id = none) → CaughtUp past m) ?_ ?_ run
  · intro past m run hrepairs hpublished hidle id
    by_contra hne
    exact not_missed_of_published hrepairs hpublished id
      (((run_tracked run).missed hrepairs id (hidle id)).mpr hne)
  · intro past m op a m' run hpast h hnow
    rcases step_cases h with ⟨c, hc, rfl, rfl, rfl⟩ | ⟨ord, result, rfl, rfl, rfl⟩
    · rintro ⟨⟨ord, hop⟩, -⟩
      cases hop
    · refine repairs_of_caughtUp (run_tracked run) hpast result ?_
      rintro rfl ⟨id, hdrains⟩
      refine hnow ⟨fun _ => rfl, fun hempty => absurd (hempty id) hdrains⟩ ?_
      intro k
      rw [emitOnce_manager]
      rfl

/-! ### A crate and a failed tick -/

/-- A crate whose spawn fails to be published, and which changes hands before the next tick. -/
def repaired : List (Activity Float32) :=
  [.mutate (.spawnEntity (EntityManager.crate 1)), .emit (.stored _) .publishFailed,
    .mutate (.setNetworkOwner 1 (some 2)), .emit (.stored _) .published]

/-- The gateway gets the crate with the tick after the failed one. -/
theorem repaired_converges :
    ∃ (past : List (Done Float32)) (m : EntityManager Float32),
      Run Activity.step EntityManager.new past m ∧ past.length = 4 ∧ CaughtUp past m := by
  have run := run_of_ops Activity.step EntityManager.new repaired rfl
  have hfails : ∀ past (e : Done Float32) ord, e.op = .emit ord .publishFailed →
      Repairs past e := by
    rintro past e ord hop ⟨⟨ord', hop'⟩, -⟩
    cases hop.symm.trans hop'
  have hmutates : ∀ past (e : Done Float32) c, e.op = .mutate c → Repairs past e := by
    rintro past e c hop ⟨⟨ord', hop'⟩, -⟩
    cases hop.symm.trans hop'
  refine ⟨_, _, run, rfl, (publish_converges_iff run).mpr ?_ [] _ _ rfl run ?_ fun _ => rfl⟩
  · refine ⟨?_, hmutates _ _ _ rfl, hfails _ _ _ rfl, hmutates _ _ _ rfl, trivial⟩
    rintro - id
    by_cases hid : id = 1
    · subst hid
      exact ⟨fun h => absurd h (by decide), fun h => nomatch h⟩
    · -- no other entity was ever queued
      let empty : Map EntityId (DirtyEntity Float32) := ∅
      have hqueue : ∀ d, (empty.insert 1 d).lookup id = none :=
        fun d => AList.lookup_insert_ne hid
      refine ⟨?_, ?_⟩
      · intro h
        have hpending : ((empty.insert 1 _).lookup id).any
            (fun d => d.dirtyFields.contains .deleted) = true := h
        rw [hqueue] at hpending
        cases hpending
      · rintro - hmissed
        have hearlier : if (empty.insert 1 _).lookup id = none then False else _ := hmissed
        rw [if_pos (hqueue _)] at hearlier
        exact hearlier
  · exact ⟨fun _ => rfl, fun hempty => nomatch hempty 1⟩

/-- A crate whose removal is drained by a tick that fails. -/
def lostRemoval : List (Activity Float32) :=
  [.mutate (.spawnEntity (EntityManager.crate 1)), .emit (.stored _) .published,
    .mutate (.removeEntity 1), .emit (.stored _) .publishFailed,
    .mutate (.spawnEntity (EntityManager.crate 2)), .emit (.stored _) .published]

/-- **A removal drained by a failed tick is never told**: the gateway keeps the crate, though a
later tick publishes and nothing is pending. -/
theorem lost_removal_stays :
    ¬ ∀ (past : List (Done Float32)) (m : EntityManager Float32),
      Run Activity.step EntityManager.new past m → Published past →
        (∀ id, m.dirtyQueue.lookup id = none) → CaughtUp past m := by
  intro h
  have run := run_of_ops Activity.step EntityManager.new lostRemoval rfl
  have hcaught := h _ _ run ⟨fun _ => rfl, fun hempty => nomatch hempty 2⟩ (fun _ => rfl) 1
  have hkept : some (EntityManager.crate 1) = none := hcaught
  cases hkept

end Publishing

end Baston.Zone

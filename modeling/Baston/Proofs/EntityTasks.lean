/-
Tasks that share an entity manager.

Between the two steps of a mutation the map and the queue disagree about its entity, so
being in step is only asked of an entity whose newest change has been recorded.  An older
snapshot does no harm as long as the newest one is still to come, or as long as the queue
turns it away.
-/
import Baston.Proofs.EntityLog

namespace Baston.Zone

open Assoc WriteLog Trace Baston.Gateway

variable {F : Type}

/-! ### Marks -/

namespace Mark

/-- What a mark says of its entity. -/
def image : Mark F → Option (EntityState F)
  | .dirty _ _ state => some state
  | .deleted _ _ => none

/-- The flags of a mark say deleted only on a removal. -/
def Sane : Mark F → Prop
  | .dirty _ flags _ => flags.getLsbD 7 = false
  | .deleted _ _ => True

theorem record_lookup_ne (mark : Mark F) (m : EntityManager F) {k : EntityId} (hk : k ≠ mark.id) :
    (mark.record m).dirtyQueue.lookup k = m.dirtyQueue.lookup k := by
  cases mark with
  | dirty id flags state => exact EntityManager.markDirty_lookup_ne hk
  | deleted id state => exact EntityManager.markDeleted_lookup_ne hk

theorem record_filed (mark : Mark F) {m : EntityManager F} (h : Filed m.dirtyQueue) :
    Filed (mark.record m).dirtyQueue := by
  cases mark with
  | dirty id flags state => exact EntityManager.markDirty_filed h
  | deleted id state => exact EntityManager.markDeleted_filed h

@[simp] theorem record_entities (mark : Mark F) (m : EntityManager F) :
    (mark.record m).entities = m.entities := by
  cases mark <;> rfl

/-- A mark that is not turned away promises what it says. -/
theorem record_promised {mark : Mark F} (hsane : mark.Sane) {m : EntityManager F}
    (hfree : mark.isDeleted = false → removalPending m.dirtyQueue mark.id = false)
    (v : Option (EntityState F)) :
    promised (mark.record m).dirtyQueue mark.id v = mark.image := by
  cases mark with
  | dirty id flags state =>
      have h : promised (EntityManager.markDirty id flags state m.dirtyQueue) id v = _ :=
        EntityManager.markDirty_promised hsane v
      rw [show removalPending m.dirtyQueue id = false from hfree rfl] at h
      exact h
  | deleted id state =>
      refine promised_of_removalPending ?_ v
      show removalPending (EntityManager.markDeleted id state m.dirtyQueue) id = true
      rw [EntityManager.markDeleted_removalPending, if_pos rfl]

/-- A pending removal turns a snapshot away. -/
theorem record_refused {mark : Mark F} (hsane : mark.Sane) {m : EntityManager F}
    (hdirty : mark.isDeleted = false) (hpending : removalPending m.dirtyQueue mark.id = true)
    (v : Option (EntityState F)) :
    promised (mark.record m).dirtyQueue mark.id v = promised m.dirtyQueue mark.id v := by
  rw [promised_of_removalPending hpending]
  cases mark with
  | dirty id flags state =>
      have h : promised (EntityManager.markDirty id flags state m.dirtyQueue) id v = _ :=
        EntityManager.markDirty_promised hsane v
      rw [show removalPending m.dirtyQueue id = true from hpending] at h
      exact h
  | deleted id state => exact absurd hdirty (by simp [isDeleted])

end Mark

/-! ### The order of the marks -/

namespace SharedManager

abbrev Done (F : Type) := Entry (SharedManager F) (Move F) (List (DirtyEntity F))

/-- The task that made the newest change of the entity, as long as it has not recorded it. -/
def awaiting (id : EntityId) : List (Done F) → Option Nat
  | [] => none
  | e :: past =>
    match e.op with
    | .call task _ =>
      if (e.post.outstanding.lookup task).any (fun mark => mark.id = id) then some task
      else awaiting id past
    | .mark task => if awaiting id past = some task then none else awaiting id past

/-- A mark is orderly when it does not undo a newer one: the newest change of its entity is
still to be recorded, or the queue turns the mark away.  The newest change itself must not be
turned away. -/
def orderly (past : List (Done F)) (e : Done F) : Bool :=
  match e.op with
  | .call _ _ => true
  | .mark task =>
    match e.pre.outstanding.lookup task with
    | none => true
    | some mark =>
      let pending := removalPending e.pre.manager.dirtyQueue mark.id
      match awaiting mark.id past with
      | some newest => newest ≠ task || mark.isDeleted || !pending
      | none => !mark.isDeleted && pending

/-- An entity whose newest change is recorded is in step; that of any other is held by a task
that will record its live state. -/
structure Consistent (past : List (Done F)) (s : SharedManager F) : Prop where
  filed : Filed s.manager.dirtyQueue
  sane : ∀ t mark, s.outstanding.lookup t = some mark → mark.Sane
  held : ∀ id t, awaiting id past = some t → ∃ mark, s.outstanding.lookup t = some mark
    ∧ mark.id = id ∧ mark.image = s.manager.entities.lookup id
  settled : ∀ id, awaiting id past = none →
    s.manager.InStep id ((replayed past).lookup id)

namespace Consistent

variable {past : List (Done F)} {s : SharedManager F}

theorem init : Consistent [] ({} : SharedManager F) where
  filed := by
    intro id d hd
    exact absurd hd (by simp [EntityManager.new])
  sane := by
    intro t mark h
    exact absurd h (by simp)
  held := by
    intro id t h
    exact absurd h (by simp [awaiting])
  settled := by
    intro id _
    simp [EntityManager.InStep, EntityManager.new, replayed, batches, mergeBatches]

/-- A task that has nothing to record is not the one that is waited for. -/
theorem ne_of_idle (h : Consistent past s) {t u : Nat} (hidle : s.outstanding.lookup t = none)
    {id : EntityId} (hu : awaiting id past = some u) : u ≠ t := by
  rintro rfl
  obtain ⟨mark, hmark, -⟩ := h.held id u hu
  rw [hidle] at hmark
  cases hmark

/-- A change of one entity: its task is now waited for, and nothing else is different. -/
theorem changed (h : Consistent past s) {t : Nat} (hidle : s.outstanding.lookup t = none)
    {c : EntityManager.Call F} {mark : Mark F} (hsane : mark.Sane)
    {entities : Map EntityId (EntityState F)} (himage : entities.lookup mark.id = mark.image)
    (hframe : ∀ k, k ≠ mark.id → entities.lookup k = s.manager.entities.lookup k)
    {s' : SharedManager F}
    (hs' : s' = ⟨{ s.manager with entities := entities }, s.outstanding.insert t mark⟩) :
    Consistent (⟨s, .call t c, [], s'⟩ :: past) s' := by
  subst hs'
  have hawait : ∀ k, awaiting k (⟨s, .call t c, [],
      ⟨{ s.manager with entities := entities }, s.outstanding.insert t mark⟩⟩ :: past)
      = if mark.id = k then some t else awaiting k past := by
    intro k
    simp [awaiting]
  refine ⟨h.filed, ?_, ?_, ?_⟩
  · intro u mark' hu
    rw [Map.lookup_insert_of] at hu
    by_cases hut : u = t
    · rw [if_pos hut] at hu
      rw [← Option.some.inj hu]
      exact hsane
    · rw [if_neg hut] at hu
      exact h.sane u mark' hu
  · intro k u hu
    rw [hawait] at hu
    by_cases hk : mark.id = k
    · subst hk
      rw [if_pos rfl] at hu
      obtain rfl := Option.some.inj hu
      exact ⟨mark, by simp, rfl, himage.symm⟩
    · rw [if_neg hk] at hu
      obtain ⟨mark', hmark', hid, hlive⟩ := h.held k u hu
      refine ⟨mark', ?_, hid, ?_⟩
      · rw [Map.lookup_insert_of, if_neg (h.ne_of_idle hidle hu)]
        exact hmark'
      · rw [hlive, hframe k (fun hkm => hk hkm.symm)]
  · intro k hk
    rw [hawait] at hk
    by_cases hkm : mark.id = k
    · rw [if_pos hkm] at hk
      cases hk
    · rw [if_neg hkm] at hk
      rw [replayed_cons]
      have hstep := h.settled k hk
      unfold EntityManager.InStep at hstep ⊢
      rw [hframe k (fun hk' => hkm hk'.symm)]
      exact hstep

/-- A step of a task that changes no entity leaves everything as it is. -/
theorem unchanged (h : Consistent past s) {t : Nat} (hidle : s.outstanding.lookup t = none)
    {c : EntityManager.Call F} {batch : List (DirtyEntity F)} {m' : EntityManager F}
    (hfiled : Filed m'.dirtyQueue)
    (hlive : ∀ k, m'.entities.lookup k = s.manager.entities.lookup k)
    (hstep : ∀ k, s.manager.InStep k ((replayed past).lookup k) →
      m'.InStep k ((mergeBatch (replayed past) batch).lookup k)) :
    Consistent (⟨s, .call t c, batch, ⟨m', s.outstanding⟩⟩ :: past) ⟨m', s.outstanding⟩ := by
  have hawait : ∀ k, awaiting k (⟨s, .call t c, batch, ⟨m', s.outstanding⟩⟩ :: past)
      = awaiting k past := by
    intro k
    simp [awaiting, hidle]
  refine ⟨hfiled, h.sane, ?_, ?_⟩
  · intro k u hu
    rw [hawait] at hu
    obtain ⟨mark, hmark, hid, himage⟩ := h.held k u hu
    exact ⟨mark, hmark, hid, by rw [himage, hlive]⟩
  · intro k hk
    rw [hawait] at hk
    rw [replayed_cons]
    exact hstep k (h.settled k hk)

theorem call [BEq F] (h : Consistent past s) {t : Nat} {c : EntityManager.Call F}
    {s' : SharedManager F} {batch : List (DirtyEntity F)}
    (hstep : step (.call t c) s = some (s', batch)) :
    Consistent (⟨s, .call t c, batch, s'⟩ :: past) s' := by
  simp only [step] at hstep
  cases hidle : s.outstanding.lookup t with
  | some mark => simp [hidle] at hstep
  | none =>
      simp only [hidle] at hstep
      have hspec := EntityManager.change_spec c s.manager
      generalize s.manager.change c = r at hspec hstep
      cases hspec with
      | quiet hlive hqueue _ _ =>
          obtain ⟨rfl, rfl⟩ := Prod.mk.inj (Option.some.inj hstep)
          refine h.unchanged hidle (by rw [hqueue]; exact h.filed) hlive ?_
          intro k hk
          unfold EntityManager.InStep at hk ⊢
          rw [hqueue, hlive]
          exact hk
      | @stored _ id flags state hflags _ _ =>
          obtain ⟨rfl, rfl⟩ := Prod.mk.inj (Option.some.inj hstep)
          refine h.changed hidle (show (Mark.dirty id flags state).Sane from hflags)
            (AList.lookup_insert _) ?_ rfl
          intro k hk
          exact AList.lookup_insert_ne hk
      | @removed id state _ =>
          obtain ⟨rfl, rfl⟩ := Prod.mk.inj (Option.some.inj hstep)
          refine h.changed hidle (show (Mark.deleted id state).Sane from trivial)
            (AList.lookup_erase _ _) ?_ rfl
          intro k hk
          exact AList.lookup_erase_ne hk
      | @flushed ord =>
          obtain ⟨rfl, rfl⟩ := Prod.mk.inj (Option.some.inj hstep)
          refine h.unchanged hidle ?_ (fun _ => rfl) ?_
          · intro k d hd
            exact absurd hd (by simp [EntityManager.flushDirty])
          · intro k hk
            refine EntityManager.perform_inStep h.filed (.flushDirty ord) ?_ hk
            rintro ⟨-, state, hc, -⟩
            cases hc

theorem mark (h : Consistent past s) {t : Nat} {s' : SharedManager F}
    {batch : List (DirtyEntity F)} [BEq F] (hstep : step (.mark t) s = some (s', batch))
    (horder : orderly past ⟨s, .mark t, batch, s'⟩ = true) :
    Consistent (⟨s, .mark t, batch, s'⟩ :: past) s' := by
  simp only [step] at hstep
  cases hmark : s.outstanding.lookup t with
  | none => simp [hmark] at hstep
  | some mark =>
      simp only [hmark, Option.some.injEq, Prod.mk.injEq] at hstep
      obtain ⟨rfl, rfl⟩ := hstep
      simp only [orderly, hmark] at horder
      have hsane := h.sane t mark hmark
      refine ⟨mark.record_filed h.filed, ?_, ?_, ?_⟩
      · intro u mark' hu
        rw [Map.lookup_erase_of] at hu
        by_cases hut : u = t
        · rw [if_pos hut] at hu
          cases hu
        · rw [if_neg hut] at hu
          exact h.sane u mark' hu
      · intro k u hu
        simp only [awaiting] at hu
        by_cases hkt : awaiting k past = some t
        · rw [if_pos hkt] at hu
          cases hu
        · rw [if_neg hkt] at hu
          obtain ⟨mark', hmark', hid, hlive⟩ := h.held k u hu
          have hut : u ≠ t := fun hut => hkt (by rw [hu, hut])
          refine ⟨mark', ?_, hid, by rw [Mark.record_entities]; exact hlive⟩
          rw [Map.lookup_erase_of, if_neg hut]
          exact hmark'
      · intro k hk
        simp only [awaiting] at hk
        rw [replayed_cons]
        unfold EntityManager.InStep
        rw [Mark.record_entities]
        show promised _ k ((replayed past).lookup k) = _
        by_cases hkt : awaiting k past = some t
        · -- the newest change of the entity is recorded now
          obtain ⟨mark', hmark', rfl, hlive⟩ := h.held k t hkt
          obtain rfl : mark' = mark := Option.some.inj (hmark'.symm.trans hmark)
          rw [← hlive]
          refine Mark.record_promised hsane ?_ _
          intro hdirty
          simpa [hkt, hdirty] using horder
        · rw [if_neg hkt] at hk
          have hbefore := h.settled k hk
          unfold EntityManager.InStep at hbefore
          by_cases hid : k = mark.id
          · -- an old snapshot of an entity that is gone: the queue turns it away
            subst hid
            simp only [hk, Bool.and_eq_true, Bool.not_eq_true'] at horder
            rw [Mark.record_refused hsane horder.1 horder.2]
            exact hbefore
          · rw [promised_congr (mark.record_lookup_ne s.manager hid)]
            exact hbefore

end Consistent

theorem consistent_of_run [BEq F] {past : List (Done F)} {s : SharedManager F}
    (run : Run step {} past s) (order : Along (fun before e => orderly before e = true) past) :
    Consistent past s := by
  refine run.invariant .init ?_ order
  intro past s move batch s' _ ih h horder
  cases move with
  | call t c => exact ih.call h
  | mark t => exact ih.mark h horder

/-- A flush that finds every task finished. -/
def finalFlush (e : Done F) : Bool :=
  match e.op with
  | .call _ (.flushDirty _) => e.pre.outstanding.keys.isEmpty
  | _ => false

theorem finalFlush_cases {e : Done F} (h : finalFlush e = true) :
    (∃ t ord, e.op = .call t (.flushDirty ord)) ∧ ∀ u, e.pre.outstanding.lookup u = none := by
  unfold finalFlush at h
  split at h
  · refine ⟨⟨_, _, ‹_›⟩, ?_⟩
    intro u
    rw [AList.lookup_eq_none, AList.mem_keys, List.isEmpty_iff.mp h]
    exact List.not_mem_nil
  · cases h

/-- **No update is lost and no removed entity comes back**, in any interleaving whose marks
are orderly: when every task has finished, the flush that follows leaves the gateway with
exactly the live entities. -/
theorem interleaved_world_eq_live [BEq F] {past : List (Done F)} {e : Done F}
    {s : SharedManager F} (run : Run step {} (e :: past) s)
    (order : Along (fun before e => orderly before e = true) past) (hlast : finalFlush e = true)
    (id : EntityId) : (replayed (e :: past)).lookup id = s.manager.get id := by
  obtain ⟨⟨t, ord, hop⟩, hidle⟩ := finalFlush_cases hlast
  cases run with
  | @snoc _ s₀ _ move batch run hstep =>
      simp only at hop hidle
      subst hop
      have h := consistent_of_run run order
      have hsettled : awaiting id past = none := by
        cases hawait : awaiting id past with
        | none => rfl
        | some u =>
            obtain ⟨mark, hmark, -⟩ := h.held id u hawait
            rw [hidle u] at hmark
            cases hmark
      simp only [step, hidle t, EntityManager.change, Option.some.injEq, Prod.mk.injEq] at hstep
      obtain ⟨rfl, rfl⟩ := hstep
      rw [replayed_cons, lookup_merge_flush h.filed]
      exact h.settled id hsettled

/-! ### Two tasks and a crate -/

/-- Turn the crate. -/
def turn (heading : Float32) : EntityManager.Call Float32 :=
  .updateEntity 1 { heading := some heading }

/-- Two tasks turn the crate, the second while the first has not recorded its heading, and
record in the order they turned it. -/
theorem interleaved_world_turned :
    ∃ (past : List (Done Float32)) (e : Done Float32) (s : SharedManager Float32),
      Run step {} (e :: past) s ∧ finalFlush e = true
        ∧ ∀ id, (replayed (e :: past)).lookup id = s.manager.get id := by
  obtain ⟨past, s, run, hcheck⟩ := exists_run step {}
    [.call 0 (.spawnEntity (EntityManager.crate 1)), .mark 0, .call 0 (turn 1.0),
      .call 1 (turn 2.0), .mark 0, .mark 1, .call 0 (.flushDirty (.stored _))]
    (fun past _ => match past with
      | [] => false
      | e :: past =>
        finalFlush e && decide (Along (fun before e => orderly before e = true) past))
    (by decide +kernel)
  cases past with
  | nil => cases hcheck
  | cons e past =>
      rw [Bool.and_eq_true, decide_eq_true_eq] at hcheck
      exact ⟨past, e, s, run, hcheck.1, interleaved_world_eq_live run hcheck.2 hcheck.1⟩

/-- Two tasks turn the crate, and the one that turned it first records its heading last: the
gateway is left with the older heading. -/
theorem stale_mark_wins :
    ∃ (past : List (Done Float32)) (e : Done Float32) (s : SharedManager Float32),
      Run step {} (e :: past) s ∧ finalFlush e = true
        ∧ ∃ id, (replayed (e :: past)).lookup id ≠ s.manager.get id := by
  obtain ⟨past, s, run, hcheck⟩ := exists_run step {}
    [.call 0 (.spawnEntity (EntityManager.crate 1)), .mark 0, .call 0 (turn 1.0),
      .call 1 (turn 2.0), .mark 1, .mark 0, .call 0 (.flushDirty (.stored _))]
    (fun past s => match past with
      | [] => false
      | e :: past => finalFlush e
        && ((replayed (e :: past)).lookup 1).any (fun crate => crate.heading == 1.0)
        && (s.manager.get 1).any (fun crate => crate.heading != 1.0))
    (by decide +kernel)
  cases past with
  | nil => cases hcheck
  | cons e past =>
      rw [Bool.and_eq_true, Bool.and_eq_true] at hcheck
      obtain ⟨⟨hlast, hworld⟩, hlive⟩ := hcheck
      refine ⟨past, e, s, run, hlast, 1, ?_⟩
      intro heq
      rw [heq] at hworld
      obtain ⟨state, hstate, hone⟩ := (Option.any_eq_true _ _).mp hworld
      rw [hstate, Option.any_some, bne, hone] at hlive
      cases hlive

end SharedManager

end Baston.Zone

/-
What a step of the server does about one client and one entity.

The records a client is sent about an id carry out what the plan says about it, and a
repair acts on the entry of each id alone.  `EntryEffect` puts both together: what a step
can do to one entry, with the records it sends about it.  An entry that no tick takes for
up to date is pending, and stays so until something is sent.
-/
import Baston.Proofs.Views
import Baston.Rage.LiteralRun

namespace Baston.Zone

open Assoc Baston.Rage Trace

namespace ServerGameState

variable {F : Type} [Scalar F]

/-! ### The records about one id -/

omit [Scalar F] in
theorem cloneRecord_objectId {s : ServerGameState F} (h : Filed s) {view : ClientView F}
    {ty : UInt32} {id : UInt16} {r : OutboundRecord}
    (hr : cloneRecord s.entities s.frameIndex view ty id = some r) : r.objectId = id := by
  unfold cloneRecord at hr
  split at hr
  · exact absurd hr (by simp)
  · rename_i e he
    split at hr
    · exact absurd hr (by simp)
    · rw [← Option.some.inj hr]
      exact h.entity he

omit [Scalar F] in
/-- Records picked out by id come from the ids picked out. -/
theorem filter_cloneRecords {s : ServerGameState F} (h : Filed s) (view : ClientView F)
    (ty : UInt32) (id : UInt16) : ∀ ids : List UInt16,
    ((ids.filterMap (cloneRecord s.entities s.frameIndex view ty)).filter
        fun r => r.objectId = id)
      = (ids.filter (· = id)).filterMap (cloneRecord s.entities s.frameIndex view ty) := by
  intro ids
  induction ids with
  | nil => rfl
  | cons k rest ih =>
      rw [List.filterMap_cons, List.filter_cons]
      cases hr : cloneRecord s.entities s.frameIndex view ty k with
      | none =>
          simp only
          split
          · rw [List.filterMap_cons, hr, ih]
          · exact ih
      | some r =>
          have hk := cloneRecord_objectId h hr
          simp only [List.filter_cons, hk]
          split
          · rw [List.filterMap_cons, hr, ih]
          · exact ih

omit [Scalar F] in
/-- **The records about an id** carry out what the plan says about it, in order. -/
theorem records_about {s : ServerGameState F} (h : Filed s) (view : ClientView F)
    (plan : TickPlan) (id : UInt16) :
    (planRecords s.entities s.frameIndex view plan).filter (fun r => r.objectId = id)
      = (plan.about id).filterMap (actionRecord s.entities s.frameIndex view id) := by
  have each : ∀ {ty : UInt32} (act : Action),
      actionRecord s.entities s.frameIndex view id act
        = cloneRecord s.entities s.frameIndex view ty id → ∀ ids : List UInt16,
      (ids.filter (· = id)).filterMap (cloneRecord s.entities s.frameIndex view ty)
        = ((ids.filter (· = id)).map fun _ => act).filterMap
          (actionRecord s.entities s.frameIndex view id) := by
    intro ty act hact ids
    rw [List.filterMap_map]
    apply List.filterMap_congr
    intro k hk
    have hk' : k = id := by simpa using (List.mem_filter.mp hk).2
    rw [hk', Function.comp_apply, hact]
  unfold planRecords TickPlan.about
  rw [List.filter_append, List.filter_append, List.filterMap_append, List.filterMap_append,
    filter_cloneRecords h, filter_cloneRecords h, each .create rfl, each .sync rfl]
  congr 1
  rw [List.filterMap_map, List.filter_map]
  induction plan.removes with
  | nil => rfl
  | cons r rest ih =>
      by_cases hr : r.1 = id
      · simp [OutboundRecord.objectId, actionRecord, hr] at ih ⊢
        exact ih
      · simpa [List.filter_cons, OutboundRecord.objectId, hr] using ih

omit [Scalar F] in
/-- Only a planned remove is written as one. -/
theorem remove_mem_actionRecords {entities : Map UInt16 (ServerEntity F)} {frame : UInt64}
    {view : ClientView F} {id u : UInt16} {acts : List Action}
    (h : OutboundRecord.remove id u ∈ acts.filterMap (actionRecord entities frame view id)) :
    Action.remove u ∈ acts := by
  have clone : ∀ ty, cloneRecord entities frame view ty id ≠ some (.remove id u) := by
    intro ty heq
    unfold cloneRecord at heq
    split at heq
    · exact absurd heq (by simp)
    · split at heq
      · exact absurd heq (by simp)
      · exact absurd heq (by simp)
  obtain ⟨act, hact, heq⟩ := List.mem_filterMap.mp h
  cases act with
  | create => exact absurd heq (clone _)
  | sync => exact absurd heq (clone _)
  | remove u' =>
      simp only [actionRecord, Option.some.injEq, OutboundRecord.remove.injEq, true_and] at heq
      rw [← heq]
      exact hact

/-! ### Repairs, entry by entry -/

/-- What the ignore and recreate lists do to the entry of `id`. -/
def repairEntry (ignoreList : List IgnoreEntry) (recreateList : List UInt16) (id : UInt16)
    (v : EntityView F) : EntityView F :=
  if id ∈ recreateList then { v with created := false, baseFrame := 0 }
  else
    { v with
      baseFrame := ((ignoreList.filter (·.objectId = id)).map (·.lastFrame)).foldl min
        v.baseFrame }

/-- What a NACK does to the entry of `id`. -/
def nackEntry (n : GameStateNAck) (id : UInt16) (v : EntityView F) : EntityView F :=
  repairEntry n.ignoreList n.recreateList id
    { v with
      baseFrame :=
        match n.missingFrames with
        | some (first, _) => min v.baseFrame (frameBefore first)
        | none => v.baseFrame }

omit [Scalar F] in
theorem lookup_ignore (id : UInt16) : ∀ (l : List IgnoreEntry) (view : ClientView F),
    (l.foldl (fun view entry => view.rollback entry.objectId entry.lastFrame false)
        view).views.lookup id
      = (view.views.lookup id).map fun v => { v with
          baseFrame := ((l.filter (·.objectId = id)).map (·.lastFrame)).foldl min v.baseFrame } := by
  intro l
  induction l with
  | nil =>
      intro view
      simp
  | cons entry rest ih =>
      intro view
      rw [List.foldl_cons, ih]
      unfold ClientView.rollback
      rw [Map.lookup_modify, List.filter_cons]
      by_cases h : id = entry.objectId
      · rw [if_pos h, if_pos (by simp [h]), Option.map_map]
        congr 1
        funext v
        simp
      · rw [if_neg h, if_neg (by simpa using fun heq => h heq.symm)]

omit [Scalar F] in
theorem lookup_recreate (id : UInt16) : ∀ (l : List UInt16) (view : ClientView F),
    (l.foldl (fun view objectId => view.forceRecreate objectId) view).views.lookup id
      = (view.views.lookup id).map fun v =>
          if id ∈ l then { v with created := false, baseFrame := 0 } else v := by
  intro l
  induction l with
  | nil =>
      intro view
      simp
  | cons k rest ih =>
      intro view
      rw [List.foldl_cons, ih]
      unfold ClientView.forceRecreate
      rw [Map.lookup_modify]
      by_cases h : id = k
      · rw [if_pos h, Option.map_map]
        congr 1
        funext v
        simp [h]
      · rw [if_neg h]
        simp [h]

omit [Scalar F] in
theorem lookup_repair (view : ClientView F) (ignoreList : List IgnoreEntry)
    (recreateList : List UInt16) (id : UInt16) :
    (repair view ignoreList recreateList).views.lookup id
      = (view.views.lookup id).map (repairEntry ignoreList recreateList id) := by
  unfold repair
  simp only
  rw [lookup_recreate, lookup_ignore, Option.map_map]
  congr 1

omit [Scalar F] in
theorem lookup_nackView (n : GameStateNAck) (view : ClientView F) (id : UInt16) :
    (nackView n view).views.lookup id = (view.views.lookup id).map (nackEntry n id) := by
  unfold nackView
  simp only
  rw [lookup_repair]
  cases hm : n.missingFrames with
  | none =>
      congr 1
      funext v
      simp only [nackEntry, hm]
  | some range =>
      unfold ClientView.rollbackAll
      rw [Map.lookup_mapVals, Option.map_map]
      congr 1
      funext v
      simp only [nackEntry, hm, Function.comp_apply]

omit [Scalar F] in
theorem repairEntry_uniqifier (ignoreList : List IgnoreEntry) (recreateList : List UInt16)
    (id : UInt16) (v : EntityView F) :
    (repairEntry ignoreList recreateList id v).uniqifier = v.uniqifier := by
  unfold repairEntry
  split
  · rfl
  · rfl

omit [Scalar F] in
/-- A repair creates nothing. -/
theorem repairEntry_created {ignoreList : List IgnoreEntry} {recreateList : List UInt16}
    {id : UInt16} {v : EntityView F} (h : v.created = false) :
    (repairEntry ignoreList recreateList id v).created = false := by
  unfold repairEntry
  split
  · rfl
  · exact h

theorem min_lt_iff_or (a b k : UInt64) : min a b < k ↔ a < k ∨ b < k := by
  show (if a ≤ b then a else b) < k ↔ _
  simp only [UInt64.lt_iff_toNat_lt, UInt64.le_iff_toNat_le]
  split
  · omega
  · omega

theorem foldl_min_lt : ∀ (l : List UInt64) (b k : UInt64),
    l.foldl min b < k ↔ b < k ∨ ∃ f ∈ l, f < k := by
  intro l
  induction l with
  | nil =>
      intro b k
      simp
  | cons f rest ih =>
      intro b k
      rw [List.foldl_cons, ih, min_lt_iff_or]
      simp [or_assoc]

omit [Scalar F] in
/-- A repair only moves entries back. -/
theorem repairEntry_back {ignoreList : List IgnoreEntry} {recreateList : List UInt16}
    {id : UInt16} {v : EntityView F}
    (hc : (repairEntry ignoreList recreateList id v).created = true) :
    v.created = true ∧ ∀ f, v.baseFrame < f →
      (repairEntry ignoreList recreateList id v).baseFrame < f := by
  unfold repairEntry at hc ⊢
  split at hc
  · exact absurd hc (by simp)
  · rename_i hmem
    rw [if_neg hmem]
    exact ⟨hc, fun f hf => (foldl_min_lt _ _ _).mpr (.inl hf)⟩

omit [Scalar F] in
theorem nackEntry_back {n : GameStateNAck} {id : UInt16} {v : EntityView F}
    (hc : (nackEntry n id v).created = true) :
    v.created = true ∧ ∀ f, v.baseFrame < f → (nackEntry n id v).baseFrame < f := by
  obtain ⟨hcreated, hback⟩ := repairEntry_back hc
  refine ⟨hcreated, fun f hf => hback f ?_⟩
  cases n.missingFrames with
  | none => exact hf
  | some range => exact (min_lt_iff_or _ _ _).mpr (.inl hf)

/-! ### One step, one client, one id -/

/-- What a step can do to the entry of `id` in the view of `c`, and the records it sends `c`
about `id`. -/
inductive EntryEffect (s : ServerGameState F) (op : Op F) (c : UInt32) (id : UInt16) :
    Option (EntityView F) → List OutboundRecord → Option (EntityView F) → Prop
  | same {v : Option (EntityView F)} (idle : s.viewOf c = none ∨ s.tickOf op c = none) :
      EntryEffect s op c id v [] v
  | left {v : Option (EntityView F)} {ord : IterOrder UInt16} (hop : op = .removeClient ord c) :
      EntryEffect s op c id v [] none
  | ticked {view : ClientView F} {ctx : TickContext F} {acts : List Action}
      {v v' : Option (EntityView F)} (hview : s.viewOf c = some view)
      (tick : s.tickOf op c = some ctx)
      (effect : view.TickEffect ctx id v (view.relevant ctx id) acts v') :
      EntryEffect s op c id v
        (acts.filterMap (actionRecord s.entities s.frameIndex (view.tickWithContext ctx).1 id)) v'
  | nacked {n : GameStateNAck} {v : Option (EntityView F)} (hop : op = .nack c n) :
      EntryEffect s op c id v [] (v.map (nackEntry n id))
  | acked {n : GameStateAck} {v : Option (EntityView F)} (hop : op = .ack c n) :
      EntryEffect s op c id v [] (v.map (repairEntry n.ignoreList n.recreateList id))

/-- The records a step sends a client about an id. -/
def sentAbout (s : ServerGameState F) (op : Op F) (c : UInt32) (id : UInt16) :
    List OutboundRecord := (s.sentTo op c).filter fun r => r.objectId = id

theorem mem_sentAbout {s : ServerGameState F} {op : Op F} {c : UInt32} {id : UInt16}
    {r : OutboundRecord} : r ∈ s.sentAbout op c id ↔ r ∈ s.sentTo op c ∧ r.objectId = id := by
  unfold sentAbout
  rw [List.mem_filter, decide_eq_true_eq]

/-- **One step, one client, one id.** -/
theorem entry_effect {lz4 : Lz4} {op : Op F} {s s' : ServerGameState F} {a : Answer}
    (filed : Filed s) (h : step lz4 op s = some (s', a)) (c : UInt32) (id : UInt16) :
    EntryEffect s op c id (s.entryOf c id) (s.sentAbout op c id) (s'.entryOf c id) := by
  have heff := view_effect h c
  have silent : (s.viewOf c = none ∨ s.tickOf op c = none) → s.sentAbout op c id = [] := by
    intro idle
    unfold sentAbout
    rw [sentTo_of_idle idle]
    rfl
  unfold entryOf
  generalize hv : s.viewOf c = v at heff
  generalize s'.viewOf c = v' at heff
  cases heff with
  | same idle =>
      rw [← hv] at idle
      rw [silent idle]
      exact .same idle
  | joined =>
      rw [silent (.inl hv)]
      exact .same (.inl hv)
  | left hop =>
      rw [silent (.inr (by rw [hop]; rfl))]
      exact .left hop
  | @ticked view ctx tick =>
      have hsent : s.sentTo op c = planRecords s.entities s.frameIndex
          (view.tickWithContext ctx).1 (view.tickWithContext ctx).2 := by
        unfold sentTo
        rw [hv, tick]
      unfold sentAbout
      rw [hsent, records_about filed]
      exact .ticked hv tick (view.tick_effect (filed.tickOf_wellPosed tick) id)
  | @nacked view n hop =>
      rw [silent (.inr (by rw [hop]; rfl))]
      show EntryEffect s op c id (view.views.lookup id) [] ((nackView n view).views.lookup id)
      rw [lookup_nackView]
      exact .nacked hop
  | @acked view n hop =>
      rw [silent (.inr (by rw [hop]; rfl))]
      show EntryEffect s op c id (view.views.lookup id) [] ((repair _ _ _).views.lookup id)
      rw [lookup_repair]
      exact .acked hop

omit [Scalar F] in
/-- The share of `c` in a list built client by client. -/
theorem find?_filterMap_source {f : UInt32 → Option ClientTick}
    (hf : ∀ k t, f k = some t → t.source = k) (c : UInt32) : ∀ l : List UInt32,
    (l.filterMap f).find? (fun t => t.source = c) = if c ∈ l then f c else none := by
  intro l
  induction l with
  | nil => rfl
  | cons k rest ih =>
      rw [List.filterMap_cons]
      by_cases hk : k = c
      · subst hk
        rw [if_pos List.mem_cons_self]
        cases hfk : f k with
        | none =>
            simp only [ih, hfk, ite_self]
        | some t => rw [List.find?_cons_of_pos (by simpa using hf k t hfk)]
      · have hmem : (c ∈ k :: rest) ↔ c ∈ rest := by
          rw [List.mem_cons, or_iff_right (fun h => hk h.symm)]
        simp only [hmem]
        cases hfk : f k with
        | none => exact ih
        | some t =>
            rw [List.find?_cons_of_neg]
            · exact ih
            · rw [hf k t hfk]
              simpa using hk

/-- **The packets of a step** are the records it sends, encoded. -/
theorem packets_of_step {lz4 : Lz4} {op : Op F} {s s' : ServerGameState F} {a : Answer}
    (h : step lz4 op s = some (s', a)) (c : UInt32) :
    packetsTo op a c =
      match s.viewOf c, s.tickOf op c with
      | some view, some ctx => encodePlan lz4 s.entities s.frameIndex s.lengthHack
          (view.tickWithContext ctx).1 (view.tickWithContext ctx).2
      | _, _ => [] := by
  cases op with
  | tickClient source focus cfg =>
      obtain ⟨-, rfl⟩ := Prod.mk.inj (Option.some.inj h)
      simp only [packetsTo, tickOf, viewOf]
      by_cases hc : source = c
      · subst hc
        rw [if_pos rfl, if_pos rfl]
        cases s.clients.lookup source with
        | none => rfl
        | some st =>
            simp only [Option.map_some]
      · rw [if_neg hc, if_neg hc]
        cases s.clients.lookup c with
        | none => rfl
        | some st => rfl
  | tickClients ord fallback cfg =>
      obtain ⟨-, rfl⟩ := Prod.mk.inj (Option.some.inj h)
      simp only [packetsTo, tickOf, viewOf]
      rw [find?_filterMap_source]
      · cases hl : s.clients.lookup c with
        | none => simp only [Option.bind_none, ite_self, Option.map_none, Option.getD_none]
        | some st =>
            have hmem : c ∈ s.clients.keys.insertionSort (· ≤ ·) := by
              rw [(List.perm_insertionSort _ _).mem_iff, ← AList.mem_keys, ← AList.lookup_isSome, hl]
              rfl
            rw [if_pos hmem]
            have share : ∀ packets : List (List UInt8),
                ((if packets = [] then none else some (⟨c, packets⟩ : ClientTick)).map
                  (·.packets)).getD [] = packets := by
              intro packets
              split
              · rename_i hempty
                exact hempty.symm
              · rfl
            exact share _
      · intro k t ht
        obtain ⟨st, -, ht⟩ := Option.bind_eq_some_iff.mp ht
        split at ht
        · exact absurd ht (by simp)
        · rw [← Option.some.inj ht]
  | _ =>
      simp only [packetsTo, tickOf]
      cases s.viewOf c with
      | none => rfl
      | some view => rfl

/-! ### Records that are still to be sent -/

theorem roomyTick_of_idle {s : ServerGameState F} {op : Op F} {c : UInt32}
    (h : s.viewOf c = none ∨ s.tickOf op c = none) : s.roomyTick op c = false := by
  unfold roomyTick
  split
  · rename_i hv ht
    rcases h with h | h
    · rw [h] at hv
      exact absurd hv (by simp)
    · rw [h] at ht
      exact absurd ht (by simp)
  · rfl

/-- The create of an entity. -/
def createRecord (s : ServerGameState F) (view : ClientView F) (id : UInt16)
    (e : ServerEntity F) : OutboundClone where
  syncType := Rec.create
  objectId := e.objectId
  ownerNetId := e.owner.toUInt16
  entityType := some e.entityType
  creationToken := e.creationToken
  uniqifier := e.uniqifier
  dependentFrameIndex := (view.baseFrame id).getD 0
  timestamp := s.frameIndex.toUInt32
  firstFrameUpdate := false
  data := e.createData

omit [Scalar F] in
theorem createRecord_eq {s : ServerGameState F} {view : ClientView F} {id : UInt16}
    {e : ServerEntity F} (he : s.entities.lookup id = some e) :
    actionRecord s.entities s.frameIndex view id .create
      = some (.clone (createRecord s view id e)) := by
  simp [actionRecord, cloneRecord, he, createRecord]

/-- The sync of an entity. -/
def syncRecord (s : ServerGameState F) (view : ClientView F) (id : UInt16)
    (e : ServerEntity F) : OutboundClone where
  syncType := Rec.sync
  objectId := e.objectId
  ownerNetId := e.owner.toUInt16
  entityType := none
  creationToken := e.creationToken
  uniqifier := e.uniqifier
  dependentFrameIndex := (view.baseFrame id).getD 0
  timestamp := s.frameIndex.toUInt32
  firstFrameUpdate := false
  data := e.data

omit [Scalar F] in
theorem syncRecord_eq {s : ServerGameState F} {view : ClientView F} {id : UInt16}
    {e : ServerEntity F} (he : s.entities.lookup id = some e) (hdata : e.data ≠ []) :
    actionRecord s.entities s.frameIndex view id .sync
      = some (.clone (syncRecord s view id e)) := by
  simp [actionRecord, cloneRecord, he, syncRecord, hdata, Rec.sync, Rec.create]

omit [Scalar F] in
/-- What a planned create or sync is made into. -/
theorem cloneRecord_spec {entities : Map UInt16 (ServerEntity F)} {frameIndex : UInt64}
    {view : ClientView F} {syncType : UInt32} {id : UInt16} {r : OutboundRecord}
    (h : cloneRecord entities frameIndex view syncType id = some r) :
    ∃ (e : ServerEntity F) (c : OutboundClone), entities.lookup id = some e ∧ r = .clone c ∧
      c.syncType = syncType ∧ c.dependentFrameIndex = (view.baseFrame id).getD 0 ∧
      c.data = if syncType = Rec.create then e.createData else e.data := by
  unfold cloneRecord at h
  cases he : entities.lookup id with
  | none =>
      rw [he] at h
      exact absurd h (by simp)
  | some e =>
      rw [he] at h
      simp only at h
      split at h
      · exact absurd h (by simp)
      · exact ⟨e, _, rfl, (Option.some.inj h).symm, rfl, rfl, rfl⟩

/-- A property of the entry of an entity that no tick takes for up to date, and that only
sending something ends. -/
structure Pending (id : UInt16) (e : ServerEntity F) (D : EntityView F → Prop) : Prop where
  repair : ∀ {v} ignoreList recreateList, D v → D (repairEntry ignoreList recreateList id v)
  nack : ∀ {v} n, D v → D (nackEntry n id v)
  refresh : ∀ {before} ctx snap, (∀ v, before = some v → D v) →
    D (ClientView.refreshed ctx snap before)
  behind : ∀ {v}, D v → v.created = true → v.baseFrame < e.frameIndex

/-- **What is pending is sent** by the first tick with room for it, and stays pending until
then. -/
theorem Pending.step {lz4 : Lz4} {s s' : ServerGameState F} {op : Op F} {a : Answer}
    {id : UInt16} {e : ServerEntity F} {D : EntityView F → Prop} (pending : Pending id e D)
    (filed : Filed s) (h : Zone.step lz4 op s = some (s', a)) {c : UInt32}
    (hscope : ∀ view ctx, s.viewOf c = some view → s.tickOf op c = some ctx →
      view.relevant ctx id = some e.snapshot)
    (hD : ∀ v, s.entryOf c id = some v → D v) :
    (∃ view act, (act = .create ∨ ∃ v, D v ∧ v.created = true ∧ act = .sync) ∧
        ∀ r, actionRecord s.entities s.frameIndex view id act = some r → r ∈ s.sentTo op c) ∨
      (s.roomyTick op c = false ∧ ∀ v, s'.entryOf c id = some v → D v) := by
  have heff := entry_effect filed h c id
  have hsent : ∀ {r}, r ∈ s.sentAbout op c id → r ∈ s.sentTo op c :=
    fun hr => (mem_sentAbout.mp hr).1
  generalize s.sentAbout op c id = sent at heff hsent
  generalize s.entryOf c id = before at heff hD
  generalize s'.entryOf c id = after at heff
  cases heff with
  | same idle => exact .inr ⟨roomyTick_of_idle idle, hD⟩
  | left hop => exact .inr ⟨roomyTick_of_idle (.inr (by rw [hop]; rfl)), by simp⟩
  | nacked hop =>
      refine .inr ⟨roomyTick_of_idle (.inr (by rw [hop]; rfl)), fun v hv => ?_⟩
      obtain ⟨v0, hv0, rfl⟩ := Option.map_eq_some_iff.mp hv
      exact pending.nack _ (hD v0 hv0)
  | acked hop =>
      refine .inr ⟨roomyTick_of_idle (.inr (by rw [hop]; rfl)), fun v hv => ?_⟩
      obtain ⟨v0, hv0, rfl⟩ := Option.map_eq_some_iff.mp hv
      exact pending.repair _ _ (hD v0 hv0)
  | @ticked view ctx acts _ _ hview tick effect =>
      rw [hscope view ctx hview tick] at effect
      have hnow := pending.refresh ctx e.snapshot hD
      have hact : ∀ {act r}, actionRecord s.entities s.frameIndex (view.tickWithContext ctx).1 id
          act = some r → act ∈ acts → r ∈ s.sentTo op c := fun hr hmem =>
        hsent (List.mem_filterMap.mpr ⟨_, hmem, hr⟩)
      cases effect with
      | creates => exact .inl ⟨_, .create, .inl rfl, fun r hr => hact hr (by simp)⟩
      | syncs known _ =>
          exact .inl ⟨_, .sync, .inr ⟨_, hnow, known, rfl⟩, fun r hr => hact hr (by simp)⟩
      | waits spent =>
          refine .inr ⟨?_, ?_⟩
          · simpa [roomyTick, hview, tick, ClientView.EnoughBudget] using spent
          · intro v hv
            rw [← Option.some.inj hv]
            exact hnow
      | idles known current => exact absurd (pending.behind hnow known) current

/-- An entity the client was never sent. -/
theorem pending_create (id : UInt16) (e : ServerEntity F) :
    Pending id e fun v => v.created = false where
  repair := by
    intro v _ _ h
    exact repairEntry_created h
  nack := by
    intro v n h
    exact repairEntry_created h
  refresh := by
    intro before ctx snap h
    cases before with
    | none => rfl
    | some v => exact h v rfl
  behind := by
    intro v h hc
    rw [h] at hc
    exact absurd hc (by simp)

theorem create_due {lz4 : Lz4} {s s' : ServerGameState F} {op : Op F} {a : Answer}
    (filed : Filed s) (h : step lz4 op s = some (s', a)) {c : UInt32} {id : UInt16}
    {e : ServerEntity F} (he : s.entities.lookup id = some e)
    (hscope : ∀ view ctx, s.viewOf c = some view → s.tickOf op c = some ctx →
      view.relevant ctx id = some e.snapshot)
    (hnew : ∀ v, s.entryOf c id = some v → v.created = false) :
    (s.sentTo op c).any (·.creates id e.uniqifier) = true ∨
      (s.roomyTick op c = false ∧ ∀ v, s'.entryOf c id = some v → v.created = false) := by
  rcases (pending_create id e).step filed h hscope hnew with ⟨view, act, hact, hsent⟩ | hwait
  · rcases hact with rfl | ⟨v, hv, hc, -⟩
    · left
      rw [List.any_eq_true]
      refine ⟨_, hsent _ (createRecord_eq he), ?_⟩
      simp [OutboundRecord.creates, createRecord, filed.entity he]
    · rw [hv] at hc
      exact absurd hc (by simp)
  · exact .inr hwait

end ServerGameState

/-! ### A scene -/

/-- Client 2 joins, and client 1 creates object 5, with the given record, at the origin. -/
def objectScene (create : List UInt8) : List (Op Float32) :=
  [.addClient 2, .ingest 1 (LiteralRun.clonePayload create), .setPosition 5 Vec3.zero]

/-- The create of object 5 with an empty blob. -/
def bareCreate : List UInt8 :=
  [0x20, 0x00, 0x20, 0x05, 0x00, 0x00, 0x00, 0x00, 0x50, 0x00, 0xE0]

/-- The outbound tick of all clients. -/
def tickAll : Op Float32 := .tickClients (.stored UInt16) ∅ .standard

end Baston.Zone

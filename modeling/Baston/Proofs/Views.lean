/-
What a step of the server does to one client's view, and what it sends.

A tick of the server is a tick of a client's view over the snapshot of the registry.
`ViewEffect` lists what a step can do to a view, and `Filed` says that the registry and
the views are keyed by what they hold, so that whatever a tick sees under an id is the
entity under that id.
-/
import Baston.Proofs.Authority
import Baston.Proofs.Tick

namespace Baston.Zone

open Assoc Baston.Rage Trace

variable {F : Type}

/-- The id a record is about. -/
def OutboundRecord.objectId : OutboundRecord → UInt16
  | .clone c => c.objectId
  | .remove id _ => id

/-- A record is the create of `(id, u)`. -/
def OutboundRecord.creates (id u : UInt16) : OutboundRecord → Bool
  | .clone r => r.syncType = Rec.create && r.objectId = id && r.uniqifier = u
  | .remove _ _ => false

namespace ServerGameState

/-! ### Views, ticks and records -/

/-- The view the server keeps for a client. -/
def viewOf (s : ServerGameState F) (c : UInt32) : Option (ClientView F) :=
  (s.clients.lookup c).map (·.view)

/-- The entry of an id in a client's view. -/
def entryOf (s : ServerGameState F) (c : UInt32) (id : UInt16) : Option (EntityView F) :=
  (s.viewOf c).bind (·.views.lookup id)

/-- The record that carries out one action of a plan. -/
def actionRecord (entities : Map UInt16 (ServerEntity F)) (frameIndex : UInt64)
    (view : ClientView F) (id : UInt16) : Action → Option OutboundRecord
  | .create => cloneRecord entities frameIndex view Rec.create id
  | .sync => cloneRecord entities frameIndex view Rec.sync id
  | .remove u => some (.remove id u)

section
variable [Scalar F]

/-- What the tick of a client reads, when an operation ticks it. -/
def tickOf (s : ServerGameState F) (op : Op F) (c : UInt32) : Option (TickContext F) :=
  match op with
  | .tickClient source focus cfg =>
    if source = c then some (s.tickContext c (focus, Vec3.zero) cfg) else none
  | .tickClients ord fallbackFocus cfg =>
    some (s.tickContext c (s.focusOf ord fallbackFocus c) cfg)
  | _ => none

/-- An operation ticks `c` with a budget that covers everything relevant to it. -/
def roomyTick (s : ServerGameState F) (op : Op F) (c : UInt32) : Bool :=
  match s.viewOf c, s.tickOf op c with
  | some view, some ctx => ((view.relevantList ctx).map ClientView.cost).sum ≤ ctx.cfg.budgetBytes
  | _, _ => false

/-- The records an operation has written to a client. -/
def sentTo (s : ServerGameState F) (op : Op F) (c : UInt32) : List OutboundRecord :=
  match s.viewOf c, s.tickOf op c with
  | some view, some ctx =>
    planRecords s.entities s.frameIndex (view.tickWithContext ctx).1 (view.tickWithContext ctx).2
  | _, _ => []

end

/-- The packets an answer holds for a client. -/
def packetsTo (op : Op F) (a : Answer) (c : UInt32) : List (List UInt8) :=
  match op, a with
  | .tickClient source _ _, .packets packets => if source = c then packets else []
  | .tickClients _ _ _, .ticks ticks =>
    ((ticks.find? fun t => t.source = c).map (·.packets)).getD []
  | _, _ => []

/-! ### What a step does to a view -/

/-- What a step can do to the view of `c`. -/
inductive ViewEffect [Scalar F] (s : ServerGameState F) (op : Op F) (c : UInt32) :
    Option (ClientView F) → Option (ClientView F) → Prop
  | same {v : Option (ClientView F)} (idle : v = none ∨ s.tickOf op c = none) :
      ViewEffect s op c v v
  | joined : ViewEffect s op c none (some (.new c.toUInt16))
  | left {v : Option (ClientView F)} {ord : IterOrder UInt16} (hop : op = .removeClient ord c) :
      ViewEffect s op c v none
  | ticked {view : ClientView F} {ctx : TickContext F} (tick : s.tickOf op c = some ctx) :
      ViewEffect s op c (some view) (some (view.tickWithContext ctx).1)
  | nacked {view : ClientView F} {n : GameStateNAck} (hop : op = .nack c n) :
      ViewEffect s op c (some view) (some (nackView n view))
  | acked {view : ClientView F} {n : GameStateAck} (hop : op = .ack c n) :
      ViewEffect s op c (some view)
        (some (repair (view.ackFrame n.frameIndex) n.ignoreList n.recreateList))

theorem viewOf_addClient (s : ServerGameState F) (source c : UInt32) :
    (s.addClient source).viewOf c = s.viewOf c ∨
      (s.viewOf c = none ∧ (s.addClient source).viewOf c = some (.new c.toUInt16)) := by
  unfold viewOf addClient
  simp only
  rw [Map.lookup_entryOrInsert]
  by_cases hc : c = source
  · subst hc
    rw [if_pos rfl]
    cases s.clients.lookup c with
    | none => exact .inr ⟨rfl, rfl⟩
    | some st => exact .inl rfl
  · rw [if_neg hc]
    exact .inl rfl

theorem viewOf_modify {s : ServerGameState F} {source : UInt32}
    {f : ClientState F → ClientState F} (hf : ∀ st, (f st).view = st.view) (c : UInt32) :
    ({ s with clients := s.clients.modify source f } : ServerGameState F).viewOf c
      = s.viewOf c := by
  show (((s.clients.modify source f).lookup c).map (·.view)) = (s.clients.lookup c).map (·.view)
  rw [Map.lookup_modify]
  split
  · rw [Option.map_map]
    congr 1
    exact funext hf
  · rfl

variable [Scalar F]

/-- A payload at most gives its sender a view. -/
theorem viewOf_ingest {lz4 : Lz4} {s s' : ServerGameState F} {source : UInt32}
    {payload : List UInt8} {out : IngestOutcome}
    (h : s.ingestClonePayload lz4 source payload = some (s', out)) (c : UInt32) :
    s'.viewOf c = s.viewOf c ∨ (s.viewOf c = none ∧ s'.viewOf c = some (.new c.toUInt16)) := by
  have keep : ∀ {t t' : ServerGameState F}, t'.viewOf c = t.viewOf c ∨
        (t.viewOf c = none ∧ t'.viewOf c = some (.new c.toUInt16)) →
      (t.viewOf c = s.viewOf c ∨ (s.viewOf c = none ∧ t.viewOf c = some (.new c.toUInt16))) →
      t'.viewOf c = s.viewOf c ∨ (s.viewOf c = none ∧ t'.viewOf c = some (.new c.toUInt16)) := by
    rintro t t' (h1 | ⟨h1, h2⟩) (h3 | ⟨h3, h4⟩)
    · exact .inl (h1.trans h3)
    · exact .inr ⟨h3, h1.trans h4⟩
    · exact .inr ⟨h3 ▸ h1, h2⟩
    · rw [h1] at h4
      exact absurd h4 (by simp)
  refine ingest_keeps (I := fun t => t.viewOf c = s.viewOf c ∨
      (s.viewOf c = none ∧ t.viewOf c = some (.new c.toUInt16))) (P := fun _ _ => True)
    (.inl rfl) (viewOf_addClient s source c) ?_ (fun _ _ => trivial) h
  intro t t' r ok ht _ heff
  cases heff with
  | kept => exact ht
  | created => exact ht
  | synced => exact ht
  | removed => exact ht
  | takenOver => exact ht
  | noted _ hview =>
      refine keep ?_ (keep (viewOf_addClient t source c) ht)
      exact .inl (viewOf_modify hview c)

theorem sentTo_of_idle {s : ServerGameState F} {op : Op F} {c : UInt32}
    (h : s.viewOf c = none ∨ s.tickOf op c = none) : s.sentTo op c = [] := by
  unfold sentTo
  rcases h with h | h
  · rw [h]
  · rw [h]
    cases s.viewOf c with
    | none => rfl
    | some view => rfl

/-- **Nothing else happens to a view.** -/
theorem view_effect {lz4 : Lz4} {op : Op F} {s s' : ServerGameState F} {a : Answer}
    (h : step lz4 op s = some (s', a)) (c : UInt32) :
    ViewEffect s op c (s.viewOf c) (s'.viewOf c) := by
  -- a step that leaves the clients alone, or adds one
  have plain : s.tickOf op c = none → s'.viewOf c = s.viewOf c ∨
      (s.viewOf c = none ∧ s'.viewOf c = some (.new c.toUInt16)) →
      ViewEffect s op c (s.viewOf c) (s'.viewOf c) := by
    rintro hop (heq | ⟨h1, h2⟩)
    · rw [heq]
      exact .same (.inr hop)
    · rw [h1, h2]
      exact .joined
  have quiet : s.tickOf op c = none → s'.clients = s.clients →
      ViewEffect s op c (s.viewOf c) (s'.viewOf c) := by
    intro hop heq
    refine plain hop (.inl ?_)
    unfold viewOf
    rw [heq]
  cases op with
  | ingest source payload =>
      obtain ⟨⟨t, o⟩, ht, heq⟩ := Option.map_eq_some_iff.mp h
      obtain ⟨rfl, -⟩ := Prod.mk.inj heq
      exact plain rfl (viewOf_ingest ht c)
  | addClient source =>
      obtain ⟨rfl, -⟩ := Prod.mk.inj (Option.some.inj h)
      exact plain rfl (viewOf_addClient s source c)
  | removeClient ord source =>
      obtain ⟨⟨t, o⟩, ht, heq⟩ := Option.map_eq_some_iff.mp h
      obtain ⟨rfl, -⟩ := Prod.mk.inj heq
      have hview : t.viewOf c = if c = source then none else s.viewOf c := by
        unfold viewOf
        rw [removeClient_clients ht, Map.lookup_erase_of]
        split
        · rfl
        · rfl
      by_cases hc : c = source
      · subst hc
        rw [show t.viewOf c = none by rw [hview, if_pos rfl]]
        exact .left rfl
      · exact plain rfl (.inl (by rw [hview, if_neg hc]))
  | lease source n =>
      obtain ⟨⟨t, l, p⟩, ht, heq⟩ := Option.map_eq_some_iff.mp h
      obtain ⟨rfl, -⟩ := Prod.mk.inj heq
      unfold leaseObjectIds at ht
      obtain ⟨⟨got, ids⟩, -, ht⟩ := Option.bind_eq_some_iff.mp ht
      simp only [Option.some.injEq, Prod.mk.injEq] at ht
      obtain ⟨rfl, -, -⟩ := ht
      have hmod : ∀ t : ServerGameState F, ({ t with clients := t.clients.modify source fun st =>
          { st with leased := st.leased ++ got } } : ServerGameState F).viewOf c = t.viewOf c :=
        fun t => viewOf_modify (f := fun st => { st with leased := st.leased ++ got })
          (fun _ => rfl) c
      refine plain rfl ?_
      rw [hmod]
      exact viewOf_addClient { s with ids := ids } source c
  | spawn req =>
      obtain ⟨⟨t, r⟩, ht, heq⟩ := Option.map_eq_some_iff.mp h
      obtain ⟨rfl, -⟩ := Prod.mk.inj heq
      refine quiet rfl ?_
      rcases spawn_cases ht with ⟨-, rfl⟩ | ⟨id, ok, -, hspawn, -⟩
      · rfl
      · rcases spawnWithId_cases hspawn with ⟨-, token, rfl⟩ | ⟨-, -, -, -, data, -, rfl⟩
        · rfl
        · rfl
  | spawnWithId id req =>
      obtain ⟨⟨t, r⟩, ht, heq⟩ := Option.map_eq_some_iff.mp h
      obtain ⟨rfl, -⟩ := Prod.mk.inj heq
      refine quiet rfl ?_
      rcases spawnWithId_cases ht with ⟨-, token, rfl⟩ | ⟨-, -, -, -, data, -, rfl⟩
      · rfl
      · rfl
  | despawn id =>
      obtain ⟨⟨t, r⟩, ht, heq⟩ := Option.map_eq_some_iff.mp h
      obtain ⟨rfl, -⟩ := Prod.mk.inj heq
      refine quiet rfl ?_
      rcases despawnEntity_cases ht with ⟨-, rfl, -⟩ | ⟨-, -, rfl, -⟩
      · rfl
      · rfl
  | reassign ord =>
      obtain ⟨rfl, -⟩ := Prod.mk.inj (Option.some.inj h)
      exact quiet rfl rfl
  | setPlayerBucket source b =>
      obtain ⟨rfl, -⟩ := Prod.mk.inj (Option.some.inj h)
      exact quiet rfl rfl
  | setEntityBucket id b =>
      obtain ⟨rfl, -⟩ := Prod.mk.inj (Option.some.inj h)
      exact quiet rfl rfl
  | setLockdown b m =>
      obtain ⟨rfl, -⟩ := Prod.mk.inj (Option.some.inj h)
      exact quiet rfl rfl
  | setPopulationEnabled b e =>
      obtain ⟨rfl, -⟩ := Prod.mk.inj (Option.some.inj h)
      exact quiet rfl rfl
  | setPosition id p =>
      obtain ⟨rfl, -⟩ := Prod.mk.inj (Option.some.inj h)
      exact quiet rfl rfl
  | setVelocity id v =>
      obtain ⟨rfl, -⟩ := Prod.mk.inj (Option.some.inj h)
      exact quiet rfl rfl
  | seedPositions focus =>
      obtain ⟨rfl, -⟩ := Prod.mk.inj (Option.some.inj h)
      exact quiet rfl rfl
  | tick =>
      obtain ⟨rfl, -⟩ := Prod.mk.inj (Option.some.inj h)
      exact quiet rfl rfl
  | tickClient source focus cfg =>
      obtain ⟨rfl, -⟩ := Prod.mk.inj (Option.some.inj h)
      by_cases hc : source = c
      · subst hc
        have htick : s.tickOf (.tickClient source focus cfg) source
            = some (s.tickContext source (focus, Vec3.zero) cfg) := by
          simp only [tickOf, if_pos]
        cases hl : s.clients.lookup source with
        | none => exact .same (.inl (by simp [viewOf, hl]))
        | some st =>
            have h1 : s.viewOf source = some st.view := by
              unfold viewOf
              rw [hl]
              rfl
            rw [h1]
            simp only [viewOf, AList.lookup_insert, Option.map_some]
            exact .ticked htick
      · refine plain (by simp only [tickOf, if_neg hc]) (.inl ?_)
        unfold viewOf
        cases hl : s.clients.lookup source with
        | none => rfl
        | some st =>
            simp only
            rw [AList.lookup_insert_ne (fun heq => hc heq.symm)]
  | tickClients ord fallback cfg =>
      obtain ⟨rfl, -⟩ := Prod.mk.inj (Option.some.inj h)
      simp only [viewOf, Map.lookup_mapVals, Option.map_map]
      cases hl : s.clients.lookup c with
      | none => exact .same (.inl rfl)
      | some st => exact .ticked rfl
  | nack source n =>
      obtain ⟨rfl, -⟩ := Prod.mk.inj (Option.some.inj h)
      simp only [viewOf, applyNack, Map.lookup_modify]
      by_cases hc : c = source
      · subst hc
        rw [if_pos rfl]
        cases hl : s.clients.lookup c with
        | none => exact .same (.inr rfl)
        | some st => exact .nacked rfl
      · rw [if_neg hc]
        exact .same (.inr rfl)
  | ack source n =>
      obtain ⟨rfl, -⟩ := Prod.mk.inj (Option.some.inj h)
      simp only [viewOf, applyAck, Map.lookup_modify]
      by_cases hc : c = source
      · subst hc
        rw [if_pos rfl]
        cases hl : s.clients.lookup c with
        | none => exact .same (.inr rfl)
        | some st => exact .acked rfl
      · rw [if_neg hc]
        exact .same (.inr rfl)

/-! ### The registry and the views are keyed by what they hold -/

omit [Scalar F] in
theorem netId_foldl {α : Type} {f : ClientView F → α → ClientView F}
    (hf : ∀ view a, (f view a).netId = view.netId) : ∀ (l : List α) (view : ClientView F),
      (l.foldl f view).netId = view.netId := by
  intro l
  induction l with
  | nil =>
      intro view
      rfl
  | cons a rest ih =>
      intro view
      rw [List.foldl_cons, ih, hf]

omit [Scalar F] in
theorem netId_repair (view : ClientView F) (ignoreList : List IgnoreEntry)
    (recreateList : List UInt16) : (repair view ignoreList recreateList).netId = view.netId := by
  unfold repair
  refine (netId_foldl (f := fun view objectId => view.forceRecreate objectId) (fun _ _ => rfl)
    _ _).trans ?_
  exact netId_foldl (f := fun view (entry : IgnoreEntry) =>
    view.rollback entry.objectId entry.lastFrame false) (fun _ _ => rfl) _ _

omit [Scalar F] in
theorem netId_nackView (n : GameStateNAck) (view : ClientView F) :
    (nackView n view).netId = view.netId := by
  unfold nackView
  simp only
  rw [netId_repair]
  split
  · rfl
  · rfl

/-- Every entity is filed under its own id, and every view knows whose it is. -/
structure Filed (s : ServerGameState F) : Prop where
  entity : ∀ {id e}, s.entities.lookup id = some e → e.objectId = id
  view : ∀ {c view}, s.viewOf c = some view → view.netId = c.toUInt16

namespace Filed

variable {s s' : ServerGameState F}

omit [Scalar F] in
theorem withBuild (bigMode lengthHack : Bool) (build : GameBuild) :
    Filed (ServerGameState.withBuild bigMode lengthHack build : ServerGameState F) := by
  refine ⟨?_, ?_⟩
  · intro id e he
    exact absurd he (by simp [ServerGameState.withBuild])
  · intro c view hv
    exact absurd hv (by simp [ServerGameState.withBuild, viewOf])

/-- A record files what it writes under the entity's own id. -/
theorem record {source : UInt32} {r : InboundRecord} {ok : Bool} {id : UInt16}
    (h : ∀ e, s.entities.lookup id = some e → e.objectId = id)
    (heff : RecordEffect source s r s' ok) :
    ∀ e, s'.entities.lookup id = some e → e.objectId = id := by
  have hturn := heff.entity id
  generalize s.entities.lookup id = before at h hturn
  generalize s'.entities.lookup id = after at hturn
  intro e he
  cases hturn with
  | kept => exact h e he
  | created =>
      rw [← Option.some.inj he]
      rfl
  | @synced _ _ _ data e0 _ _ =>
      rw [← Option.some.inj he, ← h e0 rfl]
      unfold syncedEntity
      split
      · rfl
      · rfl
  | removed => exact absurd he (by simp)
  | @takenOver _ e0 _ =>
      rw [← Option.some.inj he]
      exact h e0 rfl

theorem step {lz4 : Lz4} {op : Op F} {a : Answer} (h : Filed s)
    (hstep : step lz4 op s = some (s', a)) : Filed s' := by
  refine ⟨?_, ?_⟩
  · intro id e he
    cases step_effect hstep with
    | ingested hin =>
        exact ingest_keeps (I := fun t => ∀ e, t.entities.lookup id = some e → e.objectId = id)
          (P := fun _ _ => True) (fun _ => h.entity) (fun _ => h.entity)
          (fun ht _ heff => record ht heff) (fun _ _ => trivial) hin e he
    | joined => exact h.entity he
    | left hrem =>
        rw [removeClient_lookup hrem] at he
        obtain ⟨e0, he0, he⟩ := Option.bind_eq_some_iff.mp he
        rw [← h.entity he0]
        split at he
        · unfold orphan at he
          split at he
          · rw [← Option.some.inj he]
          · exact absurd he (by simp)
        · rw [← Option.some.inj he]
    | leased hlease =>
        obtain ⟨-, -, -, hent, -⟩ := leaseObjectIds_cases hlease
        exact h.entity (hent ▸ he)
    | spawned _ hspawn =>
        rcases spawnWithId_cases hspawn with ⟨-, token, rfl⟩ | ⟨-, -, -, -, data, -, rfl⟩
        · exact h.entity he
        · unfold afterSpawn at he
          rw [Map.lookup_insert_of] at he
          split at he
          · rename_i heq
            rw [← Option.some.inj he, heq]
            rfl
          · exact h.entity he
    | exhausted => exact h.entity he
    | despawned hdes =>
        rcases despawnEntity_cases hdes with ⟨-, rfl, -⟩ | ⟨-, -, rfl, -⟩
        · exact h.entity he
        · unfold afterRemove at he
          rw [Map.lookup_erase_of] at he
          split at he
          · exact absurd he (by simp)
          · exact h.entity he
    | rewritten _ hf =>
        rw [Map.lookup_mapVals] at he
        obtain ⟨e0, he0, rfl⟩ := Option.map_eq_some_iff.mp he
        rw [hf.keeps, ← h.entity he0]
    | routed => exact h.entity he
    | clock => exact h.entity he
    | viewed => exact h.entity he
  · intro c view hv
    have heff := view_effect hstep c
    rw [hv] at heff
    generalize hbefore : s.viewOf c = before at heff
    cases heff with
    | same => exact h.view hbefore
    | joined => rfl
    | @ticked view _ _ =>
        show view.netId = _
        exact h.view hbefore
    | nacked =>
        rw [netId_nackView]
        exact h.view hbefore
    | acked =>
        rw [netId_repair]
        exact h.view hbefore

/-- Every state of a run is filed. -/
theorem of_run {lz4 : Lz4} {bigMode lengthHack : Bool} {build : GameBuild}
    {past : List (Entry (ServerGameState F) (Op F) Answer)}
    (run : Run (Zone.step lz4) (ServerGameState.withBuild bigMode lengthHack build) past s) :
    Filed s :=
  run.safe (I := Filed) (withBuild bigMode lengthHack build) fun h hstep => h.step hstep

end Filed

/-! ### The world a tick sees -/

omit [Scalar F] in
theorem mem_worldSnapshot {s : ServerGameState F} {e : EntitySnapshot F} :
    e ∈ s.worldSnapshot ↔ ∃ id ent, s.entities.lookup id = some ent ∧
      ent.positionKnown = true ∧ ent.owner ≠ 0 ∧ e = ent.snapshot := by
  unfold worldSnapshot
  rw [(List.perm_insertionSort _ _).mem_iff, List.mem_map]
  simp only [List.mem_filter, List.mem_map, Bool.and_eq_true, decide_eq_true_eq]
  constructor
  · rintro ⟨ent, ⟨⟨⟨id, ent'⟩, hmem, rfl⟩, hknown, howner⟩, rfl⟩
    exact ⟨id, ent', AList.mem_lookup_iff.mpr hmem, hknown, howner, rfl⟩
  · rintro ⟨id, ent, hl, hknown, howner, rfl⟩
    exact ⟨ent, ⟨⟨⟨id, ent⟩, AList.mem_lookup_iff.mp hl, rfl⟩, hknown, howner⟩, rfl⟩

namespace Filed

variable {s : ServerGameState F}

omit [Scalar F] in
theorem nodup_worldSnapshot (h : Filed s) : (s.worldSnapshot.map (·.objectId)).Nodup := by
  unfold worldSnapshot
  rw [((List.perm_insertionSort _ _).map _).nodup_iff, List.map_map]
  have hkeys : ((s.entities.entries.map (·.2)).map (·.objectId)).Nodup := by
    have heq : (s.entities.entries.map (·.2)).map (·.objectId) = s.entities.keys := by
      rw [List.map_map]
      apply List.map_congr_left
      rintro ⟨id, e⟩ hmem
      exact h.entity (AList.mem_lookup_iff.mpr hmem)
    rw [heq]
    exact s.entities.keys_nodup
  exact hkeys.sublist (List.filter_sublist.map _)

/-- The server ticks its clients over a world with distinct ids. -/
theorem wellPosed (h : Filed s) (c : UInt32) (focus : Vec3 F × Vec3 F) (cfg : InterestConfig F) :
    ClientView.WellPosed (s.tickContext c focus cfg) :=
  ⟨⟨cfg.queryRadius, rfl⟩, h.nodup_worldSnapshot⟩

theorem tickOf_wellPosed (h : Filed s) {op : Op F} {c : UInt32} {ctx : TickContext F}
    (htick : s.tickOf op c = some ctx) : ClientView.WellPosed ctx := by
  unfold tickOf at htick
  split at htick
  · split at htick
    · rw [← Option.some.inj htick]
      exact h.wellPosed c _ _
    · exact absurd htick (by simp)
  · rw [← Option.some.inj htick]
    exact h.wellPosed c _ _
  · exact absurd htick (by simp)

end Filed

theorem tickOf_world {s : ServerGameState F} {op : Op F} {c : UInt32} {ctx : TickContext F}
    (htick : s.tickOf op c = some ctx) :
    ctx.world = s.worldSnapshot ∧ ctx.routingBucket = s.routingBuckets.playerBucket c := by
  unfold tickOf at htick
  split at htick
  · split at htick
    · rw [← Option.some.inj htick]
      exact ⟨rfl, rfl⟩
    · exact absurd htick (by simp)
  · rw [← Option.some.inj htick]
    exact ⟨rfl, rfl⟩
  · exact absurd htick (by simp)

/-- A snapshot a tick sees is the snapshot of the entity under its id. -/
theorem Filed.entity_of_world {s : ServerGameState F} (h : Filed s) {op : Op F} {c : UInt32}
    {ctx : TickContext F} (htick : s.tickOf op c = some ctx) {e : EntitySnapshot F}
    (he : e ∈ ctx.world) :
    ∃ ent, s.entities.lookup e.objectId = some ent ∧ e = ent.snapshot ∧ ent.owner ≠ 0 := by
  rw [(tickOf_world htick).1] at he
  obtain ⟨id, ent, hl, -, howner, rfl⟩ := mem_worldSnapshot.mp he
  have hid : ent.snapshot.objectId = id := h.entity hl
  exact ⟨ent, by rw [hid]; exact hl, rfl, howner⟩

/-- What is relevant to a tick is an entity that the tick does not pass over. -/
theorem Filed.relevant_entity {s : ServerGameState F} (h : Filed s) {op : Op F} {c : UInt32}
    {view : ClientView F} {ctx : TickContext F} (htick : s.tickOf op c = some ctx) {id : UInt16}
    {e : EntitySnapshot F} (hr : view.relevant ctx id = some e) :
    ∃ ent, s.entities.lookup id = some ent ∧ e = ent.snapshot ∧ ent.owner ≠ 0 ∧
      view.netId.toUInt32 ≠ ent.owner := by
  obtain ⟨hmem, rfl⟩ := ClientView.relevant_eq_some hr
  obtain ⟨hnear, hsup⟩ := List.mem_filter.mp hmem
  obtain ⟨ent, hl, heq, howner⟩ := h.entity_of_world htick
    (ClientView.mem_world_of_mem_nearby hnear)
  refine ⟨ent, hl, heq, howner, ?_⟩
  intro hecho
  rw [heq] at hsup
  simp [ClientView.suppressed, ServerEntity.snapshot, hecho] at hsup

end ServerGameState

end Baston.Zone

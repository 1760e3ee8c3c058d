/-
A client entity always has somebody to answer for it, unless its owner gives it away
to nobody.

Creating registers the creator, and a disconnection takes the client's entities along,
so the owner of a client entity is a connected client.  The one hole is the takeover:
its target is a number the sender chose, and nothing checks that it names a client.
-/
import Baston.Proofs.ServerOwned

namespace Baston.Zone

open Assoc Baston.Rage Trace ServerGameState

variable {F : Type} [Scalar F]

/-- The calls of the session layer: payloads, joins, leaves, leases, spawns, despawns. -/
def sessionOp : Op F → Bool
  | .ingest _ _ | .addClient _ | .removeClient _ _ | .lease _ _ | .spawn _
  | .spawnWithId _ _ | .despawn _ => true
  | _ => false

/-- A record is a takeover that will be accepted, of a client entity, to no client. -/
def leaksEntity (source : UInt32) (s : ServerGameState F) (r : InboundRecord) : Bool :=
  match r with
  | .takeover target id =>
    s.routingBuckets.allowsTakeover source (takeoverTarget source target).toUInt32 id &&
      ((s.entities.lookup id).any fun e => e.owner = source && !e.serverOwned) &&
      (takeoverTarget source target).toUInt32 ∉ s.clients
  | _ => false

/-- No record of the step gives a client entity to nobody. -/
def leaksNothing (lz4 : Lz4) (x : Entry (ServerGameState F) (Op F) Answer) : Bool :=
  match x.op with
  | .ingest source payload =>
    (x.pre.trail lz4 source payload).all fun y => !leaksEntity source y.pre y.op
  | _ => true

/-- Every client entity has a connected owner, and everything is in bucket 0. -/
structure Answered (s : ServerGameState F) : Prop where
  owner : ∀ id e, s.entities.lookup id = some e → e.serverOwned = false → e.owner ∈ s.clients
  players : ∀ c, s.routingBuckets.playerBucket c = 0
  bucket : ∀ id e, s.entities.lookup id = some e → e.routingBucket = 0

namespace Answered

variable {s s' : ServerGameState F}

omit [Scalar F] in
theorem addClient (h : Answered s) (source : UInt32) : Answered (s.addClient source) :=
  ⟨fun id e he hc => (mem_addClient s source _).mpr (.inr (h.owner id e he hc)), h.players,
    h.bucket⟩

omit [Scalar F] in
/-- Putting an entity with a connected owner under an id. -/
theorem insert (h : Answered s) {id : UInt16} {e : ServerEntity F}
    (howner : e.serverOwned = false → e.owner ∈ s.clients) (hbucket : e.routingBucket = 0)
    (hent : s'.entities = s.entities.insert id e) (hcli : s'.clients = s.clients)
    (hplayers : ∀ c, s'.routingBuckets.playerBucket c = 0) : Answered s' := by
  refine ⟨?_, hplayers, ?_⟩
  · intro id' e' he' hc
    rw [hcli]
    rw [hent, Map.lookup_insert_of] at he'
    split at he'
    · rw [← Option.some.inj he'] at hc ⊢
      exact howner hc
    · exact h.owner id' e' he' hc
  · intro id' e' he'
    rw [hent, Map.lookup_insert_of] at he'
    split at he'
    · rw [← Option.some.inj he']
      exact hbucket
    · exact h.bucket id' e' he'

omit [Scalar F] in
theorem remove (h : Answered s) (id : UInt16) : Answered (s.afterRemove id) := by
  have hsub : ∀ {id' : UInt16} {e : ServerEntity F},
      (s.afterRemove id).entities.lookup id' = some e → s.entities.lookup id' = some e := by
    intro id' e he
    have he' : (s.entities.erase id).lookup id' = some e := he
    rw [Map.lookup_erase_of] at he'
    split at he'
    · exact absurd he' (by simp)
    · exact he'
  exact ⟨fun id' e he hc => h.owner id' e (hsub he) hc, h.players,
    fun id' e he => h.bucket id' e (hsub he)⟩

/-- A record that leaks nothing, sent by a connected client. -/
theorem record (h : Answered s) {source : UInt32} (hsource : source ∈ s.clients)
    {r : InboundRecord} {ok : Bool} (hcond : leaksEntity source s r = false)
    (heff : RecordEffect source s r s' ok) : Answered s' ∧ source ∈ s'.clients := by
  cases heff with
  | kept => exact ⟨h, hsource⟩
  | created =>
      refine ⟨h.insert (fun _ => hsource) (h.players source) rfl rfl fun c => ?_, hsource⟩
      exact (RoutingBucketRegistry.playerBucket_setEntityBucket _ _ _ _).trans (h.players c)
  | @synced id u ty token data e live _ _ _ =>
      have hkeeps : (s.syncedEntity e data).owner = e.owner ∧
          (s.syncedEntity e data).serverOwned = e.serverOwned ∧
          (s.syncedEntity e data).routingBucket = e.routingBucket := by
        unfold syncedEntity
        split
        · exact ⟨rfl, rfl, rfl⟩
        · exact ⟨rfl, rfl, rfl⟩
      refine ⟨h.insert ?_ (hkeeps.2.2.trans (h.bucket id e live)) rfl rfl h.players, hsource⟩
      intro hc
      rw [hkeeps.1]
      exact h.owner id e live (hkeeps.2.1.symm.trans hc)
  | @removed id u e _ _ _ _ _ => exact ⟨h.remove id, hsource⟩
  | @takenOver target id e allowed live owner =>
      refine ⟨h.insert (e := { e with owner := (takeoverTarget source target).toUInt32 }) ?_
        (h.bucket id e live) rfl rfl h.players, hsource⟩
      intro hc
      by_contra hout
      have hserver : e.serverOwned = false := hc
      simp [leaksEntity, allowed, live, owner, hserver] at hcond
      exact hout hcond
  | @noted _ f _ _ =>
      have hmem : ∀ c, c ∈ (s.afterNote source f).clients ↔ c = source ∨ c ∈ s.clients := by
        intro c
        show c ∈ Map.modify source f (s.addClient source).clients ↔ _
        rw [Map.mem_modify]
        exact mem_addClient s source c
      exact ⟨⟨fun id e he hc => (hmem _).mpr (.inr (h.owner id e he hc)), h.players, h.bucket⟩,
        (hmem source).mpr (.inl rfl)⟩

theorem ingest {lz4 : Lz4} (h : Answered s) {source : UInt32} {payload : List UInt8}
    {out : IngestOutcome}
    (hcond : ∀ y ∈ s.trail lz4 source payload, leaksEntity source y.pre y.op = false)
    (hin : s.ingestClonePayload lz4 source payload = some (s', out)) : Answered s' := by
  rcases ingest_run hin with ⟨rfl, -⟩ | run
  · exact h
  · have key := run.invariant (I := fun _ t => Answered t ∧ source ∈ t.clients)
      (P := fun _ x => leaksEntity source x.pre x.op = false)
      ⟨h.addClient source, (mem_addClient s source source).mpr (.inl rfl)⟩
      (fun _ hI hr hP => hI.1.record hI.2 hP (applyRecord_effect hr)) (along_of_forall hcond)
    exact key.1

omit [Scalar F] in
theorem removeClient (h : Answered s) {ord : IterOrder UInt16} {source : UInt32}
    {ids : List UInt16} (hrem : s.removeClient ord source = some (s', ids)) : Answered s' := by
  -- an entity that stays was nobody's that left, or is the server's
  have hcases : ∀ {id : UInt16} {e : ServerEntity F}, s'.entities.lookup id = some e →
      ∃ e0, s.entities.lookup id = some e0 ∧ e.routingBucket = e0.routingBucket ∧
        (e.serverOwned = false → e = e0 ∧ e0.owner ≠ source) := by
    intro id e he
    rw [removeClient_lookup hrem] at he
    obtain ⟨e0, he0, he⟩ := Option.bind_eq_some_iff.mp he
    refine ⟨e0, he0, ?_⟩
    split at he
    · unfold orphan at he
      split at he
      · rename_i hs
        rw [← Option.some.inj he]
        exact ⟨rfl, fun hc => absurd hs (by simp [show e0.serverOwned = false from hc])⟩
      · exact absurd he (by simp)
    · rename_i hown
      rw [← Option.some.inj he]
      exact ⟨rfl, fun _ => ⟨rfl, hown⟩⟩
  refine ⟨?_, ?_, ?_⟩
  · intro id e he hc
    obtain ⟨e0, he0, -, hkeep⟩ := hcases he
    obtain ⟨rfl, hne⟩ := hkeep hc
    rw [removeClient_clients hrem, AList.mem_erase]
    exact ⟨hne, h.owner id e he0 hc⟩
  · intro c
    rw [removeClient_playerBucket hrem]
    split
    · rfl
    · exact h.players c
  · intro id e he
    obtain ⟨e0, he0, hb, -⟩ := hcases he
    rw [hb]
    exact h.bucket id e0 he0

/-- Every call of the session layer that leaks nothing keeps all entities answered for. -/
theorem step {lz4 : Lz4} {op : Op F} {a : Answer} (h : Answered s)
    (hstep : step lz4 op s = some (s', a)) (hop : sessionOp op = true)
    (hcond : leaksNothing lz4 ⟨s, op, a, s'⟩ = true) : Answered s' := by
  cases step_effect hstep with
  | ingested hin =>
      simp only [leaksNothing, List.all_eq_true, Bool.not_eq_true'] at hcond
      exact h.ingest hcond hin
  | joined => exact h.addClient _
  | left hrem => exact h.removeClient hrem
  | leased hlease =>
      obtain ⟨-, -, -, hent, -, -, hbuckets, -, hmem⟩ := leaseObjectIds_cases hlease
      refine ⟨?_, ?_, ?_⟩
      · intro id e he hc
        rw [hmem]
        exact .inr (h.owner id e (hent ▸ he) hc)
      · intro c
        rw [hbuckets]
        exact h.players c
      · intro id e he
        exact h.bucket id e (hent ▸ he)
  | spawned _ hspawn =>
      rcases spawnWithId_cases hspawn with ⟨-, token, rfl⟩ | ⟨-, -, -, -, createData, -, rfl⟩
      · exact ⟨h.owner, h.players, h.bucket⟩
      · exact h.insert (fun hc => absurd hc (by simp [SpawnRequest.entity])) rfl rfl rfl
          h.players
  | exhausted => exact h
  | despawned hdes =>
      rcases despawnEntity_cases hdes with ⟨-, rfl, -⟩ | ⟨-, -, rfl, -⟩
      · exact h
      · exact h.remove _
  | rewritten quiet _ => exact absurd hop (by cases op <;> simp_all [Op.Quiet, sessionOp])
  | routed quiet => exact absurd hop (by cases op <;> simp_all [Op.Quiet, sessionOp])
  | clock => exact absurd hop (by simp [sessionOp])
  | viewed quiet _ => exact absurd hop (by cases op <;> simp_all [Op.Quiet, sessionOp])

end Answered

omit [Scalar F] in
theorem answered_withBuild (bigMode lengthHack : Bool) (build : GameBuild) :
    Answered (ServerGameState.withBuild bigMode lengthHack build : ServerGameState F) := by
  refine ⟨?_, fun _ => rfl, ?_⟩
  · intro id e he
    exact absurd he (by simp [ServerGameState.withBuild])
  · intro id e he
    exact absurd he (by simp [ServerGameState.withBuild])

/-- An owner in the entity's bucket has its syncs and its remove accepted. -/
theorem owner_is_heard {s : ServerGameState F} (ok : TableOK s) {id : UInt16}
    {e : ServerEntity F} (he : s.entities.lookup id = some e)
    (hbucket : s.routingBuckets.playerBucket e.owner = e.routingBucket) :
    (∀ data, (s.applySync e.owner id e.uniqifier data).2 = true) ∧
      ∃ s', s.applyRemove e.owner id e.uniqifier = some (s', true) ∧
        s'.idState id = some .free := by
  have bound := ok.key_lt (TableOK.mem_of_lookup he)
  constructor
  · intro data
    simp [applySync, he, hbucket]
  · refine ⟨s.afterRemove id, ?_, ?_⟩
    · simp only [applyRemove, he, hbucket, and_self, if_true, setIdState, if_pos bound]
      rfl
    · show (s.ids.set id.toNat .free)[id.toNat]? = _
      rw [getElem?_setId bound, if_pos rfl]

/-- **No client entity is orphaned** in a run of the session layer in which no takeover gives
one to a source that is not connected: its owner is a client, that client's syncs and
remove of it are accepted, and when the client disconnects the id is free again. -/
theorem client_entities_answered (lz4 : Lz4) (bigMode lengthHack : Bool) (build : GameBuild)
    {tr : List (Entry (ServerGameState F) (Op F) Answer)} {s : ServerGameState F}
    (run : Run (step lz4) (ServerGameState.withBuild bigMode lengthHack build) tr s)
    (hsession : ∀ x ∈ tr, sessionOp x.op = true)
    (hcond : ∀ x ∈ tr, leaksNothing lz4 x = true)
    (id : UInt16) (e : ServerEntity F) (he : s.entities.lookup id = some e)
    (hclient : e.serverOwned = false) :
    e.owner ∈ s.clients ∧
    (∀ data, (s.applySync e.owner id e.uniqifier data).2 = true) ∧
    (∃ s', s.applyRemove e.owner id e.uniqifier = some (s', true) ∧
      s'.idState id = some .free) ∧
    ∀ ord, ∃ s' ids, s.removeClient ord e.owner = some (s', ids) ∧ id ∉ s'.entities ∧
      s'.idState id = some .free := by
  have ok : TableOK s := run.safe (I := TableOK) (TableOK.withBuild bigMode lengthHack build)
    fun ok h => ok.step h
  have answered : Answered s := run.invariant (I := fun _ t => Answered t)
    (P := fun _ x => sessionOp x.op = true ∧ leaksNothing lz4 x = true)
    (answered_withBuild bigMode lengthHack build) (fun _ h hstep hP => h.step hstep hP.1 hP.2)
    (along_of_forall fun x hx => ⟨hsession x hx, hcond x hx⟩)
  have hbucket : s.routingBuckets.playerBucket e.owner = e.routingBucket := by
    rw [answered.players, answered.bucket id e he]
  obtain ⟨hsync, hremove⟩ := owner_is_heard ok he hbucket
  refine ⟨answered.owner id e he hclient, hsync, hremove, fun ord => ?_⟩
  obtain ⟨⟨s', ids⟩, h⟩ := removeClient_total ord (ok.leases e.owner) fun id hid => ok.key_lt hid
  exact ⟨s', ids, h, removeClient_frees h he rfl hclient⟩

/-! ### A takeover to a client, and one to nobody -/

/-- Clients 1 and 2 connect, and client 1 creates object 5. -/
def creation : List (Op Float32) :=
  [.addClient 2, .ingest 1 (LiteralRun.clonePayload
    [0x20, 0x00, 0x20, 0x05, 0x00, 0x00, 0x00, 0x00, 0x50, 0x00, 0xE0])]

/-- Client 1 hands object 5 to client 2. -/
theorem handover_is_answered :
    ∃ tr s e, Run (step LiteralRun.lz4)
        (ServerGameState.withBuild false false default : ServerGameState Float32) tr s ∧
      (∀ x ∈ tr, sessionOp x.op = true) ∧ (∀ x ∈ tr, leaksNothing LiteralRun.lz4 x = true) ∧
      s.entities.lookup 5 = some e ∧ e.serverOwned = false ∧
      e.owner ∈ s.clients ∧ (∀ data, (s.applySync e.owner 5 e.uniqifier data).2 = true) ∧
      (∃ s', s.applyRemove e.owner 5 e.uniqifier = some (s', true) ∧
        s'.idState 5 = some .free) ∧
      ∀ ord, ∃ s' ids, s.removeClient ord e.owner = some (s', ids) ∧ 5 ∉ s'.entities ∧
        s'.idState 5 = some .free := by
  obtain ⟨tr, s, run, hcheck⟩ := exists_run (step LiteralRun.lz4)
    (ServerGameState.withBuild false false default : ServerGameState Float32)
    (creation ++ [.ingest 1 (LiteralRun.clonePayload [0x80, 0x00, 0x40, 0x05, 0xE0])])
    (fun tr s => tr.all (fun x => sessionOp x.op) && tr.all (leaksNothing LiteralRun.lz4)
      && (s.entities.lookup 5).any fun e => !e.serverOwned && e.owner = 2) (by decide +kernel)
  simp only [Bool.and_eq_true, List.all_eq_true, Option.any_eq_true, Bool.not_eq_true'] at hcheck
  obtain ⟨⟨hsession, hcond⟩, e, he, hclient, -⟩ := hcheck
  exact ⟨tr, s, e, run, hsession, hcond, he, hclient,
    client_entities_answered LiteralRun.lz4 false false default run hsession hcond 5 e he hclient⟩

/-- Client 1 hands object 5 to 7, who is nobody, and leaves: the entity stays behind. -/
theorem handover_to_nobody :
    ∃ tr s, Run (step LiteralRun.lz4)
        (ServerGameState.withBuild false false default : ServerGameState Float32) tr s ∧
      (∀ x ∈ tr, sessionOp x.op = true) ∧
      ∃ e, s.entities.lookup 5 = some e ∧ e.serverOwned = false ∧ e.owner ∉ s.clients := by
  obtain ⟨tr, s, run, hcheck⟩ := exists_run (step LiteralRun.lz4)
    (ServerGameState.withBuild false false default : ServerGameState Float32)
    (creation ++ [.ingest 1 (LiteralRun.clonePayload [0x80, 0x00, 0xE0, 0x05, 0xE0]),
      .removeClient (.stored UInt16) 1])
    (fun tr s => tr.all (fun x => sessionOp x.op)
      && (s.entities.lookup 5).any fun e => !e.serverOwned && e.owner ∉ s.clients)
    (by decide +kernel)
  simp only [Bool.and_eq_true, List.all_eq_true, Option.any_eq_true, Bool.not_eq_true',
    decide_eq_true_eq] at hcheck
  obtain ⟨hsession, e, he, hclient, hout⟩ := hcheck
  exact ⟨tr, s, run, hsession, e, he, hclient, hout⟩

end Baston.Zone

/-
Server entities stay the server's, unless their simulator creates them again.

A server entity migrates from client to client, and whoever simulates it passes the
owner check with every record it sends.  Syncs, removes, takeovers and disconnections
all leave `serverOwned` alone.  A create does not: a refresh of the sender's own entity
builds a fresh record with `serverOwned` off.  So the flag survives every run in which
no simulator re-creates a server entity it holds, and it is lost in one that does.
-/
import Baston.Proofs.Authority
import Baston.Rage.LiteralRun

namespace Baston.Zone

open Assoc Baston.Rage Trace ServerGameState

variable {F : Type} [Scalar F]

/-- A record is a create that will be accepted for a live server entity. -/
def recreatesServerEntity (source : UInt32) (s : ServerGameState F) (r : InboundRecord) : Bool :=
  match r with
  | .clone true id u (some _) _ _ =>
    id ≠ notAnObjectId && s.routingBuckets.allowsClientCreate source &&
      (s.entities.lookup id).any fun e =>
        e.serverOwned && e.owner = source && e.uniqifier = u
  | _ => false

/-- No record of the step re-creates a server entity. -/
def noServerRecreate (lz4 : Lz4) (x : Entry (ServerGameState F) (Op F) Answer) : Bool :=
  match x.op with
  | .ingest source payload =>
    (x.pre.trail lz4 source payload).all fun y => !recreatesServerEntity source y.pre y.op
  | _ => true

/-- A turn of the record loop is an accepted remove of `id` by its current owner. -/
def removedByOwner (source : UInt32) (id : UInt16)
    (y : Entry (ServerGameState F) InboundRecord Bool) : Bool :=
  match y.op with
  | .remove id' _ =>
    id' = id && y.answer && (y.pre.entities.lookup id).any fun e => e.owner = source
  | _ => false

/-- By the history alone: `id` was spawned by the server, and since then it was neither
despawned nor removed by its owner. -/
def serverSpawned (lz4 : Lz4) : List (Entry (ServerGameState F) (Op F) Answer) → UInt16 → Bool
  | [], _ => false
  | x :: past, id =>
    match x.op, x.answer with
    | .spawnWithId id' _, .flag true => id = id' || serverSpawned lz4 past id
    | .spawn _, .spawned (some id') => id = id' || serverSpawned lz4 past id
    | .despawn id', _ => serverSpawned lz4 past id && id ≠ id'
    | .ingest source payload, _ => serverSpawned lz4 past id &&
        !(x.pre.trail lz4 source payload).any (removedByOwner source id)
    | _, _ => serverSpawned lz4 past id

theorem serverSpawned_quiet {lz4 : Lz4} {past : List (Entry (ServerGameState F) (Op F) Answer)}
    {s s' : ServerGameState F} {op : Op F} {a : Answer} {id : UInt16} (h : op.Quiet) :
    serverSpawned lz4 (⟨s, op, a, s'⟩ :: past) id = serverSpawned lz4 past id := by
  cases op <;> first | exact h.elim | rfl

/-- The registry holds a server entity under `id`. -/
def HoldsServerEntity (s : ServerGameState F) (id : UInt16) : Prop :=
  ∃ e, s.entities.lookup id = some e ∧ e.serverOwned = true

namespace HoldsServerEntity

variable {s s' : ServerGameState F} {id : UInt16}

omit [Scalar F] in
/-- Replacing an entity by one with the same flag. -/
theorem update (h : HoldsServerEntity s id) {id' : UInt16} {e e' : ServerEntity F}
    (he : s.entities.lookup id' = some e) (hflag : e'.serverOwned = e.serverOwned) :
    HoldsServerEntity (s.afterUpdate id' e') id := by
  obtain ⟨e0, h0, hs⟩ := h
  by_cases hid : id = id'
  · subst hid
    rw [h0] at he
    refine ⟨e', AList.lookup_insert _, ?_⟩
    rw [hflag, ← Option.some.inj he, hs]
  · exact ⟨e0, (AList.lookup_insert_ne hid).trans h0, hs⟩

/-- One record: the entity keeps its flag, or its owner removed it. -/
theorem record (h : HoldsServerEntity s id) {source : UInt32} {r : InboundRecord} {ok : Bool}
    (hcond : recreatesServerEntity source s r = false) (heff : RecordEffect source s r s' ok) :
    HoldsServerEntity s' id ∨ removedByOwner source id ⟨s, r, ok, s'⟩ = true := by
  cases heff with
  | kept => exact .inl h
  | @created id' u ty token data allowed own object _ =>
      left
      obtain ⟨e, he, hs⟩ := h
      have hid : id ≠ id' := by
        rintro rfl
        obtain ⟨ho, hu⟩ := own e he
        simp [recreatesServerEntity, object, allowed, he, hs, ho, hu] at hcond
      exact ⟨e, (AList.lookup_insert_ne hid).trans he, hs⟩
  | synced live =>
      refine .inl (h.update live ?_)
      unfold syncedEntity
      split
      · rfl
      · rfl
  | @removed id' u e live owner _ _ _ =>
      by_cases hid : id = id'
      · subst hid
        exact .inr (by simp [removedByOwner, live, owner])
      · obtain ⟨e0, h0, hs⟩ := h
        exact .inl ⟨e0, (AList.lookup_erase_ne hid).trans h0, hs⟩
  | takenOver _ live => exact .inl (h.update live rfl)
  | noted => exact .inl h

/-- A whole payload. -/
theorem ingest {lz4 : Lz4} (h : HoldsServerEntity s id) {source : UInt32}
    {payload : List UInt8} {out : IngestOutcome}
    (hcond : ∀ y ∈ s.trail lz4 source payload, recreatesServerEntity source y.pre y.op = false)
    (hin : s.ingestClonePayload lz4 source payload = some (s', out)) :
    HoldsServerEntity s' id ∨
      ∃ y ∈ s.trail lz4 source payload, removedByOwner source id y = true := by
  refine ingest_along (I := fun turns t => HoldsServerEntity t id ∨
    ∃ y ∈ turns, removedByOwner source id y = true)
    (P := fun t r => recreatesServerEntity source t r = false) (fun _ => .inl h) (.inl h) ?_ hcond hin
  intro past t t' r ok hI hP hr
  rcases hI with hI | ⟨y, hy, hrem⟩
  · rcases hI.record hP (applyRecord_effect hr) with hkept | hrem
    · exact .inl hkept
    · exact .inr ⟨_, List.mem_cons_self, hrem⟩
  · exact .inr ⟨y, List.mem_cons_of_mem _ hy, hrem⟩

end HoldsServerEntity

omit [Scalar F] in
/-- A disconnection only takes the simulator away. -/
theorem removeClient_serverOwned {s s' : ServerGameState F} {ord : IterOrder UInt16}
    {source : UInt32} {ids : List UInt16} (h : s.removeClient ord source = some (s', ids))
    {id : UInt16} {e : ServerEntity F} (he : s.entities.lookup id = some e)
    (hs : e.serverOwned = true) :
    s'.entities.lookup id = some (if e.owner = source then { e with owner := 0 } else e) := by
  rw [removeClient_lookup h, he]
  by_cases hown : e.owner = source
  · simp [hown, orphan, hs]
  · simp [hown]

/-- What the history says is alive, the registry holds, with the flag on. -/
theorem serverSpawned_held {lz4 : Lz4} {init : ServerGameState F}
    {tr : List (Entry (ServerGameState F) (Op F) Answer)} {s : ServerGameState F}
    (run : Run (step lz4) init tr s) (hcond : ∀ x ∈ tr, noServerRecreate lz4 x = true) :
    ∀ id, serverSpawned lz4 tr id = true → HoldsServerEntity s id := by
  refine run.invariant (I := fun tr s => ∀ id, serverSpawned lz4 tr id = true →
    HoldsServerEntity s id) (P := fun _ x => noServerRecreate lz4 x = true)
    (fun id h => absurd h (by simp [serverSpawned])) ?_ (along_of_forall hcond)
  intro past s op a s' _ ih hstep hP id hid
  cases step_effect hstep with
  | ingested h =>
      simp only [serverSpawned, Bool.and_eq_true, Bool.not_eq_true', List.any_eq_false] at hid
      simp only [noServerRecreate, List.all_eq_true, Bool.not_eq_true'] at hP
      rcases (ih id hid.1).ingest hP h with hkept | ⟨y, hy, hrem⟩
      · exact hkept
      · exact absurd hrem (hid.2 y hy)
  | joined => exact ih id hid
  | left h =>
      obtain ⟨e, he, hs⟩ := ih id hid
      refine ⟨_, removeClient_serverOwned h he hs, ?_⟩
      split
      · exact hs
      · exact hs
  | leased h =>
      obtain ⟨e, he, hs⟩ := ih id hid
      exact ⟨e, by rw [(leaseObjectIds_cases h).2.2.2.1]; exact he, hs⟩
  | @spawned _ _ id' req ok _ hop h =>
      rcases spawnWithId_cases h with ⟨rfl, token, rfl⟩ | ⟨rfl, -, -, -, createData, -, rfl⟩
      · rcases hop with ⟨rfl, rfl⟩ | ⟨rfl, -, rfl⟩
        · exact ih id hid
        · exact ih id hid
      · have hid' : id = id' ∨ serverSpawned lz4 past id = true := by
          rcases hop with ⟨rfl, rfl⟩ | ⟨rfl, -, rfl⟩
          · simpa [serverSpawned] using hid
          · simpa [serverSpawned] using hid
        by_cases heq : id = id'
        · subst heq
          exact ⟨_, AList.lookup_insert _, rfl⟩
        · obtain ⟨e, he, hs⟩ := ih id (hid'.resolve_left heq)
          exact ⟨e, (AList.lookup_insert_ne heq).trans he, hs⟩
  | exhausted => exact ih id hid
  | despawned h =>
      simp only [serverSpawned, Bool.and_eq_true, decide_eq_true_eq] at hid
      obtain ⟨e, he, hs⟩ := ih id hid.1
      rcases despawnEntity_cases h with ⟨-, rfl, -⟩ | ⟨-, -, rfl, -⟩
      · exact ⟨e, he, hs⟩
      · exact ⟨e, (AList.lookup_erase_ne hid.2).trans he, hs⟩
  | @rewritten _ f _ quiet hf =>
      obtain ⟨e, he, hs⟩ := ih id (by rwa [serverSpawned_quiet quiet] at hid)
      refine ⟨f id e, ?_, ?_⟩
      · show (s.entities.mapVals f).lookup id = _
        rw [Map.lookup_mapVals, he]
        rfl
      · rw [hf.keeps id e]
        exact hs
  | routed quiet => exact ih id (by rwa [serverSpawned_quiet quiet] at hid)
  | clock => exact ih id hid
  | viewed quiet _ => exact ih id (by rwa [serverSpawned_quiet quiet] at hid)

/-- **Server entities stay the server's** in every run in which no simulator re-creates one it
holds: an entity the server spawned, and that was neither despawned nor removed by its
owner since, is in the registry with `serverOwned` on; and whichever client leaves, it
stays and at most becomes ownerless. -/
theorem server_entities_stay (lz4 : Lz4) (bigMode lengthHack : Bool) (build : GameBuild)
    {tr : List (Entry (ServerGameState F) (Op F) Answer)} {s : ServerGameState F}
    (run : Run (step lz4) (ServerGameState.withBuild bigMode lengthHack build) tr s)
    (hcond : ∀ x ∈ tr, noServerRecreate lz4 x = true) (id : UInt16)
    (hid : serverSpawned lz4 tr id = true) :
    ∃ e, s.entities.lookup id = some e ∧ e.serverOwned = true ∧
      ∀ ord source, ∃ s' ids, s.removeClient ord source = some (s', ids) ∧
        s'.entities.lookup id = some (if e.owner = source then { e with owner := 0 } else e) := by
  obtain ⟨e, he, hs⟩ := serverSpawned_held run hcond id hid
  refine ⟨e, he, hs, fun ord source => ?_⟩
  have ok : TableOK s := run.safe (I := TableOK) (TableOK.withBuild bigMode lengthHack build)
    fun ok h => ok.step h
  obtain ⟨⟨s', ids⟩, h⟩ := removeClient_total ord (ok.leases source) fun id hid => ok.key_lt hid
  exact ⟨s', ids, h, removeClient_serverOwned h he hs⟩

/-! ### A simulator that does, and one that does not -/

/-- The server spawns object 5, client 1 brings its player entity 10 and is handed the object. -/
def adoption : List (Op Float32) :=
  [.spawnWithId 5 ⟨.object, 1, Vec3.zero, 0.0, false⟩,
    .ingest 1 (LiteralRun.clonePayload
      [0x20, 0x00, 0x20, 0x0A, 0x00, 0x00, 0x00, 0x00, 0xB0, 0x00, 0xE0]),
    .seedPositions (AList.singleton 1 Vec3.zero), .reassign (.stored UInt16)]

/-- A create of object 5 with uniqifier 1. -/
def recreation : Op Float32 := .ingest 1 (LiteralRun.clonePayload
  [0x20, 0x00, 0x20, 0x05, 0x00, 0x00, 0x00, 0x00, 0x50, 0x00, 0xE0])

/-- The simulator survives as long as it only disconnects. -/
theorem server_entity_outlives_simulator :
    ∃ tr s, Run (step LiteralRun.lz4)
        (ServerGameState.withBuild false false default : ServerGameState Float32) tr s ∧
      (∀ x ∈ tr, noServerRecreate LiteralRun.lz4 x = true) ∧
      serverSpawned LiteralRun.lz4 tr 5 = true ∧
      ∃ e, s.entities.lookup 5 = some e ∧ e.serverOwned = true ∧
        ∀ ord source, ∃ s' ids, s.removeClient ord source = some (s', ids) ∧
          s'.entities.lookup 5
            = some (if e.owner = source then { e with owner := 0 } else e) := by
  obtain ⟨tr, s, run, hcheck⟩ := exists_run (step LiteralRun.lz4)
    (ServerGameState.withBuild false false default : ServerGameState Float32)
    (adoption ++ [.removeClient (.stored UInt16) 1])
    (fun tr _ => tr.all (noServerRecreate LiteralRun.lz4) && serverSpawned LiteralRun.lz4 tr 5)
    (by decide +kernel)
  rw [Bool.and_eq_true, List.all_eq_true] at hcheck
  exact ⟨tr, s, run, hcheck.1, hcheck.2,
    server_entities_stay LiteralRun.lz4 false false default run hcheck.1 5 hcheck.2⟩

/-- The simulator creates the entity once more, and the server loses it. -/
theorem server_entity_lost_to_recreate :
    ∃ tr s, Run (step LiteralRun.lz4)
        (ServerGameState.withBuild false false default : ServerGameState Float32) tr s ∧
      serverSpawned LiteralRun.lz4 tr 5 = true ∧ ¬ HoldsServerEntity s 5 := by
  obtain ⟨tr, s, run, hcheck⟩ := exists_run (step LiteralRun.lz4)
    (ServerGameState.withBuild false false default : ServerGameState Float32)
    (adoption ++ [recreation])
    (fun tr s => serverSpawned LiteralRun.lz4 tr 5
      && (s.entities.lookup 5).any fun e => !e.serverOwned) (by decide +kernel)
  rw [Bool.and_eq_true] at hcheck
  refine ⟨tr, s, run, hcheck.1, ?_⟩
  rintro ⟨e, he, hs⟩
  simp [he, hs] at hcheck

end Baston.Zone

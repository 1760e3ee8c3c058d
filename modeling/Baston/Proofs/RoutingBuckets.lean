/-
Which routing bucket an entity is in.

Scripts keep one table of entities' buckets and the game state another, and a refresh copies the
first over the second, entity by entity.  The first knows nothing of how an entity came to be: its
default is bucket 0, and what it has under an id outlives the entity.  So a ledger is kept along a
run of what each entity's bucket is due to be, and the statement carried is what the two tables
have to do with it.
-/
import Baston.Proofs.IdTable
import Baston.Proofs.Peers

namespace Baston.Gateway

open Assoc Trace Baston.Rage Baston.Scripting Baston.Zone

variable {F : Type}

/-! ### The ledger -/

/-- The bucket an entity is due to be in, and whether a script put it there. -/
structure Due where
  bucket : UInt32
  scripted : Bool
  deriving DecidableEq

/-- What is due for the entity that lives under an id. -/
abbrev Ledger := UInt16 → Due

/-- The ids under which an entity lives. -/
def liveIds (onesync : Option (ServerGameState F)) : List UInt16 :=
  (onesync.map fun gs => gs.entities.keys).getD []

namespace Ledger

/-- An entity that was not there before is due where it was created. -/
def born (L : Ledger) (before after : ServerGameState F) : Ledger := fun id =>
  match before.entities.lookup id, after.entities.lookup id with
  | none, some e => ⟨e.routingBucket, false⟩
  | _, _ => L id

/-- The ledger after the turns of the record loop, newest first. -/
def turns {ι ο : Type} (L : Ledger) : List (Entry (ServerGameState F) ι ο) → Ledger
  | [] => L
  | t :: past => (L.turns past).born t.pre t.post

/-- The ledger after the commands of a tick. -/
def commands [Scalar F] (L : Ledger) : List (WorldCommand F) → ServerGameState F → Ledger
  | [], _ => L
  | command :: rest, gs =>
    match UdpServer.applyWorldCommand gs command with
    | some gs' => (L.born gs gs').commands rest gs'
    | none => L

/-- A script puts a live entity somewhere else. -/
def call (L : Ledger) (live : List UInt16) : RoutingCall → Ledger
  | .setEntityBucket entity bucket => fun id =>
    if id.toUInt32 = entity ∧ id ∈ live then ⟨bucket, true⟩ else L id
  | .removeEntity _ | .setPlayerBucket _ _ | .setLockdownMode _ _ | .setPopulationEnabled _ _ => L

theorem call_setEntityBucket (L : Ledger) (live : List UInt16) (entity bucket : UInt32)
    (id : UInt16) : L.call live (.setEntityBucket entity bucket) id
      = if id.toUInt32 = entity ∧ id ∈ live then ⟨bucket, true⟩ else L id := rfl

def calls (L : Ledger) (live : List UInt16) (cs : List RoutingCall) : Ledger :=
  cs.foldl (fun L c => L.call live c) L

end Ledger

namespace UdpServer

/-- The game state a clone packet meets: the sender's bucket is taken over first. -/
def received (s : UdpServer F) (gs : ServerGameState F) (source : UInt32) : ServerGameState F :=
  mirrorPolicy s.routing (mirrorPlayer s.routing gs source) (s.routing.playerBucket source)

variable [Scalar F]

/-- What a step does to the ledger. -/
def keepLedger (lz4 : Lz4) (L : Ledger) (e : UdpEntry F) : Ledger :=
  match e.op with
  | .route peer _ data =>
    match e.pre.peerSources.lookup peer, e.pre.onesync with
    | some source, some gs => L.turns ((e.pre.received gs source).trail lz4 source data)
    | _, _ => L
  | .onesyncTick ord pending =>
    match (e.pre.refreshRoutingState ord).onesync with
    | some gs => L.commands pending gs
    | none => L
  | .disconnect _ peer handlers =>
    if peer ∈ e.pre.peerSources then L.calls (liveIds e.post.onesync) handlers else L
  | .script c => L.call (liveIds e.pre.onesync) c
  | _ => L

/-- The ledger at the end of a run. -/
def ledger (lz4 : Lz4) : List (UdpEntry F) → Ledger
  | [] => fun _ => ⟨0, false⟩
  | e :: past => keepLedger lz4 (ledger lz4 past) e

/-- Every entity is where it is due. -/
def Placed (L : Ledger) (gs : ServerGameState F) : Prop :=
  ∀ id e, gs.entities.lookup id = some e → e.routingBucket = (L id).bucket

/-- After its refresh, a tick finds every entity where it is due. -/
def Stable (lz4 : Lz4) (past : List (UdpEntry F)) (e : UdpEntry F) : Prop :=
  match e.op with
  | .onesyncTick ord _ => ∀ gs, (e.pre.refreshRoutingState ord).onesync = some gs →
      Placed (ledger lz4 past) gs
  | _ => True

/-! ### Steps in order -/

/-- The revision no counter of changes reaches. -/
def lastRevision : Nat := 18446744073709551615

/-- A script drops an entity's assignment only where there is no live one. -/
def orderlyCall (live : List UInt16) (L : Ledger) (r : InMemoryRoutingControl) :
    RoutingCall → Bool
  | .removeEntity entity => live.all fun id =>
    decide (id.toUInt32 ≠ entity) || !(L id).scripted || decide (r.entityBucket entity = 0)
  | _ => true

def orderlyCalls (live : List UInt16) (L : Ledger) (r : InMemoryRoutingControl) :
    List RoutingCall → Bool
  | [] => true
  | c :: rest => orderlyCall live L r c && orderlyCalls live (L.call live c) (c.apply r) rest

/-- An owner creates its live entity again only from the bucket it is in. -/
def recreatesInPlace (source : UInt32) (gs : ServerGameState F) : InboundRecord → Bool
  | .clone true id uniqifier (some _) _ _ =>
    match gs.entities.lookup id with
    | some e => !gs.routingBuckets.allowsClientCreate source || e.owner ≠ source ||
      e.uniqifier ≠ uniqifier || gs.routingBuckets.playerBucket source = e.routingBucket
    | none => true
  | _ => true

/-- What keeps a step in order, before it is taken.  A refresh that has changes to take over
finds, for every entity no script has placed, the bucket it was created in; an entity is created
again where it is, or a refresh is due; and the assignment of a live entity is not dropped.  The
revision counter does not come around. -/
def orderlyStep (lz4 : Lz4) (past : List (UdpEntry F)) (e : UdpEntry F) : Bool :=
  let L := ledger lz4 past
  match e.op with
  | .onesyncTick _ _ => e.pre.routing.revision = e.pre.routingRevision ||
    (liveIds e.pre.onesync).all fun id =>
      (L id).scripted || e.pre.routing.entityBucket id.toUInt32 = (L id).bucket
  | .route peer _ data =>
    match e.pre.peerSources.lookup peer, e.pre.onesync with
    | some source, some gs => e.pre.routing.revision ≠ e.pre.routingRevision ||
      ((e.pre.received gs source).trail lz4 source data).all fun t =>
        recreatesInPlace source t.pre t.op
    | _, _ => true
  | .disconnect _ _ handlers =>
    orderlyCalls (liveIds e.post.onesync) L e.pre.routing handlers &&
      decide (e.pre.routing.revision.toNat + handlers.length + 1 < lastRevision)
  | .script c => orderlyCall (liveIds e.pre.onesync) L e.pre.routing c &&
    decide (e.pre.routing.revision.toNat + 1 < lastRevision)
  | _ => true

/-! ### What is carried along a run -/

/-- A game state, the table of the scripts, and the ledger; `calm` says that no refresh is due. -/
structure Agrees (routing : InMemoryRoutingControl) (calm : Prop) (L : Ledger)
    (gs : ServerGameState F) : Prop where
  table : TableOK gs
  scripted : ∀ id e, gs.entities.lookup id = some e → (L id).scripted = true →
    routing.entityBucket id.toUInt32 = (L id).bucket
  placed : calm → Placed L gs

/-- The revision taken over last is not ahead, but for the first. -/
structure Counted (routing : InMemoryRoutingControl) (taken : UInt64) : Prop where
  room : routing.revision.toNat < lastRevision
  behind : taken.toNat = lastRevision ∨ taken.toNat ≤ routing.revision.toNat

/-- What a run of orderly steps keeps. -/
structure Carried (L : Ledger) (s : UdpServer F) : Prop where
  agrees : ∀ gs, s.onesync = some gs →
    Agrees s.routing (s.routing.revision = s.routingRevision) L gs
  counted : Counted s.routing s.routingRevision

omit [Scalar F] in
theorem mem_liveIds {gs : ServerGameState F} {id : UInt16} {e : ServerEntity F}
    (h : gs.entities.lookup id = some e) : id ∈ liveIds (some gs) :=
  TableOK.mem_of_lookup h

namespace Agrees

variable {routing : InMemoryRoutingControl} {calm : Prop} {L L' : Ledger}
  {gs gs' : ServerGameState F}

omit [Scalar F] in
/-- The rule for a step of the game state: an entity after it is new, and the ledger has it where
it is, or it was there and the ledger has not moved. -/
theorem step (h : Agrees routing calm L gs) (table : TableOK gs')
    (hentity : ∀ id e', gs'.entities.lookup id = some e' →
      L' id = ⟨e'.routingBucket, false⟩ ∨ ∃ e, gs.entities.lookup id = some e ∧ L' id = L id ∧
        (calm → e'.routingBucket = e.routingBucket)) :
    Agrees routing calm L' gs' := by
  refine ⟨table, ?_, ?_⟩
  · intro id e' he' hscripted
    rcases hentity id e' he' with hnew | ⟨e, he, hL, -⟩
    · rw [hnew] at hscripted
      cases hscripted
    · rw [hL] at hscripted ⊢
      exact h.scripted id e he hscripted
  · intro hcalm id e' he'
    rcases hentity id e' he' with hnew | ⟨e, he, hL, hbucket⟩
    · rw [hnew]
    · rw [hL, hbucket hcalm]
      exact h.placed hcalm id e he

omit [Scalar F] in
/-- Entities go, or stay where they are. -/
theorem keeps (h : Agrees routing calm L gs) (table : TableOK gs')
    (hentity : ∀ id e', gs'.entities.lookup id = some e' →
      ∃ e, gs.entities.lookup id = some e ∧ e'.routingBucket = e.routingBucket) :
    Agrees routing calm L gs' := by
  refine h.step table fun id e' he' => ?_
  obtain ⟨e, he, hbucket⟩ := hentity id e' he'
  exact .inr ⟨e, he, rfl, fun _ => hbucket⟩

omit [Scalar F] in
/-- One entity may be new. -/
theorem born (h : Agrees routing calm L gs) (table : TableOK gs')
    (hentity : ∀ id e e', gs.entities.lookup id = some e → gs'.entities.lookup id = some e' →
      calm → e'.routingBucket = e.routingBucket) :
    Agrees routing calm (L.born gs gs') gs' := by
  refine h.step table fun id e' he' => ?_
  cases he : gs.entities.lookup id with
  | none =>
      left
      unfold Ledger.born
      rw [he, he']
  | some e =>
      refine .inr ⟨e, rfl, ?_, hentity id e e' he he'⟩
      unfold Ledger.born
      rw [he]

omit [Scalar F] in
theorem unsettled (h : Agrees routing calm L gs) : Agrees routing False L gs :=
  ⟨h.table, h.scripted, False.elim⟩

end Agrees

/-! ### Calls of scripts -/

section Calls

variable {routing : InMemoryRoutingControl} {taken : UInt64} {L : Ledger} {gs : ServerGameState F}

theorem revision_apply (c : RoutingCall) :
    (c.apply routing).revision = routing.revision + 1 := by
  cases c <;> rfl

theorem toNat_revision_apply (c : RoutingCall)
    (hroom : routing.revision.toNat + 1 < lastRevision) :
    (c.apply routing).revision.toNat = routing.revision.toNat + 1 := by
  unfold lastRevision at hroom
  have hone : (1 : UInt64).toNat = 1 := rfl
  rw [revision_apply, UInt64.toNat_add, hone]
  exact Nat.mod_eq_of_lt (by omega)

/-- After a change a refresh is due. -/
theorem Counted.apply (h : Counted routing taken) (c : RoutingCall)
    (hroom : routing.revision.toNat + 1 < lastRevision) :
    Counted (c.apply routing) taken ∧ (c.apply routing).revision ≠ taken := by
  have hnext := toNat_revision_apply c hroom
  have hbehind := h.behind
  refine ⟨⟨by rw [hnext]; exact hroom, by omega⟩, fun heq => ?_⟩
  rw [← heq, hnext] at hbehind
  omega

theorem entityBucket_setEntityBucket (entity bucket id : UInt32) :
    (routing.setEntityBucket entity bucket).entityBucket id
      = if id = entity then bucket else routing.entityBucket id := by
  unfold InMemoryRoutingControl.setEntityBucket InMemoryRoutingControl.entityBucket
  dsimp only
  by_cases hzero : bucket = 0
  · rw [if_pos hzero, Map.lookup_erase_of]
    split
    · rw [hzero]
      rfl
    · rfl
  · rw [if_neg hzero, Map.lookup_insert_of]
    split <;> rfl

theorem entityBucket_removeEntity (entity id : UInt32) :
    (routing.removeEntity entity).entityBucket id
      = if id = entity then 0 else routing.entityBucket id := by
  unfold InMemoryRoutingControl.removeEntity InMemoryRoutingControl.entityBucket
  dsimp only
  rw [Map.lookup_erase_of]
  split <;> rfl

omit [Scalar F] in
/-- A call in order keeps the ledger and the table of the scripts together. -/
theorem Agrees.call (h : Agrees routing False L gs) (c : RoutingCall)
    (hok : orderlyCall (liveIds (some gs)) L routing c = true) :
    Agrees (c.apply routing) False (L.call (liveIds (some gs)) c) gs := by
  refine ⟨h.table, ?_, False.elim⟩
  intro id e he hscripted
  have hlive := mem_liveIds he
  cases c with
  | setEntityBucket entity bucket =>
      show (routing.setEntityBucket entity bucket).entityBucket id.toUInt32 = _
      rw [entityBucket_setEntityBucket]
      rw [Ledger.call_setEntityBucket] at hscripted ⊢
      by_cases hid : id.toUInt32 = entity
      · rw [if_pos hid, if_pos ⟨hid, hlive⟩]
      · rw [if_neg fun hboth => hid hboth.1] at hscripted
        rw [if_neg hid, if_neg fun hboth => hid hboth.1]
        exact h.scripted id e he hscripted
  | removeEntity entity =>
      show (routing.removeEntity entity).entityBucket id.toUInt32 = (L id).bucket
      rw [entityBucket_removeEntity]
      have hkept := h.scripted id e he hscripted
      by_cases hid : id.toUInt32 = entity
      · have hzero := List.all_eq_true.mp hok id hlive
        rw [show (L id).scripted = true from hscripted] at hzero
        have hbucket : routing.entityBucket entity = 0 := by simpa [hid] using hzero
        rw [if_pos hid, ← hkept, hid, hbucket]
      · rw [if_neg hid]
        exact hkept
  | setPlayerBucket player bucket => exact h.scripted id e he hscripted
  | setLockdownMode bucket mode => exact h.scripted id e he hscripted
  | setPopulationEnabled bucket enabled => exact h.scripted id e he hscripted

omit [Scalar F] in
theorem Agrees.calls : ∀ (cs : List RoutingCall) {routing : InMemoryRoutingControl} {L : Ledger},
    Agrees routing False L gs → orderlyCalls (liveIds (some gs)) L routing cs = true →
      Agrees (cs.foldl RoutingCall.apply routing) False (L.calls (liveIds (some gs)) cs) gs := by
  intro cs
  induction cs with
  | nil => exact fun h _ => h
  | cons c rest ih =>
      intro routing L h hok
      obtain ⟨hc, hrest⟩ := Bool.and_eq_true_iff.mp hok
      exact ih (h.call c hc) hrest

theorem Counted.calls : ∀ (cs : List RoutingCall) {routing : InMemoryRoutingControl},
    Counted routing taken → routing.revision.toNat + cs.length < lastRevision →
      Counted (cs.foldl RoutingCall.apply routing) taken ∧
        (cs.foldl RoutingCall.apply routing).revision.toNat
          = routing.revision.toNat + cs.length := by
  intro cs
  induction cs with
  | nil => exact fun h _ => ⟨h, rfl⟩
  | cons c rest ih =>
      intro routing h hroom
      rw [List.length_cons] at hroom ⊢
      have hnext := @toNat_revision_apply routing c (by omega)
      obtain ⟨hcounted, hrevision⟩ := ih (h.apply c (by omega)).1 (by rw [hnext]; omega)
      exact ⟨hcounted, by rw [List.foldl_cons, hrevision, hnext]; omega⟩

end Calls

/-! ### The refresh -/

section Refresh

variable {routing : InMemoryRoutingControl} {gs : ServerGameState F}

omit [Scalar F] in
theorem mirrorPolicy_table (ok : TableOK gs) (bucket : UInt32) :
    TableOK (mirrorPolicy routing gs bucket) :=
  ok.of_same rfl rfl rfl (fun _ => Iff.rfl) fun _ => rfl

omit [Scalar F] in
theorem mirrorPolicies_entities (buckets : List UInt32) :
    ∀ gs : ServerGameState F, (buckets.foldl (mirrorPolicy routing) gs).entities = gs.entities ∧
      (TableOK gs → TableOK (buckets.foldl (mirrorPolicy routing) gs)) := by
  induction buckets with
  | nil => exact fun gs => ⟨rfl, fun ok => ok⟩
  | cons bucket rest ih =>
      intro gs
      obtain ⟨hentities, htable⟩ := ih (mirrorPolicy routing gs bucket)
      exact ⟨hentities, fun ok => htable (mirrorPolicy_table ok bucket)⟩

omit [Scalar F] in
theorem mirrorPlayers_entities (sources : List UInt32) :
    ∀ gs : ServerGameState F, (sources.foldl (mirrorPlayer routing) gs).entities = gs.entities ∧
      (TableOK gs → TableOK (sources.foldl (mirrorPlayer routing) gs)) := by
  induction sources with
  | nil => exact fun gs => ⟨rfl, fun ok => ok⟩
  | cons source rest ih =>
      intro gs
      obtain ⟨hentities, htable⟩ := ih (mirrorPlayer routing gs source)
      exact ⟨hentities, fun ok =>
        htable (ok.of_same rfl rfl rfl (fun _ => Iff.rfl) fun _ => rfl)⟩

omit [Scalar F] in
/-- Every entity of the list goes where the scripts' table has it. -/
theorem mirrorEntities_lookup (ids : List UInt16) (id : UInt16) :
    ∀ gs : ServerGameState F, (ids.foldl (mirrorEntity routing) gs).entities.lookup id
        = (gs.entities.lookup id).map (fun e =>
          if id ∈ ids then { e with routingBucket := routing.entityBucket id.toUInt32 } else e) ∧
      (TableOK gs → TableOK (ids.foldl (mirrorEntity routing) gs)) := by
  induction ids with
  | nil =>
      intro gs
      refine ⟨?_, fun ok => ok⟩
      simp
  | cons first rest ih =>
      intro gs
      obtain ⟨hlookup, htable⟩ := ih (mirrorEntity routing gs first)
      refine ⟨?_, fun ok => htable (ok.of_same rfl rfl rfl (fun _ => Map.mem_modify _ _ _ _)
        fun _ => rfl)⟩
      rw [List.foldl_cons, hlookup]
      unfold mirrorEntity ServerGameState.setEntityRoutingBucket
      dsimp only
      rw [Map.lookup_modify]
      by_cases hid : id = first
      · subst hid
        rw [if_pos rfl, Option.map_map]
        congr 1
        funext e
        simp only [Function.comp, List.mem_cons_self, if_true]
        split <;> rfl
      · rw [if_neg hid]
        congr 1
        funext e
        exact if_congr ⟨List.mem_cons_of_mem _, fun h => (List.mem_cons.mp h).resolve_left hid⟩
          rfl rfl

omit [Scalar F] in
/-- What a refresh leaves: nothing new to take over, and every entity where the scripts have it. -/
theorem refresh_cases (s : UdpServer F) (ord : Orders) :
    (s.refreshRoutingState ord = s ∧
        (s.routing.revision = s.routingRevision ∨ s.onesync = none)) ∨
      ∃ gs gs', s.onesync = some gs ∧ s.routing.revision ≠ s.routingRevision ∧
        s.refreshRoutingState ord
          = { s with onesync := some gs', routingRevision := s.routing.revision } ∧
        (TableOK gs → TableOK gs') ∧
        ∀ id, gs'.entities.lookup id = (gs.entities.lookup id).map fun e =>
          { e with routingBucket := s.routing.entityBucket id.toUInt32 } := by
  unfold refreshRoutingState
  by_cases hsame : s.routing.revision = s.routingRevision
  · rw [if_pos hsame]
    exact .inl ⟨rfl, .inl hsame⟩
  · rw [if_neg hsame]
    cases hgs : s.onesync with
    | none => exact .inl ⟨rfl, .inr rfl⟩
    | some gs =>
        dsimp only
        have hplayers := @mirrorPlayers_entities F s.routing
          (ord.clients.arrange gs.clients.keys) gs
        have hentities := fun id => @mirrorEntities_lookup F s.routing
          (gs.entities.keys.insertionSort (· ≤ ·)) id
          ((ord.clients.arrange gs.clients.keys).foldl (mirrorPlayer s.routing) gs)
        have hpolicies := @mirrorPolicies_entities F s.routing
          ((0 :: (ord.clients.arrange gs.clients.keys).map s.routing.playerBucket
            ++ (gs.entities.keys.insertionSort (· ≤ ·)).map fun id =>
              s.routing.entityBucket id.toUInt32).dedup.insertionSort (· ≤ ·))
          ((gs.entities.keys.insertionSort (· ≤ ·)).foldl (mirrorEntity s.routing)
            ((ord.clients.arrange gs.clients.keys).foldl (mirrorPlayer s.routing) gs))
        refine .inr ⟨gs, _, rfl, hsame, rfl,
          fun ok => hpolicies.2 ((hentities 0).2 (hplayers.2 ok)), fun id => ?_⟩
        rw [hpolicies.1, (hentities id).1, hplayers.1]
        cases he : gs.entities.lookup id with
        | none => rfl
        | some e =>
            have hmem : id ∈ gs.entities.keys.insertionSort (· ≤ ·) :=
              (List.mem_insertionSort _).mpr (TableOK.mem_of_lookup he)
            rw [Option.map_some, Option.map_some, if_pos hmem]

end Refresh

/-! ### Steps of the game state -/

namespace Agrees

variable {routing : InMemoryRoutingControl} {calm : Prop} {L : Ledger}
  {gs gs' : ServerGameState F}

theorem command (h : Agrees routing calm L gs) {c : WorldCommand F}
    (hc : applyWorldCommand gs c = some gs') : Agrees routing calm (L.born gs gs') gs' := by
  cases c with
  | spawn networkId entityType model position heading dynamic =>
      obtain ⟨⟨t, ok⟩, ht, rfl⟩ := Option.map_eq_some_iff.mp hc
      refine h.born (h.table.spawnWithId ht) fun id e e' he he' _ => ?_
      dsimp only at he'
      rcases ServerGameState.spawnWithId_cases ht with
        ⟨-, token, rfl⟩ | ⟨-, hfree, -, -, createData, -, rfl⟩
      · rw [Option.some.inj (he.symm.trans he')]
      · unfold ServerGameState.afterSpawn at he'
        dsimp only at he'
        rw [Map.lookup_insert_of] at he'
        by_cases hid : id = networkId.toUInt16
        · -- the id would be used
          subst hid
          rw [(h.table.used _).mpr (TableOK.mem_of_lookup he)] at hfree
          cases hfree
        · rw [if_neg hid, he] at he'
          rw [Option.some.inj he']
  | despawn networkId =>
      obtain ⟨⟨t, ok⟩, ht, rfl⟩ := Option.map_eq_some_iff.mp hc
      have hstep : Zone.step LiteralRun.lz4 (.despawn networkId.toUInt16) gs
          = some (t, .flag ok) := by
        show (gs.despawnEntity _).map _ = _
        rw [ht]
        rfl
      have htable : TableOK t := h.table.step hstep
      refine h.born htable fun id e e' he he' _ => ?_
      dsimp only at he'
      rcases ServerGameState.despawnEntity_cases ht with ⟨-, rfl, -⟩ | ⟨-, -, rfl, -⟩
      · rw [Option.some.inj (he.symm.trans he')]
      · unfold ServerGameState.afterRemove at he'
        dsimp only at he'
        rw [Map.lookup_erase_of] at he'
        split at he'
        · cases he'
        · rw [Option.some.inj (he.symm.trans he')]

theorem commands : ∀ (pending : List (WorldCommand F)) {L : Ledger} {gs gs' : ServerGameState F},
    Agrees routing calm L gs → pending.foldlM applyWorldCommand gs = some gs' →
      Agrees routing calm (L.commands pending gs) gs' := by
  intro pending
  induction pending with
  | nil =>
      intro L gs gs' h hrun
      obtain rfl := Option.some.inj hrun
      exact h
  | cons c rest ih =>
      intro L gs gs' h hrun
      rw [List.foldlM_cons] at hrun
      obtain ⟨t, ht, hrun⟩ := Option.bind_eq_some_iff.mp hrun
      unfold Ledger.commands
      rw [ht]
      exact ih (h.command ht) hrun

/-- One record.  Only an owner that creates its entity again can move one. -/
theorem record (h : Agrees routing calm L gs) {source : UInt32} {r : InboundRecord} {ok : Bool}
    (hr : ServerGameState.applyRecord source gs r = some (gs', ok))
    (hok : calm → recreatesInPlace source gs r = true) :
    Agrees routing calm (L.born gs gs') gs' := by
  have heff := ServerGameState.applyRecord_effect hr
  refine h.born (h.table.record heff) fun id e e' he he' hcalm => ?_
  have hplace := hok hcalm
  cases heff with
  | kept => rw [Option.some.inj (he.symm.trans he')]
  | @created id' u ty token data allowed own object bound =>
      unfold ServerGameState.afterCreate at he'
      dsimp only at he'
      rw [Map.lookup_insert_of] at he'
      by_cases hid : id = id'
      · subst hid
        rw [if_pos rfl] at he'
        unfold recreatesInPlace at hplace
        simp only [he, allowed, own e he] at hplace
        have hbucket : gs.routingBuckets.playerBucket source = e.routingBucket := by
          simpa using hplace
        rw [← Option.some.inj he']
        exact hbucket
      · rw [if_neg hid, he] at he'
        rw [Option.some.inj he']
  | @synced id' u ty token data before live owner uniq bucket =>
      unfold ServerGameState.afterUpdate at he'
      dsimp only at he'
      rw [Map.lookup_insert_of] at he'
      by_cases hid : id = id'
      · subst hid
        rw [if_pos rfl] at he'
        obtain rfl := Option.some.inj (live.symm.trans he)
        rw [← Option.some.inj he']
        unfold ServerGameState.syncedEntity
        split <;> rfl
      · rw [if_neg hid, he] at he'
        rw [Option.some.inj he']
  | @removed id' u before live owner uniq bucket bound =>
      unfold ServerGameState.afterRemove at he'
      dsimp only at he'
      rw [Map.lookup_erase_of] at he'
      split at he'
      · cases he'
      · rw [Option.some.inj (he.symm.trans he')]
  | @takenOver target id' before allowed live owner =>
      unfold ServerGameState.afterUpdate at he'
      dsimp only at he'
      rw [Map.lookup_insert_of] at he'
      by_cases hid : id = id'
      · subst hid
        rw [if_pos rfl] at he'
        obtain rfl := Option.some.inj (live.symm.trans he)
        rw [← Option.some.inj he']
      · rw [if_neg hid, he] at he'
        rw [Option.some.inj he']
  | noted leased view => rw [Option.some.inj (he.symm.trans he')]

/-- A clone payload. -/
theorem payload {lz4 : Lz4} (h : Agrees routing calm L gs) {source : UInt32} {data : List UInt8}
    {out : IngestOutcome} (hin : gs.ingestClonePayload lz4 source data = some (gs', out))
    (hok : calm → ∀ t ∈ gs.trail lz4 source data, recreatesInPlace source t.pre t.op = true) :
    Agrees routing calm (L.turns (gs.trail lz4 source data)) gs' := by
  rcases ServerGameState.ingest_run hin with ⟨rfl, hnil⟩ | run
  · rw [hnil]
    exact h
  · refine run.invariant (I := fun past t => Agrees routing calm (L.turns past) t)
      (P := fun _ x => calm → recreatesInPlace source x.pre x.op = true)
      ⟨h.table.addClient source, h.scripted, h.placed⟩ ?_ (along_of_forall fun t ht hcalm =>
        hok hcalm t ht)
    exact fun _ hI hr hP => hI.record hr hP

end Agrees

/-! ### Steps of the server -/

section Steps

variable {lz4 : Lz4} {past : List (UdpEntry F)} {s s' : UdpServer F}
  {out : List (PeerId × Outgoing)}

theorem routingBucket_adopt (players : List (UInt32 × Vec3 F)) (e : ServerEntity F) :
    (ServerGameState.adopt players e).routingBucket = e.routingBucket := by
  unfold ServerGameState.adopt
  split
  · split <;> rfl
  · rfl

omit [Scalar F] in
theorem routingBucket_seedPosition (focus : Map UInt32 (Vec3 F)) (e : ServerEntity F) :
    (ServerGameState.seedPosition focus e).routingBucket = e.routingBucket := by
  unfold ServerGameState.seedPosition
  split
  · split <;> rfl
  · rfl

omit [Scalar F] in
/-- Nothing of the game state but its entities matters. -/
theorem Agrees.of_entities {routing : InMemoryRoutingControl} {calm : Prop} {L : Ledger}
    {gs gs' : ServerGameState F} (h : Agrees routing calm L gs) (table : TableOK gs')
    (hentities : gs'.entities = gs.entities) : Agrees routing calm L gs' :=
  h.keeps table fun _ e' he' => ⟨e', hentities ▸ he', rfl⟩

/-- What a tick does after the commands moves no entity. -/
theorem Agrees.tickTail {routing : InMemoryRoutingControl} {calm : Prop} {L : Ledger}
    {gs : ServerGameState F} (h : Agrees routing calm L gs) (ord : Orders)
    (focus : Map UInt32 (Vec3 F)) (cfg : InterestConfig F) :
    Agrees routing calm L (((((gs.seedUnknownPlayerPositions
      focus).reassignOwnerlessServerEntities ord.entities).tick).tickClients lz4
        ord.entities focus cfg).1) := by
  have hseed : TableOK (gs.seedUnknownPlayerPositions focus) :=
    h.table.step (show Zone.step lz4 (.seedPositions focus) gs = some (_, .unit) from rfl)
  have hadopt := hseed.step (show Zone.step lz4 (.reassign ord.entities) _ = some (_, .unit) from rfl)
  have htick := hadopt.step (show Zone.step lz4 .tick _ = some (_, .unit) from rfl)
  have htable := htick.step
    (show Zone.step lz4 (.tickClients ord.entities focus cfg) _ = some (_, .ticks _) from rfl)
  refine h.keeps htable ?_
  intro id' e' he'
  have he : ((gs.entities.lookup id').map (ServerGameState.seedPosition focus)).map
      (ServerGameState.adopt ((gs.seedUnknownPlayerPositions focus).placedPlayers ord.entities))
        = some e' := by
    rw [← he']
    show _ = (((gs.entities.mapVals fun _ e => ServerGameState.seedPosition focus e).mapVals
      fun _ e => ServerGameState.adopt _ e).lookup id')
    rw [Map.lookup_mapVals, Map.lookup_mapVals]
  obtain ⟨placed, hplaced, rfl⟩ := Option.map_eq_some_iff.mp he
  obtain ⟨e, hlive, rfl⟩ := Option.map_eq_some_iff.mp hplaced
  exact ⟨e, hlive, by rw [routingBucket_adopt, routingBucket_seedPosition]⟩

omit [Scalar F] in
/-- The end of a step in which the game state is what it was, or is changed only by itself. -/
theorem Carried.replace {L L' : Ledger} (h : Carried L s) {gs gs' : ServerGameState F}
    (hgs : s.onesync = some gs)
    (hnext : Agrees s.routing (s.routing.revision = s.routingRevision) L gs →
      Agrees s.routing (s.routing.revision = s.routingRevision) L' gs') :
    Carried L' { s with onesync := some gs' } := by
  refine ⟨fun t ht => ?_, h.counted⟩
  obtain rfl := Option.some.inj ht
  exact hnext (h.agrees gs hgs)

omit [Scalar F] in
theorem Agrees.received {calm : Prop} {L : Ledger} {gs : ServerGameState F}
    (h : Agrees s.routing calm L gs) (source : UInt32) :
    Agrees s.routing calm L (s.received gs source) :=
  h.of_entities (h.table.of_same rfl rfl rfl (fun _ => Iff.rfl) fun _ => rfl) rfl

/-- A packet of the clone stream. -/
theorem carried_route (h : Carried (ledger lz4 past) s) {peer : PeerId} {target : UInt16}
    {data : List UInt8} (hstep : s.onRoute lz4 peer target data = some (s', out))
    (hok : orderlyStep lz4 past ⟨s, .route peer target data, out, s'⟩ = true) :
    Carried (ledger lz4 (⟨s, .route peer target data, out, s'⟩ :: past)) s' := by
  unfold onRoute at hstep
  unfold ledger keepLedger
  unfold orderlyStep at hok
  cases hsource : s.peerSources.lookup peer with
  | none =>
      rw [hsource] at hstep
      obtain ⟨rfl, -⟩ := Prod.mk.inj (Option.some.inj hstep)
      simp only [hsource]
      exact h
  | some source =>
      rw [hsource] at hstep
      dsimp only at hstep
      rw [refreshRoutingSource_eq] at hstep
      cases hgs : s.onesync with
      | none =>
          rw [hgs] at hstep
          dsimp only [Option.map_none] at hstep
          simp only [hsource]
          split at hstep
          · obtain ⟨rfl, -⟩ := Prod.mk.inj (Option.some.inj hstep)
            exact h
          · obtain ⟨rfl, -⟩ := Prod.mk.inj (Option.some.inj hstep)
            exact h
      | some gs =>
          rw [hgs] at hstep
          dsimp only [Option.map_some] at hstep
          obtain ⟨⟨t, o⟩, hin, hstep⟩ := Option.bind_eq_some_iff.mp hstep
          obtain ⟨rfl, -⟩ := Prod.mk.inj (Option.some.inj hstep)
          simp only [hsource, hgs] at hok ⊢
          refine h.replace hgs fun hagrees => (hagrees.received source).payload hin ?_
          intro hcalm turn hturn
          rw [hcalm] at hok
          simp only [ne_eq, not_true_eq_false, decide_false, Bool.false_or] at hok
          exact List.all_eq_true.mp hok turn hturn

/-- A tick, which begins with the refresh. -/
theorem carried_tick (h : Carried (ledger lz4 past) s) {ord : Orders}
    {pending : List (WorldCommand F)} (hstep : s.onesyncTick lz4 ord pending = some (s', out))
    (hok : orderlyStep lz4 past ⟨s, .onesyncTick ord pending, out, s'⟩ = true) :
    Carried (ledger lz4 (⟨s, .onesyncTick ord pending, out, s'⟩ :: past)) s' ∧
      Stable lz4 past ⟨s, .onesyncTick ord pending, out, s'⟩ := by
  have hrefreshed : Carried (ledger lz4 past) (s.refreshRoutingState ord) ∧
      ∀ gs, (s.refreshRoutingState ord).onesync = some gs →
        (s.refreshRoutingState ord).routing.revision
          = (s.refreshRoutingState ord).routingRevision := by
    rcases refresh_cases s ord with ⟨heq, hcase⟩ | ⟨gs, gs', hgs, hnew, heq, htable, hlookup⟩
    · rw [heq]
      refine ⟨h, fun gs hgs => hcase.resolve_right fun hnone => ?_⟩
      rw [hnone] at hgs
      cases hgs
    · have hagrees := h.agrees gs hgs
      have hdue : ∀ id e, gs.entities.lookup id = some e →
          s.routing.entityBucket id.toUInt32 = (ledger lz4 past id).bucket := by
        intro id e he
        cases hscripted : (ledger lz4 past id).scripted with
        | true => exact hagrees.scripted id e he hscripted
        | false =>
            unfold orderlyStep at hok
            simp only [hnew, decide_false, Bool.false_or, hgs] at hok
            have hcreated := List.all_eq_true.mp hok id (mem_liveIds he)
            rw [hscripted] at hcreated
            simpa using hcreated
      rw [heq]
      refine ⟨⟨?_, ⟨h.counted.room, .inr (Nat.le_refl _)⟩⟩, fun _ _ => rfl⟩
      intro t ht
      obtain rfl := Option.some.inj ht
      refine ⟨htable hagrees.table, fun id e' he' _ => ?_, fun _ id e' he' => ?_⟩
      · rw [hlookup] at he'
        obtain ⟨e, he, -⟩ := Option.map_eq_some_iff.mp he'
        exact hdue id e he
      · rw [hlookup] at he'
        obtain ⟨e, he, rfl⟩ := Option.map_eq_some_iff.mp he'
        exact hdue id e he
  obtain ⟨hcarried, hcalm⟩ := hrefreshed
  refine ⟨?_, fun gs hgs => (hcarried.agrees gs hgs).placed (hcalm gs hgs)⟩
  unfold ledger keepLedger
  rcases onesyncTick_cases hstep with ⟨hnone, rfl⟩ | ⟨gs, t, hgs, ht, _, rfl⟩
  · refine ⟨fun gs hgs => ?_, h.counted⟩
    rw [hnone] at hgs
    cases hgs
  · simp only [hgs]
    refine ⟨fun gs' hgs' => ?_, hcarried.counted⟩
    obtain rfl := Option.some.inj hgs'
    exact ((hcarried.agrees gs hgs).commands pending ht).tickTail ord s.focusPositions s.onesyncCfg

/-- A disconnect: the client's entities go, and then scripts hear of it. -/
theorem carried_left (h : Carried (ledger lz4 past) s) {ord : Orders} {peer : PeerId}
    {handlers : List RoutingCall} (hstep : step lz4 (.disconnect ord peer handlers) s = some (s', out))
    (hok : orderlyStep lz4 past ⟨s, .disconnect ord peer handlers, out, s'⟩ = true) :
    Carried (ledger lz4 (⟨s, .disconnect ord peer handlers, out, s'⟩ :: past)) s' := by
  unfold ledger keepLedger
  unfold orderlyStep at hok
  obtain ⟨hcalls, hroom⟩ := Bool.and_eq_true_iff.mp hok
  have hroom : s.routing.revision.toNat + handlers.length + 1 < lastRevision :=
    of_decide_eq_true hroom
  rcases onDisconnect_cases hstep with ⟨hnone, rfl, -⟩ | ⟨source, onesync, hsource, hone, hs', -⟩
  · simp only [AList.lookup_eq_none.mp hnone, if_false]
    exact h
  · have hpeer : peer ∈ s.peerSources := AList.lookup_isSome.mp (by rw [hsource]; rfl)
    obtain ⟨sh, ch, hw, heq⟩ := leaveHosting_eq ({ s with
        peerSources := s.peerSources.erase peer
        sourcePeers := s.sourcePeers.erase source
        focusPositions := s.focusPositions.erase source } : UdpServer F) ord source
    have honesync : s'.onesync = onesync := by rw [hs']
    have hrouting : s'.routing
        = (handlers.foldl RoutingCall.apply s.routing).setPlayerBucket source 0 := by rw [hs']
    have htaken : s'.routingRevision = s.routingRevision := by rw [hs', heq]
    obtain ⟨hcounted, hrevision⟩ := h.counted.calls handlers (by omega)
    have hlast := hcounted.apply (.setPlayerBucket source 0) (by rw [hrevision]; exact hroom)
    simp only [hpeer, if_true]
    refine ⟨fun gs' hgs' => ?_, by rw [hrouting, htaken]; exact hlast.1⟩
    rw [honesync] at hgs'
    subst hgs'
    cases hgs : s.onesync with
    | none =>
        rw [hgs] at hone
        cases hone
    | some gs =>
        rw [hgs] at hone
        obtain ⟨r, hr, hsome⟩ := Option.map_eq_some_iff.mp
          (show ((gs.removeClient ord.entities source).map Prod.fst).map some
            = some (some gs') by simpa using hone)
        obtain ⟨⟨t, ids⟩, hremoved, rfl⟩ := Option.map_eq_some_iff.mp hr
        obtain rfl := Option.some.inj hsome
        have hagrees := h.agrees gs hgs
        have hgone : Agrees s.routing False (ledger lz4 past) t := by
          refine hagrees.unsettled.keeps (hagrees.table.removeClient hremoved) ?_
          intro id e' he'
          rw [ServerGameState.removeClient_lookup hremoved] at he'
          obtain ⟨e, he, he'⟩ := Option.bind_eq_some_iff.mp he'
          refine ⟨e, he, ?_⟩
          split at he'
          · unfold ServerGameState.orphan at he'
            split at he'
            · rw [← Option.some.inj he']
            · cases he'
          · rw [Option.some.inj he']
        rw [honesync] at hcalls
        have hcalled := (hgone.calls handlers hcalls).call (.setPlayerBucket source 0) rfl
        rw [honesync, hrouting]
        exact ⟨hcalled.table, hcalled.scripted, fun hcalm => by
          rw [htaken] at hcalm
          exact absurd hcalm hlast.2⟩

/-- A call of a script. -/
theorem carried_script (h : Carried (ledger lz4 past) s) {c : RoutingCall}
    (hok : orderlyStep lz4 past
      ⟨s, .script c, out, { s with routing := c.apply s.routing }⟩ = true) :
    Carried (ledger lz4 (⟨s, .script c, out, { s with routing := c.apply s.routing }⟩ :: past))
      { s with routing := c.apply s.routing } := by
  unfold orderlyStep at hok
  obtain ⟨hcall, hroom⟩ := Bool.and_eq_true_iff.mp hok
  obtain ⟨hcounted, hdue⟩ := h.counted.apply c (of_decide_eq_true hroom)
  refine ⟨fun gs hgs => ?_, hcounted⟩
  have hgs : s.onesync = some gs := hgs
  unfold ledger keepLedger
  simp only [hgs] at hcall ⊢
  have hcalled := (h.agrees gs hgs).unsettled.call c hcall
  exact ⟨hcalled.table, hcalled.scripted, fun hcalm => absurd hcalm hdue⟩

/-- A step that is none of these leaves the ledger alone. -/
def Aside : UdpEvent F → Prop
  | .route _ _ _ | .onesyncTick _ _ | .disconnect _ _ _ | .script _ => False
  | _ => True

theorem Carried.aside (h : Carried (ledger lz4 past) s) {ev : UdpEvent F} (haside : Aside ev)
    {gs' : Option (ServerGameState F)}
    (hgs' : ∀ t, gs' = some t → ∃ gs, s.onesync = some gs ∧
      (TableOK gs → TableOK t) ∧ t.entities = gs.entities)
    (hrouting : s'.routing = s.routing) (htaken : s'.routingRevision = s.routingRevision)
    (honesync : s'.onesync = gs') :
    Carried (ledger lz4 (⟨s, ev, out, s'⟩ :: past)) s' ∧ Stable lz4 past ⟨s, ev, out, s'⟩ := by
  have hledger : ledger lz4 (⟨s, ev, out, s'⟩ :: past) = ledger lz4 past := by
    cases ev <;> first | rfl | exact haside.elim
  have hstable : Stable lz4 past ⟨s, ev, out, s'⟩ := by
    cases ev <;> trivial
  refine ⟨?_, hstable⟩
  rw [hledger]
  refine ⟨fun t ht => ?_, by rw [hrouting, htaken]; exact h.counted⟩
  rw [honesync] at ht
  obtain ⟨gs, hgs, htable, hentities⟩ := hgs' t ht
  have hagrees := h.agrees gs hgs
  rw [hrouting, htaken]
  exact hagrees.of_entities (htable hagrees.table) hentities

/-- **One step in order.** -/
theorem carried_step (h : Carried (ledger lz4 past) s) {ev : UdpEvent F}
    (hstep : step lz4 ev s = some (s', out))
    (hok : orderlyStep lz4 past ⟨s, ev, out, s'⟩ = true) :
    Carried (ledger lz4 (⟨s, ev, out, s'⟩ :: past)) s' ∧ Stable lz4 past ⟨s, ev, out, s'⟩ := by
  have hsame : ∀ t, s.onesync = some t → ∃ gs, s.onesync = some gs ∧
      (TableOK gs → TableOK t) ∧ t.entities = gs.entities := fun t ht => ⟨t, ht, id, rfl⟩
  cases effect_of_step hstep with
  | letIn => exact h.aside trivial hsame rfl rfl rfl
  | refused hnone => exact h.aside trivial hsame rfl rfl rfl
  | @linked _ _ _ _ sent source hsource =>
      refine h.aside trivial ?_ rfl rfl rfl
      intro t ht
      cases sent with
      | false => exact hsame t ht
      | true =>
          obtain ⟨gs, hgs, rfl⟩ := Option.map_eq_some_iff.mp ht
          refine ⟨gs, hgs, fun ok => ?_, rfl⟩
          have hmirrored : TableOK (mirrorPlayer s.routing (gs.addClient source) source) :=
            (ok.addClient source).of_same rfl rfl rfl (fun _ => Iff.rfl) fun _ => rfl
          exact mirrorPolicy_table hmirrored _
  | stranger hnone => exact ⟨carried_left h hstep hok, trivial⟩
  | left hsource hone => exact ⟨carried_left h hstep hok, trivial⟩
  | @arbitrated ev _ _ _ hev =>
      refine h.aside ?_ hsame rfl rfl rfl
      cases ev <;> trivial
  | ingested hsource hgs hin => exact ⟨carried_route h hstep hok, trivial⟩
  | @served ev source gs gs' hgs hserved =>
      cases ev with
      | requestObjectIds peer =>
          refine h.aside trivial ?_ rfl rfl rfl
          intro t ht
          obtain rfl := Option.some.inj ht
          obtain ⟨⟨t, leased, packet⟩, hleased, rfl⟩ := Option.map_eq_some_iff.mp hserved
          exact ⟨gs, hgs, fun ok => ok.lease hleased,
            (ServerGameState.leaseObjectIds_cases hleased).2.2.2.1⟩
      | gameStateNack peer nack =>
          refine h.aside trivial ?_ rfl rfl rfl
          intro t ht
          obtain rfl := Option.some.inj ht
          subst hserved
          exact ⟨gs, hgs, fun ok => ok.step
            (show Zone.step lz4 (.nack source nack) gs = some (_, .unit) from rfl), rfl⟩
      | gameStateAck peer ack =>
          refine h.aside trivial ?_ rfl rfl rfl
          intro t ht
          obtain rfl := Option.some.inj ht
          subst hserved
          exact ⟨gs, hgs, fun ok => ok.step
            (show Zone.step lz4 (.ack source ack) gs = some (_, .unit) from rfl), rfl⟩
      | _ => exact hserved.elim
  | focused => exact h.aside trivial hsame rfl rfl rfl
  | ticked hgs hpending => exact carried_tick h hstep hok
  | idle hnone => exact carried_tick h hstep hok
  | scripted => exact ⟨carried_script h hok, trivial⟩
  | @ignored ev hev =>
      cases ev with
      | route peer target data => exact ⟨carried_route h hstep hok, trivial⟩
      | requestObjectIds peer => exact h.aside trivial hsame rfl rfl rfl
      | gameStateNack peer nack => exact h.aside trivial hsame rfl rfl rfl
      | gameStateAck peer ack => exact h.aside trivial hsame rfl rfl rfl
      | _ => exact hev.elim

end Steps

/-! ### Over whole runs -/

variable {lz4 : Lz4} {onesync : Bool} {build : GameBuild} {cfg : InterestConfig F}
  {past : List (UdpEntry F)} {s : UdpServer F}

theorem carried_spawn : Carried (ledger (F := F) lz4 []) (spawn onesync build cfg : UdpServer F) := by
  have hroom : (0 : UInt64).toNat < lastRevision := by decide
  have hdue : (0 : UInt64) ≠ 18446744073709551615 := by decide
  refine ⟨fun gs hgs => ?_, ⟨hroom, .inl rfl⟩⟩
  cases onesync with
  | false => cases hgs
  | true =>
      obtain rfl := Option.some.inj hgs
      have hnone : ∀ id, (ServerGameState.withBuild true false build :
        ServerGameState F).entities.lookup id = none := fun _ => rfl
      refine ⟨TableOK.withBuild true false build, fun id e he => ?_, fun hcalm => ?_⟩
      · rw [hnone] at he
        cases he
      · exact absurd hcalm hdue

/-- **Entities stay in their buckets.**  In a run whose steps are all in order, every refresh
leaves each entity in the bucket a script put it in last, since it was created, and where no
script did, in the bucket it was created in. -/
theorem buckets_stable (run : Run (step lz4) (spawn onesync build cfg) past s)
    (inOrder : Along (fun past e => orderlyStep lz4 past e = true) past) :
    Along (Stable lz4) past := by
  have hboth : Carried (ledger lz4 past) s ∧ Along (Stable lz4) past := by
    induction run with
    | nil => exact ⟨carried_spawn, trivial⟩
    | snoc run hstep ih =>
        obtain ⟨hcarried, hstable⟩ := ih inOrder.2
        obtain ⟨hnext, hnow⟩ := carried_step hcarried hstep inOrder.1
        exact ⟨hnext, hnow, hstable⟩
  exact hboth.2

/-! ### An entity that is moved -/

/-- A player is let in and creates object 5. -/
def brings : List (UdpEvent Float32) :=
  [.initConnect "t" "Ann" [], .handshake .stored 0 "t" false true,
    .route 0 0 (LiteralRun.clonePayload
      [0x20, 0x00, 0x20, 0x05, 0x00, 0x00, 0x00, 0x00, 0x50, 0x00, 0xE0])]

/-- A script puts the object into bucket 3, and the tick finds it there. -/
theorem scripted_bucket_stays : ∃ past s, Run (step LiteralRun.lz4) sample past s ∧
    liveIds s.onesync = [5] ∧ (ledger LiteralRun.lz4 past 5).bucket = 3 ∧
      Along (Stable LiteralRun.lz4) past := by
  obtain ⟨past, s, run, hcheck⟩ := exists_run (step LiteralRun.lz4) sample
    (brings ++ [.script (.setEntityBucket 5 3), .onesyncTick .stored []])
    (fun past s => decide (liveIds s.onesync = [5]) &&
      decide ((ledger LiteralRun.lz4 past 5).bucket = 3) &&
      decide (Along (fun past e => orderlyStep LiteralRun.lz4 past e = true) past))
    (by decide +kernel)
  simp only [Bool.and_eq_true, decide_eq_true_eq] at hcheck
  exact ⟨past, s, run, hcheck.1.1, hcheck.1.2, buckets_stable run hcheck.2⟩

/-- The last step is a tick whose refresh leaves object 5 elsewhere than it is due. -/
def misplaces (past : List (UdpEntry Float32)) : Bool :=
  match past with
  | e :: before =>
    match e.op with
    | .onesyncTick ord _ => ((e.pre.refreshRoutingState ord).onesync.bind fun gs =>
        gs.entities.lookup 5).any fun x =>
          x.routingBucket ≠ (ledger LiteralRun.lz4 before 5).bucket
    | _ => false
  | [] => false

theorem not_stable_of_misplaces {past : List (UdpEntry Float32)} (h : misplaces past = true) :
    ¬ Along (Stable LiteralRun.lz4) past := by
  intro hstable
  unfold misplaces at h
  split at h
  · rename_i e before
    have hnow := hstable.1
    unfold Stable at hnow
    split at h
    · rename_i ord pending hop
      rw [hop] at hnow
      obtain ⟨x, hx, hne⟩ := (Option.any_eq_true _ _).mp h
      obtain ⟨gs, hgs, hx⟩ := Option.bind_eq_some_iff.mp hx
      exact of_decide_eq_true hne (hnow gs hgs 5 x hx)
    · cases h
  · cases h

/-- **A policy moves it.**  The player is in bucket 5 and so is what it creates, until a script
says something about another bucket. -/
theorem policy_moves_entity : ¬ ∀ (past : List (UdpEntry Float32)) (s : UdpServer Float32),
    Run (step LiteralRun.lz4) sample past s → Along (Stable LiteralRun.lz4) past := by
  intro h
  obtain ⟨past, s, run, hcheck⟩ := exists_run (step LiteralRun.lz4) sample
    (.script (.setPlayerBucket 1 5) :: brings ++
      [.script (.setPopulationEnabled 9 false), .onesyncTick .stored []])
    (fun past _ => misplaces past) (by decide +kernel)
  exact not_stable_of_misplaces hcheck (h past s run)

end UdpServer

end Baston.Gateway

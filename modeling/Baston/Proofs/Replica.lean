/-
Does a client that the server takes for up to date hold what the server holds?

The copy a client builds from its records starts from the empty state at a create and
absorbs every sync after it.  The server keeps one blob of each kind for an entity and one
frame for each client, so the copy falls behind without the server noticing: a create is
sent without the syncs before it, and its blob is not even read when it arrives; a sync
that arrives before the last one was sent takes its place; one that arrives in a frame the
client has been brought up to is taken for sent; a velocity set by a script is never sent;
and an id is reused while the client still has an entry for it.  `keepsUp` is what a step
must find for none of this to matter.
-/
import Baston.Proofs.Merge
import Baston.Proofs.Entries

namespace Baston.Zone

open Assoc Baston.Rage Trace ServerGameState Delta

variable {F : Type} [Scalar F]

/-! ### The copy a client builds -/

/-- The object a create makes, before its blob is read. -/
def blankCopy (r : OutboundClone) (entityType : NetObjEntityType) : ServerEntity F where
  objectId := r.objectId
  uniqifier := r.uniqifier
  owner := r.ownerNetId.toUInt32
  entityType := entityType
  creationToken := r.creationToken
  data := []
  createData := r.data
  frameIndex := 0
  position := Vec3.zero
  positionKnown := false
  sector := defaultSector
  sectorPosition := Vec3.zero
  velocity := Vec3.zero
  routingBucket := 0
  health := none
  maxHealth := none
  armour := none
  model := none
  vehicleSeat := none
  firstOwner := 0
  nodes := {}
  heading := none
  desiredHeading := none
  serverOwned := false

/-- What a record does to the copy under its id.  Only a create names the entity type, and it
starts from the empty state. -/
def receive (lengthHack : Bool) (build : GameBuild) (copy : Option (ServerEntity F)) :
    OutboundRecord → Option (ServerEntity F)
  | .clone r =>
    match r.entityType with
    | some ty =>
      some ((blankCopy r ty).applySyncData (parseSyncTree ty true r.data lengthHack build))
    | none => copy.map fun e =>
      if e.uniqifier = r.uniqifier then
        e.applySyncData (parseSyncTree e.entityType false r.data lengthHack build)
      else e
  | .remove _ u => copy.filter (·.uniqifier ≠ u)

/-- The copy of `id` that `c` has built, since it last connected, from every record it was
sent. -/
def replica (c : UInt32) (id : UInt16) :
    List (Entry (ServerGameState F) (Op F) Answer) → Option (ServerEntity F)
  | [] => none
  | x :: past =>
    let copy := (x.pre.sentAbout x.op c id).foldl (receive x.pre.lengthHack x.pre.build)
      (replica c id past)
    match x.op with
    | .removeClient _ source => if source = c then none else copy
    | _ => copy

/-- If the server takes `c` for up to date on the entity under `id`, then the copy of `c` has
its state. -/
def InSync (c : UInt32) (id : UInt16) (tr : List (Entry (ServerGameState F) (Op F) Answer))
    (s : ServerGameState F) : Prop :=
  ∀ e ∈ s.entities.lookup id, ∀ v ∈ s.entryOf c id, v.created = true →
    v.baseFrame = e.frameIndex →
      ∃ r ∈ replica c id tr, r.uniqifier = e.uniqifier ∧ r.syncState = e.syncState

instance InSync.decidable [DecidableEq F] (c : UInt32) (id : UInt16)
    (tr : List (Entry (ServerGameState F) (Op F) Answer)) (s : ServerGameState F) :
    Decidable (InSync c id tr s) :=
  inferInstanceAs (Decidable (∀ e ∈ s.entities.lookup id, ∀ v ∈ s.entryOf c id,
    v.created = true → v.baseFrame = e.frameIndex →
      ∃ r ∈ replica c id tr, r.uniqifier = e.uniqifier ∧ r.syncState = e.syncState))

/-! ### What keeps a copy up to date -/

/-- The record the entity's last sync blob decodes to. -/
def ServerEntity.delta (e : ServerEntity F) (lengthHack : Bool) (build : GameBuild) :
    SyncNodeData F := parseSyncTree e.entityType false e.data lengthHack build

namespace ServerGameState

/-- A record is accepted. -/
def accepts (s : ServerGameState F) (source : UInt32) (r : InboundRecord) : Bool :=
  (applyRecord source s r).any (·.2)

/-- The entry is past the entity's last update, or the next record hides that update. -/
def nothingLost (s : ServerGameState F) (v : EntityView F) (e : ServerEntity F)
    (next : SyncNodeData F) : Bool :=
  !(v.baseFrame < e.frameIndex) || (e.delta s.lengthHack s.build).coveredBy next

/-- The id a spawn takes. -/
def spawnTarget (s : ServerGameState F) : Op F → Option UInt16
  | .spawn _ => s.allocateServerObjectId.join
  | .spawnWithId id _ => some id
  | _ => none

section
variable [DecidableEq F]

/-- What an accepted sync must find in a created entry: nothing that it would replace unsent,
and a frame that is still to be sent.  A sync that changes nothing needs no sending. -/
def syncKept (s : ServerGameState F) (v : EntityView F) (e : ServerEntity F)
    (data : List UInt8) : Bool :=
  let next := parseSyncTree e.entityType false data s.lengthHack s.build
  data = [] || (s.nothingLost v e next && (v.baseFrame < s.frameIndex ||
    (!(v.baseFrame < e.frameIndex) && e.syncState.absorb next = e.syncState)))

/-- What a record must find: a create that refreshes an entity keeps its type and drops no
unsent blob, and one that makes an entity finds no created entry. -/
def recordKept (s : ServerGameState F) (source : UInt32) (id : UInt16)
    (entry : Option (EntityView F)) (r : InboundRecord) : Bool :=
  match r with
  | .clone isCreate id' _ ty _ data =>
    id' ≠ id || !s.accepts source r || entry.all fun v => !v.created ||
      if isCreate then
        (s.entities.lookup id).any fun e => ty = some e.entityType && s.nothingLost v e {}
      else (s.entities.lookup id).all fun e => s.syncKept v e data
  | _ => true

/-- A script may set the velocity of an entity only if `c` has not been sent it, and its last
sync blob does not say otherwise. -/
def velocityKept (s : ServerGameState F) (entry : Option (EntityView F)) (e : ServerEntity F)
    (velocity : Vec3 F) : Bool :=
  velocity = e.velocity || (entry.all (!·.created) &&
    (e.delta s.lengthHack s.build).velocity.all (· = velocity))

/-- What a tick must find in scope: an entity that `c` is yet to be sent is all in its create
blob. -/
def createKept (s : ServerGameState F) (e : ServerEntity F) : Bool :=
  SyncState.empty.absorb (parseSyncTree e.entityType true e.createData s.lengthHack s.build)
    = e.syncState

end

end ServerGameState

/-- What a step must find for the copy of `id` that `c` has to keep up. -/
def keepsUp [DecidableEq F] (lz4 : Lz4) (c : UInt32) (id : UInt16)
    (x : Entry (ServerGameState F) (Op F) Answer) : Bool :=
  match x.op with
  | .ingest source payload =>
    (x.pre.trail lz4 source payload).all fun y =>
      y.pre.recordKept source id (x.pre.entryOf c id) y.op
  | .spawn _ | .spawnWithId _ _ =>
    x.pre.spawnTarget x.op ≠ some id || x.pre.idState id ≠ some .free
      || (x.pre.entryOf c id).all (!·.created)
  | .setVelocity id' velocity =>
    id' ≠ id || (x.pre.entities.lookup id).all fun e =>
      x.pre.velocityKept (x.pre.entryOf c id) e velocity
  | .tickClient _ _ _ | .tickClients _ _ _ =>
    match x.pre.viewOf c, x.pre.tickOf x.op c with
    | some view, some ctx =>
      (view.relevant ctx id).isNone || (x.pre.entryOf c id).any (·.created)
        || (x.pre.entities.lookup id).all fun e => x.pre.createKept e
    | _, _ => true
  | _ => true

/-! ### Settings -/

/-- How records are decoded. -/
def ServerGameState.settings (s : ServerGameState F) : Bool × GameBuild := (s.lengthHack, s.build)

theorem settings_record {source : UInt32} {s s' : ServerGameState F} {r : InboundRecord}
    {ok : Bool} (heff : RecordEffect source s r s' ok) : s'.settings = s.settings := by
  cases heff with
  | kept => rfl
  | created => rfl
  | synced => rfl
  | removed => rfl
  | takenOver => rfl
  | noted => rfl

/-- Nothing changes how records are decoded. -/
theorem settings_step {lz4 : Lz4} {op : Op F} {s s' : ServerGameState F} {a : Answer}
    (h : step lz4 op s = some (s', a)) : s'.settings = s.settings := by
  cases step_effect h with
  | ingested hin =>
      exact ingest_keeps (I := fun t => t.settings = s.settings) (P := fun _ _ => True) rfl rfl
        (fun ht _ heff => (settings_record heff).trans ht) (fun _ _ => trivial) hin
  | joined => rfl
  | left hrem =>
      obtain ⟨ids, t, -, -, ht, rfl⟩ := removeClient_cases hrem
      obtain ⟨-, -, hhack, -, -, hbuild⟩ := dropOrphans_frame ht
      exact Prod.ext hhack hbuild
  | leased hlease =>
      unfold leaseObjectIds at hlease
      obtain ⟨⟨got, ids⟩, -, hlease⟩ := Option.bind_eq_some_iff.mp hlease
      simp only [Option.some.injEq, Prod.mk.injEq] at hlease
      obtain ⟨rfl, -, -⟩ := hlease
      rfl
  | spawned _ hspawn =>
      rcases spawnWithId_cases hspawn with ⟨-, token, rfl⟩ | ⟨-, -, -, -, data, -, rfl⟩
      · rfl
      · rfl
  | exhausted => rfl
  | despawned hdes =>
      rcases despawnEntity_cases hdes with ⟨-, rfl, -⟩ | ⟨-, -, rfl, -⟩
      · rfl
      · rfl
  | rewritten => rfl
  | routed => rfl
  | clock => rfl
  | viewed => rfl

/-! ### Copies that follow -/

/-- A copy of an entity that lacks at most the entity's last sync blob, and not even that one
when the entry is past it. -/
structure CopyOf (cfg : Bool × GameBuild) (v : EntityView F) (e r : ServerEntity F) : Prop where
  uniqifier : r.uniqifier = e.uniqifier
  entityType : r.entityType = e.entityType
  follows : Follows SyncState.absorb (¬ v.baseFrame < e.frameIndex) r.syncState e.syncState
    (e.delta cfg.1 cfg.2)

/-- **The invariant** of one client and one id: the entity's own state has its last sync blob,
and the client has a copy of an entity it was sent. -/
structure Tracks (cfg : Bool × GameBuild) (entity : Option (ServerEntity F))
    (entry : Option (EntityView F)) (copy : Option (ServerEntity F)) : Prop where
  settled : ∀ {e}, entity = some e → e.syncState.absorb (e.delta cfg.1 cfg.2) = e.syncState
  follows : ∀ {e v}, entity = some e → entry = some v → v.created = true →
    ∃ r, copy = some r ∧ CopyOf cfg v e r

/-- Two entities that no client can tell apart. -/
structure SameSync (e e' : ServerEntity F) : Prop where
  uniqifier : e'.uniqifier = e.uniqifier
  entityType : e'.entityType = e.entityType
  data : e'.data = e.data
  frameIndex : e'.frameIndex = e.frameIndex
  state : e'.syncState = e.syncState

theorem SameSync.delta {e e' : ServerEntity F} (h : SameSync e e') (cfg : Bool × GameBuild) :
    e'.delta cfg.1 cfg.2 = e.delta cfg.1 cfg.2 := by
  unfold ServerEntity.delta
  rw [h.entityType, h.data]

theorem ServerEntity.delta_nil {e : ServerEntity F} (h : e.data = []) (cfg : Bool × GameBuild) :
    e.delta cfg.1 cfg.2 = {} := by
  unfold ServerEntity.delta
  rw [h]
  exact parseSyncTree_nil _ _ _ _

namespace Tracks

variable {cfg : Bool × GameBuild} {entity entity' : Option (ServerEntity F)}
  {entry entry' : Option (EntityView F)} {copy : Option (ServerEntity F)}

/-- The invariant of a live entity. -/
theorem of_live {e : ServerEntity F} (settled : e.syncState.absorb (e.delta cfg.1 cfg.2) = e.syncState)
    (follows : ∀ v, entry = some v → v.created = true → ∃ r, copy = some r ∧ CopyOf cfg v e r) :
    Tracks cfg (some e) entry copy where
  settled := by
    intro e' he'
    rw [← Option.some.inj he']
    exact settled
  follows := by
    intro e' v he' hv hc
    rw [← Option.some.inj he']
    exact follows v hv hc

/-- The entity is gone or looks the same. -/
theorem of_same (h : Tracks cfg entity entry copy)
    (hsame : ∀ e', entity' = some e' → ∃ e, entity = some e ∧ SameSync e e') :
    Tracks cfg entity' entry copy where
  settled := by
    intro e' he'
    obtain ⟨e, he, heq⟩ := hsame e' he'
    rw [heq.delta, heq.state]
    exact h.settled he
  follows := by
    intro e' v he' hv hc
    obtain ⟨e, he, heq⟩ := hsame e' he'
    obtain ⟨r, hr, hcopy⟩ := h.follows he hv hc
    refine ⟨r, hr, hcopy.uniqifier.trans heq.uniqifier.symm,
      hcopy.entityType.trans heq.entityType.symm, ?_⟩
    rw [heq.delta, heq.state, heq.frameIndex]
    exact hcopy.follows

/-- The entry only moves back. -/
theorem of_back (h : Tracks cfg entity entry copy)
    (hback : ∀ v', entry' = some v' → v'.created = true → ∃ v, entry = some v ∧
      v.created = true ∧ ∀ f, v.baseFrame < f → v'.baseFrame < f) :
    Tracks cfg entity entry' copy where
  settled := h.settled
  follows := by
    intro e v' he hv' hc'
    obtain ⟨v, hv, hc, hbase⟩ := hback v' hv' hc'
    obtain ⟨r, hr, hcopy⟩ := h.follows he hv hc
    exact ⟨r, hr, hcopy.uniqifier, hcopy.entityType,
      hcopy.follows.weaken fun hnew hold => hnew (hbase _ hold)⟩

/-- Nothing is asked of a client that was not sent the entity. -/
theorem of_unsent {e : ServerEntity F}
    (settled : e.syncState.absorb (e.delta cfg.1 cfg.2) = e.syncState)
    (hnew : ∀ v, entry = some v → v.created = false) : Tracks cfg (some e) entry copy := by
  refine .of_live settled ?_
  intro v hv hc
  rw [hnew v hv] at hc
  exact absurd hc (by simp)

end Tracks

/-! ### Payloads -/

theorem syncState_createdEntity (s : ServerGameState F) (source : UInt32) (id u : UInt16)
    (ty : NetObjEntityType) (token : UInt32) (data : List UInt8) :
    (s.createdEntity source id u ty token data).syncState
      = ((s.entities.lookup id).map (·.syncState)).getD SyncState.empty := by
  unfold createdEntity
  simp only [ServerEntity.syncState_applySyncData, parseSyncTree_nil, SyncState.absorb_nil]
  cases s.entities.lookup id with
  | none => rfl
  | some e => rfl

theorem syncedEntity_nil (s : ServerGameState F) (e : ServerEntity F) :
    s.syncedEntity e [] = e := if_pos rfl

theorem syncedEntity_cons (s : ServerGameState F) (e : ServerEntity F) {data : List UInt8}
    (h : data ≠ []) : s.syncedEntity e data
      = { e with data := data, frameIndex := s.frameIndex }.applySyncData
        (parseSyncTree e.entityType false data s.lengthHack s.build) := if_neg h

theorem nothingLost_iff {s : ServerGameState F} {v : EntityView F} {e : ServerEntity F}
    {next : SyncNodeData F} (h : s.nothingLost v e next = true) :
    ¬ v.baseFrame < e.frameIndex ∨ Covers SyncState.absorb (e.delta s.lengthHack s.build) next := by
  simp only [nothingLost, Bool.or_eq_true, Bool.not_eq_true', decide_eq_false_iff_not] at h
  exact h.imp_right SyncState.covers_of_coveredBy

namespace Tracks

variable {s : ServerGameState F} {source : UInt32} {id : UInt16}
  {entry : Option (EntityView F)} {copy after : Option (ServerEntity F)}

/-- A create that refreshes an entity of the same type, with no blob left to send. -/
theorem refreshed {e : ServerEntity F} (h : Tracks s.settings (some e) entry copy)
    (he : s.entities.lookup id = some e) {ty : NetObjEntityType} {token : UInt32}
    {data : List UInt8}
    (hkept : ∀ v, entry = some v → v.created = true →
      ty = e.entityType ∧ s.nothingLost v e {} = true) :
    Tracks s.settings (some (s.createdEntity source id e.uniqifier ty token data)) entry copy := by
  have hstate : (s.createdEntity source id e.uniqifier ty token data).syncState = e.syncState := by
    rw [syncState_createdEntity, he]
    rfl
  have hdelta := ServerEntity.delta_nil
    (e := s.createdEntity source id e.uniqifier ty token data) rfl s.settings
  refine .of_live ?_ ?_
  · rw [hdelta]
    exact SyncState.absorb_nil _
  · intro v hv hc
    obtain ⟨hty, hlost⟩ := hkept v hv hc
    obtain ⟨r, hr, hcopy⟩ := h.follows rfl hv hc
    have hsame : r.syncState = e.syncState := by
      rcases nothingLost_iff hlost with hcurrent | hcovers
      · exact hcopy.follows.upToDate hcurrent
      · rw [← hcopy.follows.behind, ← SyncState.absorb_nil (r.syncState.absorb _)]
        exact ((hcovers r.syncState).trans (SyncState.absorb_nil _)).symm
    refine ⟨r, hr, hcopy.uniqifier, hcopy.entityType.trans hty.symm, ?_⟩
    rw [hdelta, hstate, hsame]
    exact .fresh (SyncState.absorb_nil _)

/-- A sync that every created entry is ready for. -/
theorem synced [DecidableEq F] {e : ServerEntity F} (h : Tracks s.settings (some e) entry copy)
    {data : List UInt8}
    (hkept : ∀ v, entry = some v → v.created = true → s.syncKept v e data = true) :
    Tracks s.settings (some (s.syncedEntity e data)) entry copy := by
  by_cases hdata : data = []
  · rw [hdata, syncedEntity_nil]
    exact h
  · rw [syncedEntity_cons s e hdata]
    refine .of_live (SyncState.covers_self _ e.syncState) ?_
    intro v hv hc
    obtain ⟨r, hr, hcopy⟩ := h.follows rfl hv hc
    have hkept' := hkept v hv hc
    simp only [syncKept, hdata, decide_false, Bool.false_or, Bool.and_eq_true, Bool.or_eq_true,
      decide_eq_true_eq, Bool.not_eq_true', decide_eq_false_iff_not] at hkept'
    obtain ⟨hlost, hframe⟩ := hkept'
    refine ⟨r, hr, hcopy.uniqifier, hcopy.entityType, ?_⟩
    refine hcopy.follows.update (nothingLost_iff hlost) fun hcurrent => ?_
    -- an entry past the new frame is taken for up to date, so the sync may change nothing
    rcases hframe with hlt | ⟨hcurrent', hsame⟩
    · exact absurd hlt hcurrent
    · exact (hcopy.follows.upToDate hcurrent').trans hsame.symm

/-- **One record** that finds what it must keeps the copies following. -/
theorem record [DecidableEq F] {r : InboundRecord} {ok : Bool}
    (h : Tracks s.settings (s.entities.lookup id) entry copy)
    (hkept : s.recordKept source id entry r = true) (hok : s.accepts source r = ok)
    (heff : EntityEffect source s id r ok (s.entities.lookup id) after) :
    Tracks s.settings after entry copy := by
  generalize ho : s.entities.lookup id = o at h heff
  cases heff with
  | kept => exact h
  | @created u ty token data _ own =>
      simp only [recordKept, ne_eq, not_true, decide_false, hok, Bool.not_true, Bool.false_or,
        if_true, ho, Option.all_eq_true, Bool.or_eq_true, Bool.not_eq_true', Option.any_eq_true,
        Bool.and_eq_true, decide_eq_true_eq, Option.some.injEq] at hkept
      cases o with
      | none =>
          refine .of_unsent ?_ ?_
          · rw [ServerEntity.delta_nil rfl]
            exact SyncState.absorb_nil _
          · intro v hv
            rcases hkept v hv with hnew | ⟨e, he, -⟩
            · exact hnew
            · exact absurd he (by simp)
      | some e =>
          obtain ⟨-, rfl⟩ := own e rfl
          refine h.refreshed ho fun v hv hc => ?_
          rcases hkept v hv with hnew | ⟨e', he', hty, hlost⟩
          · rw [hc] at hnew
            exact absurd hnew (by simp)
          · obtain rfl := Option.some.inj he'
            exact ⟨hty, hlost⟩
  | @synced u ty token data e _ _ =>
      simp only [recordKept, ne_eq, not_true, decide_false, hok, Bool.not_true, Bool.false_or,
        Bool.false_eq_true, if_false, ho, Option.all_eq_true, Bool.or_eq_true, Bool.not_eq_true',
        Option.some.injEq] at hkept
      refine h.synced fun v hv hc => ?_
      rcases hkept v hv with hnew | hsync
      · rw [hc] at hnew
        exact absurd hnew (by simp)
      · exact hsync e rfl
  | removed => exact h.of_same fun e' he' => absurd he' (by simp)
  | @takenOver target e _ =>
      refine h.of_same fun e' he' => ⟨e, rfl, ?_⟩
      obtain rfl := Option.some.inj he'
      exact ⟨rfl, rfl, rfl, rfl, rfl⟩

/-- A payload whose records all find what they must. -/
theorem ingest [DecidableEq F] {lz4 : Lz4} {s' : ServerGameState F} {payload : List UInt8}
    {out : IngestOutcome} (h : Tracks s.settings (s.entities.lookup id) entry copy)
    (hkept : ∀ y ∈ s.trail lz4 source payload, y.pre.recordKept source id entry y.op = true)
    (hin : s.ingestClonePayload lz4 source payload = some (s', out)) :
    Tracks s'.settings (s'.entities.lookup id) entry copy := by
  refine ingest_along (I := fun _ t => Tracks t.settings (t.entities.lookup id) entry copy)
    (P := fun t r => t.recordKept source id entry r = true) (fun _ => h) h ?_ hkept hin
  intro past t t' r ok ht hrecord hr
  have heff := applyRecord_effect hr
  have hok : t.accepts source r = ok := by
    unfold accepts
    rw [show applyRecord source t r = some (t', ok) from hr]
    rfl
  rw [settings_record heff]
  exact ht.record hrecord hok (heff.entity id)

/-! ### Other operations -/

/-- An operation that rewrites the entity where it is. -/
theorem rewritten [DecidableEq F] {lz4 : Lz4} {op : Op F} {a : Answer} {s' : ServerGameState F}
    {c : UInt32} {f : UInt16 → ServerEntity F → ServerEntity F} {e : ServerEntity F}
    (h : Tracks s.settings (some e) (s.entryOf c id) copy) (he : s.entities.lookup id = some e)
    (hf : Rewrites op f) (hkept : keepsUp lz4 c id ⟨s, op, a, s'⟩ = true) :
    Tracks s.settings (some (f id e)) (s.entryOf c id) copy := by
  have hk := hf.keeps id e
  have hstate : (f id e).syncState = { e.syncState with velocity := (f id e).velocity } := by
    rw [hk]
    rfl
  have hdelta : (f id e).delta s.settings.1 s.settings.2 = e.delta s.settings.1 s.settings.2 := by
    rw [hk]
    rfl
  by_cases hv : (f id e).velocity = e.velocity
  · refine h.of_same fun e' he' => ⟨e, rfl, ?_⟩
    obtain rfl := Option.some.inj he'
    refine ⟨?_, ?_, ?_, ?_, ?_⟩
    · rw [hk]
    · rw [hk]
    · rw [hk]
    · rw [hk]
    · rw [hstate, hv]
      rfl
  · -- only a script sets a velocity, and it has to find the entity unsent
    obtain rfl := hf.velocity id e hv
    simp only [keepsUp, ne_eq, not_true, decide_false, Bool.false_or, he, Option.all_some,
      velocityKept, hv, Bool.and_eq_true, Option.all_eq_true, Bool.not_eq_true',
      decide_eq_true_eq] at hkept
    refine .of_unsent ?_ hkept.1
    rw [hdelta, hstate]
    exact SyncState.absorb_velocity (h.settled rfl) hkept.2

/-- **What a step does to the entity** keeps the copies following, if the step finds what it
must. -/
theorem entity_step [DecidableEq F] {lz4 : Lz4} {op : Op F} {a : Answer} {s' : ServerGameState F}
    {c : UInt32} (h : Tracks s.settings (s.entities.lookup id) (s.entryOf c id) copy)
    (hstep : step lz4 op s = some (s', a)) (hkept : keepsUp lz4 c id ⟨s, op, a, s'⟩ = true) :
    Tracks s'.settings (s'.entities.lookup id) (s.entryOf c id) copy := by
  rw [settings_step hstep]
  cases step_effect hstep with
  | ingested hin =>
      rw [← settings_step hstep]
      refine h.ingest ?_ hin
      simpa [keepsUp] using hkept
  | joined => exact h
  | left hrem =>
      refine h.of_same fun e' he' => ?_
      rw [removeClient_lookup hrem] at he'
      obtain ⟨e, he, he'⟩ := Option.bind_eq_some_iff.mp he'
      refine ⟨e, he, ?_⟩
      split at he'
      · unfold orphan at he'
        split at he'
        · obtain rfl := Option.some.inj he'
          exact ⟨rfl, rfl, rfl, rfl, rfl⟩
        · exact absurd he' (by simp)
      · obtain rfl := Option.some.inj he'
        exact ⟨rfl, rfl, rfl, rfl, rfl⟩
  | leased hlease =>
      obtain ⟨-, -, -, hent, -⟩ := leaseObjectIds_cases hlease
      rw [hent]
      exact h
  | @spawned _ _ id' req ok _ hop hspawn =>
      rcases spawnWithId_cases hspawn with ⟨-, token, rfl⟩ | ⟨-, hfree, -, -, data, -, rfl⟩
      · exact h
      · unfold afterSpawn
        rw [Map.lookup_insert_of]
        split
        · rename_i hid
          subst hid
          refine .of_unsent ?_ ?_
          · rw [ServerEntity.delta_nil rfl]
            exact SyncState.absorb_nil _
          · have hall : (s.entryOf c id).all (fun v => !v.created) = true := by
              rcases hop with ⟨rfl, -⟩ | ⟨rfl, halloc, -⟩
              · simpa [keepsUp, spawnTarget, hfree] using hkept
              · simpa [keepsUp, spawnTarget, halloc, hfree] using hkept
            intro v hv
            simpa [hv] using hall
        · exact h
  | exhausted => exact h
  | despawned hdes =>
      rcases despawnEntity_cases hdes with ⟨-, rfl, -⟩ | ⟨-, -, rfl, -⟩
      · exact h
      · unfold afterRemove
        rw [Map.lookup_erase_of]
        split
        · exact h.of_same fun e' he' => absurd he' (by simp)
        · exact h
  | @rewritten _ f _ quiet hf =>
      rw [Map.lookup_mapVals]
      cases he : s.entities.lookup id with
      | none =>
          rw [he] at h
          exact h
      | some e =>
          rw [he] at h
          exact h.rewritten he hf hkept
  | routed => exact h
  | clock => exact h
  | viewed => exact h

/-! ### Ticks -/

/-- The copy a create leaves is the entity it was made from. -/
theorem receive_create {s : ServerGameState F} {view : ClientView F} {id : UInt16}
    {e : ServerEntity F} {copy : Option (ServerEntity F)} {v : EntityView F} [DecidableEq F]
    (settled : e.syncState.absorb (e.delta s.settings.1 s.settings.2) = e.syncState)
    (hkept : s.createKept e = true) :
    ∃ r, receive s.lengthHack s.build copy (.clone (createRecord s view id e)) = some r ∧
      CopyOf s.settings v e r := by
  have hstate : ((blankCopy (createRecord s view id e) e.entityType).applySyncData
      (parseSyncTree e.entityType true e.createData s.lengthHack s.build)).syncState
        = e.syncState := of_decide_eq_true hkept
  refine ⟨(blankCopy (createRecord s view id e) e.entityType).applySyncData
    (parseSyncTree e.entityType true e.createData s.lengthHack s.build), rfl, rfl, rfl, ?_⟩
  rw [hstate]
  exact .fresh settled

/-- A sync brings a copy up to date. -/
theorem receive_sync {s : ServerGameState F} {view : ClientView F} {id : UInt16}
    {e r : ServerEntity F} {v v' : EntityView F} (h : CopyOf s.settings v e r) :
    ∃ r', receive s.lengthHack s.build (some r) (.clone (syncRecord s view id e)) = some r' ∧
      CopyOf s.settings v' e r' := by
  have hdelta : parseSyncTree r.entityType false e.data s.lengthHack s.build
      = e.delta s.settings.1 s.settings.2 := by
    rw [h.entityType]
    rfl
  refine ⟨r.applySyncData (e.delta s.settings.1 s.settings.2), ?_, h.uniqifier, h.entityType, ?_⟩
  · simp only [receive, syncRecord, Option.map_some, h.uniqifier, if_true, hdelta]
  · rw [ServerEntity.syncState_applySyncData]
    exact h.follows.sent (SyncState.covers_self _)

/-- An entry that a tick only refreshes is as far as it was. -/
theorem refreshed_created {ctx : TickContext F} {e : EntitySnapshot F}
    {before : Option (EntityView F)} (h : (ClientView.refreshed ctx e before).created = true) :
    ∃ v, before = some v ∧ v.created = true ∧
      (ClientView.refreshed ctx e before).baseFrame = v.baseFrame := by
  cases before with
  | none => exact absurd h (by simp [ClientView.refreshed])
  | some v => exact ⟨v, rfl, h, rfl⟩

/-- **A tick** keeps the copies following: what it sends is absorbed, and what it does not send
is still to be sent. -/
theorem ticked [DecidableEq F] (filed : Filed s) {op : Op F} {c : UInt32} {view : ClientView F}
    {ctx : TickContext F} {acts : List Action} {entry' : Option (EntityView F)}
    (tick : s.tickOf op c = some ctx)
    (effect : view.TickEffect ctx id entry (view.relevant ctx id) acts entry')
    (h : Tracks s.settings (s.entities.lookup id) entry copy)
    (hkept : (view.relevant ctx id).isNone = true ∨ entry.any (·.created) = true ∨
      ∀ e, s.entities.lookup id = some e → s.createKept e = true) :
    Tracks s.settings (s.entities.lookup id) entry'
      ((acts.filterMap (actionRecord s.entities s.frameIndex (view.tickWithContext ctx).1 id)).foldl
        (receive s.lengthHack s.build) copy) := by
  have stays : ∀ {snap}, Tracks s.settings (s.entities.lookup id)
      (some (ClientView.refreshed ctx snap entry)) copy := by
    intro snap
    refine h.of_back fun v' hv' hc' => ?_
    obtain rfl := Option.some.inj hv'
    obtain ⟨v, hv, hc, hbase⟩ := refreshed_created hc'
    refine ⟨v, hv, hc, fun f hf => ?_⟩
    rw [hbase]
    exact hf
  generalize hrel : view.relevant ctx id = rel at effect hkept
  cases effect with
  | outside => exact h
  | exits => exact ⟨h.settled, fun _ hv => absurd hv (by simp)⟩
  | @lingers v _ =>
      refine h.of_back fun v' hv' hc' => ?_
      obtain rfl := Option.some.inj hv'
      exact ⟨v, rfl, hc', fun _ hf => hf⟩
  | waits => exact stays
  | idles => exact stays
  | @creates _ snap fresh =>
      obtain ⟨e, he, -, -, -⟩ := filed.relevant_entity tick hrel
      have hcreate : s.createKept e = true := by
        rcases hkept with hnone | hany | hcreate
        · exact absurd hnone (by simp)
        · obtain ⟨v, hv, hc⟩ := (Option.any_eq_true _ _).mp hany
          rw [hv] at fresh
          exact absurd (hc.symm.trans fresh) (by simp)
        · exact hcreate e he
      rw [he] at h ⊢
      refine .of_live (h.settled rfl) fun v' hv' _ => ?_
      simp only [List.filterMap_cons, createRecord_eq he, List.filterMap_nil, List.foldl_cons,
        List.foldl_nil]
      exact receive_create (h.settled rfl) hcreate
  | @syncs _ snap known newer =>
      obtain ⟨e, he, hsnap, -, -⟩ := filed.relevant_entity tick hrel
      obtain ⟨v, hv, hc, -⟩ := refreshed_created known
      rw [he] at h ⊢
      obtain ⟨r, rfl, hcopy⟩ := h.follows rfl hv hc
      refine .of_live (h.settled rfl) fun v' hv' _ => ?_
      by_cases hdata : e.data = []
      · -- nothing is written, and nothing was missing
        have hnone : actionRecord s.entities s.frameIndex (view.tickWithContext ctx).1 id .sync
            = none := by
          simp [actionRecord, cloneRecord, he, hdata, Rec.sync, Rec.create]
        simp only [List.filterMap_cons, hnone, List.filterMap_nil, List.foldl_nil]
        have hsent : Follows SyncState.absorb (¬ v'.baseFrame < e.frameIndex)
            (r.syncState.absorb (e.delta s.settings.1 s.settings.2)) e.syncState
            (e.delta s.settings.1 s.settings.2) := hcopy.follows.sent (SyncState.covers_self _)
        rw [ServerEntity.delta_nil hdata, SyncState.absorb_nil] at hsent
        refine ⟨r, rfl, hcopy.uniqifier, hcopy.entityType, ?_⟩
        rw [ServerEntity.delta_nil hdata]
        exact hsent
      · simp only [List.filterMap_cons, syncRecord_eq he hdata, List.filterMap_nil,
          List.foldl_cons, List.foldl_nil]
        exact receive_sync hcopy

end Tracks

/-! ### Runs -/

/-- Only a tick sends anything, and it leaves the registry as it is. -/
theorem entities_of_tick {lz4 : Lz4} {op : Op F} {s s' : ServerGameState F} {a : Answer}
    {c : UInt32} {ctx : TickContext F} (tick : s.tickOf op c = some ctx)
    (h : step lz4 op s = some (s', a)) : s'.entities = s.entities := by
  cases op with
  | tickClient source focus cfg =>
      obtain ⟨rfl, -⟩ := Prod.mk.inj (Option.some.inj h)
      cases s.clients.lookup source with
      | none => rfl
      | some st => rfl
  | tickClients ord fallback cfg =>
      obtain ⟨rfl, -⟩ := Prod.mk.inj (Option.some.inj h)
      rfl
  | _ => exact absurd tick (by simp [tickOf])

/-- A client that stays connected adds to its copy what it is sent. -/
theorem replica_cons {c : UInt32} {id : UInt16} {x : Entry (ServerGameState F) (Op F) Answer}
    {past : List (Entry (ServerGameState F) (Op F) Answer)}
    (h : ∀ ord, x.op ≠ .removeClient ord c) :
    replica c id (x :: past) = (x.pre.sentAbout x.op c id).foldl
      (receive x.pre.lengthHack x.pre.build) (replica c id past) := by
  simp only [replica]
  split
  · rename_i ord source hop
    rw [if_neg]
    rintro rfl
    exact h ord hop
  · rfl

theorem entryOf_removeClient {lz4 : Lz4} {s s' : ServerGameState F} {a : Answer} {c : UInt32}
    {ord : IterOrder UInt16} (h : step lz4 (.removeClient ord c) s = some (s', a)) (id : UInt16) :
    s'.entryOf c id = none := by
  obtain ⟨⟨t, ids⟩, ht, heq⟩ := Option.map_eq_some_iff.mp h
  obtain ⟨rfl, -⟩ := Prod.mk.inj heq
  unfold entryOf viewOf
  rw [removeClient_clients ht, AList.lookup_erase]
  rfl

/-- What a step that ticks `c` must find. -/
theorem keepsUp_tick [DecidableEq F] {lz4 : Lz4} {op : Op F} {s s' : ServerGameState F}
    {a : Answer} {c : UInt32} {id : UInt16} {view : ClientView F} {ctx : TickContext F}
    (hview : s.viewOf c = some view) (tick : s.tickOf op c = some ctx)
    (hkept : keepsUp lz4 c id ⟨s, op, a, s'⟩ = true) :
    (view.relevant ctx id).isNone = true ∨ (s.entryOf c id).any (·.created) = true ∨
      ∀ e, s.entities.lookup id = some e → s.createKept e = true := by
  cases op with
  | tickClient source focus cfg =>
      simp only [keepsUp, hview, tick, Bool.or_eq_true, Option.all_eq_true, or_assoc] at hkept
      exact hkept
  | tickClients ord fallback cfg =>
      simp only [keepsUp, hview, tick, Bool.or_eq_true, Option.all_eq_true, or_assoc] at hkept
      exact hkept
  | _ => exact absurd tick (by simp [tickOf])

/-- **One step** that finds what it must keeps the invariant. -/
theorem Tracks.step [DecidableEq F] {lz4 : Lz4} {op : Op F} {s s' : ServerGameState F} {a : Answer}
    {c : UInt32} {id : UInt16} {past : List (Entry (ServerGameState F) (Op F) Answer)}
    (filed : Filed s)
    (h : Tracks s.settings (s.entities.lookup id) (s.entryOf c id) (replica c id past))
    (hstep : Zone.step lz4 op s = some (s', a)) (hkept : keepsUp lz4 c id ⟨s, op, a, s'⟩ = true) :
    Tracks s'.settings (s'.entities.lookup id) (s'.entryOf c id)
      (replica c id (⟨s, op, a, s'⟩ :: past)) := by
  have hentity := h.entity_step hstep hkept
  by_cases hleft : ∃ ord, op = .removeClient ord c
  · obtain ⟨ord, rfl⟩ := hleft
    rw [entryOf_removeClient hstep]
    exact ⟨hentity.settled, fun _ hv => absurd hv (by simp)⟩
  · rw [replica_cons (x := ⟨s, op, a, s'⟩) fun ord heq => hleft ⟨ord, heq⟩]
    have hfind : ∀ {view ctx}, s.viewOf c = some view → s.tickOf op c = some ctx → _ :=
      fun hview tick => keepsUp_tick hview tick hkept
    have heff := entry_effect filed hstep c id
    generalize s.sentAbout op c id = sent at heff ⊢
    generalize s.entryOf c id = before at heff h hentity hfind
    generalize s'.entryOf c id = after at heff ⊢
    cases heff with
    | same => exact hentity
    | left hop => exact absurd ⟨_, hop⟩ hleft
    | nacked =>
        refine hentity.of_back fun v' hv' hc' => ?_
        obtain ⟨v, hv, rfl⟩ := Option.map_eq_some_iff.mp hv'
        obtain ⟨hc, hback⟩ := nackEntry_back hc'
        exact ⟨v, hv, hc, hback⟩
    | acked =>
        refine hentity.of_back fun v' hv' hc' => ?_
        obtain ⟨v, hv, rfl⟩ := Option.map_eq_some_iff.mp hv'
        obtain ⟨hc, hback⟩ := repairEntry_back hc'
        exact ⟨v, hv, hc, hback⟩
    | ticked hview tick effect =>
        rw [settings_step hstep, entities_of_tick tick hstep]
        exact Tracks.ticked filed tick effect h (hfind hview tick)

/-- **The delta stream is lossless** in every run whose steps all find what they must: a client
that the server takes for up to date on an entity has its state. -/
theorem replica_in_sync [DecidableEq F] (lz4 : Lz4) (bigMode lengthHack : Bool)
    (build : GameBuild) (c : UInt32) (id : UInt16)
    {tr : List (Entry (ServerGameState F) (Op F) Answer)} {s : ServerGameState F}
    (run : Run (step lz4) (ServerGameState.withBuild bigMode lengthHack build) tr s)
    (hkept : ∀ x ∈ tr, keepsUp lz4 c id x = true) : InSync c id tr s := by
  have inv := run.invariant
    (I := fun tr s => Tracks s.settings (s.entities.lookup id) (s.entryOf c id) (replica c id tr))
    (P := fun _ x => keepsUp lz4 c id x = true)
    ⟨fun he => absurd he (by simp [withBuild]), fun he => absurd he (by simp [withBuild])⟩
    (fun run h hstep hP => h.step (.of_run run) hstep hP) (along_of_forall hkept)
  intro e he v hv hc hbase
  obtain ⟨r, hr, hcopy⟩ := inv.follows he hv hc
  refine ⟨r, hr, hcopy.uniqifier, hcopy.follows.upToDate ?_⟩
  rw [hbase]
  exact UInt64.lt_irrefl _

/-! ### Copies that are lost -/

/-- The create of object 5 with a blob that has it visible. -/
def visibleCreate : List UInt8 :=
  [0x20, 0x00, 0x20, 0x05, 0x00, 0x00, 0x00, 0x00, 0x50, 0x05, 0x00, 0x07, 0x20, 0x01, 0x80, 0xE0]

/-- A sync that has object 5 visible. -/
def visibleSync : Op Float32 := .ingest 1 (LiteralRun.clonePayload
  [0x40, 0x00, 0x20, 0x05, 0x00, 0x4F, 0x20, 0x01, 0x80, 0x0E])

/-- A sync that has object 5 move. -/
def movingSync : Op Float32 := .ingest 1 (LiteralRun.clonePayload
  [0x40, 0x00, 0x20, 0x05, 0x00, 0x8A, 0x20, 0x24, 0x01, 0x00, 0x20, 0x00, 0x00, 0x0E])

/-- Two syncs, each sent before the next arrives, leave client 2 with the server's state. -/
theorem copy_of_moving_object :
    ∃ tr s, Run (step LiteralRun.lz4)
        (ServerGameState.withBuild false false default : ServerGameState Float32) tr s ∧
      (∀ x ∈ tr, keepsUp LiteralRun.lz4 2 5 x = true) ∧
      (∃ e ∈ s.entities.lookup 5, e.nodes.isVisible = some true ∧ e.velocity = ⟨1.0, 2.0, 0.0⟩ ∧
        ∃ v ∈ s.entryOf 2 5, v.created = true ∧ v.baseFrame = e.frameIndex) ∧
      InSync 2 5 tr s := by
  obtain ⟨tr, s, run, hcheck⟩ := exists_run (step LiteralRun.lz4)
    (ServerGameState.withBuild false false default : ServerGameState Float32)
    (objectScene bareCreate ++ [tickAll, .tick, visibleSync, tickAll, .tick, movingSync, tickAll])
    (fun tr s => tr.all (keepsUp LiteralRun.lz4 2 5) && (s.entities.lookup 5).any fun e =>
      e.nodes.isVisible = some true && e.velocity = ⟨1.0, 2.0, 0.0⟩ &&
        (s.entryOf 2 5).any fun v => v.created && v.baseFrame = e.frameIndex) (by decide +kernel)
  simp only [Bool.and_eq_true, List.all_eq_true, Option.any_eq_true, decide_eq_true_eq] at hcheck
  obtain ⟨hkept, e, he, ⟨hvisible, hvelocity⟩, v, hv, hcreated, hbase⟩ := hcheck
  exact ⟨tr, s, run, hkept, ⟨e, he, hvisible, hvelocity, v, hv, hcreated, hbase⟩,
    replica_in_sync LiteralRun.lz4 false false default 2 5 run hkept⟩

/-- The run of `ops` ends with client 2 up to date on object 5, but without its state. -/
def FallsBehind (ops : List (Op Float32)) : Prop :=
  ∃ tr s, Run (step LiteralRun.lz4) (ServerGameState.withBuild false false default) tr s ∧
    history (step LiteralRun.lz4) [] ops (ServerGameState.withBuild false false default)
      = some (tr, s) ∧ ¬ InSync 2 5 tr s

theorem fallsBehind_of_run (ops : List (Op Float32))
    (h : ((history (step LiteralRun.lz4) [] ops
      (ServerGameState.withBuild false false default)).any fun r =>
        !decide (InSync 2 5 r.1 r.2)) = true) : FallsBehind ops := by
  obtain ⟨⟨tr, s⟩, hr, hout⟩ := (Option.any_eq_true _ _).mp h
  exact ⟨tr, s, run_of_history ops .nil hr, hr, by simpa using hout⟩

/-- Two syncs between two ticks, of which the second takes the place of the first; a sync
before the client was sent the create; a create blob that the server has not read; and a sync
in a frame that was sent already. -/
theorem copy_falls_behind :
    FallsBehind (objectScene bareCreate ++ [tickAll, .tick, visibleSync, movingSync, tickAll]) ∧
      FallsBehind (objectScene bareCreate ++ [visibleSync, tickAll]) ∧
      FallsBehind (objectScene visibleCreate ++ [tickAll]) ∧
      FallsBehind (objectScene bareCreate ++ [tickAll, visibleSync]) := by
  refine ⟨?_, ?_, ?_, ?_⟩
  · exact fallsBehind_of_run _ (by decide +kernel)
  · exact fallsBehind_of_run _ (by decide +kernel)
  · exact fallsBehind_of_run _ (by decide +kernel)
  · exact fallsBehind_of_run _ (by decide +kernel)

end Baston.Zone

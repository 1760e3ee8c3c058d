/-
The server-authoritative game state (`onesync/mod.rs`): the entity registry, the
object-id table, the connected clients, and every operation but the ingestion of a
clone payload, which is `Ingest`.

An access to the id table out of bounds is a panic in the source.  Operations that
index it return an `Option`, and `none` is that panic.
-/
import Baston.Rage.ObjectIds
import Baston.Rage.SyncWrite
import Baston.Zone.InterestNg
import Baston.Zone.RoutingBucket

namespace Baston.Zone

open Assoc Baston.Rage

variable {F : Type}

/-- The largest usable object id without the length hack. -/
def maxObjectIdNative : UInt16 := 8191

/-- With the length hack ids take the full 16-bit space. -/
def maxObjectIdBeyond : UInt16 := 65534

/-! ### Entities -/

/-- A server-tracked networked entity. -/
structure ServerEntity (F : Type) where
  objectId : UInt16
  uniqifier : UInt16
  /-- Net id of the current owner. -/
  owner : UInt32
  entityType : NetObjEntityType
  creationToken : UInt32
  /-- Latest raw sync blob. -/
  data : List UInt8
  /-- The create blob, kept for the lifetime of the entity. -/
  createData : List UInt8
  /-- Server frame index at the last update. -/
  frameIndex : UInt64
  position : Vec3 F
  /-- Whether a position node has ever been decoded. -/
  positionKnown : Bool
  sector : Vec3 Int32
  sectorPosition : Vec3 F
  velocity : Vec3 F
  routingBucket : UInt32
  health : Option F
  maxHealth : Option F
  armour : Option F
  model : Option UInt32
  vehicleSeat : Option (UInt16 × UInt8)
  /-- The client that created the entity. -/
  firstOwner : UInt32
  nodes : EntityNodeState
  heading : Option F
  desiredHeading : Option F
  /-- Created by a server script rather than by a client. -/
  serverOwned : Bool

section
variable [Scalar F]

/-- Fold a decoded clone record into the entity. -/
def ServerEntity.applySyncData (e : ServerEntity F) (decoded : SyncNodeData F) :
    ServerEntity F :=
  let sector := decoded.sector.getD e.sector
  let sectorPosition := decoded.sectorPosition.getD e.sectorPosition
  let positionChanged := decoded.sector.isSome || decoded.sectorPosition.isSome
  { e with
    sector := sector
    sectorPosition := sectorPosition
    position := if positionChanged then worldPosition sector sectorPosition else e.position
    positionKnown := e.positionKnown || positionChanged
    velocity := decoded.velocity.getD e.velocity
    health := mergeField e.health decoded.health
    maxHealth := mergeField e.maxHealth decoded.maxHealth
    armour := mergeField e.armour decoded.armour
    model := mergeField e.model decoded.model
    vehicleSeat := mergeField e.vehicleSeat decoded.vehicleSeat
    heading := mergeField e.heading decoded.heading
    desiredHeading := mergeField e.desiredHeading decoded.desiredHeading
    nodes := e.nodes.merge decoded }

end

/-- What interest management sees of an entity. -/
def ServerEntity.snapshot (e : ServerEntity F) : EntitySnapshot F where
  objectId := e.objectId
  uniqifier := e.uniqifier
  owner := e.owner
  position := e.position
  velocity := e.velocity
  entityType := e.entityType
  routingBucket := e.routingBucket
  frameIndex := e.frameIndex
  dataLen := e.data.length

/-! ### The state -/

/-- Per-client lease and sync bookkeeping. -/
structure ClientState (F : Type) where
  /-- Object ids leased to this client, in the order they were handed out. -/
  leased : List UInt16
  /-- The client's frame index, from type-6 records. -/
  frameIndex : UInt64
  /-- The client's ack timestamp, from type-5 records. -/
  ackTs : UInt32
  view : ClientView F

def ClientState.new (netId : UInt16) : ClientState F := ⟨[], 0, 0, .new netId⟩

/-- Allocation state of one object id. -/
inductive IdState
  | free | leased | used
  deriving DecidableEq, Repr

/-- The game state of one zone. -/
structure ServerGameState (F : Type) where
  entities : Map UInt16 (ServerEntity F)
  clients : Map UInt32 (ClientState F)
  ids : List IdState
  maxObjectId : UInt16
  bigMode : Bool
  lengthHack : Bool
  build : GameBuild
  frameIndex : UInt64
  creationToken : UInt32
  routingBuckets : RoutingBucketRegistry

/-- Occupancy of the object-id space. -/
structure ObjectIdUsage where
  used : Nat
  leased : Nat
  free : Nat
  max : Nat
  deriving DecidableEq, Repr

/-- The packets of one client's tick. -/
structure ClientTick where
  source : UInt32
  packets : List (List UInt8)

namespace ServerGameState

/-- A fresh state that decodes sync trees for `build`. -/
def withBuild (bigMode lengthHack : Bool) (build : GameBuild) : ServerGameState F :=
  let maxObjectId := if lengthHack then maxObjectIdBeyond else maxObjectIdNative
  { entities := ∅
    clients := ∅
    ids := List.replicate (maxObjectId.toNat + 1) .free
    maxObjectId := maxObjectId
    bigMode := bigMode
    lengthHack := lengthHack
    build := build
    frameIndex := 1
    creationToken := 0
    routingBuckets := {} }

/-- `self.ids[id]`. -/
def idState (s : ServerGameState F) (id : UInt16) : Option IdState := s.ids[id.toNat]?

/-- `self.ids[id] = st`. -/
def setIdState (s : ServerGameState F) (id : UInt16) (st : IdState) :
    Option (ServerGameState F) :=
  if id.toNat < s.ids.length then some { s with ids := s.ids.set id.toNat st } else none

/-- Occupancy of the object-id space.  The slice and the subtraction both may panic. -/
def objectIdUsage (s : ServerGameState F) : Option ObjectIdUsage :=
  let max := s.maxObjectId.toNat
  if s.ids.length < max + 1 then none
  else
    let states := (s.ids.drop 1).take max
    let used := states.count .used
    let leased := states.count .leased
    if max < used ∨ max - used < leased then none else some ⟨used, leased, max - used - leased, max⟩

/-! ### Routing, the clock, and overrides -/

def setPlayerRoutingBucket (s : ServerGameState F) (source bucket : UInt32) :
    ServerGameState F :=
  { s with routingBuckets := s.routingBuckets.setPlayerBucket source bucket }

def setEntityRoutingBucket (s : ServerGameState F) (objectId : UInt16) (bucket : UInt32) :
    ServerGameState F :=
  { s with
    routingBuckets := s.routingBuckets.setEntityBucket objectId bucket
    entities := s.entities.modify objectId fun e => { e with routingBucket := bucket } }

def setRoutingBucketLockdown (s : ServerGameState F) (bucket : UInt32) (mode : LockdownMode) :
    ServerGameState F :=
  { s with routingBuckets := s.routingBuckets.setLockdown bucket mode }

def setRoutingBucketPopulationEnabled (s : ServerGameState F) (bucket : UInt32)
    (enabled : Bool) : ServerGameState F :=
  { s with routingBuckets := s.routingBuckets.setPopulationEnabled bucket enabled }

/-- Advance the server frame index. -/
def tick (s : ServerGameState F) : ServerGameState F := { s with frameIndex := s.frameIndex + 1 }

/-- Override a world position; the sector halves are left as they are. -/
def setEntityPosition (s : ServerGameState F) (objectId : UInt16) (position : Vec3 F) :
    ServerGameState F :=
  { s with
    entities := s.entities.modify objectId fun e =>
      { e with position := position, positionKnown := true } }

def setEntityVelocity (s : ServerGameState F) (objectId : UInt16) (velocity : Vec3 F) :
    ServerGameState F :=
  { s with entities := s.entities.modify objectId fun e => { e with velocity := velocity } }

/-- Place a player entity the clone stream has not placed yet. -/
def seedPosition (focus : Map UInt32 (Vec3 F)) (e : ServerEntity F) : ServerEntity F :=
  if e.entityType = .player ∧ ¬ e.positionKnown then
    match focus.lookup e.owner with
    | some position => { e with position := position, positionKnown := true }
    | none => e
  else e

def seedUnknownPlayerPositions (s : ServerGameState F) (focus : Map UInt32 (Vec3 F)) :
    ServerGameState F :=
  { s with entities := s.entities.mapVals fun _ e => seedPosition focus e }

/-! ### Clients and leases -/

/-- `self.clients.entry(source).or_insert_with(..)`. -/
def addClient (s : ServerGameState F) (source : UInt32) : ServerGameState F :=
  { s with clients := s.clients.entryOrInsert source (.new source.toUInt16) }

/-- The ids on a client's lease list; none for a source that is not a client. -/
def leasedBy (s : ServerGameState F) (source : UInt32) : List UInt16 :=
  ((s.clients.lookup source).map (·.leased)).getD []

/-- Free an id of a leaving client's list, if it is still in the leased state. -/
def releaseLease (ids : List IdState) (id : UInt16) : Option (List IdState) :=
  match ids[id.toNat]? with
  | none => none
  | some .leased => some (ids.set id.toNat .free)
  | some _ => some ids

/-- What becomes of one entity whose owner leaves: the server keeps its own. -/
def dropOrphan (s : ServerGameState F) (id : UInt16) : Option (ServerGameState F) :=
  match s.entities.lookup id with
  | some e =>
    if e.serverOwned then
      some { s with entities := s.entities.insert id { e with owner := 0 } }
    else do
      let s ← setIdState { s with entities := s.entities.erase id } id .free
      some { s with routingBuckets := s.routingBuckets.removeEntity id }
  | none => do
    -- not reached: the ids were read off the registry
    let s ← setIdState s id .free
    some { s with routingBuckets := s.routingBuckets.removeEntity id }

/-- The entities a source owns. -/
def ownedIds (s : ServerGameState F) (ord : IterOrder UInt16) (source : UInt32) :
    List UInt16 :=
  ((s.entities.visit ord).filter fun kv => kv.2.owner = source).map (·.1)

/-- Drop a client, release its leases, and let go of the entities it owned. -/
def removeClient (s : ServerGameState F) (ord : IterOrder UInt16) (source : UInt32) :
    Option (ServerGameState F × List UInt16) := do
  let ids ← (s.leasedBy source).foldlM releaseLease s.ids
  let s := { s with clients := s.clients.erase source, ids := ids }
  let orphaned := s.ownedIds ord source
  let s ← orphaned.foldlM dropOrphan s
  some ({ s with routingBuckets := s.routingBuckets.removePlayer source }, orphaned)

/-- The scan of `lease_object_ids`: at most `n` free ids of the list become leased. -/
def leaseScan : Nat → List Nat → List IdState → Option (List UInt16 × List IdState)
  | 0, _, ids => some ([], ids)
  | _ + 1, [], ids => some ([], ids)
  | n + 1, id :: rest, ids =>
    match ids[id]? with
    | none => none
    | some .free => do
      let (leased, ids) ← leaseScan n rest (ids.set id .leased)
      some (UInt16.ofNat id :: leased, ids)
    | some _ => leaseScan (n + 1) rest ids

/-- Lease up to `n` free object ids to a client, low to high, with the grant packet. -/
def leaseObjectIds (s : ServerGameState F) (source : UInt32) (n : Nat) :
    Option (ServerGameState F × List UInt16 × List UInt8) := do
  let (leased, ids) ← leaseScan n (List.range' 1 (s.maxObjectId.toNat - 1)) s.ids
  let s := { s with ids := ids }.addClient source
  let s := { s with
    clients := s.clients.modify source fun c => { c with leased := c.leased ++ leased } }
  some (s, leased, ObjectIds.buildObjectIds leased)

/-- The per-request lease size for this mode. -/
def idsPerRequest (s : ServerGameState F) : Nat := ObjectIds.idsPerRequest s.bigMode

/-! ### Server entities -/

/-- The downward scan of `allocate_server_object_id`.  The outer `none` is a panic, the
inner one an exhausted id space. -/
def allocateScan (ids : List IdState) : Nat → Option (Option UInt16)
  | 0 => some none
  | id + 1 =>
    match ids[id + 1]? with
    | none => none
    | some .free => some (some (UInt16.ofNat (id + 1)))
    | some _ => allocateScan ids id

def allocateServerObjectId (s : ServerGameState F) : Option (Option UInt16) :=
  allocateScan s.ids s.maxObjectId.toNat

/-- Remove an entity whoever owns it. -/
def despawnEntity (s : ServerGameState F) (objectId : UInt16) :
    Option (ServerGameState F × Bool) :=
  if objectId ∈ s.entities then do
    let s ← setIdState { s with entities := s.entities.erase objectId } objectId .free
    some ({ s with routingBuckets := s.routingBuckets.removeEntity objectId }, true)
  else some (s, false)

/-- What a script asks for when it creates an entity. -/
structure SpawnRequest (F : Type) where
  entityType : NetObjEntityType
  model : UInt32
  position : Vec3 F
  heading : F
  dynamic : Bool

variable [Scalar F]

/-- The nodes the server authors for a new entity. -/
def SpawnRequest.nodes (req : SpawnRequest F) (creationToken : UInt32) : AuthoredNodes :=
  if req.entityType = .ped ∨ req.entityType = .player then
    SyncWrite.authorPed req.model req.position req.heading
  else if req.entityType.isVehicle then
    SyncWrite.authorVehicle req.model req.position req.heading creationToken
  else SyncWrite.authorObject req.model req.position req.heading req.dynamic

/-- The entity a request becomes.  It has no simulator yet. -/
def SpawnRequest.entity (req : SpawnRequest F) (objectId : UInt16) (creationToken : UInt32)
    (createData : List UInt8) (frameIndex : UInt64) : ServerEntity F :=
  let (sector, sectorPosition) := SyncWrite.sectorOf req.position
  { objectId := objectId
    uniqifier := creationToken.toUInt16
    owner := 0
    entityType := req.entityType
    creationToken := creationToken
    createData := createData
    data := []
    frameIndex := frameIndex
    position := req.position
    positionKnown := true
    sector := sector
    sectorPosition := sectorPosition
    velocity := Vec3.zero
    routingBucket := 0
    health := none
    maxHealth := none
    armour := none
    model := some req.model
    vehicleSeat := none
    firstOwner := 0
    nodes := {}
    heading := some req.heading
    desiredHeading := none
    serverOwned := true }

/-- Create a server entity on an id reserved elsewhere; `false` when it is taken. -/
def spawnServerEntityWithId (s : ServerGameState F) (objectId : UInt16)
    (req : SpawnRequest F) : Option (ServerGameState F × Bool) :=
  if objectId = 0 ∨ objectId > s.maxObjectId then some (s, false)
  else do
    let st ← s.idState objectId
    if st ≠ .free then some (s, false)
    else
      let token := s.creationToken + 1
      let s := { s with creationToken := token }
      match writeSyncTree req.entityType true s.lengthHack s.build (req.nodes token) with
      | none => some (s, false)
      | some createData => do
        let s ← s.setIdState objectId .used
        let e := req.entity objectId token createData s.frameIndex
        some ({ s with entities := s.entities.insert objectId e }, true)

/-- Create a server entity on the highest free id. -/
def spawnServerEntity (s : ServerGameState F) (req : SpawnRequest F) :
    Option (ServerGameState F × Option UInt16) := do
  match ← s.allocateServerObjectId with
  | none => some (s, none)
  | some objectId =>
    let (s, ok) ← s.spawnServerEntityWithId objectId req
    some (s, if ok then some objectId else none)

/-- Squared 3D distance. -/
def squaredDistance (a b : Vec3 F) : F :=
  let dx := a.x - b.x
  let dy := a.y - b.y
  let dz := a.z - b.z
  dx * dx + dy * dy + dz * dz

/-- `Iterator::min_by`: the first of the least elements. -/
def minBy {α : Type} (cmp : α → α → Ordering) : List α → Option α
  | [] => none
  | a :: rest => some (rest.foldl (fun best x => if cmp best x = .gt then x else best) a)

/-- The player nearest to a position. -/
def nearestPlayer (players : List (UInt32 × Vec3 F)) (position : Vec3 F) :
    Option (UInt32 × Vec3 F) :=
  minBy (fun a b => Scalar.totalCmp (squaredDistance a.2 position)
    (squaredDistance b.2 position)) players

/-- The placed players and who owns them. -/
def placedPlayers (s : ServerGameState F) (ord : IterOrder UInt16) : List (UInt32 × Vec3 F) :=
  ((s.entities.visit ord).filter fun kv =>
    kv.2.entityType = .player ∧ kv.2.positionKnown).map fun kv => (kv.2.owner, kv.2.position)

/-- Hand one ownerless server entity to the nearest player. -/
def adopt (players : List (UInt32 × Vec3 F)) (e : ServerEntity F) : ServerEntity F :=
  if e.serverOwned ∧ e.owner = 0 then
    match nearestPlayer players e.position with
    | some (source, _) => { e with owner := source }
    | none => e
  else e

/-- Give every ownerless server entity to the nearest player. -/
def reassignOwnerlessServerEntities (s : ServerGameState F) (ord : IterOrder UInt16) :
    ServerGameState F :=
  let players := s.placedPlayers ord
  { s with entities := s.entities.mapVals fun _ e => adopt players e }

end ServerGameState

/-! ### The outbound tick -/

/-- A record handed to the packet writer. -/
inductive OutboundRecord
  | clone (c : OutboundClone)
  | remove (objectId uniqifier : UInt16)
  deriving DecidableEq

namespace ServerGameState

/-- The world for interest management: placed entities with a simulator, by id. -/
def worldSnapshot (s : ServerGameState F) : List (EntitySnapshot F) :=
  ((s.entities.entries.map (·.2)).filter fun e =>
    e.positionKnown && e.owner ≠ 0).map ServerEntity.snapshot
  |>.insertionSort fun a b => a.objectId ≤ b.objectId

/-- Each client's viewpoint, from the player entity it owns; the last one visited wins. -/
def clientFocusMap (s : ServerGameState F) (ord : IterOrder UInt16) :
    Map UInt32 (Vec3 F × Vec3 F) :=
  ((s.entities.visit ord).filter fun kv =>
    kv.2.entityType = .player ∧ kv.2.positionKnown).foldl
    (fun focus kv => focus.insert kv.2.owner (kv.2.position, kv.2.velocity)) ∅

/-- The record of one planned create or sync.  An entity without a sync blob has no
delta to send. -/
def cloneRecord (entities : Map UInt16 (ServerEntity F)) (frameIndex : UInt64)
    (view : ClientView F) (syncType : UInt32) (objectId : UInt16) : Option OutboundRecord :=
  match entities.lookup objectId with
  | none => none
  | some e =>
    if syncType ≠ Rec.create ∧ e.data = [] then none
    else some (.clone
      { syncType := syncType
        objectId := e.objectId
        ownerNetId := e.owner.toUInt16
        entityType := if syncType = Rec.create then some e.entityType else none
        creationToken := e.creationToken
        uniqifier := e.uniqifier
        dependentFrameIndex := (view.baseFrame objectId).getD 0
        timestamp := frameIndex.toUInt32
        firstFrameUpdate := false
        data := if syncType = Rec.create then e.createData else e.data })

/-- The records of a plan, in the order they are written. -/
def planRecords (entities : Map UInt16 (ServerEntity F)) (frameIndex : UInt64)
    (view : ClientView F) (plan : TickPlan) : List OutboundRecord :=
  plan.creates.filterMap (cloneRecord entities frameIndex view Rec.create)
    ++ plan.syncs.filterMap (cloneRecord entities frameIndex view Rec.sync)
    ++ plan.removes.map fun r => .remove r.1 r.2

/-- Append one record to the stream. -/
def writeRecord (lz4 : Lz4) (frameIndex : UInt64) (w : PackedWriter) :
    OutboundRecord → PackedWriter
  | .clone c => w.writeClone lz4 frameIndex c
  | .remove objectId uniqifier => w.writeRemove lz4 false objectId uniqifier

def encodePlan (lz4 : Lz4) (entities : Map UInt16 (ServerEntity F)) (frameIndex : UInt64)
    (lengthHack : Bool) (view : ClientView F) (plan : TickPlan) : List (List UInt8) :=
  if plan.creates = [] ∧ plan.syncs = [] ∧ plan.removes = [] then []
  else
    ((planRecords entities frameIndex view plan).foldl (writeRecord lz4 frameIndex)
      (PackedWriter.new msgPackedClones frameIndex lengthHack)).finish lz4

section
variable [Scalar F]

/-- What the tick of one client reads. -/
def tickContext (s : ServerGameState F) (source : UInt32) (focus : Vec3 F × Vec3 F)
    (cfg : InterestConfig F) : TickContext F where
  focus := focus.1
  focusVelocity := focus.2
  routingBucket := s.routingBuckets.playerBucket source
  world := s.worldSnapshot
  index := SpatialIndex.build s.worldSnapshot cfg.queryRadius
  cfg := cfg

/-- The outbound tick of one client. -/
def tickClient (lz4 : Lz4) (s : ServerGameState F) (source : UInt32) (focus : Vec3 F)
    (cfg : InterestConfig F) : ServerGameState F × List (List UInt8) :=
  match s.clients.lookup source with
  | none => (s, [])
  | some state =>
    let (view, plan) := state.view.tickWithContext (s.tickContext source (focus, Vec3.zero) cfg)
    ({ s with clients := s.clients.insert source { state with view := view } },
      encodePlan lz4 s.entities s.frameIndex s.lengthHack view plan)

/-- A client's viewpoint: its own player entity, else the reported one, else the origin. -/
def focusOf (s : ServerGameState F) (ord : IterOrder UInt16)
    (fallbackFocus : Map UInt32 (Vec3 F)) (source : UInt32) : Vec3 F × Vec3 F :=
  ((s.clientFocusMap ord).lookup source).getD
    ((fallbackFocus.lookup source).getD Vec3.zero, Vec3.zero)

/-- One client's share of `tick_clients`. -/
def clientPlan (s : ServerGameState F) (ord : IterOrder UInt16)
    (fallbackFocus : Map UInt32 (Vec3 F)) (cfg : InterestConfig F) (source : UInt32)
    (state : ClientState F) : ClientView F × TickPlan :=
  state.view.tickWithContext (s.tickContext source (s.focusOf ord fallbackFocus source) cfg)

/-- The outbound tick of every client against one snapshot. -/
def tickClients (lz4 : Lz4) (s : ServerGameState F) (ord : IterOrder UInt16)
    (fallbackFocus : Map UInt32 (Vec3 F)) (cfg : InterestConfig F) :
    ServerGameState F × List ClientTick :=
  let plan := s.clientPlan ord fallbackFocus cfg
  let clients := s.clients.mapVals fun source state =>
    { state with view := (plan source state).1 }
  let ticks := (s.clients.keys.insertionSort (· ≤ ·)).filterMap fun source =>
    (s.clients.lookup source).bind fun state =>
      let (view, plan) := plan source state
      let packets := encodePlan lz4 s.entities s.frameIndex s.lengthHack view plan
      if packets = [] then none else some ⟨source, packets⟩
  ({ s with clients := clients }, ticks)

end

/-! ### Reliability -/

/-- The ignore and recreate lists of a NACK or an ack. -/
def repair (view : ClientView F) (ignoreList : List IgnoreEntry) (recreateList : List UInt16) :
    ClientView F :=
  let view := ignoreList.foldl
    (fun view entry => view.rollback entry.objectId entry.lastFrame false) view
  recreateList.foldl (fun view objectId => view.forceRecreate objectId) view

/-- `first.saturating_sub(1)`. -/
def frameBefore (first : UInt64) : UInt64 := if first = 0 then 0 else first - 1

/-- What a NACK does to the sender's view. -/
def nackView (nack : GameStateNAck) (view : ClientView F) : ClientView F :=
  let view :=
    match nack.missingFrames with
    | some (first, _last) => view.rollbackAll (frameBefore first)
    | none => view
  repair view nack.ignoreList nack.recreateList

def applyNack (s : ServerGameState F) (source : UInt32) (nack : GameStateNAck) :
    ServerGameState F :=
  { s with clients := s.clients.modify source fun c => { c with view := nackView nack c.view } }

def applyAck (s : ServerGameState F) (source : UInt32) (ack : GameStateAck) :
    ServerGameState F :=
  { s with
    clients := s.clients.modify source fun c =>
      { c with
        view := repair (c.view.ackFrame ack.frameIndex) ack.ignoreList ack.recreateList } }

end ServerGameState

end Baston.Zone

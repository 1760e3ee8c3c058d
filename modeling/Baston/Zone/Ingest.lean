/-
Inbound clone payloads: decoding, arbitration and acks (`onesync/ingest.rs`), and the
game state as a system that takes one operation after another.

The body of the record loop does three things that do not depend on each other: it
arbitrates the record against the registry (`applyRecord`), acks it (`ackRecord`) and
counts it (`countRecord`).
-/
import Baston.Zone.OneSync

namespace Baston.Zone

open Assoc Baston.Rage

variable {F : Type}

/-- The result of one payload. -/
structure IngestOutcome where
  ackPackets : List (List UInt8) := []
  creates : Nat := 0
  syncs : Nat := 0
  removes : Nat := 0
  /-- Takeover requests observed: object id and requested target. -/
  takeovers : List (UInt16 × UInt16) := []
  rejectedMutations : Nat := 0
  deriving DecidableEq

/-- The object id that is no object id. -/
def notAnObjectId : UInt16 := 0xFFFF

namespace ServerGameState

/-! ### Arbitration -/

section
variable [Scalar F]

/-- The entity an accepted create leaves behind, from the one it refreshes if any.
The decode is of `data`, which was just emptied. -/
def createdEntity (s : ServerGameState F) (source : UInt32) (objectId uniqifier : UInt16)
    (entityType : NetObjEntityType) (creationToken : UInt32) (data : List UInt8) :
    ServerEntity F :=
  let previous := s.entities.lookup objectId
  let entity : ServerEntity F :=
    { objectId := objectId
      uniqifier := uniqifier
      owner := source
      entityType := entityType
      creationToken := creationToken
      frameIndex := s.frameIndex
      position := (previous.map (·.position)).getD Vec3.zero
      positionKnown := (previous.map (·.positionKnown)).getD false
      sector := (previous.map (·.sector)).getD defaultSector
      sectorPosition := (previous.map (·.sectorPosition)).getD Vec3.zero
      velocity := (previous.map (·.velocity)).getD Vec3.zero
      routingBucket := s.routingBuckets.playerBucket source
      health := previous.bind (·.health)
      maxHealth := previous.bind (·.maxHealth)
      armour := previous.bind (·.armour)
      model := previous.bind (·.model)
      vehicleSeat := previous.bind (·.vehicleSeat)
      firstOwner := (previous.map (·.firstOwner)).getD source
      nodes := (previous.map (·.nodes)).getD {}
      heading := previous.bind (·.heading)
      desiredHeading := previous.bind (·.desiredHeading)
      serverOwned := false
      createData := data
      data := [] }
  entity.applySyncData (parseSyncTree entityType true entity.data s.lengthHack s.build)

/-- A create; `false` when it is rejected. -/
def applyCreate (s : ServerGameState F) (source : UInt32) (objectId uniqifier : UInt16)
    (entityType : Option NetObjEntityType) (creationToken : UInt32) (data : List UInt8) :
    ServerGameState F × Bool :=
  let conflict :=
    match s.entities.lookup objectId with
    | some existing => existing.owner ≠ source || existing.uniqifier ≠ uniqifier
    | none => false
  if !s.routingBuckets.allowsClientCreate source || conflict then (s, false)
  else
    match entityType with
    | none => (s, false)
    | some entityType =>
      let entity := s.createdEntity source objectId uniqifier entityType creationToken data
      ({ s with
          entities := s.entities.insert objectId entity
          routingBuckets := s.routingBuckets.setEntityBucket objectId
            (s.routingBuckets.playerBucket source) }, true)

/-- The entity after an accepted sync. -/
def syncedEntity (s : ServerGameState F) (e : ServerEntity F) (data : List UInt8) :
    ServerEntity F :=
  if data = [] then e
  else
    { e with data := data, frameIndex := s.frameIndex }.applySyncData
      (parseSyncTree e.entityType false data s.lengthHack s.build)

/-- A sync; `false` on a wrong uniqifier, owner or bucket. -/
def applySync (s : ServerGameState F) (source : UInt32) (objectId uniqifier : UInt16)
    (data : List UInt8) : ServerGameState F × Bool :=
  match s.entities.lookup objectId with
  | none => (s, false)
  | some e =>
    if e.uniqifier ≠ uniqifier ∨ e.owner ≠ source
        ∨ s.routingBuckets.playerBucket source ≠ e.routingBucket then (s, false)
    else ({ s with entities := s.entities.insert objectId (s.syncedEntity e data) }, true)

end

/-- A remove: only by the owner, with the right uniqifier, in the entity's bucket. -/
def applyRemove (s : ServerGameState F) (source : UInt32) (objectId uniqifier : UInt16) :
    Option (ServerGameState F × Bool) :=
  match s.entities.lookup objectId with
  | none => some (s, false)
  | some e =>
    if e.owner = source ∧ e.uniqifier = uniqifier
        ∧ s.routingBuckets.playerBucket source = e.routingBucket then do
      let s ← setIdState { s with entities := s.entities.erase objectId } objectId .free
      some ({ s with routingBuckets := s.routingBuckets.removeEntity objectId }, true)
    else some (s, false)

/-- A takeover: the current owner names the next one. -/
def applyTakeover (s : ServerGameState F) (sender : UInt32) (objectId target : UInt16) :
    ServerGameState F × Bool :=
  if !s.routingBuckets.allowsTakeover sender target.toUInt32 objectId then (s, false)
  else
    match s.entities.lookup objectId with
    | none => (s, false)
    | some e =>
      if e.owner = sender then
        ({ s with
          entities := s.entities.insert objectId { e with owner := target.toUInt32 } }, true)
      else (s, false)

/-- The takeover target: 0 names the sender. -/
def takeoverTarget (source : UInt32) (targetClient : UInt16) : UInt16 :=
  if targetClient = 0 then source.toUInt16 else targetClient

section
variable [Scalar F]

/-- What a record does to the state, and whether it was accepted. -/
def applyRecord (source : UInt32) (s : ServerGameState F) :
    InboundRecord → Option (ServerGameState F × Bool)
  | .clone isCreate objectId uniqifier entityType creationToken data =>
    if objectId = notAnObjectId then some (s, true)
    else if isCreate then
      let (s, accepted) := s.applyCreate source objectId uniqifier entityType creationToken data
      if accepted then do
        let s ← s.setIdState objectId .used
        some (s, true)
      else some (s, false)
    else some (s.applySync source objectId uniqifier data)
  | .remove objectId uniqifier => s.applyRemove source objectId uniqifier
  | .takeover targetClient objectId =>
    some (s.applyTakeover source objectId (takeoverTarget source targetClient))
  | .timestamp ts =>
    let s := s.addClient source
    some ({ s with
      clients := s.clients.modify source fun c =>
        if c.ackTs = 0 ∨ c.ackTs < ts then { c with ackTs := ts } else c }, true)
  | .index idx =>
    let s := s.addClient source
    some ({ s with
      clients := s.clients.modify source fun c => { c with frameIndex := idx.toUInt64 } }, true)

end

/-! ### Acks and counters -/

/-- The ack of a record.  Failed writes go unnoticed. -/
def ackRecord (record : InboundRecord) (ack : MessageBuffer) : MessageBuffer :=
  match record with
  | .clone isCreate objectId uniqifier _ _ _ =>
    if objectId = notAnObjectId then ack
    else (writeAckRecord (if isCreate then 1 else 2) objectId uniqifier ack).2
  | .remove objectId uniqifier => (writeAckRecord 3 objectId uniqifier ack).2
  | .takeover _ _ => ack
  | .timestamp ts => (BitW.each [MessageBuffer.writeBitsSingle 5 3,
      MessageBuffer.writeBitsSingle ts 32] ack).2
  | .index _ => ack

/-- The counters of a record. -/
def countRecord (source : UInt32) (record : InboundRecord) (accepted : Bool)
    (o : IngestOutcome) : IngestOutcome :=
  let o := if accepted then o else { o with rejectedMutations := o.rejectedMutations + 1 }
  match record with
  | .clone isCreate objectId _ _ _ _ =>
    if objectId = notAnObjectId then o
    else if isCreate then { o with creates := o.creates + 1 }
    else { o with syncs := o.syncs + 1 }
  | .remove _ _ => { o with removes := o.removes + 1 }
  | .takeover targetClient objectId =>
    { o with takeovers := o.takeovers ++ [(objectId, takeoverTarget source targetClient)] }
  | .timestamp _ | .index _ => o

/-- Bytes of the ack buffer. -/
def ackBufBytes : Nat := 4096

variable [Scalar F]

/-- The record loop. -/
def ingestRecords (source : UInt32) :
    List InboundRecord → ServerGameState F → MessageBuffer → IngestOutcome →
      Option (ServerGameState F × MessageBuffer × IngestOutcome)
  | [], s, ack, o => some (s, ack, o)
  | record :: rest, s, ack, o => do
    let (s, accepted) ← applyRecord source s record
    ingestRecords source rest s (ackRecord record ack) (countRecord source record accepted o)

/-- Ingest one inbound clone payload. -/
def ingestClonePayload (lz4 : Lz4) (s : ServerGameState F) (source : UInt32)
    (payload : List UInt8) : Option (ServerGameState F × IngestOutcome) :=
  match decodeIncoming lz4 payload s.lengthHack with
  | none => some (s, {})
  | some incoming => do
    let s := s.addClient source
    let ack := (MessageBuffer.new ackBufBytes).withLengthHack s.lengthHack
    let (s, ack, o) ← ingestRecords source incoming.records s ack {}
    let ack := (writeEnd ack).2
    let used := ack.dataLength
    if used > 0 then
      let frame : FrameIndex :=
        ⟨true, 0, ((s.clients.lookup source).map (·.frameIndex)).getD 0⟩
      some (s, { o with
        ackPackets := o.ackPackets ++ [packFrame lz4 msgPackedAcks frame (ack.data.take used)] })
    else some (s, o)

end ServerGameState

/-! ### The system -/

/-- Everything that can be asked of a game state.  A loop over a hash map comes with the
order it happened to take. -/
inductive Op (F : Type)
  | ingest (source : UInt32) (payload : List UInt8)
  | addClient (source : UInt32)
  | removeClient (ord : IterOrder UInt16) (source : UInt32)
  | lease (source : UInt32) (n : Nat)
  | spawn (req : ServerGameState.SpawnRequest F)
  | spawnWithId (objectId : UInt16) (req : ServerGameState.SpawnRequest F)
  | despawn (objectId : UInt16)
  | reassign (ord : IterOrder UInt16)
  | setPlayerBucket (source bucket : UInt32)
  | setEntityBucket (objectId : UInt16) (bucket : UInt32)
  | setLockdown (bucket : UInt32) (mode : LockdownMode)
  | setPopulationEnabled (bucket : UInt32) (enabled : Bool)
  | setPosition (objectId : UInt16) (position : Vec3 F)
  | setVelocity (objectId : UInt16) (velocity : Vec3 F)
  | seedPositions (focus : Map UInt32 (Vec3 F))
  | tick
  | tickClient (source : UInt32) (focus : Vec3 F) (cfg : InterestConfig F)
  | tickClients (ord : IterOrder UInt16) (fallbackFocus : Map UInt32 (Vec3 F))
      (cfg : InterestConfig F)
  | nack (source : UInt32) (nack : GameStateNAck)
  | ack (source : UInt32) (ack : GameStateAck)

/-- What an operation answers. -/
inductive Answer
  | unit
  | ingested (outcome : IngestOutcome)
  | orphaned (ids : List UInt16)
  | leased (ids : List UInt16) (packet : List UInt8)
  | spawned (objectId : Option UInt16)
  | flag (ok : Bool)
  | packets (packets : List (List UInt8))
  | ticks (ticks : List ClientTick)

open ServerGameState in
/-- One operation; `none` is a panic. -/
def step [Scalar F] (lz4 : Lz4) (op : Op F) (s : ServerGameState F) :
    Option (ServerGameState F × Answer) :=
  match op with
  | .ingest source payload =>
    (s.ingestClonePayload lz4 source payload).map fun r => (r.1, .ingested r.2)
  | .addClient source => some (s.addClient source, .unit)
  | .removeClient ord source =>
    (s.removeClient ord source).map fun r => (r.1, .orphaned r.2)
  | .lease source n =>
    (s.leaseObjectIds source n).map fun r => (r.1, .leased r.2.1 r.2.2)
  | .spawn req => (s.spawnServerEntity req).map fun r => (r.1, .spawned r.2)
  | .spawnWithId objectId req =>
    (s.spawnServerEntityWithId objectId req).map fun r => (r.1, .flag r.2)
  | .despawn objectId => (s.despawnEntity objectId).map fun r => (r.1, .flag r.2)
  | .reassign ord => some (s.reassignOwnerlessServerEntities ord, .unit)
  | .setPlayerBucket source bucket => some (s.setPlayerRoutingBucket source bucket, .unit)
  | .setEntityBucket objectId bucket => some (s.setEntityRoutingBucket objectId bucket, .unit)
  | .setLockdown bucket mode => some (s.setRoutingBucketLockdown bucket mode, .unit)
  | .setPopulationEnabled bucket enabled =>
    some (s.setRoutingBucketPopulationEnabled bucket enabled, .unit)
  | .setPosition objectId position => some (s.setEntityPosition objectId position, .unit)
  | .setVelocity objectId velocity => some (s.setEntityVelocity objectId velocity, .unit)
  | .seedPositions focus => some (s.seedUnknownPlayerPositions focus, .unit)
  | .tick => some (s.tick, .unit)
  | .tickClient source focus cfg =>
    let (s, packets) := s.tickClient lz4 source focus cfg
    some (s, .packets packets)
  | .tickClients ord fallbackFocus cfg =>
    let (s, ticks) := s.tickClients lz4 ord fallbackFocus cfg
    some (s, .ticks ticks)
  | .nack source nack => some (s.applyNack source nack, .unit)
  | .ack source ack => some (s.applyAck source ack, .unit)

end Baston.Zone

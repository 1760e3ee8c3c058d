/-
The world as scripts see it (`baston-scripting/entity_world.rs`).

The authority publishes its entities once per sync tick, and entity natives read what was
published last.  Beside the entities stand three indices over the peds: the ped of each player,
who sits in a seat, and who was the last to.
-/
import Baston.Lib.Map
import Baston.Rage.SyncData

namespace Baston.Scripting

open Assoc Baston.Rage

variable {F : Type}

/-- Entity classes as `GET_ENTITY_TYPE` reports them. -/
inductive ScriptEntityType
  | ped | vehicle | object
  deriving DecidableEq, Repr

/-- What the mirror knows about one networked entity. -/
structure EntitySummary (F : Type) where
  /-- Network id, which is also the script handle. -/
  networkId : UInt32
  owner : UInt32
  entityType : ScriptEntityType
  position : Vec3 F
  velocity : Vec3 F
  routingBucket : UInt32
  health : Option F
  maxHealth : Option F
  armour : Option F
  model : Option UInt32
  /-- The wire entity type. -/
  netType : UInt8
  firstOwner : UInt32
  heading : Option F
  desiredHeading : Option F
  sync : EntityNodeState

/-- Seats on the wire are offset by two from the ones scripts use. -/
def seatIndexBias : Int32 := 2

/-- Key of the occupancy indices: the raw seat has to fit a byte. -/
def seatKey (vehicle : UInt32) (rawSeat : Int32) : Option UInt64 :=
  if 0 ≤ rawSeat ∧ rawSeat ≤ 255 then
    some (vehicle.toUInt64 <<< 8 ||| rawSeat.toUInt32.toUInt8.toUInt64)
  else none

/-- The mirror. -/
structure EntityWorldView (F : Type) where
  /-- Each entity with the publication it was last seen in. -/
  entities : Map UInt32 (EntitySummary F × UInt64) := ∅
  revision : UInt64 := 0
  playerPeds : Map UInt32 UInt32 := ∅
  occupants : Map UInt64 UInt32 := ∅
  lastOccupants : Map UInt64 UInt32 := ∅

namespace EntitySummary

/-- The vehicle a ped is in and its raw seat. -/
def seat (ped : EntitySummary F) : Option (UInt32 × Int32) :=
  ped.sync.pedGameState.bind fun state =>
    if 0 ≤ state.curVehicle then some (state.curVehicle.toUInt32, state.curVehicleSeat) else none

/-- The vehicle a ped has left and its raw seat. -/
def lastSeat (ped : EntitySummary F) : Option (UInt32 × Int32) :=
  match ped.sync.lastVehicle, ped.sync.lastVehicleSeat with
  | some vehicle, some seat => some (vehicle.toUInt32, seat)
  | _, _ => none

end EntitySummary

namespace EntityWorldView

/-- Whoever is in a seat is also the last one to have used it. -/
def indexSeat (v : EntityWorldView F) (ped : EntitySummary F) : EntityWorldView F :=
  match ped.seat.bind fun at_ => seatKey at_.1 at_.2 with
  | some key =>
    { v with
      occupants := v.occupants.insert key ped.networkId
      lastOccupants := v.lastOccupants.insert key ped.networkId }
  | none => v

/-- The seat a ped has left is its own while nobody else is known to have used it. -/
def indexLastSeat (v : EntityWorldView F) (ped : EntitySummary F) : EntityWorldView F :=
  match ped.lastSeat.bind fun at_ => seatKey at_.1 at_.2 with
  | some key => { v with lastOccupants := v.lastOccupants.entryOrInsert key ped.networkId }
  | none => v

/-- Record where a ped sits, and where it last sat. -/
def indexOccupancy (v : EntityWorldView F) (ped : EntitySummary F) : EntityWorldView F :=
  (v.indexSeat ped).indexLastSeat ped

/-- One turn of the loop of `publish`. -/
def publishOne (v : EntityWorldView F) (summary : EntitySummary F) : EntityWorldView F :=
  let v := if summary.entityType = .ped then
      -- last writer wins
      { v with playerPeds := v.playerPeds.insert summary.owner summary.networkId }.indexOccupancy
        summary
    else v
  { v with entities := v.entities.insert summary.networkId (summary, v.revision) }

/-- Replace what scripts see by the current world.  Seats keep their last occupants. -/
def publish (entities : List (EntitySummary F)) (v : EntityWorldView F) : EntityWorldView F :=
  let v := { v with revision := v.revision + 1, playerPeds := ∅, occupants := ∅ }
  let v := entities.foldl publishOne v
  { v with entities := v.entities.retain fun _ entry => entry.2 = v.revision }

def get (v : EntityWorldView F) (networkId : UInt32) : Option (EntitySummary F) :=
  (v.entities.lookup networkId).map Prod.fst

/-- `exists`. -/
def contains (v : EntityWorldView F) (networkId : UInt32) : Bool := networkId ∈ v.entities

def owner (v : EntityWorldView F) (networkId : UInt32) : Option UInt32 :=
  (v.entities.lookup networkId).map fun entry => entry.1.owner

/-- The handles of one class, ascending. -/
def idsOfType (v : EntityWorldView F) (ord : IterOrder UInt32) (entityType : ScriptEntityType) :
    List UInt32 :=
  (((v.entities.visit ord).filter fun kv => kv.2.1.entityType = entityType).map
    fun kv => kv.2.1.networkId).insertionSort (· ≤ ·)

/-- The ped in a seat, addressed the way scripts do. -/
def occupant (v : EntityWorldView F) (vehicle : UInt32) (scriptSeat : Int32) : Option UInt32 :=
  (seatKey vehicle (scriptSeat + seatIndexBias)).bind v.occupants.lookup

/-- The last ped to have used a seat. -/
def lastOccupant (v : EntityWorldView F) (vehicle : UInt32) (scriptSeat : Int32) :
    Option UInt32 :=
  (seatKey vehicle (scriptSeat + seatIndexBias)).bind v.lastOccupants.lookup

/-- The ped of a player. -/
def playerPed (v : EntityWorldView F) (player : UInt32) : Option UInt32 :=
  v.playerPeds.lookup player

end EntityWorldView

/-- What a script asked the authoritative world to do. -/
inductive WorldCommand (F : Type)
  | spawn (networkId : UInt32) (entityType : ScriptEntityType) (model : UInt32)
      (position : Vec3 F) (heading : F) (dynamic : Bool)
  | despawn (networkId : UInt32)

/-- A world to publish: no two of its entities share a network id. -/
structure World (F : Type) where
  entities : List (EntitySummary F)
  distinct : (entities.map (·.networkId)).Nodup

/-- One publication. -/
def publishStep (world : World F) (v : EntityWorldView F) : Option (EntityWorldView F × Unit) :=
  some (v.publish world.entities, ())

end Baston.Scripting

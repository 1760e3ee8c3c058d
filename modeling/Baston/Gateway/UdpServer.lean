/-
The game transport (`baston-gateway/udp/server.rs`, `udp/inbound.rs`): which ENet peer is which
player, the arbitration of the session host, and the game state behind it.

Modelled is the server without the binary state path, the voice server, the mesh and the debug
overlay, each of which is optional in the source.  A packet handed to ENet is an answer of the
step; a loop over a hash map comes with the order it happened to take, and `none` is a panic of
the game state.
-/
import Baston.Scripting.EntityWorld
import Baston.Scripting.RoutingControl
import Baston.Zone.Ingest

namespace Baston.Gateway

open Assoc Baston.Rage Baston.Scripting Baston.Zone

variable {F : Type}

/-! ### Players -/

structure PlayerInfo where
  source : UInt32
  name : String
  identifiers : List String
  deriving DecidableEq

/-- The connected players, and whom a connection token speaks for. -/
structure PlayerDirectory where
  players : Map UInt32 PlayerInfo := ∅
  sessionTokens : Map String UInt32 := ∅
  /-- 0 is no player. -/
  nextSource : UInt32 := 1

namespace PlayerDirectory

def sourceForToken (d : PlayerDirectory) (token : String) : Option UInt32 :=
  d.sessionTokens.lookup token

def bindToken (d : PlayerDirectory) (token : String) (source : UInt32) : PlayerDirectory :=
  { d with sessionTokens := d.sessionTokens.insert token source }

def allocateSource (d : PlayerDirectory) : PlayerDirectory × UInt32 :=
  ({ d with nextSource := d.nextSource + 1 }, d.nextSource)

def insert (d : PlayerDirectory) (player : PlayerInfo) : PlayerDirectory :=
  { d with players := d.players.insert player.source player }

/-- The tokens of a player go with it. -/
def remove (d : PlayerDirectory) (source : UInt32) : PlayerDirectory × Option PlayerInfo :=
  ({ d with
      sessionTokens := d.sessionTokens.retain fun _ s => s ≠ source
      players := d.players.erase source }, d.players.lookup source)

/-- The name of a player, empty for a stranger. -/
def nameOf (d : PlayerDirectory) (source : UInt32) : String :=
  ((d.players.lookup source).map (·.name)).getD ""

end PlayerDirectory

/-! ### Packets -/

/-- ENet's number of a peer. -/
abbrev PeerId := Nat

/-- Answers to `hostingSession`. -/
inductive HostResult
  | conflict | wait | go | free
  deriving DecidableEq, Repr

inductive PlayerEvent
  | onPlayerJoining | onPlayerDropped
  deriving DecidableEq, Repr

/-- What is handed to ENet for a peer. -/
inductive Outgoing
  | connectOk (netId : UInt32) (sessionHost : Option (UInt32 × UInt32))
  | conVars (onesync : Bool)
  | playerEvent (event : PlayerEvent) (about : UInt32) (name : String)
  | sessionHostResult (result : HostResult)
  | iHost (netId : UInt16) (baseNum : UInt32)
  | route (netId : UInt16) (data : List UInt8)
  | gameState (data : List UInt8)
  | disconnect
  deriving DecidableEq

/-! ### The server -/

structure UdpServer (F : Type) where
  players : PlayerDirectory := {}
  /-- `script_host.routing_control()`. -/
  routing : InMemoryRoutingControl := {}
  /-- `script_host.entity_world()`. -/
  entityWorld : EntityWorldView F := {}
  /-- ENet peer to authenticated source. -/
  peerSources : Map PeerId UInt32 := ∅
  /-- Authenticated source to ENet peer. -/
  sourcePeers : Map UInt32 PeerId := ∅
  /-- The session host: net id and base number. -/
  sessionHost : Option (UInt32 × UInt32) := none
  /-- The client cleared to host, and its deadline in nanoseconds. -/
  currentHosting : Option (UInt32 × Nat) := none
  /-- Clients answered `wait`. -/
  hostReleaseWaiters : List UInt32 := []
  onesync : Option (ServerGameState F) := none
  onesyncCfg : InterestConfig F
  focusPositions : Map UInt32 (Vec3 F) := ∅
  /-- The last scripting revision mirrored into the game state. -/
  routingRevision : UInt64 := 18446744073709551615

/-- A hosting grant is kept for five seconds. -/
def hostingGrantTimeout : Nat := 5000000000

/-- The orders the hash maps happen to be visited in. -/
structure Orders where
  peers : IterOrder PeerId
  clients : IterOrder UInt32
  entities : IterOrder UInt16

def Orders.stored : Orders := ⟨.stored _, .stored _, .stored _⟩

/-- The object type a script entity class is created as. -/
def netObjectType : ScriptEntityType → NetObjEntityType
  | .ped => .ped
  | .vehicle => .automobile
  | .object => .object

/-- The class a wire type is reported as. -/
def scriptEntityType (ty : NetObjEntityType) : ScriptEntityType :=
  if ty = .player ∨ ty = .ped then .ped else if ty.isVehicle then .vehicle else .object

def lockdownOf : RoutingLockdownMode → LockdownMode
  | .inactive => .inactive
  | .relaxed => .relaxed
  | .strict => .strict

namespace UdpServer

/-- A server that has just been spawned. -/
def spawn (onesync : Bool) (build : GameBuild) (cfg : InterestConfig F) : UdpServer F :=
  { onesync := if onesync then some (.withBuild true false build) else none, onesyncCfg := cfg }

/-! ### Sending -/

/-- `UdpCommand::SendToSource`: dropped without a game connection. -/
def sendToSource (s : UdpServer F) (source : UInt32) (packet : Outgoing) :
    List (PeerId × Outgoing) :=
  match s.sourcePeers.lookup source with
  | some peer => [(peer, packet)]
  | none => []

def broadcastHost (s : UdpServer F) (ord : Orders) (netId : UInt16) (baseNum : UInt32) :
    List (PeerId × Outgoing) :=
  (s.peerSources.visit ord.peers).map fun kv => (kv.1, .iHost netId baseNum)

/-- The sources connected to peers whose player is in a bucket. -/
def sourcesInBucket (s : UdpServer F) (ord : Orders) (bucket : UInt32) : List UInt32 :=
  ((s.peerSources.visit ord.peers).map Prod.snd).filter fun other =>
    s.routing.playerBucket other = bucket

/-! ### Routing buckets -/

/-- The policy of a bucket is taken over. -/
def mirrorPolicy (routing : InMemoryRoutingControl) (gs : ServerGameState F) (bucket : UInt32) :
    ServerGameState F :=
  (gs.setRoutingBucketLockdown bucket (lockdownOf (routing.lockdownMode bucket)))
    |>.setRoutingBucketPopulationEnabled bucket (routing.populationEnabled bucket)

/-- A player's bucket is taken over. -/
def mirrorPlayer (routing : InMemoryRoutingControl) (gs : ServerGameState F) (source : UInt32) :
    ServerGameState F :=
  gs.setPlayerRoutingBucket source (routing.playerBucket source)

/-- An entity's bucket is taken over. -/
def mirrorEntity (routing : InMemoryRoutingControl) (gs : ServerGameState F)
    (objectId : UInt16) : ServerGameState F :=
  gs.setEntityRoutingBucket objectId (routing.entityBucket objectId.toUInt32)

/-- Mirror everything scripts have set, if anything has changed. -/
def refreshRoutingState (s : UdpServer F) (ord : Orders) : UdpServer F :=
  if s.routing.revision = s.routingRevision then s
  else
    match s.onesync with
    | none => s
    | some gs =>
      let sources := ord.clients.arrange gs.clients.keys
      let entityIds := gs.entities.keys.insertionSort (· ≤ ·)
      let buckets := 0 :: sources.map s.routing.playerBucket
        ++ entityIds.map fun id => s.routing.entityBucket id.toUInt32
      let gs := sources.foldl (mirrorPlayer s.routing) gs
      let gs := entityIds.foldl (mirrorEntity s.routing) gs
      let gs := (buckets.dedup.insertionSort (· ≤ ·)).foldl (mirrorPolicy s.routing) gs
      { s with onesync := some gs, routingRevision := s.routing.revision }

/-- Refresh only the sender and its policy. -/
def refreshRoutingSource (s : UdpServer F) (source : UInt32) : UdpServer F :=
  match s.onesync with
  | none => s
  | some gs =>
    let gs := mirrorPlayer s.routing gs source
    { s with onesync := some (mirrorPolicy s.routing gs (s.routing.playerBucket source)) }

/-! ### The session host -/

def releaseHostingGrant (s : UdpServer F) : UdpServer F × List (PeerId × Outgoing) :=
  ({ s with currentHosting := none, hostReleaseWaiters := [] },
    s.hostReleaseWaiters.flatMap fun waiter => s.sendToSource waiter (.sessionHostResult .free))

def expireHostingGrant (s : UdpServer F) (now : Nat) : UdpServer F × List (PeerId × Outgoing) :=
  if s.currentHosting.any fun grant => decide (grant.2 ≤ now) then s.releaseHostingGrant
  else (s, [])

/-- `msgIHost`: the first client to announce itself is the host. -/
def onIHost (s : UdpServer F) (ord : Orders) (peer : PeerId) (baseNum : UInt32) :
    UdpServer F × List (PeerId × Outgoing) :=
  match s.peerSources.lookup peer with
  | none => (s, [])
  | some source =>
    if s.sessionHost.isSome then (s, [])
    else ({ s with sessionHost := some (source, baseNum) },
      s.broadcastHost ord source.toUInt16 baseNum)

/-- `hostingSession`, from a client that wants to host. -/
def onHostingSession (s : UdpServer F) (source : UInt32) (now : Nat) :
    UdpServer F × List (PeerId × Outgoing) :=
  let (s, freed) := s.expireHostingGrant now
  if s.sessionHost.any fun host => host.1 ≠ source ∧ host.1 ∈ s.sourcePeers then
    -- a live established host that is not the asker
    (s, freed ++ s.sendToSource source (.sessionHostResult .conflict))
  else
    match s.currentHosting with
    | some (holder, _) =>
      if holder = source then (s, freed ++ s.sendToSource source (.sessionHostResult .go))
      else ({ s with hostReleaseWaiters := s.hostReleaseWaiters ++ [source] },
        freed ++ s.sendToSource source (.sessionHostResult .wait))
    | none => ({ s with currentHosting := some (source, now + hostingGrantTimeout) },
        freed ++ s.sendToSource source (.sessionHostResult .go))

/-- `hostedSession`, from the client that has finished. -/
def onHostedSession (s : UdpServer F) (source : UInt32) :
    UdpServer F × List (PeerId × Outgoing) :=
  if s.currentHosting.any fun grant => grant.1 = source then s.releaseHostingGrant else (s, [])

/-! ### Connections -/

/-- Mutual knowledge of the joiner and everybody in its bucket. -/
def joinEvents (s : UdpServer F) (ord : Orders) (source : UInt32) :
    List (PeerId × Outgoing) :=
  (s.sourcesInBucket ord (s.routing.playerBucket source)).flatMap fun other =>
    s.sendToSource source (.playerEvent .onPlayerJoining other (s.players.nameOf other))
      ++ if other ≠ source then
          s.sendToSource other (.playerEvent .onPlayerJoining source (s.players.nameOf source))
        else []

/-- What is sent once the game connection is up. -/
def sendPostConnect (s : UdpServer F) (ord : Orders) (source : UInt32) (isBastonClient : Bool) :
    UdpServer F × List (PeerId × Outgoing) :=
  let s := { s with onesync := s.onesync.map fun (gs : ServerGameState F) => gs.addClient source }
  let s := s.refreshRoutingSource source
  (s, s.sendToSource source (.conVars s.onesync.isSome)
    ++ if isBastonClient then [] else s.joinEvents ord source)

/-- Authenticate a peer by its token.  `sent` says whether ENet takes the reply. -/
def onHandshake (s : UdpServer F) (ord : Orders) (peer : PeerId) (token : String)
    (isBastonClient sent : Bool) : UdpServer F × List (PeerId × Outgoing) :=
  match s.players.sourceForToken token with
  | none => (s, [(peer, .disconnect)])
  | some source =>
    let s := { s with
      peerSources := s.peerSources.insert peer source
      sourcePeers := s.sourcePeers.insert source peer }
    if sent then
      let (s, out) := s.sendPostConnect ord source isBastonClient
      (s, (peer, .connectOk source s.sessionHost) :: out)
    else (s, [])

/-- The part of `on_disconnect` that gives up the session host. -/
def leaveHosting (s : UdpServer F) (ord : Orders) (source : UInt32) :
    UdpServer F × List (PeerId × Outgoing) :=
  let (s, announced) :=
    if s.sessionHost.any fun host => host.1 = source then
      ({ s with sessionHost := none }, s.broadcastHost ord 0xFFFF 0)
    else (s, [])
  -- a leaving waiter must not receive a dangling `free`
  let s := { s with hostReleaseWaiters := s.hostReleaseWaiters.filter fun w => w ≠ source }
  let (s, freed) :=
    if s.currentHosting.any fun grant => grant.1 = source then s.releaseHostingGrant else (s, [])
  (s, announced ++ freed)

/-- A peer is gone.  `handlers` is what the scripts do when they hear of it. -/
def onDisconnect (s : UdpServer F) (ord : Orders) (peer : PeerId) (handlers : List RoutingCall) :
    Option (UdpServer F × List (PeerId × Outgoing)) :=
  match s.peerSources.lookup peer with
  | none => some (s, [])
  | some source => do
    let bucket := s.routing.playerBucket source
    let s := { s with
      peerSources := s.peerSources.erase peer
      sourcePeers := s.sourcePeers.erase source
      focusPositions := s.focusPositions.erase source }
    let (s, out) := s.leaveHosting ord source
    let onesync ← s.onesync.mapM fun gs => (gs.removeClient ord.entities source).map Prod.fst
    let (players, player) := s.players.remove source
    let s := { s with onesync := onesync, players := players }
    let dropped := (s.sourcesInBucket ord bucket).flatMap fun other =>
      s.sendToSource other
        (.playerEvent .onPlayerDropped source ((player.map (·.name)).getD ""))
    some ({ s with
        routing := (handlers.foldl RoutingCall.apply s.routing).setPlayerBucket source 0 },
      out ++ dropped)

/-! ### The game state -/

section
variable [Scalar F]

/-- `msgRoute`: the clone stream of a OneSync client, or a relay. -/
def onRoute (lz4 : Lz4) (s : UdpServer F) (peer : PeerId) (targetNetId : UInt16)
    (data : List UInt8) : Option (UdpServer F × List (PeerId × Outgoing)) :=
  match s.peerSources.lookup peer with
  | none => some (s, [])
  | some source =>
    let s' := s.refreshRoutingSource source
    match s'.onesync with
    | some gs => do
      let (gs, outcome) ← gs.ingestClonePayload lz4 source data
      some ({ s' with onesync := some gs },
        outcome.ackPackets.flatMap fun packet => s'.sendToSource source (.gameState packet))
    | none =>
      let target := targetNetId.toUInt32
      if target = source ∨ s.routing.playerBucket source ≠ s.routing.playerBucket target then
        some (s, [])
      else some (s, s.sendToSource target (.route source.toUInt16 data))

end

/-- A packet of a client that changes the game state and gets at most one packet back. -/
def onGamePacket (s : UdpServer F) (peer : PeerId)
    (f : UInt32 → ServerGameState F → Option (ServerGameState F × List Outgoing)) :
    Option (UdpServer F × List (PeerId × Outgoing)) :=
  match s.peerSources.lookup peer, s.onesync with
  | some source, some gs =>
    (f source gs).map fun r =>
      ({ s with onesync := some r.1 }, r.2.flatMap (s.sendToSource source))
  | _, _ => some (s, [])

def onRequestObjectIds (s : UdpServer F) (peer : PeerId) :
    Option (UdpServer F × List (PeerId × Outgoing)) :=
  s.onGamePacket peer fun source gs =>
    (gs.leaseObjectIds source gs.idsPerRequest).map fun r => (r.1, [.gameState r.2.2])

def onGameStateNack (s : UdpServer F) (peer : PeerId) (nack : GameStateNAck) :
    Option (UdpServer F × List (PeerId × Outgoing)) :=
  s.onGamePacket peer fun source gs => some (gs.applyNack source nack, [])

def onGameStateAck (s : UdpServer F) (peer : PeerId) (ack : GameStateAck) :
    Option (UdpServer F × List (PeerId × Outgoing)) :=
  s.onGamePacket peer fun source gs => some (gs.applyAck source ack, [])

/-- `msgBastonState`, as far as it seeds positions. -/
def onStateUpdate (s : UdpServer F) (peer : PeerId) (coords : Vec3 F) : UdpServer F :=
  match s.peerSources.lookup peer with
  | some source =>
    if s.onesync.isSome then
      { s with focusPositions := s.focusPositions.insert source coords }
    else s
  | none => s

/-! ### The tick -/

/-- What scripts are told of an entity. -/
def summaryOf (e : ServerEntity F) : EntitySummary F where
  networkId := e.objectId.toUInt32
  owner := e.owner
  entityType := scriptEntityType e.entityType
  netType := e.entityType.toU8
  firstOwner := e.firstOwner
  position := e.position
  velocity := e.velocity
  routingBucket := e.routingBucket
  health := e.health
  maxHealth := e.maxHealth
  armour := e.armour
  model := e.model
  heading := e.heading
  desiredHeading := e.desiredHeading
  sync := e.nodes

/-- The world scripts are told of: entities the clone stream has placed. -/
def scriptWorld (gs : ServerGameState F) (ord : Orders) : List (EntitySummary F) :=
  (((gs.entities.visit ord.entities).map Prod.snd).filter (·.positionKnown)).map summaryOf

section
variable [Scalar F]

/-- One command of a script. -/
def applyWorldCommand (gs : ServerGameState F) : WorldCommand F → Option (ServerGameState F)
  | .spawn networkId entityType model position heading dynamic =>
    (gs.spawnServerEntityWithId networkId.toUInt16
      ⟨netObjectType entityType, model, position, heading, dynamic⟩).map Prod.fst
  | .despawn networkId => (gs.despawnEntity networkId.toUInt16).map Prod.fst

/-- The sync tick, with the commands that were waiting. -/
def onesyncTick (lz4 : Lz4) (s : UdpServer F) (ord : Orders) (pending : List (WorldCommand F)) :
    Option (UdpServer F × List (PeerId × Outgoing)) :=
  let s := s.refreshRoutingState ord
  match s.onesync with
  | none => some (s, [])
  | some gs => do
    let gs ← pending.foldlM applyWorldCommand gs
    let gs := gs.seedUnknownPlayerPositions s.focusPositions
    let gs := gs.reassignOwnerlessServerEntities ord.entities
    let gs := gs.tick
    let (gs, ticks) := gs.tickClients lz4 ord.entities s.focusPositions s.onesyncCfg
    some ({ s with
        onesync := some gs, entityWorld := s.entityWorld.publish (scriptWorld gs ord) },
      ticks.flatMap fun t => t.packets.flatMap fun packet =>
        s.sendToSource t.source (.gameState packet))

end

end UdpServer

/-! ### Everything that can happen -/

inductive UdpEvent (F : Type)
  /-- A player is let in over HTTP and given a token. -/
  | initConnect (token name : String) (identifiers : List String)
  | handshake (ord : Orders) (peer : PeerId) (token : String) (isBastonClient sent : Bool)
  | disconnect (ord : Orders) (peer : PeerId) (handlers : List RoutingCall)
  | iHost (ord : Orders) (peer : PeerId) (baseNum : UInt32)
  | hostingSession (peer : PeerId) (now : Nat)
  | hostedSession (peer : PeerId)
  /-- The start of `pump`. -/
  | expire (now : Nat)
  | route (peer : PeerId) (targetNetId : UInt16) (data : List UInt8)
  | requestObjectIds (peer : PeerId)
  | gameStateNack (peer : PeerId) (nack : GameStateNAck)
  | gameStateAck (peer : PeerId) (ack : GameStateAck)
  | stateUpdate (peer : PeerId) (coords : Vec3 F)
  | onesyncTick (ord : Orders) (pending : List (WorldCommand F))
  | script (call : RoutingCall)

namespace UdpServer

def initConnect (s : UdpServer F) (token name : String) (identifiers : List String) :
    UdpServer F :=
  let (players, source) := s.players.allocateSource
  { s with players := (players.insert ⟨source, name, identifiers⟩).bindToken token source }

/-- A server event of an authenticated peer. -/
def ofPeer (s : UdpServer F) (peer : PeerId)
    (f : UInt32 → UdpServer F × List (PeerId × Outgoing)) :
    UdpServer F × List (PeerId × Outgoing) :=
  match s.peerSources.lookup peer with
  | some source => f source
  | none => (s, [])

variable [Scalar F]

/-- One step of the server. -/
def step (lz4 : Lz4) (event : UdpEvent F) (s : UdpServer F) :
    Option (UdpServer F × List (PeerId × Outgoing)) :=
  match event with
  | .initConnect token name identifiers => some (s.initConnect token name identifiers, [])
  | .handshake ord peer token isBastonClient sent =>
    some (s.onHandshake ord peer token isBastonClient sent)
  | .disconnect ord peer handlers => s.onDisconnect ord peer handlers
  | .iHost ord peer baseNum => some (s.onIHost ord peer baseNum)
  | .hostingSession peer now => some (s.ofPeer peer fun source => s.onHostingSession source now)
  | .hostedSession peer => some (s.ofPeer peer s.onHostedSession)
  | .expire now => some (s.expireHostingGrant now)
  | .route peer targetNetId data => s.onRoute lz4 peer targetNetId data
  | .requestObjectIds peer => s.onRequestObjectIds peer
  | .gameStateNack peer nack => s.onGameStateNack peer nack
  | .gameStateAck peer ack => s.onGameStateAck peer ack
  | .stateUpdate peer coords => some (s.onStateUpdate peer coords, [])
  | .onesyncTick ord pending => s.onesyncTick lz4 ord pending
  | .script call => some ({ s with routing := call.apply s.routing }, [])

end UdpServer

end Baston.Gateway

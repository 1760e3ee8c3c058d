/-
What one step of the game transport does, in few cases.

Each handler is a server with a few fields replaced.  `Effect` is the list of what the events
may replace; a property over runs is proved by cases on it.
-/
import Baston.Gateway.UdpServer
import Baston.Lib.Trace

namespace Baston.Gateway

open Assoc Trace Baston.Rage Baston.Scripting Baston.Zone

variable {F : Type}

abbrev UdpEntry (F : Type) :=
  Entry (UdpServer F) (UdpEvent F) (List (PeerId × Outgoing))

namespace UdpServer

/-! ### What each part leaves alone -/

theorem refreshRoutingSource_eq (s : UdpServer F) (source : UInt32) :
    s.refreshRoutingSource source = { s with
      onesync := s.onesync.map fun gs =>
        mirrorPolicy s.routing (mirrorPlayer s.routing gs source)
          (s.routing.playerBucket source) } := by
  unfold refreshRoutingSource
  split
  · rename_i hnone
    obtain ⟨⟩ := s
    dsimp only at hnone
    subst hnone
    rfl
  · rename_i gs hsome
    rw [hsome]
    rfl

/-- A joiner becomes a client of the game state, in its bucket. -/
def joined (routing : InMemoryRoutingControl) (gs : ServerGameState F) (source : UInt32) :
    ServerGameState F :=
  mirrorPolicy routing (mirrorPlayer routing (gs.addClient source) source)
    (routing.playerBucket source)

theorem sendPostConnect_eq (s : UdpServer F) (ord : Orders) (source : UInt32)
    (isBastonClient : Bool) :
    (s.sendPostConnect ord source isBastonClient).1
      = { s with onesync := s.onesync.map fun gs => joined s.routing gs source } := by
  unfold sendPostConnect
  dsimp only
  rw [refreshRoutingSource_eq]
  dsimp only
  rw [Option.map_map]
  rfl

theorem onHandshake_eq (s : UdpServer F) (ord : Orders) (peer : PeerId) (token : String)
    (isBastonClient sent : Bool) :
    (s.players.sourceForToken token = none
        ∧ (s.onHandshake ord peer token isBastonClient sent).1 = s)
      ∨ ∃ source, s.players.sourceForToken token = some source
        ∧ (s.onHandshake ord peer token isBastonClient sent).1 = { s with
          peerSources := s.peerSources.insert peer source
          sourcePeers := s.sourcePeers.insert source peer
          onesync := if sent then s.onesync.map fun gs => joined s.routing gs source
            else s.onesync } := by
  unfold onHandshake
  cases htoken : s.players.sourceForToken token with
  | none => exact .inl ⟨rfl, rfl⟩
  | some source =>
      refine .inr ⟨source, rfl, ?_⟩
      dsimp only
      split
      · exact sendPostConnect_eq { s with
          peerSources := s.peerSources.insert peer source
          sourcePeers := s.sourcePeers.insert source peer } ord source isBastonClient
      · rfl

theorem expireHostingGrant_eq (s : UdpServer F) (now : Nat) :
    (s.expireHostingGrant now).1 = s
      ∨ (s.expireHostingGrant now).1 = { s with currentHosting := none, hostReleaseWaiters := [] } := by
  unfold expireHostingGrant
  split
  · exact .inr rfl
  · exact .inl rfl

theorem leaveHosting_eq (s : UdpServer F) (ord : Orders) (source : UInt32) :
    ∃ sessionHost currentHosting hostReleaseWaiters, (s.leaveHosting ord source).1
      = { s with sessionHost, currentHosting, hostReleaseWaiters } := by
  unfold leaveHosting releaseHostingGrant
  dsimp only
  split
  · split
    · exact ⟨_, _, _, rfl⟩
    · exact ⟨_, _, _, rfl⟩
  · split
    · exact ⟨_, _, _, rfl⟩
    · exact ⟨_, _, _, rfl⟩

/-- A disconnect that finds a source. -/
theorem onDisconnect_cases {s s' : UdpServer F} {ord : Orders} {peer : PeerId}
    {handlers : List RoutingCall} {out : List (PeerId × Outgoing)}
    (h : s.onDisconnect ord peer handlers = some (s', out)) :
    (s.peerSources.lookup peer = none ∧ s' = s ∧ out = [])
      ∨ ∃ source onesync, s.peerSources.lookup peer = some source
        ∧ s.onesync.mapM (fun gs => (gs.removeClient ord.entities source).map Prod.fst)
            = some onesync
        ∧ s' = { (({ s with
              peerSources := s.peerSources.erase peer
              sourcePeers := s.sourcePeers.erase source
              focusPositions := s.focusPositions.erase source } : UdpServer F).leaveHosting
                ord source).1 with
            onesync := onesync
            players := (s.players.remove source).1
            routing := (handlers.foldl RoutingCall.apply s.routing).setPlayerBucket source 0 }
        ∧ ∃ dropped, (∀ p ∈ dropped, ∃ about name,
            p.2 = .playerEvent .onPlayerDropped about name) ∧ out = (({ s with
              peerSources := s.peerSources.erase peer
              sourcePeers := s.sourcePeers.erase source
              focusPositions := s.focusPositions.erase source } : UdpServer F).leaveHosting
                ord source).2 ++ dropped := by
  unfold onDisconnect at h
  cases hsource : s.peerSources.lookup peer with
  | none =>
      rw [hsource] at h
      obtain ⟨rfl, rfl⟩ := Prod.mk.inj (Option.some.inj h)
      exact .inl ⟨rfl, rfl, rfl⟩
  | some source =>
      rw [hsource] at h
      dsimp only at h
      obtain ⟨sh, ch, hw, heq⟩ := leaveHosting_eq ({ s with
              peerSources := s.peerSources.erase peer
              sourcePeers := s.sourcePeers.erase source
              focusPositions := s.focusPositions.erase source } : UdpServer F) ord source
      rw [heq] at h
      obtain ⟨onesync, hone, h⟩ := Option.bind_eq_some_iff.mp h
      obtain ⟨rfl, rfl⟩ := Prod.mk.inj (Option.some.inj h)
      refine .inr ⟨source, onesync, rfl, hone, by rw [heq], _, ?_, rfl⟩
      intro p hp
      obtain ⟨other, -, hp⟩ := List.mem_flatMap.mp hp
      unfold sendToSource at hp
      split at hp
      · rw [List.mem_singleton.mp hp]
        exact ⟨_, _, rfl⟩
      · cases hp

theorem onHostingSession_eq (s : UdpServer F) (source : UInt32) (now : Nat) :
    ∃ currentHosting hostReleaseWaiters, (s.onHostingSession source now).1
      = { s with currentHosting, hostReleaseWaiters } := by
  have hexpired : ∃ ch hw, (s.expireHostingGrant now).1
      = { s with currentHosting := ch, hostReleaseWaiters := hw } := by
    rcases s.expireHostingGrant_eq now with heq | heq
    · exact ⟨_, _, heq⟩
    · exact ⟨_, _, heq⟩
  obtain ⟨ch, hw, heq⟩ := hexpired
  unfold onHostingSession
  dsimp only
  rw [heq]
  split
  · exact ⟨_, _, rfl⟩
  · split
    · split
      · exact ⟨_, _, rfl⟩
      · exact ⟨_, _, rfl⟩
    · exact ⟨_, _, rfl⟩

theorem onHostedSession_eq (s : UdpServer F) (source : UInt32) :
    ∃ currentHosting hostReleaseWaiters, (s.onHostedSession source).1
      = { s with currentHosting, hostReleaseWaiters } := by
  unfold onHostedSession releaseHostingGrant
  split
  · exact ⟨_, _, rfl⟩
  · exact ⟨_, _, rfl⟩

theorem onIHost_eq (s : UdpServer F) (ord : Orders) (peer : PeerId) (baseNum : UInt32) :
    ∃ sessionHost, (s.onIHost ord peer baseNum).1 = { s with sessionHost } := by
  unfold onIHost
  split
  · exact ⟨_, rfl⟩
  · split
    · exact ⟨_, rfl⟩
    · exact ⟨_, rfl⟩

theorem onGamePacket_cases {s s' : UdpServer F} {peer : PeerId}
    {f : UInt32 → ServerGameState F → Option (ServerGameState F × List Outgoing)}
    {out : List (PeerId × Outgoing)} (h : s.onGamePacket peer f = some (s', out)) :
    s' = s ∨ ∃ source gs r, s.peerSources.lookup peer = some source ∧ s.onesync = some gs
      ∧ f source gs = some r ∧ s' = { s with onesync := some r.1 } := by
  unfold onGamePacket at h
  split at h
  · rename_i source gs hsource hgs
    obtain ⟨r, hr, heq⟩ := Option.map_eq_some_iff.mp h
    obtain ⟨rfl, -⟩ := Prod.mk.inj heq
    exact .inr ⟨source, gs, r, hsource, hgs, hr, rfl⟩
  · obtain ⟨rfl, -⟩ := Prod.mk.inj (Option.some.inj h)
    exact .inl rfl

theorem refreshRoutingState_eq (s : UdpServer F) (ord : Orders) :
    ∃ onesync routingRevision, s.refreshRoutingState ord = { s with onesync, routingRevision } := by
  unfold refreshRoutingState
  split
  · exact ⟨_, _, rfl⟩
  · split
    · exact ⟨_, _, rfl⟩
    · exact ⟨_, _, rfl⟩

variable [Scalar F] {lz4 : Lz4}

theorem onRoute_cases {s s' : UdpServer F} {peer : PeerId} {targetNetId : UInt16}
    {data : List UInt8} {out : List (PeerId × Outgoing)}
    (h : s.onRoute lz4 peer targetNetId data = some (s', out)) :
    s' = s ∨ ∃ source gs r, s.peerSources.lookup peer = some source
      ∧ (s.refreshRoutingSource source).onesync = some gs
      ∧ gs.ingestClonePayload lz4 source data = some r ∧ s' = { s with onesync := some r.1 } := by
  unfold onRoute at h
  cases hsource : s.peerSources.lookup peer with
  | none =>
      rw [hsource] at h
      obtain ⟨rfl, -⟩ := Prod.mk.inj (Option.some.inj h)
      exact .inl rfl
  | some source =>
      rw [hsource] at h
      dsimp only at h
      split at h
      · rename_i gs hgs
        obtain ⟨⟨t, o⟩, hr, h⟩ := Option.bind_eq_some_iff.mp h
        obtain ⟨rfl, -⟩ := Prod.mk.inj (Option.some.inj h)
        refine .inr ⟨source, gs, (t, o), rfl, hgs, hr, ?_⟩
        rw [refreshRoutingSource_eq]
      · split at h
        · obtain ⟨rfl, -⟩ := Prod.mk.inj (Option.some.inj h)
          exact .inl rfl
        · obtain ⟨rfl, -⟩ := Prod.mk.inj (Option.some.inj h)
          exact .inl rfl

theorem onesyncTick_cases {s s' : UdpServer F} {ord : Orders} {pending : List (WorldCommand F)}
    {out : List (PeerId × Outgoing)} (h : s.onesyncTick lz4 ord pending = some (s', out)) :
    (s.onesync = none ∧ s' = s)
      ∨ ∃ gs t, (s.refreshRoutingState ord).onesync = some gs
        ∧ pending.foldlM applyWorldCommand gs = some t
        ∧ ∃ entityWorld, s' = { s.refreshRoutingState ord with
          entityWorld
          onesync := some (((((t.seedUnknownPlayerPositions
            s.focusPositions).reassignOwnerlessServerEntities ord.entities).tick).tickClients lz4
              ord.entities s.focusPositions s.onesyncCfg).1) } := by
  unfold onesyncTick at h
  dsimp only at h
  split at h
  · rename_i hnone
    obtain ⟨rfl, -⟩ := Prod.mk.inj (Option.some.inj h)
    refine .inl ?_
    unfold refreshRoutingState at hnone ⊢
    split
    · rename_i hsame
      rw [if_pos hsame] at hnone
      exact ⟨hnone, rfl⟩
    · rename_i hnew
      rw [if_neg hnew] at hnone
      split at hnone
      · rename_i hoff
        exact ⟨hoff, rfl⟩
      · cases hnone
  · rename_i gs hgs
    obtain ⟨t, ht, h⟩ := Option.bind_eq_some_iff.mp h
    obtain ⟨rfl, -⟩ := Prod.mk.inj (Option.some.inj h)
    refine .inr ⟨gs, t, hgs, ht, ?_⟩
    obtain ⟨onesync, revision, heq⟩ := s.refreshRoutingState_eq ord
    rw [heq]
    exact ⟨_, rfl⟩

/-! ### The kinds of steps -/

/-- What an event may leave behind. -/
inductive Effect (lz4 : Lz4) (s : UdpServer F) : UdpEvent F → UdpServer F → Prop
  | letIn {token name : String} {identifiers : List String} :
      Effect lz4 s (.initConnect token name identifiers) (s.initConnect token name identifiers)
  | refused {ord : Orders} {peer : PeerId} {token : String} {isBastonClient sent : Bool}
      (hnone : s.players.sourceForToken token = none) :
      Effect lz4 s (.handshake ord peer token isBastonClient sent) s
  | linked {ord : Orders} {peer : PeerId} {token : String} {isBastonClient sent : Bool}
      {source : UInt32} (hsource : s.players.sourceForToken token = some source) :
      Effect lz4 s (.handshake ord peer token isBastonClient sent) { s with
        peerSources := s.peerSources.insert peer source
        sourcePeers := s.sourcePeers.insert source peer
        onesync := if sent then s.onesync.map fun gs => joined s.routing gs source
          else s.onesync }
  | stranger {ord : Orders} {peer : PeerId} {handlers : List RoutingCall}
      (hnone : s.peerSources.lookup peer = none) : Effect lz4 s (.disconnect ord peer handlers) s
  | left {ord : Orders} {peer : PeerId} {handlers : List RoutingCall} {source : UInt32}
      {onesync : Option (ServerGameState F)} {sessionHost : Option (UInt32 × UInt32)}
      {currentHosting : Option (UInt32 × Nat)} {hostReleaseWaiters : List UInt32}
      (hsource : s.peerSources.lookup peer = some source)
      (hone : s.onesync.mapM (fun gs => (gs.removeClient ord.entities source).map Prod.fst)
        = some onesync) :
      Effect lz4 s (.disconnect ord peer handlers) { s with
        sessionHost, currentHosting, hostReleaseWaiters, onesync
        peerSources := s.peerSources.erase peer
        sourcePeers := s.sourcePeers.erase source
        focusPositions := s.focusPositions.erase source
        players := (s.players.remove source).1
        routing := (handlers.foldl RoutingCall.apply s.routing).setPlayerBucket source 0 }
  /-- Only the arbitration of the session host moves. -/
  | arbitrated {ev : UdpEvent F} {sessionHost : Option (UInt32 × UInt32)}
      {currentHosting : Option (UInt32 × Nat)} {hostReleaseWaiters : List UInt32}
      (hev : match ev with
        | .iHost _ _ _ | .hostingSession _ _ | .hostedSession _ | .expire _ => True
        | _ => False) :
      Effect lz4 s ev { s with sessionHost, currentHosting, hostReleaseWaiters }
  | ingested {peer : PeerId} {targetNetId : UInt16} {data : List UInt8} {source : UInt32}
      {gs gs' : ServerGameState F} {o : IngestOutcome}
      (hsource : s.peerSources.lookup peer = some source) (hgs : s.onesync = some gs)
      (h : (mirrorPolicy s.routing (mirrorPlayer s.routing gs source)
        (s.routing.playerBucket source)).ingestClonePayload lz4 source data = some (gs', o)) :
      Effect lz4 s (.route peer targetNetId data) { s with onesync := some gs' }
  /-- Only the leases or the views of the sender move. -/
  | served {ev : UdpEvent F} (source : UInt32) {gs gs' : ServerGameState F}
      (hgs : s.onesync = some gs)
      (h : match ev with
        | .requestObjectIds _ =>
          (gs.leaseObjectIds source gs.idsPerRequest).map (·.1) = some gs'
        | .gameStateNack _ nack => gs' = gs.applyNack source nack
        | .gameStateAck _ ack => gs' = gs.applyAck source ack
        | _ => False) :
      Effect lz4 s ev { s with onesync := some gs' }
  | focused {peer : PeerId} {coords : Vec3 F} {focusPositions : Map UInt32 (Vec3 F)} :
      Effect lz4 s (.stateUpdate peer coords) { s with focusPositions }
  | ticked {ord : Orders} {pending : List (WorldCommand F)} {gs t : ServerGameState F}
      {entityWorld : EntityWorldView F} (hgs : (s.refreshRoutingState ord).onesync = some gs)
      (hpending : pending.foldlM applyWorldCommand gs = some t) :
      Effect lz4 s (.onesyncTick ord pending) { s.refreshRoutingState ord with
        entityWorld
        onesync := some (((((t.seedUnknownPlayerPositions
          s.focusPositions).reassignOwnerlessServerEntities ord.entities).tick).tickClients lz4
            ord.entities s.focusPositions s.onesyncCfg).1) }
  | idle {ord : Orders} {pending : List (WorldCommand F)} (hnone : s.onesync = none) :
      Effect lz4 s (.onesyncTick ord pending) s
  | scripted {call : RoutingCall} :
      Effect lz4 s (.script call) { s with routing := call.apply s.routing }
  /-- A packet of a peer that is nobody, or for a game state that is off. -/
  | ignored {ev : UdpEvent F}
      (hev : match ev with
        | .route _ _ _ | .requestObjectIds _ | .gameStateNack _ _ | .gameStateAck _ _ => True
        | _ => False) : Effect lz4 s ev s

/-- **Nothing else happens.** -/
theorem effect_of_step {s s' : UdpServer F} {ev : UdpEvent F} {out : List (PeerId × Outgoing)}
    (h : step lz4 ev s = some (s', out)) : Effect lz4 s ev s' := by
  cases ev with
  | initConnect token name identifiers =>
      obtain ⟨rfl, -⟩ := Prod.mk.inj (Option.some.inj h)
      exact .letIn
  | handshake ord peer token isBastonClient sent =>
      have hpost := congrArg Prod.fst (Option.some.inj h)
      dsimp only at hpost
      rcases s.onHandshake_eq ord peer token isBastonClient sent with
        ⟨hnone, heq⟩ | ⟨source, hsome, heq⟩
      · rw [← hpost, heq]
        exact .refused hnone
      · rw [← hpost, heq]
        exact .linked hsome
  | disconnect ord peer handlers =>
      rcases onDisconnect_cases h with ⟨hnone, rfl, -⟩ | ⟨source, onesync, hsome, hone, rfl, -⟩
      · exact .stranger hnone
      · obtain ⟨sh, ch, hw, heq⟩ := leaveHosting_eq ({ s with
          peerSources := s.peerSources.erase peer
          sourcePeers := s.sourcePeers.erase source
          focusPositions := s.focusPositions.erase source } : UdpServer F) ord source
        rw [heq]
        exact .left hsome hone
  | iHost ord peer baseNum =>
      obtain rfl : (s.onIHost ord peer baseNum).1 = s' := congrArg Prod.fst (Option.some.inj h)
      obtain ⟨sh, heq⟩ := s.onIHost_eq ord peer baseNum
      rw [heq]
      exact .arbitrated trivial
  | hostingSession peer now =>
      obtain rfl : (s.ofPeer peer fun source => s.onHostingSession source now).1 = s' :=
        congrArg Prod.fst (Option.some.inj h)
      unfold ofPeer
      split
      · rename_i source _
        obtain ⟨ch, hw, heq⟩ := s.onHostingSession_eq source now
        rw [heq]
        exact .arbitrated trivial
      · exact .arbitrated trivial
  | hostedSession peer =>
      obtain rfl : (s.ofPeer peer s.onHostedSession).1 = s' :=
        congrArg Prod.fst (Option.some.inj h)
      unfold ofPeer
      split
      · rename_i source _
        obtain ⟨ch, hw, heq⟩ := s.onHostedSession_eq source
        rw [heq]
        exact .arbitrated trivial
      · exact .arbitrated trivial
  | expire now =>
      obtain rfl : (s.expireHostingGrant now).1 = s' := congrArg Prod.fst (Option.some.inj h)
      rcases s.expireHostingGrant_eq now with heq | heq
      · rw [heq]
        exact .arbitrated trivial
      · rw [heq]
        exact .arbitrated trivial
  | route peer targetNetId data =>
      rcases onRoute_cases h with rfl | ⟨source, gs, ⟨gs', o⟩, hsource, hgs, hr, rfl⟩
      · exact .ignored trivial
      · rw [refreshRoutingSource_eq] at hgs
        obtain ⟨before, hbefore, rfl⟩ := Option.map_eq_some_iff.mp hgs
        exact .ingested hsource hbefore hr
  | requestObjectIds peer =>
      rcases onGamePacket_cases h with rfl | ⟨source, gs, r, hsource, hgs, hr, rfl⟩
      · exact .ignored trivial
      · obtain ⟨leased, hleased, rfl⟩ := Option.map_eq_some_iff.mp hr
        refine .served source hgs ?_
        rw [hleased]
        rfl
  | gameStateNack peer nack =>
      rcases onGamePacket_cases h with rfl | ⟨source, gs, r, hsource, hgs, hr, rfl⟩
      · exact .ignored trivial
      · obtain rfl := Option.some.inj hr
        exact .served source hgs rfl
  | gameStateAck peer ack =>
      rcases onGamePacket_cases h with rfl | ⟨source, gs, r, hsource, hgs, hr, rfl⟩
      · exact .ignored trivial
      · obtain rfl := Option.some.inj hr
        exact .served source hgs rfl
  | stateUpdate peer coords =>
      obtain ⟨rfl, -⟩ := Prod.mk.inj (Option.some.inj h)
      unfold onStateUpdate
      split
      · split
        · exact .focused
        · exact .focused
      · exact .focused
  | onesyncTick ord pending =>
      rcases onesyncTick_cases h with ⟨hnone, rfl⟩ | ⟨gs, t, hgs, ht, _, rfl⟩
      · exact .idle hnone
      · exact .ticked hgs ht
  | script call =>
      obtain ⟨rfl, -⟩ := Prod.mk.inj (Option.some.inj h)
      exact .scripted

end UdpServer

end Baston.Gateway

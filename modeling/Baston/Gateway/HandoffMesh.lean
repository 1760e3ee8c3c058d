/-
The handoff of a player, message by message, between the zones and the gateway (`prepare_handoff`
and `confirm_handoff` of the gateway's `mesh.rs`, `release_in_zone` of `mesh_forward.rs`).

Requests are carried out at most once, at any time after they were sent.  Whoever waits for an
answer may give up at any moment: the request may have been carried out by then, or be carried
out later, or never.
-/
import Baston.Gateway.MeshForward
import Baston.Zone.HandoffManager

namespace Baston.Gateway

open Assoc Baston.Zone

/-- What is asked of a zone or of the gateway. -/
inductive Request
  | prepareHandoff (fromZone : ZoneId)
  | prepareForPlayer (zone : ZoneId)
  | confirmHandoff (fromZone toZone : ZoneId)
  | activatePlayer (zone : ZoneId)
  | releasePlayer (zone : ZoneId)
  deriving DecidableEq, Repr

/-- What `complete_handoff` of `zone` asks for at this point. -/
def crossingRequest (zone : ZoneId) : Crossing → Request
  | .confirming target => .confirmHandoff zone target
  | .activating target => .activatePlayer target
  | .rollingBack => .confirmHandoff zone zone

/-- What a preparation has asked for and nobody has carried out. -/
def openRequests (zone : ZoneId) : Preparing → List Request
  | .asked => [.prepareHandoff zone]
  | .relayed target false => [.prepareForPlayer target]
  | .relayed _ true => []
  | .answered _ => []

/-- The zones and the gateway, as far as they are about one player. -/
structure HandoffMesh where
  zones : ZoneId → ZoneMesh
  routes : RoutingTable
  /-- Requests nobody waits for any more. -/
  strays : List Request := []
  connected : Bool := true
  /-- The zone the gateway asked to release the player, and whether it has. -/
  releasing : Option (ZoneId × Bool) := none

/-- What may happen next. -/
inductive HandoffEvent
  | approach (zone : ZoneId) (now : Nat)
  | turnAround (zone : ZoneId) (now : Nat)
  | crossed (zone : ZoneId)
  | prune (zone : ZoneId) (now : Nat)
  | expireGhosts (zone : ZoneId) (now maxAge : Nat)
  /-- The gateway looks for the zone of the predicted crossing, and for a way to reach it. -/
  | resolve (zone : ZoneId) (covering : Option ZoneId) (reachable : Bool)
  /-- The target of the preparation does its part. -/
  | servePrepare (zone : ZoneId) (now : Nat)
  /-- The gateway has the target's answer, or gives up on it. -/
  | relayReturns (zone : ZoneId) (heard : Bool)
  | prepareReturns (zone : ZoneId) (now : Nat) (heard : Bool)
  /-- The call `complete_handoff` waits for is carried out; `registered` is what the gateway's
  registry says about the zone the route is to move to. -/
  | serve (zone : ZoneId) (registered : Bool)
  /-- `complete_handoff` gets its answer, or gives up on it. -/
  | callReturns (zone : ZoneId) (now : Nat) (heard : Bool)
  /-- A request is carried out that nobody waits for. -/
  | serveStray (i : Nat) (now : Nat) (registered : Bool) (covering : Option ZoneId)
      (reachable : Bool)
  /-- The client disconnects. -/
  | disconnect (reachable : Bool)
  | serveRelease
  | releaseReturns
  deriving Repr

namespace HandoffMesh

/-- The player `source` in `home`, and no handoff so far. -/
def start (source : UInt32) (home : ZoneId) (cooldown : Nat) : HandoffMesh where
  zones zone := { manager := { zoneId := zone, cooldown := cooldown }, live := zone = home }
  routes := RoutingTable.assign source home ∅

def setZone (zone : ZoneId) (z : ZoneMesh) (s : HandoffMesh) : HandoffMesh :=
  { s with zones := Function.update s.zones zone z }

/-- The target of a preparation: not the zone that asks, and one the gateway can reach. -/
def resolveTarget (fromZone : ZoneId) (covering : Option ZoneId) (reachable : Bool) :
    Option ZoneId :=
  (covering.filter fun z => z ≠ fromZone).filter fun _ => reachable

/-- `confirm_handoff`: the route moves to a registered zone. -/
def confirmHandoff (source : UInt32) (toZone : ZoneId) (registered : Bool) (s : HandoffMesh) :
    HandoffMesh × Bool :=
  if registered then ({ s with routes := (s.routes.commitHandoff source toZone).1 }, true)
  else (s, false)

/-- A call of `complete_handoff` is carried out, with the answer. -/
def carryOut (source : UInt32) (registered : Bool) (zone : ZoneId) (at_ : Crossing)
    (s : HandoffMesh) : HandoffMesh × Bool :=
  match at_ with
  | .confirming target => s.confirmHandoff source target registered
  | .activating target =>
    let (z, ok) := (s.zones target).activatePlayer
    (s.setZone target z, ok)
  | .rollingBack => s.confirmHandoff source zone registered

/-- A request is carried out and its answer dropped. -/
def carryOutStray (source : UInt32) (now : Nat) (registered : Bool) (covering : Option ZoneId)
    (reachable : Bool) (s : HandoffMesh) : Request → HandoffMesh
  | .prepareHandoff fromZone =>
    match resolveTarget fromZone covering reachable with
    | none => s
    | some target => { s with strays := .prepareForPlayer target :: s.strays }
  | .prepareForPlayer zone => s.setZone zone ((s.zones zone).prepareForPlayer now)
  | .confirmHandoff _ toZone => (s.confirmHandoff source toZone registered).1
  | .activatePlayer zone => s.setZone zone (s.zones zone).activatePlayer.1
  | .releasePlayer zone => s.setZone zone (s.zones zone).releasePlayer

/-- One event, for the player `source`. -/
def step (source : UInt32) : HandoffEvent → HandoffMesh → Option (HandoffMesh × Unit)
  | .approach zone now, s => ((s.zones zone).approach now).map fun z => (s.setZone zone z, ())
  | .turnAround zone now, s => ((s.zones zone).turnAround now).map fun z => (s.setZone zone z, ())
  | .crossed zone, s => (s.zones zone).crossed.map fun z => (s.setZone zone z, ())
  | .prune zone now, s =>
    let z := s.zones zone
    some (s.setZone zone { z with manager := z.manager.pruneExpired now }, ())
  | .expireGhosts zone now maxAge, s =>
    some (s.setZone zone ((s.zones zone).expireStaleGhosts now maxAge), ())
  | .resolve zone covering reachable, s =>
    let z := s.zones zone
    match z.preparing with
    | some .asked =>
      match resolveTarget zone covering reachable with
      | none => some (s.setZone zone { z with preparing := some (.answered none) }, ())
      | some target =>
        some (s.setZone zone { z with preparing := some (.relayed target false) }, ())
    | _ => none
  | .servePrepare zone now, s =>
    match (s.zones zone).preparing with
    | some (.relayed target false) =>
      let s := s.setZone target ((s.zones target).prepareForPlayer now)
      some (s.setZone zone { s.zones zone with preparing := some (.relayed target true) }, ())
    | _ => none
  | .relayReturns zone heard, s =>
    let z := s.zones zone
    match z.preparing with
    | some (.relayed target done) =>
      let answer := if done && heard then some target else none
      some ({ s.setZone zone { z with preparing := some (.answered answer) } with
        strays := openRequests zone (.relayed target done) ++ s.strays }, ())
    | _ => none
  | .prepareReturns zone now heard, s =>
    let z := s.zones zone
    match z.preparing with
    | some (.answered target) =>
      let target := if heard then target else none
      some (s.setZone zone (z.prepareReturns now target), ())
    | some preparing =>
      if heard then none
      else
        some ({ s.setZone zone (z.prepareReturns now none) with
          strays := openRequests zone preparing ++ s.strays }, ())
    | none => none
  | .serve zone registered, s =>
    match (s.zones zone).crossing with
    | some (at_, none) =>
      let (s, ok) := s.carryOut source registered zone at_
      some (s.setZone zone { s.zones zone with crossing := some (at_, some ok) }, ())
    | _ => none
  | .callReturns zone now heard, s =>
    let z := s.zones zone
    match z.crossing with
    | some (at_, some ok) =>
      let answer := if heard then some ok else none
      some (s.setZone zone (z.callReturns now at_ answer), ())
    | some (at_, none) =>
      if heard then none
      else
        some ({ s.setZone zone (z.callReturns now at_ none) with
          strays := crossingRequest zone at_ :: s.strays }, ())
    | none => none
  | .serveStray i now registered covering reachable, s =>
    s.strays[i]?.map fun request =>
      (({ s with strays := s.strays.eraseIdx i }).carryOutStray source now registered covering
        reachable request, ())
  | .disconnect reachable, s =>
    if s.connected then
      match s.routes.zoneOf source with
      | none => some ({ s with connected := false }, ())
      | some zone =>
        if reachable then
          some ({ s with connected := false, releasing := some (zone, false) }, ())
        else some ({ s with connected := false, routes := (s.routes.remove source).1 }, ())
    else none
  | .serveRelease, s =>
    match s.releasing with
    | some (zone, false) =>
      some ({ s.setZone zone (s.zones zone).releasePlayer with
        releasing := some (zone, true) }, ())
    | _ => none
  | .releaseReturns, s =>
    match s.releasing with
    | some (zone, done) =>
      some ({ s with
        strays := if done then s.strays else .releasePlayer zone :: s.strays
        releasing := none
        routes := (s.routes.remove source).1 }, ())
    | none => none

end HandoffMesh

end Baston.Gateway

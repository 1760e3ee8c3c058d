/-
The gateway's forwarder of client updates to the zones (`mesh_forward.rs`), with the routing
table it reads (`connection_router.rs`).

Each update goes to the zone its player is routed to at that moment.  Around a handoff commit
a player's updates are held back for 50 ms and then flushed to the new zone.  The routing
table belongs to the whole gateway, so between two messages anyone may change it.
-/
import Baston.Zone.Spatial
import Baston.Zone.StateIngest

namespace Baston.Gateway

open Assoc Baston.Rage Baston.Zone

variable {F : Type}

/-! ### The routing table -/

/-- `ConnectionRouter::routing_table`: the zone each player is routed to. -/
abbrev RoutingTable := Map UInt32 ZoneId

namespace RoutingTable

def assign (source : UInt32) (zoneId : ZoneId) (r : RoutingTable) : RoutingTable :=
  r.insert source zoneId

def zoneOf (source : UInt32) (r : RoutingTable) : Option ZoneId := r.lookup source

/-- The atomic switch of a handoff, with the zone the player was routed to before. -/
def commitHandoff (source : UInt32) (toZone : ZoneId) (r : RoutingTable) :
    RoutingTable × Option ZoneId :=
  (r.insert source toZone, r.lookup source)

def remove (source : UInt32) (r : RoutingTable) : RoutingTable × Option ZoneId :=
  (r.erase source, r.lookup source)

end RoutingTable

/-! ### The forwarder -/

/-- How long updates are buffered around a handoff commit, in nanoseconds. -/
def handoffHold : Nat := 50 * 10 ^ 6

inductive ForwardMsg (F : Type)
  | update (source : UInt32) (update : ClientStateUpdate F)
  | beginHold (source : UInt32)
  | flushHold (source : UInt32)
  /-- The client disconnected. -/
  | dropped (source : UInt32)

/-- The player a message is about. -/
def ForwardMsg.source : ForwardMsg F → UInt32
  | .update source _ | .beginHold source | .flushHold source | .dropped source => source

/-- An update on its way to a zone. -/
structure Forwarded (F : Type) where
  zone : ZoneId
  source : UInt32
  update : ClientStateUpdate F

/-- The local variables of `run`, with the routing table it shares. -/
structure Forwarder (F : Type) where
  /-- Since when a player's updates are held, and the ones held so far. -/
  holds : Map UInt32 (Nat × List (ClientStateUpdate F)) := ∅
  /-- Players whose first update was already seen. -/
  homed : Map UInt32 Unit := ∅
  routes : RoutingTable := ∅

namespace Forwarder

/-- Where an update goes: nowhere when its player has no zone. -/
def publish (source : UInt32) (update : ClientStateUpdate F) (s : Forwarder F) :
    List (Forwarded F) :=
  match s.routes.zoneOf source with
  | none => []
  | some zone => [⟨zone, source, update⟩]

def publishAll (source : UInt32) (updates : List (ClientStateUpdate F)) (s : Forwarder F) :
    List (Forwarded F) :=
  updates.flatMap fun u => s.publish source u

/-- The first update of a player routes it to the zone that covers its position. -/
def rehome (zoneAt : F → F → Option ZoneId) (source : UInt32) (update : ClientStateUpdate F)
    (s : Forwarder F) : Forwarder F :=
  if source ∈ s.homed then s
  else
    let s := { s with homed := s.homed.insert source () }
    match zoneAt update.coords.x update.coords.y with
    | none => s
    | some correct =>
      if s.routes.zoneOf source ≠ some correct then
        { s with routes := s.routes.assign source correct }
      else s

/-- One turn of the loop of `run`: a message taken off the queue at time `now`, while the
registry answers `zoneAt`. -/
def handle (now : Nat) (zoneAt : F → F → Option ZoneId) :
    ForwardMsg F → Forwarder F → Forwarder F × List (Forwarded F)
  | .update source update, s =>
    let s := s.rehome zoneAt source update
    match s.holds.lookup source with
    | some (started, buf) =>
      if now - started < handoffHold then
        ({ s with holds := s.holds.insert source (started, buf ++ [update]) }, [])
      else
        -- the hold has expired, and its flush is still in the queue
        ({ s with holds := s.holds.erase source },
          s.publishAll source buf ++ s.publish source update)
    | none => (s, s.publish source update)
  | .beginHold source, s => ({ s with holds := s.holds.insert source (now, []) }, [])
  | .flushHold source, s =>
    match s.holds.lookup source with
    | none => (s, [])
    | some (_, buffered) =>
      ({ s with holds := s.holds.erase source }, s.publishAll source buffered)
  | .dropped source, s =>
    ({ s with
        holds := s.holds.erase source
        homed := s.homed.erase source
        routes := (s.routes.remove source).1 }, [])

/-- What may happen next: the forwarder takes a message, or a player is rerouted. -/
inductive Event (F : Type)
  | message (now : Nat) (zoneAt : F → F → Option ZoneId) (msg : ForwardMsg F)
  | commitHandoff (source : UInt32) (toZone : ZoneId)
  | unroute (source : UInt32)

def step : Event F → Forwarder F → Option (Forwarder F × List (Forwarded F))
  | .message now zoneAt msg, s => some (s.handle now zoneAt msg)
  | .commitHandoff source toZone, s =>
    some ({ s with routes := (s.routes.commitHandoff source toZone).1 }, [])
  | .unroute source, s => some ({ s with routes := (s.routes.remove source).1 }, [])

end Forwarder

end Baston.Gateway

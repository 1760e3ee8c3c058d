/-
A player who crosses from zone to zone (`boundary_loop.rs`, with `prepare_for_player`,
`activate_player` and `expire_stale_ghosts` of `mesh.rs`), as far as every request of the
handoff is answered in time.

The zone a player is in takes its snapshot when the player comes near the border, and leaves it
with the neighbour.  When the player is across, the gateway moves the route, the neighbour
restores what it was left, and only then does the first zone release the player.  Anything may
happen in any zone in between.
-/
import Baston.Zone.Spatial
import Baston.Zone.StateIngest

namespace Baston.Zone

open Assoc Baston.Rage

variable {F : Type}

/-- The snapshot of a player; `coords` are those the scan went by. -/
def StateIngest.buildSnapshot (ord : IterOrder EntityId) (source : UInt32) (coords : Vec3 F)
    (s : StateIngest F) : PlayerStateSnapshot F where
  sourceId := source
  coords := coords
  playerEntity := (s.playerEntity source).bind s.entityManager.get
  ownedEntities := (s.entityManager.entitiesOwnedBy ord source).filter fun e =>
    some e.entityId ≠ s.playerEntity source

/-- How far the zone the player is in has come with the handoff. -/
inductive Stage
  | settled
  | ready (target : ZoneId)
  | transferring (target : ZoneId)
  | activated (target : ZoneId)
  deriving DecidableEq, Repr

/-- The zones, as one player goes through them. -/
structure Journey (F : Type) where
  zones : ZoneId → StateIngest F
  /-- The zone that runs the handoff. -/
  home : ZoneId
  stage : Stage := .settled
  /-- The snapshot of the player each zone was left. -/
  ghosts : ZoneId → Option (PlayerStateSnapshot F) := fun _ => none

/-- What happens: a call in some zone, or the next step of the handoff. -/
inductive Move (F : Type)
  | call (zone : ZoneId) (call : StateIngest.Call F)
  | entities (zone : ZoneId) (call : EntityManager.Call F)
  | prepare (target : ZoneId) (coords : Vec3 F) (ord : IterOrder EntityId)
  | cancel
  | expire (zone : ZoneId)
  | confirm
  | activate (now : Nat)
  | release (ord : IterOrder EntityId)

namespace Journey

/-- A mesh in which nobody has been yet, with the player to appear in `home`. -/
def start (home : ZoneId) (maxSpeedMps : F) : Journey F where
  zones _ := StateIngest.new EntityManager.new maxSpeedMps
  home := home

/-- The zone that serves the player. -/
def serving (j : Journey F) : ZoneId :=
  match j.stage with
  | .activated target => target
  | _ => j.home

/-- The answer to a report, if the call was one. -/
abbrev Answer := Option (Except RejectReason EntityId)

/-- One move, on the journey of the player `source`. -/
def step [Scalar F] [BEq F] (source : UInt32) : Move F → Journey F → Option (Journey F × Answer)
  | .call zone call, j =>
    ((j.zones zone).step call).map fun (z, answer) =>
      ({ j with zones := Function.update j.zones zone z }, answer)
  | .entities zone call, j =>
    let z := j.zones zone
    let z := { z with entityManager := (z.entityManager.perform call).1 }
    some ({ j with zones := Function.update j.zones zone z }, none)
  | .prepare target coords ord, j =>
    match j.stage with
    | .settled =>
      -- the gateway leaves out the zone that asks
      if target = j.home then none
      else
        let snapshot := (j.zones j.home).buildSnapshot ord source coords
        some ({ j with
          stage := .ready target
          ghosts := Function.update j.ghosts target (some snapshot) }, none)
    | _ => none
  | .cancel, j =>
    match j.stage with
    | .ready _ => some ({ j with stage := .settled }, none)
    | _ => none
  | .expire zone, j => some ({ j with ghosts := Function.update j.ghosts zone none }, none)
  | .confirm, j =>
    match j.stage with
    | .ready target => some ({ j with stage := .transferring target }, none)
    | _ => none
  | .activate now, j =>
    match j.stage with
    | .transferring target =>
      match j.ghosts target with
      | some snapshot =>
        let z := ((j.zones target).restorePlayerState now snapshot).1
        some ({ j with
          zones := Function.update j.zones target z
          stage := .activated target
          ghosts := Function.update j.ghosts target none }, none)
      | none =>
        -- refused: the crossing is rolled back
        some ({ j with stage := .settled }, none)
    | _ => none
  | .release ord, j =>
    match j.stage with
    | .activated target =>
      let z := (j.zones j.home).postHandoffCleanup ord source
      some ({ j with
        zones := Function.update j.zones j.home z
        home := target
        stage := .settled }, none)
    | _ => none

end Journey

end Baston.Zone

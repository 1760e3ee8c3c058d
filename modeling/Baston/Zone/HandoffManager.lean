/-
A zone's part in the handoff of a player (`handoff_manager.rs`, the ghosts of `mesh.rs`, and
`complete_handoff` of `boundary_loop.rs`).

Every map involved is keyed by player, so all of this is about one player.  A function that waits
for a reply is cut there: what it does before, and what it does with the answer.  No answer is a
failed call or a timeout, and the code does the same about both.
-/
import Baston.Zone.Spatial

namespace Baston.Zone

/-! ### The handoff manager -/

/-- `PREPARE_TIMEOUT`, in nanoseconds. -/
def prepareTimeout : Nat := 2 * 10 ^ 9

inductive HandoffState
  | preparationRequested (requestedAt : Nat)
  /-- The target's name stands for its address as well. -/
  | readyToTransfer (targetZone : ZoneId)
  | transferring
  deriving DecidableEq, Repr

structure HandoffManager where
  zoneId : ZoneId
  /-- `pending_handoffs`. -/
  pending : Option HandoffState := none
  /-- `cooldowns`: when the last handoff was completed or cancelled. -/
  cooledAt : Option Nat := none
  /-- How long the player is then left alone, in nanoseconds. -/
  cooldown : Nat

namespace HandoffManager

def inCooldown (now : Nat) (m : HandoffManager) : Bool :=
  m.cooledAt.any fun at_ => now - at_ < m.cooldown

/-- The player turned around, or the handoff failed. -/
def cancel (now : Nat) (m : HandoffManager) : HandoffManager :=
  if m.pending.isSome then { m with pending := none, cooledAt := some now } else m

def forget (m : HandoffManager) : HandoffManager := { m with pending := none, cooledAt := none }

/-- Requests and cooldowns end; what is ready or under way is not swept. -/
def pruneExpired (now : Nat) (m : HandoffManager) : HandoffManager :=
  { m with
    cooledAt := m.cooledAt.filter fun at_ => now - at_ < m.cooldown
    pending := m.pending.filter fun state =>
      match state with
      | .preparationRequested at_ => now - at_ < prepareTimeout * 2
      | _ => true }

/-- `request_handoff`, up to the request; `none` when it does not ask. -/
def requestHandoff (now : Nat) (m : HandoffManager) : Option HandoffManager :=
  if m.pending.isSome || m.inCooldown now then none
  else some { m with pending := some (.preparationRequested now) }

/-- `request_handoff`, with the zone that is ready, if one is. -/
def prepared (now : Nat) (target : Option ZoneId) (m : HandoffManager) : HandoffManager :=
  match target with
  | some target => { m with pending := some (.readyToTransfer target) }
  | none => m.cancel now

/-- `confirm_crossing`, up to the request to move the route to this zone. -/
def confirmCrossing (m : HandoffManager) : Option (HandoffManager × ZoneId) :=
  match m.pending with
  | some (.readyToTransfer target) => some ({ m with pending := some .transferring }, target)
  | _ => none

/-- `confirm_crossing`, with the answer: whether the route was moved. -/
def confirmed (now : Nat) (ok : Bool) (m : HandoffManager) : HandoffManager :=
  if ok then { m with pending := none, cooledAt := some now } else m.cancel now

end HandoffManager

/-! ### The zone -/

/-- A player prepared for, or woken. -/
inductive GhostState
  | pending (createdAt : Nat)
  | active
  deriving DecidableEq, Repr

/-- How far a preparation has come. -/
inductive Preparing
  /-- The request is on its way to the gateway. -/
  | asked
  /-- The gateway asks the target, which may have done its part. -/
  | relayed (target : ZoneId) (done : Bool)
  /-- The answer is on its way back. -/
  | answered (target : Option ZoneId)
  deriving DecidableEq, Repr

/-- The call `complete_handoff` waits for. -/
inductive Crossing
  | confirming (target : ZoneId)
  | activating (target : ZoneId)
  | rollingBack
  deriving DecidableEq, Repr

/-- `ZoneMesh`, with its boundary loop. -/
structure ZoneMesh where
  manager : HandoffManager
  ghost : Option GhostState := none
  /-- The zone's hooks hold the player: its ped, its entities, its scripts. -/
  live : Bool := false
  preparing : Option Preparing := none
  /-- Where `complete_handoff` is, with the answer once the call has been carried out. -/
  crossing : Option (Crossing × Option Bool) := none

namespace ZoneMesh

/-! #### Requests it carries out -/

def prepareForPlayer (now : Nat) (z : ZoneMesh) : ZoneMesh :=
  { z with ghost := some (.pending now) }

/-- Wake the ghost, if there is one and it sleeps. -/
def activatePlayer (z : ZoneMesh) : ZoneMesh × Bool :=
  match z.ghost with
  | none => (z, false)
  -- already active: refused, and the ghost is gone
  | some .active => ({ z with ghost := none }, false)
  | some (.pending _) => ({ z with ghost := some .active, live := true }, true)

def releasePlayer (z : ZoneMesh) : ZoneMesh :=
  { z with ghost := none, manager := z.manager.forget, live := false }

def expireStaleGhosts (now maxAge : Nat) (z : ZoneMesh) : ZoneMesh :=
  { z with ghost := z.ghost.filter fun ghost =>
      match ghost with
      | .pending createdAt => now - createdAt ≤ maxAge
      | .active => true }

/-! #### The boundary loop -/

/-- A scan finds the player here, and nothing of the last one is still under way. -/
def scans (z : ZoneMesh) : Bool := z.live && z.preparing.isNone && z.crossing.isNone

/-- The player comes near the border. -/
def approach (now : Nat) (z : ZoneMesh) : Option ZoneMesh :=
  if z.scans then
    (z.manager.requestHandoff now).map fun m =>
      { z with manager := m, preparing := some .asked }
  else none

/-- The player turned around inside the margin. -/
def turnAround (now : Nat) (z : ZoneMesh) : Option ZoneMesh :=
  match z.scans, z.manager.pending with
  | true, some (.readyToTransfer _) => some { z with manager := z.manager.cancel now }
  | _, _ => none

/-- The player is across: `complete_handoff` begins. -/
def crossed (z : ZoneMesh) : Option ZoneMesh :=
  if z.scans then
    z.manager.confirmCrossing.map fun (m, target) =>
      { z with manager := m, crossing := some (.confirming target, none) }
  else none

/-- `request_handoff` goes on. -/
def prepareReturns (now : Nat) (target : Option ZoneId) (z : ZoneMesh) : ZoneMesh :=
  { z with manager := z.manager.prepared now target, preparing := none }

/-- `complete_handoff` goes on after `at_`; the answer is `none` when none came. -/
def callReturns (now : Nat) (at_ : Crossing) (answer : Option Bool) (z : ZoneMesh) : ZoneMesh :=
  let ok := answer = some true
  match at_ with
  | .confirming target =>
    { z with
      manager := z.manager.confirmed now ok
      crossing := if ok then some (.activating target, none) else none }
  | .activating _ =>
    -- released here only once the player is live there
    if ok then { z with live := false, crossing := none }
    else { z with crossing := some (.rollingBack, none) }
  -- a refused rollback is only logged
  | .rollingBack => { z with crossing := none }

end ZoneMesh

end Baston.Zone

/-
Interest management: one client's sparse view and the plan of a tick
(`interest_ng.rs`).

Every tick looks at the entities in the 3×3 block of cells around the client, lets
each relevant one accrue priority, turns those that fell out of scope into removes
under one budget, and fills another with creates and syncs in priority order.
-/
import Baston.Lib.Map
import Baston.Rage.Clone

namespace Baston.Zone

open Assoc Baston.Rage

variable {F : Type}

/-- What interest management needs to know of an entity. -/
structure EntitySnapshot (F : Type) where
  objectId : UInt16
  uniqifier : UInt16
  owner : UInt32
  position : Vec3 F
  velocity : Vec3 F
  entityType : NetObjEntityType
  routingBucket : UInt32
  /-- Server frame of the last update. -/
  frameIndex : UInt64
  /-- Payload size in bytes. -/
  dataLen : Nat

/-- The tuning of the priority model and the budgets. -/
structure InterestConfig (F : Type) where
  aoiRadius : F
  budgetBytes : Nat
  distanceWeight : F
  closingWeight : F
  stalenessWeight : F
  hysteresisM : F
  removeBudgetBytes : Nat

/-- What a client was sent of one entity. -/
structure EntityView (F : Type) where
  /-- Accumulated, unspent priority. -/
  priority : F
  /-- Last frame index sent: the delta baseline. -/
  baseFrame : UInt64
  /-- Whether the client has been sent a create. -/
  created : Bool
  seenThisTick : Bool
  uniqifier : UInt16

/-- What a tick decided to send, in priority order. -/
structure TickPlan where
  creates : List UInt16 := []
  syncs : List UInt16 := []
  /-- `(object_id, uniqifier)` pairs that left scope. -/
  removes : List (UInt16 × UInt16) := []
  deriving DecidableEq

/-- One client's view over the world. -/
structure ClientView (F : Type) where
  netId : UInt16
  views : Map UInt16 (EntityView F)

section
variable [Scalar F]

/-- Ceiling on accumulated priority. -/
def priorityCap : F := 1.0e6

/-- The widest distance at which an entity can still be relevant. -/
def InterestConfig.queryRadius (cfg : InterestConfig F) : F := cfg.aoiRadius + cfg.hysteresisM

/-- `InterestConfig::default()`. -/
def InterestConfig.standard : InterestConfig F where
  aoiRadius := 424.0
  budgetBytes := 24 * 1024
  distanceWeight := 10.0
  closingWeight := 0.5
  stalenessWeight := 1.0
  hysteresisM := 20.0
  removeBudgetBytes := 4 * 1024

/-- What the validation of the configuration asks of these values. -/
def InterestConfig.accepted (cfg : InterestConfig Float32) : Bool :=
  cfg.budgetBytes ≠ 0 && cfg.removeBudgetBytes ≠ 0 && cfg.aoiRadius.isFinite
    && !cfg.aoiRadius.le 0.0 && cfg.hysteresisM.isFinite && !cfg.hysteresisM.lt 0.0
    && [cfg.distanceWeight, cfg.closingWeight, cfg.stalenessWeight].all fun w =>
      w.isFinite && !w.lt 0.0

/-! ### The grid -/

/-- The grid cell of a position; interest is horizontal, so the grid is 2D. -/
def cellOf (position : Vec3 F) (cellSize : F) : Int32 × Int32 :=
  (Scalar.floorToI32 (position.x / cellSize), Scalar.floorToI32 (position.y / cellSize))

end

/-- A uniform grid over one world snapshot, holding indices into it. -/
structure SpatialIndex (F : Type) where
  cellSize : F
  cells : Map (Int32 × Int32) (List Nat)

namespace SpatialIndex

/-- The most entries of a snapshot that are indexed: `u32::MAX`. -/
def maxEntries : Nat := 2 ^ 32 - 1

/-- Append an index to a cell. -/
def push (cells : Map (Int32 × Int32) (List Nat)) (cell : Int32 × Int32) (i : Nat) :
    Map (Int32 × Int32) (List Nat) :=
  cells.insert cell ((cells.lookup cell).getD [] ++ [i])

variable [Scalar F]

/-- An index whose cells are at least `radius` wide. -/
def build (world : List (EntitySnapshot F)) (radius : F) : SpatialIndex F :=
  let cellSize := Scalar.max radius 1.0
  { cellSize := cellSize
    cells := (world.take maxEntries).zipIdx.foldl
      (fun cells entry => push cells (cellOf entry.1.position cellSize) entry.2) ∅ }

/-- The offsets of the 3×3 block, in the order the loops visit them. -/
def block : List (Int32 × Int32) :=
  [(-1, -1), (-1, 0), (-1, 1), (0, -1), (0, 0), (0, 1), (1, -1), (1, 0), (1, 1)]

/-- The snapshot indices `for_each_near` visits, in order. -/
def near (index : SpatialIndex F) (focus : Vec3 F) : List Nat :=
  let center := cellOf focus index.cellSize
  block.flatMap fun d => (index.cells.lookup (center.1 + d.1, center.2 + d.2)).getD []

end SpatialIndex

/-! ### One tick of one client -/

/-- What a tick reads besides the view. -/
structure TickContext (F : Type) where
  focus : Vec3 F
  focusVelocity : Vec3 F
  routingBucket : UInt32
  world : List (EntitySnapshot F)
  index : SpatialIndex F
  cfg : InterestConfig F

/-- An entity that may be sent this tick.  The source stores its index in the snapshot
and looks it up again; here it carries the entry. -/
structure Candidate (F : Type) where
  objectId : UInt16
  priority : F
  entity : EntitySnapshot F

/-- The loop variables of the fill. -/
structure Fill (F : Type) where
  views : Map UInt16 (EntityView F)
  plan : TickPlan
  spent : Nat

namespace ClientView

def new (netId : UInt16) : ClientView F := ⟨netId, ∅⟩

variable [Scalar F]

/-- The squared horizontal distance to the client, with its two components. -/
def planar (ctx : TickContext F) (e : EntitySnapshot F) : F × F × F :=
  let dx := e.position.x - ctx.focus.x
  let dy := e.position.y - ctx.focus.y
  (dx, dy, dx * dx + dy * dy)

/-- Whether an entity is beyond the radius, which hysteresis widens for one in scope. -/
def outsideAoi (ctx : TickContext F) (alreadyScoped : Bool) (e : EntitySnapshot F) : Bool :=
  let radius := ctx.cfg.aoiRadius + if alreadyScoped then ctx.cfg.hysteresisM else 0.0
  Scalar.lt (radius * radius) (planar ctx e).2.2

/-- The priority an entity gains this tick on top of `priority`. -/
def accrue (ctx : TickContext F) (e : EntitySnapshot F) (priority : F) : F :=
  let (dx, dy, d2) := planar ctx e
  let dist := Scalar.sqrt d2
  let distTerm := ctx.cfg.distanceWeight * Scalar.max (1.0 - dist / ctx.cfg.aoiRadius) 0.0
  let closingSpeed :=
    if Scalar.lt Scalar.epsilon dist then
      let rx := e.velocity.x - ctx.focusVelocity.x
      let ry := e.velocity.y - ctx.focusVelocity.y
      let radialVelocity := (rx * dx + ry * dy) / dist
      Scalar.max (-radialVelocity) 0.0
    else 0.0
  let closingTerm := ctx.cfg.closingWeight * closingSpeed
  Scalar.min (priority + distTerm + closingTerm + ctx.cfg.stalenessWeight) priorityCap

/-- Whether a tick passes an entity over: its owner's echo, another bucket, out of range. -/
def suppressed (netId : UInt16) (ctx : TickContext F) (alreadyScoped : Bool)
    (e : EntitySnapshot F) : Bool :=
  netId.toUInt32 = e.owner || e.routingBucket ≠ ctx.routingBucket
    || outsideAoi ctx alreadyScoped e

/-- The view of an entity that is relevant this tick, from the view before. -/
def refreshed (ctx : TickContext F) (e : EntitySnapshot F) (before : Option (EntityView F)) :
    EntityView F :=
  let view := before.getD ⟨0.0, 0, false, false, e.uniqifier⟩
  { view with
    seenThisTick := true
    uniqifier := e.uniqifier
    priority := accrue ctx e view.priority }

/-- The visit of one entity in the block. -/
def observe (netId : UInt16) (ctx : TickContext F)
    (acc : Map UInt16 (EntityView F) × List (Candidate F)) (e : EntitySnapshot F) :
    Map UInt16 (EntityView F) × List (Candidate F) :=
  let before := acc.1.lookup e.objectId
  if suppressed netId ctx before.isSome e then acc
  else
    let view := refreshed ctx e before
    (acc.1.insert e.objectId view, acc.2 ++ [⟨e.objectId, view.priority, e⟩])

/-- The entries a tick looks at: those of the block that the snapshot has. -/
def nearby (ctx : TickContext F) : List (EntitySnapshot F) :=
  (ctx.index.near ctx.focus).filterMap fun i => ctx.world[i]?

/-- Whether `a` sorts before `b` or ties: priority first, then the lower id. -/
def sendsBefore (a b : Candidate F) : Bool :=
  match Scalar.totalCmp b.priority a.priority with
  | .lt => true
  | .gt => false
  | .eq => a.objectId ≤ b.objectId

/-- Entries not seen this tick, by id, with the uniqifier last seen. -/
def exited (views : Map UInt16 (EntityView F)) : List (UInt16 × UInt16) :=
  ((views.entries.filter fun kv => !kv.2.seenThisTick).map fun kv =>
    (kv.1, kv.2.uniqifier)).insertionSort fun a b => a.1 ≤ b.1

/-- A remove record is about 8 bytes. -/
def maxRemoves (cfg : InterestConfig F) : Nat := max (cfg.removeBudgetBytes / 8) 1

/-- The estimated size of a record. -/
def cost (e : EntitySnapshot F) : Nat := 22 + e.dataLen

/-- Consider one candidate.  The first send of a tick always goes through. -/
def send (cfg : InterestConfig F) (fill : Fill F) (c : Candidate F) : Fill F :=
  if fill.spent > 0 ∧ fill.spent + cost c.entity > cfg.budgetBytes then fill
  else
    match fill.views.lookup c.objectId with
    -- `expect("candidate was inserted")`
    | none => fill
    | some view =>
      let sent := { view with
        created := true, baseFrame := c.entity.frameIndex, priority := 0.0 }
      if !view.created then
        { views := fill.views.insert c.objectId sent
          plan := { fill.plan with creates := fill.plan.creates ++ [c.objectId] }
          spent := fill.spent + cost c.entity }
      else if view.baseFrame < c.entity.frameIndex then
        { views := fill.views.insert c.objectId sent
          plan := { fill.plan with syncs := fill.plan.syncs ++ [c.objectId] }
          spent := fill.spent + cost c.entity }
      else fill

/-- Forget the last tick's flags and visit the block: the views and the candidates. -/
def mark (view : ClientView F) (ctx : TickContext F) :
    Map UInt16 (EntityView F) × List (Candidate F) :=
  let reset := view.views.mapVals fun _ v => { v with seenThisTick := false }
  (nearby ctx).foldl (observe view.netId ctx) (reset, [])

/-- The scope exits of this tick, as far as the remove budget reaches. -/
def leaving (view : ClientView F) (ctx : TickContext F) : List (UInt16 × UInt16) :=
  (exited (view.mark ctx).1).take (maxRemoves ctx.cfg)

/-- Recompute relevance and produce this tick's plan. -/
def tickWithContext (view : ClientView F) (ctx : TickContext F) : ClientView F × TickPlan :=
  let (views, candidates) := view.mark ctx
  let removes := view.leaving ctx
  let views := removes.foldl (fun views r => views.erase r.1) views
  let fill := (candidates.insertionSort fun a b => sendsBefore a b).foldl (send ctx.cfg)
    ⟨views, { removes := removes }, 0⟩
  ({ view with views := fill.views }, fill.plan)

/-! ### Reliability -/

/-- The delta baseline for an entity. -/
def baseFrame (view : ClientView F) (objectId : UInt16) : Option UInt64 :=
  (view.views.lookup objectId).map (·.baseFrame)

/-- Roll one entity's base frame back to at most `frame`. -/
def rollback (view : ClientView F) (objectId : UInt16) (frame : UInt64) (recreate : Bool) :
    ClientView F :=
  { view with
    views := view.views.modify objectId fun v =>
      { v with baseFrame := min v.baseFrame frame, created := v.created && !recreate } }

/-- Roll every entity's base frame back to at most `frame`. -/
def rollbackAll (view : ClientView F) (frame : UInt64) : ClientView F :=
  { view with
    views := view.views.mapVals fun _ v => { v with baseFrame := min v.baseFrame frame } }

/-- Force a re-create. -/
def forceRecreate (view : ClientView F) (objectId : UInt16) : ClientView F :=
  { view with
    views := view.views.modify objectId fun v => { v with created := false, baseFrame := 0 } }

/-- Positive acks are advisory. -/
def ackFrame (view : ClientView F) (_frame : UInt64) : ClientView F := view

end ClientView

end Baston.Zone

/-
The entity manager shared by several tasks, and the publisher of its changes
(`state_sync.rs`).

A mutation takes the lock of the entity map first, lets it go, and takes the lock of the
dirty queue to record the snapshot it took.  So it is two atomic steps, and between them
any other task may run.  A flush takes the queue's lock alone and is one step.

Every tick the publisher drains the dirty queue, encodes the batch and publishes it.
Encoding and publishing may fail, and by then the queue is empty.
-/
import Baston.Zone.EntityManager

namespace Baston.Zone

open Assoc

variable {F : Type}

/-- What a mutation still has to record in the dirty queue. -/
inductive Mark (F : Type)
  | dirty (id : EntityId) (flags : DirtyFlags) (state : EntityState F)
  | deleted (id : EntityId) (state : EntityState F)

namespace Mark

def id : Mark F → EntityId
  | .dirty id _ _ => id
  | .deleted id _ => id

def isDeleted : Mark F → Bool
  | .dirty .. => false
  | .deleted .. => true

/-- The second step of a mutation. -/
def record : Mark F → EntityManager F → EntityManager F
  | .dirty id flags state, m =>
    { m with dirtyQueue := EntityManager.markDirty id flags state m.dirtyQueue }
  | .deleted id state, m =>
    { m with dirtyQueue := EntityManager.markDeleted id state m.dirtyQueue }

end Mark

namespace EntityManager

/-- The first step of a call: the entity map changes, and what is to be recorded is known.
A flush has no second step. -/
def change [BEq F] :
    Call F → EntityManager F → EntityManager F × Option (Mark F) × List (DirtyEntity F)
  | .spawnEntity state, m =>
    ({ m with entities := m.entities.insert state.entityId state },
      some (.dirty state.entityId (DirtyFlags.all.difference .deleted) state), [])
  | .removeEntity id, m =>
    match m.entities.lookup id with
    | some state => ({ m with entities := m.entities.erase id }, some (.deleted id state), [])
    | none => (m, none, [])
  | .updateEntity id update, m =>
    match m.entities.lookup id with
    | some state =>
      let (state, flags) := state.applyUpdate update
      ({ m with entities := m.entities.insert id state },
        if flags = 0 then none else some (.dirty id flags state), [])
    | none => (m, none, [])
  | .setNetworkOwner id owner, m =>
    match m.entities.lookup id with
    | some state =>
      if state.networkOwner = owner then (m, none, [])
      else
        let state := { state with networkOwner := owner }
        ({ m with entities := m.entities.insert id state }, some (.dirty id .extra state), [])
    | none => (m, none, [])
  | .flushDirty ord, m => ((m.flushDirty ord).1, none, (m.flushDirty ord).2)

end EntityManager

/-- The manager, and what each task that is between its two steps has to record. -/
structure SharedManager (F : Type) where
  manager : EntityManager F := .new
  outstanding : Map Nat (Mark F) := ∅

namespace SharedManager

/-- A task starts a call, or records what its call left to record. -/
inductive Move (F : Type)
  | call (task : Nat) (call : EntityManager.Call F)
  | mark (task : Nat)

/-- One atomic step, with the batch it hands to the publisher.  A task that still has
something to record does that before anything else. -/
def step [BEq F] : Move F → SharedManager F → Option (SharedManager F × List (DirtyEntity F))
  | .call task call, s =>
    match s.outstanding.lookup task with
    | some _ => none
    | none =>
      match s.manager.change call with
      | (manager, some mark, batch) =>
        some (⟨manager, s.outstanding.insert task mark⟩, batch)
      | (manager, none, batch) => some (⟨manager, s.outstanding⟩, batch)
  | .mark task, s =>
    match s.outstanding.lookup task with
    | some mark => some (⟨mark.record s.manager, s.outstanding.erase task⟩, [])
    | none => none

end SharedManager

/-! ### The publisher -/

/-- How encoding and publishing a batch ended. -/
inductive PublishResult
  | encodeFailed | publishFailed | published
  deriving DecidableEq, Repr

/-- `StateSyncEmitter::emit_once`: drain and publish, with the batch that reached the stream. -/
def emitOnce (ord : IterOrder EntityId) (result : PublishResult) (m : EntityManager F) :
    EntityManager F × List (DirtyEntity F) :=
  let (m, dirty) := m.flushDirty ord
  if dirty.isEmpty then (m, [])
  else
    match result with
    | .encodeFailed => (m, [])
    | .publishFailed => (m, [])
    | .published => (m, dirty)

/-- What happens to a zone's entities: a mutation, or a tick of the publisher. -/
inductive Activity (F : Type)
  | mutate (c : EntityManager.Call F)
  | emit (ord : IterOrder EntityId) (result : PublishResult)

/-- One activity, with the batch it published.  Only the publisher drains the queue. -/
def Activity.step [BEq F] : Activity F → EntityManager F →
    Option (EntityManager F × List (DirtyEntity F))
  | .mutate (.flushDirty _), _ => none
  | .mutate c, m => some (m.perform c)
  | .emit ord result, m => some (emitOnce ord result m)

end Baston.Zone

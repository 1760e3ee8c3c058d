/-
Routing buckets: who sees whom, and what a bucket forbids (`routing_bucket.rs`).

Bucket 0 is the default and is never stored: putting somebody there removes the
entry.
-/
import Baston.Lib.Map

namespace Baston.Zone

open Assoc

inductive LockdownMode
  | inactive | relaxed | strict
  deriving DecidableEq, Repr

structure BucketPolicy where
  lockdown : LockdownMode := .inactive
  populationEnabled : Bool := true
  deriving DecidableEq, Repr

structure RoutingBucketRegistry where
  players : Map UInt32 UInt32 := ∅
  entities : Map UInt16 UInt32 := ∅
  policies : Map UInt32 BucketPolicy := ∅

namespace RoutingBucketRegistry

def playerBucket (r : RoutingBucketRegistry) (source : UInt32) : UInt32 :=
  (r.players.lookup source).getD 0

def entityBucket (r : RoutingBucketRegistry) (objectId : UInt16) : UInt32 :=
  (r.entities.lookup objectId).getD 0

def setPlayerBucket (r : RoutingBucketRegistry) (source bucket : UInt32) :
    RoutingBucketRegistry :=
  if bucket = 0 then { r with players := r.players.erase source }
  else { r with players := r.players.insert source bucket }

def setEntityBucket (r : RoutingBucketRegistry) (objectId : UInt16) (bucket : UInt32) :
    RoutingBucketRegistry :=
  if bucket = 0 then { r with entities := r.entities.erase objectId }
  else { r with entities := r.entities.insert objectId bucket }

def removePlayer (r : RoutingBucketRegistry) (source : UInt32) : RoutingBucketRegistry :=
  { r with players := r.players.erase source }

def removeEntity (r : RoutingBucketRegistry) (objectId : UInt16) : RoutingBucketRegistry :=
  { r with entities := r.entities.erase objectId }

def policy (r : RoutingBucketRegistry) (bucket : UInt32) : BucketPolicy :=
  (r.policies.lookup bucket).getD {}

def setLockdown (r : RoutingBucketRegistry) (bucket : UInt32) (lockdown : LockdownMode) :
    RoutingBucketRegistry :=
  { r with policies := r.policies.insert bucket { r.policy bucket with lockdown := lockdown } }

def setPopulationEnabled (r : RoutingBucketRegistry) (bucket : UInt32) (enabled : Bool) :
    RoutingBucketRegistry :=
  { r with
    policies := r.policies.insert bucket { r.policy bucket with populationEnabled := enabled } }

/-- Strict lockdown denies client-originated creates. -/
def allowsClientCreate (r : RoutingBucketRegistry) (source : UInt32) : Bool :=
  (r.policy (r.playerBucket source)).lockdown ≠ .strict

def allowsTakeover (r : RoutingBucketRegistry) (sender target : UInt32) (objectId : UInt16) :
    Bool :=
  let bucket := r.entityBucket objectId
  r.playerBucket sender = bucket && r.playerBucket target = bucket

/-! ### Lookups after an update -/

@[simp] theorem playerBucket_setEntityBucket (r : RoutingBucketRegistry) (id : UInt16)
    (bucket source : UInt32) :
    (r.setEntityBucket id bucket).playerBucket source = r.playerBucket source := by
  unfold setEntityBucket playerBucket
  by_cases hb : bucket = 0
  · simp [hb]
  · simp [hb]

theorem entities_setEntityBucket_ne (r : RoutingBucketRegistry) {id id' : UInt16}
    (bucket : UInt32) (h : id' ≠ id) :
    (r.setEntityBucket id bucket).entities.lookup id' = r.entities.lookup id' := by
  unfold setEntityBucket
  by_cases hb : bucket = 0
  · rw [if_pos hb]
    exact AList.lookup_erase_ne h
  · rw [if_neg hb]
    exact AList.lookup_insert_ne h

@[simp] theorem playerBucket_removeEntity (r : RoutingBucketRegistry) (id : UInt16)
    (source : UInt32) : (r.removeEntity id).playerBucket source = r.playerBucket source := rfl

end RoutingBucketRegistry

end Baston.Zone

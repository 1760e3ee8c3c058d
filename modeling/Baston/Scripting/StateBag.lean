/-
Shared state-bag storage (`state_bag.rs`).

A bag maps keys to values, each with the version of its write.  `set` takes a version
from a counter and only then the lock under which it stores the value, hands the change
to the handlers it matches and queues it for replication; so a write is two steps here,
and other calls may come between them.
-/
import Baston.Lib.Coalesce
import Baston.Lib.Map
import Baston.Lib.Trace

namespace Baston.Scripting

open Assoc

/-- `MAX_PENDING_DELIVERIES_PER_RESOURCE`. -/
def maxPendingDeliveriesPerResource : Nat := 4096

/-- `MAX_REPLICATED_CHANGES`. -/
def maxReplicatedChanges : Nat := 16384

structure StateBagSource where
  /-- Resource that initiated the write, when it originated from scripting. -/
  resource : Option String
  /-- Network player that initiated the write, when known. -/
  player : Option UInt32
  deriving DecidableEq

/-- One versioned mutation. -/
structure StateBagChange (V : Type) where
  bag : String
  key : String
  value : V
  version : UInt64
  replicated : Bool
  source : StateBagSource
  deriving DecidableEq

/-- A callback delivery. -/
structure StateBagDelivery (V : Type) where
  callbackId : UInt32
  change : StateBagChange V
  deriving DecidableEq

structure Handler where
  resource : String
  callbackId : UInt32
  keyFilter : Option String
  bagFilter : Option String

/-- What the lock guards. -/
structure StateBagInner (V : Type) where
  bags : Map String (Map String (V × UInt64)) := ∅
  handlers : Map UInt32 Handler := ∅
  pending : Map String (List (StateBagDelivery V)) := ∅
  replicated : List (StateBagChange V) := []

structure StateBagStore (V : Type) where
  inner : StateBagInner V := {}
  nextVersion : UInt64 := 0
  nextCookie : UInt32 := 0

variable {V : Type}

/-- Whether a pending change is about the same key. -/
def StateBagChange.sameKey (c : StateBagChange V) (pending : StateBagChange V) : Bool :=
  pending.bag = c.bag && pending.key = c.key

/-- Whether a handler's filters let a change through. -/
def Handler.accepts (h : Handler) (c : StateBagChange V) : Bool :=
  h.keyFilter.all (· = c.key) && h.bagFilter.all (· = c.bag)

namespace StateBagInner

/-- The value stored under a key, with its version. -/
def entry (inner : StateBagInner V) (bag key : String) : Option (V × UInt64) :=
  (inner.bags.lookup bag).bind fun values => values.lookup key

/-- Queue one delivery, dropping the oldest when the queue is full. -/
def deliver (pending : Map String (List (StateBagDelivery V)))
    (d : String × StateBagDelivery V) : Map String (List (StateBagDelivery V)) :=
  let queue := (pending.lookup d.1).getD []
  let queue := if maxPendingDeliveriesPerResource ≤ queue.length then queue.tail else queue
  pending.insert d.1 (queue ++ [d.2])

/-- Queue a change for replication in place of an unsent one about the same key. -/
def queueReplicated (queue : List (StateBagChange V)) (c : StateBagChange V) :
    List (StateBagChange V) :=
  let queue :=
    if queue.any c.sameKey then Coalesce.removeLast c.sameKey queue
    else if maxReplicatedChanges ≤ queue.length then queue.tail
    else queue
  queue ++ [c]

/-- The part of `set` under the lock. -/
def store (ord : IterOrder UInt32) (inner : StateBagInner V) (c : StateBagChange V) :
    StateBagInner V :=
  let values := (inner.bags.lookup c.bag).getD ∅
  let deliveries := ((inner.handlers.visit ord).filter fun h => h.2.accepts c).map fun h =>
    (h.2.resource, (⟨h.2.callbackId, c⟩ : StateBagDelivery V))
  { inner with
    bags := inner.bags.insert c.bag (values.insert c.key (c.value, c.version))
    pending := deliveries.foldl deliver inner.pending
    replicated := if c.replicated then queueReplicated inner.replicated c else inner.replicated }

def drainReplicated (inner : StateBagInner V) (limit : Nat) :
    StateBagInner V × List (StateBagChange V) :=
  let count := min limit inner.replicated.length
  ({ inner with replicated := inner.replicated.drop count }, inner.replicated.take count)

def drainDeliveries (inner : StateBagInner V) (resource : String) (limit : Nat) :
    StateBagInner V × List (StateBagDelivery V) :=
  match inner.pending.lookup resource with
  | none => (inner, [])
  | some queue =>
    let count := min limit queue.length
    let rest := queue.drop count
    ({ inner with
       pending := if rest.isEmpty then inner.pending.erase resource
         else inner.pending.insert resource rest },
      queue.take count)

end StateBagInner

namespace StateBagStore

/-- The part of `set` before the lock: the change with the version it takes. -/
def allocate (store : StateBagStore V) (bag key : String) (value : V) (replicated : Bool)
    (source : StateBagSource) : StateBagStore V × StateBagChange V :=
  let version := store.nextVersion + 1
  ({ store with nextVersion := version }, ⟨bag, key, value, version, replicated, source⟩)

/-- The next cookie that is not zero. -/
def takeCookie (store : StateBagStore V) : UInt32 :=
  if store.nextCookie + 1 = 0 then 1 else store.nextCookie + 1

def normalizeFilter (filter : Option String) : Option String := filter.filter fun f => !f.isEmpty

def addHandler (store : StateBagStore V) (resource : String) (keyFilter bagFilter : Option String)
    (callbackId : UInt32) : StateBagStore V :=
  let cookie := store.takeCookie
  { store with
    nextCookie := cookie
    inner := { store.inner with
      handlers := store.inner.handlers.insert cookie
        ⟨resource, callbackId, normalizeFilter keyFilter, normalizeFilter bagFilter⟩ } }

/-- Remove a handler only when it belongs to the calling resource. -/
def removeHandler (store : StateBagStore V) (resource : String) (cookie : UInt32) :
    StateBagStore V :=
  if (store.inner.handlers.lookup cookie).any fun h => h.resource = resource then
    { store with
      inner := { store.inner with handlers := store.inner.handlers.erase cookie } }
  else store

end StateBagStore

/-! ### Many callers -/

/-- The store, and the calls of `set` that hold a version and wait for the lock. -/
structure BagCalls (V : Type) where
  store : StateBagStore V := {}
  waiting : List (StateBagChange V) := []

/-- One atomic step of some caller. -/
inductive BagOp (V : Type)
  /-- `set` begins. -/
  | call (bag key : String) (value : V) (replicated : Bool) (source : StateBagSource)
  /-- The call at this place among those waiting gets the lock, and returns. -/
  | store (i : Nat) (ord : IterOrder UInt32)
  | drainReplicated (limit : Nat)
  | drainDeliveries (resource : String) (limit : Nat)
  | addHandler (resource : String) (keyFilter bagFilter : Option String) (callbackId : UInt32)
  | removeHandler (resource : String) (cookie : UInt32)

/-- What the step hands back. -/
inductive BagAnswer (V : Type)
  | none
  /-- `set` returned its change. -/
  | set (change : StateBagChange V)
  | replicated (changes : List (StateBagChange V))
  | deliveries (deliveries : List (StateBagDelivery V))

/-- One atomic step; `none` when no such call is waiting. -/
def BagCalls.step : BagOp V → BagCalls V → Option (BagCalls V × BagAnswer V)
  | .call bag key value replicated source, s =>
    let (store, change) := s.store.allocate bag key value replicated source
    some ({ store := store, waiting := s.waiting ++ [change] }, .none)
  | .store i ord, s => do
    let change ← s.waiting[i]?
    some ({ store := { s.store with inner := s.store.inner.store ord change }
            waiting := s.waiting.eraseIdx i }, .set change)
  | .drainReplicated limit, s =>
    let (inner, changes) := s.store.inner.drainReplicated limit
    some ({ s with store := { s.store with inner := inner } }, .replicated changes)
  | .drainDeliveries resource limit, s =>
    let (inner, deliveries) := s.store.inner.drainDeliveries resource limit
    some ({ s with store := { s.store with inner := inner } }, .deliveries deliveries)
  | .addHandler resource keyFilter bagFilter callbackId, s =>
    some ({ s with store := s.store.addHandler resource keyFilter bagFilter callbackId }, .none)
  | .removeHandler resource cookie, s =>
    some ({ s with store := s.store.removeHandler resource cookie }, .none)

end Baston.Scripting

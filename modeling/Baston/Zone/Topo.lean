/-
The order in which resources start (`resource_loader/topo.rs`).

Kahn's algorithm over the dependency graph.  Names are sorted wherever they come out of a hash
map.  The model keeps the two places at which the source would panic, and counts the turns of its
loop, so that it has to be shown that neither ever matters.
-/
import Baston.Lib.Map

namespace Baston.Zone.Topo

open Assoc

/-- The errors of `topo_sort`. -/
inductive TopoError (K : Type)
  | unknownDependency (resource dependency : K)
  | cyclicDependency (names : List K)
  deriving DecidableEq

variable {K : Type} [LinearOrder K]

/-- `sort_unstable`, of names that are all different. -/
def sortUnstable (names : List K) : List K := names.insertionSort (· ≤ ·)

/-- The first dependency that is no resource. -/
def firstUnknown (resources : Map K (List K)) (visited : List (K × List K)) : Option (K × K) :=
  visited.findSome? fun r => (r.2.find? (· ∉ resources)).map fun dep => (r.1, dep)

/-- How many dependencies a resource waits for. -/
def inDegrees (visited : List (K × List K)) : Map K Nat :=
  visited.foldl
    (fun m r => r.2.foldl (fun m _ => m.insert r.1 ((m.lookup r.1).getD 0 + 1))
      (m.entryOrInsert r.1 0)) ∅

/-- Who waits for a resource. -/
def dependentsOf (visited : List (K × List K)) : Map K (List K) :=
  Map.group Prod.fst Prod.snd ∅ (visited.flatMap fun r => r.2.map fun dep => (dep, r.1))

/-- Each dependent waits for one less, and those that wait for none are collected.  `none` is the
panic at a dependent that is unknown, or at one that waits for none already. -/
def release (inDegree : Map K Nat) : List K → Option (Map K Nat × List K)
  | [] => some (inDegree, [])
  | dependent :: rest =>
    match inDegree.lookup dependent with
    | some (deg + 1) => do
      let (inDegree, newlyReady) ← release (inDegree.insert dependent deg) rest
      return (inDegree, if deg = 0 then dependent :: newlyReady else newlyReady)
    | _ => none

structure Sorting (K : Type) where
  inDegree : Map K Nat
  ready : List K
  ordered : List K

/-- One turn: the first that is ready comes next. -/
def turn (dependents : Map K (List K)) (inDegree : Map K Nat) (name : K) (ready ordered : List K) :
    Option (Sorting K) := do
  let (inDegree, newlyReady) ← release inDegree ((dependents.lookup name).getD [])
  return ⟨inDegree, ready ++ sortUnstable newlyReady, ordered ++ [name]⟩

/-- As long as something is ready, for as many turns. -/
def kahnLoop (dependents : Map K (List K)) : Nat → Sorting K → Option (Sorting K)
  | turns, s =>
    match turns, s.ready with
    | _, [] => some s
    | 0, _ :: _ => none
    | turns + 1, name :: ready => do
      let s ← turn dependents s.inDegree name ready s.ordered
      kahnLoop dependents turns s

/-- `topo_sort`, where `resourceOrder` and `degreeOrder` are the orders in which the two hash maps
are visited. -/
def topoSort (resourceOrder degreeOrder : IterOrder K) (resources : Map K (List K)) :
    Option (Except (TopoError K) (List K)) :=
  let visited := resources.visit resourceOrder
  match firstUnknown resources visited with
  | some (resource, dependency) => some (.error (.unknownDependency resource dependency))
  | none => do
    let inDegree := inDegrees visited
    let ready := (inDegree.visit degreeOrder).filterMap fun e => if e.2 = 0 then some e.1 else none
    let s ← kahnLoop (dependentsOf visited) resources.keys.length
      ⟨inDegree, sortUnstable ready, []⟩
    if s.ordered.length ≠ resources.keys.length then
      return .error (.cyclicDependency (sortUnstable
        ((s.inDegree.visit degreeOrder).filterMap fun e => if e.2 > 0 then some e.1 else none)))
    else return .ok s.ordered

end Baston.Zone.Topo

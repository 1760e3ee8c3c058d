/-
Chained script events (`host.rs`).

An event is dispatched to every resource, and what their handlers trigger in turn is dispatched
after what is already waiting.  Events that start in this zone are mirrored to its siblings.  A
chain is cut off after a number of dispatches, so that two handlers that trigger each other do not
hold the host forever.

What the handlers do is the scripts' own: a dispatch takes them to a next state and queues events,
those of the state bags' callbacks included.
-/
import Baston.Lib.Checked

namespace Baston.Scripting

/-- An event with its arguments, as text. -/
structure ScriptEvent where
  event : String
  argsJson : String
  deriving DecidableEq

/-- `starts_with`. -/
def startsWith (text start : String) : Bool := start.toList.isPrefixOf text.toList

/-- Events that never leave the local zone. -/
def isZoneLocalEvent (event : String) : Bool :=
  startsWith event "onResource" || startsWith event "player" || startsWith event "__baston"
    || event = "onEntityOwnerChanged"

/-- Cap on the dispatches of one chain. -/
def MAX_EVENT_CHAIN : Nat := 64

variable {H : Type}

/-- The handlers, and what has been published and dispatched so far. -/
structure Chain (H : Type) where
  handlers : H
  published : List ScriptEvent := []
  dispatched : List ScriptEvent := []

namespace Chain

/-- Hand an event to the sibling zones, if anything publishes to them. -/
def publish (crossZone : Bool) (event : ScriptEvent) (s : Chain H) : Chain H :=
  if crossZone then { s with published := s.published ++ [event] } else s

/-- One event to every resource; what they queue. -/
def dispatch (behaviour : H → ScriptEvent → H × List ScriptEvent) (event : ScriptEvent)
    (s : Chain H) : Chain H × List ScriptEvent :=
  let (handlers, queued) := behaviour s.handlers event
  ({ s with handlers, dispatched := s.dispatched ++ [event] }, queued)

/-- The loop of `broadcast_chain_inner`; `dispatched` counts its turns. -/
def loop (behaviour : H → ScriptEvent → H × List ScriptEvent) (crossZone publishEntry : Bool) :
    Nat → Nat → List ScriptEvent → Chain H → Checked (Chain H)
  | 0, _, _, _ => .error .stuck
  | _ + 1, _, [], s => return s
  | turns + 1, dispatched, event :: pending, s =>
    let dispatched := dispatched + 1
    -- what a sibling zone sent is not sent back
    let isRemoteEntry := dispatched == 1 && !publishEntry
    let s :=
      if !isRemoteEntry && !isZoneLocalEvent event.event then s.publish crossZone event else s
    if dispatched > MAX_EVENT_CHAIN then return s
    else
      let (s, queued) := s.dispatch behaviour event
      loop behaviour crossZone publishEntry turns dispatched (pending ++ queued) s

/-- Dispatch an event and everything it leads to. -/
def broadcastChainInner (behaviour : H → ScriptEvent → H × List ScriptEvent) (crossZone : Bool)
    (handlers : H) (event : ScriptEvent) (publishEntry : Bool) : Checked (Chain H) :=
  loop behaviour crossZone publishEntry (MAX_EVENT_CHAIN + 2) 0 [event] { handlers }

end Chain

end Baston.Scripting

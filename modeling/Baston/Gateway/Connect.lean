/-
How a player gets in (`http/client.rs`, `deferrals.rs` of the scripting crate).

A call of `initConnect` draws a source, has its ticket looked at and registers a deferral under
the source.  Every resource is told of the player; whoever wants to think it over defers, and
says later that it is done.  If nobody has deferred by the time the handlers are through, the
host says so itself.  The call waits for the first to decide, for a limited time.

Any number of calls are under way at once, and the scripts speak of any source at any time, of
one that is not connecting too.  Every access to the registry or to the directory is a step of
its own; so are the two halves of `resolve_if_not_deferred`, which looks first and decides then,
and of `PlayerDirectory::remove`.  A client that hangs up drops its call where it waits.
-/
import Baston.Gateway.UdpServer
import Baston.Lib.Map
import Baston.Lib.Trace
import Mathlib.Algebra.Group.Nat.Defs

namespace Baston.Gateway

open Assoc

/-! ### Deferrals -/

/-- `Ok(())` lets the player in. -/
abbrev DeferralOutcome := Except String Unit

structure DeferralEntry where
  /-- The channel to the call that waits, until something has been sent. -/
  tx : Option Nat
  deferred : Bool
  kickReason : Option String
  lastUpdate : Option String
  deriving DecidableEq

/-- A call that has just been registered. -/
def DeferralEntry.new (tx : Nat) : DeferralEntry :=
  { tx := some tx, deferred := false, kickReason := none, lastUpdate := none }

/-- The deferrals in flight, and what has been sent over the channels of the calls. -/
structure DeferralRegistry where
  inner : Map UInt32 DeferralEntry := ∅
  sent : Map Nat DeferralOutcome := ∅

namespace DeferralRegistry

def register (d : DeferralRegistry) (source : UInt32) (tx : Nat) : DeferralRegistry :=
  { d with inner := d.inner.insert source (.new tx) }

def defer (d : DeferralRegistry) (source : UInt32) : DeferralRegistry :=
  { d with inner := d.inner.modify source fun e => { e with deferred := true } }

def update (d : DeferralRegistry) (source : UInt32) (message : String) : DeferralRegistry :=
  { d with inner := d.inner.modify source fun e => { e with lastUpdate := some message } }

def setKickReason (d : DeferralRegistry) (source : UInt32) (reason : String) :
    DeferralRegistry :=
  { d with inner := d.inner.modify source fun e => { e with kickReason := some reason } }

/-- What `done` makes of its reason: an empty one is none. -/
def outcomeOf (reason : Option String) : DeferralOutcome :=
  match reason.filter (· ≠ "") with
  | some r => .error r
  | none => .ok ()

def done (d : DeferralRegistry) (source : UInt32) (reason : Option String) : DeferralRegistry :=
  match (d.inner.lookup source).bind (·.tx) with
  | some tx =>
    { inner := d.inner.modify source fun e => { e with tx := none }
      sent := d.sent.insert tx (outcomeOf reason) }
  | none => d

/-- What `resolve_if_not_deferred` looks for before it calls `done`. -/
def shouldResolve (d : DeferralRegistry) (source : UInt32) : Bool :=
  match d.inner.lookup source with
  | some e => !e.deferred && e.tx.isSome
  | none => false

def remove (d : DeferralRegistry) (source : UInt32) : DeferralRegistry :=
  { d with inner := d.inner.erase source }

/-- What the end of a channel finds: nothing yet, an outcome, or that nobody can send any more. -/
inductive Received
  | pending
  | outcome (o : DeferralOutcome)
  | closed

def receive (d : DeferralRegistry) (rx : Nat) : Received :=
  match d.sent.lookup rx with
  | some o => .outcome o
  | none => if d.inner.entries.any fun e => e.2.tx = some rx then .pending else .closed

end DeferralRegistry

/-! ### Calls -/

/-- Where a call of `client_connect` is. -/
inductive ConnectPhase
  /-- It has its source and waits for its ticket to be looked at. -/
  | authenticating
  /-- It is registered, and the handlers run. -/
  | handlers
  /-- `resolve_if_not_deferred` has looked. -/
  | checked (shouldResolve : Bool)
  | waiting
  /-- The wait is over; without an outcome if it took too long or nobody could decide. -/
  | heard (outcome : Option DeferralOutcome)
  /-- The deferral has been removed. -/
  | removed (outcome : Option DeferralOutcome)
  /-- The player is in the directory, and its token not yet. -/
  | inserted (token : String)
  | answered
  /-- The client has hung up. -/
  | dropped
  deriving DecidableEq

structure ConnectCall where
  source : UInt32
  name : String
  identifiers : List String
  phase : ConnectPhase

/-- What a client is told. -/
inductive ConnectReply
  | accepted (token : String)
  | unauthenticated (error : String)
  | internalError
  /-- 403 -/
  | rejected (reason : String)
  /-- 408 -/
  | timedOut
  deriving DecidableEq

structure Connecting where
  players : PlayerDirectory := {}
  deferrals : DeferralRegistry := {}
  /-- How many calls have drawn a source. -/
  drawn : Nat := 0
  calls : Map Nat ConnectCall := ∅
  /-- The sources whose tokens are gone and whose players are about to go. -/
  leaving : List UInt32 := []

inductive ConnectOp
  /-- A call that has passed the gates. -/
  | initConnect (name : String)
  | authenticated (call : Nat) (result : Except String (List String))
  | scriptsFailed (call : Nat)
  /-- The handlers are through: `resolve_if_not_deferred` looks. -/
  | check (call : Nat)
  /-- It decides, if it has to. -/
  | resolve (call : Nat)
  /-- The wait is looked at; `elapsed` when its time is up. -/
  | poll (call : Nat) (elapsed : Bool)
  | remove (call : Nat)
  /-- Past `remove`: a player that may come in is put into the directory, with a token drawn
  for it. -/
  | conclude (call : Nat) (token : String)
  | bindToken (call : Nat)
  | hangUp (call : Nat)
  /-- What scripts do. -/
  | defer (source : UInt32)
  | update (source : UInt32) (message : String)
  | setKickReason (source : UInt32) (reason : String)
  | done (source : UInt32) (reason : String)
  /-- `PlayerDirectory::remove`: first the tokens, then the player. -/
  | dropTokens (source : UInt32)
  | dropPlayer (source : UInt32)
  /-- A token is shown, by a handshake or a call of `getConfiguration`. -/
  | present (token : String)

inductive ConnectAnswer
  | none
  | reply (r : ConnectReply)
  | source (source : Option UInt32)
  deriving DecidableEq

namespace Connecting

/-- A call goes on. -/
def goOn (s : Connecting) (n : Nat) (call : ConnectCall) (phase : ConnectPhase) : Connecting :=
  { s with calls := s.calls.insert n { call with phase } }

/-- A call goes on from the phase it has to be in; nothing happens without it. -/
def advance (s : Connecting) (n : Nat)
    (f : ConnectCall → Option (Connecting × ConnectAnswer)) :
    Option (Connecting × ConnectAnswer) :=
  (s.calls.lookup n).bind f

/-- The script side of `done`: `op_deferral_done` has an empty text for no reason. -/
def opDeferralDone (d : DeferralRegistry) (source : UInt32) (reason : String) :
    DeferralRegistry :=
  d.done source (if reason = "" then none else some reason)

/-- What the end of a wait finds. -/
def wake (s : Connecting) (n : Nat) (call : ConnectCall) (elapsed : Bool) : Connecting :=
  match s.deferrals.receive n with
  | .outcome o => s.goOn n call (.heard (some o))
  | .closed => s.goOn n call (.heard none)
  | .pending => if elapsed then s.goOn n call (.heard none) else s

/-- The end of a call, by the outcome it has. -/
def conclude (s : Connecting) (n : Nat) (call : ConnectCall) (token : String) :
    Option DeferralOutcome → Connecting × ConnectAnswer
  | some (.ok ()) =>
    ({ s.goOn n call (.inserted token) with
        players := s.players.insert
          { source := call.source, name := call.name, identifiers := call.identifiers } }, .none)
  | some (.error reason) => (s.goOn n call .answered, .reply (.rejected reason))
  | none => (s.goOn n call .answered, .reply .timedOut)

/-- The points where a call waits for something, and so may be dropped. -/
def awaits : ConnectPhase → Bool
  | .authenticating | .handlers | .waiting => true
  | _ => false

def step : ConnectOp → Connecting → Option (Connecting × ConnectAnswer)
  | .initConnect name, s =>
    let (players, source) := s.players.allocateSource
    some ({ s with
      players
      drawn := s.drawn + 1
      calls := s.calls.insert s.drawn
        { source, name, identifiers := [], phase := .authenticating } }, .none)
  | .authenticated n result, s => s.advance n fun call =>
    if call.phase ≠ .authenticating then none
    else match result with
      | .error e => some (s.goOn n call .answered, .reply (.unauthenticated e))
      | .ok identifiers =>
        some ({ s.goOn n { call with identifiers } .handlers with
          deferrals := s.deferrals.register call.source n }, .none)
  | .scriptsFailed n, s => s.advance n fun call =>
    if call.phase ≠ .handlers then none
    else some ({ s.goOn n call .answered with deferrals := s.deferrals.remove call.source },
      .reply .internalError)
  | .check n, s => s.advance n fun call =>
    if call.phase ≠ .handlers then none
    else some (s.goOn n call (.checked (s.deferrals.shouldResolve call.source)), .none)
  | .resolve n, s => s.advance n fun call =>
    match call.phase with
    | .checked true => some ({ s.goOn n call .waiting with
        deferrals := s.deferrals.done call.source none }, .none)
    | .checked false => some (s.goOn n call .waiting, .none)
    | _ => none
  | .poll n elapsed, s => s.advance n fun call =>
    if call.phase ≠ .waiting then none else some (s.wake n call elapsed, .none)
  | .remove n, s => s.advance n fun call =>
    match call.phase with
    | .heard outcome => some ({ s.goOn n call (.removed outcome) with
        deferrals := s.deferrals.remove call.source }, .none)
    | _ => none
  | .conclude n token, s => s.advance n fun call =>
    match call.phase with
    | .removed outcome => some (s.conclude n call token outcome)
    | _ => none
  | .bindToken n, s => s.advance n fun call =>
    match call.phase with
    | .inserted token => some ({ s.goOn n call .answered with
        players := s.players.bindToken token call.source }, .reply (.accepted token))
    | _ => none
  | .hangUp n, s => s.advance n fun call =>
    if awaits call.phase then some (s.goOn n call .dropped, .none) else none
  | .defer source, s => some ({ s with deferrals := s.deferrals.defer source }, .none)
  | .update source message, s =>
    some ({ s with deferrals := s.deferrals.update source message }, .none)
  | .setKickReason source reason, s =>
    some ({ s with deferrals := s.deferrals.setKickReason source reason }, .none)
  | .done source reason, s =>
    some ({ s with deferrals := opDeferralDone s.deferrals source reason }, .none)
  | .dropTokens source, s =>
    some ({ s with
      players := { s.players with
        sessionTokens := s.players.sessionTokens.retain fun _ t => t ≠ source }
      leaving := source :: s.leaving }, .none)
  | .dropPlayer source, s =>
    if source ∈ s.leaving then
      some ({ s with
        players := { s.players with players := s.players.players.erase source }
        leaving := s.leaving.erase source }, .none)
    else none
  | .present token, s => some (s, .source (s.players.sourceForToken token))

end Connecting

end Baston.Gateway

/-
The authentication service (`auth/mod.rs`).

A ticket is verified with a cached key and then looked up in the set of those already used.
Both clocks run together, so a call has one time: the nanoseconds since the epoch.
-/
import Baston.Gateway.Ticket
import Mathlib.Data.Finset.Insert

namespace Baston.Gateway

variable {Public Private : Type}

/-! ### Time -/

/-- A time whose seconds fit 64 bits. -/
structure Moment where
  nanos : Nat
  fits : nanos / 10 ^ 9 < 2 ^ 64

/-- `duration_since(UNIX_EPOCH).as_secs()`. -/
def Moment.secs (t : Moment) : UInt64 := UInt64.ofNat (t.nanos / 10 ^ 9)

/-- How long a fetched key is trusted before a failed verification may force a refresh. -/
def PUBKEY_MAX_AGE : Nat := 5 * 60 * 10 ^ 9

/-- How often the set of used tickets is collected. -/
def TICKET_GC_INTERVAL : Nat := 30 * 60 * 10 ^ 9

/-! ### State -/

structure CachedPubkey (Public : Type) where
  key : Public
  fetchedAt : Nat

structure UsedTickets where
  /-- The expiry and the guid of each ticket already seen. -/
  seen : Finset (UInt64 × UInt64)
  nextGc : Nat

structure AuthService (Public : Type) where
  pubkey : Option (CachedPubkey Public)
  usedTickets : UsedTickets

/-- `AuthService::new`. -/
def AuthService.new (now : Moment) : AuthService Public where
  pubkey := none
  usedTickets := { seen := ∅, nextGc := now.nanos + TICKET_GC_INTERVAL }

/-! ### Players -/

structure ValidatedPlayer where
  license : List Char
  steam : Option (List Char)
  ip : List Char
  identifiers : List (List Char)

/-- `str::parse::<u64>`: a sign if there is one, then digits. -/
def parseU64 (text : List Char) : Option UInt64 :=
  let digits := match text with
    | '+' :: rest => rest
    | _ => text
  if digits ≠ [] ∧ digits.all Char.isDigit then
    let value := digits.foldl (fun acc c => 10 * acc + (c.toNat - '0'.toNat)) 0
    if value < 2 ^ 64 then some (UInt64.ofNat value) else none
  else none

/-- `hex::encode`. -/
def hexEncode (bytes : List UInt8) : List Char :=
  bytes.flatMap fun b => [Nat.digitChar (b.toNat / 16), Nat.digitChar (b.toNat % 16)]

/-- The player of a ticket.  `tk` finds the texts in the `tk` array of a JSON text, if it is one
and has one. -/
def buildPlayer (tk : List Char → List (List Char)) (ticket : TicketData) (ip : List Char) :
    ValidatedPlayer :=
  let license := (ticket.entitlementHash.map fun h => "license:".toList ++ hexEncode h.1).getD []
  let identifiers := (if license = [] then [] else [license])
    ++ (ticket.extraJson.map tk).getD [] ++ ["ip:".toList ++ ip]
  { license, ip, identifiers
    steam := identifiers.find? fun id => id.take 6 = "steam:".toList }

/-! ### Validation -/

/-- A call: its arguments, its time, and what the endpoint answers if it is asked. -/
structure TicketCall (Public : Type) where
  guid : List Char
  ticketB64 : List Char
  ip : List Char
  now : Moment
  fetched : Except AuthError Public

/-- The cached key, or a fetched one; a forced refresh discards an old key first. -/
def getPubkey (cached : Option (CachedPubkey Public)) (forceRefresh : Bool) (now : Nat)
    (fetched : Except AuthError Public) :
    Option (CachedPubkey Public) × Except AuthError Public :=
  let fetch := match fetched with
    | .ok key => (some { key, fetchedAt := now }, .ok key)
    | .error e => (cached, .error e)
  match cached with
  | some entry =>
    if ¬ (forceRefresh ∧ PUBKEY_MAX_AGE < now - entry.fetchedAt) then (cached, .ok entry.key)
    else fetch
  | none => fetch

/-- A signature that fails may be one of a newer key: it is looked at once more. -/
def verifyWithKeyRefresh (prims : Primitives Public Private)
    (cached : Option (CachedPubkey Public)) (c : TicketCall Public) (guid : UInt64) :
    Checked (Option (CachedPubkey Public) × Except AuthError TicketData) :=
  match getPubkey cached false c.now.nanos c.fetched with
  | (cached, .error e) => return (cached, .error e)
  | (cached, .ok key) => do
    match ← parseAndVerify prims c.ticketB64 guid key c.now.secs with
    | .error .invalidSignature =>
      match getPubkey cached true c.now.nanos c.fetched with
      | (cached, .error e) => return (cached, .error e)
      | (cached, .ok key) =>
        return (cached, ← parseAndVerify prims c.ticketB64 guid key c.now.secs)
    | other => return (cached, other)

/-- Forget all tickets every so often, and refuse those that are not new. -/
def checkReuse (used : UsedTickets) (now : Nat) (ticket : TicketData) :
    UsedTickets × Except AuthError Unit :=
  let used := if used.nextGc < now then { seen := ∅, nextGc := now + TICKET_GC_INTERVAL } else used
  if (ticket.expiryUnixSecs, ticket.guid) ∈ used.seen then (used, .error .ticketReused)
  else ({ used with seen := insert (ticket.expiryUnixSecs, ticket.guid) used.seen }, .ok ())

def validateTicket (prims : Primitives Public Private) (tk : List Char → List (List Char))
    (c : TicketCall Public) (s : AuthService Public) :
    Checked (AuthService Public × Except AuthError ValidatedPlayer) := do
  let guid := (parseU64 c.guid).getD 0
  let (pubkey, verified) ← verifyWithKeyRefresh prims s.pubkey c guid
  match verified with
  | .error e => return ({ s with pubkey }, .error e)
  | .ok ticket =>
    match checkReuse s.usedTickets c.now.nanos ticket with
    | (usedTickets, .error e) => return ({ pubkey, usedTickets }, .error e)
    | (usedTickets, .ok ()) => return ({ pubkey, usedTickets }, .ok (buildPlayer tk ticket c.ip))

/-- One call; `none` when it breaks. -/
def AuthService.step (prims : Primitives Public Private) (tk : List Char → List (List Char))
    (c : TicketCall Public) (s : AuthService Public) :
    Option (AuthService Public × Except AuthError ValidatedPlayer) :=
  (validateTicket prims tk c s).toOption

end Baston.Gateway

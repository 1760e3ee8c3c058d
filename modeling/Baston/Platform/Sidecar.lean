/-
The sidecar: the shim inside it (`resources/baston-cfx-shim/server.lua`) and its file-drop channel
(`baston-cfx-platform/src/sidecar.rs`).

A resource in a genuine server answers two questions about it: what the component says of the
licence, and what a resource file reads as once the component has decrypted it.  Its Lua has no
base64 of its own, so it spells the bytes as a text of ones and zeros and reads that six at a
time.

Two files are all that the two sides share.  A call writes `request.json.tmp` and renames it
into place; the shim looks there every few milliseconds and answers in `response.json`, which it
opens first and fills then, so that a reader may find the start of a text.  Any number of calls
may be under way and any of them may be given up; what orders them is `call_lock`, and nothing
orders the two sides.
-/
import Mathlib.Data.List.Basic
import Baston.Lib.Map
import Baston.Lib.Trace
import Mathlib.Algebra.Group.Nat.Defs

namespace Baston.Platform

/-- A text, as its characters. -/
abbrev Text := List Char

/-- A JSON document.  The only numbers that are sent are ids. -/
inductive Json
  | null
  | bool (b : Bool)
  | number (n : Nat)
  | string (s : Text)
  | array (items : List Json)
  | object (fields : List (String × Json))

namespace Json

/-- `Value::get`, and a field of a Lua table. -/
def get? (v : Json) (key : String) : Option Json :=
  match v with
  | .object fields => fields.lookup key
  | _ => none

/-- `Map::insert`, and setting a field of a Lua table. -/
def insert (v : Json) (key : String) (value : Json) : Json :=
  match v with
  | .object fields => .object ((key, value) :: fields.filter fun f => f.1 ≠ key)
  | v => v

def asStr : Json → Option Text
  | .string s => some s
  | _ => none

def asBool : Json → Option Bool
  | .bool b => some b
  | _ => none

/-- `as_u64`. -/
def asU64 : Json → Option Nat
  | .number n => if n < 2 ^ 64 then some n else none
  | _ => none

def asArray : Json → Option (List Json)
  | .array items => some items
  | _ => none

end Json

/-! ### Base64 -/

def B64 : Text := "ABCDEFGHIJKLMNOPQRSTUVWXYZabcdefghijklmnopqrstuvwxyz0123456789+/".toList

/-- `%d` of a pattern. -/
def isDigit (c : Char) : Bool := '0' ≤ c && c ≤ '9'

/-- A byte in ones and zeros: what the first `gsub` puts for it. -/
def bitsOf (b : Nat) : Text :=
  [8, 7, 6, 5, 4, 3, 2, 1].map fun i => if b % 2 ^ i - b % 2 ^ (i - 1) > 0 then '1' else '0'

/-- The number that six characters spell. -/
def sextet (x : Text) : Nat :=
  [1, 2, 3, 4, 5, 6].foldl (fun c i => c + if x[i - 1]? = some '1' then 2 ^ (6 - i) else 0) 0

/-- What the second `gsub` puts for a match. -/
def sextetDigit (x : Text) : Text :=
  if x.length < 6 then [] else (B64.drop (sextet x)).take 1

/-- `gsub` with the pattern `%d%d%d?%d?%d?%d?`, behind the characters a match has taken: two
figures and up to four more at a time, and anything else as it stands. -/
def gsubFigures (put : Text → Text) : Nat → Text → Text
  | _, [] => []
  | taken + 1, _ :: rest => gsubFigures put taken rest
  | 0, c :: rest =>
    let found := ((c :: rest).take 6).takeWhile isDigit
    if found.length < 2 then c :: gsubFigures put 0 rest
    else put found ++ gsubFigures put (found.length - 1) rest

/-- `({ '', '==', '=' })[n + 1]`. -/
def paddingFor : Nat → Text
  | 1 => ['=', '=']
  | 2 => ['=']
  | _ => []

def base64encode (data : List UInt8) : Text :=
  gsubFigures sextetDigit 0 ((data.flatMap fun x => bitsOf x.toNat) ++ ['0', '0', '0', '0'])
    ++ paddingFor (data.length % 3)

/-! ### The two operations -/

/-- What the server around the shim shows it. -/
structure World where
  /-- `sv_licenseKeyToken`. -/
  token : Text
  /-- `LoadResourceFile`, which may raise an error. -/
  loadResourceFile : Text → Text → Except Text (Option (List UInt8))
  /-- `tostring`, which spells a table by its address. -/
  tostring : Json → Text

def emptyToken : Text :=
  ("sv_licenseKeyToken empty: licence key missing, invalid, " ++
    "or not yet validated by the CFX component").toList

def licenseStatus (w : World) : Json :=
  let valid := w.token ≠ []
  .object ([("valid", .bool valid), ("banned", .bool false)]
    ++ (if valid then [("token", .string w.token)] else [])
    ++ [("entitlements", .object [("features", .array [])])]
    ++ if valid then [] else [("reason", .string emptyToken)])

/-- A reply that is an error. -/
def failure (text : Text) : Json := .object [("error", .string text)]

/-- The reply for what a file reads as. -/
def fileReply (resource file : Text) : Option (List UInt8) → Json
  | none => failure ("file not found or unreadable: ".toList ++ resource ++ '/' :: file)
  | some data => .object [("data", .string (base64encode data))]

/-- `decrypt`; the component has decrypted the file on its way in. -/
def decrypt (w : World) (req : Json) : Except Text Json :=
  match req.get? "resource", req.get? "file" with
  | some (.string resource), some (.string file) =>
    (w.loadResourceFile resource file).map (fileReply resource file)
  | _, _ => .ok (failure "decrypt request missing resource/file".toList)

/-- The operation a request names; a missing one is `decrypt`. -/
def opOf (req : Json) : Json :=
  match req.get? "op" with
  | none | some .null | some (.bool false) => .string "decrypt".toList
  | some op => op

/-- `handle`, without the id. -/
def result (w : World) (req : Json) : Except Text Json :=
  match (opOf req).asStr with
  | some op =>
    if op = "license_status".toList then return licenseStatus w
    else if op = "decrypt".toList then decrypt w req
    else return failure ("unknown op: ".toList ++ op)
  | none => return failure ("unknown op: ".toList ++ w.tostring (opOf req))

/-- The reply to the request with an id: `handle` under `pcall`. -/
def respond (w : World) (id : Nat) (req : Json) : Json :=
  match result w req with
  | .ok reply => reply.insert "id" (.number id)
  | .error text =>
    .object [("id", .number id), ("error", .string ("shim handler error: ".toList ++ text))]

/-- The id of a decoded request, if the shim is to take it up. -/
def takesUp (lastId : Nat) (req : Json) : Option Nat :=
  match req.get? "id" with
  | some (.number id) => if lastId < id then some id else none
  | _ => none

/-! ## The channel -/

open Assoc

inductive CfxPlatformError
  | sidecarIo (text : Text)
  | sidecarDied (status : Text)
  | sidecarRequestTimeout
  | sidecarCancelled
  | licenseQueryFailed (text : Text)

/-- The double nearest to a natural number, which is a natural number again: 53 bits, and the
even one of two that are as near. -/
def nearestDouble (n : Nat) : Nat :=
  let unit := 2 ^ (n.log2 + 1 - 53)
  let whole := n / unit
  let rest := n % unit
  if 2 * rest > unit ∨ (2 * rest = unit ∧ whole % 2 = 1) then (whole + 1) * unit else whole * unit

/-- `as_f64`. -/
def Json.asF64 : Json → Option Nat
  | .number n => some (nearestDouble n)
  | _ => none

/-- Whether a reply carries an id, as an integer or as a float. -/
def carriesId (reply : Json) (id : Nat) : Bool :=
  match reply.get? "id" with
  | some v => v.asU64 = some id || v.asF64 = some (nearestDouble id)
  | none => false

/-- What a reader finds in `response.json`. -/
inductive Contents
  /-- The start of an object's text; no parser takes it. -/
  | torn
  | whole (reply : Json)

/-- How far the call that has the lock has come: the step it takes next. -/
inductive Phase
  /-- `seq.fetch_add`. -/
  | number
  | writeTemporary (id : Nat)
  | rename (id : Nat)
  /-- Whether to go on, at the top of a turn of the loop. -/
  | check (id : Nat)
  | read (id : Nat)
  /-- The end of a turn that has found no reply. -/
  | deadline (id : Nat)
  /-- Remove the response that was read. -/
  | remove (id : Nat) (reply : Json)

/-- The call inside `call_lock`. -/
structure Holder where
  call : Nat
  op : Json
  phase : Phase

/-- How far the shim's loop has come. -/
inductive ShimPhase
  | waiting
  /-- Open the response file. -/
  | opening (id : Nat) (reply : Json)
  | writing (id : Nat) (reply : Json)
  /-- `lastId = req.id`. -/
  | marking (id : Nat)

/-- The sidecar as one process holds it, its two files, and the shim in the other. -/
structure Sidecar where
  seq : Nat := 0
  /-- Calls that wait for `call_lock`. -/
  waiting : Map Nat Json := ∅
  holder : Option Holder := none
  nextCall : Nat := 0
  /-- The exit status of the child, once it is gone. -/
  exited : Option Text := none
  /-- `request.json.tmp`. -/
  temporary : Option Json := none
  /-- `request.json`. -/
  request : Option Json := none
  /-- `response.json`. -/
  response : Option Contents := none
  shim : ShimPhase := .waiting
  lastId : Nat := 0
  world : World

/-- What a step meets. -/
inductive Luck
  | fine
  | ioError (text : Text)
  | cancelled
  /-- The deadline has passed. -/
  | timedOut

/-- One atomic step. -/
inductive SidecarOp
  /-- A thread calls `request_with_cancellation`. -/
  | request (op : Json)
  | lock (call : Nat)
  /-- The call inside the lock takes its next step. -/
  | advance (luck : Luck)
  /-- The shim takes its next step. -/
  | shim (luck : Luck)
  /-- Something changes in the server around the shim. -/
  | world (w : World)
  | exit (status : Text)

inductive SidecarAnswer
  | none
  /-- The call has returned. -/
  | returned (call : Nat) (op : Json) (result : Except CfxPlatformError Json)

/-- The request that is sent for an operation. -/
def sent (op : Json) (id : Nat) : Json := op.insert "id" (.number id)

namespace Sidecar

/-- The call inside the lock goes on to a phase. -/
def goOn (s : Sidecar) (h : Holder) (phase : Phase) : Sidecar × SidecarAnswer :=
  ({ s with holder := some { h with phase := phase } }, .none)

/-- The call inside the lock returns. -/
def finish (s : Sidecar) (h : Holder) (result : Except CfxPlatformError Json) :
    Sidecar × SidecarAnswer :=
  ({ s with holder := none }, .returned h.call h.op result)

/-- The next step of the call inside the lock. -/
def next (s : Sidecar) (h : Holder) (luck : Luck) : Sidecar × SidecarAnswer :=
  match h.phase with
  | .number =>
    let id := (s.seq + 1) % 2 ^ 64
    { s with seq := id }.goOn h (.writeTemporary id)
  | .writeTemporary id =>
    match luck with
    | .ioError text => s.finish h (.error (.sidecarIo ("writing request: ".toList ++ text)))
    | _ => { s with temporary := some (sent h.op id) }.goOn h (.rename id)
  | .rename id =>
    match luck with
    | .ioError text => s.finish h (.error (.sidecarIo ("writing request: ".toList ++ text)))
    | _ => { s with request := s.temporary, temporary := none }.goOn h (.check id)
  | .check id =>
    match luck, s.exited with
    | .cancelled, _ => s.finish h (.error .sidecarCancelled)
    | _, some status => s.finish h (.error (.sidecarDied status))
    | _, none => s.goOn h (.read id)
  | .read id =>
    match luck, s.response with
    | .ioError _, _ => s.goOn h (.deadline id)
    | _, some (.whole reply) =>
      s.goOn h (if carriesId reply id then .remove id reply else .deadline id)
    | _, _ => s.goOn h (.deadline id)
  | .deadline id =>
    match luck with
    | .timedOut => s.finish h (.error .sidecarRequestTimeout)
    | _ => s.goOn h (.check id)
  | .remove _ reply =>
    match luck with
    | .ioError text =>
      s.finish h (.error (.sidecarIo ("removing consumed response: ".toList ++ text)))
    | _ => { s with response := none }.finish h (.ok reply)

/-- The next step of the shim's loop. -/
def shimNext (s : Sidecar) (luck : Luck) : Sidecar :=
  match s.shim with
  | .waiting =>
    match luck, s.request with
    | .fine, some req =>
      match takesUp s.lastId req with
      | some id => { s with shim := .opening id (respond s.world id req) }
      | none => s
    -- nothing there, or it could not be opened
    | _, _ => s
  | .opening id reply =>
    match luck with
    | .ioError _ => { s with shim := .marking id }
    | _ => { s with response := some .torn, shim := .writing id reply }
  | .writing id reply =>
    match luck with
    -- `SaveResourceFile` reports it, and nobody looks
    | .ioError _ => { s with shim := .marking id }
    | _ => { s with response := some (.whole reply), shim := .marking id }
  | .marking id => { s with lastId := id, shim := .waiting }

/-- One atomic step; `none` when there is no such call, or no child to take it. -/
def step : SidecarOp → Sidecar → Option (Sidecar × SidecarAnswer)
  | .request op, s =>
    some ({ s with waiting := s.waiting.insert s.nextCall op, nextCall := s.nextCall + 1 }, .none)
  | .lock call, s =>
    match s.waiting.lookup call, s.holder with
    | none, _ => none
    -- blocked
    | some _, some _ => some (s, .none)
    | some op, none =>
      some ({ s with holder := some ⟨call, op, .number⟩, waiting := s.waiting.erase call }, .none)
  | .advance luck, s => s.holder.map fun h => s.next h luck
  | .shim luck, s =>
    match s.exited with
    | none => some (s.shimNext luck, .none)
    | some _ => none
  | .world w, s => some ({ s with world := w }, .none)
  | .exit status, s =>
    match s.exited with
    | none => some ({ s with exited := some status }, .none)
    | some _ => none

/-- A sidecar that has just been launched, its channel reset. -/
def launch (w : World) : Sidecar := { world := w }

end Sidecar

end Baston.Platform

/-
What the server has its sidecar for: escrowed scripts (`script_decryptor.rs` of the core,
`decryptor.rs` of the escrow plugin) and the licence (`license.rs` of the core and of the platform,
and what `cfx.rs` makes of them).

The loader hands every script through a decryptor.  A plain file comes back as it is and nothing
is asked of anybody; an encrypted one is asked for by its name, and what comes back is what the
server around the shim reads in its place.

The oracle asks the shim until the component has a token, up to a budget of time.  Only a verdict
with a token lets the server boot.
-/
import Baston.Gateway.Ticket
import Baston.Platform.Sidecar
import Mathlib.Algebra.Group.Nat.Defs

namespace Baston.Platform

/-- `FXAP`. -/
def CFX_MAGIC : List UInt8 := [0x46, 0x58, 0x41, 0x50]

/-- `is_cfx_encrypted`. -/
def isCfxEncrypted (bytes : List UInt8) : Bool :=
  CFX_MAGIC.length < bytes.length && CFX_MAGIC.isPrefixOf bytes

/-- How an error of the platform is spelled. -/
def CfxPlatformError.text : CfxPlatformError → Text
  | .sidecarIo text => "sidecar I/O error: ".toList ++ text
  | .sidecarDied status => "sidecar process died: ".toList ++ status
  | .sidecarRequestTimeout => "sidecar request timed out".toList
  | .sidecarCancelled => "sidecar operation was cancelled".toList
  | .licenseQueryFailed text => "licence query to the CFX component failed: ".toList ++ text

inductive EscrowPluginError
  | platform (e : CfxPlatformError)
  | sidecarProtocol (text : Text)
  | sidecarDecryptFailed (text : Text)

def EscrowPluginError.text : EscrowPluginError → Text
  | .platform e => e.text
  | .sidecarProtocol text => "sidecar protocol error: ".toList ++ text
  | .sidecarDecryptFailed text => "sidecar decrypt failed: ".toList ++ text

inductive DecryptError
  | noDecryptorAvailable
  | decryptionFailed (resource file reason : Text)
  | entitlementDenied (resource : Text)

/-- What a caller does: it is done, or it makes a request and goes on with the reply. -/
inductive Asking (α : Type)
  | done (a : α)
  | ask (op : Json) (goOn : Except CfxPlatformError Json → α)

/-- `PlainDecryptor::decrypt`. -/
def PlainDecryptor.decrypt (bytes : List UInt8) : Except DecryptError (List UInt8) :=
  if isCfxEncrypted bytes then .error .noDecryptorAvailable else .ok bytes

namespace SidecarDecryptor

variable (b64 : Text → Except Text (List UInt8))

/-- The operation for a file. -/
def decryptOp (resource file : Text) : Json :=
  .object [("op", .string "decrypt".toList), ("resource", .string resource),
    ("file", .string file)]

/-- The bytes a reply carries, given the base64 decoder that is linked. -/
def readReply (reply : Except CfxPlatformError Json) : Except EscrowPluginError (List UInt8) :=
  match reply with
  | .error e => .error (.platform e)
  | .ok value =>
    match (value.get? "data").bind Json.asStr with
    | some data =>
      match b64 data with
      | .ok bytes => .ok bytes
      | .error text => .error (.sidecarProtocol text)
    | none =>
      .error (.sidecarDecryptFailed
        (((value.get? "error").bind Json.asStr).getD "unknown error".toList))

/-- `SidecarDecryptor::decrypt`. -/
def decrypt (resource file : Text) (bytes : List UInt8) :
    Asking (Except DecryptError (List UInt8)) :=
  if isCfxEncrypted bytes then
    .ask (decryptOp resource file) fun reply =>
      match readReply b64 reply with
      | .ok plain => .ok plain
      | .error e => .error (.decryptionFailed resource file e.text)
  else .done (.ok bytes)

end SidecarDecryptor

/-! ## The licence -/

/-- `LicenseKeyToken`: a text with something in it. -/
def LicenseKeyToken : Type := { text : Text // text ≠ [] }

/-- `LicenseKeyToken::new`. -/
def LicenseKeyToken.new (value : Text) : Option LicenseKeyToken :=
  if h : Gateway.trim value ≠ [] then some ⟨Gateway.trim value, h⟩ else none

structure Entitlements where
  maxSlots : Option Nat := none
  features : List Text := []

structure LicenseStatus where
  valid : Bool
  banned : Bool
  token : Option LicenseKeyToken
  entitlements : Entitlements
  reason : Option Text

namespace LicenseStatus

def invalid (reason : Text) : LicenseStatus :=
  { valid := false, banned := false, token := none, entitlements := {}, reason := some reason }

def isAuthenticated (s : LicenseStatus) : Bool := s.valid && !s.banned && s.token.isSome

end LicenseStatus

/-- `parse_status`. -/
def parseStatus (value : Json) : Except CfxPlatformError LicenseStatus :=
  match (value.get? "error").bind Json.asStr with
  | some text => .error (.licenseQueryFailed text)
  | none => .ok
    { valid := ((value.get? "valid").bind Json.asBool).getD false
      banned := ((value.get? "banned").bind Json.asBool).getD false
      token := ((value.get? "token").bind Json.asStr).bind LicenseKeyToken.new
      entitlements :=
        match value.get? "entitlements" with
        | none => {}
        | some ent =>
          { maxSlots := (ent.get? "max_slots").bind Json.asU64 |>.filter (· < 2 ^ 32)
            features := (((ent.get? "features").bind Json.asArray).getD []).filterMap Json.asStr }
      reason := (value.get? "reason").bind Json.asStr }

inductive BootDecision
  | allow
  | deny (reason : Text)

/-- `boot_decision`. -/
def bootDecision (s : LicenseStatus) : BootDecision :=
  if s.banned then
    .deny (s.reason.getD "licence banned or revoked (reported by the CFX component)".toList)
  else if !s.valid then
    .deny (s.reason.getD "licence not valid (reported by the CFX component)".toList)
  else if s.token.isNone then
    .deny "licence accepted without an authenticated CFX token".toList
  else .allow

inductive CfxBootstrapError
  | licenceDenied (reason : Text)
  | platform (e : CfxPlatformError)

/-- `authenticated_token`. -/
def authenticatedToken (s : LicenseStatus) : Except CfxBootstrapError LicenseKeyToken :=
  match bootDecision s with
  | .deny reason => .error (.licenceDenied reason)
  | .allow =>
    match s.token with
    | some token => .ok token
    | none => .error (.licenceDenied
        "the official broker returned no authenticated token".toList)

/-- The operation the oracle asks for. -/
def licenseOp : Json := .object [("op", .string "license_status".toList)]

/-- What one turn of the oracle's loop meets. -/
structure Turn where
  /-- The flag, at the top of the turn. -/
  cancelled : Bool
  /-- What the request returned. -/
  reply : Except CfxPlatformError Json
  /-- Whether the deadline has passed when an error is looked at. -/
  spent : Bool
  /-- Whether it has passed at the end of the turn. -/
  late : Bool
  /-- The flag, while the loop sleeps. -/
  woken : Bool

def noVerdict : Text :=
  "no licence verdict from the CFX component within the startup budget".toList

/-- `query_once`, on the reply. -/
def verdictOf (reply : Except CfxPlatformError Json) : Except CfxPlatformError LicenseStatus :=
  match reply with
  | .ok value => parseStatus value
  | .error e => .error e

/-- What a turn makes of its reply: the last verdict to go on with, or what the loop returns. -/
def Turn.look (turn : Turn) (last : Option LicenseStatus) :
    Option LicenseStatus ⊕ Except CfxPlatformError LicenseStatus :=
  if turn.cancelled then .inr (.error .sidecarCancelled)
  else
    match verdictOf turn.reply with
    | .ok status =>
      if status.banned then .inr (.ok status)
      else if status.isAuthenticated then .inr (.ok status)
      else .inl (some status)
    | .error e => if turn.spent then .inr (.error e) else .inl last

/-- `query_with_cancellation`, from the last verdict on; `none` while the turns so far have not
ended it. -/
def query (last : Option LicenseStatus) :
    List Turn → Option (Except CfxPlatformError LicenseStatus)
  | [] => none
  | turn :: rest =>
    match turn.look last with
    | .inr result => some result
    | .inl last =>
      if turn.late then some (.ok (last.getD (.invalid noVerdict)))
      else if turn.woken then some (.error .sidecarCancelled)
      else query last rest

/-- `start_and_authenticate`, once the sidecar is up. -/
def authenticate (turns : List Turn) : Option (Except CfxBootstrapError LicenseKeyToken) :=
  (query none turns).map fun
    | .ok status => authenticatedToken status
    | .error e => .error (.platform e)

end Baston.Platform

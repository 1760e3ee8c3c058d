/-
`cfxTicket2` tickets (`auth/ticket.rs`).

A ticket is bytes with two signatures inside, the second over everything before it.  Base64,
SHA-1 and RSA are what the caller hands in; every slice and every sum of offsets is one that
can fail.
-/
import Baston.Lib.Checked
import Baston.Rage.Packet

namespace Baston.Gateway

open Checked Baston.Rage

/-! ### Text -/

/-- `char::is_whitespace`. -/
def isWhitespace (c : Char) : Bool :=
  (0x9 ≤ c.toNat && c.toNat ≤ 0xd) || c.toNat = 0x20 || c.toNat = 0x85 || c.toNat = 0xa0
    || c.toNat = 0x1680 || (0x2000 ≤ c.toNat && c.toNat ≤ 0x200a) || c.toNat = 0x2028
    || c.toNat = 0x2029 || c.toNat = 0x202f || c.toNat = 0x205f || c.toNat = 0x3000

/-- `str::trim`. -/
def trim (text : List Char) : List Char :=
  ((text.dropWhile isWhitespace).reverse.dropWhile isWhitespace).reverse

/-- `str::as_bytes`. -/
def utf8 (text : List Char) : List UInt8 := text.flatMap String.utf8EncodeChar

/-- A byte that continues a character. -/
def isContinuation (b : UInt8) : Bool := b &&& 0xC0 = 0x80

/-- The second byte that may follow a first one. -/
def mayFollow (first second : UInt8) : Bool :=
  if first = 0xE0 then 0xA0 ≤ second && second ≤ 0xBF
  else if first = 0xED then 0x80 ≤ second && second ≤ 0x9F
  else if first = 0xF0 then 0x90 ≤ second && second ≤ 0xBF
  else if first = 0xF4 then 0x80 ≤ second && second ≤ 0x8F
  else isContinuation second

/-- How many bytes one replacement character stands for, where no character starts. -/
def invalidLength (first : UInt8) (rest : List UInt8) : Nat :=
  let at_ (i : Nat) : UInt8 := rest.getD i 0
  if 0xE0 ≤ first ∧ first ≤ 0xF4 ∧ mayFollow first (at_ 0) then
    if 0xF0 ≤ first ∧ isContinuation (at_ 1) then 3 else 2
  else 1

/-- The characters of bytes, behind those that belong to the one before. -/
def lossyChars : Nat → List UInt8 → List Char
  | _, [] => []
  | skip + 1, _ :: rest => lossyChars skip rest
  | 0, first :: rest =>
    match (first :: rest).toByteArray.utf8DecodeChar? 0 with
    | some c => c :: lossyChars (c.utf8Size - 1) rest
    | none => '\uFFFD' :: lossyChars (invalidLength first rest - 1) rest

/-- `String::from_utf8_lossy`. -/
def fromUtf8Lossy (bytes : List UInt8) : List Char := lossyChars 0 bytes

/-! ### What is outside -/

/-- Base64, SHA-1 and RSA, as the crates that are linked. -/
structure Primitives (Public Private : Type) where
  decode : List Char → Option (List UInt8)
  encode : List UInt8 → List Char
  sha1 : List UInt8 → List UInt8
  /-- Whether the signature of a digest is good. -/
  verify : Public → List UInt8 → List UInt8 → Bool
  sign : Private → List UInt8 → List UInt8

variable {Public Private : Type}

/-! ### Parsing -/

inductive AuthError
  | missingTicket
  | malformedTicket (reason : String)
  | ticketExpired
  | guidMismatch
  | ticketReused
  | invalidSignature
  | pubkeyFetch (detail : String)
  | pubkeyParse (detail : String)
  deriving DecidableEq

def INNER_LENGTH : Nat := 16
def SIG_LENGTH : Nat := 128
/-- Header, inner block, the length of its signature, and the signature. -/
def BASE_LENGTH : Nat := 4 + INNER_LENGTH + 4 + SIG_LENGTH

/-- `[u8; n]`. -/
abbrev Bytes (n : Nat) := { bytes : List UInt8 // bytes.length = n }

structure TicketData where
  guid : UInt64
  expiryUnixSecs : UInt64
  /-- The `license:` identifier is its hexadecimal spelling. -/
  entitlementHash : Option (Bytes 20)
  extraJson : Option (List Char)
  deriving DecidableEq

/-- A slice as an array of its length. -/
def toArray (n : Nat) (bytes : List UInt8) : Checked (Bytes n) :=
  if h : bytes.length = n then .ok ⟨bytes, h⟩ else .error .bounds

def readU32 (data : List UInt8) (offset : Nat) : Checked UInt32 := do
  let bytes ← toArray 4 (← slice data offset (← add offset 4))
  return u32FromLe bytes.1

def readU64 (data : List UInt8) (offset : Nat) : Checked UInt64 := do
  let bytes ← toArray 8 (← slice data offset (← add offset 8))
  return u64FromLe bytes.1

/-- What is signed of a payload. -/
def signedDigest (prims : Primitives Public Private) (payload : List UInt8) : List UInt8 :=
  prims.sha1 (2 :: prims.sha1 payload)

def verifySig (prims : Primitives Public Private) (pubkey : Public)
    (payload sig : List UInt8) : Bool :=
  prims.verify pubkey (signedDigest prims payload) sig

/-- The first twenty bytes of the extra data, if there are as many. -/
def readHash (extra : List UInt8) : Checked (Option (Bytes 20)) :=
  if 20 ≤ extra.length then do
    return some (← toArray 20 (← slice extra 0 20))
  else return none

/-- The text behind them, if all of it is there. -/
def readJson (extra : List UInt8) : Checked (Option (List Char)) :=
  if 24 ≤ extra.length then do
    let jsonLen := (← readU32 extra 20).toNat
    let stop ← add 24 jsonLen
    if stop ≤ extra.length then
      return some (fromUtf8Lossy (← slice extra 24 stop))
    else return none
  else return none

/-- The block behind the first signature (`VerifyTicketEx`). -/
def parseExtended (prims : Primitives Public Private) (pubkey : Public) (data : List UInt8)
    (guid expiry : UInt64) : Checked (Except AuthError TicketData) := do
  let extraLen := (← readU32 data BASE_LENGTH).toNat
  let extraStart ← add BASE_LENGTH 4
  let sig2LenOff ← add extraStart extraLen
  let sig2Start ← add sig2LenOff 4
  let sig2Stop ← add sig2Start SIG_LENGTH
  if data.length < sig2Stop then return .error (.malformedTicket "truncated extra block")
  else if (← readU32 data sig2LenOff).toNat ≠ SIG_LENGTH then
    return .error (.malformedTicket "invalid signature #2 length")
  else if ¬ verifySig prims pubkey (← slice data 4 sig2LenOff) (← slice data sig2Start sig2Stop)
  then return .error .invalidSignature
  else
    let extra ← slice data extraStart sig2LenOff
    let entitlementHash ← readHash extra
    let extraJson ← readJson extra
    return .ok { guid, expiryUnixSecs := expiry, entitlementHash, extraJson }

def parseAndVerify (prims : Primitives Public Private) (ticketB64 : List Char) (guid : UInt64)
    (pubkey : Public) (nowUnixSecs : UInt64) : Checked (Except AuthError TicketData) :=
  match prims.decode (trim ticketB64) with
  | none => return .error (.malformedTicket "invalid base64")
  | some data => do
    if data.length < BASE_LENGTH + 4 then return .error (.malformedTicket "ticket too short")
    else if (← readU32 data 0).toNat ≠ INNER_LENGTH then
      return .error (.malformedTicket "invalid inner length")
    else
      let ticketGuid ← readU64 data 4
      let expiry ← readU64 data 12
      if expiry < nowUnixSecs then return .error .ticketExpired
      else if ticketGuid ≠ guid then return .error .guidMismatch
      else if (← readU32 data 20).toNat ≠ SIG_LENGTH then
        return .error (.malformedTicket "invalid signature #1 length")
      else if ¬ verifySig prims pubkey (← slice data 4 20) (← slice data 24 (24 + SIG_LENGTH))
      then return .error .invalidSignature
      else parseExtended prims pubkey data ticketGuid expiry

/-! ### The layout of a ticket -/

/-- `n as u32`. -/
def asU32 (n : Nat) : UInt32 := UInt32.ofNat n

def buildExtra (entitlementHash : Bytes 20) (extraJson : List Char) : List UInt8 :=
  entitlementHash.1 ++ leBytes 4 (asU32 (utf8 extraJson).length).toNat ++ utf8 extraJson

/-- The ticket, before it is spelled in base64. -/
def buildData (prims : Primitives Public Private) (key : Private) (guid expiry : UInt64)
    (entitlementHash : Bytes 20) (extraJson : List Char) : List UInt8 :=
  let extra := buildExtra entitlementHash extraJson
  let inner := leBytes 8 guid.toNat ++ leBytes 8 expiry.toNat
  let sig1 := prims.sign key (signedDigest prims inner)
  let signed := inner ++ leBytes 4 (asU32 sig1.length).toNat ++ sig1
    ++ leBytes 4 (asU32 extra.length).toNat ++ extra
  let sig2 := prims.sign key (signedDigest prims signed)
  leBytes 4 (asU32 INNER_LENGTH).toNat ++ signed ++ leBytes 4 (asU32 sig2.length).toNat ++ sig2

def buildTicket (prims : Primitives Public Private) (key : Private) (guid expiry : UInt64)
    (entitlementHash : Bytes 20) (extraJson : List Char) : List Char :=
  prims.encode (buildData prims key guid expiry entitlementHash extraJson)

end Baston.Gateway

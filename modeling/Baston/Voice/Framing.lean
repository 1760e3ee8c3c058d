/-
Framing of the control channel (`framing.rs`), and the read loop of a connection (`run_client` of
`server/control.rs`).

A message on the wire is a preamble, its type and the length of its payload, and the payload.
The loop reads the preamble and then the payload, each with a `read_exact`: what has arrived and
is not enough yet waits.  A length over the limit closes the connection before a byte of the
payload is read, and a type that is not known costs the frame only.

A payload is the encoding of a message, and what `handle_message` does with it is not seen here:
the loop reads nothing but its verdict, whether the connection stays open.
-/
import Baston.Voice.Router

namespace Baston.Voice

def preambleSize : Nat := 6

inductive MessageType
  | version | udpTunnel | authenticate | ping | reject | serverSync | channelRemove | channelState
  | userRemove | userState | banList | textMessage | permissionDenied | acl | queryUsers
  | cryptSetup | contextActionModify | contextAction | userList | voiceTarget | permissionQuery
  | codecVersion | userStats | requestBlob | serverConfig | suggestConfig
  deriving DecidableEq

namespace MessageType

def fromU16 (v : UInt16) : Option MessageType :=
  match v.toNat with
  | 0 => some version
  | 1 => some udpTunnel
  | 2 => some authenticate
  | 3 => some ping
  | 4 => some reject
  | 5 => some serverSync
  | 6 => some channelRemove
  | 7 => some channelState
  | 8 => some userRemove
  | 9 => some userState
  | 10 => some banList
  | 11 => some textMessage
  | 12 => some permissionDenied
  | 13 => some acl
  | 14 => some queryUsers
  | 15 => some cryptSetup
  | 16 => some contextActionModify
  | 17 => some contextAction
  | 18 => some userList
  | 19 => some voiceTarget
  | 20 => some permissionQuery
  | 21 => some codecVersion
  | 22 => some userStats
  | 23 => some requestBlob
  | 24 => some serverConfig
  | 25 => some suggestConfig
  | _ => none

/-- The types are numbered in their order. -/
def tag (ty : MessageType) : UInt16 := UInt16.ofNat ty.ctorIdx

end MessageType

/-- The reading of two bytes, the higher one first. -/
def fromBe16 (b0 b1 : UInt8) : UInt16 := (b0.toUInt16 <<< 8) ||| b1.toUInt16

def fromBe32 (b0 b1 b2 b3 : UInt8) : UInt32 :=
  (b0.toUInt32 <<< 24) ||| (b1.toUInt32 <<< 16) ||| (b2.toUInt32 <<< 8) ||| b3.toUInt32

structure Preamble where
  ty : UInt16
  len : UInt32

namespace Preamble

/-- `none` while there are fewer than six bytes. -/
def parse (buf : List UInt8) : Option Preamble :=
  match buf with
  | b0 :: b1 :: b2 :: b3 :: b4 :: b5 :: _ => some ⟨fromBe16 b0 b1, fromBe32 b2 b3 b4 b5⟩
  | _ => none

end Preamble

inductive FrameError
  | tooLarge (len : Nat)

/-- `encode`, of a message whose encoding is `msg`. -/
def encode (ty : MessageType) (msg : List UInt8) : Except FrameError (List UInt8) :=
  match encodeFrame ty.tag msg with
  | some frame => .ok frame
  | none => .error (.tooLarge msg.length)

/-- What is written for a run of messages: `send` drops what cannot be encoded. -/
def sent (messages : List (MessageType × List UInt8)) : List UInt8 :=
  (messages.filterMap fun m => (encode m.1 m.2).toOption).flatten

/-! ### The read loop -/

/-- Waits until there are that many bytes. -/
def readExact (n : Nat) (arrived : List UInt8) : Option (List UInt8 × List UInt8) :=
  if arrived.length < n then none else some (arrived.take n, arrived.drop n)

/-- What a turn of the loop comes to, with what has arrived. -/
inductive Turn
  | waits
  | closes
  | skips (rest : List UInt8)
  | handles (ty : MessageType) (payload rest : List UInt8)

def readTurn (arrived : List UInt8) : Turn :=
  match readExact preambleSize arrived with
  | none => .waits
  | some (preamble, body) =>
    match Preamble.parse preamble with
    | none => .closes
    | some pre =>
      if MAX_MSGSIZE < pre.len.toNat then .closes
      else
        match readExact pre.len.toNat body with
        | none => .waits
        | some (payload, rest) =>
          match MessageType.fromU16 pre.ty with
          | none => .skips rest
          | some ty => .handles ty payload rest

structure ClientReader where
  /-- What has arrived and is not read yet. -/
  arrived : List UInt8 := []
  /-- How many messages have been handled. -/
  handled : Nat := 0
  isOpen : Bool := true

namespace ClientReader

/-- The turns of the loop until it waits or ends, and the messages they handle.  `verdict n` is
what `handle_message` returns for the `n`-th message of the connection.  Every turn takes a
preamble at least, so there are no more of them than bytes. -/
def turns (verdict : Nat → Bool) :
    Nat → ClientReader → ClientReader × List (MessageType × List UInt8)
  | 0, reader => (reader, [])
  | n + 1, reader =>
    match readTurn reader.arrived with
    | .waits => (reader, [])
    | .closes => ({ reader with isOpen := false }, [])
    | .skips rest => turns verdict n { reader with arrived := rest }
    | .handles ty payload rest =>
      if verdict reader.handled then
        let (reader, messages) :=
          turns verdict n { reader with arrived := rest, handled := reader.handled + 1 }
        (reader, (ty, payload) :: messages)
      else
        ({ arrived := rest, handled := reader.handled + 1, isOpen := false }, [(ty, payload)])

/-- More bytes arrive. -/
def arrive (verdict : Nat → Bool) (reader : ClientReader) (piece : List UInt8) :
    ClientReader × List (MessageType × List UInt8) :=
  if reader.isOpen then
    turns verdict (reader.arrived ++ piece).length
      { reader with arrived := reader.arrived ++ piece }
  else (reader, [])

/-- The messages that are handled while the bytes arrive. -/
def arriveAll (verdict : Nat → Bool) :
    ClientReader → List (List UInt8) → List (MessageType × List UInt8)
  | _, [] => []
  | reader, piece :: pieces =>
    let (reader, messages) := reader.arrive verdict piece
    messages ++ reader.arriveAll verdict pieces

end ClientReader

/-- `run_client`: the messages of a connection that are handled. -/
def runClient (verdict : Nat → Bool) (pieces : List (List UInt8)) :
    List (MessageType × List UInt8) :=
  ClientReader.arriveAll verdict {} pieces

end Baston.Voice
